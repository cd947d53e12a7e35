/-
# The enabled transports

`include/p3com/transport/transport_info.hpp`.  `TransportInfo` owns one transport object per type
and a bitset of the enabled types.  A transport is good until it calls `setFailed`; the next
`doFor` or `doForAllEnabled` that comes by sees the failure, sets the status to disabled, clears
the bit and calls the fail callback.  A disabled transport stays disabled.
-/
import P3com.Generic.Types

namespace P3com

/-- `TransportStatus`. -/
inductive TransportStatus
  | good
  | failed
  | disabled
deriving DecidableEq

/-- `s_transports` and `s_bitset`.  A slot is `none` for a null pointer. -/
structure TransportInfo where
  pcie : Option TransportStatus
  udp : Option TransportStatus
  tcp : Option TransportStatus
  bitset : Bitset
deriving DecidableEq

namespace TransportInfo

/-- The types with a slot, in the order of `s_transports`. -/
def types : List TransportType := [.pcie, .udp, .tcp]

def slot (t : TransportInfo) : TransportType → Option TransportStatus
  | .pcie => t.pcie
  | .udp => t.udp
  | .tcp => t.tcp
  | .none => none

def setSlot (t : TransportInfo) (type : TransportType) (status : TransportStatus) :
    TransportInfo :=
  match type with
  | .pcie => { t with pcie := some status }
  | .udp => { t with udp := some status }
  | .tcp => { t with tcp := some status }
  | .none => t

/-- `isGood` of the transport in the slot. -/
def isGood (t : TransportInfo) (type : TransportType) : Bool := t.slot type = some .good

/-- `setFailed`: only a good transport fails. -/
def setFailed (t : TransportInfo) (type : TransportType) : TransportInfo :=
  if t.isGood type then t.setSlot type .failed else t

/-- `hasFailedSetDisabled` and `disable`: `none` when the transport has not failed. -/
def disableFailed (t : TransportInfo) (type : TransportType) : Option TransportInfo :=
  if t.slot type = some .failed then
    let t := t.setSlot type .disabled
    some { t with bitset := t.bitset &&& ~~~ BitVec.twoPow 64 type.index }
  else none

/-- `findMatchingType`. -/
def findMatchingType (t : TransportInfo) (remoteBitset : Bitset) (preferredType : TransportType) :
    TransportType :=
  if preferredType ≠ .none ∧ remoteBitset.getLsbD preferredType.index ∧
      t.bitset.getLsbD preferredType.index then
    preferredType
  else
    (types.find? fun type => t.isGood type && remoteBitset.getLsbD type.index).getD .none

/-! ## Start-up -/

/-- Which of `PCIE_GATEWAY`, `UDP_GATEWAY` and `TCP_GATEWAY` the build defines. -/
structure Build where
  pcie : Bool
  udp : Bool
  tcp : Bool
deriving DecidableEq

def Build.has (build : Build) : TransportType → Bool
  | .pcie => build.pcie
  | .udp => build.udp
  | .tcp => build.tcp
  | .none => false

/-- No transport is enabled. -/
def empty : TransportInfo := ⟨none, none, none, 0⟩

/-- `enable`.  The bit is set also when the transport is missing from the build. -/
def enable (build : Build) (t : TransportInfo) (type : TransportType) : TransportInfo :=
  let t := { t with bitset := t.bitset ||| BitVec.twoPow 64 type.index }
  if build.has type then t.setSlot type .good else t

/-- The types that `enableAll` enables. -/
def Build.all (build : Build) : List TransportType :=
  types.filter fun type => build.has type && !(type = .udp && build.tcp)

/-- `CmdLineArgs_t`: the transports named by `--pcie`, `--udp` and `--tcp`, if any was. -/
structure CmdLineArgs where
  enabledTransports : TransportType → Bool
  enabledTransportSpecified : Bool

/-- `GatewayApp::enableTransports`. -/
def enableTransports (build : Build) (args : CmdLineArgs) : TransportInfo :=
  if args.enabledTransportSpecified then
    (types.filter args.enabledTransports).foldl (enable build) empty
  else build.all.foldl (enable build) empty

/-- Every good transport has its bit set. -/
def Enabled (t : TransportInfo) : Prop :=
  ∀ type, t.isGood type = true → t.bitset.getLsbD type.index = true

variable {t t' : TransportInfo} {type : TransportType}

@[simp] theorem bitset_setSlot (t : TransportInfo) (type : TransportType)
    (status : TransportStatus) : (t.setSlot type status).bitset = t.bitset := by
  cases type <;> rfl

theorem slot_setSlot_ne {type' : TransportType} (h : type' ≠ type) (status : TransportStatus) :
    (t.setSlot type status).slot type' = t.slot type' := by
  cases type <;> cases type' <;> first | rfl | exact absurd rfl h

theorem slot_setSlot_self (h : type ≠ .none) (status : TransportStatus) :
    (t.setSlot type status).slot type = some status := by
  cases type with
  | none => exact absurd rfl h
  | _ => rfl

theorem index_lt (type : TransportType) : type.index < 64 := by
  cases type <;> decide

theorem index_injective : Function.Injective TransportType.index := by
  intro a b h
  cases a <;> cases b <;> first | rfl | cases h

theorem mem_types_of_slot {status : TransportStatus} (h : t.slot type = some status) :
    type ∈ types := by
  cases type with
  | none => cases h
  | _ => decide

/-- The bits after `enable`. -/
theorem bitset_enable (build : Build) (t : TransportInfo) (type : TransportType) :
    (t.enable build type).bitset = t.bitset ||| BitVec.twoPow 64 type.index := by
  unfold enable
  dsimp only
  split
  · exact bitset_setSlot _ _ _
  · rfl

theorem getLsbD_enable (build : Build) (t : TransportInfo) (type type' : TransportType) :
    (t.enable build type).bitset.getLsbD type'.index
      = (t.bitset.getLsbD type'.index || decide (type' = type)) := by
  rw [bitset_enable, BitVec.getLsbD_or, BitVec.getLsbD_twoPow, decide_eq_true (index_lt type),
    Bool.true_and]
  congr 1
  exact decide_eq_decide.mpr ⟨fun h => index_injective h.symm, fun h => h ▸ rfl⟩

theorem slot_enable_ne (build : Build) {type' : TransportType} (h : type' ≠ type) :
    (t.enable build type).slot type' = t.slot type' := by
  unfold enable
  dsimp only
  split
  · rw [slot_setSlot_ne h]
    cases type' <;> rfl
  · cases type' <;> rfl

theorem Enabled.enable (h : t.Enabled) (build : Build) (type : TransportType) :
    (t.enable build type).Enabled := by
  intro type' hgood
  rw [getLsbD_enable]
  by_cases heq : type' = type
  · simp [heq]
  · unfold isGood at hgood
    rw [slot_enable_ne build heq] at hgood
    rw [h type' hgood, Bool.true_or]

theorem enabled_empty : empty.Enabled := by
  intro type hgood
  cases type <;> simp [isGood, slot, empty] at hgood

theorem Enabled.foldl_enable (h : t.Enabled) (build : Build) (types : List TransportType) :
    (types.foldl (TransportInfo.enable build) t).Enabled := by
  induction types generalizing t with
  | nil => exact h
  | cons type types ih => exact ih (h.enable build type)

/-- After start-up every good transport has its bit set. -/
theorem enabled_enableTransports (build : Build) (args : CmdLineArgs) :
    (enableTransports build args).Enabled := by
  unfold enableTransports
  split <;> exact enabled_empty.foldl_enable build _

/-! ## Failures -/

/-- A failure takes a good transport away and leaves the bits. -/
theorem isGood_setFailed {type' : TransportType} (h : (t.setFailed type).isGood type' = true) :
    t.isGood type' = true := by
  unfold setFailed at h
  split at h
  · by_cases heq : type' = type
    · subst heq
      assumption
    · unfold isGood at h ⊢
      rwa [slot_setSlot_ne heq] at h
  · exact h

@[simp] theorem bitset_setFailed (t : TransportInfo) (type : TransportType) :
    (t.setFailed type).bitset = t.bitset := by
  unfold setFailed
  split
  · exact bitset_setSlot _ _ _
  · rfl

theorem Enabled.setFailed (h : t.Enabled) (type : TransportType) : (t.setFailed type).Enabled := by
  intro type' hgood
  rw [bitset_setFailed]
  exact h type' (isGood_setFailed hgood)

/-- **What disabling a failed transport does.** -/
theorem disableFailed_cases (h : t.disableFailed type = some t') :
    t.slot type = some .failed ∧ t'.slot type = some .disabled ∧
      t'.bitset.getLsbD type.index = false ∧
      ∀ type', type' ≠ type → t'.slot type' = t.slot type' ∧
        t'.bitset.getLsbD type'.index = t.bitset.getLsbD type'.index := by
  unfold disableFailed at h
  split at h
  · rename_i hfailed
    have htype : type ≠ .none := by
      rintro rfl
      cases hfailed
    obtain rfl := Option.some.inj h
    refine ⟨hfailed, ?_, ?_, fun type' hne => ⟨?_, ?_⟩⟩
    · have := slot_setSlot_self (t := t) htype .disabled
      cases type <;> exact this
    · simp [index_lt]
    · have := slot_setSlot_ne (t := t) hne .disabled
      cases type' <;> exact this
    · have hidx : type.index ≠ type'.index := fun heq => hne (index_injective heq.symm)
      simp [hidx.symm, index_lt]
  · cases h

theorem Enabled.disableFailed (h : t.Enabled) (hd : t.disableFailed type = some t') :
    t'.Enabled := by
  obtain ⟨-, hslot, -, hother⟩ := disableFailed_cases hd
  intro type' hgood
  by_cases heq : type' = type
  · subst heq
    unfold isGood at hgood
    rw [hslot] at hgood
    cases of_decide_eq_true hgood
  · obtain ⟨hslot', hbit⟩ := hother type' heq
    unfold isGood at hgood
    rw [hslot'] at hgood
    rw [hbit]
    exact h type' hgood

/-- Every transport is good or already disabled. -/
def NoneFailed (t : TransportInfo) : Prop := ∀ type, t.slot type ≠ some .failed

instance (t : TransportInfo) : Decidable t.NoneFailed :=
  decidable_of_iff (∀ type ∈ types, t.slot type ≠ some .failed) <| by
    constructor
    · intro h type
      cases type with
      | none => simp [slot]
      | _ => exact h _ (by decide)
    · intro h type _
      exact h type

/-- A transport that has just failed is seen as failed. -/
theorem not_noneFailed_setFailed {t : TransportInfo} {type : TransportType}
    (h : t.isGood type = true) : ¬ (t.setFailed type).NoneFailed := by
  intro hn
  apply hn type
  rw [setFailed, if_pos h]
  cases type with
  | none => simp [isGood, slot] at h
  | _ => rfl

end TransportInfo

end P3com
