/-
# The advertised bits

`TransportInfo` keeps the transport objects and a bitset of the enabled types apart.  The bitset is
what the gateway announces, and what remote gateways choose a transport by, so bit `i` should be
set exactly when there is a transport with index `i` that is not disabled.

`enable` sets the bit before it looks whether the transport has been built.  If not, it logs an
error and the bit stays.  Nothing else goes wrong: with `enable` called for built types only, the
bits are right after every call and also while calls are under way (`advertised_bits_usable`).

`doFor` and `doForAllEnabled` call foreign code, a function of the caller and the fail callback,
which may call them again.  The calls under way are kept on a stack, and the foreign code is free in
what it calls.  A transport may fail at any time.
-/
import P3com.Transport.TransportInfo
import P3com.Lib.Run

namespace P3com

namespace TransportInfo

/-- There is a transport with this index that is not disabled. -/
def Usable (t : TransportInfo) (i : Nat) : Prop :=
  ∃ type status, type.index = i ∧ t.slot type = some status ∧ status ≠ .disabled

/-- The bits are those of the usable transports. -/
def AdvertisesUsable (t : TransportInfo) : Prop :=
  ∀ i, t.bitset.getLsbD i = true ↔ t.Usable i

/-- There are only transports that have been built. -/
def OnlyBuilt (build : Build) (t : TransportInfo) : Prop :=
  ∀ type, t.slot type ≠ none → build.has type = true

variable {build : Build} {t t' : TransportInfo} {type : TransportType} {i : Nat}

theorem usable_index : t.Usable type.index ↔ ∃ status, t.slot type = some status ∧
    status ≠ .disabled := by
  constructor
  · rintro ⟨type', status, hidx, h⟩
    obtain rfl := index_injective hidx
    exact ⟨status, h⟩
  · rintro ⟨status, h⟩
    exact ⟨type, status, rfl, h⟩

/-- An index is that of the type, or of another one, or of none. -/
theorem usable_congr (h : ∀ type', type' ≠ type → t'.slot type' = t.slot type')
    (hi : i ≠ type.index) : t'.Usable i ↔ t.Usable i := by
  unfold Usable
  refine exists_congr fun type' => exists_congr fun status => and_congr_right fun hidx => ?_
  rw [h type' (by rintro rfl; exact hi hidx.symm)]

/-! ## The operations -/

theorem slot_enable_self (h : build.has type = true) :
    (t.enable build type).slot type = some .good := by
  unfold enable
  dsimp only
  rw [if_pos h]
  exact slot_setSlot_self (by rintro rfl; cases h) .good

theorem getLsbD_enable_iff (build : Build) (t : TransportInfo) (type : TransportType) (i : Nat) :
    (t.enable build type).bitset.getLsbD i = true ↔ t.bitset.getLsbD i = true ∨ i = type.index := by
  rw [bitset_enable, BitVec.getLsbD_or, BitVec.getLsbD_twoPow, decide_eq_true (index_lt type),
    Bool.true_and, Bool.or_eq_true, decide_eq_true_eq]
  exact or_congr_right eq_comm

/-- **`enable`**: the bits stay right if and only if the type has been built. -/
theorem AdvertisesUsable.enable_iff (h : t.AdvertisesUsable) (hbuilt : t.OnlyBuilt build)
    (type : TransportType) : (t.enable build type).AdvertisesUsable ↔ build.has type = true := by
  constructor
  · intro h'
    have hbit := (getLsbD_enable_iff build t type type.index).mpr (Or.inr rfl)
    obtain ⟨status, hslot, -⟩ := usable_index.mp ((h' _).mp hbit)
    by_contra hnot
    have hsame : (t.enable build type).slot type = t.slot type := by
      unfold enable
      dsimp only
      rw [if_neg hnot]
      cases type <;> rfl
    rw [hsame] at hslot
    exact hnot (hbuilt type (by simp [hslot]))
  · intro hhas i
    rw [getLsbD_enable_iff]
    by_cases hi : i = type.index
    · subst hi
      exact iff_of_true (Or.inr rfl) (usable_index.mpr ⟨.good, slot_enable_self hhas, by decide⟩)
    · rw [or_iff_left hi, h i]
      exact (usable_congr (fun type' hne => slot_enable_ne build hne) hi).symm

theorem OnlyBuilt.enable (hbuilt : t.OnlyBuilt build) (type : TransportType) :
    (t.enable build type).OnlyBuilt build := by
  intro type' hslot
  by_cases heq : type' = type
  · subst heq
    by_contra hnot
    refine hslot ?_
    unfold TransportInfo.enable
    dsimp only
    rw [if_neg hnot]
    have hnone : t.slot type' = none := by
      by_contra hsome
      exact hnot (hbuilt type' hsome)
    cases type' <;> exact hnone
  · rw [slot_enable_ne build heq] at hslot
    exact hbuilt type' hslot

theorem slot_setFailed (t : TransportInfo) (type type' : TransportType) :
    (t.setFailed type).slot type' = t.slot type' ∨
      (t.slot type' = some .good ∧ (t.setFailed type).slot type' = some .failed) := by
  unfold setFailed
  split
  · rename_i hgood
    by_cases heq : type' = type
    · subst heq
      have hslot : t.slot type' = some .good := of_decide_eq_true hgood
      have hne : type' ≠ .none := by
        rintro rfl
        cases hslot
      exact Or.inr ⟨hslot, slot_setSlot_self hne .failed⟩
    · exact Or.inl (slot_setSlot_ne heq .failed)
  · exact Or.inl rfl

/-- A failure changes neither what is usable nor the bits. -/
theorem AdvertisesUsable.setFailed (h : t.AdvertisesUsable) (type : TransportType) :
    (t.setFailed type).AdvertisesUsable := by
  intro i
  rw [bitset_setFailed, h i]
  refine exists_congr fun type' => ?_
  rcases t.slot_setFailed type type' with heq | ⟨hgood, hfailed⟩
  · rw [heq]
  · rw [hgood, hfailed]
    simp

/-- The bits of the other indices. -/
theorem getLsbD_disableFailed (hd : t.disableFailed type = some t') (hi : i ≠ type.index) :
    t'.bitset.getLsbD i = t.bitset.getLsbD i := by
  unfold TransportInfo.disableFailed at hd
  split at hd
  · obtain rfl := Option.some.inj hd
    rcases Nat.lt_or_ge i 64 with hlt | hge
    · simp [hlt, hi]
    · rw [BitVec.getLsbD_of_ge _ _ hge, BitVec.getLsbD_of_ge _ _ hge]
  · cases hd

/-- Disabling a failed transport clears its bit. -/
theorem AdvertisesUsable.disableFailed (h : t.AdvertisesUsable)
    (hd : t.disableFailed type = some t') : t'.AdvertisesUsable := by
  obtain ⟨-, hdisabled, hbit, hother⟩ := disableFailed_cases hd
  intro i
  by_cases hi : i = type.index
  · subst hi
    rw [hbit, usable_index]
    simp [hdisabled]
  · rw [getLsbD_disableFailed hd hi, h i]
    exact (usable_congr (fun type' hne => (hother type' hne).1) hi).symm

theorem OnlyBuilt.setFailed (hbuilt : t.OnlyBuilt build) (type : TransportType) :
    (t.setFailed type).OnlyBuilt build := by
  intro type' hslot
  refine hbuilt type' fun hnone => hslot ?_
  rcases t.slot_setFailed type type' with heq | ⟨hgood, -⟩
  · rw [heq, hnone]
  · rw [hgood] at hnone
    cases hnone

theorem OnlyBuilt.disableFailed (hbuilt : t.OnlyBuilt build)
    (hd : t.disableFailed type = some t') : t'.OnlyBuilt build := by
  obtain ⟨hfailed, -, -, hother⟩ := disableFailed_cases hd
  intro type' hslot
  by_cases heq : type' = type
  · subst heq
    exact hbuilt type' (by simp [hfailed])
  · rw [(hother type' heq).1] at hslot
    exact hbuilt type' hslot

/-- `enableAll` enables built types only. -/
theorem AdvertisesUsable.foldl_enable (h : t.AdvertisesUsable) (hbuilt : t.OnlyBuilt build)
    {types : List TransportType} (htypes : ∀ type ∈ types, build.has type = true) :
    (types.foldl (TransportInfo.enable build) t).AdvertisesUsable ∧
      (types.foldl (TransportInfo.enable build) t).OnlyBuilt build := by
  induction types generalizing t with
  | nil => exact ⟨h, hbuilt⟩
  | cons type types ih =>
    obtain ⟨htype, hrest⟩ := List.forall_mem_cons.mp htypes
    exact ih ((h.enable_iff hbuilt type).mpr htype) (hbuilt.enable type) hrest

theorem has_of_mem_all (h : type ∈ build.all) : build.has type = true := by
  have := (List.mem_filter.mp h).2
  simp only [Bool.and_eq_true] at this
  exact this.1

end TransportInfo

/-! ## Calls -/

namespace AdvertisedBits

/-- A call under way. -/
inductive Frame
  /-- The function of the caller, or the fail callback. -/
  | foreign
  /-- `doFor`, after its function. -/
  | doFor (type : TransportType)
  /-- The first loop of `doForAllEnabled`, with the types that it has yet to visit. -/
  | doForAllEnabled (types : List TransportType)
  /-- The second loop. -/
  | disableAllFailed (types : List TransportType)
deriving DecidableEq

/-- `s_transports` and `s_bitset`, whether `s_failCallback` is registered, and the calls under way,
the innermost one first. -/
structure State where
  transports : TransportInfo
  failCallback : Bool
  stack : List Frame
deriving DecidableEq

def State.init : State := ⟨.empty, false, []⟩

inductive Label
  | registerTransportFailCallback
  | enable (type : TransportType)
  | enableAll
  | doFor (type : TransportType)
  | doForAllEnabled
  /-- A transport calls `setFailed`. -/
  | setFailed (type : TransportType)
  /-- The innermost call goes on. -/
  | proceed
deriving DecidableEq

namespace State

/-- Only code outside of `TransportInfo` makes a call. -/
def mayCall (s : State) : Bool :=
  match s.stack with
  | [] => true
  | frame :: _ => frame = .foreign

/-- The test before the function of the caller. -/
def callFn (s : State) (type : TransportType) (rest : List Frame) : State :=
  { s with stack := if s.transports.isGood type then .foreign :: rest else rest }

/-- The test for a failure: disable the transport, and call the fail callback. -/
def disableFailed (s : State) (type : TransportType) (rest : List Frame) : State :=
  match s.transports.disableFailed type with
  | none => { s with stack := rest }
  | some transports =>
    { s with transports, stack := if s.failCallback then .foreign :: rest else rest }

/-- The innermost call goes on. -/
def proceed (s : State) : Option State :=
  match s.stack with
  | [] => none
  | .foreign :: rest => some { s with stack := rest }
  | .doFor type :: rest => some (s.disableFailed type rest)
  | .doForAllEnabled (type :: types) :: rest =>
    some (s.callFn type (.doForAllEnabled types :: rest))
  | .doForAllEnabled [] :: rest =>
    some { s with stack := .disableAllFailed TransportInfo.types :: rest }
  | .disableAllFailed (type :: types) :: rest =>
    some (s.disableFailed type (.disableAllFailed types :: rest))
  | .disableAllFailed [] :: rest => some { s with stack := rest }

end State

/-- One step.  `doFor` of no type is out of the bounds of `s_transports`. -/
def step (build : TransportInfo.Build) (s : State) : Label → Option State
  | .registerTransportFailCallback =>
    if s.mayCall then some { s with failCallback := true } else none
  | .enable type =>
    if s.mayCall then some { s with transports := s.transports.enable build type } else none
  | .enableAll =>
    if s.mayCall then
      some { s with transports := build.all.foldl (TransportInfo.enable build) s.transports }
    else none
  | .doFor type =>
    if s.mayCall ∧ type ≠ .none then some (s.callFn type (.doFor type :: s.stack)) else none
  | .doForAllEnabled =>
    if s.mayCall then some { s with stack := .doForAllEnabled TransportInfo.types :: s.stack }
    else none
  | .setFailed type => some { s with transports := s.transports.setFailed type }
  | .proceed => s.proceed

/-- A type that is enabled has been built. -/
def Label.EnablesBuilt (build : TransportInfo.Build) : Label → Prop
  | .enable type => build.has type = true
  | _ => True

instance (build : TransportInfo.Build) : (l : Label) → Decidable (l.EnablesBuilt build)
  | .enable _ => inferInstanceAs (Decidable (_ = _))
  | .registerTransportFailCallback | .enableAll | .doFor _ | .doForAllEnabled | .setFailed _
  | .proceed => isTrue trivial

/-- What every run keeps. -/
structure Inv (build : TransportInfo.Build) (t : TransportInfo) : Prop where
  bits : t.AdvertisesUsable
  built : t.OnlyBuilt build

variable {build : TransportInfo.Build} {s s' : State} {l : Label}

theorem inv_empty : Inv build .empty := by
  refine ⟨fun i => ?_, fun type hslot => ?_⟩
  · have hnone : ¬ TransportInfo.empty.Usable i := by
      rintro ⟨type, status, -, hslot, -⟩
      cases type <;> cases hslot
    refine iff_of_false ?_ hnone
    simp [TransportInfo.empty]
  · cases type <;> exact absurd rfl hslot

theorem Inv.disableFailed (hs : Inv build s.transports) (type : TransportType)
    (rest : List Frame) : Inv build (s.disableFailed type rest).transports := by
  unfold State.disableFailed
  split
  · exact hs
  · rename_i t ht
    exact ⟨hs.bits.disableFailed ht, hs.built.disableFailed ht⟩

/-- The innermost call keeps the bits right, wherever it is. -/
theorem Inv.proceed (hs : Inv build s.transports) (h : s.proceed = some s') :
    Inv build s'.transports := by
  unfold State.proceed at h
  split at h
  · cases h
  · obtain rfl := Option.some.inj h
    exact hs
  · obtain rfl := Option.some.inj h
    exact hs.disableFailed _ _
  · obtain rfl := Option.some.inj h
    exact hs
  · obtain rfl := Option.some.inj h
    exact hs
  · obtain rfl := Option.some.inj h
    exact hs.disableFailed _ _
  · obtain rfl := Option.some.inj h
    exact hs

/-- **One step**: the bits stay right if and only if a type that is enabled has been built. -/
theorem inv_step (hs : Inv build s.transports) (h : step build s l = some s') :
    s'.transports.OnlyBuilt build ∧
      (s'.transports.AdvertisesUsable ↔ l.EnablesBuilt build) := by
  have hkeep : Inv build s'.transports → l.EnablesBuilt build →
      s'.transports.OnlyBuilt build ∧ (s'.transports.AdvertisesUsable ↔ l.EnablesBuilt build) :=
    fun hs' hl => ⟨hs'.built, iff_of_true hs'.bits hl⟩
  cases l with
  | registerTransportFailCallback =>
    simp only [step] at h
    split at h
    · obtain rfl := Option.some.inj h
      exact hkeep hs trivial
    · cases h
  | enable type =>
    simp only [step] at h
    split at h
    · obtain rfl := Option.some.inj h
      exact ⟨hs.built.enable type, hs.bits.enable_iff hs.built type⟩
    · cases h
  | enableAll =>
    simp only [step] at h
    split at h
    · obtain rfl := Option.some.inj h
      obtain ⟨hbits, hbuilt⟩ := hs.bits.foldl_enable hs.built
        fun type htype => TransportInfo.has_of_mem_all htype
      exact hkeep ⟨hbits, hbuilt⟩ trivial
    · cases h
  | doFor type =>
    simp only [step] at h
    split at h
    · obtain rfl := Option.some.inj h
      exact hkeep hs trivial
    · cases h
  | doForAllEnabled =>
    simp only [step] at h
    split at h
    · obtain rfl := Option.some.inj h
      exact hkeep hs trivial
    · cases h
  | setFailed type =>
    obtain rfl := Option.some.inj h
    exact hkeep ⟨hs.bits.setFailed type, hs.built.setFailed type⟩ trivial
  | proceed => exact hkeep (hs.proceed h) trivial

/-- **The advertised bits are those of the usable transports**, in every state of every run in which
`enable` is called for built types only: after each call, and inside of calls too.  Enabling a type
that has not been built sets a bit without a transport. -/
theorem advertised_bits_usable (build : TransportInfo.Build) {ls : List Label}
    (hbuilt : ∀ l ∈ ls, l.EnablesBuilt build)
    (h : Run.exec (step build) State.init ls = some s) :
    (∀ i, s.transports.bitset.getLsbD i = true ↔ ∃ type status, type.index = i ∧
        s.transports.slot type = some status ∧ status ≠ .disabled) ∧
      ∀ l s', step build s l = some s' →
        (s'.transports.AdvertisesUsable ↔ l.EnablesBuilt build) := by
  have hs : Inv build s.transports := by
    refine Run.invariant_guarded (fun s => Inv build s.transports) (fun s l s' hs hl hstep => ?_)
      inv_empty (Run.guarded_of_forall hbuilt State.init) h
    obtain ⟨hbuilt', hiff⟩ := inv_step hs hstep
    exact ⟨hiff.mpr hl, hbuilt'⟩
  exact ⟨hs.bits, fun l s' hstep => (inv_step hs hstep).2⟩

/-- A build with UDP alone. -/
def demoBuild : TransportInfo.Build := ⟨false, true, false⟩

/-- UDP fails in a broadcast, and the next test disables it. -/
def demoRun : List Label :=
  [.enableAll, .registerTransportFailCallback, .doForAllEnabled, .proceed, .proceed,
    .setFailed .udp, .proceed, .proceed, .proceed, .proceed, .proceed, .proceed, .proceed, .proceed]

theorem advertised_bits_usable_demo :
    ∃ s, Run.exec (step demoBuild) State.init demoRun = some s ∧ s.stack = [] ∧
      s.transports.udp = some .disabled ∧
      ∀ i, s.transports.bitset.getLsbD i = true ↔ s.transports.Usable i := by
  have hbuilt : ∀ l ∈ demoRun, l.EnablesBuilt demoBuild := by decide
  exact ⟨_, rfl, by decide, by decide, (advertised_bits_usable demoBuild hbuilt rfl).1⟩

/-- PCIe is enabled on a build without it: the bit is set, and there is no transport. -/
theorem unbuilt_type_advertised :
    ∃ s, Run.exec (step demoBuild) State.init [.enable .pcie] = some s ∧
      s.transports.bitset.getLsbD TransportType.pcie.index = true ∧ s.transports.pcie = none ∧
      ¬ s.transports.AdvertisesUsable := by
  refine ⟨_, rfl, by decide, by decide, fun h => ?_⟩
  obtain ⟨status, hslot, -⟩ := TransportInfo.usable_index.mp
    ((h TransportType.pcie.index).mp (by decide))
  cases hslot

end AdvertisedBits

end P3com
