/-
# A cascade of failures

`doForAllEnabled` of `include/p3com/transport/transport_info.hpp`, called by `sendDiscoveryInfo` of
`source/p3com/generic/discovery.cpp`.  A broadcast may set its transport to failed.  The second loop
of `doForAllEnabled` disables the failed transports and calls the fail callback for each of them,
and the callback broadcasts a new discovery info: `sendDiscoveryInfo` is called from inside itself,
and the inner call may find, and disable, transports which the loops outside have yet to visit.

Why this settles:

1. The callback is called only after a transport has been disabled, and a disabled transport stays
   disabled.  So the calls are nested at most as deep as there are transports (`live`).
2. Of each transport every call gives an exact account (`Progress`): what was good is good or has
   failed in a broadcast, what has failed is failed or got its callback.  The accounts of
   successive calls add up.
3. Old infos are broadcast before newer ones.  When an inner call returns, the last info on every
   good transport has the current bits (`Announced`), and as long as nothing fails the bits do not
   change.

Which broadcast fails is decided by `fails`, a function of the number of the broadcast; the hashes
that `generateHash` returns are numbered by the callbacks.
-/
import P3com.Generic.Discovery

namespace P3com

/-- Whether the transport has this status, as a number. -/
def TransportInfo.has (t : TransportInfo) (status : TransportStatus) (type : TransportType) : Nat :=
  if t.slot type = some status then 1 else 0

namespace TransportInfo

variable {t t' : TransportInfo} {status : TransportStatus} {type : TransportType}

theorem has_eq_one : t.has status type = 1 ↔ t.slot type = some status := by
  unfold has
  split <;> simp [*]

/-- A transport has one status at most. -/
theorem has_le_one (t : TransportInfo) (type : TransportType) :
    t.has .good type + t.has .failed type + t.has .disabled type ≤ 1 := by
  unfold has
  cases t.slot type with
  | none => simp
  | some status => cases status <;> simp

theorem slot_eq_of_has (h : ∀ status, t.has status type = t'.has status type) :
    t.slot type = t'.slot type := by
  refine Option.ext fun status => ?_
  rw [← has_eq_one, ← has_eq_one, h]

/-- Whether the transport is there and not disabled, as a number. -/
def alive (t : TransportInfo) (type : TransportType) : Nat := t.has .good type + t.has .failed type

/-- The number of transports that are not disabled. -/
def live (t : TransportInfo) : Nat := t.alive .pcie + t.alive .udp + t.alive .tcp

end TransportInfo

namespace FailureCascade

/-! ## The code -/

/-- A call of `sendBroadcast`, and whether the transport has failed in it. -/
structure Broadcast where
  type : TransportType
  info : PubSubInfo
  failed : Bool
deriving DecidableEq

/-- The transports and the discovery manager, with the calls of `sendBroadcast` and those of the
fail callback, the last ones first. -/
structure State where
  transports : TransportInfo
  discovery : Discovery
  broadcasts : List Broadcast
  callbacks : List TransportType
deriving DecidableEq

section

variable (fails : Nat → Bool) (generateHash : Nat → Hash)

/-- The body of the first loop of `doForAllEnabled`, with `sendBroadcast` as the function. -/
def State.sendBroadcast (info : PubSubInfo) (s : State) (type : TransportType) : State :=
  if s.transports.isGood type then
    let failed := fails s.broadcasts.length
    { s with
      transports := if failed then s.transports.setFailed type else s.transports
      broadcasts := ⟨type, info, failed⟩ :: s.broadcasts }
  else s

/-- The fail callback. -/
def State.failCallback (sendDiscoveryInfo : State → PubSubInfo → Option State) (s : State) :
    Option State :=
  let s := { s with
    discovery := { s.discovery with deviceIndicesCache := s.discovery.deviceIndicesCache.clear } }
  if s.discovery.terminateFlag then some s
  else sendDiscoveryInfo s
    (s.discovery.generateDiscoveryInfo s.transports.bitset (generateHash s.callbacks.length))

/-- The body of the second loop. -/
def State.disableFailed (sendDiscoveryInfo : State → PubSubInfo → Option State) (s : State)
    (type : TransportType) : Option State :=
  match s.transports.disableFailed type with
  | none => some s
  | some transports =>
    { s with transports, callbacks := type :: s.callbacks }.failCallback generateHash
      sendDiscoveryInfo

/-- `sendDiscoveryInfo`: `none` when the calls are nested deeper than the first argument. -/
def sendDiscoveryInfo : Nat → State → PubSubInfo → Option State
  | 0, _, _ => none
  | fuel + 1, s, info =>
    TransportInfo.types.foldlM (State.disableFailed generateHash (sendDiscoveryInfo fuel))
      (TransportInfo.types.foldl (State.sendBroadcast fails info) s)

end

/-! ## The account of a call -/

/-- The broadcasts of the type in which its transport has failed. -/
def failures (bs : List Broadcast) (type : TransportType) : Nat :=
  bs.countP fun b => b.type = type && b.failed

/-- From `s` to `s'` there were the broadcasts `bs` and the callbacks `cs`, and every change of a
transport is among them. -/
structure Progress (s s' : State) (bs : List Broadcast) (cs : List TransportType) : Prop where
  broadcasts : s'.broadcasts = bs ++ s.broadcasts
  callbacks : s'.callbacks = cs ++ s.callbacks
  good : ∀ type, s.transports.has .good type = s'.transports.has .good type + failures bs type
  failed : ∀ type, s.transports.has .failed type + failures bs type
    = s'.transports.has .failed type + cs.count type
  disabled : ∀ type, s'.transports.has .disabled type
    = s.transports.has .disabled type + cs.count type
  cache : s'.discovery.deviceIndicesCache = .empty ∨
    (cs = [] ∧ s'.discovery.deviceIndicesCache = s.discovery.deviceIndicesCache)
  flag : s'.discovery.terminateFlag = s.discovery.terminateFlag

/-- The last info broadcast on every good transport has the current bits. -/
def Announced (s : State) : Prop :=
  ∀ type, s.transports.isGood type = true →
    ∃ b, s.broadcasts.find? (fun b => b.type = type) = some b ∧
      b.info.gatewayBitset = s.transports.bitset

variable {fails : Nat → Bool} {generateHash : Nat → Hash} {s s₁ s₂ s' : State} {info : PubSubInfo}
  {type : TransportType} {bs bs' : List Broadcast} {cs cs' : List TransportType}

theorem Progress.refl (s : State) : Progress s s [] [] where
  broadcasts := rfl
  callbacks := rfl
  good := fun _ => rfl
  failed := fun _ => rfl
  disabled := fun _ => rfl
  cache := Or.inr ⟨rfl, rfl⟩
  flag := rfl

/-- The accounts of two calls, one after the other, add up. -/
theorem Progress.trans (h : Progress s s₁ bs cs) (h' : Progress s₁ s' bs' cs') :
    Progress s s' (bs' ++ bs) (cs' ++ cs) where
  broadcasts := by rw [h'.broadcasts, h.broadcasts, List.append_assoc]
  callbacks := by rw [h'.callbacks, h.callbacks, List.append_assoc]
  good := by
    intro type
    have h₁ := h.good type
    have h₂ := h'.good type
    simp only [failures, List.countP_append] at h₁ h₂ ⊢
    omega
  failed := by
    intro type
    have h₁ := h.failed type
    have h₂ := h'.failed type
    simp only [failures, List.countP_append, List.count_append] at h₁ h₂ ⊢
    omega
  disabled := by
    intro type
    rw [h'.disabled, h.disabled, List.count_append]
    omega
  cache := by
    rcases h'.cache with hempty | ⟨rfl, hsame⟩
    · exact Or.inl hempty
    · rw [hsame]
      simpa using h.cache
  flag := h'.flag.trans h.flag

/-- What is good was good. -/
theorem Progress.isGood (h : Progress s s' bs cs) (hgood : s'.transports.isGood type = true) :
    s.transports.isGood type = true := by
  have := h.good type
  unfold TransportInfo.isGood at *
  unfold TransportInfo.has at this
  rw [if_pos (of_decide_eq_true hgood)] at this
  split at this
  · exact decide_eq_true ‹_›
  · omega

/-- Nothing comes back to life. -/
theorem Progress.live_le (h : Progress s s' bs cs) : s'.transports.live ≤ s.transports.live := by
  have hle : ∀ type, s'.transports.alive type ≤ s.transports.alive type := by
    intro type
    have := h.good type
    have := h.failed type
    unfold TransportInfo.alive
    omega
  have h₁ := hle .pcie
  have h₂ := hle .udp
  have h₃ := hle .tcp
  unfold TransportInfo.live
  omega

theorem live_le (t : TransportInfo) : t.live ≤ TransportInfo.types.length := by
  have h₁ := TransportInfo.has_le_one t .pcie
  have h₂ := TransportInfo.has_le_one t .udp
  have h₃ := TransportInfo.has_le_one t .tcp
  change t.live ≤ 3
  unfold TransportInfo.live TransportInfo.alive
  omega

/-! ## The first loop -/

/-- One broadcast. -/
theorem progress_sendBroadcast (fails : Nat → Bool) (info : PubSubInfo) (s : State)
    (type : TransportType) :
    ∃ bs, Progress s (s.sendBroadcast fails info type) bs [] := by
  unfold State.sendBroadcast
  split
  · rename_i hgood
    have hslot : s.transports.slot type = some .good := of_decide_eq_true hgood
    have hne : type ≠ .none := by
      rintro rfl
      cases hslot
    refine ⟨[⟨type, info, fails s.broadcasts.length⟩], rfl, rfl, fun type' => ?_, fun type' => ?_,
      fun type' => ?_, Or.inr ⟨rfl, rfl⟩, rfl⟩
    all_goals
      simp only [failures, List.countP_singleton]
      cases fails s.broadcasts.length with
      | false => simp
      | true =>
        by_cases heq : type' = type
        · subst heq
          simp [TransportInfo.has, TransportInfo.setFailed, hgood, hslot,
            TransportInfo.slot_setSlot_self hne]
        · have hne' : ¬ type = type' := fun h => heq h.symm
          simp [TransportInfo.has, TransportInfo.setFailed, hgood,
            TransportInfo.slot_setSlot_ne heq, hne']
  · exact ⟨[], Progress.refl s⟩

/-- A broadcast changes neither the bits nor the discovery manager. -/
theorem sendBroadcast_frame (fails : Nat → Bool) (info : PubSubInfo) (s : State)
    (type : TransportType) :
    (s.sendBroadcast fails info type).transports.bitset = s.transports.bitset ∧
      (s.sendBroadcast fails info type).discovery = s.discovery := by
  unfold State.sendBroadcast
  split
  · refine ⟨?_, rfl⟩
    dsimp only
    split
    · exact TransportInfo.bitset_setFailed _ _
    · rfl
  · exact ⟨rfl, rfl⟩

/-- The last broadcast on the transport was of this info. -/
def Latest (info : PubSubInfo) (s : State) (type : TransportType) : Prop :=
  ∃ b, s.broadcasts.find? (fun b => b.type = type) = some b ∧ b.info = info

theorem latest_sendBroadcast_self (hgood : s.transports.isGood type = true) :
    Latest info (s.sendBroadcast fails info type) type := by
  unfold State.sendBroadcast
  rw [if_pos hgood]
  exact ⟨⟨type, info, fails s.broadcasts.length⟩, by simp, rfl⟩

theorem latest_sendBroadcast_of_latest {type' : TransportType} (h : Latest info s type') :
    Latest info (s.sendBroadcast fails info type) type' := by
  by_cases heq : type = type'
  · subst heq
    cases hgood : s.transports.isGood type with
    | true => exact latest_sendBroadcast_self hgood
    | false =>
      unfold State.sendBroadcast
      rwa [if_neg (by simp [hgood])]
  · unfold State.sendBroadcast
    split
    · obtain ⟨b, hb, hinfo⟩ := h
      exact ⟨b, by simpa [heq] using hb, hinfo⟩
    · exact h

/-- **The first loop**: the info is the last one on every transport that is still good. -/
theorem sendBroadcasts_spec (fails : Nat → Bool) (info : PubSubInfo)
    (types : List TransportType) (s : State) :
    (∃ bs, Progress s (types.foldl (State.sendBroadcast fails info) s) bs []) ∧
      (types.foldl (State.sendBroadcast fails info) s).transports.bitset = s.transports.bitset ∧
      (types.foldl (State.sendBroadcast fails info) s).discovery = s.discovery ∧
      ∀ type, (types.foldl (State.sendBroadcast fails info) s).transports.isGood type = true →
        type ∈ types ∨ Latest info s type →
        Latest info (types.foldl (State.sendBroadcast fails info) s) type := by
  induction types generalizing s with
  | nil =>
    refine ⟨⟨[], Progress.refl s⟩, rfl, rfl, fun type _ h => ?_⟩
    exact h.resolve_left List.not_mem_nil
  | cons type types ih =>
    rw [List.foldl_cons]
    obtain ⟨bs, hprog⟩ := progress_sendBroadcast fails info s type
    obtain ⟨hbits, hdisc⟩ := sendBroadcast_frame fails info s type
    obtain ⟨⟨bs', hprog'⟩, hbits', hdisc', hlatest⟩ := ih (s.sendBroadcast fails info type)
    refine ⟨⟨bs' ++ bs, hprog.trans hprog'⟩, hbits'.trans hbits, hdisc'.trans hdisc,
      fun type' hgood h => hlatest type' hgood ?_⟩
    rcases h with hmem | hl
    · rcases List.mem_cons.mp hmem with rfl | hmem
      · exact Or.inr (latest_sendBroadcast_self (hprog.isGood (hprog'.isGood hgood)))
      · exact Or.inl hmem
    · exact Or.inr (latest_sendBroadcast_of_latest hl)

/-! ## The second loop -/

/-- What a call of `sendDiscoveryInfo` has to do. -/
def Settles (s : State) (result : Option State) : Prop :=
  ∃ s' bs cs, result = some s' ∧ Progress s s' bs cs ∧ s'.transports.NoneFailed ∧ Announced s'

/-- The account of disabling a transport, before its callback. -/
theorem progress_disableFailed {transports : TransportInfo}
    (h : s.transports.disableFailed type = some transports) :
    Progress s { s with
      transports
      callbacks := type :: s.callbacks
      discovery := { s.discovery with deviceIndicesCache := .empty } } [] [type] := by
  obtain ⟨hslot, hslot', -, hother⟩ := TransportInfo.disableFailed_cases h
  refine ⟨rfl, rfl, fun type' => ?_, fun type' => ?_, fun type' => ?_, Or.inl rfl, rfl⟩
  all_goals
    by_cases heq : type' = type
    · subst heq
      simp [TransportInfo.has, hslot, hslot', failures]
    · have hne : ¬ type = type' := fun h => heq h.symm
      simp [TransportInfo.has, (hother type' heq).1, failures, hne]

/-- Disabling takes one transport away. -/
theorem live_disableFailed {t transports : TransportInfo}
    (h : t.disableFailed type = some transports) : transports.live < t.live := by
  obtain ⟨hslot, hslot', -, hother⟩ := TransportInfo.disableFailed_cases h
  have hself : transports.alive type + 1 = t.alive type := by
    simp [TransportInfo.alive, TransportInfo.has, hslot, hslot']
  have hrest : ∀ type', type' ≠ type → transports.alive type' = t.alive type' := by
    intro type' hne
    simp [TransportInfo.alive, TransportInfo.has, (hother type' hne).1]
  unfold TransportInfo.live
  cases type with
  | pcie =>
    have := hrest .udp (by decide)
    have := hrest .tcp (by decide)
    omega
  | udp =>
    have := hrest .pcie (by decide)
    have := hrest .tcp (by decide)
    omega
  | tcp =>
    have := hrest .pcie (by decide)
    have := hrest .udp (by decide)
    omega
  | none => cases hslot

/-- One round of the second loop: nothing, if the transport has not failed, or a settled state. -/
theorem disableFailed_spec (generateHash : Nat → Hash) (type : TransportType) {fuel : Nat}
    {send : State → PubSubInfo → Option State}
    (hsend : ∀ s info, s.transports.live < fuel → s.discovery.terminateFlag = false →
      info.gatewayBitset = s.transports.bitset → Settles s (send s info))
    (hlive : s.transports.live ≤ fuel) (hflag : s.discovery.terminateFlag = false) :
    (s.transports.slot type ≠ some .failed ∧
        s.disableFailed generateHash send type = some s) ∨
      Settles s (s.disableFailed generateHash send type) := by
  unfold State.disableFailed
  cases hd : s.transports.disableFailed type with
  | none =>
    refine Or.inl ⟨fun hfailed => ?_, rfl⟩
    simp [TransportInfo.disableFailed, hfailed] at hd
  | some transports =>
    refine Or.inr ?_
    have hprog := progress_disableFailed hd
    have hlt := live_disableFailed hd
    unfold State.failCallback
    dsimp only
    rw [if_neg (by simp [hflag])]
    obtain ⟨s', bs, cs, heq, hprog', hnone, hann⟩ := hsend
      { s with
        transports
        callbacks := type :: s.callbacks
        discovery := { s.discovery with deviceIndicesCache := .empty } }
      (Discovery.generateDiscoveryInfo
        { s.discovery with deviceIndicesCache := .empty } transports.bitset
        (generateHash (type :: s.callbacks).length))
      (by dsimp only; omega) hflag rfl
    exact ⟨s', bs ++ [], cs ++ [type], heq, hprog.trans hprog', hnone, hann⟩

/-- **The second loop**: every visited transport is no longer failed. -/
theorem disableFailed_all_spec (generateHash : Nat → Hash) {fuel : Nat}
    {send : State → PubSubInfo → Option State}
    (hsend : ∀ s info, s.transports.live < fuel → s.discovery.terminateFlag = false →
      info.gatewayBitset = s.transports.bitset → Settles s (send s info))
    (types : List TransportType) (hlive : s.transports.live ≤ fuel)
    (hflag : s.discovery.terminateFlag = false) (hann : Announced s) :
    ∃ s' bs cs, types.foldlM (State.disableFailed generateHash send) s = some s' ∧
      Progress s s' bs cs ∧ Announced s' ∧
      ∀ type, type ∈ types ∨ s.transports.slot type ≠ some .failed →
        s'.transports.slot type ≠ some .failed := by
  induction types generalizing s with
  | nil =>
    refine ⟨s, [], [], rfl, Progress.refl s, hann, fun type h => ?_⟩
    exact h.resolve_left List.not_mem_nil
  | cons type types ih =>
    rw [List.foldlM_cons]
    rcases disableFailed_spec generateHash type hsend hlive hflag with
      ⟨hslot, heq⟩ | ⟨s₁, bs, cs, heq, hprog, hnone, hann₁⟩
    · rw [heq]
      obtain ⟨s', bs, cs, hres, hprog, hann', hfree⟩ := ih hlive hflag hann
      refine ⟨s', bs, cs, hres, hprog, hann', fun type' h => hfree type' ?_⟩
      rcases h with hmem | h
      · rcases List.mem_cons.mp hmem with rfl | hmem
        · exact Or.inr hslot
        · exact Or.inl hmem
      · exact Or.inr h
    · rw [heq]
      obtain ⟨s', bs', cs', hres, hprog', hann', hfree⟩ :=
        ih (Nat.le_trans hprog.live_le hlive) (hprog.flag.trans hflag) hann₁
      refine ⟨s', bs' ++ bs, cs' ++ cs, hres, hprog.trans hprog', hann', fun type' _ => ?_⟩
      exact hfree type' (Or.inr (hnone type'))

/-! ## The whole cascade -/

/-- **Every call settles** that has fuel for the transports that are left. -/
theorem sendDiscoveryInfo_settles (fails : Nat → Bool) (generateHash : Nat → Hash) (fuel : Nat)
    (s : State) (info : PubSubInfo) (hlive : s.transports.live < fuel)
    (hflag : s.discovery.terminateFlag = false)
    (hinfo : info.gatewayBitset = s.transports.bitset) :
    Settles s (sendDiscoveryInfo fails generateHash fuel s info) := by
  induction fuel generalizing s info with
  | zero => omega
  | succ fuel ih =>
    obtain ⟨⟨bs, hprog⟩, hbits, hdisc, hlatest⟩ :=
      sendBroadcasts_spec fails info TransportInfo.types s
    unfold sendDiscoveryInfo
    generalize TransportInfo.types.foldl (State.sendBroadcast fails info) s = s₁ at *
    have hann : Announced s₁ := by
      intro type hgood
      have hmem : type ∈ TransportInfo.types :=
        TransportInfo.mem_types_of_slot (of_decide_eq_true hgood)
      obtain ⟨b, hb, rfl⟩ := hlatest type hgood (Or.inl hmem)
      exact ⟨b, hb, hinfo.trans hbits.symm⟩
    obtain ⟨s', bs', cs, hres, hprog', hann', hfree⟩ :=
      disableFailed_all_spec (s := s₁) generateHash ih TransportInfo.types
        (by have := hprog.live_le; omega) (hdisc ▸ hflag) hann
    refine ⟨s', bs' ++ bs, cs ++ [], hres, hprog.trans hprog', fun type hfailed => ?_, hann'⟩
    exact hfree type (Or.inl (TransportInfo.mem_types_of_slot hfailed)) hfailed

/-- The transport was failed already, or has failed in one of the broadcasts. -/
def Failed (s : State) (bs : List Broadcast) (type : TransportType) : Prop :=
  s.transports.slot type = some .failed ∨ ∃ b ∈ bs, b.type = type ∧ b.failed = true

/-- What the account says of a transport when none is failed in the end. -/
theorem Progress.status (h : Progress s s' bs cs) (hnone : s'.transports.NoneFailed)
    (type : TransportType) :
    (Failed s bs type → s'.transports.slot type = some .disabled ∧ cs.count type = 1) ∧
      (¬ Failed s bs type → s'.transports.slot type = s.transports.slot type ∧ type ∉ cs) := by
  have hgood := h.good type
  have hfailed := h.failed type
  have hdisabled := h.disabled type
  have hmem : (∃ b ∈ bs, b.type = type ∧ b.failed = true) ↔ 0 < failures bs type := by
    simp [failures, List.countP_pos_iff]
  have hcount : type ∈ cs ↔ 0 < cs.count type := List.count_pos_iff.symm
  unfold Failed
  rw [hmem, hcount]
  generalize failures bs type = f at *
  generalize cs.count type = c at *
  have hzero : s'.transports.has .failed type = 0 := if_neg (hnone type)
  have hle := TransportInfo.has_le_one s.transports type
  refine ⟨fun hf => ?_, fun hf => ?_⟩
  · have hone : s'.transports.has .disabled type = 1 ∧ c = 1 := by
      rw [← TransportInfo.has_eq_one] at hf
      omega
    exact ⟨TransportInfo.has_eq_one.mp hone.1, hone.2⟩
  · rw [← TransportInfo.has_eq_one] at hf
    have hzero' : f = 0 ∧ s.transports.has .failed type = 0 := by
      have := hle
      omega
    refine ⟨TransportInfo.slot_eq_of_has fun status => ?_, by omega⟩
    cases status <;> omega

/-- **A cascade of failures settles.**  `sendDiscoveryInfo` of a fresh info returns, whatever
broadcasts fail.  Every transport that has failed is disabled and has caused exactly one callback;
every other one is as it was.  None is failed in the end, the routing cache is empty if there was a
callback, and the last info on every good transport has the final bits. -/
theorem failure_cascade_settles (fails : Nat → Bool) (generateHash : Nat → Hash) (s : State)
    (infoHash : Hash) (hflag : s.discovery.terminateFlag = false) (fuel : Nat)
    (hfuel : TransportInfo.types.length < fuel) :
    ∃ s' bs cs, sendDiscoveryInfo fails generateHash fuel s
          (s.discovery.generateDiscoveryInfo s.transports.bitset infoHash) = some s' ∧
      s'.broadcasts = bs ++ s.broadcasts ∧ s'.callbacks = cs ++ s.callbacks ∧
      (∀ type, Failed s bs type →
        s'.transports.slot type = some .disabled ∧ cs.count type = 1) ∧
      (∀ type, ¬ Failed s bs type →
        s'.transports.slot type = s.transports.slot type ∧ type ∉ cs) ∧
      s'.transports.NoneFailed ∧
      ((∃ type, Failed s bs type) → s'.discovery.deviceIndicesCache = .empty) ∧
      ∀ type, s'.transports.isGood type = true →
        ∃ b, s'.broadcasts.find? (fun b => b.type = type) = some b ∧
          b.info.gatewayBitset = s'.transports.bitset := by
  obtain ⟨s', bs, cs, hres, hprog, hnone, hann⟩ := sendDiscoveryInfo_settles fails generateHash
    fuel s (s.discovery.generateDiscoveryInfo s.transports.bitset infoHash)
    (Nat.lt_of_le_of_lt (live_le _) hfuel) hflag rfl
  refine ⟨s', bs, cs, hres, hprog.broadcasts, hprog.callbacks,
    fun type => (hprog.status hnone type).1, fun type => (hprog.status hnone type).2, hnone,
    fun ⟨type, hfailed⟩ => ?_, hann⟩
  refine hprog.cache.resolve_right fun h => ?_
  have hcount := ((hprog.status hnone type).1 hfailed).2
  rw [h.1] at hcount
  cases hcount

/-! ## A run -/

/-- All three transports are good. -/
def demoState : State :=
  ⟨⟨some .good, some .good, some .good, 14⟩, Discovery.construct 1 .none, [], []⟩

/-- PCIe fails in the first broadcast, and UDP in the first one after that has been noticed. -/
def demoFails (n : Nat) : Bool := n = 0 || n = 3

/-- TCP is left, and the last info on it says so. -/
theorem failure_cascade_settles_demo :
    ∃ s', sendDiscoveryInfo demoFails (fun _ => 0) 4 demoState
        (demoState.discovery.generateDiscoveryInfo 14 0) = some s' ∧
      s'.transports = ⟨some .disabled, some .disabled, some .good, 8⟩ ∧
      s'.callbacks = [.udp, .pcie] ∧
      ∃ b, s'.broadcasts.find? (fun b => b.type = .tcp) = some b ∧
        b.info.gatewayBitset = s'.transports.bitset := by
  obtain ⟨s', -, -, hres, -, -, -, -, -, -, hann⟩ :=
    failure_cascade_settles demoFails (fun _ => 0) demoState 0 rfl 4 (by decide)
  have hstate : (sendDiscoveryInfo demoFails (fun _ => 0) 4 demoState
      (demoState.discovery.generateDiscoveryInfo 14 0)).map
        (fun s => (s.transports, s.callbacks))
        = some (⟨some .disabled, some .disabled, some .good, 8⟩, [.udp, .pcie]) := by
    decide
  have hres' : sendDiscoveryInfo demoFails (fun _ => 0) 4 demoState
      (demoState.discovery.generateDiscoveryInfo 14 0) = some s' := hres
  rw [hres', Option.map_some, Option.some.injEq, Prod.mk.injEq] at hstate
  refine ⟨s', hres', hstate.1, hstate.2, hann .tcp ?_⟩
  rw [hstate.1]
  rfl

end FailureCascade

end P3com
