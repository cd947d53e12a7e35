/-
# Channel updates of handlers that interleave

`readPortSubscriber` and `receiveRemoteDiscoveryInfo` compute the needed services under the mutex
of the discovery manager and pass them to the callback after the mutex has been released.  Here
the handlers interleave: a step is one section under the mutex, or one `updateChannels` call of
one of the two gateways.

Handlers may therefore apply their sets in another order than they computed them in.  What is
proved is that this is the only way to lose an update (`no_channel_update_lost`): as long as no
call replaces the set that was computed last, the channels are right when all handlers have
completed.
-/
import P3com.Gateway.Channels

namespace P3com

namespace ChannelRaces

/-! ## The machine -/

/-- What a handler in flight does next. -/
inductive Stage
  | updateTr2iox
  | updateIox2tr
  | sendIfChanged
deriving DecidableEq

/-- A handler that has computed `needed` and released the mutex.  `number` counts the
computations. -/
structure Handler where
  reading : Bool
  needed : ServiceVector
  number : Nat
  stage : Stage
deriving DecidableEq

/-- The gateway and the handlers in flight.  `computed` is the number of sets computed so far, and
`lastTr2iox` and `lastIox2tr` are the numbers of the sets that the two gateways got last. -/
structure State where
  gateway : Channels.State
  handlers : List Handler
  computed : Nat
  lastTr2iox : Nat
  lastIox2tr : Nat
deriving DecidableEq

inductive Label
  | readPorts (sample : Option PortIntrospection)
  | receiveInfo (info : PubSubInfo) (deviceIndex : DeviceIndex)
  /-- The remaining steps of the `i`-th handler in flight. -/
  | updateTr2iox (i : Nat)
  | updateIox2tr (i : Nat)
  | sendIfChanged (i : Nat) (bitset : Bitset) (infoHash : Hash)
deriving DecidableEq

/-- No handler is in flight, and no set has been computed. -/
def State.start (gateway : Channels.State) : State := ⟨gateway, [], 0, 0, 0⟩

/-- The end of a first section: the handler goes on if it has computed the needed services. -/
def State.begin (s : State) (reading : Bool) (d : Discovery) : Option ServiceVector → State
  | none => { s with gateway := { s.gateway with discovery := d } }
  | some needed =>
    { s with
      gateway := { s.gateway with discovery := d }
      handlers := s.handlers ++ [⟨reading, needed, s.computed + 1, .updateTr2iox⟩]
      computed := s.computed + 1 }

section

variable (getClassHash : ServiceDescription → ClassHash)

/-- One section or one `updateChannels` call.  `readPortSubscriber` runs in the waitset thread
only, so there is at most one; discovery messages come from the threads of the transports, and
termination messages are left out here. -/
def step (s : State) : Label → Option State
  | .readPorts sample =>
    if s.handlers.any Handler.reading then none
    else
      let (d, needed) := s.gateway.discovery.readPorts sample
      some (s.begin true d needed)
  | .receiveInfo info deviceIndex =>
    if info.isTermination then none
    else
      let (d, needed) := s.gateway.discovery.receiveInfo info deviceIndex
      some (s.begin false d needed)
  | .updateTr2iox i =>
    match s.handlers[i]? with
    | some ⟨reading, needed, number, .updateTr2iox⟩ =>
      some { s with
        gateway := s.gateway.updateTr2iox getClassHash needed
        handlers := s.handlers.set i ⟨reading, needed, number, .updateIox2tr⟩
        lastTr2iox := number }
    | _ => none
  | .updateIox2tr i =>
    match s.handlers[i]? with
    | some ⟨reading, needed, number, .updateIox2tr⟩ =>
      some { s with
        gateway := s.gateway.updateIox2tr getClassHash needed
        handlers :=
          if reading then s.handlers.set i ⟨reading, needed, number, .sendIfChanged⟩
          else s.handlers.eraseIdx i
        lastIox2tr := number }
    | _ => none
  | .sendIfChanged i bitset infoHash =>
    match s.handlers[i]? with
    | some ⟨_, _, _, .sendIfChanged⟩ =>
      some { s with
        gateway := { s.gateway with
          discovery := (s.gateway.discovery.sendIfChanged bitset infoHash).1 }
        handlers := s.handlers.eraseIdx i }
    | _ => none

/-- The needed services are at most `MAX_TOPICS`, and a gateway is never given a service with the
class hash of another service that it has or is given. -/
def Proviso (s : State) : Label → Prop
  | .updateTr2iox i => ∀ h ∈ s.handlers[i]?,
      Endpoints.HashesDistinct getClassHash (s.gateway.tr2iox.services ++ h.needed.toList)
  | .updateIox2tr i => ∀ h ∈ s.handlers[i]?,
      Endpoints.HashesDistinct getClassHash (s.gateway.iox2tr.services ++ h.needed.toList)
  | l => ∀ s' ∈ step getClassHash s l, s'.gateway.discovery.Fits

instance {s : State} : DecidablePred (Proviso getClassHash s) := fun l =>
  match l with
  | .updateTr2iox _ => inferInstanceAs (Decidable (∀ h ∈ _, _))
  | .updateIox2tr _ => inferInstanceAs (Decidable (∀ h ∈ _, _))
  | .readPorts _ => inferInstanceAs (Decidable (∀ s' ∈ _, _))
  | .receiveInfo _ _ => inferInstanceAs (Decidable (∀ s' ∈ _, _))
  | .sendIfChanged _ _ _ => inferInstanceAs (Decidable (∀ s' ∈ _, _))

end

/-- The call does not replace the set that was computed last. -/
def KeepsLatest (s : State) : Label → Prop
  | .updateTr2iox _ => s.lastTr2iox ≠ s.computed
  | .updateIox2tr _ => s.lastIox2tr ≠ s.computed
  | _ => True

instance {s : State} : DecidablePred (KeepsLatest s) := fun l =>
  match l with
  | .updateTr2iox _ => inferInstanceAs (Decidable (_ ≠ _))
  | .updateIox2tr _ => inferInstanceAs (Decidable (_ ≠ _))
  | .readPorts _ => isTrue trivial
  | .receiveInfo _ _ => isTrue trivial
  | .sendIfChanged _ _ _ => isTrue trivial

variable {getClassHash : ServiceDescription → ClassHash} {s s' : State} {l : Label}

/-! ## What a step does -/

theorem step_readPorts {sample : Option PortIntrospection}
    (h : step getClassHash s (.readPorts sample) = some s') :
    ∃ d : Discovery, d = { s.gateway.discovery with localState := LocalState.ofSample sample } ∧
      ((s.gateway.discovery.localState.unchanged d.localState = true ∧
          s' = s.begin true d none) ∨
        s' = s.begin true d (some d.updateNeededChannels)) := by
  refine ⟨_, rfl, ?_⟩
  simp only [step] at h
  split at h
  · cases h
  · simp only [Discovery.readPorts, Option.some.injEq] at h
    cases hu : s.gateway.discovery.localState.unchanged (LocalState.ofSample sample) with
    | true =>
      rw [hu, if_pos rfl] at h
      exact Or.inl ⟨rfl, h.symm⟩
    | false =>
      rw [hu, if_neg Bool.false_ne_true] at h
      exact Or.inr h.symm

theorem step_receiveInfo {info : PubSubInfo} {deviceIndex : DeviceIndex}
    (h : step getClassHash s (.receiveInfo info deviceIndex) = some s') :
    ∃ d : Discovery, s' = s.begin false d (some d.updateNeededChannels) := by
  simp only [step] at h
  split at h
  · cases h
  · rename_i ht
    simp only [Discovery.receiveInfo, ht, Option.some.injEq] at h
    exact ⟨_, h.symm⟩

theorem step_updateTr2iox {i : Nat} (h : step getClassHash s (.updateTr2iox i) = some s') :
    ∃ a, s.handlers[i]? = some a ∧ a.stage = .updateTr2iox ∧
      s' = { s with
        gateway := s.gateway.updateTr2iox getClassHash a.needed
        handlers := s.handlers.set i { a with stage := .updateIox2tr }
        lastTr2iox := a.number } := by
  simp only [step] at h
  split at h
  · rename_i reading needed number ha
    exact ⟨_, ha, rfl, (Option.some.inj h).symm⟩
  · cases h

theorem step_updateIox2tr {i : Nat} (h : step getClassHash s (.updateIox2tr i) = some s') :
    ∃ a, s.handlers[i]? = some a ∧ a.stage = .updateIox2tr ∧
      s' = { s with
        gateway := s.gateway.updateIox2tr getClassHash a.needed
        handlers := if a.reading then s.handlers.set i { a with stage := .sendIfChanged }
          else s.handlers.eraseIdx i
        lastIox2tr := a.number } := by
  simp only [step] at h
  split at h
  · rename_i reading needed number ha
    exact ⟨_, ha, rfl, (Option.some.inj h).symm⟩
  · cases h

theorem step_sendIfChanged {i : Nat} {bitset : Bitset} {infoHash : Hash}
    (h : step getClassHash s (.sendIfChanged i bitset infoHash) = some s') :
    ∃ a, s.handlers[i]? = some a ∧ a.stage = .sendIfChanged ∧
      s' = { s with
        gateway := { s.gateway with
          discovery := (s.gateway.discovery.sendIfChanged bitset infoHash).1 }
        handlers := s.handlers.eraseIdx i } := by
  simp only [step] at h
  split at h
  · rename_i reading needed number ha
    exact ⟨_, ha, rfl, (Option.some.inj h).symm⟩
  · cases h

/-! ## The invariant -/

/-- Whoever computed the current needed services has applied them last, or has yet to do so. -/
structure Inv (getClassHash : ServiceDescription → ClassHash) (s : State) : Prop where
  fits : s.gateway.discovery.Fits
  keyed : s.gateway.Keyed getClassHash
  nodup : ∀ a ∈ s.handlers, a.needed.toList.Nodup
  number_le : ∀ a ∈ s.handlers, a.number ≤ s.computed
  tr2iox_le : s.lastTr2iox ≤ s.computed
  iox2tr_le : s.lastIox2tr ≤ s.computed
  current : ∀ a ∈ s.handlers, a.number = s.computed →
    ∀ x, x ∈ a.needed.toList ↔ x ∈ s.gateway.discovery.neededServices
  tr2iox : s.lastTr2iox = s.computed →
    ∀ x, x ∈ s.gateway.tr2iox.services ↔ x ∈ s.gateway.discovery.neededServices
  iox2tr : s.lastIox2tr = s.computed →
    ∀ x, x ∈ s.gateway.iox2tr.services ↔ x ∈ s.gateway.discovery.neededServices
  pendingTr2iox : s.lastTr2iox = s.computed ∨
    ∃ a ∈ s.handlers, a.number = s.computed ∧ a.stage = .updateTr2iox
  pendingIox2tr : s.lastIox2tr = s.computed ∨
    ∃ a ∈ s.handlers, a.number = s.computed ∧ a.stage ≠ .sendIfChanged

theorem inv_start {gateway : Channels.State} (h : Channels.Inv getClassHash gateway)
    (hinit : gateway.discovery.updateCallback = true) :
    Inv getClassHash (State.start gateway) where
  fits := h.fits
  keyed := h.keyed
  nodup := by
    intro a ha
    cases ha
  number_le := by
    intro a ha
    cases ha
  tr2iox_le := Nat.le_refl _
  iox2tr_le := Nat.le_refl _
  current := by
    intro a ha
    cases ha
  tr2iox := by
    intro _ x
    have := (h.has x).1
    rwa [Channels.State.target, if_pos hinit] at this
  iox2tr := by
    intro _ x
    have := (h.has x).2
    rwa [Channels.State.target, if_pos hinit] at this
  pendingTr2iox := Or.inl rfl
  pendingIox2tr := Or.inl rfl

/-- A first section that computes nothing has not changed the needed services. -/
theorem Inv.begin_none (h : Inv getClassHash s) {reading : Bool} {d : Discovery}
    (hfits : d.Fits) (hsame : ∀ x, x ∈ d.neededServices ↔ x ∈ s.gateway.discovery.neededServices) :
    Inv getClassHash (s.begin reading d none) where
  fits := hfits
  keyed := ⟨h.keyed.tr2iox, h.keyed.iox2tr⟩
  nodup := h.nodup
  number_le := h.number_le
  tr2iox_le := h.tr2iox_le
  iox2tr_le := h.iox2tr_le
  current := fun a ha hn x => (h.current a ha hn x).trans (hsame x).symm
  tr2iox := fun hl x => (h.tr2iox hl x).trans (hsame x).symm
  iox2tr := fun hl x => (h.iox2tr hl x).trans (hsame x).symm
  pendingTr2iox := h.pendingTr2iox
  pendingIox2tr := h.pendingIox2tr

/-- A first section that computes: its handler is now the one that has the current set. -/
theorem Inv.begin_some (h : Inv getClassHash s) {reading : Bool} {d : Discovery}
    (hfits : d.Fits) : Inv getClassHash (s.begin reading d (some d.updateNeededChannels)) := by
  have hneed := Discovery.updateNeededChannels_spec hfits
  have h₁ := h.tr2iox_le
  have h₂ := h.iox2tr_le
  have hmem : ∀ a ∈ (s.begin reading d (some d.updateNeededChannels)).handlers,
      a ∈ s.handlers ∨ a = ⟨reading, d.updateNeededChannels, s.computed + 1, .updateTr2iox⟩ := by
    intro a ha
    simpa [State.begin] using ha
  have hnew : (⟨reading, d.updateNeededChannels, s.computed + 1, .updateTr2iox⟩ : Handler) ∈
      (s.begin reading d (some d.updateNeededChannels)).handlers :=
    List.mem_append_right _ (List.mem_singleton.mpr rfl)
  constructor
  case fits => exact hfits
  case keyed => exact ⟨h.keyed.tr2iox, h.keyed.iox2tr⟩
  case nodup =>
    intro a ha
    rcases hmem a ha with ha | rfl
    · exact h.nodup a ha
    · exact hneed.1
  case number_le =>
    intro a ha
    rcases hmem a ha with ha | rfl
    · exact Nat.le_succ_of_le (h.number_le a ha)
    · exact Nat.le_refl _
  case tr2iox_le => exact Nat.le_succ_of_le h₁
  case iox2tr_le => exact Nat.le_succ_of_le h₂
  case current =>
    intro a ha hn
    rcases hmem a ha with ha | rfl
    · have hle := h.number_le a ha
      have hn : a.number = s.computed + 1 := hn
      omega
    · exact hneed.2
  case tr2iox =>
    intro hl
    have hl : s.lastTr2iox = s.computed + 1 := hl
    omega
  case iox2tr =>
    intro hl
    have hl : s.lastIox2tr = s.computed + 1 := hl
    omega
  case pendingTr2iox => exact Or.inr ⟨_, hnew, rfl, rfl⟩
  case pendingIox2tr =>
    have hne : Stage.updateTr2iox ≠ Stage.sendIfChanged := by decide
    exact Or.inr ⟨_, hnew, rfl, hne⟩

/-- What the handlers in flight have computed is not touched by moving on. -/
structure Continues (s s' : State) : Prop where
  computed : s'.computed = s.computed
  handlers : ∀ a' ∈ s'.handlers, ∃ a ∈ s.handlers, a'.number = a.number ∧ a'.needed = a.needed

/-- The part of the invariant that is about the handlers. -/
theorem Inv.handlers (h : Inv getClassHash s) (hc : Continues s s')
    (hneed : s'.gateway.discovery.neededServices = s.gateway.discovery.neededServices) :
    (∀ a ∈ s'.handlers, a.needed.toList.Nodup) ∧ (∀ a ∈ s'.handlers, a.number ≤ s'.computed) ∧
      ∀ a ∈ s'.handlers, a.number = s'.computed →
        ∀ x, x ∈ a.needed.toList ↔ x ∈ s'.gateway.discovery.neededServices := by
  refine ⟨fun a' ha' => ?_, fun a' ha' => ?_, fun a' ha' hn => ?_⟩
  all_goals obtain ⟨a, ha, hnum, hned⟩ := hc.handlers a' ha'
  · rw [hned]
    exact h.nodup a ha
  · rw [hnum, hc.computed]
    exact h.number_le a ha
  · rw [hned, hneed]
    refine h.current a ha ?_
    rw [← hnum, hn, hc.computed]

theorem continues_set {i : Nat} {a b : Handler} (ha : s.handlers[i]? = some a)
    (hh : s'.handlers = s.handlers.set i b) (hc : s'.computed = s.computed)
    (hnum : b.number = a.number) (hned : b.needed = a.needed) : Continues s s' := by
  refine ⟨hc, fun a' ha' => ?_⟩
  rw [hh, List.mem_set_iff ha] at ha'
  rcases ha' with rfl | ha'
  · exact ⟨a, List.mem_of_getElem? ha, hnum, hned⟩
  · exact ⟨a', List.mem_of_mem_eraseIdx ha', rfl, rfl⟩

theorem continues_eraseIdx {i : Nat} (hc : s'.computed = s.computed)
    (hh : s'.handlers = s.handlers.eraseIdx i) : Continues s s' := by
  refine ⟨hc, fun a' ha' => ?_⟩
  rw [hh] at ha'
  exact ⟨a', List.mem_of_mem_eraseIdx ha', rfl, rfl⟩

/-- The handlers other than the `i`-th stay as they are. -/
def KeepsOthers (s s' : State) (a : Handler) : Prop :=
  ∀ b ∈ s.handlers, b ≠ a → b ∈ s'.handlers

theorem keepsOthers_set {i : Nat} {a b : Handler} (ha : s.handlers[i]? = some a)
    (hh : s'.handlers = s.handlers.set i b) : KeepsOthers s s' a := by
  intro c hc hne
  rw [hh, List.mem_set_iff ha]
  exact Or.inr (List.mem_eraseIdx_of_ne ha hc hne)

theorem keepsOthers_eraseIdx {i : Nat} {a : Handler} (ha : s.handlers[i]? = some a)
    (hh : s'.handlers = s.handlers.eraseIdx i) : KeepsOthers s s' a := by
  intro c hc hne
  rw [hh]
  exact List.mem_eraseIdx_of_ne ha hc hne

/-! ## Every step keeps the invariant -/

theorem inv_updateTr2iox {i : Nat} (h : Inv getClassHash s)
    (hp : Proviso getClassHash s (.updateTr2iox i)) (hk : KeepsLatest s (.updateTr2iox i))
    (hstep : step getClassHash s (.updateTr2iox i) = some s') : Inv getClassHash s' := by
  obtain ⟨a, ha, hstage, rfl⟩ := step_updateTr2iox hstep
  have hmem : a ∈ s.handlers := List.mem_of_getElem? ha
  obtain ⟨hkeyed, hservices⟩ :=
    Channels.updateTr2iox_spec h.keyed (h.nodup a hmem) (hp a ha)
  set s' : State := { s with
    gateway := s.gateway.updateTr2iox getClassHash a.needed
    handlers := s.handlers.set i { a with stage := .updateIox2tr }
    lastTr2iox := a.number } with hs'
  have hothers : KeepsOthers s s' a := keepsOthers_set ha rfl
  have hcont : Continues s s' := continues_set ha rfl rfl rfl rfl
  obtain ⟨hnodup, hle, hcurrent⟩ := h.handlers hcont rfl
  constructor
  case fits => exact h.fits
  case keyed => exact hkeyed
  case nodup => exact hnodup
  case number_le => exact hle
  case tr2iox_le => exact h.number_le a hmem
  case iox2tr_le => exact h.iox2tr_le
  case current => exact hcurrent
  case tr2iox => exact fun hn x => (hservices x).trans (h.current a hmem hn x)
  case iox2tr => exact h.iox2tr
  case pendingTr2iox =>
    -- the set computed last is this one, or its handler has not called `updateChannels` yet
    by_cases hn : a.number = s.computed
    · exact Or.inl hn
    · obtain ⟨b, hb, hbn, hbs⟩ := h.pendingTr2iox.resolve_left hk
      refine Or.inr ⟨b, hothers b hb ?_, hbn, hbs⟩
      rintro rfl
      exact hn hbn
  case pendingIox2tr =>
    refine h.pendingIox2tr.imp_right ?_
    rintro ⟨b, hb, hbn, hbs⟩
    by_cases hba : b = a
    · have hmoved : ({ a with stage := .updateIox2tr } : Handler) ∈ s'.handlers :=
        (List.mem_set_iff ha).mpr (Or.inl rfl)
      have hne : Stage.updateIox2tr ≠ Stage.sendIfChanged := by decide
      exact ⟨_, hmoved, hba ▸ hbn, hne⟩
    · exact ⟨b, hothers b hb hba, hbn, hbs⟩

theorem inv_updateIox2tr {i : Nat} (h : Inv getClassHash s)
    (hp : Proviso getClassHash s (.updateIox2tr i)) (hk : KeepsLatest s (.updateIox2tr i))
    (hstep : step getClassHash s (.updateIox2tr i) = some s') : Inv getClassHash s' := by
  obtain ⟨a, ha, hstage, rfl⟩ := step_updateIox2tr hstep
  have hmem : a ∈ s.handlers := List.mem_of_getElem? ha
  obtain ⟨hkeyed, hservices⟩ :=
    Channels.updateIox2tr_spec h.keyed (h.nodup a hmem) (hp a ha)
  set s' : State := { s with
    gateway := s.gateway.updateIox2tr getClassHash a.needed
    handlers := if a.reading then s.handlers.set i { a with stage := .sendIfChanged }
      else s.handlers.eraseIdx i
    lastIox2tr := a.number } with hs'
  have hmoves : Continues s s' ∧ KeepsOthers s s' a := by
    cases hr : a.reading with
    | true =>
      have hh : s'.handlers = s.handlers.set i { a with stage := .sendIfChanged } := if_pos hr
      exact ⟨continues_set ha hh rfl rfl rfl, keepsOthers_set ha hh⟩
    | false =>
      have hh : s'.handlers = s.handlers.eraseIdx i := by simp [hs', hr]
      exact ⟨continues_eraseIdx rfl hh, keepsOthers_eraseIdx ha hh⟩
  obtain ⟨hcont, hothers⟩ := hmoves
  obtain ⟨hnodup, hle, hcurrent⟩ := h.handlers hcont rfl
  constructor
  case fits => exact h.fits
  case keyed => exact hkeyed
  case nodup => exact hnodup
  case number_le => exact hle
  case tr2iox_le => exact h.tr2iox_le
  case iox2tr_le => exact h.number_le a hmem
  case current => exact hcurrent
  case tr2iox => exact h.tr2iox
  case iox2tr => exact fun hn x => (hservices x).trans (h.current a hmem hn x)
  case pendingTr2iox =>
    refine h.pendingTr2iox.imp_right ?_
    rintro ⟨b, hb, hbn, hbs⟩
    refine ⟨b, hothers b hb ?_, hbn, hbs⟩
    rintro rfl
    rw [hstage] at hbs
    cases hbs
  case pendingIox2tr =>
    by_cases hn : a.number = s.computed
    · exact Or.inl hn
    · obtain ⟨b, hb, hbn, hbs⟩ := h.pendingIox2tr.resolve_left hk
      refine Or.inr ⟨b, hothers b hb ?_, hbn, hbs⟩
      rintro rfl
      exact hn hbn

theorem inv_sendIfChanged {i : Nat} {bitset : Bitset} {infoHash : Hash} (h : Inv getClassHash s)
    (hp : Proviso getClassHash s (.sendIfChanged i bitset infoHash))
    (hstep : step getClassHash s (.sendIfChanged i bitset infoHash) = some s') :
    Inv getClassHash s' := by
  have hfits := hp s' hstep
  obtain ⟨a, ha, hstage, rfl⟩ := step_sendIfChanged hstep
  have hneed := Discovery.neededServices_sendIfChanged s.gateway.discovery bitset infoHash
  set s' : State := { s with
    gateway := { s.gateway with
      discovery := (s.gateway.discovery.sendIfChanged bitset infoHash).1 }
    handlers := s.handlers.eraseIdx i } with hs'
  have hothers : KeepsOthers s s' a := keepsOthers_eraseIdx ha rfl
  have hcont : Continues s s' := continues_eraseIdx rfl rfl
  obtain ⟨hnodup, hle, hcurrent⟩ := h.handlers hcont hneed
  constructor
  case fits => exact hfits
  case keyed => exact ⟨h.keyed.tr2iox, h.keyed.iox2tr⟩
  case nodup => exact hnodup
  case number_le => exact hle
  case tr2iox_le => exact h.tr2iox_le
  case iox2tr_le => exact h.iox2tr_le
  case current => exact hcurrent
  case tr2iox =>
    intro hl x
    rw [hneed]
    exact h.tr2iox hl x
  case iox2tr =>
    intro hl x
    rw [hneed]
    exact h.iox2tr hl x
  case pendingTr2iox =>
    refine h.pendingTr2iox.imp_right ?_
    rintro ⟨b, hb, hbn, hbs⟩
    refine ⟨b, hothers b hb ?_, hbn, hbs⟩
    rintro rfl
    rw [hstage] at hbs
    cases hbs
  case pendingIox2tr =>
    refine h.pendingIox2tr.imp_right ?_
    rintro ⟨b, hb, hbn, hbs⟩
    refine ⟨b, hothers b hb ?_, hbn, hbs⟩
    rintro rfl
    exact hbs hstage

/-- **One step.** -/
theorem inv_step (h : Inv getClassHash s) (hp : Proviso getClassHash s l) (hk : KeepsLatest s l)
    (hstep : step getClassHash s l = some s') : Inv getClassHash s' := by
  cases l with
  | readPorts sample =>
    have hfits := hp s' hstep
    obtain ⟨d, rfl, ⟨hu, rfl⟩ | rfl⟩ := step_readPorts hstep
    · exact h.begin_none hfits (Discovery.mem_neededServices_of_unchanged hu)
    · exact h.begin_some hfits
  | receiveInfo info deviceIndex =>
    have hfits := hp s' hstep
    obtain ⟨d, rfl⟩ := step_receiveInfo hstep
    exact h.begin_some hfits
  | updateTr2iox i => exact inv_updateTr2iox h hp hk hstep
  | updateIox2tr i => exact inv_updateIox2tr h hp hk hstep
  | sendIfChanged i bitset infoHash => exact inv_sendIfChanged h hp hstep

/-- When no handler is in flight, the set computed last has been applied last. -/
theorem Inv.has_of_idle (h : Inv getClassHash s) (hidle : s.handlers = []) :
    s.gateway.Has s.gateway.discovery.updateNeededChannels.toList := by
  have hnone : ∀ p : Handler → Prop, ¬ ∃ a ∈ s.handlers, p a := by
    rintro p ⟨a, ha, -⟩
    rw [hidle] at ha
    cases ha
  have h₁ := h.tr2iox (h.pendingTr2iox.resolve_right (hnone _))
  have h₂ := h.iox2tr (h.pendingIox2tr.resolve_right (hnone _))
  intro x
  rw [(Discovery.updateNeededChannels_spec h.fits).2]
  exact ⟨h₁ x, h₂ x⟩

/-- **No channel update is lost**, from any state after `initialize` with the right channels and
in any interleaving in which no `updateChannels` call replaces the set that was computed last:
whenever all handlers have completed, the services with an endpoint are those of
`updateNeededChannels`, in both gateways. -/
theorem no_channel_update_lost {gateway : Channels.State}
    (hgateway : Channels.Inv getClassHash gateway)
    (hinit : gateway.discovery.updateCallback = true) {ls : List Label}
    (hp : Run.Guarded (step getClassHash) (Proviso getClassHash) (State.start gateway) ls)
    (hk : Run.Guarded (step getClassHash) KeepsLatest (State.start gateway) ls)
    (h : Run.exec (step getClassHash) (State.start gateway) ls = some s)
    (hidle : s.handlers = []) :
    s.gateway.Has s.gateway.discovery.updateNeededChannels.toList := by
  have hinv : Inv getClassHash s := by
    refine Run.invariant_guarded (Inv getClassHash) ?_ (inv_start hgateway hinit) (hp.and hk) h
    intro s l s' hs hg hstep
    exact inv_step hs hg.1 hg.2 hstep
  exact hinv.has_of_idle hidle

/-! ## Two handlers -/

/-- Another service. -/
def demoOther : ServiceDescription :=
  { demoService with eventID := .ofString "Grid" (by decide) }

/-- The class hash tells the two services apart. -/
def demoHash (service : ServiceDescription) : ClassHash :=
  ⟨service.eventID.bytes.length.toUInt32, 0, 0, 0⟩

/-- The gateway after `initialize`. -/
def demoGateway : Channels.State :=
  { Channels.State.init 1 .none with
    discovery := { Discovery.construct 1 .none with updateCallback := true } }

theorem inv_demoGateway : Channels.Inv demoHash demoGateway where
  fits := Nat.zero_le _
  keyed := ⟨Endpoints.keyed_empty, Endpoints.keyed_empty⟩
  has := fun _ => ⟨Iff.rfl, Iff.rfl⟩

/-- A local publisher of the first service is discovered while gateway 5 announces a subscriber of
the second one. -/
def demoSections : List Label :=
  [.readPorts (some ⟨[⟨demoNode, demoService, 1⟩], []⟩),
    .receiveInfo ⟨⟨[demoOther], by decide⟩, 4, 5, 0, false⟩ ⟨.udp, 3⟩]

/-- The handlers apply their sets in the order in which they computed them. -/
def demoInOrder : List Label :=
  demoSections ++ [.updateTr2iox 0, .updateTr2iox 1, .updateIox2tr 0, .sendIfChanged 0 4 0,
    .updateIox2tr 0]

/-- The handler of the message overtakes the other one. -/
def demoOvertaken : List Label :=
  demoSections ++ [.updateTr2iox 1, .updateIox2tr 1, .updateTr2iox 0, .updateIox2tr 0,
    .sendIfChanged 0 4 0]

theorem no_channel_update_lost_demo :
    ∃ s, Run.exec (step demoHash) (State.start demoGateway) demoInOrder = some s ∧
      s.gateway.Has [demoService, demoOther] := by
  have hp : Run.Guarded (step demoHash) (Proviso demoHash) (State.start demoGateway)
      demoInOrder := by decide +kernel
  have hk : Run.Guarded (step demoHash) KeepsLatest (State.start demoGateway) demoInOrder := by
    decide +kernel
  refine ⟨_, rfl, ?_⟩
  exact no_channel_update_lost inv_demoGateway rfl hp hk rfl rfl

/-- The handler that computed first applies its set last: the second service has no endpoint in
either gateway, although a remote subscriber needs it. -/
theorem channel_update_lost :
    ∃ s, Run.exec (step demoHash) (State.start demoGateway) demoOvertaken = some s ∧
      Run.Guarded (step demoHash) (Proviso demoHash) (State.start demoGateway) demoOvertaken ∧
      s.handlers = [] ∧
      ¬ s.gateway.Has s.gateway.discovery.updateNeededChannels.toList := by
  refine ⟨_, rfl, by decide +kernel, rfl, fun h => ?_⟩
  have hmem := (h demoOther).1
  exact absurd hmem (by decide)

end ChannelRaces

end P3com
