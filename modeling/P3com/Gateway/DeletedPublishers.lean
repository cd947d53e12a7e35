/-
# Timeouts and deleted publishers

`checkSegmentedMessages` works in two sections.  Under the mutex of the table it takes an expired
message out; later, under the endpoints mutex, it calls `release` on the publisher whose address
stood in the table entry.  `deleteChannel` runs under the endpoints mutex alone: `releaseAll` gives
back what the table still has for the publisher, and then the publisher object is destroyed.  It
cannot see a message that a sweep has already taken out, and the sweep then calls `release` on an
object that is gone.

That is the only way.  In every run in which no publisher is deleted while a sweep is between its
two sections with a message of it (`DeletesUnswept`), every call of `release` and of `publish` goes
to a publisher that has a channel at that moment, and a publisher whose channel has been erased is
never called again (`deleted_publisher_untouched`).

The invariant is `PublishersLive`: whoever holds the address of a publisher (a table entry, a
sweep, the handler with the endpoints mutex) holds that of a publisher with a channel.
-/
import P3com.Gateway.Accounting

namespace P3com.TransportToIox

variable {getClassHash : ServiceDescription → ClassHash} {s s' : State}

/-! ## Calls on publishers -/

/-- The publishers that have a channel. -/
def State.publishers (s : State) : List PublisherId := s.endpoints.elems.map Endpoint.id

/-- The publisher on which the event is a call of `publish` or `release`. -/
def Event.callee : Event → Option PublisherId
  | .published _ p _ _ => some p
  | .released _ p => some p
  | _ => none

/-- When the section that runs next deletes a channel, no sweep has a message of its publisher. -/
def DeletesUnswept (getClassHash : ServiceDescription → ClassHash) (s : State) : Label → Prop
  | .proceed _ _ =>
    match s.holder with
    | some (.updateChannels (service :: _) _) =>
      ∀ e ∈ (s.endpoints.discardChannel getClassHash service).1, ∀ w ∈ s.sweeps,
        ∀ msg ∈ w.msgToRelease, msg.publisher ≠ e.id
    | _ => True
  | _ => True

instance (s : State) : (l : Label) → Decidable (DeletesUnswept getClassHash s l)
  | .proceed _ _ =>
    match h : s.holder with
    | some (.updateChannels (service :: _) _) =>
      decidable_of_iff (∀ e ∈ (s.endpoints.discardChannel getClassHash service).1,
        ∀ w ∈ s.sweeps, ∀ msg ∈ w.msgToRelease, msg.publisher ≠ e.id)
        (by simp [DeletesUnswept, h])
    | some (.updateChannels [] _) => isTrue (by simp [DeletesUnswept, h])
    | some (.receiveFind _) | some (.receiveLoan _) | some (.receivePush _ _)
    | some (.receiveTake _ _ _ _) | some (.receivePublish _ _) | some (.loanFind _)
    | some (.loanLoan _) | some (.loanPush _ _) | some (.loanReturn _ _ _)
    | some (.releaseRelease _) | some (.releaseDecrement _) | some (.releasePublish _ _)
    | none => isTrue (by simp [DeletesUnswept, h])
  | .receive _ _ | .loanBuffer _ | .releaseBuffer _ _ _ | .updateChannels _
  | .checkSegmentedMessages _ | .sweep _ => isTrue trivial

/-! ## The invariant -/

/-- The publisher of the channel for which the handler runs. -/
def Handler.publisher : Handler → Option PublisherId
  | .receiveFind x | .receiveLoan x | .receivePush x _ | .receiveTake x _ _ _
  | .receivePublish x _ | .loanFind x | .loanLoan x | .loanPush x _ | .loanReturn x _ _
  | .releaseRelease x | .releaseDecrement x | .releasePublish x _ => some x.publisher
  | .updateChannels _ _ => none

structure PublishersLive (s : State) : Prop where
  table : ∀ k msg, (k, msg) ∈ s.segmented.entries → msg.publisher ∈ s.publishers
  sweeps : ∀ w ∈ s.sweeps, ∀ msg ∈ w.msgToRelease, msg.publisher ∈ s.publishers
  holder : ∀ h ∈ s.holder, ∀ p ∈ h.publisher, p ∈ s.publishers
  created : ∀ p ∈ s.publishers, p < s.nextEndpoint

theorem publishersLive_init : PublishersLive State.init where
  table := by simp [State.init]
  sweeps := by simp [State.init]
  holder := by simp [State.init]
  created := by simp [State.init, State.publishers, VectorMap.empty]

/-- What a step does to the publishers: it calls only publishers with a channel, and a channel that
is new afterwards has a new publisher. -/
structure Calls (s s' : State) : Prop where
  log : ∃ events, s'.log = events ++ s.log ∧ ∀ e ∈ events, ∀ p ∈ e.callee, p ∈ s.publishers
  old : ∀ p ∈ s'.publishers, p < s.nextEndpoint → p ∈ s.publishers
  next : s.nextEndpoint ≤ s'.nextEndpoint

theorem mem_publishers {p : PublisherId} :
    p ∈ s.publishers ↔ ∃ k e, (k, e) ∈ s.endpoints.entries ∧ e.id = p := by
  unfold State.publishers
  rw [VectorMap.elems_eq]
  simp

/-! ## The sections of the handlers of one channel -/

/-- The publisher of a message that is in the table. -/
def State.Stored (s : State) (q : PublisherId) : Prop :=
  ∃ k msg, (k, msg) ∈ s.segmented.entries ∧ msg.publisher = q

/-- What a section of a handler for the publisher `p` can do.  It leaves the channels and the sweeps
alone, and the publishers it deals with are `p` and those of the messages in the table. -/
structure Serves (p : PublisherId) (s s' : State) : Prop where
  endpoints : s'.endpoints = s.endpoints
  next : s'.nextEndpoint = s.nextEndpoint
  sweeps : s'.sweeps = s.sweeps
  holder : ∀ h ∈ s'.holder, h.publisher = some p
  table : ∀ k msg, (k, msg) ∈ s'.segmented.entries → msg.publisher = p ∨ s.Stored msg.publisher
  log : ∃ events, s'.log = events ++ s.log ∧ ∀ e ∈ events, ∀ q ∈ e.callee, q = p ∨ s.Stored q

theorem stored_of_mem {k : Hash} {msg : SegmentedMessage} (h : (k, msg) ∈ s.segmented.entries) :
    s.Stored msg.publisher :=
  ⟨k, msg, h, rfl⟩

/-- `findAndDecrement` brings no publisher into the table. -/
theorem stored_of_findAndDecrement {t : SegmentedTable} {k k' : Hash}
    {msg msg' : SegmentedMessage} {publish : Bool}
    (h : s.segmented.findAndDecrement k = some (msg, publish, t)) (hmem : (k', msg') ∈ t.entries) :
    s.Stored msg'.publisher := by
  obtain ⟨i, hi, ⟨-, -, rfl⟩ | ⟨-, -, rfl⟩⟩ := SegmentedTable.findAndDecrement_eq_some h
  · exact stored_of_mem (VectorMap.mem_entries_of_mem_erase hmem)
  · rw [VectorMap.entries_set (VectorMap.getElem?_entries.mp hi).1] at hmem
    rcases List.mem_or_eq_of_mem_set hmem with hmem | heq
    · exact stored_of_mem hmem
    · rw [(Prod.mk.inj heq).2]
      exact ⟨k, msg, List.mem_of_getElem? hi, rfl⟩

/-- A section that leaves the table alone and calls nobody. -/
theorem Serves.quiet (events : List Event) {p : PublisherId} {next : Option Handler}
    (hs : s'.endpoints = s.endpoints ∧ s'.nextEndpoint = s.nextEndpoint ∧ s'.sweeps = s.sweeps)
    (htable : s'.segmented = s.segmented) (hlog : s'.log = events ++ s.log)
    (hevents : ∀ e ∈ events, e.callee = none) (hnext : ∀ h ∈ next, h.publisher = some p) :
    Serves p s (s'.goto next) where
  endpoints := hs.1
  next := hs.2.1
  sweeps := hs.2.2
  holder := hnext
  table := by
    intro k msg hmem
    rw [State.goto_segmented, htable] at hmem
    exact Or.inr (stored_of_mem hmem)
  log := by
    refine ⟨events, hlog, fun e he q hq => ?_⟩
    rw [hevents e he] at hq
    cases hq

/-- The section of `SegmentedMessageManager::push`. -/
theorem serves_push (s : State) (x : Call) (remaining : UInt32) (c : ChunkId) (now : Time)
    {h : Handler} (hh : h.publisher = some x.publisher) :
    Serves x.publisher s ((s.pushSegmented x remaining c now).goto (some h)) := by
  have hnext : ∀ h' ∈ some h, h'.publisher = some x.publisher := by
    intro h' hmem
    obtain rfl := Option.some.inj hmem
    exact hh
  unfold State.pushSegmented
  split
  · rename_i t hpush
    refine ⟨rfl, rfl, rfl, hnext, fun k msg hmem => ?_, [], rfl, by simp⟩
    rw [State.goto_segmented, VectorMap.entries_emplace hpush] at hmem
    rcases List.mem_append.mp hmem with hmem | hmem
    · exact Or.inr (stored_of_mem hmem)
    · obtain ⟨-, rfl⟩ := Prod.mk.inj (List.mem_singleton.mp hmem)
      exact Or.inl rfl
  · refine ⟨rfl, rfl, rfl, hnext, fun k msg hmem => Or.inr (stored_of_mem hmem),
      [.released c x.publisher, .rejected x.header.messageHash c], rfl, fun e he q hq => ?_⟩
    simp only [List.mem_cons, List.not_mem_nil, or_false] at he
    rcases he with rfl | rfl
    · exact Or.inl (Option.some.inj hq).symm
    · cases hq

/-- The section of `findAndDecrement`. -/
theorem serves_find {x : Call} {k : Hash} {msg : SegmentedMessage} {publish : Bool}
    {t : SegmentedTable} {next : Option Handler}
    (hf : s.segmented.findAndDecrement k = some (msg, publish, t))
    (hnext : ∀ h ∈ next, h.publisher = some x.publisher) :
    Serves x.publisher s ({ s with segmented := t }.goto next) :=
  ⟨rfl, rfl, rfl, hnext, fun _ _ hmem => Or.inr (stored_of_findAndDecrement hf hmem),
    [], rfl, by simp⟩

/-- The section of `publish`. -/
theorem serves_publish (s : State) (x : Call) (c : ChunkId) :
    Serves x.publisher s ((s.publish x c).goto none) := by
  refine ⟨rfl, rfl, rfl, by simp, fun k msg hmem => Or.inr (stored_of_mem hmem),
    [.published c x.publisher x.header.messageHash s.chunks[c]?,
      .forwarded c x.header.serviceHash x.device], rfl, fun e he q hq => ?_⟩
  simp only [List.mem_cons, List.not_mem_nil, or_false] at he
  rcases he with rfl | rfl
  · exact Or.inl (Option.some.inj hq).symm
  · cases hq

theorem serves_proceed {h : Handler} {p : PublisherId} (hp : h.publisher = some p) (now : Time)
    (answer : Option (Nat → Byte)) : Serves p s (s.proceed getClassHash now answer h) := by
  cases h with
  | receiveFind x =>
    obtain rfl := Option.some.inj hp
    rw [State.proceed]
    cases hf : s.segmented.findAndDecrement x.header.messageHash with
    | none => exact Serves.quiet [] ⟨rfl, rfl, rfl⟩ rfl rfl (by simp) (by
        simp [Handler.publisher])
    | some r => exact serves_find hf (by simp [Handler.publisher])
  | receiveLoan x =>
    obtain rfl := Option.some.inj hp
    cases answer with
    | none =>
      exact Serves.quiet [.loanFailed x.header.messageHash] ⟨rfl, rfl, rfl⟩ rfl rfl
        (by simp [Event.callee]) (by simp)
    | some fill =>
      refine Serves.quiet [.loaned s.chunks.length x.publisher] ⟨rfl, rfl, rfl⟩ rfl rfl
        (by simp [Event.callee]) ?_
      split <;> simp [Handler.publisher]
  | receivePush x c =>
    obtain rfl := Option.some.inj hp
    exact serves_push s x _ c now rfl
  | receiveTake x userHeader c shouldPublish =>
    obtain rfl := Option.some.inj hp
    have hnext : ∀ h ∈ (if shouldPublish then some (Handler.receivePublish x c) else none),
        h.publisher = some x.publisher := by
      cases shouldPublish <;> simp [Handler.publisher]
    rw [State.proceed]
    unfold State.takeNext
    split
    · exact Serves.quiet [] ⟨rfl, rfl, rfl⟩ rfl rfl (by simp) hnext
    · rename_i c' _
      exact Serves.quiet [.written c' (takeNextRange x.header)] ⟨rfl, rfl, rfl⟩ rfl rfl
        (by simp [Event.callee]) hnext
  | receivePublish x c =>
    obtain rfl := Option.some.inj hp
    exact serves_publish s x c
  | loanFind x =>
    obtain rfl := Option.some.inj hp
    rw [State.proceed]
    split <;>
      exact Serves.quiet [] ⟨rfl, rfl, rfl⟩ rfl rfl (by simp) (by
        simp [Handler.publisher])
  | loanLoan x =>
    obtain rfl := Option.some.inj hp
    cases answer with
    | none =>
      exact Serves.quiet [.loanFailed x.header.messageHash] ⟨rfl, rfl, rfl⟩ rfl rfl
        (by simp [Event.callee]) (by simp)
    | some fill =>
      exact Serves.quiet [.loaned s.chunks.length x.publisher] ⟨rfl, rfl, rfl⟩ rfl rfl
        (by simp [Event.callee]) (by simp [Handler.publisher])
  | loanPush x c =>
    obtain rfl := Option.some.inj hp
    exact serves_push s x _ c now rfl
  | loanReturn x userHeader c =>
    obtain rfl := Option.some.inj hp
    simp only [State.proceed]
    split
    · cases userHeader with
      | none => exact Serves.quiet [] ⟨rfl, rfl, rfl⟩ rfl rfl (by simp) (by simp)
      | some c' =>
        exact Serves.quiet [.bufferReturned c' .userHeader] ⟨rfl, rfl, rfl⟩ rfl rfl
          (by simp [Event.callee]) (by simp)
    · exact Serves.quiet [.bufferReturned c .userPayload] ⟨rfl, rfl, rfl⟩ rfl rfl
        (by simp [Event.callee]) (by simp)
  | releaseRelease x =>
    obtain rfl := Option.some.inj hp
    rw [State.proceed]
    cases hf : s.segmented.release x.header.messageHash with
    | none => exact Serves.quiet [] ⟨rfl, rfl, rfl⟩ rfl rfl (by simp) (by simp)
    | some r =>
      obtain ⟨msg, t⟩ := r
      obtain ⟨i, hi, rfl⟩ := SegmentedTable.release_eq_some hf
      refine ⟨rfl, rfl, rfl, by simp, fun k msg' hmem => Or.inr ?_,
        [.released msg.userPayload msg.publisher], rfl, fun e he q hq => Or.inr ?_⟩
      · exact stored_of_mem (VectorMap.mem_entries_of_mem_erase hmem)
      · obtain rfl := List.mem_singleton.mp he
        obtain rfl := Option.some.inj hq
        exact stored_of_mem (List.mem_of_getElem? hi)
  | releaseDecrement x =>
    obtain rfl := Option.some.inj hp
    rw [State.proceed]
    cases hf : s.segmented.findAndDecrement x.header.messageHash with
    | none => exact Serves.quiet [] ⟨rfl, rfl, rfl⟩ rfl rfl (by simp) (by simp)
    | some r =>
      obtain ⟨msg, shouldPublish, t⟩ := r
      refine serves_find hf ?_
      cases shouldPublish <;> simp [Handler.publisher]
  | releasePublish x c =>
    obtain rfl := Option.some.inj hp
    exact serves_publish s x c
  | updateChannels toDelete toSetup => cases hp

theorem PublishersLive.of_stored (hs : PublishersLive s) {q : PublisherId} (h : s.Stored q) :
    q ∈ s.publishers := by
  obtain ⟨k, msg, hmem, rfl⟩ := h
  exact hs.table k msg hmem

theorem Serves.publishers {p : PublisherId} (h : Serves p s s') : s'.publishers = s.publishers := by
  unfold State.publishers
  rw [h.endpoints]

theorem PublishersLive.serve {p : PublisherId} (hs : PublishersLive s) (hp : p ∈ s.publishers)
    (h : Serves p s s') : PublishersLive s' where
  table := by
    intro k msg hmem
    rw [h.publishers]
    rcases h.table k msg hmem with heq | hst
    · rw [heq]
      exact hp
    · exact hs.of_stored hst
  sweeps := by
    rw [h.publishers, h.sweeps]
    exact hs.sweeps
  holder := by
    intro hd hh q hq
    rw [h.publishers]
    rw [h.holder hd hh] at hq
    obtain rfl := Option.some.inj hq
    exact hp
  created := by
    rw [h.publishers, h.next]
    exact hs.created

theorem Serves.calls {p : PublisherId} (h : Serves p s s') (hs : PublishersLive s)
    (hp : p ∈ s.publishers) : Calls s s' where
  log := by
    obtain ⟨events, hlog, hevents⟩ := h.log
    refine ⟨events, hlog, fun e he q hq => ?_⟩
    rcases hevents e he q hq with rfl | hst
    · exact hp
    · exact hs.of_stored hst
  old := by
    rw [h.publishers]
    exact fun p hp _ => hp
  next := Nat.le_of_eq h.next.symm

/-! ## Channels -/

/-- The publishers that are left when a channel is discarded. -/
theorem publishers_discardChannel {service : ServiceDescription} {e : Endpoint} {m : Endpoints}
    (hd : s.endpoints.discardChannel getClassHash service = (some e, m)) :
    e.id ∈ s.publishers ∧
      ∀ p, p ≠ e.id → (p ∈ { s with endpoints := m }.publishers ↔ p ∈ s.publishers) := by
  unfold Endpoints.discardChannel at hd
  split at hd
  · cases hd
  · rename_i i e' hf
    obtain ⟨he, rfl⟩ := Prod.mk.inj hd
    obtain rfl := Option.some.inj he
    have hi := VectorMap.findElem_eq_some hf
    refine ⟨mem_publishers.mpr ⟨_, e', List.mem_of_getElem? hi, rfl⟩, fun p hne => ?_⟩
    rw [mem_publishers, mem_publishers]
    constructor
    · rintro ⟨k, e, hmem, rfl⟩
      exact ⟨k, e, VectorMap.mem_entries_of_mem_erase hmem, rfl⟩
    · rintro ⟨k, e, hmem, rfl⟩
      rcases List.mem_cons.mp ((VectorMap.entries_perm_erase hi).mem_iff.mp hmem) with heq | hmem
      · obtain ⟨-, rfl⟩ := Prod.mk.inj heq
        exact absurd rfl hne
      · exact ⟨k, e, hmem, rfl⟩

/-- **A channel is deleted.**  The table has nothing of its publisher any more, and by the condition
no sweep has. -/
theorem live_deleteChannel {service : ServiceDescription}
    (toDelete toSetup : List ServiceDescription) (hs : PublishersLive s)
    (hg : ∀ e ∈ (s.endpoints.discardChannel getClassHash service).1, ∀ w ∈ s.sweeps,
      ∀ msg ∈ w.msgToRelease, msg.publisher ≠ e.id) :
    PublishersLive ((s.deleteChannel getClassHash service).goto
        (some (.updateChannels toDelete toSetup))) ∧
      Calls s ((s.deleteChannel getClassHash service).goto
        (some (.updateChannels toDelete toSetup))) := by
  unfold State.deleteChannel
  split
  · refine ⟨⟨hs.table, hs.sweeps, ?_, hs.created⟩, ⟨[], rfl, by simp⟩, fun p hp _ => hp, le_rfl⟩
    intro hd hh p hp
    obtain rfl := Option.some.inj hh
    cases hp
  · rename_i e m hd
    obtain ⟨hlive, hleft⟩ := publishers_discardChannel hd
    rw [hd] at hg
    have hrel := SegmentedTable.releaseAll_eq s.segmented e.id
    generalize s.segmented.releaseAll e.id = r at hrel ⊢
    obtain ⟨t, released⟩ := r
    dsimp only at hrel ⊢
    refine ⟨⟨fun k msg hmem => ?_, fun w hw msg hmsg => ?_, ?_, fun p hp => ?_⟩, ?_, ?_, le_rfl⟩
    · rw [State.goto_segmented, hrel.1] at hmem
      obtain ⟨hmem, hne⟩ := List.mem_filter.mp hmem
      exact (hleft msg.publisher (by simpa using hne)).mpr (hs.table k msg hmem)
    · exact (hleft msg.publisher (hg e rfl w hw msg hmsg)).mpr (hs.sweeps w hw msg hmsg)
    · intro hd hh p hp
      obtain rfl := Option.some.inj hh
      cases hp
    · by_cases hpe : p = e.id
      · rw [hpe]
        exact hs.created _ hlive
      · exact hs.created p ((hleft p hpe).mp hp)
    · refine ⟨_, rfl, fun ev hev q hq => ?_⟩
      simp only [List.mem_append, List.mem_reverse, List.mem_map] at hev
      rcases hev with ⟨msg, -, rfl⟩ | ⟨_, -, rfl⟩
      · obtain rfl := Option.some.inj hq
        exact hlive
      · cases hq
    · intro p hp _
      by_cases hpe : p = e.id
      · rw [hpe]
        exact hlive
      · exact (hleft p hpe).mp hp

/-- A channel is set up, for a new publisher. -/
theorem live_setupChannel {service : ServiceDescription} (toSetup : List ServiceDescription)
    (hs : PublishersLive s) :
    PublishersLive ((s.setupChannel getClassHash service).goto
        (some (.updateChannels [] toSetup))) ∧
      Calls s ((s.setupChannel getClassHash service).goto (some (.updateChannels [] toSetup))) := by
  have hpub : ∀ p, p ∈ (s.setupChannel getClassHash service).publishers →
      p ∈ s.publishers ∨ p = s.nextEndpoint := by
    intro p hp
    unfold State.setupChannel Endpoints.addChannel at hp
    cases hm : s.endpoints.emplace (getClassHash service) ⟨s.nextEndpoint, service⟩ with
    | none =>
      rw [hm] at hp
      exact Or.inl hp
    | some m =>
      rw [hm] at hp
      obtain ⟨k, e, hmem, rfl⟩ := mem_publishers.mp hp
      rw [Option.getD_some, VectorMap.entries_emplace hm] at hmem
      rcases List.mem_append.mp hmem with hmem | hmem
      · exact Or.inl (mem_publishers.mpr ⟨k, e, hmem, rfl⟩)
      · obtain ⟨-, rfl⟩ := Prod.mk.inj (List.mem_singleton.mp hmem)
        exact Or.inr rfl
  have hold : ∀ p ∈ s.publishers, p ∈ (s.setupChannel getClassHash service).publishers := by
    intro p hp
    unfold State.setupChannel Endpoints.addChannel
    cases hm : s.endpoints.emplace (getClassHash service) ⟨s.nextEndpoint, service⟩ with
    | none => exact hp
    | some m =>
      obtain ⟨k, e, hmem, rfl⟩ := mem_publishers.mp hp
      refine mem_publishers.mpr ⟨k, e, ?_, rfl⟩
      rw [Option.getD_some, VectorMap.entries_emplace hm]
      exact List.mem_append_left _ hmem
  refine ⟨⟨fun k msg hmem => hold _ (hs.table k msg hmem),
    fun w hw msg hmsg => hold _ (hs.sweeps w hw msg hmsg), ?_, fun p hp => ?_⟩,
    ⟨[], rfl, by simp⟩, fun p hp hlt => ?_, Nat.le_succ _⟩
  · intro hd hh p hp
    obtain rfl := Option.some.inj hh
    cases hp
  · rcases hpub p hp with hp | rfl
    · exact Nat.lt_succ_of_lt (hs.created p hp)
    · exact Nat.lt_succ_self _
  · rcases hpub p hp with hp | rfl
    · exact hp
    · exact absurd hlt (Nat.lt_irrefl _)

/-! ## Every step -/

theorem mem_publishers_of_doForChannel {k : ClassHash} {e : Endpoint}
    (h : s.endpoints.doForChannel k = some e) : e.id ∈ s.publishers := by
  obtain ⟨⟨i, e'⟩, hf, rfl⟩ := Option.map_eq_some_iff.mp h
  exact mem_publishers.mpr ⟨k, e', VectorMap.mem_of_findElem hf, rfl⟩

/-- The beginning of a handler: it goes on with a publisher that has a channel. -/
theorem live_begin (events : List Event) {next : Option Handler} (hs : PublishersLive s)
    (hevents : ∀ e ∈ events, e.callee = none)
    (hnext : ∀ h ∈ next, ∀ p ∈ h.publisher, p ∈ s.publishers) :
    PublishersLive { s with holder := next, log := events ++ s.log } ∧
      Calls s { s with holder := next, log := events ++ s.log } := by
  refine ⟨⟨hs.table, hs.sweeps, hnext, hs.created⟩, ⟨events, rfl, fun e he p hp => ?_⟩,
    fun p hp _ => hp, le_rfl⟩
  rw [hevents e he] at hp
  cases hp

theorem live_stay (hs : PublishersLive s) : PublishersLive s ∧ Calls s s :=
  ⟨hs, ⟨[], rfl, by simp⟩, fun _ hp _ => hp, le_rfl⟩

theorem live_proceed {h : Handler} {now : Time} {answer : Option (Nat → Byte)}
    (hs : PublishersLive s) (hh : s.holder = some h)
    (hg : DeletesUnswept getClassHash s (.proceed now answer)) :
    PublishersLive (s.proceed getClassHash now answer h) ∧
      Calls s (s.proceed getClassHash now answer h) := by
  cases hp : h.publisher with
  | some p =>
    have hlive := hs.holder h hh p hp
    have hserves : Serves p s (s.proceed getClassHash now answer h) :=
      serves_proceed hp now answer
    exact ⟨hs.serve hlive hserves, hserves.calls hs hlive⟩
  | none =>
    cases h with
    | updateChannels toDelete toSetup =>
      cases toDelete with
      | cons service toDelete =>
        simp only [DeletesUnswept, hh] at hg
        exact live_deleteChannel toDelete toSetup hs hg
      | nil =>
        cases toSetup with
        | cons service toSetup => exact live_setupChannel toSetup hs
        | nil => exact live_begin [] hs (by simp) (by simp)
    | _ => cases hp

theorem live_sweep {i : Nat} {w : Sweep} (hs : PublishersLive s) (hw : s.sweeps[i]? = some w)
    (h : s.proceedSweep i w = some s') : PublishersLive s' ∧ Calls s s' := by
  have hmem := List.mem_of_getElem? hw
  rcases proceedSweep_cases h with ⟨-, -, rfl⟩ | ⟨k, msg, t, -, ht, rfl⟩ | ⟨msg, hmsg, -, rfl⟩
  · refine ⟨⟨hs.table, fun w' hw' => ?_, hs.holder, hs.created⟩, ⟨[], rfl, by simp⟩,
      fun p hp _ => hp, le_rfl⟩
    exact hs.sweeps w' (List.mem_of_mem_eraseIdx hw')
  · -- the publisher of the message goes from the table to the sweep
    obtain ⟨j, hj, rfl⟩ := SegmentedTable.takeExpired_eq_some ht
    refine ⟨⟨fun k' msg' hmem' => ?_, fun w' hw' msg' hmsg' => ?_, hs.holder, hs.created⟩,
      ⟨[.timedOut k msg.userPayload], rfl, by simp [Event.callee]⟩, fun p hp _ => hp, le_rfl⟩
    · exact hs.table k' msg' (VectorMap.mem_entries_of_mem_erase hmem')
    · rcases List.mem_or_eq_of_mem_set hw' with hw' | rfl
      · exact hs.sweeps w' hw' msg' hmsg'
      · obtain rfl := Option.some.inj hmsg'
        exact hs.table k msg (List.mem_of_getElem? hj)
  · refine ⟨⟨hs.table, fun w' hw' msg' hmsg' => ?_, hs.holder, hs.created⟩,
      ⟨[.released msg.userPayload msg.publisher], rfl, fun e he p hp => ?_⟩,
      fun p hp _ => hp, le_rfl⟩
    · rcases List.mem_or_eq_of_mem_set hw' with hw' | rfl
      · exact hs.sweeps w' hw' msg' hmsg'
      · cases hmsg'
    · obtain rfl := List.mem_singleton.mp he
      obtain rfl := Option.some.inj hp
      exact hs.sweeps w hmem msg hmsg

/-- **Every step that meets the condition keeps the invariant and calls only publishers with a
channel.** -/
theorem live_step {l : Label} (hs : PublishersLive s) (hg : DeletesUnswept getClassHash s l)
    (h : step getClassHash s l = some s') : PublishersLive s' ∧ Calls s s' := by
  cases l with
  | receive datagram device =>
    simp only [step] at h
    split at h
    · obtain ⟨hd, n, -, ⟨-, rfl⟩ | ⟨-, -, rfl⟩ | ⟨e, -, he, rfl⟩⟩ := receive_eq_some h
      · exact live_stay hs
      · exact live_begin [.noChannel hd.messageHash] hs (by simp [Event.callee])
          hs.holder
      · refine live_begin [.delivered datagram] hs (by simp [Event.callee]) ?_
        intro h' hh' p hp
        obtain rfl := Option.some.inj hh'
        obtain rfl := Option.some.inj hp
        exact mem_publishers_of_doForChannel he
    · cases h
  | loanBuffer header =>
    simp only [step, loanBuffer] at h
    split at h
    · split at h
      · cases h
      · split at h
        · obtain rfl := Option.some.inj h
          exact live_stay hs
        · rename_i e he
          obtain rfl := Option.some.inj h
          refine live_begin [] hs (by simp) ?_
          intro h' hh' p hp
          obtain rfl := Option.some.inj hh'
          obtain rfl := Option.some.inj hp
          exact mem_publishers_of_doForChannel he
    · cases h
  | releaseBuffer header shouldRelease device =>
    simp only [step, releaseBuffer] at h
    split at h
    · split at h
      · cases h
      · split at h
        · obtain rfl := Option.some.inj h
          exact live_stay hs
        · rename_i e he
          obtain rfl := Option.some.inj h
          refine live_begin [] hs (by simp) ?_
          intro h' hh' p hp
          obtain rfl := Option.some.inj hh'
          have hpub : p = e.id := by cases shouldRelease <;> exact (Option.some.inj hp).symm
          rw [hpub]
          exact mem_publishers_of_doForChannel he
    · cases h
  | updateChannels services =>
    simp only [step] at h
    split at h
    · obtain rfl := Option.some.inj h
      refine live_begin [] hs (by simp) ?_
      intro h' hh' p hp
      obtain rfl := Option.some.inj hh'
      cases hp
    · cases h
  | checkSegmentedMessages now =>
    obtain rfl := Option.some.inj h
    refine ⟨⟨hs.table, fun w hw msg hmsg => ?_, hs.holder, hs.created⟩, ⟨[], rfl, by simp⟩,
      fun p hp _ => hp, le_rfl⟩
    rcases List.mem_append.mp hw with hw | hw
    · exact hs.sweeps w hw msg hmsg
    · obtain rfl := List.mem_singleton.mp hw
      cases hmsg
  | proceed now answer =>
    obtain ⟨hd, hh, rfl⟩ := Option.map_eq_some_iff.mp h
    exact live_proceed hs hh hg
  | sweep i =>
    obtain ⟨w, hw, hsweep⟩ := Option.bind_eq_some_iff.mp h
    exact live_sweep hs hw hsweep

/-- The publisher was created and has no channel any more. -/
def State.Deleted (s : State) (p : PublisherId) : Prop := p < s.nextEndpoint ∧ p ∉ s.publishers

theorem Calls.deleted (h : Calls s s') {p : PublisherId} (hp : s.Deleted p) : s'.Deleted p :=
  ⟨Nat.lt_of_lt_of_le hp.1 h.next, fun hmem => hp.2 (h.old p hmem hp.1)⟩

theorem Calls.untouched (h : Calls s s') : ∃ new, s'.log = new ++ s.log ∧
    ∀ e ∈ new, ∀ p, s.Deleted p → e.callee ≠ some p := by
  obtain ⟨events, hlog, hev⟩ := h.log
  exact ⟨events, hlog, fun e he p hp hc => hp.2 (hev e he p hc)⟩

/-- **Deleted publishers are left alone.**  In every run in which no channel is deleted while a
sweep has a message of its publisher: from any state on in which a publisher that was created has
no channel any more, no step calls `release` or `publish` on it. -/
theorem deleted_publisher_untouched (getClassHash : ServiceDescription → ClassHash)
    (before later : List Label) (s s' : State)
    (hbefore : Run.exec (step getClassHash) State.init before = some s)
    (hlater : Run.exec (step getClassHash) s later = some s')
    (hg : Run.Guarded (step getClassHash) (DeletesUnswept getClassHash) State.init
      (before ++ later))
    (p : PublisherId) (hcreated : p < s.nextEndpoint) (hdeleted : p ∉ s.publishers) :
    ∃ events, s'.log = events ++ s.log ∧ ∀ e ∈ events, e.callee ≠ some p := by
  obtain ⟨hg₁, hg₂⟩ := hg.append hbefore
  have hs : PublishersLive s := Run.invariant_guarded _
    (fun _ _ _ hs hg h => (live_step hs hg h).1) publishersLive_init hg₁ hbefore
  refine Run.untouched PublishersLive State.log State.Deleted (fun e p => e.callee = some p)
    (fun s l s' hs hg h => ?_) hs hg₂ hlater ⟨hcreated, hdeleted⟩
  obtain ⟨hlive, hcalls⟩ := live_step hs hg h
  exact ⟨hlive, hcalls.untouched, fun p => hcalls.deleted⟩

/-- A message times out, its sweep gives it back, and then the channel is deleted. -/
def demoTimedOut : List Label :=
  demoSetup ++ demoFirst 9 ++ [.checkSegmentedMessages 2000, .sweep 0, .sweep 0, .sweep 0,
    .updateChannels .empty, .proceed 0 none, .proceed 0 none]

theorem deleted_publisher_untouched_demo :
    ∃ s, Run.exec (step demoClassHash) State.init demoTimedOut = some s ∧
      0 < s.nextEndpoint ∧ (0 : PublisherId) ∉ s.publishers ∧
      ∃ s', Run.exec (step demoClassHash) s demoSetup = some s' ∧
        ∃ events, s'.log = events ++ s.log ∧ ∀ e ∈ events, e.callee ≠ some 0 := by
  refine ⟨_, rfl, by decide, by decide, _, rfl, ?_⟩
  exact deleted_publisher_untouched demoClassHash demoTimedOut demoSetup _ _ rfl rfl
    (by decide +kernel) 0 (by decide) (by decide)

/-- The channel is deleted while the sweep is between its sections. -/
def demoDeleted : List Label :=
  demoSetup ++ demoFirst 9 ++ [.checkSegmentedMessages 2000, .sweep 0,
    .updateChannels .empty, .proceed 0 none, .proceed 0 none]

/-- The sweep then releases the chunk through the deleted publisher. -/
theorem release_on_deleted_publisher :
    ∃ s, Run.exec (step demoClassHash) State.init demoDeleted = some s ∧
      0 < s.nextEndpoint ∧ (0 : PublisherId) ∉ s.publishers ∧
      ∃ s', Run.exec (step demoClassHash) s [.sweep 0] = some s' ∧
        s'.log = .released 0 0 :: s.log := by
  exact ⟨_, rfl, by decide, by decide, _, rfl, rfl⟩

end P3com.TransportToIox
