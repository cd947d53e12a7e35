/-
# Messages of different services

`receive`, `loanBuffer` and `releaseBuffer` look at two fields of a datagram header.  The channel,
and with it the publisher, is found by `serviceHash`; the chunk in which the message is put
together is found by `messageHash`, and by nothing else.  The table entry has the publisher that
loaned the chunk, and every call of `release` goes to that one.  But the chunk is written for, and
published through, the channel of the datagram.

So a datagram with the message hash of another service's message, from whatever sender, is copied
into a chunk of the other service, and its last one is published on the wrong publisher
(`chunk_crosses_services`).  `types.hpp` promises that message hashes are unique; they are random
numbers of 32 bits, drawn by each gateway for itself.

As long as no datagram arrives whose hash is that of a message under way in another channel
(`OwnMessages`), services do not mix: `services_isolated`.  The invariant is `Lent`: whoever holds a
chunk (a table entry, a sweep, the handler) holds with it the publisher from which it was loaned.
-/
import P3com.Gateway.ChunkAccess

namespace P3com.TransportToIox

variable {getClassHash : ServiceDescription → ClassHash} {s s' : State}

/-! ## What is asked -/

/-- The publisher from which the chunk was loaned. -/
def State.lender (s : State) (c : ChunkId) : Option PublisherId := s.chunks[c]?.map Chunk.publisher

/-- The publisher of the channel with the hash. -/
def State.channelPublisher (s : State) (serviceHash : ClassHash) : Option PublisherId :=
  (s.endpoints.doForChannel serviceHash).map Endpoint.id

/-- The chunk that is given to `publish` or `release`, and the publisher that is called. -/
def Event.givenBack : Event → Option (ChunkId × PublisherId)
  | .published c p _ _ => some (c, p)
  | .released c p => some (c, p)
  | _ => none

/-- The datagram for which the handler runs, and its channel. -/
def Handler.call : Handler → Option Call
  | .receiveFind x | .receiveLoan x | .receivePush x _ | .receiveTake x _ _ _
  | .receivePublish x _ | .loanFind x | .loanLoan x | .loanPush x _ | .loanReturn x _ _
  | .releaseRelease x | .releaseDecrement x | .releasePublish x _ => some x
  | .updateChannels _ _ => none

/-- The event concerns the services rightly: a chunk is given back to its lender, and one that is
written or handed out was loaned from the publisher of the datagram's channel. -/
structure Event.Rightful (s s' : State) (e : Event) : Prop where
  givenBack : ∀ c p, e.givenBack = some (c, p) → s'.lender c = some p
  accessed : ∀ c ∈ e.accessed, ∃ h x p, s.holder = some h ∧ h.call = some x ∧
    s.channelPublisher x.header.serviceHash = some p ∧ s'.lender c = some p

/-! ## The condition -/

/-- A message under way with the hash of this datagram is one of the datagram's channel. -/
def State.OwnMessage (s : State) (h : IoxChunkDatagramHeader) : Prop :=
  ∀ p ∈ s.channelPublisher h.serviceHash, ∀ m ∈ s.segmented.entries,
    m.1 = h.messageHash → m.2.publisher = p

instance (s : State) (h : IoxChunkDatagramHeader) : Decidable (s.OwnMessage h) :=
  inferInstanceAs (Decidable (∀ p ∈ _, ∀ m ∈ _, _ → _))

/-- No call arrives with the hash of a message of another channel.  It does not matter where the
buffer is to be released, since that goes to the lender. -/
def OwnMessages (s : State) : Label → Prop
  | .receive datagram _ =>
    ∀ r ∈ deserialize datagram, sizeCheck datagram r.1 r.2 = true → s.OwnMessage r.1
  | .loanBuffer header => ∀ r ∈ deserialize header, s.OwnMessage r.1
  | .releaseBuffer header shouldRelease _ =>
    shouldRelease = false → ∀ r ∈ deserialize header, s.OwnMessage r.1
  | _ => True

instance (s : State) : (l : Label) → Decidable (OwnMessages s l)
  | .receive _ _ => inferInstanceAs (Decidable (∀ r ∈ _, _ → _))
  | .loanBuffer _ => inferInstanceAs (Decidable (∀ r ∈ _, _))
  | .releaseBuffer _ _ _ => inferInstanceAs (Decidable (_ → ∀ r ∈ _, _))
  | .updateChannels _ | .checkSegmentedMessages _ | .proceed _ _ | .sweep _ => isTrue trivial

/-! ## Lenders -/

/-- Nothing changes about the chunks that have been loaned. -/
def KeepsLenders (s s' : State) : Prop := ∀ c p, s.lender c = some p → s'.lender c = some p

theorem KeepsLenders.of_eq (h : s'.chunks = s.chunks) : KeepsLenders s s' := by
  intro c p hc
  unfold State.lender at hc ⊢
  rw [h]
  exact hc

theorem publisher_write (chunk : Chunk) (part : Part) (offset : Nat) (data : List Byte) :
    (chunk.write part offset data).publisher = chunk.publisher := by
  cases part <;> rfl

/-- A further loan, and a write into a chunk, leave the lenders of the chunks as they are. -/
theorem KeepsLenders.proceed (s : State) (now : Time) (answer : Option (Nat → Byte))
    (h : Handler) : KeepsLenders s (s.proceed getClassHash now answer h) := by
  intro c p hc
  obtain ⟨chunk, hchunk, hp⟩ := Option.map_eq_some_iff.mp hc
  unfold State.lender
  rcases @proceed_chunks getClassHash s now answer h with heq | ⟨_, heq⟩ | ⟨c', _, _, _, heq⟩
  · rw [heq, hchunk]
    exact congrArg some hp
  · obtain ⟨hlt, -⟩ := List.getElem?_eq_some_iff.mp hchunk
    rw [heq, List.getElem?_append_left hlt, hchunk]
    exact congrArg some hp
  · rw [heq, List.getElem?_modify, hchunk]
    by_cases hc' : c' = c
    · simp only [hc', if_true, Option.map_eq_map, Option.map_some, publisher_write]
      exact congrArg some hp
    · simp only [hc', if_false, Option.map_eq_map, Option.map_some]
      exact congrArg some hp

theorem lender_loan (s : State) (x : Call) (fill : Nat → Byte) (next : Option Handler) :
    ((s.loan x fill).goto next).lender s.chunks.length = some x.publisher := by
  simp [State.lender, State.loanedChunk]

/-! ## The invariant -/

/-- The chunk with which the handler goes on. -/
def Handler.chunk : Handler → Option ChunkId
  | .receivePush _ c | .receiveTake _ _ c _ | .receivePublish _ c | .loanPush _ c
  | .loanReturn _ _ c | .releasePublish _ c => some c
  | _ => none

/-- The call for which the handler is about to look into the table. -/
def Handler.looking : Handler → Option Call
  | .receiveFind x | .loanFind x | .releaseDecrement x => some x
  | _ => none

structure Lent (s : State) : Prop where
  table : ∀ m ∈ s.segmented.entries, s.lender m.2.userPayload = some m.2.publisher
  sweeps : ∀ w ∈ s.sweeps, ∀ msg ∈ w.msgToRelease, s.lender msg.userPayload = some msg.publisher
  channel : ∀ h ∈ s.holder, ∀ x ∈ h.call,
    s.channelPublisher x.header.serviceHash = some x.publisher
  own : ∀ h ∈ s.holder, ∀ x ∈ h.looking, ∀ m ∈ s.segmented.entries,
    m.1 = x.header.messageHash → m.2.publisher = x.publisher
  chunk : ∀ h ∈ s.holder, ∀ x ∈ h.call, ∀ c ∈ h.chunk, s.lender c = some x.publisher
  log : ∀ e ∈ s.log, ∀ c p, e.givenBack = some (c, p) → s.lender c = some p

theorem lent_init : Lent State.init where
  table := by simp [State.init]
  sweeps := by simp [State.init]
  channel := by simp [State.init]
  own := by simp [State.init]
  chunk := by simp [State.init]
  log := by simp [State.init]

/-! ## The sections of the handlers of one channel -/

/-- What a section of a handler for the call `x` does. -/
structure Attends (x : Call) (s s' : State) : Prop where
  endpoints : s'.endpoints = s.endpoints
  sweeps : s'.sweeps = s.sweeps
  keeps : KeepsLenders s s'
  table : ∀ m ∈ s'.segmented.entries, s'.lender m.2.userPayload = some m.2.publisher
  holder : ∀ h ∈ s'.holder, h.call = some x ∧ h.looking = none ∧
    ∀ c ∈ h.chunk, s'.lender c = some x.publisher
  log : ∃ new, s'.log = new ++ s.log ∧ ∀ e ∈ new, e.Rightful s s'

/-- An event that is no call and no access. -/
theorem Event.rightful_of_none {e : Event} (hg : e.givenBack = none) (ha : e.accessed = none) :
    e.Rightful s s' := by
  refine ⟨fun c p h => ?_, fun c h => ?_⟩
  · rw [hg] at h
    cases h
  · rw [ha] at h
    cases h

theorem Event.rightful_givenBack {e : Event} {c : ChunkId} {p : PublisherId}
    (hg : e.givenBack = some (c, p)) (ha : e.accessed = none) (hc : s'.lender c = some p) :
    e.Rightful s s' := by
  refine ⟨fun c' p' h => ?_, fun c h => ?_⟩
  · rw [hg] at h
    obtain ⟨rfl, rfl⟩ := Prod.mk.inj (Option.some.inj h)
    exact hc
  · rw [ha] at h
    cases h

/-- An access to the chunk of the handler. -/
theorem Lent.rightful_accessed (hs : Lent s) {h : Handler} {x : Call} {c : ChunkId} {e : Event}
    (hh : s.holder = some h) (hx : h.call = some x) (hc : h.chunk = some c)
    (hg : e.givenBack = none) (ha : e.accessed = some c) (hk : KeepsLenders s s') :
    e.Rightful s s' := by
  refine ⟨fun c' p' h => ?_, fun c' h' => ?_⟩
  · rw [hg] at h
    cases h
  · rw [ha] at h'
    obtain rfl := Option.some.inj h'
    exact ⟨h, x, x.publisher, hh, hx, hs.channel h hh x hx, hk _ _ (hs.chunk h hh x hx c hc)⟩

/-- The handler that comes next goes on with a chunk of the publisher. -/
theorem Handler.attended {h : Handler} {x : Call} {c : ChunkId} (hx : h.call = some x)
    (hl : h.looking = none) (hc : h.chunk = some c) (hlender : s.lender c = some x.publisher) :
    h.call = some x ∧ h.looking = none ∧ ∀ d ∈ h.chunk, s.lender d = some x.publisher := by
  refine ⟨hx, hl, fun d hd => ?_⟩
  rw [hc] at hd
  obtain rfl := Option.some.inj hd
  exact hlender

/-- A section that leaves the table alone. -/
theorem Lent.attends (hs : Lent s) (new : List Event) {x : Call} {next : Option Handler}
    (he : s'.endpoints = s.endpoints) (hw : s'.sweeps = s.sweeps)
    (ht : s'.segmented = s.segmented) (hk : KeepsLenders s (s'.goto next))
    (hlog : s'.log = new ++ s.log) (hnew : ∀ e ∈ new, e.Rightful s (s'.goto next))
    (hnext : ∀ h ∈ next, h.call = some x ∧ h.looking = none ∧
      ∀ c ∈ h.chunk, (s'.goto next).lender c = some x.publisher) :
    Attends x s (s'.goto next) where
  endpoints := he
  sweeps := hw
  keeps := hk
  table := by
    intro m hm
    rw [State.goto_segmented, ht] at hm
    exact hk _ _ (hs.table m hm)
  holder := hnext
  log := ⟨new, hlog, hnew⟩

/-- The entries that `findAndDecrement` leaves have the chunks and publishers that they had. -/
theorem Lent.table_findAndDecrement (hs : Lent s) {k : Hash} {msg : SegmentedMessage}
    {publish : Bool} {t : SegmentedTable}
    (hf : s.segmented.findAndDecrement k = some (msg, publish, t)) :
    ∀ m ∈ t.entries, s.lender m.2.userPayload = some m.2.publisher := by
  rintro ⟨k', msg'⟩ hm
  obtain ⟨r, hr⟩ := mem_of_findAndDecrement hf hm
  have := hs.table _ hr
  exact this

/-- The message that the handler finds was loaned from the publisher of its channel. -/
theorem Lent.lender_found (hs : Lent s) {h : Handler} {x : Call} (hh : s.holder = some h)
    (hx : h.looking = some x) {msg : SegmentedMessage}
    (hmem : (x.header.messageHash, msg) ∈ s.segmented.entries) :
    s.lender msg.userPayload = some x.publisher := by
  have hown := hs.own h hh x hx _ hmem rfl
  rw [← hown]
  exact hs.table _ hmem

/-- The section of `findAndDecrement`, which finds a message. -/
theorem Lent.attends_found (hs : Lent s) {h : Handler} {x : Call} (hh : s.holder = some h)
    (hx : h.looking = some x) {msg : SegmentedMessage} {publish : Bool} {t : SegmentedTable}
    (hf : s.segmented.findAndDecrement x.header.messageHash = some (msg, publish, t))
    {next : Option Handler}
    (hnext : ∀ g ∈ next, g.call = some x ∧ g.looking = none ∧ g.chunk = some msg.userPayload) :
    Attends x s ({ s with segmented := t }.goto next) := by
  refine ⟨rfl, rfl, .of_eq rfl, hs.table_findAndDecrement hf, fun g hg => ?_, [], rfl, by simp⟩
  obtain ⟨hx', hl', hc'⟩ := hnext g hg
  exact Handler.attended hx' hl' hc' (hs.lender_found hh hx (mem_findAndDecrement hf))

/-- The section of the loan, which is granted. -/
theorem Lent.attends_loan (hs : Lent s) {x : Call} (fill : Nat → Byte) {h' : Handler}
    (hk : KeepsLenders s ((s.loan x fill).goto (some h'))) (hx' : h'.call = some x)
    (hl' : h'.looking = none) (hc' : h'.chunk = some s.chunks.length) :
    Attends x s ((s.loan x fill).goto (some h')) := by
  refine hs.attends [.loaned s.chunks.length x.publisher] rfl rfl rfl hk rfl
    (List.forall_mem_singleton.mpr (Event.rightful_of_none rfl rfl)) fun g hg => ?_
  obtain rfl := Option.some.inj hg
  exact Handler.attended hx' hl' hc' (lender_loan s x fill _)

/-- The section of the loan, which is refused. -/
theorem Lent.attends_loanFailed (hs : Lent s) (x : Call) :
    Attends x s ((s.record (.loanFailed x.header.messageHash)).goto none) :=
  hs.attends [.loanFailed x.header.messageHash] rfl rfl rfl (.of_eq rfl) rfl
    (List.forall_mem_singleton.mpr (Event.rightful_of_none rfl rfl)) (by simp)

/-- The section in which `loanBuffer` returns.  A user header pointer points into the same
chunk. -/
theorem Lent.attends_return (hs : Lent s) (hb : BuffersValid s) {x : Call}
    {userHeader : Option ChunkId} {c : ChunkId} (now : Time) (answer : Option (Nat → Byte))
    (hh : s.holder = some (.loanReturn x userHeader c)) :
    Attends x s (s.proceed getClassHash now answer (.loanReturn x userHeader c)) := by
  have hvalid := hb.holder _ _ _ hh rfl
  have hreturned : ∀ part, Attends x s ((s.record (.bufferReturned c part)).goto none) := by
    intro part
    exact hs.attends [.bufferReturned c part] rfl rfl rfl (.of_eq rfl) rfl
      (List.forall_mem_singleton.mpr (hs.rightful_accessed hh rfl rfl rfl rfl (.of_eq rfl)))
      (by simp)
  simp only [State.proceed]
  split
  · cases userHeader with
    | none => exact hs.attends [] rfl rfl rfl (.of_eq rfl) rfl (by simp) (by simp)
    | some c' =>
      obtain rfl := hvalid.eq_of_userHeader
      exact hreturned .userHeader
  · exact hreturned .userPayload

/-- The section of `SegmentedMessageManager::push`. -/
theorem Lent.attends_push (hs : Lent s) {x : Call} {c : ChunkId} {h h' : Handler}
    (hh : s.holder = some h) (hx : h.call = some x) (hc : h.chunk = some c)
    (hx' : h'.call = some x) (hl' : h'.looking = none) (hc' : h'.chunk = some c)
    (remaining : UInt32) (now : Time) :
    Attends x s ((s.pushSegmented x remaining c now).goto (some h')) := by
  have hlender : s.lender c = some x.publisher := hs.chunk h hh x hx c hc
  have hnext : ∀ g ∈ some h', g.call = some x ∧ g.looking = none ∧
      ∀ d ∈ g.chunk, s.lender d = some x.publisher := by
    intro g hg
    obtain rfl := Option.some.inj hg
    exact Handler.attended hx' hl' hc' hlender
  unfold State.pushSegmented
  split
  · rename_i t hpush
    refine ⟨rfl, rfl, fun _ _ h => h, fun m hm => ?_, hnext, [], rfl, by simp⟩
    rw [State.goto_segmented, VectorMap.entries_emplace hpush] at hm
    rcases List.mem_append.mp hm with hm | hm
    · exact hs.table m hm
    · obtain rfl := List.mem_singleton.mp hm
      exact hlender
  · refine ⟨rfl, rfl, fun _ _ h => h, hs.table, hnext,
      [.released c x.publisher, .rejected x.header.messageHash c], rfl, fun e he => ?_⟩
    simp only [List.mem_cons, List.not_mem_nil, or_false] at he
    rcases he with rfl | rfl
    · exact Event.rightful_givenBack rfl rfl hlender
    · exact Event.rightful_of_none rfl rfl

/-- The section of `publish`. -/
theorem Lent.attends_publish (hs : Lent s) {x : Call} {c : ChunkId} {h : Handler}
    (hh : s.holder = some h) (hx : h.call = some x) (hc : h.chunk = some c) :
    Attends x s ((s.publish x c).goto none) := by
  refine ⟨rfl, rfl, fun _ _ h => h, hs.table, by simp,
    [.published c x.publisher x.header.messageHash s.chunks[c]?,
      .forwarded c x.header.serviceHash x.device], rfl, fun e he => ?_⟩
  simp only [List.mem_cons, List.not_mem_nil, or_false] at he
  rcases he with rfl | rfl
  · exact Event.rightful_givenBack rfl rfl (hs.chunk h hh x hx c hc)
  · exact Event.rightful_of_none rfl rfl

/-- The section of `takeNext`.  A user header pointer points into the same chunk. -/
theorem Lent.attends_take (hs : Lent s) (hb : BuffersValid s) {x : Call}
    {userHeader : Option ChunkId} {c : ChunkId} {shouldPublish : Bool} (now : Time)
    (answer : Option (Nat → Byte))
    (hh : s.holder = some (.receiveTake x userHeader c shouldPublish)) :
    Attends x s (s.proceed getClassHash now answer
      (.receiveTake x userHeader c shouldPublish)) := by
  have hk := @KeepsLenders.proceed getClassHash s now answer
    (.receiveTake x userHeader c shouldPublish)
  have hlender := hk c _ (hs.chunk _ hh x rfl c rfl)
  have hvalid := hb.holder _ _ _ hh rfl
  have hnext : ∀ h ∈ (if shouldPublish then some (Handler.receivePublish x c) else none),
      h.call = some x ∧ h.looking = none ∧ ∀ d ∈ h.chunk,
        (s.proceed getClassHash now answer
          (.receiveTake x userHeader c shouldPublish)).lender d = some x.publisher := by
    intro h hmem
    cases shouldPublish with
    | false => simp at hmem
    | true =>
      obtain rfl : Handler.receivePublish x c = h := by simpa using hmem
      exact Handler.attended rfl rfl rfl hlender
  simp only [State.proceed, State.takeNext] at hk hnext ⊢
  cases htarget : State.takeNextTarget x.header userHeader c with
  | none =>
    simp only [htarget] at hk hnext ⊢
    exact hs.attends [] rfl rfl rfl hk rfl (by simp) hnext
  | some c' =>
    have hc' : c' = c := by
      unfold State.takeNextTarget at htarget
      split at htarget
      · subst htarget
        exact hvalid.eq_of_userHeader
      · exact (Option.some.inj htarget).symm
    simp only [htarget] at hk hnext ⊢
    refine hs.attends [.written c' (takeNextRange x.header)] rfl rfl rfl hk rfl
      (List.forall_mem_singleton.mpr ?_) hnext
    exact hs.rightful_accessed hh rfl rfl rfl (by rw [hc']; rfl) hk

/-- **What the sections of the handlers of a channel do.** -/
theorem Lent.attends_proceed (hs : Lent s) (hb : BuffersValid s) {h : Handler} {x : Call}
    (hh : s.holder = some h) (hx : h.call = some x) (now : Time)
    (answer : Option (Nat → Byte)) : Attends x s (s.proceed getClassHash now answer h) := by
  have hk := @KeepsLenders.proceed getClassHash s now answer h
  cases h with
  | receiveFind x' =>
    obtain rfl := Option.some.inj hx
    rw [State.proceed]
    cases hf : s.segmented.findAndDecrement x'.header.messageHash with
    | none =>
      exact hs.attends [] rfl rfl rfl (.of_eq rfl) rfl (by simp)
        (by simp [Handler.call, Handler.looking, Handler.chunk])
    | some r =>
      obtain ⟨msg, shouldPublish, t⟩ := r
      refine hs.attends_found hh rfl hf fun g hg => ?_
      obtain rfl : Handler.receiveTake x' msg.userHeader msg.userPayload shouldPublish = g := by
        simpa using hg
      exact ⟨rfl, rfl, rfl⟩
  | receiveLoan x' =>
    obtain rfl := Option.some.inj hx
    cases answer with
    | none => exact hs.attends_loanFailed x'
    | some fill =>
      simp only [State.proceed] at hk ⊢
      split at hk <;> rename_i hmany
      · rw [if_pos hmany]
        exact hs.attends_loan fill hk rfl rfl rfl
      · rw [if_neg hmany]
        exact hs.attends_loan fill hk rfl rfl rfl
  | receivePush x' c =>
    obtain rfl := Option.some.inj hx
    exact hs.attends_push hh rfl rfl rfl rfl rfl _ now
  | receiveTake x' userHeader c shouldPublish =>
    obtain rfl := Option.some.inj hx
    exact hs.attends_take hb now answer hh
  | receivePublish x' c =>
    obtain rfl := Option.some.inj hx
    exact hs.attends_publish hh rfl rfl
  | loanFind x' =>
    obtain rfl := Option.some.inj hx
    rw [State.proceed]
    cases hf : s.segmented.findElem x'.header.messageHash with
    | none =>
      exact hs.attends [] rfl rfl rfl (.of_eq rfl) rfl (by simp)
        (by simp [Handler.call, Handler.looking, Handler.chunk])
    | some r =>
      obtain ⟨i, msg⟩ := r
      refine hs.attends [] rfl rfl rfl (.of_eq rfl) rfl (by simp) fun g hg => ?_
      obtain rfl := Option.some.inj hg
      exact Handler.attended rfl rfl rfl (hs.lender_found hh rfl (VectorMap.mem_of_findElem hf))
  | loanLoan x' =>
    obtain rfl := Option.some.inj hx
    cases answer with
    | none => exact hs.attends_loanFailed x'
    | some fill => exact hs.attends_loan fill hk rfl rfl rfl
  | loanPush x' c =>
    obtain rfl := Option.some.inj hx
    exact hs.attends_push hh rfl rfl rfl rfl rfl _ now
  | loanReturn x' userHeader c =>
    obtain rfl := Option.some.inj hx
    exact hs.attends_return hb now answer hh
  | releaseRelease x' =>
    obtain rfl := Option.some.inj hx
    rw [State.proceed]
    cases hf : s.segmented.release x'.header.messageHash with
    | none => exact hs.attends [] rfl rfl rfl (.of_eq rfl) rfl (by simp) (by simp)
    | some r =>
      obtain ⟨msg, t⟩ := r
      obtain ⟨i, hi, rfl⟩ := SegmentedTable.release_eq_some hf
      refine ⟨rfl, rfl, .of_eq rfl, fun m hm => ?_, by simp,
        [.released msg.userPayload msg.publisher], rfl, fun e he => ?_⟩
      · exact hs.table m (VectorMap.mem_entries_of_mem_erase hm)
      · obtain rfl := List.mem_singleton.mp he
        exact Event.rightful_givenBack rfl rfl (hs.table _ (List.mem_of_getElem? hi))
  | releaseDecrement x' =>
    obtain rfl := Option.some.inj hx
    rw [State.proceed]
    cases hf : s.segmented.findAndDecrement x'.header.messageHash with
    | none => exact hs.attends [] rfl rfl rfl (.of_eq rfl) rfl (by simp) (by simp)
    | some r =>
      obtain ⟨msg, shouldPublish, t⟩ := r
      refine hs.attends_found hh rfl hf fun g hg => ?_
      cases shouldPublish with
      | false => simp at hg
      | true =>
        obtain rfl : Handler.releasePublish x' msg.userPayload = g := by simpa using hg
        exact ⟨rfl, rfl, rfl⟩
  | releasePublish x' c =>
    obtain rfl := Option.some.inj hx
    exact hs.attends_publish hh rfl rfl
  | updateChannels toDelete toSetup => cases hx

/-! ## Steps -/

/-- The step records only what is rightful. -/
def LogsRightly (s s' : State) : Prop := ∃ new, s'.log = new ++ s.log ∧ ∀ e ∈ new, e.Rightful s s'

theorem Lent.log_of_logsRightly (hs : Lent s) (hk : KeepsLenders s s') (hr : LogsRightly s s') :
    ∀ e ∈ s'.log, ∀ c p, e.givenBack = some (c, p) → s'.lender c = some p := by
  obtain ⟨new, hlog, hnew⟩ := hr
  intro e he c p hg
  rw [hlog] at he
  rcases List.mem_append.mp he with he | he
  · exact (hnew e he).givenBack c p hg
  · exact hk c p (hs.log e he c p hg)

theorem Lent.attend (hs : Lent s) {h : Handler} {x : Call} (hh : s.holder = some h)
    (hx : h.call = some x) (ha : Attends x s s') : Lent s' ∧ LogsRightly s s' := by
  have hchannel := hs.channel h hh x hx
  refine ⟨⟨ha.table, fun w hw msg hmsg => ?_, fun g hg y hy => ?_, fun g hg y hy => ?_,
    fun g hg y hy c hc => ?_, hs.log_of_logsRightly ha.keeps ha.log⟩, ha.log⟩
  · rw [ha.sweeps] at hw
    exact ha.keeps _ _ (hs.sweeps w hw msg hmsg)
  · rw [(ha.holder g hg).1] at hy
    obtain rfl := Option.some.inj hy
    unfold State.channelPublisher at hchannel ⊢
    rw [ha.endpoints]
    exact hchannel
  · rw [(ha.holder g hg).2.1] at hy
    cases hy
  · rw [(ha.holder g hg).1] at hy
    obtain rfl := Option.some.inj hy
    exact (ha.holder g hg).2.2 c hc

theorem Handler.call_of_looking {h : Handler} {x : Call} (hl : h.looking = some x) :
    h.call = some x := by
  cases h <;> first | exact hl | cases hl

theorem Handler.chunk_of_isFirst {h : Handler} (hf : h.isFirst = true) : h.chunk = none := by
  cases h <;> first | rfl | cases hf

/-- A handler begins, or gives up at once: it has found its channel, and looks for its own messages
only. -/
theorem Lent.begin (hs : Lent s) (new : List Event) (next : Option Handler)
    (hnew : ∀ e ∈ new, e.isArrival = true) (hfirst : ∀ h ∈ next, h.isFirst = true)
    (hcall : ∀ h ∈ next, ∀ x ∈ h.call,
      s.channelPublisher x.header.serviceHash = some x.publisher)
    (hown : ∀ h ∈ next, ∀ x ∈ h.looking, s.OwnMessage x.header) :
    Lent { s with holder := next, log := new ++ s.log } ∧
      LogsRightly s { s with holder := next, log := new ++ s.log } := by
  have hr : LogsRightly s { s with holder := next, log := new ++ s.log } := by
    refine ⟨new, rfl, fun e he => ?_⟩
    have := hnew e he
    cases e with
    | delivered d => exact Event.rightful_of_none rfl rfl
    | noChannel k => exact Event.rightful_of_none rfl rfl
    | _ => cases this
  refine ⟨⟨hs.table, hs.sweeps, hcall, fun h hh x hx m hm hk => ?_, fun h hh x _ c hc => ?_,
    hs.log_of_logsRightly (.of_eq rfl) hr⟩, hr⟩
  · have hch := hcall h hh x (Handler.call_of_looking hx)
    exact hown h hh x hx x.publisher hch m hm hk
  · rw [Handler.chunk_of_isFirst (hfirst h hh)] at hc
    cases hc

/-- The handler of a call that has found its channel. -/
theorem Lent.begin_call (hs : Lent s) (new : List Event) {h : Handler} {x : Call} {e : Endpoint}
    (hnew : ∀ e ∈ new, e.isArrival = true) (hfirst : h.isFirst = true) (hx : h.call = some x)
    (he : s.endpoints.doForChannel x.header.serviceHash = some e) (hp : x.publisher = e.id)
    (hown : h.looking = some x → s.OwnMessage x.header) :
    Lent { s with holder := some h, log := new ++ s.log } ∧
      LogsRightly s { s with holder := some h, log := new ++ s.log } := by
  refine hs.begin new (some h) hnew (fun g hg => ?_) (fun g hg y hy => ?_) (fun g hg y hy => ?_)
  · obtain rfl := Option.some.inj hg
    exact hfirst
  · obtain rfl := Option.some.inj hg
    rw [hx] at hy
    obtain rfl := Option.some.inj hy
    unfold State.channelPublisher
    rw [he, hp]
    rfl
  · obtain rfl := Option.some.inj hg
    have hxy := Handler.call_of_looking hy
    rw [hx] at hxy
    obtain rfl := Option.some.inj hxy
    exact hown hy

/-- A section of `updateChannels`.  What `releaseAll` releases goes to the lender. -/
theorem Lent.update (hs : Lent s) {toDelete toSetup : List ServiceDescription} (now : Time)
    (answer : Option (Nat → Byte)) :
    Lent (s.proceed getClassHash now answer (.updateChannels toDelete toSetup)) ∧
      LogsRightly s (s.proceed getClassHash now answer (.updateChannels toDelete toSetup)) := by
  -- the holder goes on without a call, and the chunks stay
  have hmove : ∀ s' : State, s'.chunks = s.chunks → s'.sweeps = s.sweeps →
      (∀ m ∈ s'.segmented.entries, m ∈ s.segmented.entries) →
      (∀ h ∈ s'.holder, h.call = none) → LogsRightly s s' → Lent s' ∧ LogsRightly s s' := by
    intro s' hchunks hsweeps htable hholder hr
    have hk : KeepsLenders s s' := .of_eq hchunks
    refine ⟨⟨fun m hm => hk _ _ (hs.table m (htable m hm)), fun w hw msg hmsg => ?_,
      fun h hh x hx => ?_, fun h hh x hx => ?_, fun h hh x hx => ?_,
      hs.log_of_logsRightly hk hr⟩, hr⟩
    · rw [hsweeps] at hw
      exact hk _ _ (hs.sweeps w hw msg hmsg)
    · rw [hholder h hh] at hx
      cases hx
    · have := Handler.call_of_looking hx
      rw [hholder h hh] at this
      cases this
    · rw [hholder h hh] at hx
      cases hx
  cases toDelete with
  | nil =>
    cases toSetup with
    | nil => exact hmove _ rfl rfl (fun m hm => hm) (by simp [State.proceed]) ⟨[], rfl, by simp⟩
    | cons service toSetup =>
      exact hmove _ rfl rfl (fun m hm => hm) (by simp [State.proceed, Handler.call])
        ⟨[], rfl, by simp⟩
  | cons service toDelete =>
    refine hmove _ (State.deleteChannel_chunks getClassHash s service)
      (State.deleteChannel_sweeps getClassHash s service) ?_
      (by simp [State.proceed, Handler.call]) ?_
    · intro m hm
      simp only [State.proceed, State.goto_segmented, State.deleteChannel] at hm
      split at hm
      · exact hm
      · simp only at hm
        rw [(SegmentedTable.releaseAll_eq _ _).1] at hm
        exact List.mem_of_mem_filter hm
    · simp only [State.proceed, LogsRightly, State.goto_log]
      unfold State.deleteChannel
      split
      · exact ⟨[], rfl, by simp⟩
      · rename_i e endpoints hdiscard
        refine ⟨_, rfl, fun ev hev => ?_⟩
        rcases List.mem_append.mp hev with hev | hev
        · rw [List.mem_reverse] at hev
          obtain ⟨msg, hmsg, rfl⟩ := List.mem_map.mp hev
          rw [(SegmentedTable.releaseAll_eq _ _).2, List.mem_reverse] at hmsg
          obtain ⟨m, hm, rfl⟩ := List.mem_map.mp hmsg
          obtain ⟨hm, hpub⟩ := List.mem_filter.mp hm
          refine Event.rightful_givenBack rfl rfl ?_
          rw [← of_decide_eq_true hpub]
          exact hs.table m hm
        · obtain ⟨m, -, rfl⟩ := List.mem_map.mp hev
          exact Event.rightful_of_none rfl rfl

/-- The sections of a sweep. -/
theorem Lent.sweep (hs : Lent s) {i : Nat} {w : Sweep} (hw : s.sweeps[i]? = some w)
    (h : s.proceedSweep i w = some s') : Lent s' ∧ LogsRightly s s' := by
  rcases proceedSweep_cases h with ⟨-, -, rfl⟩ | ⟨k, msg, t, -, ht, rfl⟩ | ⟨msg, hmsg, -, rfl⟩
  · refine ⟨⟨hs.table, fun w' hw' => ?_, hs.channel, hs.own, hs.chunk, hs.log⟩, [], rfl, by simp⟩
    exact hs.sweeps w' (List.mem_of_mem_eraseIdx hw')
  · obtain ⟨j, hj, rfl⟩ := SegmentedTable.takeExpired_eq_some ht
    have hr : LogsRightly s { s with
        segmented := s.segmented.erase j
        sweeps := s.sweeps.set i ⟨w.now, some msg⟩
        log := .timedOut k msg.userPayload :: s.log } :=
      ⟨[.timedOut k msg.userPayload], rfl,
        List.forall_mem_singleton.mpr (Event.rightful_of_none rfl rfl)⟩
    refine ⟨⟨fun m hm => hs.table m (VectorMap.mem_entries_of_mem_erase hm), fun w' hw' m hm => ?_,
      hs.channel, fun h hh x hx m hm => ?_, hs.chunk, hs.log_of_logsRightly (.of_eq rfl) hr⟩, hr⟩
    · rcases List.mem_or_eq_of_mem_set hw' with hw' | rfl
      · exact hs.sweeps w' hw' m hm
      · obtain rfl := Option.some.inj hm
        exact hs.table _ (List.mem_of_getElem? hj)
    · exact hs.own h hh x hx m (VectorMap.mem_entries_of_mem_erase hm)
  · have hlender := hs.sweeps w (List.mem_of_getElem? hw) msg hmsg
    have hr : LogsRightly s { s with
        sweeps := s.sweeps.set i ⟨w.now, none⟩
        log := .released msg.userPayload msg.publisher :: s.log } :=
      ⟨[.released msg.userPayload msg.publisher], rfl,
        List.forall_mem_singleton.mpr (Event.rightful_givenBack rfl rfl hlender)⟩
    refine ⟨⟨hs.table, fun w' hw' m hm => ?_, hs.channel, hs.own, hs.chunk,
      hs.log_of_logsRightly (.of_eq rfl) hr⟩, hr⟩
    rcases List.mem_or_eq_of_mem_set hw' with hw' | rfl
    · exact hs.sweeps w' hw' m hm
    · cases hm

/-- **One step.**  It keeps the invariant, and what it does is rightful. -/
theorem lent_step {l : Label} (hs : Lent s) (hb : BuffersValid s) (hown : OwnMessages s l)
    (h : step getClassHash s l = some s') : Lent s' ∧ LogsRightly s s' := by
  have hstay : s.holder = none → Lent s ∧ LogsRightly s s := fun _ => ⟨hs, [], rfl, by simp⟩
  cases l with
  | receive datagram device =>
    simp only [step] at h
    split at h
    · rename_i hfree
      obtain ⟨hd, n, hdes, ⟨-, rfl⟩ | ⟨-, -, rfl⟩ | ⟨e, hcheck, hchan, rfl⟩⟩ := receive_eq_some h
      · exact hstay hfree
      · have := hs.begin [.noChannel hd.messageHash] none (by simp [Event.isArrival]) (by simp)
          (by simp) (by simp)
        rwa [← hfree] at this
      · exact hs.begin_call [.delivered datagram] (x := ⟨hd, datagram.drop n, device, e.id⟩)
          (by simp [Event.isArrival]) rfl rfl hchan rfl fun _ => hown _ hdes hcheck
    · cases h
  | loanBuffer header =>
    simp only [step, loanBuffer] at h
    split at h
    · rename_i hfree
      split at h
      · cases h
      · rename_i hd n hdes
        split at h
        · exact Option.some.inj h ▸ hstay hfree
        · rename_i e hchan
          obtain rfl := Option.some.inj h
          exact hs.begin_call [] (x := ⟨hd, [], ⟨.none, 0⟩, e.id⟩) (by simp) rfl rfl hchan rfl
            fun _ => hown _ hdes
    · cases h
  | releaseBuffer header shouldRelease device =>
    simp only [step, releaseBuffer] at h
    split at h
    · rename_i hfree
      split at h
      · cases h
      · rename_i hd n hdes
        split at h
        · exact Option.some.inj h ▸ hstay hfree
        · rename_i e hchan
          obtain rfl := Option.some.inj h
          cases shouldRelease with
          | true =>
            exact hs.begin_call [] (x := ⟨hd, [], device, e.id⟩) (by simp) rfl rfl hchan rfl
              (by simp [Handler.looking])
          | false =>
            exact hs.begin_call [] (x := ⟨hd, [], device, e.id⟩) (by simp) rfl rfl hchan rfl
              fun _ => hown rfl _ hdes
    · cases h
  | updateChannels services =>
    simp only [step] at h
    split at h
    · obtain rfl := Option.some.inj h
      exact hs.begin [] (some _) (by simp) (by simp [Handler.isFirst]) (by simp [Handler.call])
        (by simp [Handler.looking])
    · cases h
  | checkSegmentedMessages now =>
    obtain rfl := Option.some.inj h
    refine ⟨⟨hs.table, fun w hw msg hmsg => ?_, hs.channel, hs.own, hs.chunk, hs.log⟩, [], rfl,
      by simp⟩
    rcases List.mem_append.mp hw with hw | hw
    · exact hs.sweeps w hw msg hmsg
    · obtain rfl := List.mem_singleton.mp hw
      cases hmsg
  | proceed now answer =>
    obtain ⟨hd, hh, rfl⟩ := Option.map_eq_some_iff.mp h
    cases hx : hd.call with
    | some x => exact hs.attend hh hx (hs.attends_proceed hb hh hx now answer)
    | none =>
      cases hd with
      | updateChannels toDelete toSetup => exact hs.update now answer
      | _ => cases hx
  | sweep i =>
    obtain ⟨w, hw, hstep⟩ := Option.bind_eq_some_iff.mp h
    exact hs.sweep hw hstep

/-- **Services do not mix.**  In every run in which no call has the message hash of a message under
way in another channel: every chunk is published and released through the publisher from which it
was loaned, and whatever a further such step writes into, or hands out, was loaned from the
publisher of the channel of the datagram for which it is done. -/
theorem services_isolated (getClassHash : ServiceDescription → ClassHash) {ls : List Label}
    (hown : Run.Guarded (step getClassHash) OwnMessages State.init ls)
    (h : Run.exec (step getClassHash) State.init ls = some s) :
    (∀ e ∈ s.log, ∀ c p, e.givenBack = some (c, p) → s.lender c = some p) ∧
      ∀ l s', OwnMessages s l → step getClassHash s l = some s' →
        ∃ new, s'.log = new ++ s.log ∧ ∀ e ∈ new, e.Rightful s s' := by
  obtain ⟨hs, hb⟩ : Lent s ∧ BuffersValid s := by
    refine Run.invariant_guarded (fun s => Lent s ∧ BuffersValid s) (fun s l s' hs hg hstep => ?_)
      ⟨lent_init, buffersValid_init⟩ hown h
    exact ⟨(lent_step hs.1 hs.2 hg hstep).1, buffersValid_step hs.2 hstep⟩
  exact ⟨hs.log, fun l s' hg hstep => (lent_step hs hb hg hstep).2⟩

/-! ## Two services -/

/-- Another service. -/
def demoTrack : ServiceDescription := { demoService with eventID := .ofString "Track" (by decide) }

/-- The class hash tells the two services apart. -/
def demoEventHash (service : ServiceDescription) : ClassHash :=
  ⟨service.eventID.bytes.length.toUInt32, 0, 0, 0⟩

/-- A submessage of one byte for the service, from a device of its own. -/
def demoDatagram (service : ServiceDescription) (messageHash : Hash) (offset : UInt32) :
    List Label :=
  [.receive (serialize { demoHeader messageHash offset with
    serviceHash := demoEventHash service } ++ [7]) ⟨.udp, 0⟩]

/-- Both channels are set up, and the first submessage of a message arrives for the one service. -/
def demoUnderWay : List Label :=
  [.updateChannels (CxxVector.empty.pushAll [demoService, demoTrack]), .proceed 0 none,
    .proceed 0 none, .proceed 0 none] ++ demoDatagram demoService 9 0 ++
  [.proceed 0 none, .proceed 0 (some fun _ => 0), .proceed 0 none, .proceed 0 none]

/-- A message with another hash arrives for the other service. -/
theorem services_isolated_demo :
    ∃ s, Run.exec (step demoEventHash) State.init (demoUnderWay ++ demoDatagram demoTrack 8 0)
        = some s ∧
      ∀ s', step demoEventHash s (.proceed 0 none) = some s' →
        ∃ new, s'.log = new ++ s.log ∧ ∀ e ∈ new, e.Rightful s s' := by
  refine ⟨_, rfl, fun s' hs' => ?_⟩
  have hown : Run.Guarded (step demoEventHash) OwnMessages State.init
      (demoUnderWay ++ demoDatagram demoTrack 8 0) := by decide +kernel
  exact (services_isolated demoEventHash hown rfl).2 (.proceed 0 none) s' trivial hs'

/-- The other service's datagram has the same message hash.  It is written into the chunk of the
first service, which is then published on the publisher of the other one. -/
theorem chunk_crosses_services :
    ∃ s s₁ s₂, Run.exec (step demoEventHash) State.init
        (demoUnderWay ++ demoDatagram demoTrack 9 1 ++ [.proceed 0 none]) = some s ∧
      s.channelPublisher (demoEventHash demoService) = some 0 ∧
      s.channelPublisher (demoEventHash demoTrack) = some 1 ∧ s.lender 0 = some 0 ∧
      (s.holder.bind Handler.call).map (fun x => x.header.serviceHash)
        = some (demoEventHash demoTrack) ∧
      step demoEventHash s (.proceed 0 none) = some s₁ ∧
      s₁.log = .written 0 ⟨.userPayload, 1, 1⟩ :: s.log ∧
      step demoEventHash s₁ (.proceed 0 none) = some s₂ ∧ s₂.lender 0 = some 0 ∧
      ∃ content, .published 0 1 9 content ∈ s₂.log := by
  refine ⟨_, _, _, rfl, by decide, by decide, by decide, by decide, rfl, by decide, rfl, by decide,
    some ⟨0, none, [7, 7]⟩, by decide⟩

end P3com.TransportToIox
