/-
# Duplicate datagrams

UDP may deliver a datagram twice.  `SegmentedMessageManager` keeps a counter for each message and
not the set of the submessages that have come in, and `receive` keeps no memory of the messages
already published.  So there are two ways in which a second copy does harm:

* its range has already been copied into the chunk of the message, and the counter counts it again:
  the message is published before all of it is there;
* its message has already been published: a message of one submessage is published again at once,
  and a longer one is put together a second time.

In every run without such a datagram (`NotCounted`), whatever else is reordered, dropped or
duplicated, a message is published only after all its submessages were received, and only once
(`published_once_all_received`).  A copy that arrives after its message was dropped, by a failed
loan or a timeout, is among the harmless ones.

The invariant `Counting` is a weaker one than `Assembly`: the counter of an entry has counted that
many different submessages, each copied into the chunk of the entry or about to be.
-/
import P3com.Gateway.Reassembly

namespace P3com.TransportToIox

variable {getClassHash : ServiceDescription → ClassHash} {s s' : State} {ms : List SentMessage}
  {m : SentMessage}

/-! ## The condition -/

/-- The range of the datagram has been copied into the chunk. -/
def Copied (log : List Event) (c : ChunkId) (h : IoxChunkDatagramHeader) : Prop :=
  Event.written c (takeNextRange h) ∈ log

instance (log : List Event) (c : ChunkId) (h : IoxChunkDatagramHeader) :
    Decidable (Copied log c h) := inferInstanceAs (Decidable (_ ∈ _))

instance (log : List Event) (k : Hash) : Decidable (Published log k) :=
  inferInstanceAs (Decidable (∃ e ∈ log, e.publishesMessage k = true))

/-- The datagram's message has not been published, and its range has not been copied into the
chunk in which the message is being put together. -/
def IsNew (s : State) (h : IoxChunkDatagramHeader) : Prop :=
  ¬ Published s.log h.messageHash ∧
    ∀ e ∈ s.segmented.entries, e.1 = h.messageHash → ¬ Copied s.log e.2.userPayload h

instance (s : State) (h : IoxChunkDatagramHeader) : Decidable (IsNew s h) :=
  inferInstanceAs (Decidable (_ ∧ _))

/-- A datagram that finds its channel is new in this sense. -/
def NotCounted (s : State) : Label → Prop
  | .receive datagram _ =>
    match deserialize datagram with
    | none => True
    | some (h, _) => (s.endpoints.doForChannel h.serviceHash).isSome = true → IsNew s h
  | _ => True

instance (s : State) : (l : Label) → Decidable (NotCounted s l)
  | .receive datagram _ =>
    match h : deserialize datagram with
    | none => isTrue (by simp [NotCounted, h])
    | some (hd, n) =>
      decidable_of_iff ((s.endpoints.doForChannel hd.serviceHash).isSome = true → IsNew s hd)
        (by simp [NotCounted, h])
  | .loanBuffer _ => isTrue trivial
  | .releaseBuffer _ _ _ => isTrue trivial
  | .updateChannels _ => isTrue trivial
  | .checkSegmentedMessages _ => isTrue trivial
  | .proceed _ _ => isTrue trivial
  | .sweep _ => isTrue trivial

/-! ## The invariant -/

/-- The handler has counted the datagram in the entry with this chunk and will copy it next. -/
def Handler.copies (c : ChunkId) (h : IoxChunkDatagramHeader) : Handler → Prop
  | .receiveTake x _ c' false => c' = c ∧ x.header = h
  | _ => False

/-- The entry with this chunk has counted the submessage. -/
def Counted (s : State) (c : ChunkId) (q : Submessage) : Prop :=
  Copied s.log c q.header ∨ ∃ h, s.holder = some h ∧ h.copies c q.header

/-- The counter of the entry has counted different submessages of the message. -/
def EntryCounts (s : State) (m : SentMessage) (msg : SegmentedMessage) : Prop :=
  ∃ counted : List Submessage, counted.Nodup ∧
    (∀ q ∈ counted, q ∈ m.submessages ∧ q.datagram ∈ delivered s.log ∧
      Counted s msg.userPayload q) ∧
    msg.userHeader = State.userHeaderOf m.header msg.userPayload ∧
    0 < msg.remainingSegments.toNat ∧
    msg.remainingSegments.toNat + counted.length = m.submessages.length

/-- The handler works on a submessage of a message that has not been published. -/
structure Handles (s : State) (m : SentMessage) (q : Submessage) (x : Call) : Prop where
  mem : q ∈ m.submessages
  header : x.header = q.header
  delivered : q.datagram ∈ delivered s.log
  unpublished : ¬ Published s.log m.hash

/-- The handler is about to publish a message of which everything has been received. -/
def Publishable (ms : List SentMessage) (s : State) (k : Hash) : Prop :=
  ∃ m ∈ ms, m.hash = k ∧ (∀ q ∈ m.submessages, q.datagram ∈ delivered s.log) ∧
    ¬ Published s.log k

def HolderCounts (ms : List SentMessage) (s : State) : Handler → Prop
  | .receiveFind x => ∃ m ∈ ms, ∃ q, Handles s m q x ∧ ∀ e ∈ s.segmented.entries,
      e.1 = m.hash → ¬ Copied s.log e.2.userPayload q.header
  | .receiveLoan x => ∃ m ∈ ms, ∃ q, Handles s m q x
  | .receivePush x _ => ∃ m ∈ ms, ∃ q, Handles s m q x ∧ 1 < m.submessages.length
  | .receiveTake x userHeader c false => ∃ m ∈ ms, ∃ q ∈ m.submessages, x.header = q.header ∧
      userHeader = State.userHeaderOf m.header c
  | .receiveTake x _ _ true => Publishable ms s x.header.messageHash
  | .receivePublish x _ => Publishable ms s x.header.messageHash
  | .updateChannels _ _ => True
  | _ => False

/-- Every publication in the log (newest first) came after all submessages, and was the first. -/
def LogCounts (ms : List SentMessage) : List Event → Prop
  | [] => True
  | e :: log => (∀ c p k content, e = .published c p k content →
      ∃ m ∈ ms, m.hash = k ∧ (∀ q ∈ m.submessages, q.datagram ∈ delivered log) ∧
        ¬ Published log k) ∧ LogCounts ms log

structure Counting (ms : List SentMessage) (s : State) : Prop where
  entries : ∀ k msg, (k, msg) ∈ s.segmented.entries → ∃ m ∈ ms, m.hash = k ∧ EntryCounts s m msg
  holder : ∀ h, s.holder = some h → HolderCounts ms s h
  log : LogCounts ms s.log

/-! ## Logs that grow -/

def Event.isPublication : Event → Bool
  | .published _ _ _ _ => true
  | _ => false

/-- The log has grown, without a publication. -/
def Grows (s s' : State) : Prop :=
  ∃ events, s'.log = events ++ s.log ∧ ∀ e ∈ events, e.isPublication = false

theorem Grows.same (h : s'.log = s.log) : Grows s s' := ⟨[], h, by simp⟩

theorem Grows.delivered (h : Grows s s') {d : List Byte} (hd : d ∈ delivered s.log) :
    d ∈ delivered s'.log := by
  obtain ⟨events, hlog, -⟩ := h
  rw [hlog, TransportToIox.delivered, List.filterMap_append]
  exact List.mem_append_right _ hd

theorem Grows.copied (h : Grows s s') {c : ChunkId} {hd : IoxChunkDatagramHeader}
    (hc : Copied s.log c hd) : Copied s'.log c hd := by
  obtain ⟨events, hlog, -⟩ := h
  unfold Copied
  rw [hlog]
  exact List.mem_append_right _ hc

theorem Grows.published (h : Grows s s') {k : Hash} (hp : Published s'.log k) :
    Published s.log k := by
  obtain ⟨events, hlog, hev⟩ := h
  obtain ⟨e, he, hp⟩ := hp
  rw [hlog] at he
  rcases List.mem_append.mp he with he | he
  · have := hev e he
    cases e <;> first | cases hp | cases this
  · exact ⟨e, he, hp⟩

theorem LogCounts.append {events log : List Event} (h : LogCounts ms log)
    (hev : ∀ e ∈ events, e.isPublication = false) : LogCounts ms (events ++ log) := by
  induction events with
  | nil => exact h
  | cons e events ih =>
    refine ⟨?_, ih fun e' he' => hev e' (List.mem_cons_of_mem _ he')⟩
    rintro c p k content rfl
    cases hev _ List.mem_cons_self

theorem Grows.logCounts (h : Grows s s') (hs : LogCounts ms s.log) : LogCounts ms s'.log := by
  obtain ⟨events, hlog, hev⟩ := h
  rw [hlog]
  exact hs.append hev

/-- An entry keeps what it has counted as the log grows. -/
theorem EntryCounts.mono {msg : SegmentedMessage} (h : EntryCounts s m msg) (hlog : Grows s s')
    (hcopies : ∀ q, (∃ h, s.holder = some h ∧ h.copies msg.userPayload q.header) →
      Counted s' msg.userPayload q) : EntryCounts s' m msg := by
  obtain ⟨counted, hnodup, hmem, hrest⟩ := h
  refine ⟨counted, hnodup, fun q hq => ?_, hrest⟩
  obtain ⟨hsub, hdel, hcount⟩ := hmem q hq
  refine ⟨hsub, hlog.delivered hdel, ?_⟩
  rcases hcount with hcopied | hnext
  · exact Or.inl (hlog.copied hcopied)
  · exact hcopies q hnext

theorem Handles.mono {q : Submessage} {x : Call} (h : Handles s m q x) (hlog : Grows s s') :
    Handles s' m q x :=
  ⟨h.mem, h.header, hlog.delivered h.delivered, mt hlog.published h.unpublished⟩

theorem Handles.messageHash {q : Submessage} {x : Call} (h : Handles s m q x) :
    x.header.messageHash = m.hash := by
  rw [h.header]
  exact (SentMessage.piece h.mem).messageHash

theorem Publishable.mono {k : Hash} (h : Publishable ms s k) (hlog : Grows s s') :
    Publishable ms s' k := by
  obtain ⟨m, hm, hk, hall, hnp⟩ := h
  exact ⟨m, hm, hk, fun q hq => hlog.delivered (hall q hq), mt hlog.published hnp⟩

/-! ## Steps -/

/-- A handler that is not about to copy: what its entries have counted is in the log. -/
def Handler.notCopying (h : Handler) : Prop := ∀ c hd, ¬ h.copies c hd

/-- The general step: entries that were there before are kept when the handler did not have a
copy to make, and only the new entries and the new handler are left to consider. -/
theorem Counting.advance (hs : Counting ms s) (hlog : Grows s s')
    (hnot : ∀ h, s.holder = some h → h.notCopying)
    (hentries : ∀ k msg, (k, msg) ∈ s'.segmented.entries →
      (k, msg) ∈ s.segmented.entries ∨ ∃ m ∈ ms, m.hash = k ∧ EntryCounts s' m msg)
    (hholder : ∀ h, s'.holder = some h → HolderCounts ms s' h) : Counting ms s' where
  entries := fun k msg hmem => by
    rcases hentries k msg hmem with hold | hnew
    · obtain ⟨m, hm, hk, he⟩ := hs.entries k msg hold
      refine ⟨m, hm, hk, he.mono hlog fun q hq => ?_⟩
      obtain ⟨h, hh, hc⟩ := hq
      exact absurd hc (hnot h hh _ _)
    · exact hnew
  holder := hholder
  log := hlog.logCounts hs.log

/-- A step of somebody else: the holder stays, and entries may go. -/
theorem Counting.stay (hs : Counting ms s) (hlog : Grows s s') (hsame : s'.holder = s.holder)
    (hentries : ∀ k msg, (k, msg) ∈ s'.segmented.entries → (k, msg) ∈ s.segmented.entries)
    (hwritten : ∀ c hd, Copied s'.log c hd → Copied s.log c hd) : Counting ms s' where
  entries := fun k msg hmem => by
    obtain ⟨m, hm, hk, he⟩ := hs.entries k msg (hentries k msg hmem)
    refine ⟨m, hm, hk, he.mono hlog fun q hq => Or.inr ?_⟩
    rwa [hsame]
  holder := fun h hh => by
    have hok := hs.holder h (hsame ▸ hh)
    cases h with
    | receiveFind x =>
      obtain ⟨m, hm, q, ha, hnew⟩ := hok
      exact ⟨m, hm, q, ha.mono hlog, fun e he hk hc =>
        hnew e (hentries _ _ he) hk (hwritten _ _ hc)⟩
    | receiveLoan x =>
      obtain ⟨m, hm, q, ha⟩ := hok
      exact ⟨m, hm, q, ha.mono hlog⟩
    | receivePush x c =>
      obtain ⟨m, hm, q, ha, hlen⟩ := hok
      exact ⟨m, hm, q, ha.mono hlog, hlen⟩
    | receiveTake x userHeader c shouldPublish =>
      cases shouldPublish with
      | false => exact hok
      | true => exact Publishable.mono hok hlog
    | receivePublish x c => exact Publishable.mono hok hlog
    | updateChannels toDelete toSetup => trivial
    | _ => exact hok.elim
  log := hlog.logCounts hs.log

section Receive

variable {x : Call}

/-- A datagram of one of the messages comes in and finds its channel. -/
theorem Counting.deliver (hs : Counting ms s) (hfree : s.holder = none) {q : Submessage} {n : Nat}
    {device : DeviceIndex} {p : PublisherId} (hm : m ∈ ms) (hq : q ∈ m.submessages)
    (hnew : IsNew s q.header) :
    Counting ms ((s.record (.delivered q.datagram)).goto
      (some (.receiveFind ⟨q.header, q.datagram.drop n, device, p⟩))) := by
  have hhash : q.header.messageHash = m.hash := (SentMessage.piece hq).messageHash
  refine hs.advance ⟨[.delivered q.datagram], rfl, by simp [Event.isPublication]⟩
    (fun h hh => by rw [hfree] at hh; cases hh) (fun k msg hmem => Or.inl hmem) fun h hh => ?_
  obtain rfl := Option.some.inj hh
  refine ⟨m, hm, q, ⟨hq, rfl, List.mem_cons_self, ?_⟩, fun e he hk hc => ?_⟩
  · rintro ⟨e, he, hp⟩
    rcases List.mem_cons.mp he with rfl | he
    · cases hp
    · exact hnew.1 ⟨e, he, hhash ▸ hp⟩
  · rcases List.mem_cons.mp hc with heq | hc
    · cases heq
    · exact hnew.2 e he (hk.trans hhash.symm) hc

/-- The message is not in the table. -/
theorem Counting.find_none (hs : Counting ms s) (hh : s.holder = some (.receiveFind x)) :
    Counting ms (s.goto (some (.receiveLoan x))) := by
  refine hs.advance (Grows.same rfl) (fun h hh' => ?_) (fun k msg hmem => Or.inl hmem)
    fun h hh' => ?_
  · obtain rfl := Option.some.inj (hh'.symm.trans hh)
    exact fun _ _ => id
  · obtain rfl := Option.some.inj hh'
    obtain ⟨m, hm, q, ha, -⟩ := hs.holder _ hh
    exact ⟨m, hm, q, ha.mono (Grows.same rfl)⟩

/-- The submessage of the handler is not among those that the entry has counted. -/
theorem EntryCounts.not_mem {q : Submessage} {msg : SegmentedMessage} {counted : List Submessage}
    (hh : s.holder = some (.receiveFind x)) (hnew : ¬ Copied s.log msg.userPayload q.header)
    (hmem : ∀ q ∈ counted, q ∈ m.submessages ∧ q.datagram ∈ delivered s.log ∧
      Counted s msg.userPayload q) : q ∉ counted := by
  intro hq
  rcases (hmem q hq).2.2 with hc | ⟨h, hh', hc⟩
  · exact hnew hc
  · obtain rfl := Option.some.inj (hh'.symm.trans hh)
    exact hc

/-- The message is in the table, and this is not its last datagram. -/
theorem Counting.find_some (hs : Counting ms s) (ha : Accounted s)
    (hms : (ms.map SentMessage.hash).Nodup) (hh : s.holder = some (.receiveFind x))
    {msg msg' : SegmentedMessage} {i : Nat}
    (hi : s.segmented.entries[i]? = some (x.header.messageHash, msg))
    (hne : msg.remainingSegments - 1 ≠ 0)
    (hmsg' : msg' = { msg with remainingSegments := msg.remainingSegments - 1 }) :
    Counting ms ({ s with segmented := s.segmented.set i msg' }.goto
      (some (.receiveTake x msg.userHeader msg.userPayload false))) := by
  have hentry := List.mem_of_getElem? hi
  obtain ⟨m, hm, q, harr, hnew⟩ := hs.holder _ hh
  obtain ⟨m', hm', hk', counted, hnodup, hmem, huh, hpos, hcount⟩ := hs.entries _ _ hentry
  obtain rfl : m' = m := eq_of_hash hms hm' hm (hk'.trans harr.messageHash)
  have hrem : (msg.remainingSegments - 1).toNat = msg.remainingSegments.toNat - 1 :=
    toNat_sub_one hpos
  have hrem' : (msg.remainingSegments - 1).toNat ≠ 0 := fun h0 =>
    hne (UInt32.toNat_inj.mp (by rw [h0]; rfl))
  refine hs.advance (Grows.same rfl) (fun h hh' => ?_) (fun k msg₁ hmem₁ => ?_) fun h hh' => ?_
  · obtain rfl := Option.some.inj (hh'.symm.trans hh)
    exact fun _ _ => id
  · rcases VectorMap.mem_set_cases ha.keys hi hmem₁ with ⟨rfl, rfl⟩ | ⟨hold, -⟩
    · -- one more is counted, and the handler will copy it next
      refine Or.inr ⟨m', hm', hk', q :: counted, ?_, fun q' hq' => ?_, ?_, ?_, ?_⟩
      · refine List.nodup_cons.mpr ⟨EntryCounts.not_mem hh ?_ hmem, hnodup⟩
        exact hnew _ hentry hk'.symm
      · rcases List.mem_cons.mp hq' with rfl | hq'
        · exact ⟨harr.mem, harr.delivered, Or.inr ⟨_, rfl, by rw [hmsg'], harr.header⟩⟩
        · obtain ⟨hsub, hdel, hcnt⟩ := hmem q' hq'
          refine ⟨hsub, hdel, ?_⟩
          rcases hcnt with hc | ⟨h, hh', hc⟩
          · rw [hmsg']
            exact Or.inl hc
          · obtain rfl := Option.some.inj (hh'.symm.trans hh)
            exact hc.elim
      · rw [hmsg']
        exact huh
      · rw [hmsg']
        exact Nat.pos_of_ne_zero hrem'
      · rw [hmsg', List.length_cons]
        simp only [hrem]
        omega
    · exact Or.inl hold
  · obtain rfl := Option.some.inj hh'
    exact ⟨m', hm, q, harr.mem, harr.header, huh⟩

/-- When as many different submessages are delivered as there are, all of them are. -/
theorem all_delivered {counted : List Submessage} (hnodup : counted.Nodup)
    (hmem : ∀ q ∈ counted, q ∈ m.submessages ∧ q.datagram ∈ delivered s.log)
    (hlen : m.submessages.length ≤ counted.length) :
    ∀ q ∈ m.submessages, q.datagram ∈ delivered s.log := by
  have hsub : counted.Subperm m.submessages :=
    List.subperm_of_subset hnodup fun q hq => (hmem q hq).1
  intro q hq
  have hperm := hsub.perm_of_length_le hlen
  exact (hmem q (hperm.mem_iff.mpr hq)).2

/-- The last datagram of a message in the table. -/
theorem Counting.find_last (hs : Counting ms s) (hms : (ms.map SentMessage.hash).Nodup)
    (hh : s.holder = some (.receiveFind x)) {msg : SegmentedMessage} {i : Nat}
    (hi : s.segmented.entries[i]? = some (x.header.messageHash, msg))
    (hlast : msg.remainingSegments - 1 = 0) :
    Counting ms ({ s with segmented := s.segmented.erase i }.goto
      (some (.receiveTake x msg.userHeader msg.userPayload true))) := by
  have hentry := List.mem_of_getElem? hi
  obtain ⟨m, hm, q, harr, hnew⟩ := hs.holder _ hh
  obtain ⟨m', hm', hk', counted, hnodup, hmem, -, hpos, hcount⟩ := hs.entries _ _ hentry
  obtain rfl : m' = m := eq_of_hash hms hm' hm (hk'.trans harr.messageHash)
  refine hs.advance (Grows.same rfl) (fun h hh' => ?_)
    (fun k msg₁ hmem₁ => Or.inl (VectorMap.mem_entries_of_mem_erase hmem₁)) fun h hh' => ?_
  · obtain rfl := Option.some.inj (hh'.symm.trans hh)
    exact fun _ _ => id
  · obtain rfl := Option.some.inj hh'
    have hone : msg.remainingSegments.toNat - 1 = 0 := by
      rw [← toNat_sub_one hpos, hlast]
      rfl
    have hfresh : q ∉ counted := EntryCounts.not_mem hh (hnew _ hentry hk'.symm) hmem
    refine ⟨m', hm, harr.messageHash.symm, ?_, harr.messageHash ▸ harr.unpublished⟩
    refine all_delivered (List.nodup_cons.mpr ⟨hfresh, hnodup⟩) (fun q' hq' => ?_) ?_
    · rcases List.mem_cons.mp hq' with rfl | hq'
      · exact ⟨harr.mem, harr.delivered⟩
      · exact ⟨(hmem q' hq').1, (hmem q' hq').2.1⟩
    · rw [List.length_cons]
      omega

/-- The loan succeeds. -/
theorem Counting.loan (hs : Counting ms s) (hh : s.holder = some (.receiveLoan x))
    (fill : Nat → Byte) :
    Counting ms ((s.loan x fill).goto
      (if x.header.submessageCount > 1 then some (.receivePush x s.chunks.length)
        else some (.receiveTake x (State.userHeaderOf x.header s.chunks.length) s.chunks.length
          true))) := by
  obtain ⟨m, hm, q, harr⟩ := hs.holder _ hh
  have hcount : x.header.submessageCount.toNat = m.submessages.length := by
    rw [harr.header]
    exact (SentMessage.piece harr.mem).submessageCount
  have hgrows : ∀ next, Grows s ((s.loan x fill).goto next) := fun next =>
    ⟨[.loaned s.chunks.length x.publisher], rfl, by simp [Event.isPublication]⟩
  refine hs.advance (hgrows _) (fun h hh' => ?_) (fun k msg hmem => Or.inl hmem) fun h hh' => ?_
  · obtain rfl := Option.some.inj (hh'.symm.trans hh)
    exact fun _ _ => id
  · by_cases hgt : x.header.submessageCount > 1
    · rw [if_pos hgt] at hh' ⊢
      obtain rfl := Option.some.inj hh'
      refine ⟨m, hm, q, harr.mono (hgrows _), ?_⟩
      rw [← hcount]
      exact UInt32.lt_iff_toNat_lt.mp hgt
    · rw [if_neg hgt] at hh' ⊢
      obtain rfl := Option.some.inj hh'
      have hle : x.header.submessageCount.toNat ≤ 1 :=
        Nat.le_of_not_lt fun h => hgt (UInt32.lt_iff_toNat_lt.mpr h)
      have hpub : Publishable ms s x.header.messageHash := by
        refine ⟨m, hm, harr.messageHash.symm, ?_, harr.messageHash ▸ harr.unpublished⟩
        refine all_delivered (List.nodup_singleton q) (fun q' hq' => ?_) ?_
        · obtain rfl := List.mem_singleton.mp hq'
          exact ⟨harr.mem, harr.delivered⟩
        · rw [List.length_singleton]
          omega
      exact hpub.mono (hgrows _)

/-- The new message goes into the table, or the table is full. -/
theorem Counting.push (hs : Counting ms s) {c : ChunkId} (hh : s.holder = some (.receivePush x c))
    (now : Time) :
    Counting ms ((s.pushSegmented x (x.header.submessageCount - 1) c now).goto
      (some (.receiveTake x (State.userHeaderOf x.header c) c false))) := by
  obtain ⟨m, hm, q, harr, hlen⟩ := hs.holder _ hh
  have hcount : x.header.submessageCount.toNat = m.submessages.length := by
    rw [harr.header]
    exact (SentMessage.piece harr.mem).submessageCount
  have huh : State.userHeaderOf x.header c = State.userHeaderOf m.header c := by
    rw [State.userHeaderOf, State.userHeaderOf, harr.header,
      (SentMessage.piece harr.mem).userHeaderSize]
  have hnot : ∀ h, s.holder = some h → h.notCopying := fun h hh' => by
    obtain rfl := Option.some.inj (hh'.symm.trans hh)
    exact fun _ _ => id
  unfold State.pushSegmented
  split
  · rename_i t ht
    refine hs.advance (Grows.same rfl) hnot (fun k msg hmem => ?_) fun h hh' => ?_
    · rw [State.goto_segmented, VectorMap.entries_emplace ht] at hmem
      rcases List.mem_append.mp hmem with hmem | hmem
      · exact Or.inl hmem
      · obtain ⟨rfl, rfl⟩ := Prod.mk.inj (List.mem_singleton.mp hmem)
        have hsub : (x.header.submessageCount - 1).toNat = m.submessages.length - 1 := by
          rw [toNat_sub_one (by omega), hcount]
        refine Or.inr ⟨m, hm, harr.messageHash.symm, [q], List.nodup_singleton q,
          fun q' hq' => ?_, huh, ?_, ?_⟩
        · obtain rfl := List.mem_singleton.mp hq'
          exact ⟨harr.mem, harr.delivered, Or.inr ⟨_, rfl, rfl, harr.header⟩⟩
        · simp only [hsub]
          omega
        · simp only [hsub, List.length_singleton]
          omega
    · obtain rfl := Option.some.inj hh'
      exact ⟨m, hm, q, harr.mem, harr.header, huh⟩
  · refine hs.advance
      ⟨[.released c x.publisher, .rejected x.header.messageHash c], rfl,
        by simp [Event.isPublication]⟩
      hnot (fun k msg hmem => Or.inl hmem) fun h hh' => ?_
    obtain rfl := Option.some.inj hh'
    exact ⟨m, hm, q, harr.mem, harr.header, huh⟩

theorem Counting.loan_failed (hs : Counting ms s) (hh : s.holder = some (.receiveLoan x)) :
    Counting ms ((s.record (.loanFailed x.header.messageHash)).goto none) := by
  refine hs.advance ⟨[.loanFailed x.header.messageHash], rfl, by simp [Event.isPublication]⟩
    (fun h hh' => ?_) (fun k msg hmem => Or.inl hmem) fun h hh' => by cases hh'
  obtain rfl := Option.some.inj (hh'.symm.trans hh)
  exact fun _ _ => id

/-- The copy of a datagram that is not the last: what was about to be copied is copied. -/
theorem Counting.take (hs : Counting ms s) {userHeader : Option ChunkId} {c : ChunkId}
    (hh : s.holder = some (.receiveTake x userHeader c false)) :
    Counting ms ((s.takeNext x userHeader c).goto none) := by
  obtain ⟨m, hm, q, hq, hheader, rfl⟩ := hs.holder _ hh
  have htarget : State.takeNextTarget x.header (State.userHeaderOf m.header c) c = some c := by
    rw [hheader]
    exact takeNextTarget_of_mem hq c
  have hlog : (s.takeNext x (State.userHeaderOf m.header c) c).log
      = .written c (takeNextRange x.header) :: s.log := by
    rw [State.takeNext, htarget]
  have hseg : (s.takeNext x (State.userHeaderOf m.header c) c).segmented = s.segmented := by
    rw [State.takeNext, htarget]
  have hgrows : Grows s ((s.takeNext x (State.userHeaderOf m.header c) c).goto none) :=
    ⟨[.written c (takeNextRange x.header)], hlog, by simp [Event.isPublication]⟩
  refine ⟨fun k msg hmem => ?_, (fun h hh' => by cases hh'), hgrows.logCounts hs.log⟩
  rw [State.goto_segmented, hseg] at hmem
  obtain ⟨m₁, hm₁, hk₁, he₁⟩ := hs.entries k msg hmem
  refine ⟨m₁, hm₁, hk₁, he₁.mono hgrows fun q' hq' => Or.inl ?_⟩
  obtain ⟨h, hh', hc⟩ := hq'
  obtain rfl := Option.some.inj (hh'.symm.trans hh)
  obtain ⟨rfl, heq⟩ := hc
  unfold Copied
  rw [State.goto_log, hlog, heq]
  exact List.mem_cons_self

theorem Counting.take_last (hs : Counting ms s) {userHeader : Option ChunkId} {c : ChunkId}
    (hh : s.holder = some (.receiveTake x userHeader c true)) :
    Counting ms ((s.takeNext x userHeader c).goto (some (.receivePublish x c))) := by
  have hgrows : Grows s ((s.takeNext x userHeader c).goto (some (.receivePublish x c))) := by
    unfold State.takeNext
    split
    · exact Grows.same rfl
    · exact ⟨[_], rfl, by simp [Event.isPublication]⟩
  have hseg : (s.takeNext x userHeader c).segmented = s.segmented := by
    unfold State.takeNext
    split <;> rfl
  refine hs.advance hgrows (fun h hh' => ?_) (fun k msg hmem => Or.inl (hseg ▸ hmem))
    fun h hh' => ?_
  · obtain rfl := Option.some.inj (hh'.symm.trans hh)
    exact fun _ _ => id
  · obtain rfl := Option.some.inj hh'
    exact Publishable.mono (hs.holder _ hh) hgrows

/-- The publication. -/
theorem Counting.publish (hs : Counting ms s) {c : ChunkId}
    (hh : s.holder = some (.receivePublish x c)) : Counting ms ((s.publish x c).goto none) := by
  obtain ⟨m, hm, hk, hall, hnp⟩ := hs.holder _ hh
  refine ⟨fun k msg hmem => ?_, (fun h hh' => by cases hh'), ?_, ?_, hs.log⟩
  · obtain ⟨m₁, hm₁, hk₁, counted, hnodup, hcounted, hrest⟩ := hs.entries k msg hmem
    refine ⟨m₁, hm₁, hk₁, counted, hnodup, fun q hq => ?_, hrest⟩
    obtain ⟨hsub, hdel, hcount⟩ := hcounted q hq
    refine ⟨hsub, hdel, Or.inl ?_⟩
    rcases hcount with hcopied | ⟨h, hh', hc⟩
    · exact List.mem_cons_of_mem _ (List.mem_cons_of_mem _ hcopied)
    · obtain rfl := Option.some.inj (hh'.symm.trans hh)
      exact hc.elim
  · intro c' p k content heq
    obtain ⟨-, -, rfl, -⟩ : c = c' ∧ x.publisher = p ∧ x.header.messageHash = k ∧ _ := by
      simpa using heq
    refine ⟨m, hm, hk, hall, ?_⟩
    rintro ⟨e, he, hp⟩
    rcases List.mem_cons.mp he with rfl | he
    · cases hp
    · exact hnp ⟨e, he, hp⟩
  · intro c' p k content heq
    cases heq

end Receive

/-! ## Every run -/

/-- Steps that neither copy nor publish leave the copied ranges alone. -/
theorem copied_sweep {i : Nat} {w : Sweep} (h : s.proceedSweep i w = some s') {c : ChunkId}
    {hd : IoxChunkDatagramHeader} (hc : Copied s'.log c hd) : Copied s.log c hd := by
  rcases proceedSweep_cases h with ⟨-, -, rfl⟩ | ⟨k, msg, t, -, -, rfl⟩ | ⟨msg, -, -, rfl⟩
  · exact hc
  · exact (List.mem_cons.mp hc).resolve_left (by simp)
  · exact (List.mem_cons.mp hc).resolve_left (by simp)

/-- The steps of `updateChannels` between idle states. -/
theorem Counting.idle (hs : Counting ms s) (hq : Quiet s s') (hidle : Idle s) (hidle' : Idle s') :
    Counting ms s' := by
  obtain ⟨events, hlog, hev⟩ := hq.log
  have hgrows : Grows s s' := by
    refine ⟨events, hlog, fun e he => ?_⟩
    have := hev e he
    cases e <;> first | rfl | cases this
  refine hs.advance hgrows (fun h hh => ?_) (fun k msg hmem => Or.inl (hq.mem k msg hmem))
    fun h hh => ?_
  · obtain ⟨d, u, rfl⟩ := hidle h hh
    exact fun _ _ => id
  · obtain ⟨d, u, rfl⟩ := hidle' h hh
    trivial

theorem Counting.proceed (hs : Counting ms s) (ha : Accounted s)
    (hms : (ms.map SentMessage.hash).Nodup) {h : Handler} (hh : s.holder = some h) (now : Time)
    (answer : Option (Nat → Byte)) : Counting ms (s.proceed getClassHash now answer h) := by
  cases h with
  | receiveFind x =>
    rw [State.proceed]
    cases hf : s.segmented.findAndDecrement x.header.messageHash with
    | none => exact hs.find_none hh
    | some r =>
      obtain ⟨msg, shouldPublish, t⟩ := r
      obtain ⟨i, hi, ⟨rfl, hlast, rfl⟩ | ⟨rfl, hne, rfl⟩⟩ :=
        SegmentedTable.findAndDecrement_eq_some hf
      · exact hs.find_last hms hh hi hlast
      · exact hs.find_some ha hms hh hi hne rfl
  | receiveLoan x =>
    cases answer with
    | none => exact hs.loan_failed hh
    | some fill => exact hs.loan hh fill
  | receivePush x c => exact hs.push hh now
  | receiveTake x userHeader c shouldPublish =>
    cases shouldPublish with
    | false => exact hs.take hh
    | true => exact hs.take_last hh
  | receivePublish x c => exact hs.publish hh
  | updateChannels toDelete toSetup =>
    have hidle : Idle s := fun h hh' => ⟨_, _, Option.some.inj (hh'.symm.trans hh)⟩
    cases toDelete with
    | cons service toDelete =>
      exact hs.idle (quiet_deleteChannel hh) hidle fun h hh' => ⟨_, _, (Option.some.inj hh').symm⟩
    | nil =>
      cases toSetup with
      | cons service toSetup =>
        have hidle' : Idle ((s.setupChannel getClassHash service).goto
          (some (.updateChannels [] toSetup))) := fun h hh' => ⟨_, _, (Option.some.inj hh').symm⟩
        exact hs.idle ⟨rfl, fun _ _ h => h, fun _ _ h => Or.inl h, ⟨[], rfl, by simp⟩,
          Or.inr ⟨hidle, hidle'⟩⟩ hidle hidle'
      | nil =>
        have hidle' : Idle (s.goto none) := fun h hh' => by cases hh'
        exact hs.idle ⟨rfl, fun _ _ h => h, fun _ _ h => Or.inl h, ⟨[], rfl, by simp⟩,
          Or.inr ⟨hidle, hidle'⟩⟩ hidle hidle'
  | loanFind x => exact (hs.holder _ hh).elim
  | loanLoan x => exact (hs.holder _ hh).elim
  | loanPush x c => exact (hs.holder _ hh).elim
  | loanReturn x userHeader c => exact (hs.holder _ hh).elim
  | releaseRelease x => exact (hs.holder _ hh).elim
  | releaseDecrement x => exact (hs.holder _ hh).elim
  | releasePublish x c => exact (hs.holder _ hh).elim

/-- The label belongs to a run of `receive` over datagrams of the messages. -/
def Label.isFrom (ms : List SentMessage) (l : Label) : Prop :=
  l.isReceiveRun = true ∧ ∀ d ∈ received [l], ∃ m ∈ ms, d ∈ m.datagrams

/-- **One step keeps the invariant.** -/
theorem counting_step {l : Label} (hms : (ms.map SentMessage.hash).Nodup) (hs : Counting ms s)
    (ha : Accounted s) (hl : l.isFrom ms) (hnew : NotCounted s l)
    (h : step getClassHash s l = some s') : Counting ms s' := by
  cases l with
  | receive datagram device =>
    simp only [step] at h
    split at h
    · rename_i hfree
      obtain ⟨hd, n, hdes, ⟨-, rfl⟩ | ⟨-, -, rfl⟩ | ⟨e, -, hchan, rfl⟩⟩ := receive_eq_some h
      · exact hs
      · refine hs.stay ⟨[.noChannel hd.messageHash], rfl, by simp [Event.isPublication]⟩ rfl
          (fun _ _ h => h) fun c hd' hc => ?_
        exact (List.mem_cons.mp hc).resolve_left (by simp)
      · obtain ⟨m, hm, hmem⟩ := hl.2 datagram List.mem_cons_self
        obtain ⟨q, hq, rfl⟩ := List.mem_map.mp hmem
        have hhd : hd = q.header := by
          rw [Submessage.datagram, deserialize_serialize] at hdes
          exact (Prod.mk.inj (Option.some.inj hdes)).1.symm
        subst hhd
        simp only [NotCounted, hdes] at hnew
        exact hs.deliver hfree hm hq (hnew (by rw [hchan]; rfl))
    · cases h
  | loanBuffer header => cases hl.1
  | releaseBuffer header shouldRelease device => cases hl.1
  | updateChannels services =>
    simp only [step] at h
    split at h
    · rename_i hfree
      obtain rfl := Option.some.inj h
      refine hs.advance (Grows.same rfl) (fun h hh' => ?_) (fun k msg hmem => Or.inl hmem)
        fun h hh' => ?_
      · rw [hfree] at hh'
        cases hh'
      · obtain rfl := Option.some.inj hh'
        trivial
    · cases h
  | checkSegmentedMessages now =>
    obtain rfl := Option.some.inj h
    exact hs.stay (Grows.same rfl) rfl (fun _ _ h => h) fun _ _ h => h
  | proceed now answer =>
    obtain ⟨hd, hh, rfl⟩ := Option.map_eq_some_iff.mp h
    exact hs.proceed ha hms hh now answer
  | sweep i =>
    obtain ⟨w, hw, hstep⟩ := Option.bind_eq_some_iff.mp h
    have hq := quiet_sweep hstep
    obtain ⟨events, hlog, hev⟩ := hq.log
    have hsame : s'.holder = s.holder := by
      rcases proceedSweep_cases hstep with ⟨-, -, rfl⟩ | ⟨_, _, _, -, -, rfl⟩ | ⟨_, -, -, rfl⟩ <;>
        rfl
    refine hs.stay ⟨events, hlog, fun e he => ?_⟩ hsame hq.mem fun c hd hc =>
      copied_sweep hstep hc
    have := hev e he
    cases e <;> first | rfl | cases this

theorem counting_init : Counting ms State.init where
  entries := by simp [State.init]
  holder := by simp [State.init]
  log := trivial

theorem counting_run (hms : (ms.map SentMessage.hash).Nodup) {ls : List Label}
    (hls : ∀ l ∈ ls, l.isFrom ms) (hnew : Run.Guarded (step getClassHash) NotCounted State.init ls)
    (h : Run.exec (step getClassHash) State.init ls = some s) : Counting ms s := by
  have hfrom : Run.Guarded (step getClassHash) (fun _ l => l.isFrom ms) State.init ls :=
    Run.guarded_of_forall hls State.init
  have hinv : Accounted s ∧ Counting ms s := by
    refine Run.invariant_guarded (fun s => Accounted s ∧ Counting ms s) ?_
      ⟨accounted_init, counting_init⟩ (hfrom.and hnew) h
    intro s l s' hs hl hstep
    exact ⟨accounted_step hs.1 hstep, counting_step hms hs.2 hs.1 hl.1 hl.2 hstep⟩
  exact hinv.2

theorem LogCounts.of_mem {log newer older : List Event} {c : ChunkId} {p : PublisherId} {k : Hash}
    {content : Option Chunk} (h : LogCounts ms log)
    (hlog : log = newer ++ .published c p k content :: older) :
    ∃ m ∈ ms, m.hash = k ∧ (∀ q ∈ m.submessages, q.datagram ∈ delivered older) ∧
      ¬ Published older k := by
  induction newer generalizing log with
  | nil =>
    rw [hlog] at h
    exact h.1 c p k content rfl
  | cons e newer ih =>
    rw [hlog] at h
    exact ih h.2 rfl

theorem LogCounts.countP_le_one {log : List Event} (h : LogCounts ms log) (k : Hash) :
    log.countP (Event.publishesMessage k) ≤ 1 := by
  refine countP_publishesMessage_le_one fun newer older c p content hlog => ?_
  obtain ⟨m, -, -, -, hnp⟩ := h.of_mem hlog
  exact hnp

/-- **When duplicates are harmless.**  In every run of `receive` over datagrams of messages with
distinct hashes, reordered, dropped and duplicated at will, in which no datagram finds its channel
whose message has been published or whose range is already in the chunk of its message: a message
is published only after each of its submessages has been received, and at most once. -/
theorem published_once_all_received (getClassHash : ServiceDescription → ClassHash)
    (ms : List SentMessage) (hms : (ms.map SentMessage.hash).Nodup) (ls : List Label) (s : State)
    (hrun : Run.exec (step getClassHash) State.init ls = some s)
    (hls : ∀ l ∈ ls, l.isFrom ms)
    (hnew : Run.Guarded (step getClassHash) NotCounted State.init ls) :
    (∀ newer older c p k content, s.log = newer ++ .published c p k content :: older →
      ∃ m ∈ ms, m.hash = k ∧ ∀ d ∈ m.datagrams, d ∈ delivered older) ∧
    ∀ m ∈ ms, s.log.countP (Event.publishesMessage m.hash) ≤ 1 := by
  have hs := counting_run hms hls hnew hrun
  refine ⟨fun newer older c p k content hlog => ?_, fun m _ => hs.log.countP_le_one m.hash⟩
  obtain ⟨m, hm, hk, hall, -⟩ := hs.log.of_mem hlog
  refine ⟨m, hm, hk, fun d hd => ?_⟩
  obtain ⟨q, hq, rfl⟩ := List.mem_map.mp hd
  exact hall q hq

/-! ## Runs -/

theorem demoMessage_datagrams : demoMessage.datagrams
    = [serialize (demoHeader 9 0) ++ [7], serialize (demoHeader 9 1) ++ [8]] := by decide +kernel

theorem demoMessage_isFrom {ls : List Label} (h : ∀ l ∈ ls, l.isReceiveRun = true)
    (hrec : ∀ d ∈ received ls, d ∈ demoMessage.datagrams) :
    ∀ l ∈ ls, l.isFrom [demoMessage] := by
  intro l hl
  refine ⟨h l hl, fun d hd => ⟨demoMessage, List.mem_singleton_self _, hrec d ?_⟩⟩
  obtain ⟨a, ha, heq⟩ := List.mem_filterMap.mp hd
  obtain rfl := List.mem_singleton.mp ha
  exact List.mem_filterMap.mpr ⟨a, hl, heq⟩

/-- The second datagram comes twice, but the first copy was dropped because the loan failed. -/
def demoDuplicate : List Label :=
  demoSetup ++ [.receive (serialize (demoHeader 9 1) ++ [8]) ⟨.udp, 0⟩, .proceed 0 none,
    .proceed 0 none] ++ demoRun.drop demoSetup.length

theorem published_once_all_received_demo :
    ∃ s, Run.exec (step demoClassHash) State.init demoDuplicate = some s ∧
      s.log.countP (Event.publishesMessage 9) = 1 ∧
      ∀ newer older c p k content, s.log = newer ++ .published c p k content :: older →
        ∃ m ∈ [demoMessage], m.hash = k ∧ ∀ d ∈ m.datagrams, d ∈ delivered older := by
  refine ⟨_, rfl, by decide +kernel, ?_⟩
  refine (published_once_all_received demoClassHash [demoMessage] (by simp) demoDuplicate _ rfl
    ?_ ?_).1
  · apply demoMessage_isFrom
    · decide
    · rw [demoMessage_datagrams]
      decide +kernel
  · decide +kernel

/-- The second datagram comes twice, and the message is published without its first byte. -/
def demoCountedTwice : List Label :=
  demoSetup ++ [.receive (serialize (demoHeader 9 1) ++ [8]) ⟨.udp, 0⟩, .proceed 0 none,
      .proceed 0 (some fun _ => 0), .proceed 0 none, .proceed 0 none,
      .receive (serialize (demoHeader 9 1) ++ [8]) ⟨.udp, 0⟩, .proceed 0 none, .proceed 0 none,
      .proceed 0 none]

theorem published_before_all_received :
    (∀ l ∈ demoCountedTwice, l.isFrom [demoMessage]) ∧
      ∃ s, Run.exec (step demoClassHash) State.init demoCountedTwice = some s ∧
        ¬ ∀ newer older c p k content, s.log = newer ++ .published c p k content :: older →
          ∃ m ∈ [demoMessage], m.hash = k ∧ ∀ d ∈ m.datagrams, d ∈ delivered older := by
  constructor
  · apply demoMessage_isFrom
    · decide
    · rw [demoMessage_datagrams]
      decide +kernel
  · refine ⟨_, rfl, fun hall => ?_⟩
    obtain ⟨m, hm, -, hd⟩ := hall [] _ _ _ _ _ rfl
    obtain rfl := List.mem_singleton.mp hm
    have hmissing := hd (serialize (demoHeader 9 0) ++ [7]) (by rw [demoMessage_datagrams]; simp)
    revert hmissing
    decide +kernel

end P3com.TransportToIox
