/-
# Reassembly is sound and complete

Any finite set of messages with distinct hashes is cut into datagrams by `writeSegmentedInternal`
and the datagrams are handed to `receive`, each at most once, in any order and interleaved across
the messages, while datagrams get lost, loans fail, the table is full, messages time out and
channels come and go.  Then

* whatever is published is exactly one of the messages (`published_holds`, in `LogOk`),
* no message is published twice, and
* a message all of whose datagrams are received, without one of these failures hitting it, is
  published in the handler of the last of them.

The invariant `Assembly` links the counter of a table entry to the set of submessages already
copied into its chunk.  The datagram that a handler is working on is *in flight*: it may already
be counted, but it is not yet copied.  The datagrams of the handlers before it are *settled*.
-/
import P3com.Generic.SentMessage
import P3com.Gateway.Accounting

namespace P3com.TransportToIox

variable {getClassHash : ServiceDescription → ClassHash} {s s' : State} {ms : List SentMessage}
  {m : SentMessage}

/-! ## What the log says of a message -/

def Event.datagram : Event → Option (List Byte)
  | .delivered d => some d
  | _ => none

/-- The datagrams that found their channel, newest first. -/
def delivered (log : List Event) : List (List Byte) := log.filterMap Event.datagram

/-- The event is a failure that hits the message. -/
def Event.fails (k : Hash) : Event → Bool
  | .noChannel k' => k' = k
  | .loanFailed k' => k' = k
  | .rejected k' _ => k' = k
  | .timedOut k' _ => k' = k
  | .discarded k' _ => k' = k
  | _ => false

def Failed (log : List Event) (k : Hash) : Prop := ∃ e ∈ log, e.fails k = true

def Event.publishesMessage (k : Hash) : Event → Bool
  | .published _ _ k' _ => k' = k
  | _ => false

def Published (log : List Event) (k : Hash) : Prop := ∃ e ∈ log, e.publishesMessage k = true

/-- The chunk was published with exactly the bytes of the message, all of whose datagrams had been
delivered, the last delivered datagram being one of them, and it had not been published before. -/
def PublishOk (ms : List SentMessage) (log : List Event) (k : Hash) (content : Option Chunk) :
    Prop :=
  ∃ m ∈ ms, m.hash = k ∧ (∃ chunk, content = some chunk ∧ m.Holds chunk) ∧
    (∀ d ∈ m.datagrams, d ∈ delivered log) ∧
    (∃ d ∈ m.datagrams, (delivered log).head? = some d) ∧ ¬ Published log k

/-- Every `publish` call of the log (newest first) was right. -/
def LogOk (ms : List SentMessage) : List Event → Prop
  | [] => True
  | e :: log => (∀ c p k content, e = .published c p k content → PublishOk ms log k content) ∧
      LogOk ms log

/-- The datagrams delivered so far are datagrams of the messages, each delivered once. -/
structure Clean (ms : List SentMessage) (log : List Event) : Prop where
  nodup : (delivered log).Nodup
  sent : ∀ d ∈ delivered log, ∃ m ∈ ms, d ∈ m.datagrams

/-! ## The invariant -/

/-- The handler is working on a datagram that it has not yet copied. -/
def Handler.receiving : Handler → Bool
  | .receiveFind _ => true
  | .receiveLoan _ => true
  | .receivePush _ _ => true
  | .receiveTake _ _ _ _ => true
  | _ => false

/-- The message that the handler is about to publish. -/
def Handler.publishing : Handler → Option Hash
  | .receiveTake x _ _ true => some x.header.messageHash
  | .receivePublish x _ => some x.header.messageHash
  | _ => none

/-- The handler has counted a datagram in the table entry of this chunk, but not yet copied it. -/
def Handler.inFlight (c : ChunkId) : Handler → Nat
  | .receiveTake _ _ c' false => if c' = c then 1 else 0
  | _ => 0

/-- The datagrams whose handlers are done with copying. -/
def settled (s : State) : List (List Byte) :=
  if s.holder.any Handler.receiving then (delivered s.log).tail else delivered s.log

def inFlight (s : State) (c : ChunkId) : Nat := s.holder.elim 0 (Handler.inFlight c)

/-- The handler's datagram: a submessage of the message, and the last one delivered. -/
structure Arriving (s : State) (m : SentMessage) (q : Submessage) (x : Call) : Prop where
  mem : q ∈ m.submessages
  header : x.header = q.header
  data : x.data = q.data
  last : (delivered s.log).head? = some q.datagram

/-- The submessages `written` of the message have been copied into the chunk. -/
structure Progress (s : State) (m : SentMessage) (c : ChunkId) (written : List Submessage) :
    Prop where
  chunk : ∃ chunk, s.chunks[c]? = some chunk ∧ m.Shape chunk ∧ m.Filled chunk written
  nodup : written.Nodup
  mem : ∀ q ∈ written, q ∈ m.submessages ∧ q.datagram ∈ settled s

/-- The submessages copied and the one in flight are those that the counter of the entry has
counted, and if no failure has hit the message they are all that have arrived. -/
def EntryOk (s : State) (m : SentMessage) (msg : SegmentedMessage) : Prop :=
  ∃ written, Progress s m msg.userPayload written ∧
    msg.userHeader = State.userHeaderOf m.header msg.userPayload ∧
    0 < msg.remainingSegments.toNat ∧
    msg.remainingSegments.toNat + written.length + inFlight s msg.userPayload
      = m.submessages.length ∧
    (¬ Failed s.log m.hash → ∀ q ∈ m.submessages, q.datagram ∈ settled s → q ∈ written)

/-- What a handler of a run without `loanBuffer` and `releaseBuffer` knows. -/
def HolderOk (ms : List SentMessage) (s : State) : Handler → Prop
  | .receiveFind x => ∃ m ∈ ms, ∃ q, Arriving s m q x
  | .receiveLoan x => ∃ m ∈ ms, ∃ q, Arriving s m q x
  | .receivePush x c => ∃ m ∈ ms, ∃ q, Arriving s m q x ∧ Progress s m c [] ∧
      1 < m.submessages.length ∧
      (¬ Failed s.log m.hash → ∀ q ∈ m.submessages, q.datagram ∉ settled s)
  | .receiveTake x userHeader c true => ∃ m ∈ ms, ∃ q, Arriving s m q x ∧
      userHeader = State.userHeaderOf m.header c ∧ m.hash ∉ s.segmented.keys ∧
      ∃ written, Progress s m c written ∧ written.length + 1 = m.submessages.length
  | .receiveTake x userHeader c false => ∃ m ∈ ms, ∃ q, Arriving s m q x ∧
      userHeader = State.userHeaderOf m.header c ∧
      (∀ k msg, (k, msg) ∈ s.segmented.entries → msg.userPayload = c → k = m.hash) ∧
      (¬ Failed s.log m.hash →
        ∃ msg, (m.hash, msg) ∈ s.segmented.entries ∧ msg.userPayload = c)
  | .receivePublish x c => ∃ m ∈ ms, x.header.messageHash = m.hash ∧
      (∃ chunk, s.chunks[c]? = some chunk ∧ m.Holds chunk) ∧
      (∀ d ∈ m.datagrams, d ∈ delivered s.log) ∧
      (∃ d ∈ m.datagrams, (delivered s.log).head? = some d) ∧ ¬ Published s.log m.hash
  | .updateChannels _ _ => True
  | _ => False

/-- The invariant of reassembly. -/
structure Assembly (ms : List SentMessage) (s : State) : Prop where
  entries : ∀ k msg, (k, msg) ∈ s.segmented.entries → ∃ m ∈ ms, m.hash = k ∧ EntryOk s m msg
  holder : ∀ h, s.holder = some h → HolderOk ms s h
  log : LogOk ms s.log
  published : ∀ m ∈ ms, Published s.log m.hash → ∀ q ∈ m.submessages, q.datagram ∈ settled s
  complete : ∀ m ∈ ms, ¬ Failed s.log m.hash → ∀ q ∈ m.submessages, q.datagram ∈ settled s →
    m.hash ∈ s.segmented.keys ∨ s.holder.bind Handler.publishing = some m.hash ∨
      Published s.log m.hash

/-! ## Logs that grow -/

theorem Failed.mono {log : List Event} {k : Hash} (h : Failed log k) (events : List Event) :
    Failed (events ++ log) k := by
  obtain ⟨e, he, hf⟩ := h
  exact ⟨e, List.mem_append_right _ he, hf⟩

theorem Published.mono {log : List Event} {k : Hash} (h : Published log k) (events : List Event) :
    Published (events ++ log) k := by
  obtain ⟨e, he, hf⟩ := h
  exact ⟨e, List.mem_append_right _ he, hf⟩

/-- The event is neither a delivery nor a publication. -/
def Event.isQuiet : Event → Bool
  | .delivered _ => false
  | .published _ _ _ _ => false
  | _ => true

theorem delivered_append {events log : List Event} (h : ∀ e ∈ events, e.datagram = none) :
    delivered (events ++ log) = delivered log := by
  rw [delivered, List.filterMap_append, List.filterMap_eq_nil_iff.mpr h, List.nil_append]
  rfl

theorem Event.datagram_of_isQuiet {e : Event} (h : e.isQuiet = true) : e.datagram = none := by
  cases e <;> first | rfl | cases h

theorem delivered_append_quiet {events log : List Event} (h : ∀ e ∈ events, e.isQuiet = true) :
    delivered (events ++ log) = delivered log :=
  delivered_append fun e he => Event.datagram_of_isQuiet (h e he)

theorem published_append_quiet {events log : List Event} {k : Hash}
    (h : ∀ e ∈ events, e.isQuiet = true) : Published (events ++ log) k ↔ Published log k := by
  refine ⟨fun ⟨e, he, hp⟩ => ?_, fun hp => hp.mono events⟩
  rcases List.mem_append.mp he with he | he
  · have hq := h e he
    cases e <;> first | cases hp | cases hq
  · exact ⟨e, he, hp⟩

theorem LogOk.append {events log : List Event} (h : LogOk ms log)
    (hev : ∀ e ∈ events, e.isQuiet = true) : LogOk ms (events ++ log) := by
  induction events with
  | nil => exact h
  | cons e events ih =>
    refine ⟨?_, ih fun e' he' => hev e' (List.mem_cons_of_mem _ he')⟩
    rintro c p k content rfl
    cases hev _ List.mem_cons_self

/-- A clean log was clean before. -/
theorem Clean.of_append {events log : List Event} (h : Clean ms (events ++ log)) :
    Clean ms log := by
  have heq : delivered (events ++ log) = delivered events ++ delivered log :=
    List.filterMap_append
  refine ⟨?_, fun d hd => h.sent d ?_⟩
  · have := h.nodup
    rw [heq] at this
    exact (List.nodup_append.mp this).2.1
  · rw [heq]
    exact List.mem_append_right _ hd

/-! ## Steps that do not touch a message -/

/-- Moving an entry's facts from one state to another. -/
theorem EntryOk.transfer {msg : SegmentedMessage} (h : EntryOk s m msg)
    (hchunk : s'.chunks[msg.userPayload]? = s.chunks[msg.userPayload]?)
    (hsettled : ∀ d ∈ settled s, d ∈ settled s')
    (hfailed : Failed s.log m.hash → Failed s'.log m.hash)
    (hnew : ¬ Failed s'.log m.hash → ∀ q ∈ m.submessages, q.datagram ∈ settled s' →
      q.datagram ∈ settled s)
    (hflight : inFlight s' msg.userPayload = inFlight s msg.userPayload) : EntryOk s' m msg := by
  obtain ⟨written, hp, huh, hpos, hcount, hall⟩ := h
  refine ⟨written, ⟨?_, hp.nodup, fun q hq => ⟨(hp.mem q hq).1, hsettled _ (hp.mem q hq).2⟩⟩, huh,
    hpos, ?_, fun hnf q hq hs => hall (fun hf => hnf (hfailed hf)) q hq (hnew hnf q hq hs)⟩
  · rw [hchunk]
    exact hp.chunk
  · rw [hflight]
    exact hcount

theorem Progress.transfer {c : ChunkId} {written : List Submessage} (h : Progress s m c written)
    (hchunk : s'.chunks[c]? = s.chunks[c]?) (hsettled : ∀ d ∈ settled s, d ∈ settled s') :
    Progress s' m c written := by
  refine ⟨?_, h.nodup, fun q hq => ⟨(h.mem q hq).1, hsettled _ (h.mem q hq).2⟩⟩
  rw [hchunk]
  exact h.chunk

/-- Neither working on a datagram nor about to publish. -/
def Idle (s : State) : Prop := ∀ h, s.holder = some h → ∃ d u, h = .updateChannels d u

/-- The step leaves the messages alone, except that it may take some out of the table, with a
failure on record for each. -/
structure Quiet (s s' : State) : Prop where
  chunks : s'.chunks = s.chunks
  mem : ∀ k msg, (k, msg) ∈ s'.segmented.entries → (k, msg) ∈ s.segmented.entries
  lost : ∀ k msg, (k, msg) ∈ s.segmented.entries →
    (k, msg) ∈ s'.segmented.entries ∨ Failed s'.log k
  log : ∃ events, s'.log = events ++ s.log ∧ ∀ e ∈ events, e.isQuiet = true
  holder : s'.holder = s.holder ∨ Idle s ∧ Idle s'

theorem Idle.settled_eq (h : Idle s) : settled s = delivered s.log := by
  unfold settled
  rw [if_neg]
  intro hany
  obtain ⟨hd, hh, hr⟩ := (Option.any_eq_true _ _).mp hany
  obtain ⟨d, u, rfl⟩ := h hd hh
  cases hr

theorem Idle.inFlight_eq (h : Idle s) (c : ChunkId) : inFlight s c = 0 := by
  unfold inFlight
  cases hh : s.holder with
  | none => rfl
  | some hd =>
    obtain ⟨d, u, rfl⟩ := h hd hh
    rfl

theorem Idle.publishing_eq (h : Idle s) : s.holder.bind Handler.publishing = none := by
  cases hh : s.holder with
  | none => rfl
  | some hd =>
    obtain ⟨d, u, rfl⟩ := h hd hh
    rfl

namespace Quiet

theorem delivered_eq (h : Quiet s s') : delivered s'.log = delivered s.log := by
  obtain ⟨events, hlog, hev⟩ := h.log
  rw [hlog, delivered_append_quiet hev]

theorem settled_eq (h : Quiet s s') : settled s' = settled s := by
  rcases h.holder with heq | ⟨hi, hi'⟩
  · rw [settled, settled, heq, h.delivered_eq]
  · rw [hi.settled_eq, hi'.settled_eq, h.delivered_eq]

theorem inFlight_eq (h : Quiet s s') (c : ChunkId) : inFlight s' c = inFlight s c := by
  rcases h.holder with heq | ⟨hi, hi'⟩
  · rw [inFlight, inFlight, heq]
  · rw [hi.inFlight_eq, hi'.inFlight_eq]

theorem publishing_eq (h : Quiet s s') :
    s'.holder.bind Handler.publishing = s.holder.bind Handler.publishing := by
  rcases h.holder with heq | ⟨hi, hi'⟩
  · rw [heq]
  · rw [hi.publishing_eq, hi'.publishing_eq]

theorem failed (h : Quiet s s') {k : Hash} (hf : Failed s.log k) : Failed s'.log k := by
  obtain ⟨events, hlog, -⟩ := h.log
  rw [hlog]
  exact hf.mono events

theorem published_iff (h : Quiet s s') {k : Hash} : Published s'.log k ↔ Published s.log k := by
  obtain ⟨events, hlog, hev⟩ := h.log
  rw [hlog]
  exact published_append_quiet hev

theorem keys (h : Quiet s s') {k : Hash} (hk : k ∈ s'.segmented.keys) : k ∈ s.segmented.keys := by
  obtain ⟨msg, hmem⟩ := VectorMap.exists_of_mem_keys hk
  exact VectorMap.mem_keys_of_mem_entries (h.mem k msg hmem)

theorem arriving (h : Quiet s s') {q : Submessage} {x : Call} (ha : Arriving s m q x) :
    Arriving s' m q x :=
  ⟨ha.mem, ha.header, ha.data, by rw [h.delivered_eq]; exact ha.last⟩

theorem progress (h : Quiet s s') {c : ChunkId} {written : List Submessage}
    (hp : Progress s m c written) : Progress s' m c written :=
  hp.transfer (by rw [h.chunks]) (fun d hd => by rwa [h.settled_eq])

theorem entryOk (h : Quiet s s') {msg : SegmentedMessage} (he : EntryOk s m msg) :
    EntryOk s' m msg :=
  he.transfer (by rw [h.chunks]) (fun d hd => by rwa [h.settled_eq]) h.failed
    (fun _ q _ hq => by rwa [h.settled_eq] at hq) (h.inFlight_eq _)

theorem holderOk (h : Quiet s s') {hd : Handler} (hh : HolderOk ms s hd) : HolderOk ms s' hd := by
  cases hd with
  | receiveFind x =>
    obtain ⟨m, hm, q, ha⟩ := hh
    exact ⟨m, hm, q, h.arriving ha⟩
  | receiveLoan x =>
    obtain ⟨m, hm, q, ha⟩ := hh
    exact ⟨m, hm, q, h.arriving ha⟩
  | receivePush x c =>
    obtain ⟨m, hm, q, ha, hp, hlen, hnone⟩ := hh
    refine ⟨m, hm, q, h.arriving ha, h.progress hp, hlen, fun hnf => ?_⟩
    rw [h.settled_eq]
    exact hnone fun hf => hnf (h.failed hf)
  | receiveTake x userHeader c shouldPublish =>
    cases shouldPublish with
    | true =>
      obtain ⟨m, hm, q, ha, huh, hkeys, written, hp, hlen⟩ := hh
      exact ⟨m, hm, q, h.arriving ha, huh, fun hk => hkeys (h.keys hk), written, h.progress hp,
        hlen⟩
    | false =>
      obtain ⟨m, hm, q, ha, huh, hsole, hentry⟩ := hh
      refine ⟨m, hm, q, h.arriving ha, huh, fun k msg hmem => hsole k msg (h.mem k msg hmem),
        fun hnf => ?_⟩
      obtain ⟨msg, hmem, hpay⟩ := hentry fun hf => hnf (h.failed hf)
      rcases h.lost _ _ hmem with hmem' | hf
      · exact ⟨msg, hmem', hpay⟩
      · exact absurd hf hnf
  | receivePublish x c =>
    obtain ⟨m, hm, hhash, hchunk, hall, hlast, hnp⟩ := hh
    refine ⟨m, hm, hhash, by rw [h.chunks]; exact hchunk, ?_, ?_, mt h.published_iff.mp hnp⟩
    · rw [h.delivered_eq]
      exact hall
    · rw [h.delivered_eq]
      exact hlast
  | updateChannels toDelete toSetup => trivial
  | _ => exact hh.elim

end Quiet

/-- **Quiet steps keep the invariant.** -/
theorem Assembly.quiet (hs : Assembly ms s) (h : Quiet s s') : Assembly ms s' where
  entries := fun k msg hmem => by
    obtain ⟨m, hm, hk, he⟩ := hs.entries k msg (h.mem k msg hmem)
    exact ⟨m, hm, hk, h.entryOk he⟩
  holder := fun hd hh => by
    rcases h.holder with heq | ⟨-, hi'⟩
    · exact h.holderOk (hs.holder hd (heq ▸ hh))
    · obtain ⟨d, u, rfl⟩ := hi' hd hh
      trivial
  log := by
    obtain ⟨events, hlog, hev⟩ := h.log
    rw [hlog]
    exact hs.log.append hev
  published := fun m hm hp q hq => by
    rw [h.settled_eq]
    exact hs.published m hm (h.published_iff.mp hp) q hq
  complete := fun m hm hnf q hq hset => by
    rw [h.settled_eq] at hset
    rcases hs.complete m hm (fun hf => hnf (h.failed hf)) q hq hset with hk | hpub | hp
    · obtain ⟨msg, hmem⟩ := VectorMap.exists_of_mem_keys hk
      rcases h.lost _ _ hmem with hmem' | hf
      · exact Or.inl (VectorMap.mem_keys_of_mem_entries hmem')
      · exact absurd hf hnf
    · rw [h.publishing_eq]
      exact Or.inr (Or.inl hpub)
    · exact Or.inr (Or.inr (h.published_iff.mpr hp))

/-! ## The datagram of a handler -/

theorem settled_of_receiving {h : Handler} (hh : s.holder = some h) (hr : h.receiving = true) :
    settled s = (delivered s.log).tail := by
  unfold settled
  rw [if_pos]
  rw [hh]
  exact hr

theorem settled_of_not_receiving (hr : s.holder.any Handler.receiving = false) :
    settled s = delivered s.log := by
  unfold settled
  rw [if_neg]
  rw [hr]
  exact Bool.false_ne_true

theorem settled_subset_delivered : ∀ d ∈ settled s, d ∈ delivered s.log := by
  intro d hd
  unfold settled at hd
  split at hd
  · exact List.mem_of_mem_tail hd
  · exact hd

/-- The copy goes into the chunk of the payload, through one pointer or the other. -/
theorem takeNextTarget_of_mem {q : Submessage} (hq : q ∈ m.submessages) (c : ChunkId) :
    State.takeNextTarget q.header (State.userHeaderOf m.header c) c = some c := by
  have huh : State.userHeaderOf m.header c = State.userHeaderOf q.header c := by
    rw [State.userHeaderOf, State.userHeaderOf, (SentMessage.piece hq).userHeaderSize]
  rw [huh]
  unfold State.takeNextTarget takeNextRange
  split
  · rename_i hp
    split at hp
    · rename_i hlt
      rw [State.userHeaderOf, if_pos]
      rintro h0
      rw [h0, UInt32.lt_iff_toNat_lt] at hlt
      exact Nat.not_lt_zero _ hlt
    · cases hp
  · rfl

namespace Arriving

variable {q : Submessage} {x : Call}

theorem delivered_eq (ha : Arriving s m q x) :
    delivered s.log = q.datagram :: (delivered s.log).tail := by
  have := ha.last
  cases hd : delivered s.log with
  | nil => simp [hd] at this
  | cons d ds =>
    rw [hd] at this
    rw [Option.some.inj this]
    rfl

theorem mem_delivered (ha : Arriving s m q x) : q.datagram ∈ delivered s.log := by
  rw [ha.delivered_eq]
  exact List.mem_cons_self

theorem messageHash (ha : Arriving s m q x) : x.header.messageHash = m.hash := by
  rw [ha.header]
  exact (SentMessage.piece ha.mem).messageHash

theorem userHeaderOf (ha : Arriving s m q x) (c : ChunkId) :
    State.userHeaderOf x.header c = State.userHeaderOf m.header c := by
  rw [State.userHeaderOf, State.userHeaderOf, ha.header,
    (SentMessage.piece ha.mem).userHeaderSize]

/-- The datagram of a handler is new. -/
theorem fresh (ha : Arriving s m q x) (hclean : Clean ms s.log) {h : Handler}
    (hh : s.holder = some h) (hr : h.receiving = true) : q.datagram ∉ settled s := by
  rw [settled_of_receiving hh hr]
  have hn := hclean.nodup
  rw [ha.delivered_eq] at hn
  exact (List.nodup_cons.mp hn).1

/-- Every other datagram was there before. -/
theorem mem_settled (ha : Arriving s m q x) {h : Handler} (hh : s.holder = some h)
    (hr : h.receiving = true) {q' : Submessage} (hd : q'.datagram ∈ delivered s.log)
    (hne : q' ≠ q) : q'.datagram ∈ settled s := by
  rw [settled_of_receiving hh hr]
  rw [ha.delivered_eq] at hd
  rcases List.mem_cons.mp hd with heq | hmem
  · exact absurd (SentMessage.datagram_injective heq) hne
  · exact hmem

/-- A message whose datagram is still to be copied has not been published. -/
theorem not_published (ha : Arriving s m q x) (hs : Assembly ms s) (hm : m ∈ ms)
    (hclean : Clean ms s.log) {h : Handler} (hh : s.holder = some h)
    (hr : h.receiving = true) : ¬ Published s.log m.hash :=
  fun hp => ha.fresh hclean hh hr (hs.published m hm hp q ha.mem)

theorem takeNextTarget (ha : Arriving s m q x) (c : ChunkId) :
    State.takeNextTarget x.header (State.userHeaderOf m.header c) c = some c := by
  rw [ha.header]
  exact takeNextTarget_of_mem ha.mem c

end Arriving

/-- Messages with distinct hashes are determined by their hash. -/
theorem eq_of_hash (hms : (ms.map SentMessage.hash).Nodup) {m m' : SentMessage} (hm : m ∈ ms)
    (hm' : m' ∈ ms) (h : m.hash = m'.hash) : m = m' :=
  List.inj_on_of_nodup_map hms hm hm' h

/-- Submessages of messages with different hashes are different. -/
theorem ne_of_hash_ne {m m' : SentMessage} {q q' : Submessage} (hq : q ∈ m.submessages)
    (hq' : q' ∈ m'.submessages) (h : m'.hash ≠ m.hash) : q' ≠ q := by
  rintro rfl
  exact h ((SentMessage.piece hq').messageHash.symm.trans (SentMessage.piece hq).messageHash)

/-! ## The sections of `receive` -/

section Receive

variable {x : Call}

/-- A datagram comes in and finds its channel. -/
theorem Assembly.deliver (hs : Assembly ms s) (hfree : s.holder = none) {d : List Byte} {n : Nat}
    {hd : IoxChunkDatagramHeader} {device : DeviceIndex} {p : PublisherId}
    (hdes : deserialize d = some (hd, n)) (hclean : Clean ms (.delivered d :: s.log)) :
    Assembly ms ((s.record (.delivered d)).goto
      (some (.receiveFind ⟨hd, d.drop n, device, p⟩))) := by
  have hdel : delivered (.delivered d :: s.log) = d :: delivered s.log := rfl
  have hidle : Idle s := by
    intro h hh
    rw [hfree] at hh
    cases hh
  have hset : settled ((s.record (.delivered d)).goto
      (some (.receiveFind ⟨hd, d.drop n, device, p⟩))) = settled s := by
    rw [settled_of_receiving rfl rfl, hidle.settled_eq]
    rfl
  have hpub : ∀ k, Published (.delivered d :: s.log) k → Published s.log k := by
    rintro k ⟨e, he, hf⟩
    rcases List.mem_cons.mp he with rfl | he
    · cases hf
    · exact ⟨e, he, hf⟩
  refine ⟨fun k msg hmem => ?_, fun h hh => ?_, ⟨by simp, hs.log⟩, fun m hm hp q hq => ?_,
    fun m hm hnf q hq hd => ?_⟩
  · obtain ⟨m, hm, hk, he⟩ := hs.entries k msg hmem
    refine ⟨m, hm, hk, he.transfer rfl (fun d hd => by rwa [hset]) (fun hf => hf.mono [_])
      (fun _ q _ hq => by rwa [hset] at hq) ?_⟩
    rw [hidle.inFlight_eq]
    rfl
  · obtain rfl := Option.some.inj hh
    obtain ⟨m, hm, hmem⟩ := hclean.sent d (by rw [hdel]; exact List.mem_cons_self)
    obtain ⟨q, hq, rfl⟩ := List.mem_map.mp hmem
    rw [Submessage.datagram, deserialize_serialize] at hdes
    obtain ⟨rfl, rfl⟩ := Prod.mk.inj (Option.some.inj hdes)
    refine ⟨m, hm, q, hq, rfl, ?_, rfl⟩
    simp [Submessage.datagram]
  · rw [hset]
    exact hs.published m hm (hpub _ hp) q hq
  · rw [hset] at hd
    rcases hs.complete m hm (fun hf => hnf (hf.mono [_])) q hq hd with hk | hpb | hp
    · exact Or.inl hk
    · rw [hidle.publishing_eq] at hpb
      cases hpb
    · exact Or.inr (Or.inr (hp.mono [_]))

/-- A section after which the handler is still working on its datagram. -/
theorem settled_advance {h h' : Handler} (hh : s.holder = some h) (hr : h.receiving = true)
    (hh' : s'.holder = some h') (hr' : h'.receiving = true)
    (hlog : ∃ events, s'.log = events ++ s.log ∧ ∀ e ∈ events, e.isQuiet = true) :
    settled s' = settled s := by
  obtain ⟨events, hlog, hev⟩ := hlog
  rw [settled_of_receiving hh hr, settled_of_receiving hh' hr', hlog, delivered_append_quiet hev]

theorem Assembly.advance (hs : Assembly ms s) {h h' : Handler} (hh : s.holder = some h)
    (hr : h.receiving = true) (hh' : s'.holder = some h') (hr' : h'.receiving = true)
    (hlog : ∃ events, s'.log = events ++ s.log ∧ ∀ e ∈ events, e.isQuiet = true)
    (hentries : ∀ k msg, (k, msg) ∈ s'.segmented.entries → ∃ m ∈ ms, m.hash = k ∧ EntryOk s' m msg)
    (hholder : HolderOk ms s' h') (hpub : h.publishing = none)
    (hkeys : ∀ k ∈ s.segmented.keys, k ∈ s'.segmented.keys ∨ h'.publishing = some k) :
    Assembly ms s' := by
  have hset := settled_advance hh hr hh' hr' hlog
  obtain ⟨events, hlog, hev⟩ := hlog
  refine ⟨hentries, fun hd hhd => ?_, ?_, fun m hm hp q hq => ?_, fun m hm hnf q hq hd => ?_⟩
  · obtain rfl : h' = hd := Option.some.inj (hh'.symm.trans hhd)
    exact hholder
  · rw [hlog]
    exact hs.log.append hev
  · rw [hset]
    rw [hlog, published_append_quiet hev] at hp
    exact hs.published m hm hp q hq
  · rw [hset] at hd
    rw [hlog, published_append_quiet hev]
    rw [hlog] at hnf
    rcases hs.complete m hm (fun hf => hnf (hf.mono events)) q hq hd with hk | hpb | hp
    · rcases hkeys _ hk with hk' | hpb
      · exact Or.inl hk'
      · rw [hh']
        exact Or.inr (Or.inl hpb)
    · rw [hh, Option.bind_some, hpub] at hpb
      cases hpb
    · exact Or.inr (Or.inr hp)

theorem inFlight_of_holder {h : Handler} (hh : s.holder = some h) (c : ChunkId) :
    inFlight s c = h.inFlight c := by
  rw [inFlight, hh]
  rfl

/-- The message is not in the table. -/
theorem Assembly.find_none (hs : Assembly ms s) (hh : s.holder = some (.receiveFind x)) :
    Assembly ms (s.goto (some (.receiveLoan x))) := by
  have hset : settled (s.goto (some (.receiveLoan x))) = settled s :=
    settled_advance hh rfl rfl rfl ⟨[], rfl, by simp⟩
  refine hs.advance hh rfl rfl rfl ⟨[], rfl, by simp⟩ (fun k msg hmem => ?_) ?_ rfl
    fun k hk => Or.inl hk
  · obtain ⟨m, hm, hk, he⟩ := hs.entries k msg hmem
    refine ⟨m, hm, hk, he.transfer rfl (fun d hd => by rwa [hset]) id
      (fun _ q _ hq => by rwa [hset] at hq) ?_⟩
    rw [inFlight_of_holder hh]
    rfl
  · obtain ⟨m, hm, q, ha⟩ := hs.holder _ hh
    exact ⟨m, hm, q, ha.mem, ha.header, ha.data, ha.last⟩

theorem toNat_sub_one {r : UInt32} (h : 0 < r.toNat) : (r - 1).toNat = r.toNat - 1 := by
  rw [UInt32.toNat_sub_of_le]
  · rfl
  · rw [UInt32.le_iff_toNat_le]
    exact h

/-- An entry is determined by its chunk. -/
theorem Accounted.eq_of_payload (ha : Accounted s) {e e' : Hash × SegmentedMessage}
    (he : e ∈ s.segmented.entries) (he' : e' ∈ s.segmented.entries)
    (h : e.2.userPayload = e'.2.userPayload) : e = e' := by
  have hle : tableCount s e'.2.userPayload ≤ 1 := by
    have htot := ha.total e'.2.userPayload
    unfold account at htot
    split at htot <;> omega
  exact List.eq_of_countP_le_one hle he he' (by simpa using h) (by simp)

/-- An entry's chunk is owned by no handler. -/
theorem Accounted.payload_ne_owned (ha : Accounted s) {h : Handler} {c : ChunkId}
    (hh : s.holder = some h) (hc : h.owned = some c) {k : Hash} {msg : SegmentedMessage}
    (he : (k, msg) ∈ s.segmented.entries) : msg.userPayload ≠ c := by
  rintro rfl
  have hpos : 0 < tableCount s msg.userPayload :=
    List.countP_pos_iff.mpr ⟨(k, msg), he, by simp⟩
  have hown : 0 < ownerCount s msg.userPayload := by simp [ownerCount, hh, hc]
  have htot := ha.total msg.userPayload
  unfold account at htot
  split at htot <;> omega

/-- The message is in the table, and this is not its last datagram. -/
theorem Assembly.find_some (hs : Assembly ms s) (ha : Accounted s)
    (hms : (ms.map SentMessage.hash).Nodup) (hh : s.holder = some (.receiveFind x))
    {msg msg' : SegmentedMessage} {i : Nat}
    (hi : s.segmented.entries[i]? = some (x.header.messageHash, msg))
    (hne : msg.remainingSegments - 1 ≠ 0)
    (hmsg' : msg' = { msg with remainingSegments := msg.remainingSegments - 1 }) :
    Assembly ms ({ s with segmented := s.segmented.set i msg' }.goto
      (some (.receiveTake x msg.userHeader msg.userPayload false))) := by
  obtain ⟨m, hm, q, harr⟩ := hs.holder _ hh
  obtain ⟨m', hm', hk', written, hp, huh, hpos, hcount, hall⟩ :=
    hs.entries _ _ (List.mem_of_getElem? hi)
  obtain rfl : m' = m := eq_of_hash hms hm' hm (hk'.trans harr.messageHash)
  set s' := { s with segmented := s.segmented.set i msg' }.goto
      (some (.receiveTake x msg.userHeader msg.userPayload false)) with hs'
  have hset : settled s' = settled s := settled_advance hh rfl rfl rfl ⟨[], rfl, by simp⟩
  have hpay : msg'.userPayload = msg.userPayload := by rw [hmsg']
  have hrem : msg'.remainingSegments.toNat = msg.remainingSegments.toNat - 1 := by
    rw [hmsg']
    exact toNat_sub_one hpos
  have hrem' : msg'.remainingSegments.toNat ≠ 0 := fun h0 =>
    hne (UInt32.toNat_inj.mp (by rw [toNat_sub_one hpos, ← hrem, h0]; rfl))
  -- no other entry has the chunk of this one
  have hother : ∀ k msg₁, (k, msg₁) ∈ s.segmented.entries → k ≠ x.header.messageHash →
      msg₁.userPayload ≠ msg.userPayload := by
    intro k msg₁ hmem hk heq
    exact hk (congrArg Prod.fst (ha.eq_of_payload hmem (List.mem_of_getElem? hi) heq))
  refine hs.advance hh rfl rfl rfl ⟨[], rfl, by simp⟩ (fun k msg₁ hmem₁ => ?_) ?_ rfl
    fun k hk => Or.inl hk
  · rcases VectorMap.mem_set_cases ha.keys hi hmem₁ with ⟨rfl, rfl⟩ | ⟨hold, hk⟩
    · -- the entry of this message: one more is counted, and that one is in flight
      refine ⟨m', hm', hk', written, ?_, ?_, Nat.pos_of_ne_zero hrem', ?_, fun hnf q hq hd => ?_⟩
      · rw [hpay]
        exact hp.transfer rfl (fun d hd => by rwa [hset])
      · rw [hpay, hmsg']
        exact huh
      · rw [inFlight_of_holder hh] at hcount
        rw [inFlight_of_holder (s := s') rfl, hrem, hpay, ← hcount]
        simp only [Handler.inFlight, if_true]
        omega
      · rw [hset] at hd
        exact hall hnf q hq hd
    · obtain ⟨m₁, hm₁, hk₁, he₁⟩ := hs.entries k msg₁ hold
      refine ⟨m₁, hm₁, hk₁, he₁.transfer rfl (fun d hd => by rwa [hset]) id
        (fun _ q _ hq => by rwa [hset] at hq) ?_⟩
      rw [inFlight_of_holder hh, inFlight_of_holder (s := s') rfl]
      exact if_neg fun h => hother k msg₁ hold hk h.symm
  · refine ⟨m', hm, q, ⟨harr.mem, harr.header, harr.data, harr.last⟩, huh, ?_, fun _ =>
      ⟨msg', hk' ▸ VectorMap.mem_set_self hi msg', hpay⟩⟩
    intro k msg₁ hmem₁ heq
    rcases VectorMap.mem_set_cases ha.keys hi hmem₁ with ⟨rfl, rfl⟩ | ⟨hold, hk⟩
    · exact hk'.symm
    · exact absurd heq (hother k msg₁ hold hk)

/-- The last datagram of a message in the table. -/
theorem Assembly.find_last (hs : Assembly ms s) (ha : Accounted s)
    (hms : (ms.map SentMessage.hash).Nodup) (hh : s.holder = some (.receiveFind x))
    {msg : SegmentedMessage} {i : Nat}
    (hi : s.segmented.entries[i]? = some (x.header.messageHash, msg))
    (hlast : msg.remainingSegments - 1 = 0) :
    Assembly ms ({ s with segmented := s.segmented.erase i }.goto
      (some (.receiveTake x msg.userHeader msg.userPayload true))) := by
  obtain ⟨m, hm, q, harr⟩ := hs.holder _ hh
  obtain ⟨m', hm', hk', written, hp, huh, hpos, hcount, -⟩ :=
    hs.entries _ _ (List.mem_of_getElem? hi)
  obtain rfl : m' = m := eq_of_hash hms hm' hm (hk'.trans harr.messageHash)
  set s' := { s with segmented := s.segmented.erase i }.goto
      (some (.receiveTake x msg.userHeader msg.userPayload true)) with hs'
  have hset : settled s' = settled s := settled_advance hh rfl rfl rfl ⟨[], rfl, by simp⟩
  refine hs.advance hh rfl rfl rfl ⟨[], rfl, by simp⟩ (fun k msg₁ hmem₁ => ?_) ?_ rfl
    fun k hk => ?_
  · obtain ⟨m₁, hm₁, hk₁, he₁⟩ := hs.entries k msg₁ (VectorMap.mem_entries_of_mem_erase hmem₁)
    refine ⟨m₁, hm₁, hk₁, he₁.transfer rfl (fun d hd => by rwa [hset]) id
      (fun _ q _ hq => by rwa [hset] at hq) ?_⟩
    rw [inFlight_of_holder hh]
    rfl
  · refine ⟨m', hm, q, ⟨harr.mem, harr.header, harr.data, harr.last⟩, huh, ?_, written,
      hp.transfer rfl (fun d hd => by rwa [hset]), ?_⟩
    · rw [hk']
      exact VectorMap.not_mem_keys_erase ha.keys hi
    · have hone : msg.remainingSegments.toNat - 1 = 0 := by
        rw [← toNat_sub_one hpos, hlast]
        rfl
      rw [inFlight_of_holder hh] at hcount
      simp only [Handler.inFlight] at hcount
      omega
  · by_cases heq : k = x.header.messageHash
    · exact Or.inr (heq ▸ rfl)
    · obtain ⟨msg₁, hmem₁⟩ := VectorMap.exists_of_mem_keys hk
      exact Or.inl (VectorMap.mem_keys_of_mem_entries (VectorMap.mem_erase_of_ne hi hmem₁ heq))

/-- The chunk that is loaned for a datagram has the shape of its message. -/
theorem Arriving.shape_loanedChunk {q : Submessage} (ha : Arriving s m q x) (fill : Nat → Byte) :
    m.Shape (State.loanedChunk x fill) := by
  have hp := SentMessage.piece ha.mem
  have huh := m.userHeaderSize_eq
  have hup := m.userPayloadSize_eq
  constructor
  · unfold State.loanedChunk
    rw [ha.header, hp.userHeaderSize]
    by_cases hz : m.header.userHeaderSize = 0
    · have hnil : m.userHeader = [] := by
        rw [hz] at huh
        exact List.eq_nil_of_length_eq_zero huh.symm
      simp [hz, hnil]
    · have hnil : m.userHeader ≠ [] := by
        rintro hnil
        rw [hnil] at huh
        exact hz (UInt32.toNat_inj.mp huh)
      simp [hz, hnil, huh]
  · simp [State.loanedChunk, ha.header, hp.userPayloadSize, hup]

/-- The chunk just loaned has nothing copied into it. -/
theorem Arriving.progress_loan {q : Submessage} (ha : Arriving s m q x) (fill : Nat → Byte)
    (next : Option Handler) : Progress ((s.loan x fill).goto next) m s.chunks.length [] where
  chunk := ⟨State.loanedChunk x fill, by simp, ha.shape_loanedChunk fill, SentMessage.filled_nil _⟩
  nodup := List.nodup_nil
  mem := by simp

/-- The loan succeeds. -/
theorem Assembly.loan (hs : Assembly ms s) (ha : Accounted s) (hclean : Clean ms s.log)
    (hh : s.holder = some (.receiveLoan x)) (fill : Nat → Byte) :
    Assembly ms ((s.loan x fill).goto
      (if x.header.submessageCount > 1 then some (.receivePush x s.chunks.length)
        else some (.receiveTake x (State.userHeaderOf x.header s.chunks.length) s.chunks.length
          true))) := by
  obtain ⟨m, hm, q, harr⟩ := hs.holder _ hh
  have habsent : m.hash ∉ s.segmented.keys :=
    ha.absent _ (by simp [hh, Handler.absent, harr.messageHash])
  have hlog : ∃ events, (s.loan x fill).log = events ++ s.log ∧ ∀ e ∈ events, e.isQuiet = true :=
    ⟨[.loaned s.chunks.length x.publisher], rfl, by simp [Event.isQuiet]⟩
  -- nothing of the message can have settled without an entry, a publication or a failure
  have hnone : ¬ Failed s.log m.hash → ∀ q ∈ m.submessages, q.datagram ∉ settled s := by
    intro hnf q' hq' hd
    rcases hs.complete m hm hnf q' hq' hd with hk | hpb | hp
    · exact habsent hk
    · simp [hh, Handler.publishing] at hpb
    · exact harr.not_published hs hm hclean hh rfl hp
  have hcount : x.header.submessageCount.toNat = m.submessages.length := by
    rw [harr.header]
    exact (SentMessage.piece harr.mem).submessageCount
  have hold : ∀ next : Handler, next.receiving = true → (∀ c, next.inFlight c = 0) →
      ∀ k msg, (k, msg) ∈ s.segmented.entries →
        ∃ m ∈ ms, m.hash = k ∧ EntryOk ((s.loan x fill).goto (some next)) m msg := by
    intro next hr hflight k msg hmem
    have hset : settled ((s.loan x fill).goto (some next)) = settled s :=
      settled_advance hh rfl rfl hr hlog
    obtain ⟨m₁, hm₁, hk₁, he₁⟩ := hs.entries k msg hmem
    refine ⟨m₁, hm₁, hk₁, he₁.transfer ?_ (fun d hd => by rwa [hset]) (fun hf => hf.mono [_])
      (fun _ q _ hq => by rwa [hset] at hq) ?_⟩
    · obtain ⟨_, hp, -⟩ := he₁
      obtain ⟨chunk, hc, -⟩ := hp.chunk
      exact List.getElem?_append_left (List.getElem?_eq_some_iff.mp hc).1
    · rw [inFlight_of_holder hh, inFlight_of_holder rfl, hflight]
      rfl
  by_cases hgt : x.header.submessageCount > 1
  · rw [if_pos hgt]
    refine hs.advance hh rfl rfl rfl hlog (hold _ rfl fun _ => rfl) ?_ rfl fun k hk => Or.inl hk
    have hset : settled ((s.loan x fill).goto (some (.receivePush x s.chunks.length)))
      = settled s := settled_advance hh rfl rfl rfl hlog
    refine ⟨m, hm, q, ⟨harr.mem, harr.header, harr.data, harr.last⟩, harr.progress_loan fill _, ?_,
      fun hnf => ?_⟩
    · rw [← hcount]
      exact UInt32.lt_iff_toNat_lt.mp hgt
    · rw [hset]
      exact hnone fun hf => hnf (hf.mono [_])
  · rw [if_neg hgt]
    refine hs.advance hh rfl rfl rfl hlog (hold _ rfl fun _ => rfl) ?_ rfl fun k hk => Or.inl hk
    refine ⟨m, hm, q, ⟨harr.mem, harr.header, harr.data, harr.last⟩, harr.userHeaderOf _, habsent,
      [], harr.progress_loan fill _, ?_⟩
    have hpos : 0 < m.submessages.length := List.length_pos_of_mem harr.mem
    have hle : x.header.submessageCount.toNat ≤ 1 :=
      Nat.le_of_not_lt fun h => hgt (UInt32.lt_iff_toNat_lt.mpr h)
    simp only [List.length_nil]
    omega

/-- The new message goes into the table, or the table is full. -/
theorem Assembly.push (hs : Assembly ms s) (ha : Accounted s) {c : ChunkId}
    (hh : s.holder = some (.receivePush x c)) (now : Time) :
    Assembly ms ((s.pushSegmented x (x.header.submessageCount - 1) c now).goto
      (some (.receiveTake x (State.userHeaderOf x.header c) c false))) := by
  obtain ⟨m, hm, q, harr, hp, hlen, hnone⟩ := hs.holder _ hh
  have hcount : x.header.submessageCount.toNat = m.submessages.length := by
    rw [harr.header]
    exact (SentMessage.piece harr.mem).submessageCount
  have hne : ∀ k msg, (k, msg) ∈ s.segmented.entries → msg.userPayload ≠ c :=
    fun k msg hmem => ha.payload_ne_owned hh rfl hmem
  -- an entry that was there before has another chunk
  have hold : ∀ s' : State, s'.chunks = s.chunks → settled s' = settled s →
      (∀ k, Failed s.log k → Failed s'.log k) →
      s'.holder = some (.receiveTake x (State.userHeaderOf x.header c) c false) →
      ∀ k msg, (k, msg) ∈ s.segmented.entries → ∃ m ∈ ms, m.hash = k ∧ EntryOk s' m msg := by
    intro s' hchunks hset hfail hh' k msg hmem
    obtain ⟨m₁, hm₁, hk₁, he₁⟩ := hs.entries k msg hmem
    refine ⟨m₁, hm₁, hk₁, he₁.transfer (by rw [hchunks]) (fun d hd => by rwa [hset]) (hfail _)
      (fun _ q _ hq => by rwa [hset] at hq) ?_⟩
    rw [inFlight_of_holder hh, inFlight_of_holder hh']
    exact if_neg fun h => hne k msg hmem h.symm
  unfold State.pushSegmented
  split
  · rename_i t ht
    set s' := { s with segmented := t }.goto
      (some (.receiveTake x (State.userHeaderOf x.header c) c false)) with hs'
    have hset : settled s' = settled s := settled_advance hh rfl rfl rfl ⟨[], rfl, by simp⟩
    have hentries : s'.segmented.entries = _ := VectorMap.entries_emplace ht
    refine hs.advance hh rfl rfl rfl ⟨[], rfl, by simp⟩ (fun k msg hmem => ?_) ?_ rfl
      fun k hk => Or.inl ?_
    · rw [hentries] at hmem
      rcases List.mem_append.mp hmem with hmem | hmem
      · exact hold s' rfl hset (fun _ => id) rfl k msg hmem
      · obtain ⟨rfl, rfl⟩ := Prod.mk.inj (List.mem_singleton.mp hmem)
        have hsub : (x.header.submessageCount - 1).toNat = m.submessages.length - 1 := by
          rw [toNat_sub_one (by omega), hcount]
        refine ⟨m, hm, harr.messageHash.symm, [], hp.transfer rfl (fun d hd => by rwa [hset]),
          harr.userHeaderOf c, ?_, ?_, fun hnf q hq hd => ?_⟩
        · simp only [hsub]
          omega
        · rw [inFlight_of_holder (s := s') rfl]
          simp only [hsub, Handler.inFlight, if_true, List.length_nil]
          omega
        · rw [hset] at hd
          exact absurd hd (hnone hnf q hq)
    · refine ⟨m, hm, q, ⟨harr.mem, harr.header, harr.data, harr.last⟩, harr.userHeaderOf c, ?_,
        fun _ => ?_⟩
      · intro k msg hmem hpay
        rw [hentries] at hmem
        rcases List.mem_append.mp hmem with hmem | hmem
        · exact absurd hpay (hne k msg hmem)
        · obtain ⟨rfl, rfl⟩ := Prod.mk.inj (List.mem_singleton.mp hmem)
          exact harr.messageHash
      · rw [hentries, ← harr.messageHash]
        exact ⟨_, List.mem_append_right _ (List.mem_singleton_self _), rfl⟩
    · obtain ⟨msg, hmem⟩ := VectorMap.exists_of_mem_keys hk
      refine VectorMap.mem_keys_of_mem_entries (t := msg) ?_
      rw [hentries]
      exact List.mem_append_left _ hmem
  · set s' := ((s.record (.rejected x.header.messageHash c)).record
      (.released c x.publisher)).goto
      (some (.receiveTake x (State.userHeaderOf x.header c) c false)) with hs'
    have hlog : ∃ events, s'.log = events ++ s.log ∧ ∀ e ∈ events, e.isQuiet = true :=
      ⟨[.released c x.publisher, .rejected x.header.messageHash c], rfl, by simp [Event.isQuiet]⟩
    have hset : settled s' = settled s := settled_advance hh rfl rfl rfl hlog
    refine hs.advance hh rfl rfl rfl hlog
      (hold s' rfl hset (fun k hf => hf.mono [_, _]) rfl) ?_ rfl fun k hk => Or.inl hk
    refine ⟨m, hm, q, ⟨harr.mem, harr.header, harr.data, harr.last⟩, harr.userHeaderOf c,
      fun k msg hmem hpay => absurd hpay (hne k msg hmem), fun hnf => absurd ?_ hnf⟩
    exact ⟨.rejected x.header.messageHash c, by simp [hs'], by simp [Event.fails, harr.messageHash]⟩

/-- The end of the work on a datagram: it settles. -/
theorem settled_settle (hr' : s'.holder.any Handler.receiving = false)
    (hlog : ∃ events, s'.log = events ++ s.log ∧ ∀ e ∈ events, e.isQuiet = true) :
    settled s' = delivered s.log := by
  obtain ⟨events, hlog, hev⟩ := hlog
  rw [settled_of_not_receiving hr', hlog, delivered_append_quiet hev]

theorem Assembly.settle (hs : Assembly ms s) {h : Handler} {q : Submessage}
    (hms : (ms.map SentMessage.hash).Nodup) (hm : m ∈ ms) (harr : Arriving s m q x)
    (hh : s.holder = some h) (hr : h.receiving = true)
    (hr' : s'.holder.any Handler.receiving = false)
    (hlog : ∃ events, s'.log = events ++ s.log ∧ ∀ e ∈ events, e.isQuiet = true)
    (hentries : ∀ k msg, (k, msg) ∈ s'.segmented.entries → ∃ m ∈ ms, m.hash = k ∧ EntryOk s' m msg)
    (hholder : ∀ h', s'.holder = some h' → HolderOk ms s' h')
    (hpub : ∀ k, h.publishing = some k → s'.holder.bind Handler.publishing = some k)
    (hkeys : ∀ k ∈ s.segmented.keys, k ∈ s'.segmented.keys)
    (hself : ¬ Failed s'.log m.hash →
      m.hash ∈ s'.segmented.keys ∨ s'.holder.bind Handler.publishing = some m.hash) :
    Assembly ms s' := by
  have hset : settled s' = delivered s.log := settled_settle hr' hlog
  obtain ⟨events, hlog, hev⟩ := hlog
  refine ⟨hentries, hholder, ?_, fun m₁ hm₁ hp q₁ hq₁ => ?_, fun m₁ hm₁ hnf q₁ hq₁ hd => ?_⟩
  · rw [hlog]
    exact hs.log.append hev
  · rw [hset]
    rw [hlog, published_append_quiet hev] at hp
    exact settled_subset_delivered _ (hs.published m₁ hm₁ hp q₁ hq₁)
  · rw [hset] at hd
    by_cases heq : m₁.hash = m.hash
    · obtain rfl : m₁ = m := eq_of_hash hms hm₁ hm heq
      rcases hself hnf with h | h
      · exact Or.inl h
      · exact Or.inr (Or.inl h)
    · have hold := harr.mem_settled hh hr hd (ne_of_hash_ne harr.mem hq₁ heq)
      rw [hlog] at hnf
      rcases hs.complete m₁ hm₁ (fun hf => hnf (hf.mono events)) q₁ hq₁ hold with hk | hpb | hp
      · exact Or.inl (hkeys _ hk)
      · rw [hh, Option.bind_some] at hpb
        exact Or.inr (Or.inl (hpub _ hpb))
      · rw [hlog]
        exact Or.inr (Or.inr (hp.mono events))

/-- The entries of the other messages when a datagram settles. -/
theorem EntryOk.settle {h : Handler} {q : Submessage} {m₁ : SentMessage} {msg : SegmentedMessage}
    (he : EntryOk s m₁ msg) (harr : Arriving s m q x) (hh : s.holder = some h)
    (hr : h.receiving = true) (hr' : s'.holder.any Handler.receiving = false)
    (hlog : ∃ events, s'.log = events ++ s.log ∧ ∀ e ∈ events, e.isQuiet = true)
    (hchunk : s'.chunks[msg.userPayload]? = s.chunks[msg.userPayload]?)
    (hne : ¬ Failed s'.log m₁.hash → m₁.hash ≠ m.hash)
    (hflight : inFlight s msg.userPayload = 0) : EntryOk s' m₁ msg := by
  have hset : settled s' = delivered s.log := settled_settle hr' hlog
  refine he.transfer hchunk (fun d hd => ?_) (fun hf => ?_) (fun hnf q₁ hq₁ hd => ?_) ?_
  · rw [hset]
    exact settled_subset_delivered d hd
  · obtain ⟨events, hlog, -⟩ := hlog
    rw [hlog]
    exact hf.mono events
  · rw [hset] at hd
    exact harr.mem_settled hh hr hd (ne_of_hash_ne harr.mem hq₁ (hne hnf))
  · rw [hflight, inFlight]
    cases hh' : s'.holder with
    | none => rfl
    | some h' =>
      rw [hh'] at hr'
      cases h' <;> first | rfl | cases hr'

/-- The loan fails. -/
theorem Assembly.loan_failed (hs : Assembly ms s)
    (hms : (ms.map SentMessage.hash).Nodup) (hh : s.holder = some (.receiveLoan x)) :
    Assembly ms ((s.record (.loanFailed x.header.messageHash)).goto none) := by
  obtain ⟨m, hm, q, harr⟩ := hs.holder _ hh
  have hlog : ∃ events, ((s.record (.loanFailed x.header.messageHash)).goto none).log
      = events ++ s.log ∧ ∀ e ∈ events, e.isQuiet = true :=
    ⟨[.loanFailed x.header.messageHash], rfl, by simp [Event.isQuiet]⟩
  have hfail : Failed ((s.record (.loanFailed x.header.messageHash)).goto none).log m.hash :=
    ⟨_, List.mem_cons_self, by simp [Event.fails, harr.messageHash]⟩
  refine hs.settle hms hm harr hh rfl rfl hlog (fun k msg hmem => ?_) (by simp) (by
    simp [Handler.publishing]) (fun k hk => hk) fun hnf => absurd hfail hnf
  obtain ⟨m₁, hm₁, hk₁, he₁⟩ := hs.entries k msg hmem
  refine ⟨m₁, hm₁, hk₁, he₁.settle harr hh rfl rfl hlog rfl (fun hnf heq => ?_) ?_⟩
  · exact hnf (heq ▸ hfail)
  · rw [inFlight_of_holder hh]
    rfl

/-- What `takeNext` does with a datagram of the message. -/
theorem Arriving.takeNext_eq {q : Submessage} (ha : Arriving s m q x) (c : ChunkId) :
    s.takeNext x (State.userHeaderOf m.header c) c =
      { s with
        chunks := s.chunks.modify c fun chunk => chunk.write (takeNextRange q.header).part
          (takeNextRange q.header).offset q.data
        log := .written c (takeNextRange q.header) :: s.log } := by
  rw [State.takeNext, ha.takeNextTarget]
  simp only [ha.header, ha.data]

/-- The progress of a chunk when the datagram in flight is copied. -/
theorem Progress.write {q : Submessage} {h : Handler} {c : ChunkId} {written : List Submessage}
    (hp : Progress s m c written) (harr : Arriving s m q x) (hclean : Clean ms s.log)
    (hh : s.holder = some h) (hr : h.receiving = true)
    (hchunks : s'.chunks = s.chunks.modify c fun chunk => chunk.write
      (takeNextRange q.header).part (takeNextRange q.header).offset q.data)
    (hset : settled s' = delivered s.log) : Progress s' m c (q :: written) := by
  obtain ⟨chunk, hc, hshape, hfilled⟩ := hp.chunk
  refine ⟨⟨_, ?_, hshape.write _ _ _, hfilled.write hshape (SentMessage.piece harr.mem)⟩, ?_, ?_⟩
  · rw [hchunks]
    simp [hc]
  · refine List.nodup_cons.mpr ⟨fun hq => ?_, hp.nodup⟩
    exact harr.fresh hclean hh hr (hp.mem q hq).2
  · intro q₁ hq₁
    rw [hset]
    rcases List.mem_cons.mp hq₁ with rfl | hq₁
    · exact ⟨harr.mem, harr.mem_delivered⟩
    · exact ⟨(hp.mem q₁ hq₁).1, settled_subset_delivered _ (hp.mem q₁ hq₁).2⟩

/-- The copy of a datagram that is not the last of its message. -/
theorem Assembly.take (hs : Assembly ms s) (ha : Accounted s) (hclean : Clean ms s.log)
    (hms : (ms.map SentMessage.hash).Nodup) {userHeader : Option ChunkId} {c : ChunkId}
    (hh : s.holder = some (.receiveTake x userHeader c false)) :
    Assembly ms ((s.takeNext x userHeader c).goto none) := by
  obtain ⟨m, hm, q, harr, rfl, hsole, hentry⟩ := hs.holder _ hh
  rw [harr.takeNext_eq]
  set s' := State.goto { s with
    chunks := s.chunks.modify c fun chunk => chunk.write (takeNextRange q.header).part
      (takeNextRange q.header).offset q.data
    log := .written c (takeNextRange q.header) :: s.log } none with hs'
  have hlog : ∃ events, s'.log = events ++ s.log ∧ ∀ e ∈ events, e.isQuiet = true :=
    ⟨[.written c (takeNextRange q.header)], rfl, by simp [Event.isQuiet]⟩
  have hset : settled s' = delivered s.log := settled_settle rfl hlog
  have hfail : ∀ k, Failed s'.log k ↔ Failed s.log k := by
    refine fun k => ⟨fun ⟨e, he, hf⟩ => ?_, fun hf => hf.mono [_]⟩
    rcases List.mem_cons.mp he with rfl | he
    · cases hf
    · exact ⟨e, he, hf⟩
  refine hs.settle hms hm harr hh rfl rfl hlog (fun k msg hmem => ?_) (by simp [hs'])
    (by simp [Handler.publishing]) (fun k hk => hk) fun hnf => ?_
  · obtain ⟨m₁, hm₁, hk₁, he₁⟩ := hs.entries k msg hmem
    refine ⟨m₁, hm₁, hk₁, ?_⟩
    by_cases hpay : msg.userPayload = c
    · -- the entry of this chunk: what was in flight is now written
      obtain rfl : m₁ = m := eq_of_hash hms hm₁ hm (hk₁.trans (hsole k msg hmem hpay))
      obtain ⟨written, hp, huh, hpos, hcount, hall⟩ := he₁
      rw [inFlight_of_holder hh] at hcount
      refine ⟨q :: written, ?_, huh, hpos, ?_, fun hnf q₁ hq₁ hd => ?_⟩
      · rw [hpay] at hp ⊢
        exact hp.write harr hclean hh rfl rfl hset
      · simp only [Handler.inFlight, if_pos hpay.symm] at hcount
        rw [show inFlight s' msg.userPayload = 0 from rfl, List.length_cons]
        omega
      · rw [hset] at hd
        by_cases heq : q₁ = q
        · exact heq ▸ List.mem_cons_self
        · rw [hfail] at hnf
          exact List.mem_cons_of_mem _ (hall hnf q₁ hq₁ (harr.mem_settled hh rfl hd heq))
    · -- another chunk, and unless the message has failed, another message
      refine he₁.settle harr hh rfl rfl hlog ?_ (fun hnf heq => ?_) ?_
      · simp [hs', Ne.symm hpay]
      · obtain rfl : m₁ = m := eq_of_hash hms hm₁ hm heq
        rw [hfail] at hnf
        obtain ⟨msg₀, hmem₀, hpay₀⟩ := hentry hnf
        have hkeys : (s.segmented.entries.map Prod.fst).Nodup := VectorMap.keys_eq _ ▸ ha.keys
        have := List.inj_on_of_nodup_map hkeys hmem hmem₀ hk₁.symm
        rw [(Prod.mk.inj this).2] at hpay
        exact hpay hpay₀
      · rw [inFlight_of_holder hh]
        exact if_neg fun h => hpay h.symm
  · rw [hfail] at hnf
    obtain ⟨msg₀, hmem₀, -⟩ := hentry hnf
    exact Or.inl (VectorMap.mem_keys_of_mem_entries hmem₀)

/-- The copy of the last datagram: the chunk holds the message. -/
theorem Assembly.take_last (hs : Assembly ms s) (ha : Accounted s) (hclean : Clean ms s.log)
    (hms : (ms.map SentMessage.hash).Nodup) {userHeader : Option ChunkId} {c : ChunkId}
    (hh : s.holder = some (.receiveTake x userHeader c true)) :
    Assembly ms ((s.takeNext x userHeader c).goto (some (.receivePublish x c))) := by
  obtain ⟨m, hm, q, harr, rfl, hkeys, written, hp, hlen⟩ := hs.holder _ hh
  rw [harr.takeNext_eq]
  set s' := State.goto { s with
    chunks := s.chunks.modify c fun chunk => chunk.write (takeNextRange q.header).part
      (takeNextRange q.header).offset q.data
    log := .written c (takeNextRange q.header) :: s.log } (some (.receivePublish x c)) with hs'
  have hlog : ∃ events, s'.log = events ++ s.log ∧ ∀ e ∈ events, e.isQuiet = true :=
    ⟨[.written c (takeNextRange q.header)], rfl, by simp [Event.isQuiet]⟩
  have hset : settled s' = delivered s.log := settled_settle rfl hlog
  have hp' : Progress s' m c (q :: written) := hp.write harr hclean hh rfl rfl hset
  -- as many distinct submessages as the message has
  have hall : ∀ q₁ ∈ m.submessages, q₁ ∈ q :: written := by
    have hsub : (q :: written).Subperm m.submessages :=
      List.subperm_of_subset hp'.nodup fun q₁ hq₁ => (hp'.mem q₁ hq₁).1
    have hperm := hsub.perm_of_length_le (by rw [List.length_cons, hlen])
    exact fun q₁ hq₁ => hperm.mem_iff.mpr hq₁
  refine hs.settle hms hm harr hh rfl rfl hlog (fun k msg hmem => ?_) (fun h' hh' => ?_)
    (fun k hk => hk) (fun k hk => hk) fun _ => Or.inr ?_
  · obtain ⟨m₁, hm₁, hk₁, he₁⟩ := hs.entries k msg hmem
    refine ⟨m₁, hm₁, hk₁, he₁.settle harr hh rfl rfl hlog ?_ (fun _ heq => ?_) ?_⟩
    · simp [hs', Ne.symm (ha.payload_ne_owned hh rfl hmem)]
    · exact hkeys (heq ▸ hk₁ ▸ VectorMap.mem_keys_of_mem_entries hmem)
    · rw [inFlight_of_holder hh]
      rfl
  · obtain rfl := Option.some.inj hh'
    obtain ⟨chunk, hc, hshape, hfilled⟩ := hp'.chunk
    have hdel : delivered s'.log = delivered s.log := rfl
    refine ⟨m, hm, harr.messageHash, ⟨chunk, hc, SentMessage.holds_of_filled hshape hfilled hall⟩,
      fun d hd => ?_, ⟨q.datagram, List.mem_map_of_mem harr.mem, harr.last⟩, ?_⟩
    · obtain ⟨q₁, hq₁, rfl⟩ := List.mem_map.mp hd
      rw [hdel, ← hset]
      exact (hp'.mem q₁ (hall q₁ hq₁)).2
    · obtain ⟨events, hlog, hev⟩ := hlog
      rw [hlog, published_append_quiet hev]
      exact harr.not_published hs hm hclean hh rfl
  · exact congrArg some harr.messageHash

/-- The message is published. -/
theorem Assembly.publish (hs : Assembly ms s) (hms : (ms.map SentMessage.hash).Nodup) {c : ChunkId}
    (hh : s.holder = some (.receivePublish x c)) : Assembly ms ((s.publish x c).goto none) := by
  obtain ⟨m, hm, hhash, ⟨chunk, hc, hholds⟩, hall, hlast, hnp⟩ := hs.holder _ hh
  set s' := (s.publish x c).goto none with hs'
  have hset : settled s = delivered s.log := settled_of_not_receiving (by rw [hh]; rfl)
  have hset' : settled s' = settled s := by
    rw [hset]
    rfl
  have hpub : ∀ k, Published s'.log k ↔ k = m.hash ∨ Published s.log k := by
    intro k
    refine ⟨fun ⟨e, he, hf⟩ => ?_, fun h => ?_⟩
    · rcases List.mem_cons.mp he with rfl | he
      · exact Or.inl ((of_decide_eq_true hf).symm.trans hhash)
      · rcases List.mem_cons.mp he with rfl | he
        · cases hf
        · exact Or.inr ⟨e, he, hf⟩
    · rcases h with rfl | hp
      · exact ⟨_, List.mem_cons_self, decide_eq_true hhash⟩
      · exact hp.mono [_, _]
  refine ⟨fun k msg hmem => ?_, by simp [hs'], ⟨?_, by simp, hs.log⟩, fun m₁ hm₁ hp q hq => ?_,
    fun m₁ hm₁ hnf q hq hd => ?_⟩
  · obtain ⟨m₁, hm₁, hk₁, he₁⟩ := hs.entries k msg hmem
    refine ⟨m₁, hm₁, hk₁, he₁.transfer rfl (fun d hd => by rwa [hset'])
      (fun hf => hf.mono [_, _]) (fun _ q _ hq => by rwa [hset'] at hq) ?_⟩
    rw [inFlight_of_holder hh]
    rfl
  · rintro c' p k content heq
    obtain ⟨rfl, rfl, rfl, rfl⟩ : c = c' ∧ x.publisher = p ∧ x.header.messageHash = k ∧
      s.chunks[c]? = content := by simpa using heq
    refine ⟨m, hm, hhash.symm, ⟨chunk, hc, hholds⟩, hall, hlast, ?_⟩
    rw [hhash]
    rintro ⟨e, he, hf⟩
    rcases List.mem_cons.mp he with rfl | he
    · cases hf
    · exact hnp ⟨e, he, hf⟩
  · rw [hset', hset]
    rcases (hpub _).mp hp with heq | hp
    · obtain rfl : m₁ = m := eq_of_hash hms hm₁ hm heq
      exact hall _ (List.mem_map_of_mem hq)
    · rw [← hset]
      exact hs.published m₁ hm₁ hp q hq
  · rw [hset'] at hd
    rcases hs.complete m₁ hm₁ (fun hf => hnf (hf.mono [_, _])) q hq hd with hk | hpb | hp
    · exact Or.inl hk
    · rw [hh] at hpb
      exact Or.inr (Or.inr ((hpub _).mpr (Or.inl ((Option.some.inj hpb).symm.trans hhash))))
    · exact Or.inr (Or.inr ((hpub _).mpr (Or.inr hp)))

end Receive

/-! ## Every run -/

/-- The labels of a run of `receive`, with sweeps and channel updates. -/
def Label.isReceiveRun : Label → Bool
  | .loanBuffer _ => false
  | .releaseBuffer _ _ _ => false
  | _ => true

theorem quiet_deleteChannel {service : ServiceDescription}
    {toDelete toSetup : List ServiceDescription}
    (hh : s.holder = some (.updateChannels (service :: toDelete) toSetup)) :
    Quiet s ((s.deleteChannel getClassHash service).goto
      (some (.updateChannels toDelete toSetup))) := by
  have hidle : Idle s := fun h hh' => ⟨_, _, Option.some.inj (hh'.symm.trans hh)⟩
  have hidle' : ∀ s' : State, Idle (s'.goto (some (.updateChannels toDelete toSetup))) :=
    fun s' h hh' => ⟨_, _, (Option.some.inj hh').symm⟩
  unfold State.deleteChannel
  split
  · exact ⟨rfl, fun _ _ h => h, fun _ _ h => Or.inl h, ⟨[], rfl, by simp⟩,
      Or.inr ⟨hidle, hidle' _⟩⟩
  · rename_i e endpoints _
    have hentries := (SegmentedTable.releaseAll_eq s.segmented e.id).1
    refine ⟨rfl, fun k msg hmem => ?_, fun k msg hmem => ?_, ⟨_, rfl, fun ev hev => ?_⟩,
      Or.inr ⟨hidle, hidle' _⟩⟩
    · rw [State.goto_segmented, hentries] at hmem
      exact List.mem_of_mem_filter hmem
    · by_cases hp : msg.publisher = e.id
      · refine Or.inr ⟨.discarded k msg.userPayload, ?_, by simp [Event.fails]⟩
        refine List.mem_append_left _ (List.mem_append_right _ ?_)
        refine List.mem_map.mpr ⟨(k, msg), ?_, rfl⟩
        exact List.mem_filter.mpr ⟨hmem, by simp [hp]⟩
      · refine Or.inl ?_
        rw [State.goto_segmented, hentries]
        exact List.mem_filter.mpr ⟨hmem, by simp [hp]⟩
    · simp only [List.mem_append, List.mem_reverse, List.mem_map] at hev
      rcases hev with ⟨msg, -, rfl⟩ | ⟨m, -, rfl⟩ <;> rfl

theorem quiet_sweep {i : Nat} {w : Sweep} (h : s.proceedSweep i w = some s') :
    Quiet s s' := by
  rcases proceedSweep_cases h with ⟨-, -, rfl⟩ | ⟨k, msg, t, -, ht, rfl⟩ | ⟨msg, -, -, rfl⟩
  · exact ⟨rfl, fun _ _ h => h, fun _ _ h => Or.inl h, ⟨[], rfl, by simp⟩, Or.inl rfl⟩
  · obtain ⟨j, hj, rfl⟩ := SegmentedTable.takeExpired_eq_some ht
    refine ⟨rfl, fun _ _ h => VectorMap.mem_entries_of_mem_erase h, fun k' msg' hmem => ?_,
      ⟨[.timedOut k msg.userPayload], rfl, by simp [Event.isQuiet]⟩, Or.inl rfl⟩
    by_cases hk : k' = k
    · exact Or.inr ⟨_, List.mem_cons_self, by simp [Event.fails, hk]⟩
    · exact Or.inl (VectorMap.mem_erase_of_ne hj hmem hk)
  · exact ⟨rfl, fun _ _ h => h, fun _ _ h => Or.inl h,
      ⟨[.released msg.userPayload msg.publisher], rfl, by simp [Event.isQuiet]⟩, Or.inl rfl⟩

/-- The sections of the holder. -/
theorem Assembly.proceed (hs : Assembly ms s) (ha : Accounted s) (hclean : Clean ms s.log)
    (hms : (ms.map SentMessage.hash).Nodup) {h : Handler} (hh : s.holder = some h) (now : Time)
    (answer : Option (Nat → Byte)) : Assembly ms (s.proceed getClassHash now answer h) := by
  cases h with
  | receiveFind x =>
    rw [State.proceed]
    cases hf : s.segmented.findAndDecrement x.header.messageHash with
    | none => exact hs.find_none hh
    | some r =>
      obtain ⟨msg, shouldPublish, t⟩ := r
      obtain ⟨i, hi, ⟨rfl, hlast, rfl⟩ | ⟨rfl, hne, rfl⟩⟩ :=
        SegmentedTable.findAndDecrement_eq_some hf
      · exact hs.find_last ha hms hh hi hlast
      · exact hs.find_some ha hms hh hi hne rfl
  | receiveLoan x =>
    cases answer with
    | none => exact hs.loan_failed hms hh
    | some fill => exact hs.loan ha hclean hh fill
  | receivePush x c => exact hs.push ha hh now
  | receiveTake x userHeader c shouldPublish =>
    cases shouldPublish with
    | false => exact hs.take ha hclean hms hh
    | true => exact hs.take_last ha hclean hms hh
  | receivePublish x c => exact hs.publish hms hh
  | updateChannels toDelete toSetup =>
    have hidle : Idle s := fun h hh' => ⟨_, _, Option.some.inj (hh'.symm.trans hh)⟩
    cases toDelete with
    | cons service toDelete => exact hs.quiet (quiet_deleteChannel hh)
    | nil =>
      cases toSetup with
      | cons service toSetup =>
        exact hs.quiet ⟨rfl, fun _ _ h => h, fun _ _ h => Or.inl h, ⟨[], rfl, by simp⟩,
          Or.inr ⟨hidle, fun h hh' => ⟨_, _, (Option.some.inj hh').symm⟩⟩⟩
      | nil =>
        exact hs.quiet ⟨rfl, fun _ _ h => h, fun _ _ h => Or.inl h, ⟨[], rfl, by simp⟩,
          Or.inr ⟨hidle, fun h hh' => by simp [State.proceed] at hh'⟩⟩
  | loanFind x => exact (hs.holder _ hh).elim
  | loanLoan x => exact (hs.holder _ hh).elim
  | loanPush x c => exact (hs.holder _ hh).elim
  | loanReturn x userHeader c => exact (hs.holder _ hh).elim
  | releaseRelease x => exact (hs.holder _ hh).elim
  | releaseDecrement x => exact (hs.holder _ hh).elim
  | releasePublish x c => exact (hs.holder _ hh).elim

/-- The log only grows. -/
theorem step_log {l : Label} (h : step getClassHash s l = some s') :
    ∃ events, s'.log = events ++ s.log := by
  rcases step_cases h with ⟨-, events, _, rfl, -, -⟩ | ⟨_, -, rfl⟩ | ⟨hd, now, answer, -, -, rfl⟩ |
    ⟨i, w, -, -, hsweep⟩
  · exact ⟨events, rfl⟩
  · exact ⟨[], rfl⟩
  · obtain ⟨events, hlog, -⟩ := proceed_log getClassHash s now answer hd
    exact ⟨events, hlog⟩
  · rcases proceedSweep_cases hsweep with ⟨-, -, rfl⟩ | ⟨_, _, _, -, -, rfl⟩ | ⟨_, -, -, rfl⟩
    · exact ⟨[], rfl⟩
    · exact ⟨[_], rfl⟩
    · exact ⟨[_], rfl⟩

/-- **One step keeps the invariant**, as long as the log stays clean. -/
theorem assembly_step {l : Label} (hms : (ms.map SentMessage.hash).Nodup) (hs : Assembly ms s)
    (ha : Accounted s) (hl : l.isReceiveRun = true) (h : step getClassHash s l = some s')
    (hclean : Clean ms s'.log) : Assembly ms s' := by
  have hclean₀ : Clean ms s.log := by
    obtain ⟨events, hlog⟩ := step_log h
    rw [hlog] at hclean
    exact hclean.of_append
  cases l with
  | receive datagram device =>
    simp only [step] at h
    split at h
    · rename_i hfree
      have hidle : Idle s := fun h hh' => by
        rw [hfree] at hh'
        cases hh'
      obtain ⟨hd, n, hdes, ⟨-, rfl⟩ | ⟨-, -, rfl⟩ | ⟨e, -, -, rfl⟩⟩ := receive_eq_some h
      · exact hs
      · exact hs.quiet ⟨rfl, fun _ _ h => h, fun _ _ h => Or.inl h,
          ⟨[.noChannel hd.messageHash], rfl, by simp [Event.isQuiet]⟩, Or.inl rfl⟩
      · exact hs.deliver hfree hdes hclean
    · cases h
  | loanBuffer header => cases hl
  | releaseBuffer header shouldRelease device => cases hl
  | updateChannels services =>
    simp only [step] at h
    split at h
    · rename_i hfree
      obtain rfl := Option.some.inj h
      refine hs.quiet ⟨rfl, fun _ _ h => h, fun _ _ h => Or.inl h, ⟨[], rfl, by simp⟩,
        Or.inr ⟨fun h hh' => ?_, fun h hh' => ⟨_, _, (Option.some.inj hh').symm⟩⟩⟩
      rw [hfree] at hh'
      cases hh'
    · cases h
  | checkSegmentedMessages now =>
    obtain rfl := Option.some.inj h
    exact hs.quiet ⟨rfl, fun _ _ h => h, fun _ _ h => Or.inl h, ⟨[], rfl, by simp⟩, Or.inl rfl⟩
  | proceed now answer =>
    obtain ⟨hd, hh, rfl⟩ := Option.map_eq_some_iff.mp h
    exact hs.proceed ha hclean₀ hms hh now answer
  | sweep i =>
    obtain ⟨w, hw, hstep⟩ := Option.bind_eq_some_iff.mp h
    exact hs.quiet (quiet_sweep hstep)

theorem assembly_init : Assembly ms State.init where
  entries := by simp [State.init]
  holder := by simp [State.init]
  log := trivial
  published := by simp [State.init, Published]
  complete := by simp [State.init, settled, delivered]

theorem assembly_run (hms : (ms.map SentMessage.hash).Nodup) {ls : List Label}
    (hls : ∀ l ∈ ls, l.isReceiveRun = true)
    (h : Run.exec (step getClassHash) State.init ls = some s) (hclean : Clean ms s.log) :
    Assembly ms s := by
  have hinv : Accounted s ∧ (Clean ms s.log → Assembly ms s) :=
    Run.invariant_guarded (fun s => Accounted s ∧ (Clean ms s.log → Assembly ms s))
      (fun s l s' hs hl hstep => by
        refine ⟨accounted_step hs.1 hstep, fun hclean => ?_⟩
        obtain ⟨events, hlog⟩ := step_log hstep
        refine assembly_step hms (hs.2 ?_) hs.1 hl hstep hclean
        rw [hlog] at hclean
        exact hclean.of_append)
      ⟨accounted_init, fun _ => assembly_init⟩ (Run.guarded_of_forall hls _) h
  exact hinv.2 hclean

/-! ## What was handed to `receive` -/

/-- The datagrams handed to `receive`, in order. -/
def received (ls : List Label) : List (List Byte) :=
  ls.filterMap fun
    | .receive datagram _ => some datagram
    | _ => none

/-- A step delivers at most the datagram of its label. -/
theorem delivered_step {l : Label} (h : step getClassHash s l = some s') :
    ∃ ds, ds.Sublist (received [l]) ∧ delivered s'.log = ds ++ delivered s.log := by
  have hquiet : ∀ events : List Event, (∀ e ∈ events, e.isArrival = false) →
      delivered (events ++ s.log) = delivered s.log := by
    intro events hev
    refine delivered_append fun e he => ?_
    have := hev e he
    cases e <;> first | rfl | cases this
  cases l with
  | receive datagram device =>
    simp only [step] at h
    split at h
    · obtain ⟨hd, n, -, ⟨-, rfl⟩ | ⟨-, -, rfl⟩ | ⟨e, -, -, rfl⟩⟩ := receive_eq_some h
      · exact ⟨[], List.nil_sublist _, rfl⟩
      · exact ⟨[], List.nil_sublist _, rfl⟩
      · exact ⟨[datagram], List.Sublist.refl _, rfl⟩
    · cases h
  | proceed now answer =>
    obtain ⟨hd, hh, rfl⟩ := Option.map_eq_some_iff.mp h
    obtain ⟨events, hlog, hev⟩ := proceed_log getClassHash s now answer hd
    refine ⟨[], List.nil_sublist _, ?_⟩
    rw [hlog, hquiet events fun e he => (hev e he).1]
    rfl
  | sweep i =>
    obtain ⟨w, hw, hstep⟩ := Option.bind_eq_some_iff.mp h
    refine ⟨[], List.nil_sublist _, (quiet_sweep hstep).delivered_eq⟩
  | checkSegmentedMessages now =>
    obtain rfl := Option.some.inj h
    exact ⟨[], List.nil_sublist _, rfl⟩
  | updateChannels services =>
    simp only [step] at h
    split at h
    · obtain rfl := Option.some.inj h
      exact ⟨[], List.nil_sublist _, rfl⟩
    · cases h
  | loanBuffer header =>
    simp only [step, loanBuffer] at h
    split at h
    · split at h
      · cases h
      · split at h <;> obtain rfl := Option.some.inj h <;> exact ⟨[], List.nil_sublist _, rfl⟩
    · cases h
  | releaseBuffer header shouldRelease device =>
    simp only [step, releaseBuffer] at h
    split at h
    · split at h
      · cases h
      · split at h <;> obtain rfl := Option.some.inj h <;> exact ⟨[], List.nil_sublist _, rfl⟩
    · cases h

theorem delivered_run {ls : List Label} (h : Run.exec (step getClassHash) s ls = some s') :
    ∃ ds, ds.Sublist (received ls).reverse ∧ delivered s'.log = ds ++ delivered s.log := by
  induction ls generalizing s with
  | nil =>
    obtain rfl : s = s' := by simpa using h
    exact ⟨[], List.nil_sublist _, rfl⟩
  | cons l ls ih =>
    obtain ⟨s₁, hstep, hrest⟩ := Run.exec_cons.mp h
    obtain ⟨ds₁, hsub₁, heq₁⟩ := delivered_step hstep
    obtain ⟨ds, hsub, heq⟩ := ih hrest
    have hcons : received (l :: ls) = received [l] ++ received ls := by
      rw [← List.singleton_append, received, List.filterMap_append]
      rfl
    refine ⟨ds ++ ds₁, ?_, by rw [heq, heq₁, List.append_assoc]⟩
    rw [hcons, List.reverse_append]
    have hone : (received [l]).reverse = received [l] := by cases l <;> rfl
    rw [hone]
    exact hsub.append hsub₁

/-- A datagram of a message passes the size check. -/
theorem sizeCheck_datagram {q : Submessage} (hq : q ∈ m.submessages) :
    sizeCheck q.datagram q.header maxIoxChunkDatagramHeaderSerializationSize = true := by
  have hlt := SentMessage.size_le hq
  unfold sizeCheck
  rw [decide_eq_true_eq, Submessage.datagram, List.length_append, length_serialize,
    SentMessage.length_data (SentMessage.piece hq), UInt32.toNat_add,
    UInt32.toNat_ofNat_of_lt' (by decide), Nat.mod_eq_of_lt]
  · exact Nat.add_comm _ _
  · exact hlt

/-- A datagram of a message that is handed to `receive` is delivered, or its channel is missing. -/
theorem delivered_of_received {ls : List Label} {q : Submessage}
    (h : Run.exec (step getClassHash) s ls = some s') (hq : q ∈ m.submessages)
    (hmem : q.datagram ∈ received ls) : q.datagram ∈ delivered s'.log ∨ Failed s'.log m.hash := by
  induction ls generalizing s with
  | nil => simp [received] at hmem
  | cons l ls ih =>
    obtain ⟨s₁, hstep, hrest⟩ := Run.exec_cons.mp h
    obtain ⟨events, hlog⟩ : ∃ events, s'.log = events ++ s₁.log :=
      Run.invariant (fun s => ∃ events, s.log = events ++ s₁.log)
        (fun _ _ _ ⟨events, hev⟩ hst => by
          obtain ⟨events', hlog⟩ := step_log hst
          exact ⟨events' ++ events, by rw [hlog, hev, List.append_assoc]⟩) ⟨[], rfl⟩ hrest
    by_cases hrec : q.datagram ∈ received ls
    · exact ih hrest hrec
    · have hl : ∃ device, l = .receive q.datagram device := by
        cases l with
        | receive datagram device =>
          rcases List.mem_cons.mp hmem with rfl | hmem
          · exact ⟨device, rfl⟩
          · exact absurd hmem hrec
        | _ => exact absurd hmem hrec
      obtain ⟨device, rfl⟩ := hl
      simp only [step] at hstep
      split at hstep
      · obtain ⟨hd, n, hdes, hcases⟩ := receive_eq_some hstep
        rw [Submessage.datagram, deserialize_serialize] at hdes
        obtain ⟨rfl, rfl⟩ := Prod.mk.inj (Option.some.inj hdes)
        rcases hcases with ⟨hbad, -⟩ | ⟨-, -, rfl⟩ | ⟨e, -, -, rfl⟩
        · rw [sizeCheck_datagram hq] at hbad
          cases hbad
        · refine Or.inr ⟨.noChannel q.header.messageHash, ?_, ?_⟩
          · rw [hlog]
            exact List.mem_append_right _ List.mem_cons_self
          · simp [Event.fails, (SentMessage.piece hq).messageHash]
        · refine Or.inl (List.mem_filterMap.mpr ⟨.delivered q.datagram, ?_, rfl⟩)
          rw [hlog]
          exact List.mem_append_right _ List.mem_cons_self
      · cases hstep

/-! ## The main result -/

/-- The message on whose datagram the handler is working. -/
def Handler.working : Handler → Option Hash
  | .receiveFind x => some x.header.messageHash
  | .receiveLoan x => some x.header.messageHash
  | .receivePush x _ => some x.header.messageHash
  | .receiveTake x _ _ _ => some x.header.messageHash
  | .receivePublish x _ => some x.header.messageHash
  | _ => none

theorem LogOk.of_mem {log newer older : List Event} {c : ChunkId} {p : PublisherId} {k : Hash}
    {content : Option Chunk} (h : LogOk ms log)
    (hlog : log = newer ++ .published c p k content :: older) :
    PublishOk ms older k content := by
  induction newer generalizing log with
  | nil =>
    rw [hlog] at h
    exact h.1 c p k content rfl
  | cons e newer ih =>
    rw [hlog] at h
    exact ih h.2 rfl

/-- A message is not published twice when no publication comes after another one. -/
theorem countP_publishesMessage_le_one {log : List Event} {k : Hash}
    (h : ∀ newer older c p content, log = newer ++ .published c p k content :: older →
      ¬ Published older k) : log.countP (Event.publishesMessage k) ≤ 1 := by
  induction log with
  | nil => exact Nat.zero_le _
  | cons e log ih =>
    have hlog : log.countP (Event.publishesMessage k) ≤ 1 :=
      ih fun newer older c p content heq => h (e :: newer) older c p content (by rw [heq]; rfl)
    rw [List.countP_cons]
    split
    case isFalse => exact hlog
    case isTrue he =>
      have hzero : log.countP (Event.publishesMessage k) = 0 := by
        rw [List.countP_eq_zero]
        intro e' he' hp
        cases e with
        | published c p k' content =>
          obtain rfl : k' = k := of_decide_eq_true he
          exact h [] log c p content rfl ⟨e', he', hp⟩
        | _ => cases he
      omega

/-- A log in which every publication is right publishes no message twice. -/
theorem LogOk.countP_le_one {log : List Event} (h : LogOk ms log) (k : Hash) :
    log.countP (Event.publishesMessage k) ≤ 1 := by
  refine countP_publishesMessage_le_one fun newer older c p content hlog => ?_
  obtain ⟨m, -, -, -, -, -, hnp⟩ := h.of_mem hlog
  exact hnp

/-- When no handler works on a datagram of the message, all its datagrams have settled. -/
theorem Assembly.settled_of_delivered (hs : Assembly ms s) {q : Submessage}
    (hq : q ∈ m.submessages) (hwork : s.holder.bind Handler.working ≠ some m.hash)
    (hd : q.datagram ∈ delivered s.log) : q.datagram ∈ settled s := by
  by_cases hr : s.holder.any Handler.receiving = true
  · obtain ⟨h, hh, hr⟩ := (Option.any_eq_true _ _).mp hr
    -- the datagram in flight is of another message
    have hother : ∃ m' ∈ ms, ∃ q' x, Arriving s m' q' x ∧
        h.working = some x.header.messageHash := by
      have hok := hs.holder h hh
      cases h with
      | receiveFind x =>
        obtain ⟨m', hm', q', ha⟩ := hok
        exact ⟨m', hm', q', x, ha, rfl⟩
      | receiveLoan x =>
        obtain ⟨m', hm', q', ha⟩ := hok
        exact ⟨m', hm', q', x, ha, rfl⟩
      | receivePush x c =>
        obtain ⟨m', hm', q', ha, -⟩ := hok
        exact ⟨m', hm', q', x, ha, rfl⟩
      | receiveTake x userHeader c shouldPublish =>
        cases shouldPublish <;> obtain ⟨m', hm', q', ha, -⟩ := hok <;>
          exact ⟨m', hm', q', x, ha, rfl⟩
      | _ => cases hr
    obtain ⟨m', -, q', x, ha, hw⟩ := hother
    refine ha.mem_settled hh hr hd (ne_of_hash_ne ha.mem hq fun heq => hwork ?_)
    rw [hh, Option.bind_some, hw, ha.messageHash, heq]
  · rw [settled_of_not_receiving (by simpa using hr)]
    exact hd

/-- An entry of the table is never complete. -/
theorem EntryOk.incomplete {msg : SegmentedMessage} (h : EntryOk s m msg)
    (hnf : ¬ Failed s.log m.hash) (hall : ∀ q ∈ m.submessages, q.datagram ∈ settled s) : False := by
  obtain ⟨written, -, -, hpos, hcount, hin⟩ := h
  have hsub : m.submessages.Subperm written :=
    List.subperm_of_subset SentMessage.nodup_submessages fun q hq => hin hnf q hq (hall q hq)
  have := hsub.length_le
  omega

/-- **Reassembly is sound and complete.**  In every run that hands datagrams of the messages to
`receive`, each at most once: what is published is exactly one of the messages; no message is
published twice; and a message all of whose datagrams are handed over, and that no failure hits,
has been published exactly once when no handler works on it any more, namely right after the last
of its datagrams was delivered. -/
theorem reassembly_sound_and_complete (getClassHash : ServiceDescription → ClassHash)
    (ms : List SentMessage) (hms : (ms.map SentMessage.hash).Nodup) (ls : List Label) (s : State)
    (hrun : Run.exec (step getClassHash) State.init ls = some s)
    (hls : ∀ l ∈ ls, l.isReceiveRun = true) (honce : (received ls).Nodup)
    (hsent : ∀ d ∈ received ls, ∃ m ∈ ms, d ∈ m.datagrams) :
    (∀ c p k content, Event.published c p k content ∈ s.log →
      ∃ m ∈ ms, m.hash = k ∧ ∃ chunk, content = some chunk ∧ m.Holds chunk) ∧
    (∀ m ∈ ms, s.log.countP (Event.publishesMessage m.hash) ≤ 1) ∧
    (∀ m ∈ ms, (∀ d ∈ m.datagrams, d ∈ received ls) → ¬ Failed s.log m.hash →
      s.holder.bind Handler.working ≠ some m.hash →
      s.log.countP (Event.publishesMessage m.hash) = 1 ∧
      ∃ newer older c p content, s.log = newer ++ .published c p m.hash content :: older ∧
        (∀ d ∈ m.datagrams, d ∈ delivered older) ∧
        ∃ d ∈ m.datagrams, (delivered older).head? = some d) := by
  obtain ⟨ds, hsub, hdel⟩ := delivered_run hrun
  have hinit : delivered State.init.log = [] := rfl
  rw [hinit, List.append_nil] at hdel
  have hclean : Clean ms s.log := by
    rw [← hdel] at hsub
    refine ⟨(List.nodup_reverse.mpr honce).sublist hsub, fun d hd => hsent d ?_⟩
    exact List.mem_reverse.mp (hsub.subset hd)
  have hs := assembly_run hms hls hrun hclean
  refine ⟨fun c p k content hmem => ?_, fun m hm => hs.log.countP_le_one _,
    fun m hm hall hnf hwork => ?_⟩
  · obtain ⟨newer, older, hlog⟩ := List.append_of_mem hmem
    obtain ⟨m, hm, hk, hholds, -⟩ := hs.log.of_mem hlog
    exact ⟨m, hm, hk, hholds⟩
  · have hset : ∀ q ∈ m.submessages, q.datagram ∈ settled s := by
      intro q hq
      refine hs.settled_of_delivered hq hwork ?_
      rcases delivered_of_received hrun hq (hall _ (List.mem_map_of_mem hq)) with h | h
      · exact h
      · exact absurd h hnf
    obtain ⟨q, hq⟩ := List.exists_mem_of_ne_nil _ (SentMessage.submessages_ne_nil m)
    have hpub : Published s.log m.hash := by
      rcases hs.complete m hm hnf q hq (hset q hq) with hk | hpb | hp
      · obtain ⟨msg, hmem⟩ := VectorMap.exists_of_mem_keys hk
        obtain ⟨m', hm', hk', he⟩ := hs.entries _ _ hmem
        obtain rfl : m' = m := eq_of_hash hms hm' hm hk'
        exact (he.incomplete hnf hset).elim
      · cases hh : s.holder with
        | none => simp [hh] at hpb
        | some h =>
          rw [hh, Option.bind_some] at hpb hwork
          refine absurd ?_ hwork
          cases h with
          | receiveTake x userHeader c shouldPublish =>
            cases shouldPublish with
            | true => exact hpb
            | false => cases hpb
          | receivePublish x c => exact hpb
          | _ => cases hpb
      · exact hp
    obtain ⟨e, he, hp⟩ := hpub
    refine ⟨Nat.le_antisymm (hs.log.countP_le_one _)
      (List.countP_pos_iff.mpr ⟨e, he, hp⟩), ?_⟩
    cases e with
    | published c p k content =>
      obtain rfl : k = m.hash := of_decide_eq_true hp
      obtain ⟨newer, older, hlog⟩ := List.append_of_mem he
      obtain ⟨m', hm', hk', -, hdels, hlast, -⟩ := hs.log.of_mem hlog
      obtain rfl : m' = m := eq_of_hash hms hm' hm hk'
      exact ⟨newer, older, c, p, content, hlog, hdels, hlast⟩
    | _ => cases hp

/-! ## A run -/

/-- A message of two bytes, for a transport with room for one byte in a datagram. -/
def demoMessage : SentMessage where
  header := demoHeader 9 0
  userHeader := []
  userPayload := [7, 8]
  maxMessageSize := 45
  userHeaderSize_eq := rfl
  userPayloadSize_eq := rfl
  nonempty := by decide
  header_lt_max := by decide
  fits := by decide

/-- Both datagrams of the message are received, the second one first. -/
def demoRun : List Label :=
  demoSetup ++
    [.receive (serialize (demoHeader 9 1) ++ [8]) ⟨.udp, 0⟩, .proceed 0 none,
      .proceed 0 (some fun _ => 0), .proceed 0 none, .proceed 0 none,
      .receive (serialize (demoHeader 9 0) ++ [7]) ⟨.udp, 0⟩, .proceed 0 none, .proceed 0 none,
      .proceed 0 none]

/-- The message is published once. -/
theorem reassembly_sound_and_complete_demo :
    ∃ s, Run.exec (step demoClassHash) State.init demoRun = some s ∧
      s.log.countP (Event.publishesMessage 9) = 1 := by
  refine ⟨_, rfl, ?_⟩
  have hdatagrams : demoMessage.datagrams
      = [serialize (demoHeader 9 0) ++ [7], serialize (demoHeader 9 1) ++ [8]] := by decide +kernel
  refine ((reassembly_sound_and_complete demoClassHash [demoMessage] (by simp) demoRun _ rfl
    (by decide) (by decide +kernel) ?_).2.2 demoMessage (by simp) ?_ ?_ ?_).1
  · intro d hd
    refine ⟨demoMessage, by simp, ?_⟩
    rw [hdatagrams]
    simpa [received, demoRun, demoSetup, or_comm] using hd
  · intro d hd
    rw [hdatagrams] at hd
    simpa [received, demoRun, demoSetup, or_comm] using hd
  · rintro ⟨e, he, hf⟩
    revert e
    decide +kernel
  · decide

end P3com.TransportToIox
