/-
# One message on two paths

A transport hands a submessage to `Transport2Iceoryx` in one of two ways: it calls `receive`, which
copies, or it calls `loanBuffer`, fills the buffer itself and calls `releaseBuffer` with
`shouldRelease` false.  Which one it takes may differ between the submessages of one message, and
`receive`, `loanBuffer` and `releaseBuffer` share the counter of the table entry.

The two paths count differently.  `receive` stores `submessageCount - 1`, because its own
submessage is there already, and nothing at all for a message of one submessage; `loanBuffer`
stores `submessageCount`, because its submessage will be counted when the buffer is released.
They agree: whatever the mix and the order, the message has one chunk, and the call that completes
the last submessage publishes it (`mixed_paths_publish_once`).

The sections in which a call gets hold of the chunk, gives it back or publishes it are recorded in
a trace, and the protocol of the transports is a condition on the trace.  A call that finds no
channel, or whose loan is refused, does not deliver its submessage and is not in the trace.
-/
import P3com.Gateway.Isolation
import P3com.Gateway.Reassembly

namespace P3com.TransportToIox

variable {getClassHash : ServiceDescription → ClassHash} {s s' : State}

/-! ## Messages -/

/-- The headers of the submessages of one message. -/
structure MessageHeaders where
  messageHash : Hash
  headers : List IoxChunkDatagramHeader
  nodup : headers.Nodup
  ne_nil : headers ≠ []
  messageHash_eq : ∀ h ∈ headers, h.messageHash = messageHash
  submessageCount_eq : ∀ h ∈ headers, h.submessageCount.toNat = headers.length

/-- The headers that `writeSegmented` writes for a message. -/
def MessageHeaders.ofSent (m : SentMessage) : MessageHeaders where
  messageHash := m.hash
  headers := m.submessages.map Submessage.header
  nodup := by
    refine List.pairwise_map.mpr (List.Pairwise.imp_of_mem (fun {q q'} hq _ hle heq => ?_)
      m.cut.2.2)
    have hpos := (SentMessage.piece hq).pos
    have hoffset : q.offset = q'.offset := congrArg (fun h => h.submessageOffset.toNat) heq
    unfold Submessage.stop at hle
    omega
  ne_nil := by simpa using m.submessages_ne_nil
  messageHash_eq := by
    intro h hh
    obtain ⟨q, hq, rfl⟩ := List.mem_map.mp hh
    exact (SentMessage.piece hq).messageHash
  submessageCount_eq := by
    intro h hh
    obtain ⟨q, hq, rfl⟩ := List.mem_map.mp hh
    rw [List.length_map]
    exact (SentMessage.piece hq).submessageCount

/-! ## The trace -/

/-- What the calls for a message do with its chunk. -/
inductive Act
  | loaned (c : ChunkId)
  /-- `receive` has the chunk into which it will copy the submessage. -/
  | received (h : IoxChunkDatagramHeader) (c : ChunkId)
  /-- `loanBuffer` has the chunk into which the transport will write the submessage. -/
  | lent (h : IoxChunkDatagramHeader) (c : ChunkId)
  /-- `releaseBuffer` with `shouldRelease` false, and the chunk that it finds. -/
  | returned (h : IoxChunkDatagramHeader) (c : Option ChunkId)
  /-- `releaseBuffer` with `shouldRelease` true. -/
  | givenUp (h : IoxChunkDatagramHeader)
  | published (h : IoxChunkDatagramHeader) (c : ChunkId)
deriving DecidableEq

namespace Act

/-- The chunk to which the call refers. -/
def chunk : Act → Option ChunkId
  | .loaned c | .received _ c | .lent _ c | .published _ c => some c
  | .returned _ c => c
  | .givenUp _ => none

/-- The calls of the transports, without their chunks. -/
inductive Kind
  | received
  | lent
  | returned
  | givenUp
deriving DecidableEq

/-- The call of a transport and the submessage that it is about. -/
def call : Act → Option (IoxChunkDatagramHeader × Kind)
  | .received h _ => some (h, .received)
  | .lent h _ => some (h, .lent)
  | .returned h _ => some (h, .returned)
  | .givenUp h => some (h, .givenUp)
  | .loaned _ | .published _ _ => none

/-- The submessage that is complete with this call. -/
def completes : Act → Option IoxChunkDatagramHeader
  | .received h _ | .returned h _ => some h
  | _ => none

def isLoan : Act → Bool
  | .loaned _ => true
  | _ => false

def isPublication : Act → Bool
  | .published _ _ => true
  | _ => false

end Act

/-- What the next section of the handler does with the chunk of its message. -/
def Handler.acts (s : State) (answer : Option (Nat → Byte)) : Handler → List Act
  | .receiveFind x =>
    ((s.segmented.findElem x.header.messageHash).map fun m =>
      Act.received x.header m.2.userPayload).toList
  | .receiveLoan x =>
    if answer.isSome then [.loaned s.chunks.length, .received x.header s.chunks.length] else []
  | .loanFind x =>
    ((s.segmented.findElem x.header.messageHash).map fun m =>
      Act.lent x.header m.2.userPayload).toList
  | .loanLoan x =>
    if answer.isSome then [.loaned s.chunks.length, .lent x.header s.chunks.length] else []
  | .releaseRelease x => [.givenUp x.header]
  | .releaseDecrement x =>
    [.returned x.header
      ((s.segmented.findElem x.header.messageHash).map fun m => m.2.userPayload)]
  | .receivePublish x c | .releasePublish x c => [.published x.header c]
  | .receivePush _ _ | .receiveTake _ _ _ _ | .loanPush _ _ | .loanReturn _ _ _
  | .updateChannels _ _ => []

/-- The handler runs for a datagram of the message. -/
def Handler.isFor (k : Hash) (h : Handler) : Bool :=
  h.call.any fun x => x.header.messageHash = k

/-- What a step does with the chunk of the message. -/
def acts (k : Hash) (s : State) : Label → List Act
  | .proceed _ answer =>
    s.holder.elim [] fun h => if h.isFor k then h.acts s answer else []
  | _ => []

/-- What a run does with the chunk of the message. -/
def trace (getClassHash : ServiceDescription → ClassHash) (k : Hash) (s : State)
    (ls : List Label) : List Act :=
  Run.trace (step getClassHash) (acts k) s ls

/-! ## The conditions -/

/-- The calls about one submessage, in order. -/
def callsFor (h : IoxChunkDatagramHeader) (t : List Act) : List Act.Kind :=
  (t.filterMap Act.call).filterMap fun q => if q.1 = h then some q.2 else none

/-- The transports have so far handed over some submessages of the message, none of them twice:
with `receive`, or with `loanBuffer` and perhaps already `releaseBuffer`. -/
structure MessageHeaders.Delivers (m : MessageHeaders) (t : List Act) : Prop where
  mem : ∀ q ∈ t.filterMap Act.call, q.1 ∈ m.headers
  calls : ∀ h ∈ m.headers, callsFor h t <+: [.received] ∨ callsFor h t <+: [.lent, .returned]

instance (m : MessageHeaders) (t : List Act) : Decidable (m.Delivers t) :=
  decidable_of_iff ((∀ q ∈ t.filterMap Act.call, q.1 ∈ m.headers) ∧ ∀ h ∈ m.headers,
    callsFor h t <+: [.received] ∨ callsFor h t <+: [.lent, .returned])
    ⟨fun h => ⟨h.1, h.2⟩, fun h => ⟨h.mem, h.calls⟩⟩

/-- Every submessage has been delivered, on one of the two paths. -/
def MessageHeaders.DeliversAll (m : MessageHeaders) (t : List Act) : Prop :=
  ∀ h ∈ m.headers, callsFor h t = [.received] ∨ callsFor h t = [.lent, .returned]

instance (m : MessageHeaders) (t : List Act) : Decidable (m.DeliversAll t) :=
  inferInstanceAs (Decidable (∀ h ∈ _, _ ∨ _))

/-- The next section of the handler leaves the message in the table, or finds room to store it. -/
def Handler.Spares (getClassHash : ServiceDescription → ClassHash) (k : Hash) (s : State) :
    Handler → Prop
  | .receivePush x _ | .loanPush x _ =>
    x.header.messageHash = k → s.segmented.size < maxSegmentedMessageCount
  | .updateChannels (service :: _) _ =>
    ∀ e ∈ (s.endpoints.discardChannel getClassHash service).1, ∀ m ∈ s.segmented.entries,
      m.1 = k → m.2.publisher ≠ e.id
  | _ => True

/-- No timeout, no full table and no deletion of the channel hits the message. -/
def Undisturbed (getClassHash : ServiceDescription → ClassHash) (k : Hash) (s : State) :
    Label → Prop
  | .proceed _ _ => ∀ h ∈ s.holder, h.Spares getClassHash k s
  | .sweep i => ∀ w ∈ s.sweeps[i]?, w.msgToRelease = none →
    ∀ r ∈ s.segmented.takeExpired w.now, r.1 ≠ k
  | _ => True

instance (getClassHash : ServiceDescription → ClassHash) (k : Hash) (s : State) :
    (h : Handler) → Decidable (h.Spares getClassHash k s)
  | .receivePush _ _ | .loanPush _ _ => inferInstanceAs (Decidable (_ → _))
  | .updateChannels (_ :: _) _ => inferInstanceAs (Decidable (∀ e ∈ _, ∀ m ∈ _, _ → _))
  | .updateChannels [] _ | .receiveFind _ | .receiveLoan _ | .receiveTake _ _ _ _
  | .receivePublish _ _ | .loanFind _ | .loanLoan _ | .loanReturn _ _ _ | .releaseRelease _
  | .releaseDecrement _ | .releasePublish _ _ => isTrue trivial

instance (getClassHash : ServiceDescription → ClassHash) (k : Hash) (s : State) :
    (l : Label) → Decidable (Undisturbed getClassHash k s l)
  | .proceed _ _ => inferInstanceAs (Decidable (∀ h ∈ _, Handler.Spares _ _ _ h))
  | .sweep _ => inferInstanceAs (Decidable (∀ w ∈ _, _ → ∀ r ∈ _, _))
  | .receive _ _ | .loanBuffer _ | .releaseBuffer _ _ _ | .updateChannels _
  | .checkSegmentedMessages _ => isTrue trivial

/-! ## What the protocol allows -/

variable {m : MessageHeaders} {t : List Act} {a : Act} {h : IoxChunkDatagramHeader}

/-- The submessages that are complete. -/
def completed (t : List Act) : List IoxChunkDatagramHeader := t.filterMap Act.completes

theorem completed_append (t t' : List Act) : completed (t ++ t') = completed t ++ completed t' :=
  List.filterMap_append

theorem callsFor_append (h : IoxChunkDatagramHeader) (t t' : List Act) :
    callsFor h (t ++ t') = callsFor h t ++ callsFor h t' := by
  simp [callsFor]

/-- The beginning of a delivery. -/
theorem MessageHeaders.Delivers.of_append {t' : List Act} (hd : m.Delivers (t ++ t')) :
    m.Delivers t where
  mem := fun q hq => hd.mem q (by simp only [List.filterMap_append, List.mem_append, hq, true_or])
  calls := by
    intro h hh
    have hprefix : callsFor h t <+: callsFor h (t ++ t') := by
      rw [callsFor_append]
      exact List.prefix_append _ _
    exact (hd.calls h hh).imp hprefix.trans hprefix.trans

theorem mem_callsFor {k : Act.Kind} : k ∈ callsFor h t ↔ ∃ a ∈ t, a.call = some (h, k) := by
  simp only [callsFor, List.mem_filterMap]
  constructor
  · rintro ⟨⟨h', k'⟩, ⟨a, ha, hcall⟩, hk⟩
    obtain ⟨rfl, rfl⟩ : h' = h ∧ k' = k := by simpa using hk
    exact ⟨a, ha, hcall⟩
  · rintro ⟨a, ha, hcall⟩
    exact ⟨(h, k), ⟨a, ha, hcall⟩, by simp⟩

theorem Act.completes_eq_some :
    a.completes = some h ↔ a.call = some (h, .received) ∨ a.call = some (h, .returned) := by
  cases a <;> simp [Act.completes, Act.call]

/-- A submessage that is complete has been received or returned. -/
theorem mem_completed :
    h ∈ completed t ↔ Act.Kind.received ∈ callsFor h t ∨ Act.Kind.returned ∈ callsFor h t := by
  simp only [completed, List.mem_filterMap, mem_callsFor, Act.completes_eq_some, and_or_left,
    exists_or]

/-- The last call about a submessage, and what has come before it. -/
theorem Act.Kind.of_prefix {ks : List Act.Kind} {k : Act.Kind}
    (hp : ks ++ [k] <+: [.received] ∨ ks ++ [k] <+: [.lent, .returned]) :
    ((k = .received ∨ k = .lent) ∧ ks = []) ∨ (k = .returned ∧ ks = [.lent]) := by
  have hlen : ks.length ≤ 1 := by
    rcases hp with hp | hp <;> have := hp.length_le <;> simp_all
  cases ks with
  | nil => rcases hp with hp | hp <;> simp_all
  | cons k₁ ks =>
    obtain rfl : ks = [] := by simpa using hlen
    rcases hp with hp | hp
    · simp at hp
    · obtain ⟨rfl, rfl⟩ : k₁ = .lent ∧ k = .returned := by simpa using hp
      exact Or.inr ⟨rfl, rfl⟩

/-- **The next call.**  It is about a submessage of the message that is not complete yet: one that
is handed over now, or one whose buffer is out. -/
theorem MessageHeaders.Delivers.next {k : Act.Kind} (hd : m.Delivers (t ++ [a]))
    (ha : a.call = some (h, k)) :
    h ∈ m.headers ∧ h ∉ completed t ∧
      (((k = .received ∨ k = .lent) ∧ callsFor h t = []) ∨
        (k = .returned ∧ callsFor h t = [.lent])) := by
  have hcalls : callsFor h (t ++ [a]) = callsFor h t ++ [k] := by
    rw [callsFor_append]
    simp [callsFor, ha]
  have hmem : h ∈ m.headers := hd.mem (h, k) (by simp [ha])
  have hcase := Act.Kind.of_prefix (hcalls ▸ hd.calls h hmem)
  refine ⟨hmem, fun hc => ?_, hcase⟩
  rw [mem_completed] at hc
  rcases hcase with ⟨-, hnil⟩ | ⟨-, hlent⟩
  · simp [hnil] at hc
  · simp [hlent] at hc

/-- No submessage is completed twice. -/
theorem MessageHeaders.Delivers.completed_nodup (hd : m.Delivers t) :
    (completed t).Nodup ∧ completed t ⊆ m.headers := by
  induction t using List.reverseRecOn with
  | nil => simp [completed]
  | append_singleton t a ih =>
    obtain ⟨hnodup, hsub⟩ := ih hd.of_append
    rw [completed_append]
    cases ha : a.completes with
    | none => simpa [completed, ha] using ⟨hnodup, hsub⟩
    | some h =>
      obtain ⟨hmem, hnew⟩ : h ∈ m.headers ∧ h ∉ completed t := by
        rcases Act.completes_eq_some.mp ha with hcall | hcall
        · exact ⟨(hd.next hcall).1, (hd.next hcall).2.1⟩
        · exact ⟨(hd.next hcall).1, (hd.next hcall).2.1⟩
      have hone : completed [a] = [h] := by simp [completed, ha]
      rw [hone]
      refine ⟨hnodup.append (List.nodup_singleton h) (List.disjoint_singleton.mpr hnew), ?_⟩
      exact List.append_subset.mpr ⟨hsub, by simpa using hmem⟩

/-- As long as a call can follow, the message is not complete. -/
theorem MessageHeaders.Delivers.lt_of_next {k : Act.Kind} (hd : m.Delivers (t ++ [a]))
    (ha : a.call = some (h, k)) : (completed t).length < m.headers.length := by
  obtain ⟨hnodup, hsub⟩ := hd.of_append.completed_nodup
  obtain ⟨hmem, hnew, -⟩ := hd.next ha
  have hcons : (h :: completed t).Nodup := List.nodup_cons.mpr ⟨hnew, hnodup⟩
  exact (List.subperm_of_subset hcons (List.cons_subset.mpr ⟨hmem, hsub⟩)).length_le

theorem MessageHeaders.DeliversAll.le_completed (hd : m.DeliversAll t) :
    m.headers.length ≤ (completed t).length := by
  refine (List.subperm_of_subset m.nodup fun h hh => ?_).length_le
  rw [mem_completed]
  rcases hd h hh with hcalls | hcalls
  · simp [hcalls]
  · simp [hcalls]

/-! ## The invariant -/

/-- The handler for the message holds no chunk that it has still to store or to publish. -/
def Handler.Idle (k : Hash) (h : Handler) : Prop := h.isFor k = true → h.owned = none

/-- The calls so far have got one chunk, and have not published it. -/
structure Collecting (c : ChunkId) (t : List Act) : Prop where
  chunk : ∀ a ∈ t, a.chunk = some c
  loan : t.countP Act.isLoan = 1
  unpublished : t.countP Act.isPublication = 0

/-- The handler will store the chunk, with this number of missing submessages. -/
inductive Handler.Stores (x : Call) (c : ChunkId) : Handler → UInt32 → Prop
  | receive : Handler.Stores x c (.receivePush x c) (x.header.submessageCount - 1)
  | loan : Handler.Stores x c (.loanPush x c) x.header.submessageCount

/-- The handler will publish the chunk before it returns. -/
inductive Handler.Publishes (x : Call) (c : ChunkId) : Handler → Prop
  | take (userHeader : Option ChunkId) : Handler.Publishes x c (.receiveTake x userHeader c true)
  | receive : Handler.Publishes x c (.receivePublish x c)
  | release : Handler.Publishes x c (.releasePublish x c)

/-- Where the message stands after the calls `t`. -/
inductive Stage (m : MessageHeaders) (s : State) (t : List Act) : Prop
  /-- No call has got a chunk yet. -/
  | untouched (ht : t = []) (hk : m.messageHash ∉ s.segmented.keys)
      (hh : ∀ h ∈ s.holder, h.Idle m.messageHash)
  /-- The first call has loaned a chunk and will store it, with the submessages that are missing. -/
  | storing (h : Handler) (x : Call) (c : ChunkId) (remaining : UInt32) (hh : s.holder = some h)
      (hpush : h.Stores x c remaining)
      (hx : x.header.messageHash = m.messageHash) (hc : Collecting c t)
      (hr : remaining.toNat + (completed t).length = m.headers.length) (hpos : 0 < remaining.toNat)
      (hk : m.messageHash ∉ s.segmented.keys)
  /-- The chunk is in the table, with the number of submessages that are missing. -/
  | stored (msg : SegmentedMessage) (hmem : (m.messageHash, msg) ∈ s.segmented.entries)
      (hc : Collecting msg.userPayload t)
      (hr : msg.remainingSegments.toNat + (completed t).length = m.headers.length)
      (hpos : 0 < msg.remainingSegments.toNat) (hh : ∀ h ∈ s.holder, h.Idle m.messageHash)
  /-- The call that has completed the message will publish it. -/
  | publishing (h : Handler) (x : Call) (c : ChunkId) (before : List Act) (a : Act)
      (hh : s.holder = some h) (hpublish : h.Publishes x c)
      (hx : x.header.messageHash = m.messageHash) (ht : t = before ++ [a])
      (ha : a.completes = some x.header) (hc : Collecting c t)
      (hr : (completed t).length = m.headers.length) (hk : m.messageHash ∉ s.segmented.keys)
  /-- The call that has completed the message has published it. -/
  | published (hd : IoxChunkDatagramHeader) (c : ChunkId) (before : List Act) (a : Act)
      (ht : t = before ++ [a] ++ [.published hd c]) (ha : a.completes = some hd)
      (hc : Collecting c (before ++ [a])) (hr : (completed t).length = m.headers.length)
      (hk : m.messageHash ∉ s.segmented.keys) (hh : ∀ h ∈ s.holder, h.Idle m.messageHash)

/-! ## Sections that do not concern the message -/

theorem Collecting.append {c : ChunkId} (hc : Collecting c t) (hchunk : a.chunk = some c)
    (hl : a.isLoan = false) (hp : a.isPublication = false) : Collecting c (t ++ [a]) where
  chunk := List.forall_mem_append.mpr ⟨hc.chunk, by simpa using hchunk⟩
  loan := by simp [hc.loan, hl]
  unpublished := by simp [hc.unpublished, hp]

theorem Handler.isFor_of_call {hd : Handler} {x : Call} {k : Hash} (hx : hd.call = some x) :
    hd.isFor k = true ↔ x.header.messageHash = k := by
  simp [Handler.isFor, hx]

theorem Handler.Stores.call {x : Call} {c : ChunkId} {hd : Handler} {remaining : UInt32}
    (h : hd.Stores x c remaining) : hd.call = some x := by
  cases h <;> rfl

theorem Handler.Stores.owned {x : Call} {c : ChunkId} {hd : Handler} {remaining : UInt32}
    (h : hd.Stores x c remaining) : hd.owned = some c := by
  cases h <;> rfl

theorem Handler.Publishes.call {x : Call} {c : ChunkId} {hd : Handler}
    (h : hd.Publishes x c) : hd.call = some x := by
  cases h <;> rfl

theorem Handler.Publishes.owned {x : Call} {c : ChunkId} {hd : Handler}
    (h : hd.Publishes x c) : hd.owned = some c := by
  cases h <;> rfl

/-- The message stands where it stood if its entry is the same and no handler takes up its chunk or
gives it up. -/
theorem Stage.transfer (hs : Stage m s t)
    (hmem : ∀ msg, (m.messageHash, msg) ∈ s'.segmented.entries ↔
      (m.messageHash, msg) ∈ s.segmented.entries)
    (hh' : s'.holder = s.holder ∨ ((∀ h ∈ s.holder, h.Idle m.messageHash) ∧
      ∀ h ∈ s'.holder, h.Idle m.messageHash)) : Stage m s' t := by
  have hkeys : m.messageHash ∉ s.segmented.keys → m.messageHash ∉ s'.segmented.keys := by
    intro hk hk'
    obtain ⟨msg, hmsg⟩ := VectorMap.exists_of_mem_keys hk'
    exact hk (VectorMap.mem_keys_of_mem_entries ((hmem msg).mp hmsg))
  have hidle : (∀ h ∈ s.holder, h.Idle m.messageHash) → ∀ h ∈ s'.holder, h.Idle m.messageHash := by
    intro hidle
    rcases hh' with heq | ⟨-, hidle'⟩
    · rwa [heq]
    · exact hidle'
  -- a handler that holds the chunk goes on holding it
  have hbusy : ∀ h x, s.holder = some h → h.call = some x →
      x.header.messageHash = m.messageHash → h.owned ≠ none → s'.holder = some h := by
    intro h x hh hcall hx howned
    rcases hh' with heq | ⟨hidle, -⟩
    · rw [heq, hh]
    · exact absurd (hidle h hh ((Handler.isFor_of_call hcall).mpr hx)) howned
  cases hs with
  | untouched ht hk hh => exact .untouched ht (hkeys hk) (hidle hh)
  | storing h x c remaining hh hpush hx hc hr hpos hk =>
    have hh' := hbusy h x hh hpush.call hx (by simp [hpush.owned])
    exact .storing h x c remaining hh' hpush hx hc hr hpos (hkeys hk)
  | stored msg hmsg hc hr hpos hh => exact .stored msg ((hmem msg).mpr hmsg) hc hr hpos (hidle hh)
  | publishing h x c before a hh hpublish hx ht ha hc hr hk =>
    have hh' := hbusy h x hh hpublish.call hx (by simp [hpublish.owned])
    exact .publishing h x c before a hh' hpublish hx ht ha hc hr (hkeys hk)
  | published hd c before a ht ha hc hr hk hh =>
    exact .published hd c before a ht ha hc hr (hkeys hk) (hidle hh)

/-- `findAndDecrement` leaves the other messages alone. -/
theorem mem_findAndDecrement_of_ne {tbl tbl' : SegmentedTable} {k k' : Hash}
    {msg : SegmentedMessage} {publish : Bool}
    (hf : tbl.findAndDecrement k' = some (msg, publish, tbl')) (hne : k ≠ k')
    (msg' : SegmentedMessage) : (k, msg') ∈ tbl'.entries ↔ (k, msg') ∈ tbl.entries := by
  obtain ⟨i, hi, ⟨-, -, rfl⟩ | ⟨-, -, rfl⟩⟩ := SegmentedTable.findAndDecrement_eq_some hf
  · exact ⟨VectorMap.mem_entries_of_mem_erase, fun h => VectorMap.mem_erase_of_ne hi h hne⟩
  · rw [VectorMap.entries_set (VectorMap.getElem?_entries.mp hi).1, List.mem_set_iff hi,
      ← VectorMap.entries_erase]
    constructor
    · rintro (heq | hmem)
      · exact absurd (congrArg Prod.fst heq) hne
      · exact VectorMap.mem_entries_of_mem_erase hmem
    · intro hmem
      exact Or.inr (VectorMap.mem_erase_of_ne hi hmem hne)

/-- The holder goes on for the same datagram. -/
theorem proceed_isFor (now : Time) (answer : Option (Nat → Byte)) (h : Handler) (k : Hash) :
    ∀ h' ∈ (s.proceed getClassHash now answer h).holder, h'.isFor k = h.isFor k := by
  intro h' hh'
  cases h with
  | receiveFind x =>
    simp only [State.proceed] at hh'
    split at hh' <;> (obtain rfl := Option.some.inj hh'; rfl)
  | receiveLoan x =>
    cases answer with
    | none => cases hh'
    | some fill =>
      simp only [State.proceed, State.goto_holder] at hh'
      split at hh' <;> (obtain rfl := Option.some.inj hh'; rfl)
  | receiveTake x userHeader c shouldPublish =>
    cases shouldPublish with
    | false => cases hh'
    | true =>
      obtain rfl := Option.some.inj hh'
      rfl
  | loanFind x =>
    simp only [State.proceed] at hh'
    split at hh' <;> (obtain rfl := Option.some.inj hh'; rfl)
  | loanLoan x =>
    cases answer with
    | none => cases hh'
    | some fill =>
      obtain rfl := Option.some.inj hh'
      rfl
  | loanReturn x userHeader c =>
    simp only [State.proceed] at hh'
    split at hh'
    · split at hh' <;> cases hh'
    · cases hh'
  | releaseRelease x =>
    simp only [State.proceed] at hh'
    split at hh' <;> cases hh'
  | releaseDecrement x =>
    simp only [State.proceed] at hh'
    split at hh'
    · cases hh'
    · simp only [State.goto_holder] at hh'
      split at hh'
      · obtain rfl := Option.some.inj hh'
        rfl
      · cases hh'
  | receivePublish x c => cases hh'
  | releasePublish x c => cases hh'
  | updateChannels toDelete toSetup =>
    cases toDelete with
    | cons service toDelete =>
      obtain rfl := Option.some.inj hh'
      rfl
    | nil =>
      cases toSetup with
      | cons service toSetup =>
        obtain rfl := Option.some.inj hh'
        rfl
      | nil => cases hh'
  | receivePush x c =>
    obtain rfl := Option.some.inj hh'
    rfl
  | loanPush x c =>
    obtain rfl := Option.some.inj hh'
    rfl

theorem ne_of_isFor {hd : Handler} {x : Call} {k : Hash} (hx : hd.call = some x)
    (hfor : hd.isFor k = false) : k ≠ x.header.messageHash := by
  intro heq
  have := (Handler.isFor_of_call hx).mpr heq.symm
  simp [this] at hfor

theorem mem_pushSegmented_of_ne {x : Call} {k : Hash} (hne : k ≠ x.header.messageHash)
    (remaining : UInt32) (c : ChunkId) (now : Time) (msg : SegmentedMessage) :
    (k, msg) ∈ (s.pushSegmented x remaining c now).segmented.entries ↔
      (k, msg) ∈ s.segmented.entries := by
  unfold State.pushSegmented
  split
  · rename_i tbl hpush
    rw [VectorMap.entries_emplace hpush, List.mem_append, List.mem_singleton, Prod.mk.injEq]
    exact or_iff_left fun h => hne h.1
  · rfl

/-- **The section of another message's handler** leaves the entry of the message alone. -/
theorem mem_proceed_of_not_isFor {hd : Handler} {k : Hash} (hfor : hd.isFor k = false)
    (hspares : hd.Spares getClassHash k s) (now : Time) (answer : Option (Nat → Byte))
    (msg : SegmentedMessage) :
    (k, msg) ∈ (s.proceed getClassHash now answer hd).segmented.entries ↔
      (k, msg) ∈ s.segmented.entries := by
  cases hd with
  | receiveFind x =>
    simp only [State.proceed]
    split
    · rfl
    · rename_i hf
      exact mem_findAndDecrement_of_ne hf (ne_of_isFor rfl hfor) msg
  | receiveLoan x =>
    cases answer with
    | none => rfl
    | some fill => rfl
  | receivePush x c => exact mem_pushSegmented_of_ne (ne_of_isFor rfl hfor) _ c now msg
  | receiveTake x userHeader c shouldPublish =>
    simp only [State.proceed, State.goto_segmented, State.takeNext]
    split <;> rfl
  | receivePublish x c => rfl
  | loanFind x =>
    simp only [State.proceed]
    split <;> rfl
  | loanLoan x =>
    cases answer with
    | none => rfl
    | some fill => rfl
  | loanPush x c => exact mem_pushSegmented_of_ne (ne_of_isFor rfl hfor) _ c now msg
  | loanReturn x userHeader c =>
    simp only [State.proceed]
    split
    · split <;> rfl
    · rfl
  | releaseRelease x =>
    simp only [State.proceed]
    split
    · rfl
    · rename_i msg' tbl hr
      obtain ⟨i, hi, rfl⟩ := SegmentedTable.release_eq_some hr
      exact ⟨VectorMap.mem_entries_of_mem_erase,
        fun h => VectorMap.mem_erase_of_ne hi h (ne_of_isFor rfl hfor)⟩
  | releaseDecrement x =>
    simp only [State.proceed]
    split
    · rfl
    · rename_i hf
      exact mem_findAndDecrement_of_ne hf (ne_of_isFor rfl hfor) msg
  | releasePublish x c => rfl
  | updateChannels toDelete toSetup =>
    cases toDelete with
    | nil =>
      cases toSetup with
      | nil => rfl
      | cons service toSetup => rfl
    | cons service toDelete =>
      simp only [State.proceed, State.goto_segmented, State.deleteChannel]
      split
      · rfl
      · rename_i e endpoints hdiscard
        simp only [(SegmentedTable.releaseAll_eq _ _).1, List.mem_filter]
        refine and_iff_left_of_imp fun hmem => ?_
        exact decide_eq_true (hspares e (by rw [hdiscard]; rfl) _ hmem rfl)

/-! ## The sections of the message's handlers -/

/-- An entry that is not there: the first call has yet to come, or the message is published. -/
theorem Stage.eq_nil (hs : Stage m s t) (hidle : ∀ h ∈ s.holder, h.Idle m.messageHash)
    (hk : m.messageHash ∉ s.segmented.keys) (hlt : (completed t).length < m.headers.length) :
    t = [] := by
  cases hs with
  | untouched ht => exact ht
  | storing h x c remaining hh hpush hx =>
    have howned := hidle h hh ((Handler.isFor_of_call hpush.call).mpr hx)
    simp [hpush.owned] at howned
  | stored msg hmem => exact absurd (VectorMap.mem_keys_of_mem_entries hmem) hk
  | publishing h x c before a hh hpublish hx ht ha hc hr => omega
  | published hd c before a ht ha hc hr => omega

/-- An entry that is there. -/
theorem Stage.of_mem (hs : Stage m s t) (hn : s.segmented.keys.Nodup) {msg : SegmentedMessage}
    (hmem : (m.messageHash, msg) ∈ s.segmented.entries) :
    Collecting msg.userPayload t ∧
      msg.remainingSegments.toNat + (completed t).length = m.headers.length ∧
      0 < msg.remainingSegments.toNat := by
  have hkey := VectorMap.mem_keys_of_mem_entries hmem
  cases hs with
  | untouched ht hk => exact absurd hkey hk
  | storing h x c remaining hh hpush hx hc hr hpos hk => exact absurd hkey hk
  | stored msg' hmem' hc hr hpos =>
    have hkeys : (s.segmented.entries.map Prod.fst).Nodup := VectorMap.keys_eq _ ▸ hn
    have heq := List.inj_on_of_nodup_map hkeys hmem hmem' rfl
    obtain rfl := (Prod.mk.inj heq).2
    exact ⟨hc, hr, hpos⟩
  | publishing h x c before a hh hpublish hx ht ha hc hr hk => exact absurd hkey hk
  | published hd c before a ht ha hc hr hk => exact absurd hkey hk

/-- **A submessage is counted.**  The call that counts the last one goes on to publish. -/
theorem Stage.count (hs : Stage m s t) (hn : s.segmented.keys.Nodup) {x : Call}
    (hx : x.header.messageHash = m.messageHash) {msg : SegmentedMessage} {publish : Bool}
    {tbl : SegmentedTable}
    (hf : s.segmented.findAndDecrement m.messageHash = some (msg, publish, tbl))
    (ha : a.completes = some x.header) (hchunk : a.chunk = some msg.userPayload)
    {next : Option Handler}
    (hlast : publish = true → ∃ h, next = some h ∧ h.Publishes x msg.userPayload)
    (hmore : publish = false → ∀ h ∈ next, h.Idle m.messageHash) :
    Stage m ({ s with segmented := tbl }.goto next) (t ++ [a]) := by
  obtain ⟨i, hi, hcase⟩ := SegmentedTable.findAndDecrement_eq_some hf
  obtain ⟨hc, hr, hpos⟩ := hs.of_mem hn (List.mem_of_getElem? hi)
  have hsub : (msg.remainingSegments - 1).toNat = msg.remainingSegments.toNat - 1 :=
    UInt32.toNat_sub_of_le _ _ (UInt32.le_iff_toNat_le.mpr hpos)
  have hkind : a.isLoan = false ∧ a.isPublication = false := by
    cases a with
    | received h c => exact ⟨rfl, rfl⟩
    | returned h c => exact ⟨rfl, rfl⟩
    | _ => cases ha
  have hc' := hc.append hchunk hkind.1 hkind.2
  have hlen : (completed (t ++ [a])).length = (completed t).length + 1 := by
    simp [completed, ha]
  rcases hcase with ⟨rfl, hzero, rfl⟩ | ⟨rfl, hne, rfl⟩
  · obtain ⟨h, rfl, hpublish⟩ := hlast rfl
    rw [hzero] at hsub
    have hone : msg.remainingSegments.toNat = 1 := by
      simp only [UInt32.toNat_zero] at hsub
      omega
    exact .publishing h x msg.userPayload t a rfl hpublish hx rfl ha hc' (by omega)
      (VectorMap.not_mem_keys_erase hn hi)
  · have hpos' : 0 < (msg.remainingSegments - 1).toNat := by
      refine Nat.pos_of_ne_zero fun hzero => hne ?_
      exact UInt32.toNat_inj.mp hzero
    exact .stored _ (VectorMap.mem_set_self hi _) hc' (by simp only; omega) hpos' (hmore rfl)

theorem Handler.Idle.of_owned {hd : Handler} {k : Hash} (h : hd.owned = none) : hd.Idle k :=
  fun _ => h

/-- The first call finds no entry and its loan is granted. -/
theorem Stage.loan (hs : Stage m s t) {h : Handler} {x : Call} (hh : s.holder = some h)
    (howned : h.owned = none) (hk : m.messageHash ∉ s.segmented.keys)
    {k : Act.Kind} (ha : a.call = some (x.header, k))
    (hd : m.Delivers (t ++ [.loaned s.chunks.length, a])) :
    t = [] ∧ x.header.submessageCount.toNat = m.headers.length ∧ 0 < m.headers.length := by
  have hd' : m.Delivers (t ++ [.loaned s.chunks.length] ++ [a]) := by simpa using hd
  have hlt := hd'.lt_of_next ha
  have hnone : completed [Act.loaned s.chunks.length] = [] := rfl
  rw [completed_append, hnone, List.append_nil] at hlt
  refine ⟨hs.eq_nil (fun g hg => ?_) hk hlt, ?_, ?_⟩
  · rw [hh] at hg
    obtain rfl := Option.some.inj hg
    exact .of_owned howned
  · exact m.submessageCount_eq _ (hd'.next ha).1
  · exact List.length_pos_iff.mpr m.ne_nil

/-- A chunk that has just been loaned. -/
theorem Collecting.loaned (c : ChunkId) : Collecting c [.loaned c] :=
  ⟨by simp [Act.chunk], rfl, rfl⟩

/-- A handler that holds the chunk of the message will store it or publish it. -/
theorem Stage.of_owned (hs : Stage m s t) {h : Handler} (hh : s.holder = some h)
    (hfor : h.isFor m.messageHash = true) (howned : h.owned ≠ none) :
    (∃ x c remaining, h.Stores x c remaining ∧ Collecting c t ∧
        remaining.toNat + (completed t).length = m.headers.length ∧ 0 < remaining.toNat) ∨
      ∃ x c before a, h.Publishes x c ∧ t = before ++ [a] ∧ a.completes = some x.header ∧
        Collecting c t ∧ (completed t).length = m.headers.length ∧
        m.messageHash ∉ s.segmented.keys := by
  have hbusy : ¬ ∀ g ∈ s.holder, g.Idle m.messageHash := fun hidle => howned (hidle h hh hfor)
  cases hs with
  | untouched ht hk hi => exact absurd hi hbusy
  | storing h' x c remaining hh' hpush hx hc hr hpos =>
    obtain rfl := Option.some.inj (hh.symm.trans hh')
    exact Or.inl ⟨x, c, remaining, hpush, hc, hr, hpos⟩
  | stored msg hmem hc hr hpos hi => exact absurd hi hbusy
  | publishing h' x c before a hh' hpublish hx ht ha hc hr hk =>
    obtain rfl := Option.some.inj (hh.symm.trans hh')
    exact Or.inr ⟨x, c, before, a, hpublish, ht, ha, hc, hr, hk⟩
  | published hd c before a ht ha hc hr hk hi => exact absurd hi hbusy

/-- The section of `push`, which finds room. -/
theorem Stage.push (hs : Stage m s t) {h next : Handler} {x : Call} {c : ChunkId}
    {remaining : UInt32} (hh : s.holder = some h) (hpush : h.Stores x c remaining)
    (hx : x.header.messageHash = m.messageHash)
    (hroom : s.segmented.size < maxSegmentedMessageCount) (hnext : next.owned = none)
    (now : Time) : Stage m ((s.pushSegmented x remaining c now).goto (some next)) t := by
  obtain ⟨hc, hr, hpos⟩ : Collecting c t ∧
      remaining.toNat + (completed t).length = m.headers.length ∧ 0 < remaining.toNat := by
    have hfor := (Handler.isFor_of_call hpush.call).mpr hx
    rcases hs.of_owned hh hfor (by simp [hpush.owned]) with
      ⟨x', c', r', hpush', h⟩ | ⟨_, _, _, _, hp, -⟩
    · cases hpush <;> (cases hpush'; exact h)
    · cases hpush <;> cases hp
  obtain ⟨tbl, htbl⟩ := VectorMap.emplace_isSome hroom x.header.messageHash
    ⟨remaining, State.userHeaderOf x.header c, c, x.publisher, State.deadline x.header now⟩
  refine .stored ⟨remaining, State.userHeaderOf x.header c, c, x.publisher,
    State.deadline x.header now⟩ ?_ hc hr hpos fun h hh => ?_
  · rw [State.pushSegmented, SegmentedTable.push, htbl, State.goto_segmented,
      VectorMap.entries_emplace htbl, ← hx]
    simp
  · obtain rfl := Option.some.inj hh
    exact .of_owned hnext

/-- What a handler knows that will publish. -/
theorem Stage.of_publishes (hs : Stage m s t) {h : Handler} {x : Call} {c : ChunkId}
    (hh : s.holder = some h) (hp : h.Publishes x c)
    (hx : x.header.messageHash = m.messageHash) :
    ∃ before a, t = before ++ [a] ∧ a.completes = some x.header ∧ Collecting c t ∧
      (completed t).length = m.headers.length ∧ m.messageHash ∉ s.segmented.keys := by
  have hfor := (Handler.isFor_of_call hp.call).mpr hx
  rcases hs.of_owned hh hfor (by simp [hp.owned]) with
    ⟨x', c', _, hpush, -⟩ | ⟨x', c', before, a, hp', h⟩
  · cases hp <;> cases hpush
  · cases hp <;> (cases hp'; exact ⟨before, a, h⟩)

/-- The section of `publish`. -/
theorem Stage.publish (hs : Stage m s t) {h : Handler} {x : Call} {c : ChunkId}
    (hh : s.holder = some h) (hp : h.Publishes x c)
    (hx : x.header.messageHash = m.messageHash) :
    Stage m ((s.publish x c).goto none) (t ++ [.published x.header c]) := by
  obtain ⟨before, a, rfl, ha, hc, hr, hk⟩ := hs.of_publishes hh hp hx
  refine .published x.header c before a rfl ha hc ?_ hk (by simp)
  rw [completed_append, List.length_append, hr]
  rfl

/-- The section of `takeNext`. -/
theorem Stage.take (hs : Stage m s t) {x : Call} {userHeader : Option ChunkId} {c : ChunkId}
    {shouldPublish : Bool} (hh : s.holder = some (.receiveTake x userHeader c shouldPublish))
    (hx : x.header.messageHash = m.messageHash) :
    Stage m ((s.takeNext x userHeader c).goto
      (if shouldPublish then some (.receivePublish x c) else none)) t := by
  have hsame : (s.takeNext x userHeader c).segmented = s.segmented := by
    unfold State.takeNext
    split <;> rfl
  cases shouldPublish with
  | false =>
    refine hs.transfer (fun msg => ?_) (Or.inr ⟨fun g hg => ?_, by simp⟩)
    · rw [State.goto_segmented, hsame]
    · rw [hh] at hg
      obtain rfl := Option.some.inj hg
      exact .of_owned rfl
  | true =>
    obtain ⟨before, a, ht, ha, hc, hr, hk⟩ := hs.of_publishes hh (.take userHeader) hx
    refine .publishing _ x c before a rfl .receive hx ht ha hc hr ?_
    rwa [State.goto_segmented, hsame]

/-- The section of the loan in `receive`.  Its own submessage counts at once, so a message of one
submessage is published without ever being in the table. -/
theorem Stage.receiveLoan (hs : Stage m s t) {x : Call} (hh : s.holder = some (.receiveLoan x))
    (hx : x.header.messageHash = m.messageHash) (hk : m.messageHash ∉ s.segmented.keys)
    (fill : Nat → Byte)
    (hdel : m.Delivers (t ++ [.loaned s.chunks.length, .received x.header s.chunks.length])) :
    Stage m ((s.loan x fill).goto
        (if x.header.submessageCount > 1 then some (.receivePush x s.chunks.length)
          else some (.receiveTake x (State.userHeaderOf x.header s.chunks.length)
            s.chunks.length true)))
      (t ++ [.loaned s.chunks.length, .received x.header s.chunks.length]) := by
  obtain ⟨rfl, hcount, hpos⟩ := hs.loan hh rfl hk rfl hdel
  have hc : Collecting s.chunks.length ([.loaned s.chunks.length] ++
      [.received x.header s.chunks.length]) := (Collecting.loaned _).append rfl rfl rfl
  have hone : completed ([.loaned s.chunks.length] ++
    [.received x.header s.chunks.length]) = [x.header] := rfl
  rw [List.nil_append]
  split
  · rename_i hmany
    have hmany' : 1 < x.header.submessageCount.toNat := UInt32.lt_iff_toNat_lt.mp hmany
    have hsub : (x.header.submessageCount - 1).toNat = x.header.submessageCount.toNat - 1 :=
      UInt32.toNat_sub_of_le _ _ (UInt32.le_of_lt hmany)
    refine .storing _ x _ _ rfl .receive hx hc ?_ (by omega) hk
    rw [← List.singleton_append, hone, List.length_singleton]
    omega
  · rename_i hmany
    have hle : x.header.submessageCount.toNat ≤ 1 :=
      Nat.le_of_not_lt fun h => hmany (UInt32.lt_iff_toNat_lt.mpr h)
    refine .publishing _ x _ [.loaned s.chunks.length] _ rfl (.take _) hx rfl rfl hc ?_ hk
    rw [← List.singleton_append, hone, List.length_singleton]
    omega

/-- The section of `find` in `loanBuffer`, which finds the message: the submessage is counted when
the buffer comes back. -/
theorem Stage.lend (hs : Stage m s t) (hn : s.segmented.keys.Nodup) {msg : SegmentedMessage}
    (hmem : (m.messageHash, msg) ∈ s.segmented.entries) (h : IoxChunkDatagramHeader)
    {next : Handler} (hnext : next.owned = none) :
    Stage m (s.goto (some next)) (t ++ [.lent h msg.userPayload]) := by
  obtain ⟨hc, hr, hpos⟩ := hs.of_mem hn hmem
  refine .stored msg hmem (hc.append rfl rfl rfl) ?_ hpos fun g hg => ?_
  · rw [completed_append, List.length_append]
    exact hr
  · obtain rfl := Option.some.inj hg
    exact .of_owned hnext

/-- **A section of a handler of the message.** -/
theorem Stage.proceed (hs : Stage m s t) (hacc : Accounted s) {hd : Handler}
    (hh : s.holder = some hd) (hfor : hd.isFor m.messageHash = true)
    (hspares : hd.Spares getClassHash m.messageHash s) (now : Time)
    (answer : Option (Nat → Byte)) (hdel : m.Delivers (t ++ hd.acts s answer)) :
    Stage m (s.proceed getClassHash now answer hd) (t ++ hd.acts s answer) := by
  have hidle : hd.owned = none → ∀ g ∈ s.holder, g.Idle m.messageHash := by
    intro howned g hg
    rw [hh] at hg
    obtain rfl := Option.some.inj hg
    exact .of_owned howned
  have habsent : hd.absent = some m.messageHash → m.messageHash ∉ s.segmented.keys :=
    fun h => hacc.absent _ (by rw [hh]; exact h)
  -- a section that leaves the message where it is
  have hstay : hd.owned = none → ∀ s' : State, s'.segmented = s.segmented →
      (∀ g ∈ s'.holder, g.owned = none) → Stage m s' t := by
    intro howned s' htable hnext
    refine hs.transfer (fun msg => by rw [htable]) (Or.inr ⟨hidle howned, fun g hg => ?_⟩)
    exact .of_owned (hnext g hg)
  cases hd with
  | receiveFind x =>
    have hx := (Handler.isFor_of_call rfl).mp hfor
    rw [State.proceed, Handler.acts, hx]
    cases hf : s.segmented.findAndDecrement m.messageHash with
    | none =>
      have hnone := VectorMap.findElem_eq_none.mpr (SegmentedTable.findAndDecrement_eq_none.mp hf)
      simp only [hnone, Option.map_none, Option.toList_none, List.append_nil]
      exact hstay rfl _ rfl (by simp [Handler.owned])
    | some r =>
      obtain ⟨msg, publish, tbl⟩ := r
      obtain ⟨j, hj⟩ := findElem_of_findAndDecrement hf
      simp only [hj, Option.map_some, Option.toList_some]
      refine hs.count hacc.keys hx hf rfl rfl (fun hp => ⟨_, rfl, ?_⟩) fun hp g hg => ?_
      · rw [hp]
        exact .take _
      · obtain rfl := Option.some.inj hg
        rw [hp]
        exact .of_owned rfl
  | receiveLoan x =>
    have hx := (Handler.isFor_of_call rfl).mp hfor
    have hk := habsent (congrArg some hx)
    cases answer with
    | none =>
      rw [Handler.acts, Option.isSome_none, if_neg (by simp), List.append_nil]
      exact hstay rfl _ rfl (by simp [State.proceed])
    | some fill =>
      rw [Handler.acts, Option.isSome_some, if_pos rfl] at hdel ⊢
      exact hs.receiveLoan hh hx hk fill hdel
  | receivePush x c =>
    have hx := (Handler.isFor_of_call rfl).mp hfor
    rw [Handler.acts, List.append_nil]
    exact hs.push hh .receive hx (hspares hx) rfl now
  | receiveTake x userHeader c shouldPublish =>
    rw [Handler.acts, List.append_nil]
    exact hs.take hh ((Handler.isFor_of_call rfl).mp hfor)
  | receivePublish x c => exact hs.publish hh .receive ((Handler.isFor_of_call rfl).mp hfor)
  | loanFind x =>
    have hx := (Handler.isFor_of_call rfl).mp hfor
    rw [Handler.acts, hx] at hdel ⊢
    rw [State.proceed, hx]
    cases hf : s.segmented.findElem m.messageHash with
    | none =>
      simp only [Option.map_none, Option.toList_none, List.append_nil]
      exact hstay rfl _ rfl (by simp [Handler.owned])
    | some r =>
      obtain ⟨i, msg⟩ := r
      exact hs.lend hacc.keys (VectorMap.mem_of_findElem hf) x.header rfl
  | loanLoan x =>
    have hx := (Handler.isFor_of_call rfl).mp hfor
    have hk := habsent (congrArg some hx)
    cases answer with
    | none =>
      rw [Handler.acts, Option.isSome_none, if_neg (by simp), List.append_nil]
      exact hstay rfl _ rfl (by simp [State.proceed])
    | some fill =>
      rw [Handler.acts, Option.isSome_some, if_pos rfl] at hdel ⊢
      obtain ⟨rfl, hcount, hpos⟩ := hs.loan hh rfl hk rfl hdel
      refine .storing _ x _ _ rfl .loan hx ((Collecting.loaned _).append rfl rfl rfl) ?_
        (by omega) hk
      exact hcount
  | loanPush x c =>
    have hx := (Handler.isFor_of_call rfl).mp hfor
    rw [Handler.acts, List.append_nil]
    exact hs.push hh .loan hx (hspares hx) rfl now
  | loanReturn x userHeader c =>
    rw [Handler.acts, List.append_nil]
    refine hstay rfl _ ?_ ?_
    · simp only [State.proceed]
      split
      · split <;> rfl
      · rfl
    · simp only [State.proceed]
      split
      · split <;> simp
      · simp
  | releaseRelease x =>
    -- the protocol does not give up a buffer
    obtain ⟨-, -, ⟨h | h, -⟩ | ⟨h, -⟩⟩ := hdel.next (k := .givenUp) rfl <;> cases h
  | releaseDecrement x =>
    have hx := (Handler.isFor_of_call rfl).mp hfor
    rw [Handler.acts, hx] at hdel ⊢
    rw [State.proceed, hx]
    cases hf : s.segmented.findAndDecrement m.messageHash with
    | none =>
      -- the buffer is out, so the message is neither new nor complete
      have hk := SegmentedTable.findAndDecrement_eq_none.mp hf
      obtain rfl := hs.eq_nil (hidle rfl) hk (hdel.lt_of_next rfl)
      obtain ⟨-, -, ⟨h | h, -⟩ | ⟨-, h⟩⟩ := hdel.next (k := .returned) rfl <;> cases h
    | some r =>
      obtain ⟨msg, publish, tbl⟩ := r
      obtain ⟨j, hj⟩ := findElem_of_findAndDecrement hf
      simp only [hj, Option.map_some]
      refine hs.count hacc.keys hx hf rfl rfl (fun hp => ⟨_, if_pos hp, .release⟩)
        fun hp g hg => ?_
      simp [hp] at hg
  | releasePublish x c => exact hs.publish hh .release ((Handler.isFor_of_call rfl).mp hfor)
  | updateChannels toDelete toSetup => cases hfor

/-! ## Every run -/

/-- A section of a sweep that takes no part of the message away. -/
theorem Stage.sweep (hs : Stage m s t) {i : Nat} {w : Sweep} (hw : s.sweeps[i]? = some w)
    (hspares : Undisturbed getClassHash m.messageHash s (.sweep i))
    (h : s.proceedSweep i w = some s') : Stage m s' t := by
  rcases proceedSweep_cases h with ⟨-, -, rfl⟩ | ⟨k, msg, tbl, hnone, ht, rfl⟩ | ⟨msg, -, -, rfl⟩
  · exact hs.transfer (fun _ => Iff.rfl) (Or.inl rfl)
  · obtain ⟨j, hj, rfl⟩ := SegmentedTable.takeExpired_eq_some ht
    have hne : m.messageHash ≠ k := (hspares w hw hnone _ ht).symm
    refine hs.transfer (fun msg' => ?_) (Or.inl rfl)
    exact ⟨VectorMap.mem_entries_of_mem_erase, fun h => VectorMap.mem_erase_of_ne hj h hne⟩
  · exact hs.transfer (fun _ => Iff.rfl) (Or.inl rfl)

theorem Handler.owned_of_isFirst {hd : Handler} (h : hd.isFirst = true) : hd.owned = none := by
  cases hd <;> first | rfl | cases h

/-- A handler begins. -/
theorem Stage.begins (hs : Stage m s t) (h : Begins s s') : Stage m s' t := by
  obtain ⟨hfree, events, next, rfl, hfirst, -⟩ := h
  refine hs.transfer (fun _ => Iff.rfl) (Or.inr ⟨by simp [hfree], fun g hg => ?_⟩)
  exact .of_owned (Handler.owned_of_isFirst (hfirst g hg))

/-- **One step.** -/
theorem stage_step {l : Label} (hs : Stage m s t) (hacc : Accounted s)
    (hg : Undisturbed getClassHash m.messageHash s l)
    (hdel : m.Delivers (t ++ acts m.messageHash s l)) (h : step getClassHash s l = some s') :
    Stage m s' (t ++ acts m.messageHash s l) := by
  rcases step_cases h with hb | ⟨now, rfl, rfl⟩ | ⟨hd, now, answer, rfl, hh, rfl⟩ |
    ⟨i, w, rfl, hw, hsweep⟩
  · have hacts : acts m.messageHash s l = [] := by
      obtain ⟨hfree, -⟩ := hb
      cases l <;> simp [acts, hfree]
    rw [hacts, List.append_nil]
    exact hs.begins hb
  · have hacts : acts m.messageHash s (.checkSegmentedMessages now) = [] := rfl
    rw [hacts, List.append_nil]
    exact hs.transfer (fun _ => Iff.rfl) (Or.inl rfl)
  · have hacts : acts m.messageHash s (.proceed now answer)
        = if hd.isFor m.messageHash then hd.acts s answer else [] := by
      rw [acts, hh]
      rfl
    rw [hacts] at hdel ⊢
    cases hfor : hd.isFor m.messageHash with
    | true =>
      rw [hfor, if_pos rfl] at hdel
      exact hs.proceed hacc hh hfor (hg hd hh) now answer hdel
    | false =>
      rw [if_neg (by simp), List.append_nil]
      refine hs.transfer (mem_proceed_of_not_isFor hfor (hg hd hh) now answer)
        (Or.inr ⟨fun g hgs => ?_, fun g hgs hforg => ?_⟩)
      · rw [hh] at hgs
        obtain rfl := Option.some.inj hgs
        intro hforg
        simp [hfor] at hforg
      · rw [proceed_isFor now answer hd _ g hgs, hfor] at hforg
        cases hforg
  · have hacts : acts m.messageHash s (.sweep i) = [] := rfl
    rw [hacts, List.append_nil]
    exact hs.sweep hw hg hsweep

/-- **Every run.** -/
theorem stage_run {s₀ : State} {ls : List Label} (h₀ : Reachable getClassHash s₀)
    (hfree : s₀.holder = none) (hnew : m.messageHash ∉ s₀.segmented.keys)
    (hg : Run.Guarded (step getClassHash) (Undisturbed getClassHash m.messageHash) s₀ ls)
    (hdel : m.Delivers (trace getClassHash m.messageHash s₀ ls))
    (h : Run.exec (step getClassHash) s₀ ls = some s) :
    Stage m s (trace getClassHash m.messageHash s₀ ls) := by
  have hdel' : m.Delivers ([] ++ trace getClassHash m.messageHash s₀ ls) := hdel
  have hrun := Run.invariant_trace (fun s t => Stage m s t ∧ Accounted s) m.Delivers
    (fun _ _ hd => hd.of_append)
    (fun s l s' t hs hg hd hstep => ⟨stage_step hs.1 hs.2 hg hd hstep, accounted_step hs.2 hstep⟩)
    ⟨.untouched rfl hnew (by simp [hfree]), accounted_of_reachable h₀⟩ hg h hdel'
  exact hrun.1

/-! ## What the log says -/

theorem Handler.publishes_of_acts {hd : Handler} {answer : Option (Nat → Byte)}
    (ha : a ∈ hd.acts s answer) (hp : a.isPublication = true) :
    ∃ x c, hd = .receivePublish x c ∨ hd = .releasePublish x c := by
  cases hd with
  | receivePublish x c => exact ⟨x, c, Or.inl rfl⟩
  | releasePublish x c => exact ⟨x, c, Or.inr rfl⟩
  | receiveFind x =>
    simp only [Handler.acts, Option.mem_toList, Option.map_eq_some_iff] at ha
    obtain ⟨r, -, rfl⟩ := ha
    cases hp
  | loanFind x =>
    simp only [Handler.acts, Option.mem_toList, Option.map_eq_some_iff] at ha
    obtain ⟨r, -, rfl⟩ := ha
    cases hp
  | receiveLoan x =>
    cases answer with
    | none => cases ha
    | some fill =>
      simp only [Handler.acts, Option.isSome_some, if_true, List.mem_cons, List.not_mem_nil,
        or_false] at ha
      rcases ha with rfl | rfl <;> cases hp
  | loanLoan x =>
    cases answer with
    | none => cases ha
    | some fill =>
      simp only [Handler.acts, Option.isSome_some, if_true, List.mem_cons, List.not_mem_nil,
        or_false] at ha
      rcases ha with rfl | rfl <;> cases hp
  | releaseRelease x =>
    obtain rfl := List.mem_singleton.mp ha
    cases hp
  | releaseDecrement x =>
    obtain rfl := List.mem_singleton.mp ha
    cases hp
  | _ => cases ha

/-- A handler that publishes does so for its own message. -/
theorem countP_log_proceed (now : Time) (answer : Option (Nat → Byte)) (hd : Handler) (k : Hash) :
    (s.proceed getClassHash now answer hd).log.countP (Event.publishesMessage k)
      = s.log.countP (Event.publishesMessage k)
        + (if hd.isFor k then hd.acts s answer else []).countP Act.isPublication := by
  by_cases hp : ∃ x c, hd = .receivePublish x c ∨ hd = .releasePublish x c
  · obtain ⟨x, c, rfl | rfl⟩ := hp <;> by_cases hk : x.header.messageHash = k <;>
      simp [State.proceed, State.publish, Handler.isFor, Handler.call, Handler.acts, hk,
        Event.publishesMessage, Act.isPublication]
  · obtain ⟨events, hlog, hev⟩ := proceed_log getClassHash s now answer hd
    have hevents : events.countP (Event.publishesMessage k) = 0 := by
      refine List.countP_eq_zero.mpr fun e he hpub => ?_
      cases e with
      | published c p k' content =>
        obtain ⟨x, hx⟩ := (hev _ he).2.2 c p k' content rfl
        exact hp ⟨x, c, hx⟩
      | _ => cases hpub
    have hacts : (if hd.isFor k then hd.acts s answer else []).countP Act.isPublication = 0 := by
      refine List.countP_eq_zero.mpr fun a ha hpub => hp ?_
      split at ha
      · exact Handler.publishes_of_acts ha hpub
      · cases ha
    rw [hlog, List.countP_append, hevents, hacts, Nat.zero_add, Nat.add_zero]

/-- The publications in the trace are the calls of `publish` in the log. -/
theorem countP_log_step {l : Label} {k : Hash} (h : step getClassHash s l = some s') :
    s'.log.countP (Event.publishesMessage k)
      = s.log.countP (Event.publishesMessage k) + (acts k s l).countP Act.isPublication := by
  rcases step_cases h with ⟨hfree, events, next, rfl, -, harr⟩ | ⟨now, rfl, rfl⟩ |
    ⟨hd, now, answer, rfl, hh, rfl⟩ | ⟨i, w, rfl, hw, hsweep⟩
  · have hacts : acts k s l = [] := by cases l <;> simp [acts, hfree]
    have hevents : events.countP (Event.publishesMessage k) = 0 := by
      refine List.countP_eq_zero.mpr fun e he hpub => ?_
      have := harr e he
      cases e with
      | published c p k' content => cases this
      | _ => cases hpub
    rw [hacts, List.countP_append, hevents, Nat.zero_add]
    rfl
  · rfl
  · rw [countP_log_proceed, acts, hh]
    rfl
  · rcases proceedSweep_cases hsweep with ⟨-, -, rfl⟩ | ⟨_, _, _, -, -, rfl⟩ | ⟨_, -, -, rfl⟩
    · rfl
    · rfl
    · rfl

theorem countP_log_run {s₀ : State} {ls : List Label} {k : Hash}
    (h : Run.exec (step getClassHash) s₀ ls = some s) :
    s.log.countP (Event.publishesMessage k) = s₀.log.countP (Event.publishesMessage k)
      + (trace getClassHash k s₀ ls).countP Act.isPublication := by
  induction ls generalizing s₀ with
  | nil =>
    obtain rfl : s₀ = s := by simpa using h
    simp [trace, Run.trace]
  | cons l ls ih =>
    obtain ⟨s', h₁, h₂⟩ := Run.exec_cons.mp h
    have hstep := countP_log_step (k := k) h₁
    have hrest := ih h₂
    simp only [trace, Run.trace, h₁, Option.map_some, Option.getD_some, List.countP_append]
      at hrest ⊢
    omega

/-! ## The main result -/

/-- A publication is the last thing that happens to the message. -/
theorem Stage.of_published (hs : Stage m s t) {before after : List Act}
    {hd : IoxChunkDatagramHeader} {c : ChunkId} (ht : t = before ++ .published hd c :: after) :
    after = [] ∧ (completed before).length = m.headers.length ∧
      ∃ earlier a, before = earlier ++ [a] ∧ a.completes = some hd := by
  have hmem : ∀ l : List Act, Act.published hd c ∈ l → l.countP Act.isPublication ≠ 0 := by
    intro l hl hzero
    have := List.countP_eq_zero.mp hzero _ hl
    simp [Act.isPublication] at this
  have hin : Act.published hd c ∈ t := by simp [ht]
  cases hs with
  | untouched hnil => simp [hnil] at hin
  | storing h x c' remaining hh hpush hx hc => exact absurd hc.unpublished (hmem t hin)
  | stored msg hmsg hc => exact absurd hc.unpublished (hmem t hin)
  | publishing h x c' before' a hh hpublish hx ht' ha hc =>
    exact absurd hc.unpublished (hmem t hin)
  | published hd' c' before' a ht' ha hc hr =>
    rw [ht] at ht'
    rcases List.eq_nil_or_concat' after with rfl | ⟨after', z, rfl⟩
    · obtain ⟨rfl, hlast⟩ := List.append_inj' ht' rfl
      obtain ⟨rfl, rfl⟩ : hd = hd' ∧ c = c' := by simpa using hlast
      refine ⟨rfl, ?_, before', a, rfl, ha⟩
      rw [ht, completed_append, List.length_append] at hr
      exact hr
    · rw [← List.cons_append, ← List.append_assoc] at ht'
      obtain ⟨heq, -⟩ := List.append_inj' ht' rfl
      refine absurd hc.unpublished (hmem _ ?_)
      rw [← heq]
      simp

theorem Stage.one_chunk (hs : Stage m s t) : ∃ c, ∀ a ∈ t, a.chunk = some c := by
  cases hs with
  | untouched ht => exact ⟨0, by simp [ht]⟩
  | storing h x c remaining hh hpush hx hc => exact ⟨c, hc.chunk⟩
  | stored msg hmem hc => exact ⟨_, hc.chunk⟩
  | publishing h x c before a hh hpublish hx ht ha hc => exact ⟨c, hc.chunk⟩
  | published hd c before a ht ha hc =>
    rw [ht]
    exact ⟨c, List.forall_mem_append.mpr ⟨hc.chunk, by simp [Act.chunk]⟩⟩

theorem Stage.one_loan (hs : Stage m s t) (hne : t ≠ []) : t.countP Act.isLoan = 1 := by
  cases hs with
  | untouched ht => exact absurd ht hne
  | storing h x c remaining hh hpush hx hc => exact hc.loan
  | stored msg hmem hc => exact hc.loan
  | publishing h x c before a hh hpublish hx ht ha hc => exact hc.loan
  | published hd c before a ht ha hc =>
    rw [ht, List.countP_append, hc.loan]
    rfl

theorem Stage.one_publication (hs : Stage m s t) (hall : m.DeliversAll t)
    (hret : s.holder = none) : t.countP Act.isPublication = 1 := by
  have hle := hall.le_completed
  have hpos := List.length_pos_iff.mpr m.ne_nil
  cases hs with
  | untouched ht =>
    rw [ht] at hle
    exact absurd (Nat.lt_of_lt_of_le hpos hle) (by simp [completed])
  | storing h x c remaining hh =>
    rw [hret] at hh
    cases hh
  | stored msg hmem hc hr hpos' => omega
  | publishing h x c before a hh =>
    rw [hret] at hh
    cases hh
  | published hd c before a ht ha hc =>
    rw [ht, List.countP_append, hc.unpublished]
    rfl

/-- **The two paths count together.**  A message that is new at `s₀` is delivered, each submessage
once and on either path, in a run in which nothing else takes it out of the table.  All its calls
refer to one chunk, which is loaned once.  A publication is the last thing that happens to the
message; it follows the call that has completed the last submessage, which makes it.  When all
submessages have been delivered and the last call has returned, the message has been published
exactly once. -/
theorem mixed_paths_publish_once (getClassHash : ServiceDescription → ClassHash)
    (m : MessageHeaders) {s₀ s : State} {ls : List Label} (h₀ : Reachable getClassHash s₀)
    (hfree : s₀.holder = none) (hnew : m.messageHash ∉ s₀.segmented.keys)
    (hg : Run.Guarded (step getClassHash) (Undisturbed getClassHash m.messageHash) s₀ ls)
    (hdel : m.Delivers (trace getClassHash m.messageHash s₀ ls))
    (h : Run.exec (step getClassHash) s₀ ls = some s) :
    (∃ c, ∀ a ∈ trace getClassHash m.messageHash s₀ ls, a.chunk = some c) ∧
      (trace getClassHash m.messageHash s₀ ls ≠ [] →
        (trace getClassHash m.messageHash s₀ ls).countP Act.isLoan = 1) ∧
      (∀ before hd c after,
        trace getClassHash m.messageHash s₀ ls = before ++ .published hd c :: after →
        after = [] ∧ (completed before).length = m.headers.length ∧
          ∃ earlier a, before = earlier ++ [a] ∧ a.completes = some hd) ∧
      (m.DeliversAll (trace getClassHash m.messageHash s₀ ls) → s.holder = none →
        s.log.countP (Event.publishesMessage m.messageHash)
          = s₀.log.countP (Event.publishesMessage m.messageHash) + 1) := by
  have hs := stage_run h₀ hfree hnew hg hdel h
  have hlog := countP_log_run (k := m.messageHash) h
  revert hs hlog
  generalize trace getClassHash m.messageHash s₀ ls = t
  intro hs hlog
  refine ⟨?_, fun hne => ?_, fun before hd c after ht => hs.of_published ht, fun hall hret => ?_⟩
  · exact hs.one_chunk
  · exact hs.one_loan hne
  · rw [hlog, hs.one_publication hall hret]

/-- The first submessage is written by the transport and the second one is copied while the buffer
of the first is out. -/
def demoMixed : List Label :=
  demoSetup ++
  [.loanBuffer (serialize (demoHeader 9 0)), .proceed 0 none, .proceed 0 (some fun _ => 0),
    .proceed 0 none, .proceed 0 none] ++
  [.receive (serialize (demoHeader 9 1) ++ [8]) ⟨.udp, 0⟩, .proceed 0 none, .proceed 0 none] ++
  [.releaseBuffer (serialize (demoHeader 9 0)) false ⟨.udp, 0⟩, .proceed 0 none, .proceed 0 none]

theorem mixed_paths_publish_once_demo :
    ∃ s, Run.exec (step demoClassHash) State.init demoMixed = some s ∧
      trace demoClassHash 9 State.init demoMixed
        = [.loaned 0, .lent (demoHeader 9 0) 0, .received (demoHeader 9 1) 0,
          .returned (demoHeader 9 0) (some 0), .published (demoHeader 9 0) 0] ∧
      s.log.countP (Event.publishesMessage 9) = 1 := by
  refine ⟨_, rfl, by decide +kernel, ?_⟩
  have hundisturbed : Run.Guarded (step demoClassHash)
      (Undisturbed demoClassHash (MessageHeaders.ofSent demoMessage).messageHash) State.init
      demoMixed := by decide +kernel
  exact (mixed_paths_publish_once demoClassHash (.ofSent demoMessage) ⟨[], rfl⟩ rfl (by decide)
    hundisturbed (by decide +kernel) rfl).2.2.2 (by decide +kernel) (by decide)

end P3com.TransportToIox
