/-
# The table of segmented messages

`source/p3com/generic/segmented_messages.cpp`.  The functions here are the bodies of the sections
that `SegmentedMessageManager` runs under its own mutex: what they do to `m_segmentedMessages`,
and which payloads they release.  The calls of `publisher->release` are left to the caller, which
keeps the record of them.

The member `mutex` of `SegmentedMessage_t` always refers to the endpoints mutex of the one
`Transport2Iceoryx` object, so it is left out.
-/
import P3com.Generic.Types

namespace P3com

/-! ## The table -/

/-- `MAX_SEGMENTED_MESSAGE_COUNT`. -/
def maxSegmentedMessageCount : Nat := 64

/-- A chunk, by the number of the loan that handed it out. -/
abbrev ChunkId := Nat

/-- A publisher object. -/
abbrev PublisherId := Nat

/-- A time point of the steady clock, in nanoseconds. -/
abbrev Time := Nat

/-- `SegmentedMessage_t`.  `userHeader` is `none` for a null pointer and else the chunk whose
user header it points to. -/
structure SegmentedMessage where
  remainingSegments : UInt32
  userHeader : Option ChunkId
  userPayload : ChunkId
  publisher : PublisherId
  deadline : Time
deriving DecidableEq

/-- `m_segmentedMessages`. -/
abbrev SegmentedTable := VectorMap Hash SegmentedMessage maxSegmentedMessageCount

namespace SegmentedTable

/-- `push`: `none` when the table is full, and then the payload is released. -/
def push (t : SegmentedTable) (messageHash : Hash) (msg : SegmentedMessage) :
    Option SegmentedTable :=
  t.emplace messageHash msg

/-- `findAndDecrement`: the message as it was found, whether it should be published, and the
table afterwards.  The counter wraps at zero. -/
def findAndDecrement (t : SegmentedTable) (messageHash : Hash) :
    Option (SegmentedMessage × Bool × SegmentedTable) :=
  match t.findElem messageHash with
  | none => none
  | some (i, msg) =>
    let remaining := msg.remainingSegments - 1
    if remaining = 0 then some (msg, true, t.erase i)
    else some (msg, false, t.set i { msg with remainingSegments := remaining })

/-- `release` by message hash: the message whose payload is released. -/
def release (t : SegmentedTable) (messageHash : Hash) :
    Option (SegmentedMessage × SegmentedTable) :=
  (t.findElem messageHash).map fun r => (r.2, t.erase r.1)

/-- The locked section of `checkSegmentedMessages`: take the first message whose deadline has
passed out of the table. -/
def takeExpired (t : SegmentedTable) (now : Time) :
    Option (Hash × SegmentedMessage × SegmentedTable) :=
  (t.elems.findIdx? fun msg => msg.deadline < now).bind fun i =>
    t.entries[i]?.map fun e => (e.1, e.2, t.erase i)

/-- The loop of `releaseAll`, from the iterator at index `k` down to the beginning. -/
def releaseAllLoop (publisher : PublisherId) :
    Nat → SegmentedTable → List SegmentedMessage → SegmentedTable × List SegmentedMessage
  | 0, t, released => (t, released)
  | k + 1, t, released =>
    match t.elems[k]? with
    | none => releaseAllLoop publisher k t released
    | some msg =>
      if msg.publisher = publisher then
        releaseAllLoop publisher k (t.erase k) (released ++ [msg])
      else
        releaseAllLoop publisher k t released

/-- `releaseAll`: the table afterwards and the messages whose payloads are released, in the order
of the calls. -/
def releaseAll (t : SegmentedTable) (publisher : PublisherId) :
    SegmentedTable × List SegmentedMessage :=
  releaseAllLoop publisher t.size t []

/-! ## What the sections do -/

theorem findAndDecrement_eq_none {t : SegmentedTable} {h : Hash} :
    t.findAndDecrement h = none ↔ h ∉ t.keys := by
  rw [← VectorMap.findElem_eq_none, findAndDecrement]
  cases t.findElem h with
  | none => simp
  | some r =>
    simp only
    split <;> simp

/-- `findAndDecrement` on a known hash: the message was at some index, and it is erased when its
last segment is counted and else written back with the counter one lower. -/
theorem findAndDecrement_eq_some {t t' : SegmentedTable} {h : Hash} {msg : SegmentedMessage}
    {publish : Bool} (heq : t.findAndDecrement h = some (msg, publish, t')) :
    ∃ i, t.entries[i]? = some (h, msg) ∧
      ((publish = true ∧ msg.remainingSegments - 1 = 0 ∧ t' = t.erase i) ∨
        (publish = false ∧ msg.remainingSegments - 1 ≠ 0 ∧
          t' = t.set i { msg with remainingSegments := msg.remainingSegments - 1 })) := by
  unfold findAndDecrement at heq
  split at heq
  · cases heq
  · rename_i i m hf
    simp only at heq
    split at heq
    · obtain ⟨rfl, rfl, rfl⟩ : m = msg ∧ true = publish ∧ t.erase i = t' := by simpa using heq
      exact ⟨i, VectorMap.findElem_eq_some hf, Or.inl ⟨rfl, ‹_›, rfl⟩⟩
    · rename_i hne
      obtain ⟨rfl, rfl, rfl⟩ : m = msg ∧ false = publish ∧ _ = t' := by simpa using heq
      exact ⟨i, VectorMap.findElem_eq_some hf, Or.inr ⟨rfl, hne, rfl⟩⟩

theorem release_eq_some {t t' : SegmentedTable} {h : Hash} {msg : SegmentedMessage}
    (heq : t.release h = some (msg, t')) :
    ∃ i, t.entries[i]? = some (h, msg) ∧ t' = t.erase i := by
  obtain ⟨⟨i, m⟩, hf, hr⟩ := Option.map_eq_some_iff.mp heq
  obtain ⟨rfl, rfl⟩ := Prod.mk.inj hr
  exact ⟨i, VectorMap.findElem_eq_some hf, rfl⟩

theorem takeExpired_eq_some {t t' : SegmentedTable} {now : Time} {h : Hash}
    {msg : SegmentedMessage} (heq : t.takeExpired now = some (h, msg, t')) :
    ∃ i, t.entries[i]? = some (h, msg) ∧ t' = t.erase i := by
  obtain ⟨i, _, hb⟩ := Option.bind_eq_some_iff.mp heq
  obtain ⟨⟨k, m⟩, he, hr⟩ := Option.map_eq_some_iff.mp hb
  obtain ⟨rfl, rfl, rfl⟩ : k = h ∧ m = msg ∧ t.erase i = t' := by simpa using hr
  exact ⟨i, he, rfl⟩

/-- What the locked section of `checkSegmentedMessages` does: it finds nothing, or it takes the
first message out whose deadline has passed. -/
theorem takeExpired_cases (t : SegmentedTable) (now : Time) :
    (t.takeExpired now = none ∧ ∀ e ∈ t.entries, ¬ e.2.deadline < now) ∨
      ∃ front e back, t.entries = front ++ e :: back ∧ (∀ d ∈ front, ¬ d.2.deadline < now) ∧
        e.2.deadline < now ∧ t.takeExpired now = some (e.1, e.2, t.erase front.length) ∧
        (t.erase front.length).entries = front ++ back := by
  unfold takeExpired
  rw [VectorMap.elems_eq, List.findIdx?_map]
  cases hidx : t.entries.findIdx? ((fun msg => decide (msg.deadline < now)) ∘ Prod.snd) with
  | none => exact Or.inl ⟨rfl, by simpa [List.findIdx?_eq_none_iff] using hidx⟩
  | some i =>
    obtain ⟨hlt, hexpired, hfirst⟩ := List.findIdx?_eq_some_iff_getElem.mp hidx
    have hlen : (t.entries.take i).length = i := by
      rw [List.length_take, Nat.min_eq_left (Nat.le_of_lt hlt)]
    refine Or.inr ⟨t.entries.take i, t.entries[i], t.entries.drop (i + 1), ?_, fun d hd => ?_,
      by simpa using hexpired, ?_, ?_⟩
    · rw [← List.drop_eq_getElem_cons hlt, List.take_append_drop]
    · obtain ⟨j, hj, rfl⟩ := List.mem_take_iff_getElem.mp hd
      simpa using hfirst j (by omega)
    · rw [hlen]
      simp [List.getElem?_eq_getElem hlt]
    · rw [hlen, VectorMap.entries_erase, List.eraseIdx_eq_take_drop_succ]

/-- The backwards loop of `releaseAll` filters the entries below its iterator and leaves those
above it alone; what it releases are the entries it filters out, last first. -/
theorem releaseAllLoop_eq (publisher : PublisherId) :
    ∀ (k : Nat) (t : SegmentedTable) (released : List SegmentedMessage),
      (releaseAllLoop publisher k t released).1.entries
          = (t.entries.take k).filter (fun e => e.2.publisher ≠ publisher) ++ t.entries.drop k ∧
        (releaseAllLoop publisher k t released).2
          = released ++
            (((t.entries.take k).filter (fun e => e.2.publisher = publisher)).map Prod.snd).reverse
  | 0, t, released => by simp [releaseAllLoop]
  | k + 1, t, released => by
    rw [releaseAllLoop]
    cases hk : t.entries[k]? with
    | none =>
      have hlen : t.entries.length ≤ k := by simpa using hk
      have he : t.elems[k]? = none := by
        rw [VectorMap.elems_eq, List.getElem?_map, hk]
        rfl
      simp only [he]
      have ih := releaseAllLoop_eq publisher k t released
      rw [List.take_of_length_le (Nat.le_succ_of_le hlen), List.drop_of_length_le
        (Nat.le_succ_of_le hlen)]
      rwa [List.take_of_length_le hlen, List.drop_of_length_le hlen] at ih
    | some e =>
      obtain ⟨hlt, hget⟩ := List.getElem?_eq_some_iff.mp hk
      have he : t.elems[k]? = some e.2 := by
        rw [VectorMap.elems_eq, List.getElem?_map, hk]
        rfl
      have htake : t.entries.take (k + 1) = t.entries.take k ++ [e] := by
        rw [List.take_succ_eq_append_getElem hlt, hget]
      simp only [he]
      split
      · rename_i hp
        have ih := releaseAllLoop_eq publisher k (t.erase k) (released ++ [e.2])
        have htk : (t.erase k).entries.take k = t.entries.take k := by
          rw [VectorMap.entries_erase, List.take_eraseIdx_eq_take_of_le _ _ _ (Nat.le_refl k)]
        have hdk : (t.erase k).entries.drop k = t.entries.drop (k + 1) := by
          rw [VectorMap.entries_erase, List.eraseIdx_eq_take_drop_succ, List.drop_left']
          rw [List.length_take, Nat.min_eq_left (Nat.le_of_lt hlt)]
        rw [htk, hdk] at ih
        rw [htake, ih.1, ih.2]
        simp [List.filter_append, hp]
      · rename_i hp
        have ih := releaseAllLoop_eq publisher k t released
        have hd : t.entries.drop k = e :: t.entries.drop (k + 1) := by
          rw [List.drop_eq_getElem_cons hlt, hget]
        rw [htake, ih.1, ih.2, hd]
        simp [List.filter_append, hp]

/-- **`releaseAll` is a filter.** -/
theorem releaseAll_eq (t : SegmentedTable) (publisher : PublisherId) :
    (t.releaseAll publisher).1.entries = t.entries.filter (fun e => e.2.publisher ≠ publisher) ∧
      (t.releaseAll publisher).2
        = ((t.entries.filter (fun e => e.2.publisher = publisher)).map Prod.snd).reverse := by
  have h := releaseAllLoop_eq publisher t.size t []
  rwa [← VectorMap.length_entries, List.take_length, List.drop_length, List.append_nil,
    List.nil_append, VectorMap.length_entries] at h

end SegmentedTable

end P3com
