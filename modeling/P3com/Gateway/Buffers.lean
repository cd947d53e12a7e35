/-
# The pointers of a message point into its chunk

A table entry and a handler between two sections carry two raw pointers, `userHeader` and
`userPayload`.  In every reachable state they are the two buffers of one loaned chunk: the user
payload is that chunk's, and the user header is null exactly when the chunk was loaned without
one.  The sizes of the buffers never change.

This holds without any condition on the run.  What can go wrong with the chunk itself is the
subject of `ChunkAccess.lean`.
-/
import P3com.Gateway.Accounting

namespace P3com.TransportToIox

variable {getClassHash : ServiceDescription → ClassHash} {s s' : State}

/-! ## Chunks keep their shape -/

/-- Every chunk of `l` is still there in `l'`, with buffers of the same sizes. -/
def SameShape (l l' : List Chunk) : Prop :=
  ∀ (c : ChunkId) (chunk : Chunk), l[c]? = some chunk →
    ∃ chunk', l'[c]? = some chunk' ∧ ∀ p, chunk'.bufferSize p = chunk.bufferSize p

theorem SameShape.refl (l : List Chunk) : SameShape l l := fun _ chunk h => ⟨chunk, h, fun _ => rfl⟩

theorem SameShape.append (l : List Chunk) (chunk : Chunk) : SameShape l (l ++ [chunk]) := by
  intro c ch h
  obtain ⟨hlt, rfl⟩ := List.getElem?_eq_some_iff.mp h
  exact ⟨l[c], by simp [List.getElem?_append_left hlt, hlt], fun _ => rfl⟩

theorem SameShape.write (l : List Chunk) (c : ChunkId) (part : Part) (offset : Nat)
    (data : List Byte) :
    SameShape l (l.modify c fun chunk => chunk.write part offset data) := by
  intro c' ch h
  by_cases hc : c = c'
  · subst hc
    exact ⟨ch.write part offset data, by simp [h], fun p => bufferSize_write _ _ _ _ p⟩
  · exact ⟨ch, by simp [hc, h], fun _ => rfl⟩

theorem takeNext_chunks (s : State) (x : Call) (userHeader : Option ChunkId) (c : ChunkId) :
    (s.takeNext x userHeader c).chunks = s.chunks ∨ ∃ c' part offset data,
      (s.takeNext x userHeader c).chunks
        = s.chunks.modify c' fun chunk => chunk.write part offset data := by
  unfold State.takeNext
  split
  · exact Or.inl rfl
  · exact Or.inr ⟨_, _, _, _, rfl⟩

/-- What a section does to the chunks: nothing, or it loans one more, or it writes into one. -/
theorem proceed_chunks (s : State) (now : Time) (answer : Option (Nat → Byte)) (h : Handler) :
    (s.proceed getClassHash now answer h).chunks = s.chunks ∨
      (∃ chunk, (s.proceed getClassHash now answer h).chunks = s.chunks ++ [chunk]) ∨
      ∃ c part offset data, (s.proceed getClassHash now answer h).chunks
        = s.chunks.modify c fun chunk => chunk.write part offset data := by
  cases h with
  | receiveFind x =>
    simp only [State.proceed]
    split <;> exact Or.inl rfl
  | receiveLoan x =>
    cases answer with
    | none => exact Or.inl rfl
    | some fill => exact Or.inr (Or.inl ⟨_, rfl⟩)
  | receivePush x c => exact Or.inl (State.pushSegmented_chunks s x _ c now)
  | receiveTake x userHeader c shouldPublish =>
    rcases takeNext_chunks s x userHeader c with hc | hc
    · exact Or.inl hc
    · exact Or.inr (Or.inr hc)
  | receivePublish x c => exact Or.inl rfl
  | loanFind x =>
    simp only [State.proceed]
    split <;> exact Or.inl rfl
  | loanLoan x =>
    cases answer with
    | none => exact Or.inl rfl
    | some fill => exact Or.inr (Or.inl ⟨_, rfl⟩)
  | loanPush x c => exact Or.inl (State.pushSegmented_chunks s x _ c now)
  | loanReturn x userHeader c =>
    simp only [State.proceed]
    split
    · cases userHeader <;> exact Or.inl rfl
    · exact Or.inl rfl
  | releaseRelease x =>
    simp only [State.proceed]
    split <;> exact Or.inl rfl
  | releaseDecrement x =>
    simp only [State.proceed]
    split <;> exact Or.inl rfl
  | releasePublish x c => exact Or.inl rfl
  | updateChannels toDelete toSetup =>
    cases toDelete with
    | cons service toDelete => exact Or.inl (State.deleteChannel_chunks getClassHash s service)
    | nil =>
      cases toSetup with
      | cons service toSetup => exact Or.inl rfl
      | nil => exact Or.inl rfl

theorem takeNext_sameShape (s : State) (x : Call) (userHeader : Option ChunkId) (c : ChunkId) :
    SameShape s.chunks (s.takeNext x userHeader c).chunks := by
  rcases takeNext_chunks s x userHeader c with hc | ⟨_, _, _, _, hc⟩
  · rw [hc]
    exact SameShape.refl _
  · rw [hc]
    exact SameShape.write _ _ _ _ _

theorem proceed_sameShape (s : State) (now : Time) (answer : Option (Nat → Byte)) (h : Handler) :
    SameShape s.chunks (s.proceed getClassHash now answer h).chunks := by
  rcases @proceed_chunks getClassHash s now answer h with hc | ⟨_, hc⟩ |
    ⟨_, _, _, _, hc⟩
  · rw [hc]
    exact SameShape.refl _
  · rw [hc]
    exact SameShape.append _ _
  · rw [hc]
    exact SameShape.write _ _ _ _ _

theorem sameShape_step {l : Label} (h : step getClassHash s l = some s') :
    SameShape s.chunks s'.chunks := by
  rcases step_cases h with ⟨-, _, _, rfl, -⟩ | ⟨_, -, rfl⟩ | ⟨hd, now, answer, -, -, rfl⟩ |
    ⟨i, w, -, -, hsweep⟩
  · exact SameShape.refl _
  · exact SameShape.refl _
  · exact proceed_sameShape s now answer hd
  · rcases proceedSweep_cases hsweep with ⟨-, -, rfl⟩ | ⟨_, _, _, -, -, rfl⟩ | ⟨_, -, -, rfl⟩ <;>
      exact SameShape.refl _

/-! ## Pointers -/

/-- The two pointers are those of one loaned chunk. -/
def ValidBuffer (l : List Chunk) (userHeader : Option ChunkId) (userPayload : ChunkId) : Prop :=
  ∃ chunk, l[userPayload]? = some chunk ∧
    userHeader = if chunk.userHeader.isSome then some userPayload else none

theorem ValidBuffer.mono {l l' : List Chunk} {userHeader : Option ChunkId} {c : ChunkId}
    (h : ValidBuffer l userHeader c) (hl : SameShape l l') : ValidBuffer l' userHeader c := by
  obtain ⟨chunk, hc, rfl⟩ := h
  obtain ⟨chunk', hc', hsize⟩ := hl c chunk hc
  refine ⟨chunk', hc', ?_⟩
  have := hsize .userHeader
  simp only [Chunk.bufferSize] at this
  have hsome := congrArg Option.isSome this
  rw [Option.isSome_map, Option.isSome_map] at hsome
  rw [hsome]

/-- A user header pointer is null or points into the chunk of the user payload. -/
theorem ValidBuffer.eq_of_userHeader {l : List Chunk} {c c' : ChunkId}
    (h : ValidBuffer l (some c') c) : c' = c := by
  obtain ⟨chunk, -, heq⟩ := h
  split at heq
  · exact Option.some.inj heq
  · cases heq

theorem validBuffer_loan (l : List Chunk) (x : Call) (fill : Nat → Byte) :
    ValidBuffer (l ++ [State.loanedChunk x fill]) (State.userHeaderOf x.header l.length)
      l.length := by
  refine ⟨State.loanedChunk x fill, by simp, ?_⟩
  unfold State.userHeaderOf State.loanedChunk
  split <;> simp

/-- The pointers that the handler carries. -/
def Handler.buffer : Handler → Option (Option ChunkId × ChunkId)
  | .receivePush x c => some (State.userHeaderOf x.header c, c)
  | .receiveTake _ userHeader c _ => some (userHeader, c)
  | .loanPush x c => some (State.userHeaderOf x.header c, c)
  | .loanReturn _ userHeader c => some (userHeader, c)
  | _ => none

theorem Handler.buffer_of_isFirst {h : Handler} (hf : h.isFirst = true) : h.buffer = none := by
  cases h <;> first | rfl | cases hf

/-- Every pointer in the table and in the holder is valid. -/
structure BuffersValid (s : State) : Prop where
  table : ∀ k msg, (k, msg) ∈ s.segmented.entries →
    ValidBuffer s.chunks msg.userHeader msg.userPayload
  holder : ∀ h userHeader c, s.holder = some h → h.buffer = some (userHeader, c) →
    ValidBuffer s.chunks userHeader c

/-- `findAndDecrement` touches only the counters of the messages that stay. -/
theorem mem_of_findAndDecrement {t t' : SegmentedTable} {k k' : Hash}
    {msg msg' : SegmentedMessage} {publish : Bool}
    (h : t.findAndDecrement k = some (msg, publish, t')) (hmem : (k', msg') ∈ t'.entries) :
    ∃ r, (k', { msg' with remainingSegments := r }) ∈ t.entries := by
  obtain ⟨i, hi, ⟨-, -, rfl⟩ | ⟨-, -, rfl⟩⟩ := SegmentedTable.findAndDecrement_eq_some h
  · exact ⟨msg'.remainingSegments, VectorMap.mem_entries_of_mem_erase hmem⟩
  · rw [VectorMap.entries_set (VectorMap.getElem?_entries.mp hi).1] at hmem
    rcases List.mem_or_eq_of_mem_set hmem with hmem | heq
    · exact ⟨msg'.remainingSegments, hmem⟩
    · obtain ⟨rfl, rfl⟩ := Prod.mk.inj heq
      exact ⟨msg.remainingSegments, List.mem_of_getElem? hi⟩

/-- The message that a handler found in the table. -/
theorem mem_findAndDecrement {t t' : SegmentedTable} {k : Hash} {msg : SegmentedMessage}
    {publish : Bool} (h : t.findAndDecrement k = some (msg, publish, t')) :
    (k, msg) ∈ t.entries := by
  obtain ⟨i, hi, -⟩ := SegmentedTable.findAndDecrement_eq_some h
  exact List.mem_of_getElem? hi

/-- The pointers stay valid when nothing new comes into the table and the holder goes on without
pointers. -/
theorem BuffersValid.of_subset (hs : BuffersValid s) (hshape : SameShape s.chunks s'.chunks)
    (htable : ∀ k msg, (k, msg) ∈ s'.segmented.entries →
      ∃ r, (k, { msg with remainingSegments := r }) ∈ s.segmented.entries)
    (hholder : ∀ h userHeader c, s'.holder = some h → h.buffer = some (userHeader, c) →
      ValidBuffer s'.chunks userHeader c) : BuffersValid s' := by
  refine ⟨fun k msg hmem => ?_, hholder⟩
  obtain ⟨r, hr⟩ := htable k msg hmem
  exact (hs.table _ _ hr).mono hshape

theorem buffersValid_push {x : Call} {c : ChunkId} (hs : BuffersValid s) (remaining : UInt32)
    (now : Time) {h h' : Handler} (hh : s.holder = some h)
    (hb : h.buffer = some (State.userHeaderOf x.header c, c)) (hb' : h'.buffer = h.buffer) :
    BuffersValid ((s.pushSegmented x remaining c now).goto (some h')) := by
  have hvalid := hs.holder h _ _ hh hb
  constructor
  · intro k msg hmem
    simp only [State.goto_chunks, State.pushSegmented_chunks]
    simp only [State.goto_segmented] at hmem
    unfold State.pushSegmented at hmem
    split at hmem
    · rename_i t hp
      rw [VectorMap.entries_emplace hp] at hmem
      rcases List.mem_append.mp hmem with hmem | hmem
      · exact hs.table k msg hmem
      · obtain ⟨rfl, rfl⟩ := Prod.mk.inj (List.mem_singleton.mp hmem)
        exact hvalid
    · exact hs.table k msg hmem
  · intro h'' userHeader c' hh'' hb''
    simp only [State.goto_chunks, State.pushSegmented_chunks]
    obtain rfl : h' = h'' := by simpa using hh''
    rw [hb', hb] at hb''
    obtain ⟨rfl, rfl⟩ := Prod.mk.inj (Option.some.inj hb'')
    exact hvalid

/-- A section that leaves the holder without pointers, and the table as it is. -/
theorem BuffersValid.goto (hs : BuffersValid s) (s' : State) (next : Option Handler)
    (hnext : next.bind Handler.buffer = none) (hchunks : SameShape s.chunks s'.chunks)
    (htable : s'.segmented = s.segmented) : BuffersValid (s'.goto next) := by
  refine hs.of_subset hchunks (fun k msg hmem => ?_) (fun h userHeader c hh hb => ?_)
  · exact ⟨msg.remainingSegments, by rwa [State.goto_segmented, htable] at hmem⟩
  · rw [State.goto_holder] at hh
    subst hh
    rw [Option.bind_some, hb] at hnext
    cases hnext

theorem BuffersValid.found (hs : BuffersValid s) {k : Hash} {msg : SegmentedMessage}
    {publish : Bool} {t : SegmentedTable} {h : Handler}
    (hf : s.segmented.findAndDecrement k = some (msg, publish, t))
    (hb : ∀ b, h.buffer = some b → b = (msg.userHeader, msg.userPayload)) :
    BuffersValid ({ s with segmented := t }.goto (some h)) := by
  refine hs.of_subset (SameShape.refl _) (fun k' msg' hmem => mem_of_findAndDecrement hf hmem) ?_
  intro h' userHeader c hh hb'
  obtain rfl : h = h' := by simpa using hh
  obtain ⟨rfl, rfl⟩ := Prod.mk.inj (hb _ hb')
  exact hs.table _ _ (mem_findAndDecrement hf)

theorem BuffersValid.loan (hs : BuffersValid s) (x : Call) (fill : Nat → Byte) {h : Handler}
    (hb : h.buffer = some (State.userHeaderOf x.header s.chunks.length, s.chunks.length)) :
    BuffersValid ((s.loan x fill).goto (some h)) := by
  refine hs.of_subset (SameShape.append _ _) (fun k msg hmem => ⟨msg.remainingSegments, hmem⟩) ?_
  intro h' userHeader c hh hb'
  obtain rfl : h = h' := by simpa using hh
  rw [hb] at hb'
  obtain ⟨rfl, rfl⟩ := Prod.mk.inj (Option.some.inj hb')
  exact validBuffer_loan s.chunks x fill

theorem buffersValid_proceed {h : Handler} (hs : BuffersValid s) (hh : s.holder = some h)
    (now : Time) (answer : Option (Nat → Byte)) :
    BuffersValid (s.proceed getClassHash now answer h) := by
  cases h with
  | receiveFind x =>
    rw [State.proceed]
    cases hf : s.segmented.findAndDecrement x.header.messageHash with
    | none => exact hs.goto _ _ rfl (SameShape.refl _) rfl
    | some r =>
      obtain ⟨msg, shouldPublish, t⟩ := r
      exact hs.found hf fun b hb => (Option.some.inj hb).symm
  | receiveLoan x =>
    cases answer with
    | none =>
      exact hs.goto (s.record (.loanFailed x.header.messageHash)) none rfl
        (SameShape.refl _) rfl
    | some fill =>
      simp only [State.proceed]
      split
      · exact hs.loan x fill rfl
      · exact hs.loan x fill rfl
  | receivePush x c => exact buffersValid_push hs _ now hh rfl rfl
  | receiveTake x userHeader c shouldPublish =>
    refine hs.goto _ _ ?_ (takeNext_sameShape s x userHeader c) ?_
    · cases shouldPublish <;> rfl
    · unfold State.takeNext
      split <;> rfl
  | receivePublish x c => exact hs.goto _ none rfl (SameShape.refl _) rfl
  | loanFind x =>
    rw [State.proceed]
    cases hf : s.segmented.findElem x.header.messageHash with
    | none => exact hs.goto _ _ rfl (SameShape.refl _) rfl
    | some r =>
      obtain ⟨i, msg⟩ := r
      refine ⟨hs.table, fun h userHeader c hh' hb => ?_⟩
      obtain rfl : Handler.loanReturn x msg.userHeader msg.userPayload = h := by simpa using hh'
      obtain ⟨rfl, rfl⟩ := Prod.mk.inj (Option.some.inj hb)
      exact hs.table _ _ (VectorMap.mem_of_findElem hf)
  | loanLoan x =>
    cases answer with
    | none =>
      exact hs.goto (s.record (.loanFailed x.header.messageHash)) none rfl
        (SameShape.refl _) rfl
    | some fill => exact hs.loan x fill rfl
  | loanPush x c => exact buffersValid_push hs _ now hh rfl rfl
  | loanReturn x userHeader c =>
    simp only [State.proceed]
    split
    · cases userHeader with
      | none => exact hs.goto _ none rfl (SameShape.refl _) rfl
      | some c' => exact hs.goto _ none rfl (SameShape.refl _) rfl
    · exact hs.goto _ none rfl (SameShape.refl _) rfl
  | releaseRelease x =>
    rw [State.proceed]
    cases hf : s.segmented.release x.header.messageHash with
    | none => exact hs.goto _ none rfl (SameShape.refl _) rfl
    | some r =>
      obtain ⟨msg, t⟩ := r
      obtain ⟨i, -, rfl⟩ := SegmentedTable.release_eq_some hf
      refine hs.of_subset (SameShape.refl _) (fun k m hmem => ⟨m.remainingSegments, ?_⟩) (by simp)
      exact VectorMap.mem_entries_of_mem_erase hmem
  | releaseDecrement x =>
    rw [State.proceed]
    cases hf : s.segmented.findAndDecrement x.header.messageHash with
    | none => exact hs.goto _ none rfl (SameShape.refl _) rfl
    | some r =>
      obtain ⟨msg, shouldPublish, t⟩ := r
      refine hs.of_subset (SameShape.refl _)
        (fun k m hmem => mem_of_findAndDecrement hf hmem) ?_
      intro h userHeader c hh' hb
      cases shouldPublish with
      | false => simp at hh'
      | true =>
        obtain rfl : Handler.releasePublish x msg.userPayload = h := by simpa using hh'
        cases hb
  | releasePublish x c => exact hs.goto _ none rfl (SameShape.refl _) rfl
  | updateChannels toDelete toSetup =>
    cases toDelete with
    | cons service toDelete =>
      refine hs.of_subset (proceed_sameShape s now answer _) (fun k m hmem => ?_) ?_
      · simp only [State.proceed, State.goto_segmented] at hmem
        unfold State.deleteChannel at hmem
        split at hmem
        · exact ⟨m.remainingSegments, hmem⟩
        · simp only at hmem
          rw [(SegmentedTable.releaseAll_eq _ _).1] at hmem
          exact ⟨m.remainingSegments, List.mem_of_mem_filter hmem⟩
      · intro h userHeader c hh' hb
        obtain rfl : Handler.updateChannels toDelete toSetup = h := by
          simpa [State.proceed] using hh'
        cases hb
    | nil =>
      cases toSetup with
      | cons service toSetup =>
        exact hs.goto (s.setupChannel getClassHash service) _ rfl (SameShape.refl _) rfl
      | nil => exact hs.goto _ none rfl (SameShape.refl _) rfl

/-- **Every step keeps the pointers valid.** -/
theorem buffersValid_step {l : Label} (hs : BuffersValid s)
    (h : step getClassHash s l = some s') : BuffersValid s' := by
  rcases step_cases h with ⟨-, events, next, rfl, hfirst, -⟩ | ⟨_, -, rfl⟩ |
    ⟨hd, now, answer, -, hh, rfl⟩ | ⟨i, w, -, -, hsweep⟩
  · refine ⟨hs.table, fun h userHeader c hh hb => ?_⟩
    rw [Handler.buffer_of_isFirst (hfirst h hh)] at hb
    cases hb
  · exact ⟨hs.table, hs.holder⟩
  · exact buffersValid_proceed hs hh now answer
  · rcases proceedSweep_cases hsweep with ⟨-, -, rfl⟩ | ⟨k, msg, t, -, ht, rfl⟩ | ⟨_, -, -, rfl⟩
    · exact ⟨hs.table, hs.holder⟩
    · obtain ⟨j, -, rfl⟩ := SegmentedTable.takeExpired_eq_some ht
      exact ⟨fun k m hmem => hs.table k m (VectorMap.mem_entries_of_mem_erase hmem), hs.holder⟩
    · exact ⟨hs.table, hs.holder⟩

theorem buffersValid_init : BuffersValid State.init where
  table := by simp [State.init]
  holder := by simp [State.init]

theorem buffersValid_of_reachable (h : Reachable getClassHash s) : BuffersValid s := by
  obtain ⟨ls, hls⟩ := h
  exact Run.invariant _ (fun _ _ _ hs hstep => buffersValid_step hs hstep) buffersValid_init hls

end P3com.TransportToIox
