/-
# Which chunks are written, and where

Two safety properties of the accesses that `receive` and `loanBuffer` make to a chunk.

*Ownership.*  A chunk that is written, or whose buffer is handed out, should still be loaned.
`SegmentedMessageManager::push` releases the payload when the table is full, and its callers do
not see that: they go on with the pointer.  As long as no push meets a full table every access is
to a chunk that has been neither published nor released.

*Bounds.*  `receive` checks the size of the datagram against `submessageSize`, but not the offset,
and not that the sizes in the header are those that the chunk was loaned with.  As long as the
range of every datagram lies within the buffer that was loaned for its message, so does every
write.
-/
import P3com.Gateway.Buffers

namespace P3com.TransportToIox

variable {getClassHash : ServiceDescription → ClassHash} {s s' : State}

/-! ## Accesses to chunks given back -/

/-- The chunk that the event writes to, or of which it hands out a pointer. -/
def Event.accessed : Event → Option ChunkId
  | .written c _ => some c
  | .bufferReturned c _ => some c
  | _ => none

/-- The chunk has been neither published nor released. -/
def StillLoaned (log : List Event) (c : ChunkId) : Prop :=
  ∀ e ∈ log, e.publishes c = false ∧ e.releases c = false

/-- At each access of the log (newest first) the chunk was still loaned. -/
def AccessSafe : List Event → Prop
  | [] => True
  | e :: log => (∀ c ∈ e.accessed, StillLoaned log c) ∧ AccessSafe log

instance (log : List Event) (c : ChunkId) : Decidable (StillLoaned log c) :=
  inferInstanceAs (Decidable (∀ e ∈ log, _))

instance decidableAccessSafe : (log : List Event) → Decidable (AccessSafe log)
  | [] => isTrue trivial
  | e :: log =>
    have := decidableAccessSafe log
    inferInstanceAs (Decidable ((∀ c ∈ e.accessed, StillLoaned log c) ∧ AccessSafe log))

theorem AccessSafe.cons {log : List Event} {e : Event} (h : AccessSafe log)
    (he : e.accessed = none) : AccessSafe (e :: log) := by
  refine ⟨fun c hc => ?_, h⟩
  rw [he] at hc
  cases hc

theorem AccessSafe.append {log events : List Event} (h : AccessSafe log)
    (hev : ∀ e ∈ events, e.accessed = none) : AccessSafe (events ++ log) := by
  induction events with
  | nil => exact h
  | cons e events ih =>
    exact (ih fun e' he' => hev e' (List.mem_cons_of_mem _ he')).cons (hev e List.mem_cons_self)

/-- The chunk has no `publish` and no `release` call exactly when it is still loaned. -/
theorem stillLoaned_iff {c : ChunkId} :
    StillLoaned s.log c ↔ publishCount s c = 0 ∧ releaseCount s c = 0 := by
  simp only [StillLoaned, publishCount, releaseCount, List.countP_eq_zero, Bool.not_eq_true]
  exact ⟨fun h => ⟨fun e he => (h e he).1, fun e he => (h e he).2⟩,
    fun h e he => ⟨h.1 e he, h.2 e he⟩⟩

/-- A chunk in the table is still loaned. -/
theorem Accounted.stillLoaned_of_mem (hs : Accounted s) {k : Hash} {msg : SegmentedMessage}
    (hmem : (k, msg) ∈ s.segmented.entries) : StillLoaned s.log msg.userPayload := by
  have hpos : 0 < tableCount s msg.userPayload :=
    List.countP_pos_iff.mpr ⟨(k, msg), hmem, by simp⟩
  have htot := hs.total msg.userPayload
  unfold account at htot
  rw [stillLoaned_iff]
  split at htot <;> omega

/-- A chunk that the holder owns is still loaned. -/
theorem Accounted.stillLoaned_of_owned (hs : Accounted s) {h : Handler} {c : ChunkId}
    (hh : s.holder = some h) (howned : h.owned = some c) : StillLoaned s.log c := by
  have hpos : 0 < ownerCount s c := by simp [ownerCount, hh, howned]
  have htot := hs.total c
  unfold account at htot
  rw [stillLoaned_iff]
  split at htot <;> omega

/-- Nothing has happened to a chunk that is yet to be loaned. -/
theorem Accounted.stillLoaned_next (hs : Accounted s) : StillLoaned s.log s.chunks.length := by
  have htot := hs.total s.chunks.length
  rw [if_neg (Nat.lt_irrefl _)] at htot
  unfold account at htot
  rw [stillLoaned_iff]
  omega

theorem StillLoaned.cons {log : List Event} {e : Event} {c : ChunkId} (h : StillLoaned log c)
    (he : e.publishes c = false ∧ e.releases c = false) : StillLoaned (e :: log) c := by
  intro e' he'
  rcases List.mem_cons.mp he' with rfl | he'
  · exact he
  · exact h e' he'

/-- The chunk that the next section of the handler accesses. -/
def Handler.accessing : Handler → Option ChunkId
  | .receiveTake _ _ c _ => some c
  | .loanReturn _ _ c => some c
  | _ => none

/-- The next section of the handler is `SegmentedMessageManager::push`. -/
def Handler.pushes : Handler → Bool
  | .receivePush _ _ => true
  | .loanPush _ _ => true
  | _ => false

/-- No push into a full table. -/
def PushFits (s : State) : Label → Prop
  | .proceed _ _ => s.holder.any Handler.pushes = true →
      s.segmented.size < maxSegmentedMessageCount
  | _ => True

instance (s : State) : (l : Label) → Decidable (PushFits s l)
  | .proceed _ _ => inferInstanceAs (Decidable (_ → _))
  | .receive _ _ | .loanBuffer _ | .releaseBuffer _ _ _ | .updateChannels _
  | .checkSegmentedMessages _ | .sweep _ => isTrue trivial

/-- The invariant of the runs without a push into a full table. -/
structure AccessInv (s : State) : Prop where
  accounted : Accounted s
  buffers : BuffersValid s
  safe : AccessSafe s.log
  live : ∀ h c, s.holder = some h → h.accessing = some c → StillLoaned s.log c

/-- A section that makes no access and after which the holder accesses nothing. -/
theorem AccessInv.quiet (hs : AccessInv s) (s₁ : State) (events : List Event)
    {next : Option Handler} (hlog : s₁.log = events ++ s.log)
    (hev : ∀ e ∈ events, e.accessed = none) (hnext : next.bind Handler.accessing = none) :
    AccessSafe (s₁.goto next).log ∧ ∀ h c, (s₁.goto next).holder = some h →
      h.accessing = some c → StillLoaned (s₁.goto next).log c := by
  constructor
  · rw [State.goto_log, hlog]
    exact hs.safe.append hev
  · intro h c hh hc
    rw [State.goto_holder] at hh
    rw [hh, Option.bind_some, hc] at hnext
    cases hnext

/-- A section that makes no access and after which the holder will access a chunk that is still
loaned. -/
theorem AccessInv.lend (hs : AccessInv s) (s₁ : State) (events : List Event) {h : Handler}
    {c : ChunkId} (hlog : s₁.log = events ++ s.log) (hev : ∀ e ∈ events, e.accessed = none)
    (hc : h.accessing = some c) (hlive : StillLoaned s₁.log c) :
    AccessSafe (s₁.goto (some h)).log ∧ ∀ h' c, (s₁.goto (some h)).holder = some h' →
      h'.accessing = some c → StillLoaned (s₁.goto (some h)).log c := by
  constructor
  · rw [State.goto_log, hlog]
    exact hs.safe.append hev
  · intro h' c' hh' hc'
    obtain rfl : h = h' := by simpa using hh'
    obtain rfl : c = c' := Option.some.inj (hc.symm.trans hc')
    exact hlive

/-- A push that finds room leaves the log alone. -/
theorem pushSegmented_log_of_lt (hroom : s.segmented.size < maxSegmentedMessageCount) (x : Call)
    (remaining : UInt32) (c : ChunkId) (now : Time) :
    (s.pushSegmented x remaining c now).log = s.log := by
  unfold State.pushSegmented
  split
  · rfl
  · rename_i hp
    have := VectorMap.emplace_eq_none.mp hp
    omega

/-- The one access of `takeNext`. -/
theorem takeNext_log_safe {x : Call} {userHeader : Option ChunkId} {c : ChunkId}
    (hsafe : AccessSafe s.log) (hvalid : ValidBuffer s.chunks userHeader c)
    (hlive : StillLoaned s.log c) : AccessSafe (s.takeNext x userHeader c).log := by
  unfold State.takeNext
  split
  · exact hsafe
  · rename_i c' htarget
    refine ⟨fun c'' hc'' => ?_, hsafe⟩
    obtain rfl : c' = c'' := by simpa [Event.accessed] using hc''
    unfold State.takeNextTarget at htarget
    split at htarget
    · subst htarget
      exact hvalid.eq_of_userHeader ▸ hlive
    · exact Option.some.inj htarget ▸ hlive

theorem deleteChannel_log (getClassHash : ServiceDescription → ClassHash) (s : State)
    (service : ServiceDescription) :
    ∃ events, (s.deleteChannel getClassHash service).log = events ++ s.log ∧
      ∀ e ∈ events, e.accessed = none := by
  unfold State.deleteChannel
  split
  · exact ⟨[], rfl, by simp⟩
  · refine ⟨_, rfl, ?_⟩
    intro e he
    simp only [List.mem_append, List.mem_reverse, List.mem_map] at he
    rcases he with ⟨msg, -, rfl⟩ | ⟨m, -, rfl⟩ <;> rfl

/-- **Sections of the holder**, one kind of handler at a time. -/
theorem accessInv_proceed {h : Handler} {now : Time} {answer : Option (Nat → Byte)}
    (hs : AccessInv s) (hh : s.holder = some h) (hg : PushFits s (.proceed now answer)) :
    AccessSafe (s.proceed getClassHash now answer h).log ∧
      ∀ h' c, (s.proceed getClassHash now answer h).holder = some h' → h'.accessing = some c →
        StillLoaned (s.proceed getClassHash now answer h).log c := by
  cases h with
  | receiveFind x =>
    rw [State.proceed]
    cases hf : s.segmented.findAndDecrement x.header.messageHash with
    | none => exact hs.quiet _ [] rfl (by simp) rfl
    | some r =>
      obtain ⟨msg, shouldPublish, t⟩ := r
      exact hs.lend _ [] rfl (by simp) rfl
        (hs.accounted.stillLoaned_of_mem (mem_findAndDecrement hf))
  | receiveLoan x =>
    cases answer with
    | none =>
      exact hs.quiet (s.record _) [.loanFailed x.header.messageHash] rfl
        (by simp [Event.accessed]) rfl
    | some fill =>
      have hlive : StillLoaned (s.loan x fill).log s.chunks.length :=
        hs.accounted.stillLoaned_next.cons ⟨rfl, rfl⟩
      simp only [State.proceed]
      split
      · exact hs.quiet _ [.loaned s.chunks.length x.publisher] rfl
          (by simp [Event.accessed]) rfl
      · exact hs.lend _ [.loaned s.chunks.length x.publisher] rfl
          (by simp [Event.accessed]) rfl hlive
  | receivePush x c =>
    have hlog := pushSegmented_log_of_lt (hg (by simp [hh, Handler.pushes])) x
      (x.header.submessageCount - 1) c now
    refine hs.lend _ [] hlog (by simp) rfl ?_
    rw [hlog]
    exact hs.accounted.stillLoaned_of_owned hh rfl
  | receiveTake x userHeader c shouldPublish =>
    refine ⟨?_, fun h' c' hh' hc' => ?_⟩
    · exact takeNext_log_safe hs.safe (hs.buffers.holder _ _ _ hh rfl) (hs.live _ _ hh rfl)
    · cases shouldPublish with
      | false => simp [State.proceed] at hh'
      | true =>
        obtain rfl : Handler.receivePublish x c = h' := by simpa [State.proceed] using hh'
        cases hc'
  | receivePublish x c =>
    exact hs.quiet (s.publish x c) [_, _] rfl (by simp [Event.accessed]) rfl
  | loanFind x =>
    rw [State.proceed]
    cases hf : s.segmented.findElem x.header.messageHash with
    | none => exact hs.quiet _ [] rfl (by simp) rfl
    | some r =>
      obtain ⟨i, msg⟩ := r
      exact hs.lend _ [] rfl (by simp) rfl
        (hs.accounted.stillLoaned_of_mem (VectorMap.mem_of_findElem hf))
  | loanLoan x =>
    cases answer with
    | none =>
      exact hs.quiet (s.record _) [.loanFailed x.header.messageHash] rfl
        (by simp [Event.accessed]) rfl
    | some fill =>
      exact hs.quiet (s.loan x fill) [.loaned s.chunks.length x.publisher] rfl
        (by simp [Event.accessed]) rfl
  | loanPush x c =>
    have hlog := pushSegmented_log_of_lt (hg (by simp [hh, Handler.pushes])) x
      x.header.submessageCount c now
    refine hs.lend _ [] hlog (by simp) rfl ?_
    rw [hlog]
    exact hs.accounted.stillLoaned_of_owned hh rfl
  | loanReturn x userHeader c =>
    have hlive := hs.live _ _ hh rfl
    simp only [State.proceed]
    split
    · cases userHeader with
      | none => exact hs.quiet _ [] rfl (by simp) rfl
      | some c' =>
        obtain rfl := (hs.buffers.holder _ _ _ hh rfl).eq_of_userHeader
        exact ⟨⟨fun c'' hc'' => Option.some.inj hc'' ▸ hlive, hs.safe⟩, by simp⟩
    · exact ⟨⟨fun c'' hc'' => Option.some.inj hc'' ▸ hlive, hs.safe⟩, by simp⟩
  | releaseRelease x =>
    rw [State.proceed]
    cases hf : s.segmented.release x.header.messageHash with
    | none => exact hs.quiet _ [] rfl (by simp) rfl
    | some r =>
      exact hs.quiet _ [.released r.1.userPayload r.1.publisher] rfl
        (by simp [Event.accessed]) rfl
  | releaseDecrement x =>
    rw [State.proceed]
    cases hf : s.segmented.findAndDecrement x.header.messageHash with
    | none => exact hs.quiet _ [] rfl (by simp) rfl
    | some r =>
      obtain ⟨msg, shouldPublish, t⟩ := r
      refine hs.quiet _ [] rfl (by simp) ?_
      cases shouldPublish <;> rfl
  | releasePublish x c =>
    exact hs.quiet (s.publish x c) [_, _] rfl (by simp [Event.accessed]) rfl
  | updateChannels toDelete toSetup =>
    cases toDelete with
    | cons service toDelete =>
      obtain ⟨events, hlog, hev⟩ := deleteChannel_log getClassHash s service
      exact hs.quiet _ events hlog hev rfl
    | nil =>
      cases toSetup with
      | cons service toSetup =>
        exact hs.quiet (s.setupChannel getClassHash service) [] rfl (by simp)
          rfl
      | nil => exact hs.quiet _ [] rfl (by simp) rfl

theorem accessInv_step {l : Label} (hs : AccessInv s) (hg : PushFits s l)
    (h : step getClassHash s l = some s') : AccessInv s' := by
  suffices hsuff : AccessSafe s'.log ∧ ∀ h c, s'.holder = some h → h.accessing = some c →
      StillLoaned s'.log c from
    ⟨accounted_step hs.accounted h, buffersValid_step hs.buffers h, hsuff.1, hsuff.2⟩
  rcases step_cases h with ⟨-, events, next, rfl, hfirst, harr⟩ | ⟨now, -, rfl⟩ |
    ⟨hd, now, answer, rfl, hh, rfl⟩ | ⟨i, w, -, -, hsweep⟩
  · refine (hs.quiet { s with log := events ++ s.log } events rfl ?_ ?_)
    · intro e he
      have := harr e he
      cases e <;> first | rfl | cases this
    · cases next with
      | none => rfl
      | some hd =>
        have := hfirst hd rfl
        cases hd <;> first | rfl | cases this
  · exact ⟨hs.safe, hs.live⟩
  · exact accessInv_proceed hs hh hg
  · rcases proceedSweep_cases hsweep with ⟨-, -, rfl⟩ | ⟨k, msg, t, -, -, rfl⟩ |
      ⟨msg, -, hfree, rfl⟩
    · exact ⟨hs.safe, hs.live⟩
    · exact ⟨hs.safe.cons rfl,
        fun h c hh hc => (hs.live h c hh hc).cons ⟨rfl, rfl⟩⟩
    · exact ⟨hs.safe.cons rfl,
        fun h c hh => by simp [hfree] at hh⟩

theorem accessInv_init : AccessInv State.init where
  accounted := accounted_init
  buffers := buffersValid_init
  safe := trivial
  live := by simp [State.init]

/-- A push into a full table releases the chunk that the next section then accesses. -/
theorem unsafe_of_full {x : Call} {c : ChunkId} (now : Time)
    (hh : s.holder = some (.receivePush x c) ∨ s.holder = some (.loanPush x c))
    (hfull : s.segmented.size = maxSegmentedMessageCount) :
    ∃ s', Run.exec (step getClassHash) s [.proceed now none, .proceed now none] = some s' ∧
      ¬ AccessSafe s'.log := by
  have hpush : ∀ r, s.pushSegmented x r c now
      = (s.record (.rejected x.header.messageHash c)).record (.released c x.publisher) := by
    intro r
    unfold State.pushSegmented
    rw [SegmentedTable.push, VectorMap.emplace_eq_none.mpr hfull]
  -- in both handlers the access is to `c`, through one pointer or the other
  have hheader : x.header.submessageOffset < x.header.userHeaderSize →
      State.userHeaderOf x.header c = some c := by
    intro hlt
    rw [State.userHeaderOf, if_pos]
    rintro h0
    rw [h0, UInt32.lt_iff_toNat_lt] at hlt
    exact Nat.not_lt_zero _ hlt
  have hbad : ∀ (e : Event) (log : List Event), e.accessed = some c →
      ¬ AccessSafe (e :: .released c x.publisher :: log) := by
    rintro e log he ⟨hsafe, -⟩
    have := (hsafe c he (.released c x.publisher) List.mem_cons_self).2
    simp [Event.releases] at this
  rcases hh with hh | hh
  · refine ⟨_, by simp only [Run.exec, step, hh, Option.map_some, Option.bind_some, State.proceed,
      State.goto_holder]; rfl, ?_⟩
    have htarget : State.takeNextTarget x.header (State.userHeaderOf x.header c) c = some c := by
      unfold State.takeNextTarget takeNextRange
      split
      · rename_i hp
        split at hp
        · exact hheader ‹_›
        · cases hp
      · rfl
    simp only [State.takeNext, htarget, hpush, State.goto_log, State.record_log]
    exact hbad _ _ rfl
  · refine ⟨_, by simp only [Run.exec, step, hh, Option.map_some, Option.bind_some, State.proceed,
      State.goto_holder]; rfl, ?_⟩
    by_cases hlt : x.header.submessageOffset < x.header.userHeaderSize
    · simp only [if_pos hlt, hheader hlt, hpush, State.goto_log, State.record_log]
      exact hbad _ _ rfl
    · simp only [if_neg hlt, hpush, State.goto_log, State.record_log]
      exact hbad _ _ rfl

/-- **Accesses are to loaned chunks unless a push finds the table full.**  In every run whose
pushes all find room, a chunk that is written or handed out is at that moment neither published
nor released; and a push that finds no room is followed by an access to the chunk it released. -/
theorem accesses_are_to_loaned_chunks (getClassHash : ServiceDescription → ClassHash) :
    (∀ ls s, Run.exec (step getClassHash) State.init ls = some s →
      Run.Guarded (step getClassHash) PushFits State.init ls → AccessSafe s.log) ∧
    ∀ s now, (∃ x c, s.holder = some (.receivePush x c) ∨ s.holder = some (.loanPush x c)) →
      s.segmented.size = maxSegmentedMessageCount →
      ∃ s', Run.exec (step getClassHash) s [.proceed now none, .proceed now none] = some s' ∧
        ¬ AccessSafe s'.log := by
  constructor
  · intro ls s hls hg
    exact (Run.invariant_guarded _ (fun _ _ _ hs hg hstep => accessInv_step hs hg hstep)
      accessInv_init hg hls).safe
  · rintro s now ⟨x, c, hh⟩ hfull
    exact unsafe_of_full now hh hfull

/-- The first submessages of two messages arrive: both chunks are still loaned when written. -/
theorem accesses_are_to_loaned_chunks_two :
    ∃ s, Run.exec (step demoClassHash) State.init (demoSetup ++ demoFirst 9 ++ demoFirst 10)
        = some s ∧ s.log.countP (fun e => e.accessed.isSome) = 2 ∧ AccessSafe s.log := by
  refine ⟨_, rfl, by decide, ?_⟩
  refine (accesses_are_to_loaned_chunks demoClassHash).1
    (demoSetup ++ demoFirst 9 ++ demoFirst 10) _ rfl ?_
  decide +kernel

/-- Sixty-five messages at once: the first submessage of the last one is written into a chunk that
has been released. -/
theorem write_to_released_chunk :
    ∃ s, Run.exec (step demoClassHash) State.init
        (demoSetup ++ (List.range 65).flatMap fun i => demoFirst (UInt32.ofNat i)) = some s ∧
      ¬ AccessSafe s.log := by
  have h : (Run.exec (step demoClassHash) State.init
      (demoSetup ++ (List.range 65).flatMap fun i => demoFirst (UInt32.ofNat i))).any
      (fun s => ¬ AccessSafe s.log) = true := by decide +kernel
  obtain ⟨s, hs, hbad⟩ := (Option.any_eq_true _ _).mp h
  exact ⟨s, hs, by simpa using hbad⟩

/-! ## Writes out of bounds -/

/-- The range of the datagram lies within the sizes that its own header declares. -/
def DeclaredFits (h : IoxChunkDatagramHeader) : Prop :=
  if h.submessageOffset < h.userHeaderSize then
    h.submessageOffset.toNat + h.submessageSize.toNat ≤ h.userHeaderSize.toNat
  else
    h.submessageOffset.toNat - h.userHeaderSize.toNat + h.submessageSize.toNat
      ≤ h.userPayloadSize.toNat

/-- The buffer that `takeNext` would write to for these pointers is there, and the range of the
datagram lies within it. -/
def TargetFits (chunks : List Chunk) (h : IoxChunkDatagramHeader) (userHeader : Option ChunkId)
    (userPayload : ChunkId) : Prop :=
  ∀ c ∈ State.takeNextTarget h userHeader userPayload,
    ∃ chunk ∈ chunks[c]?, (takeNextRange h).Fits chunk

/-- The check that `receive` lacks: the range of the datagram lies within the buffers of the chunk
that is kept for its message, and if there is none, within the sizes it is about to loan. -/
def RangeInBounds (s : State) (h : IoxChunkDatagramHeader) : Prop :=
  match s.segmented.findElem h.messageHash with
  | none => DeclaredFits h
  | some (_, msg) => TargetFits s.chunks h msg.userHeader msg.userPayload

/-- The header of the datagram that the handler looks up in the table next. -/
def Handler.finding : Handler → Option IoxChunkDatagramHeader
  | .receiveFind x => some x.header
  | _ => none

/-- Every datagram that is looked up in the table has its range in bounds. -/
def InBounds (s : State) : Label → Prop
  | .proceed _ _ => ∀ h ∈ s.holder.bind Handler.finding, RangeInBounds s h
  | _ => True

/-- Every write so far was within its buffer.  (The sizes of the buffers never change.) -/
def WritesFit (s : State) : Prop :=
  ∀ c r, Event.written c r ∈ s.log → ∃ chunk ∈ s.chunks[c]?, r.Fits chunk

instance (r : Range) (c : Chunk) : Decidable (r.Fits c) :=
  match h : c.bufferSize r.part with
  | none => isFalse (by simp [Range.Fits, h])
  | some n => decidable_of_iff (r.offset + r.size ≤ n) (by simp [Range.Fits, h])

theorem exists_fits_mono {l l' : List Chunk} (hl : SameShape l l') {r : Range} {c : ChunkId}
    (h : ∃ chunk ∈ l[c]?, r.Fits chunk) : ∃ chunk ∈ l'[c]?, r.Fits chunk := by
  obtain ⟨chunk, hc, n, hn, hle⟩ := h
  obtain ⟨chunk', hc', hsize⟩ := hl c chunk hc
  exact ⟨chunk', hc', n, (hsize r.part).trans hn, hle⟩

theorem TargetFits.mono {l l' : List Chunk} (hl : SameShape l l') {h : IoxChunkDatagramHeader}
    {userHeader : Option ChunkId} {c : ChunkId} (ht : TargetFits l h userHeader c) :
    TargetFits l' h userHeader c :=
  fun c' hc' => exists_fits_mono hl (ht c' hc')

/-- A chunk that is loaned for a datagram has room for it exactly when the datagram's range lies
within the sizes it declares. -/
theorem targetFits_loan (l : List Chunk) (x : Call) (fill : Nat → Byte) :
    TargetFits (l ++ [State.loanedChunk x fill]) x.header (State.userHeaderOf x.header l.length)
      l.length ↔ DeclaredFits x.header := by
  have hget : (l ++ [State.loanedChunk x fill])[l.length]? = some (State.loanedChunk x fill) := by
    simp
  unfold TargetFits DeclaredFits
  by_cases hlt : x.header.submessageOffset < x.header.userHeaderSize
  · have hne : x.header.userHeaderSize ≠ 0 := by
      rintro h0
      rw [h0, UInt32.lt_iff_toNat_lt] at hlt
      exact Nat.not_lt_zero _ hlt
    simp [State.takeNextTarget, takeNextRange, hlt, State.userHeaderOf, hne, Range.Fits,
      Chunk.bufferSize, State.loanedChunk]
  · simp [State.takeNextTarget, takeNextRange, hlt, Range.Fits, Chunk.bufferSize,
      State.loanedChunk]

/-- What the holder will write is in bounds. -/
def Handler.fits (chunks : List Chunk) : Handler → Prop
  | .receiveLoan x => DeclaredFits x.header
  | .receivePush x c => TargetFits chunks x.header (State.userHeaderOf x.header c) c
  | .receiveTake x userHeader c _ => TargetFits chunks x.header userHeader c
  | _ => True

/-- The invariant of the runs whose datagrams are all in bounds. -/
structure BoundsInv (s : State) : Prop where
  buffers : BuffersValid s
  writes : WritesFit s
  holder : ∀ h, s.holder = some h → h.fits s.chunks

/-- The message that `findAndDecrement` returns is the one that `find` finds. -/
theorem findElem_of_findAndDecrement {t t' : SegmentedTable} {k : Hash} {msg : SegmentedMessage}
    {publish : Bool} (h : t.findAndDecrement k = some (msg, publish, t')) :
    ∃ i, t.findElem k = some (i, msg) := by
  unfold SegmentedTable.findAndDecrement at h
  split at h
  · cases h
  · rename_i i m hf
    simp only at h
    split at h
    · exact ⟨i, by rw [hf]; simp_all⟩
    · exact ⟨i, by rw [hf]; simp_all⟩

/-- After a section the holder is still about to write in bounds. -/
theorem fits_of_proceed {h h' : Handler} {now : Time} {answer : Option (Nat → Byte)}
    (hs : BoundsInv s) (hh : s.holder = some h) (hg : InBounds s (.proceed now answer))
    (hh' : (s.proceed getClassHash now answer h).holder = some h') :
    h'.fits (s.proceed getClassHash now answer h).chunks := by
  have hfits := hs.holder h hh
  cases h with
  | receiveFind x =>
    have hg : RangeInBounds s x.header := hg x.header (by simp [hh, Handler.finding])
    unfold RangeInBounds at hg
    rw [State.proceed] at hh' ⊢
    cases hf : s.segmented.findAndDecrement x.header.messageHash with
    | none =>
      rw [hf] at hh'
      obtain rfl : Handler.receiveLoan x = h' := by simpa using hh'
      rw [VectorMap.findElem_eq_none.mpr (SegmentedTable.findAndDecrement_eq_none.mp hf)] at hg
      exact hg
    | some r =>
      obtain ⟨msg, shouldPublish, t⟩ := r
      rw [hf] at hh'
      obtain rfl : Handler.receiveTake x msg.userHeader msg.userPayload shouldPublish = h' := by
        simpa using hh'
      obtain ⟨i, hi⟩ := findElem_of_findAndDecrement hf
      rw [hi] at hg
      exact hg
  | receiveLoan x =>
    cases answer with
    | none => simp [State.proceed] at hh'
    | some fill =>
      simp only [State.proceed, State.goto_holder] at hh' ⊢
      split at hh'
      · obtain rfl := Option.some.inj hh'
        exact (targetFits_loan s.chunks x fill).mpr hfits
      · obtain rfl := Option.some.inj hh'
        exact (targetFits_loan s.chunks x fill).mpr hfits
  | receivePush x c =>
    obtain rfl : Handler.receiveTake x (State.userHeaderOf x.header c) c false = h' := by
      simpa [State.proceed] using hh'
    simp only [State.proceed, State.goto_chunks, State.pushSegmented_chunks]
    exact hfits
  | receiveTake x userHeader c shouldPublish =>
    cases shouldPublish with
    | false => simp [State.proceed] at hh'
    | true =>
      obtain rfl : Handler.receivePublish x c = h' := by simpa [State.proceed] using hh'
      trivial
  | receivePublish x c => simp [State.proceed] at hh'
  | loanFind x =>
    simp only [State.proceed] at hh'
    split at hh'
    · obtain rfl := Option.some.inj hh'
      trivial
    · obtain rfl := Option.some.inj hh'
      trivial
  | loanLoan x =>
    cases answer with
    | none => simp [State.proceed] at hh'
    | some fill =>
      obtain rfl := Option.some.inj hh'
      trivial
  | loanPush x c =>
    obtain rfl := Option.some.inj hh'
    trivial
  | loanReturn x userHeader c =>
    simp only [State.proceed] at hh'
    split at hh'
    · cases userHeader <;> simp at hh'
    · simp at hh'
  | releaseRelease x =>
    simp only [State.proceed] at hh'
    split at hh' <;> simp at hh'
  | releaseDecrement x =>
    simp only [State.proceed] at hh'
    split at hh'
    · simp at hh'
    · split at hh'
      · obtain rfl := Option.some.inj hh'
        trivial
      · simp at hh'
  | releasePublish x c => simp [State.proceed] at hh'
  | updateChannels toDelete toSetup =>
    cases toDelete with
    | cons service toDelete =>
      obtain rfl := Option.some.inj hh'
      trivial
    | nil =>
      cases toSetup with
      | cons service toSetup =>
        obtain rfl := Option.some.inj hh'
        trivial
      | nil => simp [State.proceed] at hh'

theorem boundsInv_step {l : Label} (hs : BoundsInv s) (hg : InBounds s l)
    (h : step getClassHash s l = some s') : BoundsInv s' := by
  have hshape := sameShape_step h
  suffices hsuff : (∀ c r, Event.written c r ∈ s'.log → ∃ chunk ∈ s'.chunks[c]?, r.Fits chunk) ∧
      ∀ hd, s'.holder = some hd → hd.fits s'.chunks from
    ⟨buffersValid_step hs.buffers h, hsuff.1, hsuff.2⟩
  rcases step_cases h with ⟨-, events, next, rfl, hfirst, harr⟩ | ⟨now, -, rfl⟩ |
    ⟨hd, now, answer, rfl, hh, rfl⟩ | ⟨i, w, -, -, hsweep⟩
  · refine ⟨fun c r hw => ?_, fun hd hhd => ?_⟩
    · rcases List.mem_append.mp hw with hw | hw
      · cases harr _ hw
      · exact hs.writes c r hw
    · have := hfirst hd hhd
      cases hd <;> trivial
  · exact ⟨hs.writes, hs.holder⟩
  · refine ⟨fun c r hw => ?_, fun hd' hhd' => fits_of_proceed hs hh hg hhd'⟩
    obtain ⟨events, hlog, hev⟩ := proceed_log getClassHash s now answer hd
    rw [hlog] at hw
    rcases List.mem_append.mp hw with hw | hw
    · obtain ⟨x, userHeader, userPayload, shouldPublish, rfl, ht, rfl⟩ := (hev _ hw).2.1 c r rfl
      exact exists_fits_mono hshape (hs.holder _ hh c ht)
    · exact exists_fits_mono hshape (hs.writes c r hw)
  · rcases proceedSweep_cases hsweep with ⟨-, -, rfl⟩ | ⟨k, msg, t, -, -, rfl⟩ | ⟨msg, -, -, rfl⟩
    · exact ⟨hs.writes, hs.holder⟩
    · exact ⟨fun c r hw => hs.writes c r (by simpa using hw), hs.holder⟩
    · exact ⟨fun c r hw => hs.writes c r (by simpa using hw), hs.holder⟩

theorem boundsInv_init : BoundsInv State.init where
  buffers := buffersValid_init
  writes := by simp [WritesFit, State.init]
  holder := by simp [State.init]

/-- `takeNext` with a range that does not fit writes out of bounds. -/
theorem takeNext_not_writesFit {s₀ : State} (ls : List Label) (x : Call)
    (userHeader : Option ChunkId) (c : ChunkId) (b : Bool)
    (hrun : Run.exec (step getClassHash) s₀ ls = some s)
    (hh : s.holder = some (.receiveTake x userHeader c b))
    (hbad : ¬ TargetFits s.chunks x.header userHeader c) :
    ∃ ls s', Run.exec (step getClassHash) s₀ ls = some s' ∧ ¬ WritesFit s' := by
  have hstep : Run.exec (step getClassHash) s [.proceed 0 none]
      = some (s.proceed getClassHash 0 none (.receiveTake x userHeader c b)) := by
    simp [Run.exec, step, hh]
  refine ⟨_, _, Run.exec_trans hrun hstep, ?_⟩
  intro hw
  apply hbad
  intro c' htarget
  have hmem : Event.written c' (takeNextRange x.header)
      ∈ (s.proceed getClassHash 0 none (.receiveTake x userHeader c b)).log := by
    simp only [State.proceed, State.goto_log, State.takeNext, Option.mem_def.mp htarget]
    exact List.mem_cons_self
  obtain ⟨chunk', hc', n, hn, hle⟩ := hw c' _ hmem
  -- the bytes written do not change the sizes, so the chunk can be looked at before the write
  have hlt : c' < s.chunks.length := by
    have := (List.getElem?_eq_some_iff.mp hc').1
    rwa [State.proceed, State.goto_chunks, State.length_takeNext_chunks] at this
  obtain ⟨chunk'', hc'', hsize⟩ := takeNext_sameShape s x userHeader c c' s.chunks[c']
    (List.getElem?_eq_getElem hlt)
  obtain rfl : chunk'' = chunk' := Option.some.inj (hc''.symm.trans hc')
  exact ⟨_, List.getElem?_eq_getElem hlt, n, (hsize _).symm.trans hn, hle⟩

/-- A datagram out of bounds is written out of bounds, if the loan that it may need succeeds. -/
theorem not_writesFit_of_not_inBounds {x : Call} (hh : s.holder = some (.receiveFind x))
    (hbad : ¬ RangeInBounds s x.header) :
    ∃ ls s', Run.exec (step getClassHash) s ls = some s' ∧ ¬ WritesFit s' := by
  unfold RangeInBounds at hbad
  have hfind : Run.exec (step getClassHash) s [.proceed 0 none]
      = some (s.proceed getClassHash 0 none (.receiveFind x)) := by
    simp [Run.exec, step, hh]
  cases hf : s.segmented.findAndDecrement x.header.messageHash with
  | some r =>
    obtain ⟨msg, shouldPublish, t⟩ := r
    obtain ⟨i, hi⟩ := findElem_of_findAndDecrement hf
    rw [hi] at hbad
    refine takeNext_not_writesFit _ x msg.userHeader msg.userPayload shouldPublish hfind ?_ ?_
    · simp [State.proceed, hf]
    · simpa [State.proceed, hf] using hbad
  | none =>
    rw [VectorMap.findElem_eq_none.mpr (SegmentedTable.findAndDecrement_eq_none.mp hf)] at hbad
    let fill : Nat → Byte := fun _ => 0
    let c := s.chunks.length
    have hnot := mt (targetFits_loan s.chunks x fill).mp hbad
    by_cases hcount : x.header.submessageCount > 1
    · refine takeNext_not_writesFit [.proceed 0 none, .proceed 0 (some fill), .proceed 0 none]
        x (State.userHeaderOf x.header c) c false
        (by simp [Run.exec, step, hh, State.proceed, hf, hcount]; rfl) ?_ ?_
      · simp [c]
      · simpa using hnot
    · refine takeNext_not_writesFit [.proceed 0 none, .proceed 0 (some fill)]
        x (State.userHeaderOf x.header c) c true
        (by simp [Run.exec, step, hh, State.proceed, hf, hcount]; rfl) ?_ ?_
      · simp [c]
      · simpa using hnot

/-- **Writes stay within the loaned buffers unless a datagram is out of bounds.**  In every run in
which the range of every datagram lies within the buffers kept or about to be loaned for its
message, every write lies within the buffer it goes to; and a datagram for which this fails can be
written out of bounds. -/
theorem writes_fit_of_inBounds (getClassHash : ServiceDescription → ClassHash) :
    (∀ ls s, Run.exec (step getClassHash) State.init ls = some s →
      Run.Guarded (step getClassHash) InBounds State.init ls → WritesFit s) ∧
    ∀ s x, s.holder = some (.receiveFind x) → ¬ RangeInBounds s x.header →
      ∃ ls s', Run.exec (step getClassHash) s ls = some s' ∧ ¬ WritesFit s' := by
  constructor
  · intro ls s hls hg
    exact (Run.invariant_guarded _ (fun _ _ _ hs hg hstep => boundsInv_step hs hg hstep)
      boundsInv_init hg hls).writes
  · intro s x hh hbad
    exact not_writesFit_of_not_inBounds hh hbad

instance (h : IoxChunkDatagramHeader) : Decidable (DeclaredFits h) :=
  inferInstanceAs (Decidable (ite _ (_ ≤ _) (_ ≤ _)))

instance (chunks : List Chunk) (h : IoxChunkDatagramHeader) (userHeader : Option ChunkId)
    (userPayload : ChunkId) : Decidable (TargetFits chunks h userHeader userPayload) :=
  inferInstanceAs (Decidable (∀ c ∈ State.takeNextTarget h userHeader userPayload,
    ∃ chunk ∈ chunks[c]?, (takeNextRange h).Fits chunk))

instance (s : State) (h : IoxChunkDatagramHeader) : Decidable (RangeInBounds s h) :=
  match hf : s.segmented.findElem h.messageHash with
  | none => decidable_of_iff (DeclaredFits h) (by simp [RangeInBounds, hf])
  | some (_, msg) =>
    decidable_of_iff (TargetFits s.chunks h msg.userHeader msg.userPayload)
      (by simp [RangeInBounds, hf])

instance (s : State) : (l : Label) → Decidable (InBounds s l)
  | .proceed _ _ =>
    inferInstanceAs (Decidable (∀ h ∈ s.holder.bind Handler.finding, RangeInBounds s h))
  | .receive _ _ | .loanBuffer _ | .releaseBuffer _ _ _ | .updateChannels _
  | .checkSegmentedMessages _ | .sweep _ => isTrue trivial

/-- The first submessages of two messages, each within the two bytes of its payload. -/
theorem writes_fit_of_inBounds_two :
    ∃ s, Run.exec (step demoClassHash) State.init (demoSetup ++ demoFirst 9 ++ demoFirst 10)
        = some s ∧ Event.written 1 ⟨.userPayload, 0, 1⟩ ∈ s.log ∧ WritesFit s := by
  refine ⟨_, rfl, by decide, ?_⟩
  exact (writes_fit_of_inBounds demoClassHash).1 (demoSetup ++ demoFirst 9 ++ demoFirst 10) _ rfl
    (by decide +kernel)

/-- A datagram that declares a payload of one byte and carries two. -/
def demoOverlong : List Byte :=
  serialize { demoHeader 9 0 with submessageCount := 1, submessageSize := 2, userPayloadSize := 1 }
    ++ [7, 8]

/-- The datagram passes the size check and is written over the end of its buffer. -/
theorem write_out_of_bounds :
    ∃ s, Run.exec (step demoClassHash) State.init (demoSetup ++
        [.receive demoOverlong ⟨.udp, 0⟩, .proceed 0 none, .proceed 0 (some fun _ => 0),
          .proceed 0 none]) = some s ∧ ¬ WritesFit s := by
  refine ⟨_, rfl, fun h => ?_⟩
  obtain ⟨chunk, hc, hfits⟩ := h 0 ⟨.userPayload, 0, 2⟩ (by decide)
  obtain rfl := Option.some.inj hc
  exact absurd hfits (by decide)

end P3com.TransportToIox
