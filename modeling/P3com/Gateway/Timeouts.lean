/-
# Messages that time out are given back

A message whose datagrams never all come in would keep its chunk for good.  What prevents this is
`checkSegmentedMessages` of `source/p3com/generic/segmented_messages.cpp`, which `run` calls in its
loop.  Here: when a call has returned, no chunk is held that was past its deadline when the call
began, whatever datagrams, buffers, channel updates and other sweeps run beside it.

The sweep looks for an expired message again from the beginning after each one that it has taken
out, and ends only when it finds none.  Until then an expired chunk that is still in the table is
ahead of it (`Expiring`), and once out of the table the chunk does not come back, because a handler
stores only what it has just loaned.
-/
import P3com.Gateway.Buffers

namespace P3com.TransportToIox

/-- The chunk that the handler stores next. -/
def Handler.toStore : Handler → Option ChunkId
  | .receivePush _ c => some c
  | .loanPush _ c => some c
  | _ => none

/-- The table has the chunk of the message, with its deadline. -/
def State.HasChunk (s : State) (msg : SegmentedMessage) : Prop :=
  ∃ e ∈ s.segmented.entries, e.2.userPayload = msg.userPayload ∧ e.2.deadline = msg.deadline

/-- If the chunk is still in the table, it is past its deadline and a sweep is on its way to it. -/
structure Expiring (now : Time) (c : ChunkId) (s : State) : Prop where
  loaned : c < s.chunks.length
  stored : s.holder.bind Handler.toStore ≠ some c
  ahead : ∀ e ∈ s.segmented.entries, e.2.userPayload = c →
    e.2.deadline < now ∧ ∃ w ∈ s.sweeps, now ≤ w.now

section Sections

variable {getClassHash : ServiceDescription → ClassHash} {s s' : State} {now : Time} {c : ChunkId}
  {h : Handler} {e : Hash × SegmentedMessage} {w : Sweep} {i : Nat}

/-! ## What a section does to the table -/

theorem State.hasChunk_of_mem (hmem : e ∈ s.segmented.entries) : s.HasChunk e.2 :=
  ⟨e, hmem, rfl, rfl⟩

theorem hasChunk_of_findAndDecrement {k : Hash} {msg : SegmentedMessage} {publish : Bool}
    {t : SegmentedTable} (hf : s.segmented.findAndDecrement k = some (msg, publish, t))
    (hmem : e ∈ t.entries) : s.HasChunk e.2 := by
  obtain ⟨r, hr⟩ := mem_of_findAndDecrement hf hmem
  exact ⟨_, hr, rfl, rfl⟩

theorem mem_pushSegmented {x : Call} {remaining : UInt32} {clock : Time}
    (hmem : e ∈ (s.pushSegmented x remaining c clock).segmented.entries) :
    e.2.userPayload = c ∨ e ∈ s.segmented.entries := by
  unfold State.pushSegmented at hmem
  split at hmem
  · rename_i t hpush
    rw [show t.entries = _ from VectorMap.entries_emplace hpush] at hmem
    rcases List.mem_append.mp hmem with hmem | hmem
    · exact Or.inr hmem
    · rw [List.mem_singleton.mp hmem]
      exact Or.inl rfl
  · exact Or.inr hmem

theorem segmented_takeNext (s : State) (x : Call) (userHeader : Option ChunkId) (c : ChunkId) :
    (s.takeNext x userHeader c).segmented = s.segmented := by
  unfold State.takeNext
  split <;> rfl

theorem mem_deleteChannel {service : ServiceDescription}
    (hmem : e ∈ (s.deleteChannel getClassHash service).segmented.entries) :
    e ∈ s.segmented.entries := by
  unfold State.deleteChannel at hmem
  split at hmem
  · exact hmem
  · rename_i endpoint endpoints hdiscard
    rw [show (State.segmented _).entries = _ from
      (SegmentedTable.releaseAll_eq s.segmented endpoint.id).1] at hmem
    exact (List.mem_filter.mp hmem).1

/-- What is in the table after a section was there before, with its chunk and its deadline, or has
just been stored. -/
theorem mem_proceed {clock : Time} {answer : Option (Nat → Byte)}
    (hmem : e ∈ (s.proceed getClassHash clock answer h).segmented.entries) :
    h.toStore = some e.2.userPayload ∨ s.HasChunk e.2 := by
  have hsame : e ∈ s.segmented.entries → h.toStore = some e.2.userPayload ∨ s.HasChunk e.2 :=
    fun hmem => Or.inr (State.hasChunk_of_mem hmem)
  cases h with
  | receiveFind x =>
    simp only [State.proceed] at hmem
    split at hmem
    · exact hsame hmem
    · rename_i hf
      exact Or.inr (hasChunk_of_findAndDecrement hf hmem)
  | receiveLoan x => cases answer <;> exact hsame hmem
  | receivePush x c =>
    rcases mem_pushSegmented hmem with hpay | hmem
    · exact Or.inl (congrArg some hpay.symm)
    · exact hsame hmem
  | receiveTake x userHeader c shouldPublish =>
    simp only [State.proceed, State.goto_segmented, segmented_takeNext] at hmem
    exact hsame hmem
  | receivePublish x c => exact hsame hmem
  | loanFind x =>
    simp only [State.proceed] at hmem
    split at hmem <;> exact hsame hmem
  | loanLoan x => cases answer <;> exact hsame hmem
  | loanPush x c =>
    rcases mem_pushSegmented hmem with hpay | hmem
    · exact Or.inl (congrArg some hpay.symm)
    · exact hsame hmem
  | loanReturn x userHeader c =>
    simp only [State.proceed] at hmem
    split at hmem
    · cases userHeader <;> exact hsame hmem
    · exact hsame hmem
  | releaseRelease x =>
    simp only [State.proceed] at hmem
    split at hmem
    · exact hsame hmem
    · rename_i hf
      obtain ⟨j, -, rfl⟩ := SegmentedTable.release_eq_some hf
      exact hsame (VectorMap.mem_entries_of_mem_erase hmem)
  | releaseDecrement x =>
    simp only [State.proceed] at hmem
    split at hmem
    · exact hsame hmem
    · rename_i hf
      exact Or.inr (hasChunk_of_findAndDecrement hf hmem)
  | releasePublish x c => exact hsame hmem
  | updateChannels toDelete toSetup =>
    cases toDelete with
    | cons service toDelete => exact hsame (mem_deleteChannel hmem)
    | nil => cases toSetup <;> exact hsame hmem

theorem toStore_of_isFirst (hfirst : h.isFirst = true) : h.toStore = none := by
  cases h <;> first | rfl | cases hfirst

/-- A handler stores what it has just loaned. -/
theorem toStore_proceed {clock : Time} {answer : Option (Nat → Byte)}
    (hnext : (s.proceed getClassHash clock answer h).holder.bind Handler.toStore = some c) :
    c = s.chunks.length := by
  cases h with
  | receiveLoan x =>
    cases answer with
    | none => cases hnext
    | some fill =>
      simp only [State.proceed, State.goto_holder] at hnext
      split at hnext
      · exact (Option.some.inj hnext).symm
      · cases hnext
  | loanLoan x =>
    cases answer with
    | none => cases hnext
    | some fill => exact (Option.some.inj hnext).symm
  | receiveFind x =>
    simp only [State.proceed] at hnext
    split at hnext <;> cases hnext
  | receiveTake x userHeader c' shouldPublish => cases shouldPublish <;> cases hnext
  | loanFind x =>
    simp only [State.proceed] at hnext
    split at hnext <;> cases hnext
  | loanReturn x userHeader c' =>
    simp only [State.proceed] at hnext
    split at hnext
    · cases userHeader <;> cases hnext
    · cases hnext
  | releaseRelease x =>
    simp only [State.proceed] at hnext
    split at hnext <;> cases hnext
  | releaseDecrement x =>
    simp only [State.proceed] at hnext
    split at hnext
    · cases hnext
    · rename_i shouldPublish t hf
      cases shouldPublish <;> cases hnext
  | updateChannels toDelete toSetup =>
    cases toDelete with
    | cons service toDelete => cases hnext
    | nil => cases toSetup <;> cases hnext
  | _ => cases hnext

/-! ## Every run -/

/-- Nothing about the chunk changes but that it may leave the table. -/
theorem Expiring.keep (hx : Expiring now c s) (hlen : s.chunks.length ≤ s'.chunks.length)
    (hstored : s'.holder.bind Handler.toStore ≠ some c)
    (htable : ∀ e ∈ s'.segmented.entries, e.2.userPayload = c → s.HasChunk e.2)
    (hsweeps : ∀ w ∈ s.sweeps, now ≤ w.now → ∃ w' ∈ s'.sweeps, now ≤ w'.now) :
    Expiring now c s' := by
  refine ⟨Nat.lt_of_lt_of_le hx.loaned hlen, hstored, fun e he hpay => ?_⟩
  obtain ⟨e', he', hpay', hdeadline⟩ := htable e he hpay
  obtain ⟨hlt, w, hw, hle⟩ := hx.ahead e' he' (hpay'.trans hpay)
  exact ⟨hdeadline ▸ hlt, hsweeps w hw hle⟩

theorem Expiring.begins (hx : Expiring now c s) (hb : Begins s s') : Expiring now c s' := by
  obtain ⟨-, events, next, rfl, hfirst, -⟩ := hb
  refine hx.keep (Nat.le_refl _) ?_ (fun _ he _ => State.hasChunk_of_mem he)
    fun w hw hle => ⟨w, hw, hle⟩
  intro hstored
  obtain ⟨h, rfl, hs⟩ := Option.bind_eq_some_iff.mp hstored
  rw [toStore_of_isFirst (hfirst h rfl)] at hs
  cases hs

theorem Expiring.proceed (hx : Expiring now c s) (hh : s.holder = some h) (clock : Time)
    (answer : Option (Nat → Byte)) :
    Expiring now c (s.proceed getClassHash clock answer h) := by
  obtain ⟨hsweeps, hlen, -⟩ := proceed_remaining getClassHash s clock answer h
  refine hx.keep hlen ?_ ?_ ?_
  · intro hstored
    exact absurd (toStore_proceed hstored) (Nat.ne_of_lt hx.loaned)
  · intro e he hpay
    rcases mem_proceed he with hs | hhas
    · refine absurd ?_ hx.stored
      rw [hh, ← hpay]
      exact hs
    · exact hhas
  · rw [hsweeps]
    exact fun w hw hle => ⟨w, hw, hle⟩

theorem later_set {m : Option SegmentedMessage} (hw : s.sweeps[i]? = some w) :
    ∀ w' ∈ s.sweeps, now ≤ w'.now → ∃ w'' ∈ s.sweeps.set i ⟨w.now, m⟩, now ≤ w''.now := by
  intro w' hw' hle
  by_cases heq : w' = w
  · exact ⟨⟨w.now, m⟩, (List.mem_set_iff hw).mpr (Or.inl rfl), heq ▸ hle⟩
  · exact ⟨w', (List.mem_set_iff hw).mpr (Or.inr (List.mem_eraseIdx_of_ne hw hw' heq)), hle⟩

/-- A sweep ends only when nothing in the table has expired. -/
theorem Expiring.sweep (hx : Expiring now c s) (hw : s.sweeps[i]? = some w)
    (hstep : s.proceedSweep i w = some s') : Expiring now c s' := by
  rcases proceedSweep_cases hstep with ⟨-, hnone, rfl⟩ | ⟨k, msg, t, -, ht, rfl⟩ | ⟨msg, -, -, rfl⟩
  · refine ⟨hx.loaned, hx.stored, fun e he hpay => ?_⟩
    obtain ⟨hlt, w', hw', hle⟩ := hx.ahead e he hpay
    refine ⟨hlt, w', List.mem_eraseIdx_of_ne hw hw' ?_, hle⟩
    rintro rfl
    rcases SegmentedTable.takeExpired_cases s.segmented w'.now with
      ⟨-, hall⟩ | ⟨front, e', back, -, -, -, htaken, -⟩
    · exact hall e he (Nat.lt_of_lt_of_le hlt hle)
    · rw [hnone] at htaken
      cases htaken
  · obtain ⟨j, -, rfl⟩ := SegmentedTable.takeExpired_eq_some ht
    exact hx.keep (Nat.le_refl _) hx.stored
      (fun _ he _ => State.hasChunk_of_mem (VectorMap.mem_entries_of_mem_erase he)) (later_set hw)
  · exact hx.keep (Nat.le_refl _) hx.stored (fun _ he _ => State.hasChunk_of_mem he) (later_set hw)

/-- **One step.** -/
theorem expiring_step {l : Label} (hx : Expiring now c s)
    (hstep : step getClassHash s l = some s') : Expiring now c s' := by
  rcases step_cases hstep with hb | ⟨clock, -, rfl⟩ | ⟨h, clock, answer, -, hh, rfl⟩ |
    ⟨i, w, -, hw, hsweep⟩
  · exact hx.begins hb
  · exact hx.keep (Nat.le_refl _) hx.stored (fun _ he _ => State.hasChunk_of_mem he)
      fun w hw hle => ⟨w, List.mem_append_left _ hw, hle⟩
  · exact hx.proceed hh clock answer
  · exact hx.sweep hw hsweep

/-- The call begins. -/
theorem expiring_begin (hlt : c < s.chunks.length)
    (hstored : s.holder.bind Handler.toStore ≠ some c)
    (hexpired : ∀ e ∈ s.segmented.entries, e.2.userPayload = c → e.2.deadline < now) :
    Expiring now c { s with sweeps := s.sweeps ++ [⟨now, none⟩] } where
  loaned := hlt
  stored := hstored
  ahead := fun e he hpay => ⟨hexpired e he hpay, ⟨now, none⟩,
    List.mem_append_right _ List.mem_cons_self, Nat.le_refl _⟩

/-- Where no sweep and no handler is left, the chunk has been given back. -/
theorem Expiring.given_back (hx : Expiring now c s) (hs : Accounted s) (hfree : s.holder = none)
    (hreturned : s.sweeps = []) : publishCount s c + releaseCount s c = 1 := by
  have htable : tableCount s c = 0 := by
    refine List.countP_eq_zero.mpr fun e he => ?_
    simp only [decide_eq_true_eq]
    intro hpay
    obtain ⟨-, w, hw, -⟩ := hx.ahead e he hpay
    rw [hreturned] at hw
    cases hw
  have howner : ownerCount s c = 0 := by
    unfold ownerCount
    rw [hfree, hreturned]
    rfl
  have htotal := hs.total c
  rw [if_pos hx.loaned] at htotal
  unfold account at htotal
  omega

/-! ## The call returns -/

/-- What the sweeps have still to do, at most. -/
def sweepCost (s : State) : Nat :=
  2 * s.segmented.entries.length + s.sweeps.length +
    s.sweeps.countP fun w => w.msgToRelease.isSome

theorem sweepCost_lt (hw : s.sweeps[i]? = some w) (hstep : s.proceedSweep i w = some s') :
    sweepCost s' < sweepCost s ∧ s'.holder = s.holder := by
  unfold sweepCost
  rcases proceedSweep_cases hstep with ⟨hnone, -, rfl⟩ | ⟨k, msg, t, hnone, ht, rfl⟩ |
    ⟨msg, hsome, -, rfl⟩
  · have hlen := (List.perm_cons_eraseIdx hw).length_eq
    rw [List.length_cons] at hlen
    have hcount := List.countP_eraseIdx hw fun w => w.msgToRelease.isSome
    dsimp only
    exact ⟨by omega, rfl⟩
  · obtain ⟨j, hj, rfl⟩ := SegmentedTable.takeExpired_eq_some ht
    have hlen := (VectorMap.entries_perm_erase hj).length_eq
    rw [List.length_cons] at hlen
    have hset := List.countP_set_add hw ⟨w.now, some msg⟩ fun w => w.msgToRelease.isSome
    simp only [hnone, Option.isSome_none, Option.isSome_some, Bool.false_eq_true, if_false,
      if_true] at hset
    dsimp only
    rw [List.length_set]
    exact ⟨by omega, rfl⟩
  · have hset := List.countP_set_add hw ⟨w.now, none⟩ fun w => w.msgToRelease.isSome
    simp only [hsome, Option.isSome_none, Option.isSome_some, Bool.false_eq_true, if_false,
      if_true] at hset
    dsimp only
    rw [List.length_set]
    exact ⟨by omega, rfl⟩

/-- Left alone, the sweeps end. -/
theorem sweeps_return (getClassHash : ServiceDescription → ClassHash) :
    ∀ (n : Nat) (s : State), s.holder = none → sweepCost s ≤ n →
    ∃ ls s', Run.exec (step getClassHash) s ls = some s' ∧ s'.holder = none ∧ s'.sweeps = [] ∧
      ∀ l ∈ ls, l = .sweep 0 := by
  intro n
  induction n with
  | zero =>
    intro s hfree hcost
    have hsweeps : s.sweeps = [] := by
      unfold sweepCost at hcost
      exact List.length_eq_zero_iff.mp (by omega)
    exact ⟨[], s, rfl, hfree, hsweeps, by simp⟩
  | succ n ih =>
    intro s hfree hcost
    cases hsweeps : s.sweeps with
    | nil => exact ⟨[], s, rfl, hfree, hsweeps, by simp⟩
    | cons w ws =>
      have hw : s.sweeps[0]? = some w := by rw [hsweeps, List.getElem?_cons_zero]
      obtain ⟨s₁, hstep⟩ : ∃ s₁, s.proceedSweep 0 w = some s₁ := by
        unfold State.proceedSweep
        split
        · split <;> exact ⟨_, rfl⟩
        · rw [if_pos hfree]
          exact ⟨_, rfl⟩
      obtain ⟨hlt, hholder⟩ := sweepCost_lt hw hstep
      obtain ⟨ls, s', hls, hfree', hreturned, hall⟩ :=
        ih s₁ (hholder.trans hfree) (by omega)
      refine ⟨.sweep 0 :: ls, s', ?_, hfree', hreturned, ?_⟩
      · exact Run.exec_cons.mpr ⟨s₁, by rw [step, hw]; exact hstep, hls⟩
      · intro l hl
        rcases List.mem_cons.mp hl with rfl | hl
        · rfl
        · exact hall l hl

end Sections

/-- **Messages that time out are given back.**  In any reachable state let
`checkSegmentedMessages` begin.  Whatever else happens: when the sweeps have ended and no handler
is running, every chunk that had been loaned, was not about to be stored, and if it was stored was
past its deadline, has been published or released, once.  And the call can always return: left
alone, the handler under way and then the sweeps run to their end. -/
theorem timed_out_given_back (getClassHash : ServiceDescription → ClassHash) {s : State}
    (hr : Reachable getClassHash s) (now : Time) :
    (∀ ls s', Run.exec (step getClassHash) s (.checkSegmentedMessages now :: ls) = some s' →
      s'.holder = none → s'.sweeps = [] →
      ∀ c < s.chunks.length, s.holder.bind Handler.toStore ≠ some c →
        (∀ e ∈ s.segmented.entries, e.2.userPayload = c → e.2.deadline < now) →
        publishCount s' c + releaseCount s' c = 1) ∧
    ∃ ls s', Run.exec (step getClassHash) s (.checkSegmentedMessages now :: ls) = some s' ∧
      s'.holder = none ∧ s'.sweeps = [] ∧ ∀ l ∈ ls, l = .proceed 0 none ∨ l = .sweep 0 := by
  have hs := accounted_of_reachable hr
  refine ⟨fun ls s' hrun hfree hreturned c hlt hstored hexpired => ?_, ?_⟩
  · obtain ⟨s₁, hbegin, hrest⟩ := Run.exec_cons.mp hrun
    have hs' : Accounted s' :=
      Run.invariant Accounted (fun _ _ _ hs hstep => accounted_step hs hstep) hs hrun
    obtain rfl := Option.some.inj hbegin
    have hx : Expiring now c s' :=
      Run.invariant (Expiring now c) (fun _ _ _ hx hstep => expiring_step hx hstep)
        (expiring_begin hlt hstored hexpired) hrest
    exact hx.given_back hs' hfree hreturned
  · obtain ⟨ls₁, s₁, hls₁, hfree₁, -, -, hall₁⟩ := holder_returns getClassHash
      (s.holder.elim 0 Handler.remaining) { s with sweeps := s.sweeps ++ [⟨now, none⟩] }
      (fun h hh => by
        have hh' : s.holder = some h := hh
        simp [hh'])
    obtain ⟨ls₂, s', hls₂, hfree, hreturned, hall₂⟩ :=
      sweeps_return getClassHash _ s₁ hfree₁ (Nat.le_refl _)
    refine ⟨ls₁ ++ ls₂, s', Run.exec_cons.mpr ⟨_, rfl, Run.exec_trans hls₁ hls₂⟩, hfree,
      hreturned, fun l hl => ?_⟩
    rcases List.mem_append.mp hl with hl | hl
    · exact Or.inl (hall₁ l hl)
    · exact Or.inr (hall₂ l hl)

/-- The second half of a message does not come in. -/
theorem timed_out_given_back_demo :
    ∃ s, Run.exec (step demoClassHash) State.init (demoSetup ++ demoFirst 9) = some s ∧
      ∃ s', Run.exec (step demoClassHash) s
          [.checkSegmentedMessages 2000, .sweep 0, .sweep 0, .sweep 0] = some s' ∧
        publishCount s' 0 + releaseCount s' 0 = 1 := by
  refine ⟨_, rfl, _, rfl, ?_⟩
  exact (timed_out_given_back demoClassHash ⟨demoSetup ++ demoFirst 9, rfl⟩ 2000).1
    [.sweep 0, .sweep 0, .sweep 0] _ rfl rfl rfl 0 (by decide) (by decide) (by decide)

end P3com.TransportToIox
