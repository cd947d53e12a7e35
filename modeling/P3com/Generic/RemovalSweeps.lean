/-
# The removal sweeps

`checkSegmentedMessages` and `releaseAll` of `source/p3com/generic/segmented_messages.cpp`.  Both
erase from the vectors over which they iterate.  `checkSegmentedMessages` breaks off after each
erasure and starts again from the beginning; `releaseAll` goes backwards, with an iterator one past
the message it looks at, while the tail moves left over the erased place.

`SegmentedTable` has what the locked sections do.  Here are the whole functions, over the two
vectors and with iterators as in the source: an iterator that does not point to an element is an
error (`none`), and the `while` loop may use up its fuel, which is an error too.  Neither happens,
and both functions are filters (`removal_sweeps_exact`).
-/
import P3com.Generic.SegmentedMessages
import P3com.Utility.TwoVectors

namespace P3com.RemovalSweeps

/-- `m_segmentedMessages`, as its two vectors. -/
abbrev SegmentedVectors := TwoVectors Hash SegmentedMessage maxSegmentedMessageCount

/-- A call `publisher->release(userPayload)`. -/
structure Release where
  publisher : PublisherId
  userPayload : ChunkId
deriving DecidableEq

/-- The call that gives the chunk of the message back. -/
def releaseOf (msg : SegmentedMessage) : Release := ⟨msg.publisher, msg.userPayload⟩

/-- The locked section of `checkSegmentedMessages`: the first message whose deadline has passed is
copied to `msgToRelease` and erased. -/
def msgToRelease (m : SegmentedVectors) (now : Time) :
    Option (SegmentedMessage × SegmentedVectors) :=
  (m.elems.toList.findIdx? fun msg => msg.deadline < now).bind fun it =>
    (m.deref it).map fun msg => (msg, m.erase it)

/-- The `while` loop of `checkSegmentedMessages`, with the calls of `release` so far. -/
def checkLoop (now : Time) :
    Nat → SegmentedVectors → List Release → Option (SegmentedVectors × List Release)
  | 0, _, _ => none
  | fuel + 1, m, calls =>
    match msgToRelease m now with
    | some (msg, m') => checkLoop now fuel m' (calls ++ [releaseOf msg])
    | none => some (m, calls)

/-- `checkSegmentedMessages`, with at most `fuel` rounds of its loop. -/
def checkSegmentedMessages (fuel : Nat) (m : SegmentedVectors) (now : Time) :
    Option (SegmentedVectors × List Release) :=
  checkLoop now fuel m []

/-- The `for` loop of `releaseAll`, from the iterator `it` down to `begin()`; `msgIt` is
`it - 1`. -/
def releaseAllLoop (publisher : PublisherId) :
    Nat → SegmentedVectors → List Release → Option (SegmentedVectors × List Release)
  | 0, m, calls => some (m, calls)
  | msgIt + 1, m, calls =>
    match m.deref msgIt with
    | none => none
    | some msg =>
      if msg.publisher = publisher then
        releaseAllLoop publisher msgIt (m.erase msgIt) (calls ++ [releaseOf msg])
      else
        releaseAllLoop publisher msgIt m calls

/-- `releaseAll`. -/
def releaseAll (m : SegmentedVectors) (publisher : PublisherId) :
    Option (SegmentedVectors × List Release) :=
  releaseAllLoop publisher m.endIt m []

/-! ## `checkSegmentedMessages` -/

/-- The section computes what `takeExpired` computes. -/
theorem msgToRelease_raw (t : SegmentedTable) (now : Time) :
    msgToRelease t.raw now = (t.takeExpired now).map fun r => (r.2.1, r.2.2.raw) := by
  unfold msgToRelease SegmentedTable.takeExpired
  have helems : t.raw.elems.toList = t.elems := rfl
  rw [helems]
  cases t.elems.findIdx? fun msg => msg.deadline < now with
  | none => rfl
  | some it =>
    have hderef : t.raw.deref it = t.entries[it]?.map Prod.snd := by
      rw [TwoVectors.deref, helems, VectorMap.elems_eq, List.getElem?_map]
    simp only [Option.bind_some, hderef, Option.map_map]
    rfl

/-- A round in terms of the filters: it takes the first expired message, and those that are not
expired stay. -/
theorem takeExpired_filters (t : SegmentedTable) (now : Time) :
    (t.takeExpired now = none ∧ (t.entries.filter fun e => e.2.deadline < now) = [] ∧
      (t.entries.filter fun e => ¬ e.2.deadline < now) = t.entries) ∨
    ∃ e i, t.takeExpired now = some (e.1, e.2, t.erase i) ∧
      (t.entries.filter fun e => e.2.deadline < now)
        = e :: (t.erase i).entries.filter (fun e => e.2.deadline < now) ∧
      (t.entries.filter fun e => ¬ e.2.deadline < now)
        = (t.erase i).entries.filter fun e => ¬ e.2.deadline < now := by
  rcases t.takeExpired_cases now with
    ⟨htake, hnone⟩ | ⟨front, e, back, hlist, hfront, he, htake, herase⟩
  · refine Or.inl ⟨htake, ?_, ?_⟩
    · exact List.filter_eq_nil_iff.mpr fun e he => by simpa using hnone e he
    · exact List.filter_eq_self.mpr fun e he => by simpa using hnone e he
  · have hnil : (front.filter fun e => e.2.deadline < now) = [] :=
      List.filter_eq_nil_iff.mpr fun d hd => by simpa using hfront d hd
    refine Or.inr ⟨e, front.length, htake, ?_, ?_⟩
    · rw [hlist, herase, List.filter_append, List.filter_append, hnil]
      simp [he]
    · rw [hlist, herase, List.filter_append, List.filter_append]
      simp [he]

/-- **The loop.**  A round takes the first expired message out of the table; once there is none
left, the loop ends.  So it needs one round more than there are expired messages. -/
theorem checkLoop_raw (now : Time) (extra : Nat) (t : SegmentedTable) (calls : List Release) :
    ∃ t' : SegmentedTable,
      checkLoop now ((t.entries.filter fun e => e.2.deadline < now).length + 1 + extra) t.raw calls
          = some (t'.raw, calls ++
            (t.entries.filter fun e => e.2.deadline < now).map fun e => releaseOf e.2) ∧
        t'.entries = t.entries.filter fun e => ¬ e.2.deadline < now := by
  -- on the expired messages that are left
  obtain ⟨expired, hexpired⟩ : ∃ l, (t.entries.filter fun e => e.2.deadline < now) = l := ⟨_, rfl⟩
  induction expired generalizing t calls with
  | nil =>
    rcases takeExpired_filters t now with ⟨htake, -, hkept⟩ | ⟨e, i, -, hcons, -⟩
    · refine ⟨t, ?_, hkept.symm⟩
      rw [hexpired, List.length_nil, Nat.zero_add, Nat.add_comm, checkLoop, msgToRelease_raw, htake]
      simp
    · rw [hexpired] at hcons
      cases hcons
  | cons d expired ih =>
    rcases takeExpired_filters t now with ⟨-, hnil, -⟩ | ⟨e, i, htake, hcons, hkept⟩
    · rw [hexpired] at hnil
      cases hnil
    · obtain ⟨rfl, htail⟩ := List.cons.inj (hexpired.symm.trans hcons)
      obtain ⟨t', hloop, hentries⟩ := ih (t.erase i) (calls ++ [releaseOf d.2]) htail.symm
      refine ⟨t', ?_, by rw [hkept, hentries]⟩
      rw [hcons, List.length_cons, Nat.add_right_comm, Nat.add_right_comm _ 1 extra, checkLoop,
        msgToRelease_raw, htake]
      simpa [Nat.add_right_comm] using hloop

/-! ## `releaseAll` -/

/-- Walking backwards, the iterator points to an element at every step: what is behind it is as it
was at the beginning. -/
theorem releaseAllLoop_raw (publisher : PublisherId) (k : Nat) (t : SegmentedTable)
    (released : List SegmentedMessage) (hk : k ≤ t.size) :
    releaseAllLoop publisher k t.raw (released.map releaseOf)
      = some ((SegmentedTable.releaseAllLoop publisher k t released).1.raw,
        (SegmentedTable.releaseAllLoop publisher k t released).2.map releaseOf) := by
  induction k generalizing t released with
  | zero => rfl
  | succ k ih =>
    obtain ⟨msg, hmsg⟩ : ∃ msg, t.elems[k]? = some msg := ⟨_, List.getElem?_eq_getElem hk⟩
    have hderef : t.raw.deref k = some msg := hmsg
    rw [releaseAllLoop, SegmentedTable.releaseAllLoop, hderef, hmsg]
    dsimp only
    split
    · have hsize : k ≤ (t.erase k).size := by
        have hlen := List.length_eraseIdx_of_lt hk
        have herase : (t.erase k).size = (t.elems.eraseIdx k).length := rfl
        rw [herase, hlen]
        exact Nat.le_sub_one_of_lt hk
      have hcalls : released.map releaseOf ++ [releaseOf msg]
          = (released ++ [msg]).map releaseOf := by simp
      rw [hcalls, VectorMap.raw_erase]
      exact ih (t.erase k) (released ++ [msg]) hsize
    · exact ih t released (Nat.le_of_succ_le hk)

/-- **The removal sweeps are exact filters**, for every content of the table.
`checkSegmentedMessages` ends after as many rounds as there are expired messages, and one more. -/
theorem removal_sweeps_exact (t : SegmentedTable) :
    (∀ now extra, ∃ t' : SegmentedTable,
      checkSegmentedMessages
          ((t.entries.filter fun e => e.2.deadline < now).length + 1 + extra) t.raw now
        = some (t'.raw,
          (t.entries.filter fun e => e.2.deadline < now).map fun e => releaseOf e.2) ∧
      t'.entries = t.entries.filter fun e => ¬ e.2.deadline < now) ∧
    ∀ publisher, ∃ t' : SegmentedTable,
      releaseAll t.raw publisher
        = some (t'.raw,
          ((t.entries.filter fun e => e.2.publisher = publisher).map fun e =>
            releaseOf e.2).reverse) ∧
      t'.entries = t.entries.filter fun e => e.2.publisher ≠ publisher := by
  refine ⟨fun now extra => checkLoop_raw now extra t [], fun publisher => ?_⟩
  obtain ⟨hentries, hreleased⟩ := t.releaseAll_eq publisher
  refine ⟨(t.releaseAll publisher).1, ?_, hentries⟩
  have hloop := releaseAllLoop_raw publisher t.size t [] (Nat.le_refl _)
  have hcalls : (t.releaseAll publisher).2.map releaseOf
      = ((t.entries.filter fun e => e.2.publisher = publisher).map fun e =>
        releaseOf e.2).reverse := by
    rw [hreleased, List.map_reverse, List.map_map]
    rfl
  rw [← hcalls]
  exact hloop

end P3com.RemovalSweeps
