/-
# Received chunks are accounted for

Every chunk that `Transport2Iceoryx` loans is, at every moment of every run, in exactly one place:
in one entry of the table of segmented messages, in the hands of one running handler that will
still store, publish or release it, published, or released.  `account` adds up the four; the
invariant `Accounted` says that the sum is one for every loaned chunk.

The sum is preserved because each section moves a chunk from one place to one other.  The one
thing a section needs from the sections before it is that the hash it pushes is not in the table,
which also keeps the keys of the table distinct: the handler has looked it up under the endpoints
mutex, and only sweeps, which take messages out, can have run since.
-/
import P3com.Gateway.TransportToIox

namespace P3com.TransportToIox

/-! ## Where a chunk can be -/

/-- The event gives the chunk to subscribers. -/
def Event.publishes (c : ChunkId) : Event → Bool
  | .published c' _ _ _ => c' = c
  | _ => false

/-- The event gives the chunk back to the memory pool. -/
def Event.releases (c : ChunkId) : Event → Bool
  | .released c' _ => c' = c
  | _ => false

/-- The chunk that the handler has loaned or taken out of the table, and has still to store,
publish or release. -/
def Handler.owned : Handler → Option ChunkId
  | .receivePush _ c => some c
  | .receiveTake _ _ c true => some c
  | .receivePublish _ c => some c
  | .loanPush _ c => some c
  | .releasePublish _ c => some c
  | _ => none

/-- The hash under which the handler will store a message, having found it absent. -/
def Handler.absent : Handler → Option Hash
  | .receiveLoan x => some x.header.messageHash
  | .receivePush x _ => some x.header.messageHash
  | .loanLoan x => some x.header.messageHash
  | .loanPush x _ => some x.header.messageHash
  | _ => none

/-- The sweep has taken the chunk out of the table and not yet released it. -/
def Sweep.holds (c : ChunkId) (w : Sweep) : Bool :=
  w.msgToRelease.any fun msg => msg.userPayload = c

/-- The number of table entries that hold the chunk. -/
def tableCount (s : State) (c : ChunkId) : Nat :=
  s.segmented.entries.countP fun e => e.2.userPayload = c

/-- The number of running handlers that own the chunk. -/
def ownerCount (s : State) (c : ChunkId) : Nat :=
  (if s.holder.bind Handler.owned = some c then 1 else 0) + s.sweeps.countP (Sweep.holds c)

/-- The number of `publish` calls on the chunk. -/
def publishCount (s : State) (c : ChunkId) : Nat := s.log.countP (Event.publishes c)

/-- The number of `release` calls on the chunk. -/
def releaseCount (s : State) (c : ChunkId) : Nat := s.log.countP (Event.releases c)

/-- All the places of a chunk, counted. -/
def account (s : State) (c : ChunkId) : Nat :=
  tableCount s c + ownerCount s c + publishCount s c + releaseCount s c

/-- The invariant. -/
structure Accounted (s : State) : Prop where
  keys : s.segmented.keys.Nodup
  total : ∀ c, account s c = if c < s.chunks.length then 1 else 0
  absent : ∀ k, s.holder.bind Handler.absent = some k → k ∉ s.segmented.keys

/-- The sum, written out. -/
theorem account_eq (s : State) (c : ChunkId) : account s c =
    s.segmented.entries.countP (fun e => e.2.userPayload = c)
      + ((if s.holder.bind Handler.owned = some c then 1 else 0)
        + s.sweeps.countP (Sweep.holds c))
      + s.log.countP (Event.publishes c) + s.log.countP (Event.releases c) := rfl

/-! ## The sections of the table -/

section Table

variable {t t' : SegmentedTable} {k : Hash} {msg : SegmentedMessage}

/-- `findAndDecrement` takes the message out exactly when it says to publish it. -/
theorem findAndDecrement_count {publish : Bool}
    (h : t.findAndDecrement k = some (msg, publish, t')) (c : ChunkId) :
    t.entries.countP (fun e => e.2.userPayload = c)
      = t'.entries.countP (fun e => e.2.userPayload = c)
        + if publish = true ∧ msg.userPayload = c then 1 else 0 := by
  obtain ⟨i, hi, ⟨rfl, -, rfl⟩ | ⟨rfl, -, rfl⟩⟩ := SegmentedTable.findAndDecrement_eq_some h
  · rw [VectorMap.countP_entries_erase hi]
    simp
  · rw [VectorMap.countP_entries_set hi]
    · simp
    · rfl

theorem findAndDecrement_nodup {publish : Bool}
    (h : t.findAndDecrement k = some (msg, publish, t')) (hn : t.keys.Nodup) :
    t'.keys.Nodup := by
  obtain ⟨i, -, ⟨-, -, rfl⟩ | ⟨-, -, rfl⟩⟩ := SegmentedTable.findAndDecrement_eq_some h
  · exact VectorMap.nodup_keys_erase hn i
  · exact hn

/-- Taking the entry at an index out of the table. -/
theorem erase_count {i : Nat} (hi : t.entries[i]? = some (k, msg)) (c : ChunkId) :
    t.entries.countP (fun e => e.2.userPayload = c)
      = (t.erase i).entries.countP (fun e => e.2.userPayload = c)
        + if msg.userPayload = c then 1 else 0 := by
  rw [VectorMap.countP_entries_erase hi]
  simp

theorem push_count (h : t.push k msg = some t') (c : ChunkId) :
    t'.entries.countP (fun e => e.2.userPayload = c)
      = t.entries.countP (fun e => e.2.userPayload = c)
        + if msg.userPayload = c then 1 else 0 := by
  rw [VectorMap.entries_emplace h, List.countP_append, List.countP_singleton]
  simp

theorem releaseAll_count (t : SegmentedTable) (p : PublisherId) (c : ChunkId) :
    t.entries.countP (fun e => e.2.userPayload = c)
      = (t.releaseAll p).1.entries.countP (fun e => e.2.userPayload = c)
        + (t.releaseAll p).2.countP (fun msg => msg.userPayload = c) := by
  rw [(SegmentedTable.releaseAll_eq t p).1, (SegmentedTable.releaseAll_eq t p).2,
    List.countP_reverse, List.countP_map,
    List.countP_eq_countP_filter_add _ _ (fun e => e.2.publisher = p), Nat.add_comm]
  congr 2
  · apply List.filter_congr
    intro e _
    simp

theorem releaseAll_nodup (p : PublisherId) (hn : t.keys.Nodup) :
    (t.releaseAll p).1.keys.Nodup := by
  rw [VectorMap.keys_eq] at hn ⊢
  rw [(SegmentedTable.releaseAll_eq t p).1]
  exact hn.sublist (List.filter_sublist.map _)

end Table

/-! ## Every section preserves the sum -/

variable {getClassHash : ServiceDescription → ClassHash} {s : State}

/-- The sections of a handler, one kind of handler at a time.  In each of them the handler's share
of the sum is what `Handler.owned` says before, and the chunk is counted again where the section
puts it. -/
theorem accounted_receiveFind {x : Call} (hs : Accounted s)
    (hh : s.holder = some (.receiveFind x)) (now : Time) (answer : Option (Nat → Byte)) :
    Accounted (s.proceed getClassHash now answer (.receiveFind x)) := by
  have htot := hs.total
  simp only [account_eq, hh, Option.bind_some, Handler.owned] at htot
  rw [State.proceed]
  cases hf : s.segmented.findAndDecrement x.header.messageHash with
  | none =>
    refine ⟨hs.keys, fun c => ?_, fun k hk => ?_⟩
    · simpa [account_eq, Handler.owned] using htot c
    · obtain rfl : x.header.messageHash = k := by simpa [Handler.absent] using hk
      exact SegmentedTable.findAndDecrement_eq_none.mp hf
  | some r =>
    obtain ⟨msg, shouldPublish, t⟩ := r
    refine ⟨findAndDecrement_nodup hf hs.keys, fun c => ?_, by simp [Handler.absent]⟩
    have hc := htot c
    rw [findAndDecrement_count hf] at hc
    cases shouldPublish <;> simp [account_eq, Handler.owned] at hc ⊢ <;> omega

theorem accounted_loan {x : Call} (hs : Accounted s) (fill : Nat → Byte) {h h' : Handler}
    (hh : s.holder = some h) (howned : h.owned = none) (howned' : h'.owned = some s.chunks.length)
    (habsent : ∀ k, h'.absent = some k → h.absent = some k) :
    Accounted ((s.loan x fill).goto (some h')) := by
  have htot := hs.total
  simp only [account_eq, hh, Option.bind_some, howned] at htot
  refine ⟨hs.keys, fun c => ?_, fun k hk => ?_⟩
  · have hc := htot c
    simp only [reduceCtorEq, ↓reduceIte, zero_add, account_eq, State.goto_segmented,
      State.loan_segmented, State.goto_holder, Option.bind_some, howned', Option.some.injEq,
      State.goto_sweeps, State.loan_sweeps, State.goto_log, State.loan_log, Event.publishes,
      Bool.false_eq_true, not_false_eq_true, List.countP_cons_of_neg, Event.releases,
      State.goto_chunks, State.loan_chunks, List.length_append, List.length_cons,
      List.length_nil] at hc ⊢
    rcases Nat.lt_trichotomy c s.chunks.length with hlt | rfl | hgt
    · rw [if_neg (Nat.ne_of_gt hlt), if_pos (Nat.lt_succ_of_lt hlt)]
      rw [if_pos hlt] at hc
      omega
    · rw [if_pos rfl, if_pos (Nat.lt_succ_self _)]
      rw [if_neg (Nat.lt_irrefl _)] at hc
      omega
    · rw [if_neg (Nat.ne_of_lt hgt), if_neg (Nat.not_lt.mpr hgt)]
      rw [if_neg (Nat.not_lt.mpr (Nat.le_of_lt hgt))] at hc
      omega
  · refine hs.absent k ?_
    rw [hh]
    exact habsent k (by simpa using hk)

theorem accounted_push {x : Call} {c₀ : ChunkId} (hs : Accounted s) (remaining : UInt32)
    (now : Time) {h h' : Handler} (hh : s.holder = some h) (howned : h.owned = some c₀)
    (habsent : h.absent = some x.header.messageHash) (howned' : h'.owned = none)
    (habsent' : h'.absent = none) :
    Accounted ((s.pushSegmented x remaining c₀ now).goto (some h')) := by
  have htot := hs.total
  simp only [account_eq, hh, Option.bind_some, howned, Option.some.injEq] at htot
  unfold State.pushSegmented
  split
  · rename_i t hp
    refine ⟨?_, fun c => ?_, by simp [habsent']⟩
    · exact VectorMap.nodup_keys_emplace hs.keys (hs.absent _ (by simp [hh, habsent])) hp
    · have hc := htot c
      simp [account_eq, howned', push_count hp] at hc ⊢
      omega
  · refine ⟨hs.keys, fun c => ?_, by simp [habsent']⟩
    have hc := htot c
    simp [account_eq, howned', Event.publishes, Event.releases, List.countP_cons] at hc ⊢
    omega

/-- A step that moves no chunk. -/
theorem accounted_of_eq {s' : State} (hs : Accounted s) (htable : s'.segmented = s.segmented)
    (howner : s'.holder.bind Handler.owned = s.holder.bind Handler.owned)
    (hsweeps : ∀ c, s'.sweeps.countP (Sweep.holds c) = s.sweeps.countP (Sweep.holds c))
    (hlen : s'.chunks.length = s.chunks.length)
    (hpub : ∀ c, s'.log.countP (Event.publishes c) = s.log.countP (Event.publishes c))
    (hrel : ∀ c, s'.log.countP (Event.releases c) = s.log.countP (Event.releases c))
    (habsent : ∀ k, s'.holder.bind Handler.absent = some k → k ∉ s.segmented.keys) :
    Accounted s' := by
  refine ⟨htable ▸ hs.keys, fun c => ?_, fun k hk => htable ▸ habsent k hk⟩
  have hc := hs.total c
  rw [account_eq] at hc ⊢
  rw [htable, howner, hsweeps, hlen, hpub, hrel]
  exact hc

theorem accounted_publish {x : Call} {c₀ : ChunkId} {h : Handler} (hs : Accounted s)
    (hh : s.holder = some h) (howned : h.owned = some c₀) :
    Accounted ((s.publish x c₀).goto none) := by
  have htot := hs.total
  simp only [account_eq, hh, Option.bind_some, howned, Option.some.injEq] at htot
  refine ⟨hs.keys, fun c => ?_, by simp⟩
  have hc := htot c
  simp [account_eq, State.publish, Event.publishes, Event.releases, List.countP_cons] at hc ⊢
  omega

theorem accounted_releaseRelease {x : Call} (hs : Accounted s)
    (hh : s.holder = some (.releaseRelease x)) (now : Time) (answer : Option (Nat → Byte)) :
    Accounted (s.proceed getClassHash now answer (.releaseRelease x)) := by
  have htot := hs.total
  simp only [account_eq, hh, Option.bind_some, Handler.owned] at htot
  rw [State.proceed]
  cases hf : s.segmented.release x.header.messageHash with
  | none =>
    exact accounted_of_eq hs rfl (by simp [hh, Handler.owned]) (fun _ => rfl) rfl (fun _ => rfl)
      (fun _ => rfl) (by simp)
  | some r =>
    obtain ⟨msg, t⟩ := r
    obtain ⟨i, hi, rfl⟩ := SegmentedTable.release_eq_some hf
    refine ⟨VectorMap.nodup_keys_erase hs.keys i, fun c => ?_, by simp⟩
    have hc := htot c
    rw [erase_count hi] at hc
    simp [account_eq, Event.publishes, Event.releases, List.countP_cons] at hc ⊢
    omega

theorem accounted_releaseDecrement {x : Call} (hs : Accounted s)
    (hh : s.holder = some (.releaseDecrement x)) (now : Time) (answer : Option (Nat → Byte)) :
    Accounted (s.proceed getClassHash now answer (.releaseDecrement x)) := by
  have htot := hs.total
  simp only [account_eq, hh, Option.bind_some, Handler.owned] at htot
  rw [State.proceed]
  cases hf : s.segmented.findAndDecrement x.header.messageHash with
  | none =>
    exact accounted_of_eq hs rfl (by simp [hh, Handler.owned]) (fun _ => rfl) rfl (fun _ => rfl)
      (fun _ => rfl) (by simp)
  | some r =>
    obtain ⟨msg, shouldPublish, t⟩ := r
    have hn := findAndDecrement_nodup hf hs.keys
    have hcount := findAndDecrement_count hf
    cases shouldPublish with
    | false =>
      refine ⟨hn, fun c => ?_, by simp⟩
      have hc := htot c
      rw [hcount] at hc
      simpa [account_eq] using hc
    | true =>
      refine ⟨hn, fun c => ?_, by simp [Handler.absent]⟩
      have hc := htot c
      rw [hcount] at hc
      simp [account_eq, Handler.owned] at hc ⊢
      omega

/-- Discarding a channel moves every message of its publisher from the table to the released. -/
theorem accounted_deleteChannel {toDelete toSetup : List ServiceDescription}
    {service : ServiceDescription} (hs : Accounted s)
    (hh : s.holder = some (.updateChannels (service :: toDelete) toSetup)) :
    Accounted ((s.deleteChannel getClassHash service).goto
      (some (.updateChannels toDelete toSetup))) := by
  have htot := hs.total
  simp only [account_eq, hh, Option.bind_some, Handler.owned] at htot
  unfold State.deleteChannel
  split
  · exact accounted_of_eq hs rfl (by simp [hh, Handler.owned]) (fun _ => rfl) rfl
      (fun _ => rfl) (fun _ => rfl) (by simp [Handler.absent])
  · rename_i e endpoints _
    refine ⟨releaseAll_nodup e.id hs.keys, fun c => ?_, by simp [Handler.absent]⟩
    have hc := htot c
    rw [releaseAll_count s.segmented e.id] at hc
    simp only [account_eq, State.goto_segmented, State.goto_holder, State.goto_sweeps,
      State.goto_log, State.goto_chunks, Option.bind_some, Handler.owned, List.countP_append,
      List.countP_reverse, List.countP_map]
    have h1 : ∀ l : List SegmentedMessage, l.countP
        (Event.publishes c ∘ fun msg => Event.released msg.userPayload e.id) = 0 := by
      intro l
      simp [Function.comp_def, Event.publishes]
    have h2 : ∀ l : List (Hash × SegmentedMessage), l.countP
        (Event.publishes c ∘ fun m => Event.discarded m.1 m.2.userPayload) = 0 := by
      intro l
      simp [Function.comp_def, Event.publishes]
    have h3 : ∀ l : List (Hash × SegmentedMessage), l.countP
        (Event.releases c ∘ fun m => Event.discarded m.1 m.2.userPayload) = 0 := by
      intro l
      simp [Function.comp_def, Event.releases]
    have h4 : (Event.releases c ∘ fun msg : SegmentedMessage =>
        Event.released msg.userPayload e.id) = fun msg => decide (msg.userPayload = c) := by
      funext msg
      simp [Event.releases]
    rw [h1, h2, h3, h4]
    simp only [reduceCtorEq, if_false] at hc ⊢
    omega

/-- `takeNext` changes bytes only. -/
theorem accounted_takeNext {x : Call} {userHeader : Option ChunkId} {c : ChunkId} {h : Handler}
    {next : Option Handler} (hs : Accounted s) (hh : s.holder = some h)
    (howned : next.bind Handler.owned = h.owned) (habsent : next.bind Handler.absent = none) :
    Accounted ((s.takeNext x userHeader c).goto next) := by
  unfold State.takeNext
  split
  · exact accounted_of_eq hs rfl (by simp [hh, howned]) (fun _ => rfl) rfl (fun _ => rfl)
      (fun _ => rfl) (by simp [habsent])
  · exact accounted_of_eq hs rfl (by simp [hh, howned]) (fun _ => rfl) (by simp)
      (fun c => by simp [Event.publishes]) (fun c => by simp [Event.releases]) (by simp [habsent])

/-- **Every section of the holder keeps every chunk accounted for.** -/
theorem accounted_proceed {h : Handler} (hs : Accounted s) (hh : s.holder = some h) (now : Time)
    (answer : Option (Nat → Byte)) : Accounted (s.proceed getClassHash now answer h) := by
  cases h with
  | receiveFind x => exact accounted_receiveFind hs hh now answer
  | receiveLoan x =>
    cases answer with
    | none =>
      simp only [State.proceed]
      exact accounted_of_eq hs rfl (by simp [hh, Handler.owned]) (fun _ => rfl) rfl
        (fun c => by simp [Event.publishes]) (fun c => by simp [Event.releases]) (by simp)
    | some fill =>
      simp only [State.proceed]
      split
      · exact accounted_loan hs fill hh rfl rfl (by simp [Handler.absent])
      · exact accounted_loan hs fill hh rfl rfl (by simp [Handler.absent])
  | receivePush x c => exact accounted_push hs _ now hh rfl rfl rfl rfl
  | receiveTake x userHeader c shouldPublish =>
    cases shouldPublish with
    | false => exact accounted_takeNext hs hh rfl rfl
    | true => exact accounted_takeNext hs hh rfl rfl
  | receivePublish x c => exact accounted_publish hs hh rfl
  | loanFind x =>
    rw [State.proceed]
    cases hf : s.segmented.findElem x.header.messageHash with
    | none =>
      refine accounted_of_eq hs rfl (by simp [hh, Handler.owned]) (fun _ => rfl) rfl
        (fun _ => rfl) (fun _ => rfl) fun k hk => ?_
      obtain rfl : x.header.messageHash = k := by simpa [Handler.absent] using hk
      exact VectorMap.findElem_eq_none.mp hf
    | some r =>
      exact accounted_of_eq hs rfl (by simp [hh, Handler.owned]) (fun _ => rfl) rfl
        (fun _ => rfl) (fun _ => rfl) (by simp [Handler.absent])
  | loanLoan x =>
    cases answer with
    | none =>
      simp only [State.proceed]
      exact accounted_of_eq hs rfl (by simp [hh, Handler.owned]) (fun _ => rfl) rfl
        (fun c => by simp [Event.publishes]) (fun c => by simp [Event.releases]) (by simp)
    | some fill => exact accounted_loan hs fill hh rfl rfl (by simp [Handler.absent])
  | loanPush x c => exact accounted_push hs _ now hh rfl rfl rfl rfl
  | loanReturn x userHeader c =>
    simp only [State.proceed]
    split
    · cases userHeader with
      | none =>
        exact accounted_of_eq hs rfl (by simp [hh, Handler.owned]) (fun _ => rfl) rfl
          (fun _ => rfl) (fun _ => rfl) (by simp)
      | some c' =>
        exact accounted_of_eq hs rfl (by simp [hh, Handler.owned]) (fun _ => rfl) rfl
          (fun c => by simp [Event.publishes]) (fun c => by simp [Event.releases]) (by simp)
    · exact accounted_of_eq hs rfl (by simp [hh, Handler.owned]) (fun _ => rfl) rfl
        (fun c => by simp [Event.publishes]) (fun c => by simp [Event.releases]) (by simp)
  | releaseRelease x => exact accounted_releaseRelease hs hh now answer
  | releaseDecrement x => exact accounted_releaseDecrement hs hh now answer
  | releasePublish x c => exact accounted_publish hs hh rfl
  | updateChannels toDelete toSetup =>
    cases toDelete with
    | cons service toDelete => exact accounted_deleteChannel hs hh
    | nil =>
      cases toSetup with
      | cons service toSetup =>
        exact accounted_of_eq hs rfl (by simp [State.proceed, hh, Handler.owned]) (fun _ => rfl) rfl
          (fun _ => rfl) (fun _ => rfl) (by simp [State.proceed, Handler.absent])
      | nil =>
        exact accounted_of_eq hs rfl (by simp [State.proceed, hh, Handler.owned]) (fun _ => rfl) rfl
          (fun _ => rfl) (fun _ => rfl) (by simp [State.proceed])

/-- A section of a sweep moves a chunk from the table to the sweep, or from the sweep to the
released. -/
theorem accounted_sweep {s' : State} {i : Nat} {w : Sweep} (hs : Accounted s)
    (hw : s.sweeps[i]? = some w) (h : s.proceedSweep i w = some s') : Accounted s' := by
  have htot := hs.total
  simp only [account_eq] at htot
  rcases proceedSweep_cases h with ⟨hnone, -, rfl⟩ | ⟨k, msg, t, hnone, ht, rfl⟩ |
    ⟨msg, hsome, -, rfl⟩
  · refine accounted_of_eq hs rfl rfl (fun c => ?_) rfl (fun _ => rfl) (fun _ => rfl) hs.absent
    rw [List.countP_eraseIdx hw]
    simp [Sweep.holds, hnone]
  · obtain ⟨j, hj, rfl⟩ := SegmentedTable.takeExpired_eq_some ht
    refine ⟨VectorMap.nodup_keys_erase hs.keys j, fun c => ?_, fun k' hk' hmem => ?_⟩
    · have hc := htot c
      have hset := List.countP_set_add hw ⟨w.now, some msg⟩ (Sweep.holds c)
      rw [erase_count hj] at hc
      simp only [Sweep.holds, hnone, Option.any_none, Option.any_some, decide_eq_true_eq,
        Bool.false_eq_true, if_false, Nat.add_zero] at hset
      simp only [account_eq, Event.publishes, Event.releases, List.countP_cons, hset]
      simp only [Bool.false_eq_true, if_false, Nat.add_zero]
      omega
    · exact hs.absent k' hk' (List.mem_of_mem_eraseIdx hmem)
  · refine ⟨hs.keys, fun c => ?_, hs.absent⟩
    have hc := htot c
    have hset := List.countP_set_add hw ⟨w.now, none⟩ (Sweep.holds c)
    simp only [Sweep.holds, hsome, Option.any_some, Option.any_none, decide_eq_true_eq,
      Bool.false_eq_true, if_false, Nat.add_zero] at hset
    simp only [account_eq, Event.publishes, Event.releases, List.countP_cons]
    simp only [Bool.false_eq_true, if_false, Nat.add_zero, decide_eq_true_eq]
    omega

/-! ## Every run -/

theorem accounted_init : Accounted State.init where
  keys := List.nodup_nil
  total := fun c => by simp [account_eq, State.init]
  absent := by simp [State.init]

theorem Event.of_isArrival {e : Event} (h : e.isArrival = true) (c : ChunkId) :
    e.publishes c = false ∧ e.releases c = false := by
  cases e with
  | delivered datagram => exact ⟨rfl, rfl⟩
  | noChannel messageHash => exact ⟨rfl, rfl⟩
  | _ => cases h

/-- The first section of a handler only looks at the channels. -/
theorem accounted_begins {s' : State} (hs : Accounted s) (h : Begins s s') : Accounted s' := by
  obtain ⟨hfree, events, next, rfl, hfirst, hev⟩ := h
  have howned : next.bind Handler.owned = none ∧ next.bind Handler.absent = none := by
    cases next with
    | none => exact ⟨rfl, rfl⟩
    | some h =>
      have := hfirst h rfl
      cases h <;> first | exact ⟨rfl, rfl⟩ | cases this
  refine accounted_of_eq hs rfl (by simp [hfree, howned.1]) (fun _ => rfl) rfl (fun c => ?_)
    (fun c => ?_) (by simp [howned.2])
  · have h : events.countP (Event.publishes c) = 0 := by
      rw [List.countP_eq_zero]
      intro e he
      simp [(Event.of_isArrival (hev e he) c).1]
    simp [h]
  · have h : events.countP (Event.releases c) = 0 := by
      rw [List.countP_eq_zero]
      intro e he
      simp [(Event.of_isArrival (hev e he) c).2]
    simp [h]

theorem accounted_step {s' : State} {l : Label} (hs : Accounted s)
    (h : step getClassHash s l = some s') : Accounted s' := by
  rcases step_cases h with hb | ⟨now, -, rfl⟩ |
    ⟨hd, now, answer, -, hh, rfl⟩ | ⟨i, w, -, hw, hsweep⟩
  · exact accounted_begins hs hb
  · exact accounted_of_eq hs rfl rfl (fun c => by simp [Sweep.holds]) rfl (fun _ => rfl)
      (fun _ => rfl) hs.absent
  · exact accounted_proceed hs hh now answer
  · exact accounted_sweep hs hw hsweep

/-- **Every reachable state accounts for every chunk.** -/
theorem accounted_of_reachable (h : Reachable getClassHash s) : Accounted s := by
  obtain ⟨ls, hls⟩ := h
  exact Run.invariant _ (fun _ _ _ hs hstep => accounted_step hs hstep) accounted_init hls

/-! ## Owners finish -/

/-- The number of sections a handler has before it, at most. -/
def Handler.remaining : Handler → Nat
  | .receiveFind _ => 5
  | .receiveLoan _ => 4
  | .receivePush _ _ => 3
  | .receiveTake _ _ _ _ => 2
  | .receivePublish _ _ => 1
  | .loanFind _ => 4
  | .loanLoan _ => 3
  | .loanPush _ _ => 2
  | .loanReturn _ _ _ => 1
  | .releaseRelease _ => 1
  | .releaseDecrement _ => 2
  | .releasePublish _ _ => 1
  | .updateChannels toDelete toSetup => toDelete.length + toSetup.length + 1

/-- A section of the holder brings it nearer to its end, leaves the sweeps alone and forgets no
chunk. -/
theorem proceed_remaining (getClassHash : ServiceDescription → ClassHash) (s : State) (now : Time)
    (answer : Option (Nat → Byte)) (h : Handler) :
    (s.proceed getClassHash now answer h).sweeps = s.sweeps ∧
      s.chunks.length ≤ (s.proceed getClassHash now answer h).chunks.length ∧
      ∀ h', (s.proceed getClassHash now answer h).holder = some h' → h'.remaining < h.remaining := by
  cases h with
  | receiveFind x =>
    simp only [State.proceed]
    split <;> simp [Handler.remaining]
  | receiveLoan x =>
    cases answer with
    | none => simp [State.proceed]
    | some fill =>
      simp only [State.proceed]
      split <;> simp [Handler.remaining]
  | receivePush x c => simp [State.proceed, Handler.remaining]
  | receiveTake x userHeader c shouldPublish =>
    cases shouldPublish <;> simp [State.proceed, Handler.remaining]
  | receivePublish x c => simp [State.proceed]
  | loanFind x =>
    simp only [State.proceed]
    split <;> simp [Handler.remaining]
  | loanLoan x => cases answer <;> simp [State.proceed, Handler.remaining]
  | loanPush x c => simp [State.proceed, Handler.remaining]
  | loanReturn x userHeader c =>
    simp only [State.proceed]
    split
    · cases userHeader <;> simp
    · simp
  | releaseRelease x =>
    simp only [State.proceed]
    split <;> simp
  | releaseDecrement x =>
    simp only [State.proceed]
    split
    · simp
    · split <;> simp [Handler.remaining]
  | releasePublish x c => simp [State.proceed]
  | updateChannels toDelete toSetup =>
    cases toDelete with
    | cons service toDelete =>
      simp [State.proceed, Handler.remaining]
    | nil =>
      cases toSetup with
      | cons service toSetup => simp [State.proceed, Handler.remaining, State.setupChannel]
      | nil => simp [State.proceed]

/-- Left alone, the holder of the endpoints mutex returns. -/
theorem holder_returns (getClassHash : ServiceDescription → ClassHash) :
    ∀ (n : Nat) (s : State), (∀ h, s.holder = some h → h.remaining ≤ n) →
    ∃ ls s', Run.exec (step getClassHash) s ls = some s' ∧ s'.holder = none ∧
      s'.sweeps = s.sweeps ∧ s.chunks.length ≤ s'.chunks.length ∧
      ∀ l ∈ ls, l = .proceed 0 none := by
  intro n
  induction n with
  | zero =>
    intro s hn
    cases hh : s.holder with
    | none => exact ⟨[], s, rfl, hh, rfl, Nat.le_refl _, by simp⟩
    | some h =>
      have : 0 < h.remaining := by cases h <;> simp [Handler.remaining]
      exact absurd (hn h hh) (by omega)
  | succ n ih =>
    intro s hn
    cases hh : s.holder with
    | none => exact ⟨[], s, rfl, hh, rfl, Nat.le_refl _, by simp⟩
    | some h =>
      have hp := proceed_remaining getClassHash s 0 none h
      obtain ⟨ls, s', hls, hfree, hsw, hlen, hall⟩ := ih (s.proceed getClassHash 0 none h) (by
        intro h' hh'
        have h1 := hp.2.2 h' hh'
        have h2 := hn h hh
        omega)
      refine ⟨.proceed 0 none :: ls, s', ?_, hfree, hsw.trans hp.1, hp.2.1.trans hlen, ?_⟩
      · exact Run.exec_cons.mpr ⟨_, by simp [step, hh], hls⟩
      · intro l hl
        rcases List.mem_cons.mp hl with rfl | hl
        · rfl
        · exact hall l hl

/-- **Received chunks are accounted for.**  In every reachable state the keys of the table are
distinct, every loaned chunk is in exactly one place, exactly once, and a handler that owns a
chunk gets rid of it: the handlers under way can run on until the chunk is in the table, published
or released. -/
theorem chunks_accounted_for (getClassHash : ServiceDescription → ClassHash)
    (hr : Reachable getClassHash s) :
    s.segmented.keys.Nodup ∧ ∀ c < s.chunks.length,
      tableCount s c + ownerCount s c + publishCount s c + releaseCount s c = 1 ∧
      (0 < ownerCount s c → ∃ ls s', Run.exec (step getClassHash) s ls = some s' ∧
        (∀ l ∈ ls, (∃ now answer, l = .proceed now answer) ∨ ∃ i, l = .sweep i) ∧
        ownerCount s' c = 0 ∧ tableCount s' c + publishCount s' c + releaseCount s' c = 1) := by
  have hs := accounted_of_reachable hr
  refine ⟨hs.keys, fun c hc => ⟨?_, fun hown => ?_⟩⟩
  · have := hs.total c
    rwa [if_pos hc] at this
  · obtain ⟨ls, s₁, hls, hfree, hsw, hlen, hall⟩ := holder_returns getClassHash
      (s.holder.elim 0 Handler.remaining) s (by intro h hh; simp [hh])
    have hs₁ : Accounted s₁ :=
      Run.invariant _ (fun _ _ _ hs hstep => accounted_step hs hstep) hs hls
    have hlabels : ∀ l ∈ ls, (∃ now answer, l = .proceed now answer) ∨ ∃ i, l = .sweep i :=
      fun l hl => Or.inl ⟨0, none, hall l hl⟩
    have htot : account s₁ c = 1 := by
      rw [hs₁.total c, if_pos (Nat.lt_of_lt_of_le hc hlen)]
    -- with the holder gone, only a sweep can still own the chunk
    have howner : ownerCount s₁ c = s₁.sweeps.countP (Sweep.holds c) := by
      simp [ownerCount, hfree]
    rcases Nat.eq_zero_or_pos (s₁.sweeps.countP (Sweep.holds c)) with hzero | hpos
    · refine ⟨ls, s₁, hls, hlabels, by omega, ?_⟩
      unfold account at htot
      omega
    · obtain ⟨w, hwmem, hw⟩ := List.countP_pos_iff.mp hpos
      obtain ⟨i, hi⟩ := List.getElem?_of_mem hwmem
      obtain ⟨msg, hmsg, hpay⟩ : ∃ msg, w.msgToRelease = some msg ∧ msg.userPayload = c := by
        unfold Sweep.holds at hw
        cases hm : w.msgToRelease with
        | none => simp [hm] at hw
        | some msg => exact ⟨msg, rfl, by simpa [hm] using hw⟩
      have hstep : step getClassHash s₁ (.sweep i) = some { s₁ with
          sweeps := s₁.sweeps.set i ⟨w.now, none⟩
          log := .released msg.userPayload msg.publisher :: s₁.log } := by
        simp [step, hi, State.proceedSweep, hmsg, hfree]
      have hs₂ := accounted_step hs₁ hstep
      have htot₂ := hs₂.total c
      rw [if_pos (Nat.lt_of_lt_of_le hc hlen)] at htot₂
      have hrel : 0 < releaseCount { s₁ with
          sweeps := s₁.sweeps.set i ⟨w.now, none⟩
          log := .released msg.userPayload msg.publisher :: s₁.log } c := by
        simp [releaseCount, Event.releases, hpay]
      unfold account at htot₂
      refine ⟨ls ++ [.sweep i], _, Run.exec_trans hls (Run.exec_cons.mpr ⟨_, hstep, rfl⟩), ?_,
        by omega, by omega⟩
      intro l hl
      rcases List.mem_append.mp hl with hl | hl
      · exact hlabels l hl
      · exact Or.inr ⟨i, List.mem_singleton.mp hl⟩

/-! ## A run -/

/-- The header of a message of two submessages of one byte each. -/
def demoHeader (messageHash : Hash) (offset : UInt32) : IoxChunkDatagramHeader where
  serviceHash := ⟨1, 2, 3, 4⟩
  messageHash := messageHash
  submessageCount := 2
  submessageOffset := offset
  submessageSize := 1
  userPayloadSize := 2
  userPayloadAlignment := 8
  userHeaderSize := 0

/-- `updateChannels` with the one service, on a gateway without channels. -/
def demoSetup : List Label :=
  [.updateChannels demoServices, .proceed 0 none, .proceed 0 none]

/-- The first submessage of the message arrives and a chunk is loaned for it. -/
def demoFirst (messageHash : Hash) : List Label :=
  [.receive (serialize (demoHeader messageHash 0) ++ [7]) ⟨.udp, 0⟩, .proceed 0 none,
    .proceed 0 (some fun _ => 0), .proceed 0 none, .proceed 0 none]

/-- After its first submessage the chunk of the message is in the table, and nowhere else. -/
theorem chunks_accounted_for_first :
    ∃ s, Run.exec (step demoClassHash) State.init (demoSetup ++ demoFirst 9) = some s ∧
      s.chunks.length = 1 ∧ tableCount s 0 = 1 ∧
      tableCount s 0 + ownerCount s 0 + publishCount s 0 + releaseCount s 0 = 1 := by
  refine ⟨_, rfl, by decide, by decide, ?_⟩
  exact ((chunks_accounted_for demoClassHash ⟨demoSetup ++ demoFirst 9, rfl⟩).2 0
    (by decide)).1

end P3com.TransportToIox
