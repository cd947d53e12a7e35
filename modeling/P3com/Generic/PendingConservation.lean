/-
# The pending table gives every chunk back once

`push` and `release` of `source/p3com/generic/pending_messages.cpp`, over the two vectors of the
table and with iterators as in the source.  `release` counts the message down in place, copies it,
erases it, and then calls `release` of the subscriber in the copy.

The callers are free: they may push a payload that is pending already, release one that is not, and
push into a full table.  Every successful push and every call of `subscriber->release` is recorded.
For each payload these alternate, a call following the push whose subscriber it goes to, and a last
push that has no call yet is the one entry of the table (`pending_chunks_conserved`).
-/
import P3com.Generic.PendingMessages
import P3com.Utility.TwoVectors
import P3com.Lib.Run

namespace P3com.PendingConservation

/-- `m_pendingMessages`, as its two vectors. -/
abbrev PendingVectors := TwoVectors UserPayload PendingMessage maxPendingMessageCount

/-- `push`, with its result. -/
def push (m : PendingVectors) (userPayload : UserPayload) (subscriber : Nat) :
    Bool × PendingVectors :=
  let msgIt := m.find userPayload
  if msgIt = m.endIt then m.emplace userPayload ⟨1, subscriber⟩ else (false, m)

/-- `release`, with the subscriber whose `release` it calls.  An iterator that does not point to an
element is an error. -/
def release (m : PendingVectors) (userPayload : UserPayload) :
    Option (PendingVectors × Option Nat) :=
  let msgIt := m.find userPayload
  if msgIt = m.endIt then some (m, none)
  else
    (m.deref msgIt).map fun pendingMsg =>
      let pendingMsg := { pendingMsg with counter := pendingMsg.counter - 1 }
      let m := m.set msgIt pendingMsg
      if pendingMsg.counter = 0 then (m.erase msgIt, some pendingMsg.subscriber) else (m, none)

/-- A successful push, or a call of `subscriber->release`. -/
inductive Event
  | pushed (userPayload : UserPayload) (subscriber : Nat)
  | released (userPayload : UserPayload) (subscriber : Nat)
deriving DecidableEq

namespace Event

def userPayload : Event → UserPayload
  | pushed userPayload _ => userPayload
  | released userPayload _ => userPayload

def isPush : Event → Bool
  | pushed _ _ => true
  | released _ _ => false

end Event

/-- The table, and the events in their order. -/
structure State where
  table : PendingVectors
  log : List Event
deriving DecidableEq

def State.init : State := ⟨.empty, []⟩

inductive Call
  | push (userPayload : UserPayload) (subscriber : Nat)
  | release (userPayload : UserPayload)
deriving DecidableEq

def step (s : State) : Call → Option State
  | .push userPayload subscriber =>
    let (pushed, table) := push s.table userPayload subscriber
    some ⟨table, if pushed then s.log ++ [.pushed userPayload subscriber] else s.log⟩
  | .release userPayload =>
    (release s.table userPayload).map fun (table, subscriber) =>
      ⟨table, s.log ++ (subscriber.map (Event.released userPayload)).toList⟩

/-! ## What is asked -/

namespace State

/-- The events of a payload. -/
def eventsOf (s : State) (p : UserPayload) : List Event := s.log.filter fun e => e.userPayload = p

/-- The number of successful pushes of a payload. -/
def pushes (s : State) (p : UserPayload) : Nat := (s.eventsOf p).countP Event.isPush

/-- The number of calls of `subscriber->release` for a payload. -/
def releases (s : State) (p : UserPayload) : Nat := (s.eventsOf p).countP fun e => !e.isPush

/-- The entries for a payload. -/
def present (s : State) (p : UserPayload) : List (UserPayload × PendingMessage) :=
  s.table.entries.filter fun e => e.1 = p

end State

/-- A push, and the call that belongs to it. -/
def pair (p : UserPayload) (subscriber : Nat) : List Event :=
  [.pushed p subscriber, .released p subscriber]

/-- Everything that the table promises. -/
structure Conserves (s : State) : Prop where
  nodup : s.table.keys.toList.Nodup
  counter : ∀ msg ∈ s.table.elems.toList, msg.counter = 1
  /-- Each call goes to the subscriber of the push before it, and what has been pushed since is
  in the table. -/
  matched : ∀ p, ∃ subscribers : List Nat, s.eventsOf p
    = subscribers.flatMap (pair p) ++ (s.present p).map fun e => .pushed p e.2.subscriber
  count : ∀ p, s.releases p = s.pushes p - (s.present p).length
  present_le : ∀ p, (s.present p).length ≤ s.pushes p
  push_fails : ∀ p subscriber, (push s.table p subscriber).1 = false ↔
    p ∈ s.table.keys.toList ∨ s.table.size = maxPendingMessageCount
  push_unchanged : ∀ p subscriber, (push s.table p subscriber).1 = false →
    step s (.push p subscriber) = some s
  release_unchanged : ∀ p, p ∉ s.table.keys.toList → step s (.release p) = some s

/-! ## The calls on a table of single transfers -/

variable {m m' : PendingMessageManager} {p : UserPayload} {q : Nat}

theorem find_eq_endIt : m.pendingMessages.raw.find p = m.pendingMessages.raw.endIt ↔
    p ∉ m.pendingMessages.keys :=
  VectorMap.find_raw_eq_endIt

/-- `push` does what `PendingMessageManager.push` does. -/
theorem push_raw_of_some (h : m.push p q = some m') :
    push m.pendingMessages.raw p q = (true, m'.pendingMessages.raw) := by
  have hk := PendingMessageManager.not_mem_keys_of_push h
  unfold PendingMessageManager.push at h
  rw [dif_neg hk] at h
  unfold push
  rw [if_pos (find_eq_endIt.mpr hk)]
  split at h
  · cases h
  · rename_i hm
    obtain rfl := Option.some.inj h
    exact VectorMap.raw_emplace_of_some hm

theorem push_raw_of_none (h : m.push p q = none) :
    push m.pendingMessages.raw p q = (false, m.pendingMessages.raw) := by
  unfold PendingMessageManager.push at h
  unfold push
  by_cases hk : p ∈ m.pendingMessages.keys
  · rw [if_neg fun hfind => find_eq_endIt.mp hfind hk]
  · rw [dif_neg hk] at h
    rw [if_pos (find_eq_endIt.mpr hk)]
    split at h
    · rename_i hm
      exact VectorMap.raw_emplace_of_none hm
    · cases h

/-- `release` on a payload that is not pending. -/
theorem release_raw_of_not_mem (h : p ∉ m.pendingMessages.keys) :
    release m.pendingMessages.raw p = some (m.pendingMessages.raw, none) := by
  unfold release
  rw [if_pos (find_eq_endIt.mpr h)]

/-- `release` on a payload that is pending: the counter is one, so the message goes. -/
theorem release_raw_of_mem (hs : m.Single) (h : p ∈ m.pendingMessages.keys) :
    ∃ i msg, m.pendingMessages.entries[i]? = some (p, msg) ∧
      release m.pendingMessages.raw p
        = some ((m.pendingMessages.erase i).raw, some msg.subscriber) := by
  obtain ⟨i, hi⟩ : ∃ i, m.pendingMessages.raw.find p = i := ⟨_, rfl⟩
  have hkey : m.pendingMessages.keys[i]? = some p := hi ▸ VectorMap.getElem?_find_raw h
  have hlt : i < m.pendingMessages.elems.length :=
    m.pendingMessages.size_eq ▸ (List.getElem?_eq_some_iff.mp hkey).1
  obtain ⟨msg, hmsg⟩ : ∃ msg, m.pendingMessages.elems[i]? = some msg :=
    ⟨_, List.getElem?_eq_getElem hlt⟩
  have hentry := VectorMap.getElem?_entries.mpr ⟨hkey, hmsg⟩
  have hcount : msg.counter = 1 := hs p msg (List.mem_of_getElem? hentry)
  have hderef : m.pendingMessages.raw.deref i = some msg := hmsg
  refine ⟨i, msg, hentry, ?_⟩
  unfold release
  rw [if_neg fun hfind => find_eq_endIt.mp hfind h, hi, hderef, Option.map_some, hcount]
  simp only [UInt32.sub_self, if_true]
  rw [VectorMap.raw_set, VectorMap.raw_erase, VectorMap.erase_set]

variable {s : State}

/-- A push that fails changes nothing. -/
theorem step_push_of_none (htable : s.table = m.pendingMessages.raw) (h : m.push p q = none) :
    step s (.push p q) = some s := by
  simp only [step, htable, push_raw_of_none h]
  rw [← htable]
  rfl

/-- A release that finds nothing changes nothing. -/
theorem step_release_of_not_mem (htable : s.table = m.pendingMessages.raw)
    (h : p ∉ m.pendingMessages.keys) : step s (.release p) = some s := by
  simp only [step, htable, release_raw_of_not_mem h, Option.map_some, Option.map_none,
    Option.toList_none, List.append_nil]
  rw [← htable]

/-! ## Runs -/

/-- The table is that of a `PendingMessageManager` with single transfers, and the events of each
payload are pairs and what is in the table. -/
def Inv (s : State) : Prop :=
  ∃ m : PendingMessageManager, s.table = m.pendingMessages.raw ∧ m.Single ∧
    ∀ p, ∃ subscribers : List Nat, s.eventsOf p = subscribers.flatMap (pair p) ++
      (m.pendingMessages.entries.filter fun e => e.1 = p).map fun e => .pushed p e.2.subscriber

theorem inv_init : Inv State.init :=
  ⟨.empty, rfl, by simp [PendingMessageManager.Single, PendingMessageManager.empty], fun p =>
    ⟨[], by simp [State.eventsOf, State.init, PendingMessageManager.empty]⟩⟩

theorem inv_push (hs : Inv s) (p : UserPayload) (q : Nat) :
    ∃ s', step s (.push p q) = some s' ∧ Inv s' := by
  obtain ⟨m, htable, hsingle, hmatched⟩ := hs
  cases hpush : m.push p q with
  | none => exact ⟨s, step_push_of_none htable hpush, m, htable, hsingle, hmatched⟩
  | some m' =>
    refine ⟨⟨m'.pendingMessages.raw, s.log ++ [.pushed p q]⟩, ?_, m', rfl, hsingle.push hpush,
      fun r => ?_⟩
    · simp only [step, htable, push_raw_of_some hpush, if_true]
    · obtain ⟨subscribers, hevents⟩ := hmatched r
      refine ⟨subscribers, ?_⟩
      unfold State.eventsOf at hevents ⊢
      rw [List.filter_append, hevents, PendingMessageManager.push_eq_some hpush,
        List.filter_append, List.map_append, List.append_assoc]
      by_cases hr : p = r
      · simp [Event.userPayload, hr]
      · simp [Event.userPayload, hr]

theorem inv_release (hs : Inv s) (p : UserPayload) :
    ∃ s', step s (.release p) = some s' ∧ Inv s' := by
  obtain ⟨m, htable, hsingle, hmatched⟩ := hs
  by_cases hk : p ∈ m.pendingMessages.keys
  · obtain ⟨i, msg, hi, hrelease⟩ := release_raw_of_mem hsingle hk
    refine ⟨⟨(m.pendingMessages.erase i).raw, s.log ++ [.released p msg.subscriber]⟩, ?_,
      ⟨m.pendingMessages.erase i, VectorMap.nodup_keys_erase m.nodup i⟩, rfl, ?_, fun r => ?_⟩
    · simp only [step, htable, hrelease, Option.map_some, Option.toList_some]
    · exact fun k msg' hmem => hsingle k msg' (VectorMap.mem_entries_of_mem_erase hmem)
    · obtain ⟨subscribers, hevents⟩ := hmatched r
      unfold State.eventsOf at hevents ⊢
      rw [List.filter_append, hevents]
      by_cases hr : p = r
      · -- the call completes the last pair
        subst hr
        have hnone := VectorMap.filter_key_eq_nil (VectorMap.not_mem_keys_erase m.nodup hi)
        refine ⟨subscribers ++ [msg.subscriber], ?_⟩
        rw [VectorMap.filter_key m.nodup hi, hnone]
        simp [Event.userPayload, pair]
      · refine ⟨subscribers, ?_⟩
        rw [VectorMap.entries_erase, List.filter_eraseIdx hi (by simpa using hr)]
        simp [Event.userPayload, hr]
  · exact ⟨s, step_release_of_not_mem htable hk, m, htable, hsingle, hmatched⟩

/-- Of a pair, one event is a push and one is a call. -/
theorem countP_flatMap_pair (p : UserPayload) (subscribers : List Nat) :
    (subscribers.flatMap (pair p)).countP Event.isPush = subscribers.length ∧
      (subscribers.flatMap (pair p)).countP (fun e => !e.isPush) = subscribers.length := by
  induction subscribers with
  | nil => exact ⟨rfl, rfl⟩
  | cons q subscribers ih =>
    obtain ⟨hpushes, hreleases⟩ := ih
    have hpush : (pair p q).countP Event.isPush = 1 := rfl
    have hrelease : (pair p q).countP (fun e => !e.isPush) = 1 := rfl
    rw [List.flatMap_cons, List.countP_append, List.countP_append, hpushes, hreleases, hpush,
      hrelease, List.length_cons, Nat.add_comm]
    exact ⟨rfl, rfl⟩

/-- The calls and the entries of a payload are as many as its pushes. -/
theorem releases_add_present {subscribers : List Nat} (h : s.eventsOf p
      = subscribers.flatMap (pair p) ++ (s.present p).map fun e => .pushed p e.2.subscriber) :
    s.releases p + (s.present p).length = s.pushes p := by
  obtain ⟨hpushes, hreleases⟩ := countP_flatMap_pair p subscribers
  unfold State.releases State.pushes
  rw [h, List.countP_append, List.countP_append, hpushes, hreleases]
  simp [List.countP_map, Function.comp_def, Event.isPush]

theorem push_raw_eq_false (p : UserPayload) (q : Nat) :
    (push m.pendingMessages.raw p q).1 = false ↔ m.push p q = none := by
  cases h : m.push p q with
  | none => simp [push_raw_of_none h]
  | some m' => simp [push_raw_of_some h]

theorem Inv.conserves (hs : Inv s) : Conserves s := by
  obtain ⟨m, htable, hsingle, hevents⟩ := hs
  have hmatched : ∀ p, ∃ subscribers : List Nat, s.eventsOf p
      = subscribers.flatMap (pair p) ++ (s.present p).map fun e => .pushed p e.2.subscriber := by
    intro p
    unfold State.present
    rw [htable]
    exact hevents p
  have hcount : ∀ p, s.releases p + (s.present p).length = s.pushes p := by
    intro p
    obtain ⟨subscribers, h⟩ := hmatched p
    exact releases_add_present h
  exact {
    nodup := by
      rw [htable]
      exact m.nodup
    counter := fun msg hmsg => by
      rw [htable] at hmsg
      have helems : msg ∈ m.pendingMessages.elems := hmsg
      rw [VectorMap.elems_eq] at helems
      obtain ⟨⟨k, msg⟩, hmem, rfl⟩ := List.mem_map.mp helems
      exact hsingle k msg hmem
    matched := hmatched
    count := fun p => Nat.eq_sub_of_add_eq (hcount p)
    present_le := fun p => hcount p ▸ Nat.le_add_left _ _
    push_fails := fun p q => by
      rw [htable, push_raw_eq_false]
      exact PendingMessageManager.push_eq_none
    push_unchanged := fun p q h => by
      rw [htable, push_raw_eq_false] at h
      exact step_push_of_none htable h
    release_unchanged := fun p hk => by
      rw [htable] at hk
      exact step_release_of_not_mem htable hk }

/-- **The pending table conserves chunks**, whatever is called: every sequence of calls leads to a
table in which each payload is once at most, with a counter of one, and the calls of
`subscriber->release` are the successful pushes less what is in the table. -/
theorem pending_chunks_conserved (ls : List Call) :
    ∃ s, Run.exec step State.init ls = some s ∧ Conserves s := by
  have hstep : ∀ s c, Inv s → ∃ s', step s c = some s' ∧ Inv s' := by
    intro s c hs
    cases c with
    | push p q => exact inv_push hs p q
    | release p => exact inv_release hs p
  obtain ⟨s, hrun, hs⟩ := Run.total Inv hstep inv_init ls
  exact ⟨s, hrun, hs.conserves⟩

end P3com.PendingConservation
