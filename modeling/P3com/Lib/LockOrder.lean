/-
# Threads, locks and deadlocks

Threads run programs over locks.  A program locks and unlocks, waits until nobody else holds a lock
(`await`: a flag that is polled is a lock that is waited for in this way), and waits for another
thread to end (`join`).  Locks may be recursive.

`Ok` is the discipline: a thread locks or waits for a lock only above all that it holds, in a given
order of the locks, unless it locks a recursive lock again; it joins only with empty hands, and only
threads of a lower level; and it gives back what it has taken.  Programs that keep to it never get
stuck, whatever the schedule (`progress`), and they can always run to their end (`completes`).

`Keeps` is the same for a piece of a program, with rules for the ways in which pieces are put
together.
-/
import P3com.Lib.Run
import Mathlib.Algebra.BigOperators.Group.Finset.Basic
import Mathlib.Algebra.Order.BigOperators.Group.Finset
import Mathlib.Data.Fintype.Basic
import Mathlib.Logic.Function.Basic

namespace LockOrder

variable {τ L : Type*}

/-- An operation of a thread. -/
inductive Op (τ L : Type*)
  | lock (m : L)
  | unlock (m : L)
  /-- Wait until nobody else holds the lock. -/
  | await (m : L)
  /-- Wait until the thread has ended. -/
  | join (t : τ)

/-- The locks that a thread holds, those held repeatedly as often as they are held, and what it has
still to do. -/
structure Thread (τ L : Type*) where
  held : List L
  todo : List (Op τ L)

abbrev State (τ L : Type*) := τ → Thread τ L

def State.init (program : τ → List (Op τ L)) : State τ L := fun t => ⟨[], program t⟩

/-- The order of the locks and of the threads. -/
structure Order (τ L : Type*) where
  rank : L → Nat
  bound : Nat
  rank_lt : ∀ m, rank m < bound
  recursive : L → Bool
  level : τ → Nat

/-! ## Steps -/

/-- Nobody else holds the lock. -/
def Free (s : State τ L) (t : τ) (m : L) : Prop := ∀ u, u ≠ t → m ∉ (s u).held

instance [Fintype τ] [DecidableEq τ] [DecidableEq L] (s : State τ L) (t : τ) (m : L) :
    Decidable (Free s t m) :=
  inferInstanceAs (Decidable (∀ u, u ≠ t → m ∉ (s u).held))

/-- The operation does not block.  A lock that is not recursive blocks the thread that holds it. -/
def Enabled (o : Order τ L) (s : State τ L) (t : τ) : Op τ L → Prop
  | .lock m => Free s t m ∧ (m ∈ (s t).held → o.recursive m = true)
  | .unlock m => m ∈ (s t).held
  | .await m => Free s t m
  | .join u => (s u).todo.isEmpty = true

instance [Fintype τ] [DecidableEq τ] [DecidableEq L] (o : Order τ L) (s : State τ L) (t : τ) :
    (op : Op τ L) → Decidable (Enabled o s t op)
  | .lock _ => inferInstanceAs (Decidable (_ ∧ (_ → _)))
  | .unlock m => inferInstanceAs (Decidable (m ∈ _))
  | .await m => inferInstanceAs (Decidable (Free s t m))
  | .join u => inferInstanceAs (Decidable ((s u).todo.isEmpty = true))

variable [DecidableEq L]

/-- The locks that a thread holds after an operation. -/
def Op.after (held : List L) : Op τ L → List L
  | .lock m => m :: held
  | .unlock m => held.erase m
  | _ => held

/-- The next operation of a thread. -/
def step [Fintype τ] [DecidableEq τ] (o : Order τ L) (s : State τ L) (t : τ) :
    Option (State τ L) :=
  match (s t).todo with
  | [] => none
  | op :: rest =>
    if Enabled o s t op then some (Function.update s t ⟨op.after (s t).held, rest⟩) else none

/-! ## The discipline -/

/-- The lock is above all of these. -/
def Order.Above (o : Order τ L) (m : L) (held : List L) : Prop := ∀ k ∈ held, o.rank k < o.rank m

/-- The thread may do the operation with these locks. -/
def Allowed (o : Order τ L) (t : τ) (held : List L) : Op τ L → Prop
  | .lock m => o.Above m held ∨ (o.recursive m = true ∧ m ∈ held)
  | .unlock m => m ∈ held
  | .await m => o.Above m held
  | .join u => held = [] ∧ o.level u < o.level t

/-- The program keeps to the discipline, from the locks held at its beginning to none at its end. -/
def Ok (o : Order τ L) (t : τ) : List L → List (Op τ L) → Prop
  | held, [] => held = []
  | held, op :: rest => Allowed o t held op ∧ Ok o t (op.after held) rest

/-- The piece of a program keeps to the discipline, and has given back what it has taken. -/
def Keeps (o : Order τ L) (t : τ) (held : List L) (ops : List (Op τ L)) : Prop :=
  ∀ rest, Ok o t held rest → Ok o t held (ops ++ rest)

section Rules

variable {o : Order τ L} {t : τ} {held : List L} {ops ops' : List (Op τ L)} {m : L}

theorem Keeps.nil : Keeps o t held [] := fun _ h => h

theorem Keeps.append (h : Keeps o t held ops) (h' : Keeps o t held ops') :
    Keeps o t held (ops ++ ops') := by
  intro rest hrest
  rw [List.append_assoc]
  exact h _ (h' _ hrest)

theorem Keeps.flatMap {α : Type*} {l : List α} {f : α → List (Op τ L)}
    (h : ∀ a ∈ l, Keeps o t held (f a)) : Keeps o t held (l.flatMap f) := by
  induction l with
  | nil => exact Keeps.nil
  | cons a l ih =>
    rw [List.flatMap_cons]
    exact (h a List.mem_cons_self).append (ih fun b hb => h b (List.mem_cons_of_mem _ hb))

theorem Keeps.ite {c : Prop} [Decidable c] (h : Keeps o t held ops) (h' : Keeps o t held ops') :
    Keeps o t held (if c then ops else ops') := by
  split
  · exact h
  · exact h'

/-- An operation after which the thread holds what it held before. -/
theorem Keeps.single {op : Op τ L} (h : Allowed o t held op) (hafter : op.after held = held) :
    Keeps o t held [op] := by
  intro rest hrest
  exact ⟨h, hafter.symm ▸ hrest⟩

theorem Keeps.await (h : o.Above m held) : Keeps o t held [.await m] := Keeps.single h rfl

theorem Keeps.join {u : τ} (hheld : held = []) (h : o.level u < o.level t) :
    Keeps o t held [.join u] := Keeps.single ⟨hheld, h⟩ rfl

/-- A piece of a program under a lock. -/
def locked (m : L) (ops : List (Op τ L)) : List (Op τ L) := .lock m :: (ops ++ [.unlock m])

theorem Keeps.locked (h : o.Above m held ∨ (o.recursive m = true ∧ m ∈ held))
    (hops : Keeps o t (m :: held) ops) : Keeps o t held (locked m ops) := by
  intro rest hrest
  refine ⟨h, ?_⟩
  change Ok o t (m :: held) ((ops ++ [.unlock m]) ++ rest)
  rw [List.append_assoc]
  refine hops _ ⟨List.mem_cons_self, ?_⟩
  change Ok o t ((m :: held).erase m) rest
  rw [List.erase_cons_head]
  exact hrest

theorem Keeps.ok (h : Keeps o t [] ops) : Ok o t [] ops := by
  have := h [] rfl
  rwa [List.append_nil] at this

/-- A thread that holds a lock has not ended. -/
theorem Ok.todo_ne_nil (h : Ok o t held ops) (hm : m ∈ held) : ops ≠ [] := by
  rintro rfl
  rw [show held = [] from h] at hm
  cases hm

end Rules

/-! ## The invariant -/

section Invariant

variable {o : Order τ L} {s : State τ L} {t u : τ} {m : L}

/-- What every step keeps: the discipline, and nobody holds what another thread holds. -/
structure Inv (o : Order τ L) (s : State τ L) : Prop where
  ok : ∀ t, Ok o t (s t).held (s t).todo
  exclusive : ∀ t u m, m ∈ (s t).held → m ∈ (s u).held → t = u

theorem inv_init {program : τ → List (Op τ L)} (h : ∀ t, Ok o t [] (program t)) :
    Inv o (State.init program) where
  ok := h
  exclusive := by
    intro t u m hm
    cases hm

/-- A lock that is held after an operation was held before, or has just been taken, and then nobody
else holds it. -/
theorem mem_after {op : Op τ L} (hen : Enabled o s t op) (hm : m ∈ op.after (s t).held) :
    m ∈ (s t).held ∨ Free s t m := by
  cases op with
  | lock k =>
    rcases List.mem_cons.mp hm with rfl | hm
    · exact Or.inr hen.1
    · exact Or.inl hm
  | unlock k => exact Or.inl (List.mem_of_mem_erase hm)
  | await k => exact Or.inl hm
  | join u => exact Or.inl hm

end Invariant

/-! ## Every schedule -/

section Schedule

variable [Fintype τ] [DecidableEq τ] {o : Order τ L} {s s' : State τ L} {t u : τ} {m : L}

theorem step_eq_some (h : step o s t = some s') : ∃ op rest, (s t).todo = op :: rest ∧
    Enabled o s t op ∧ s' = Function.update s t ⟨op.after (s t).held, rest⟩ := by
  unfold step at h
  split at h
  · cases h
  · rename_i op rest htodo
    split at h
    · rename_i hen
      exact ⟨op, rest, htodo, hen, (Option.some.inj h).symm⟩
    · cases h

/-- **One step.** -/
theorem inv_step (h : Inv o s) (hstep : step o s t = some s') : Inv o s' := by
  obtain ⟨op, rest, htodo, hen, rfl⟩ := step_eq_some hstep
  have hok := h.ok t
  rw [htodo] at hok
  constructor
  case ok =>
    intro u
    by_cases hu : u = t
    · subst hu
      rw [Function.update_self]
      exact hok.2
    · rw [Function.update_of_ne hu]
      exact h.ok u
  case exclusive =>
    intro u v m hm hm'
    by_cases hu : u = t
    · by_cases hv : v = t
      · rw [hu, hv]
      · subst hu
        rw [Function.update_self] at hm
        rw [Function.update_of_ne hv] at hm'
        rcases mem_after hen hm with hold | hfree
        · exact h.exclusive u v m hold hm'
        · exact absurd hm' (hfree v hv)
    · rw [Function.update_of_ne hu] at hm
      by_cases hv : v = t
      · subst hv
        rw [Function.update_self] at hm'
        rcases mem_after hen hm' with hold | hfree
        · exact h.exclusive u v m hm hold
        · exact absurd hm (hfree u hu)
      · rw [Function.update_of_ne hv] at hm'
        exact h.exclusive u v m hm hm'

/-- The thread waits for the lock, and another one has it. -/
def Waits (s : State τ L) (t : τ) (m : L) : Prop :=
  (∃ op rest, (s t).todo = op :: rest ∧ (op = .lock m ∨ op = .await m)) ∧
    ∃ u, u ≠ t ∧ m ∈ (s u).held

/-- Why a thread cannot go on. -/
theorem waits_of_stuck (h : Inv o s) (htodo : (s t).todo ≠ []) (hstuck : step o s t = none) :
    (∃ m, Waits s t m) ∨
      ∃ u, (s u).todo ≠ [] ∧ (s t).held = [] ∧ o.level u < o.level t := by
  obtain ⟨op, rest, hop⟩ := List.exists_cons_of_ne_nil htodo
  have hnot : ¬ Enabled o s t op := by
    intro hen
    unfold step at hstuck
    rw [hop] at hstuck
    simp only [if_pos hen] at hstuck
    cases hstuck
  have hok := h.ok t
  rw [hop] at hok
  obtain ⟨hallowed, -⟩ := hok
  have hheld : ∀ k, ¬ Free s t k → ∃ u, u ≠ t ∧ k ∈ (s u).held := by
    intro k hk
    by_contra hno
    exact hk fun u hu hmem => hno ⟨u, hu, hmem⟩
  cases op with
  | lock m =>
    refine Or.inl ⟨m, ⟨_, rest, hop, Or.inl rfl⟩, hheld m fun hfree => hnot ⟨hfree, fun hm => ?_⟩⟩
    rcases hallowed with habove | ⟨hrec, -⟩
    · exact absurd (habove m hm) (Nat.lt_irrefl _)
    · exact hrec
  | unlock m => exact absurd hallowed hnot
  | await m => exact Or.inl ⟨m, ⟨_, rest, hop, Or.inr rfl⟩, hheld m hnot⟩
  | join u =>
    refine Or.inr ⟨u, fun hnil => hnot ?_, hallowed.1, hallowed.2⟩
    change (s u).todo.isEmpty = true
    rw [hnil]
    rfl

/-- Who has the lock that a stuck thread waits for waits for a higher one. -/
theorem waits_higher (h : Inv o s) (hstuck : ∀ t, step o s t = none) (hw : Waits s t m) :
    ∃ u k, Waits s u k ∧ o.rank m < o.rank k := by
  obtain ⟨-, u, -, hm⟩ := hw
  have hok := h.ok u
  have htodo := hok.todo_ne_nil hm
  rcases waits_of_stuck h htodo (hstuck u) with ⟨k, hk⟩ | ⟨v, -, hnil, -⟩
  · refine ⟨u, k, hk, ?_⟩
    obtain ⟨⟨op, rest, hop, hk'⟩, v, hv, hkv⟩ := hk
    rw [hop] at hok
    rcases hk' with rfl | rfl
    · rcases hok.1 with habove | ⟨-, hmem⟩
      · exact habove m hm
      · exact absurd (h.exclusive u v k hmem hkv).symm hv
    · exact hok.1 m hm
  · rw [hnil] at hm
    cases hm

/-- In a state in which everybody is stuck nobody waits for a lock. -/
theorem not_waits (h : Inv o s) (hstuck : ∀ t, step o s t = none) : ¬ Waits s t m := by
  -- from lock to lock the rank grows, and it is bounded
  induction hd : o.bound - o.rank m using Nat.strong_induction_on generalizing t m with
  | _ d ih =>
    intro hw
    obtain ⟨u, k, hk, hlt⟩ := waits_higher h hstuck hw
    have hm := o.rank_lt m
    have hb := o.rank_lt k
    exact ih (o.bound - o.rank k) (by omega) rfl hk

/-- **No deadlock.**  As long as a thread has not ended, some thread can go on. -/
theorem progress (h : Inv o s) (ht : (s t).todo ≠ []) : ∃ u s', step o s u = some s' := by
  by_contra hno
  have hstuck : ∀ u, step o s u = none := by
    intro u
    cases hu : step o s u with
    | none => rfl
    | some s' => exact absurd ⟨u, s', hu⟩ hno
  -- a thread of the lowest level does not wait for another one to end
  induction hd : o.level t using Nat.strong_induction_on generalizing t with
  | _ d ih =>
    rcases waits_of_stuck h ht (hstuck t) with ⟨m, hm⟩ | ⟨u, hu, -, hlt⟩
    · exact not_waits h hstuck hm
    · exact ih (o.level u) (hd ▸ hlt) hu rfl

/-- How many operations the threads have still to do. -/
def remaining (s : State τ L) : Nat := ∑ t, (s t).todo.length

theorem remaining_step (hstep : step o s t = some s') : remaining s' < remaining s := by
  obtain ⟨op, rest, htodo, -, rfl⟩ := step_eq_some hstep
  refine Finset.sum_lt_sum (fun u _ => ?_) ⟨t, Finset.mem_univ t, ?_⟩
  · by_cases hu : u = t
    · subst hu
      rw [Function.update_self, htodo]
      exact Nat.le_succ _
    · rw [Function.update_of_ne hu]
  · rw [Function.update_self, htodo]
    exact Nat.lt_succ_self _

/-- **The threads can always run to their end.** -/
theorem completes (h : Inv o s) :
    ∃ ls s', Run.exec (step o) s ls = some s' ∧ ∀ t, (s' t).todo = [] := by
  induction hd : remaining s using Nat.strong_induction_on generalizing s with
  | _ d ih =>
    by_cases hall : ∀ t, (s t).todo = []
    · exact ⟨[], s, rfl, hall⟩
    · obtain ⟨t, ht⟩ := not_forall.mp hall
      obtain ⟨u, s₁, hstep⟩ := progress h ht
      obtain ⟨ls, s', hrun, hdone⟩ := ih (remaining s₁) (hd ▸ remaining_step hstep)
        (inv_step h hstep) rfl
      exact ⟨u :: ls, s', Run.exec_cons.mpr ⟨s₁, hstep, hrun⟩, hdone⟩

end Schedule

end LockOrder
