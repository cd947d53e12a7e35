/-
# Code that is still to run

A thread is given by what it has still to do, a list of operations.  An operation may put others in
front of the rest, and other threads run in between.  Two properties of such a list outlast this:

* `Ready`: what an operation needs is true already, or an operation before it makes it true.  It
  speaks of facts that stay true once they are.
* `Confined`: operations of a kind are left in the critical section that the thread is in, and
  nowhere else.
-/
import Mathlib.Data.List.Basic

namespace Plan

variable {α φ : Type*}

section Ready

variable (needs gives : α → φ → Prop)

/-- With the facts in `holds`, every operation of the list has what it needs when it is its turn. -/
def Ready (holds : φ → Prop) : List α → Prop
  | [] => True
  | a :: as => (∀ f, needs a f → holds f) ∧ Ready (fun f => holds f ∨ gives a f) as

variable {needs gives} {holds holds' : φ → Prop} {as bs : List α}

/-- More facts do no harm. -/
theorem Ready.mono (h : Ready needs gives holds as) (hh : ∀ f, holds f → holds' f) :
    Ready needs gives holds' as := by
  induction as generalizing holds holds' with
  | nil => trivial
  | cons a as ih =>
    refine ⟨fun f hf => hh f (h.1 f hf), ih h.2 fun f hf => ?_⟩
    exact hf.imp_left (hh f)

theorem Ready.append (h : Ready needs gives holds as)
    (h' : Ready needs gives (fun f => holds f ∨ ∃ a ∈ as, gives a f) bs) :
    Ready needs gives holds (as ++ bs) := by
  induction as generalizing holds with
  | nil => exact h'.mono fun f hf => hf.resolve_right fun ⟨_, hmem, _⟩ => by cases hmem
  | cons a as ih =>
    refine ⟨h.1, ih h.2 (h'.mono fun f hf => ?_)⟩
    rcases hf with hf | ⟨b, hb, hf⟩
    · exact Or.inl (Or.inl hf)
    · rcases List.mem_cons.mp hb with rfl | hb
      · exact Or.inl (Or.inr hf)
      · exact Or.inr ⟨b, hb, hf⟩

/-- Operations that need nothing, or what is true. -/
theorem ready_of_forall (h : ∀ a ∈ as, ∀ f, needs a f → holds f) :
    Ready needs gives holds as := by
  induction as generalizing holds with
  | nil => trivial
  | cons a as ih =>
    refine ⟨h a List.mem_cons_self, ih fun b hb f hf => ?_⟩
    exact Or.inl (h b (List.mem_cons_of_mem a hb) f hf)

/-- Operations that have what they need may be put in front. -/
theorem Ready.push (h : Ready needs gives holds bs) (has : ∀ a ∈ as, ∀ f, needs a f → holds f) :
    Ready needs gives holds (as ++ bs) :=
  (ready_of_forall has).append (h.mono fun _ => Or.inl)

end Ready

section Confined

variable (depth : α → Nat → Nat) (p : α → Bool)

/-- The operations with `p` are left in the critical section that the list begins in: there are
none of them when the lock is held zero times.  `depth` is how often it is held after an
operation. -/
def Confined : List α → Nat → Prop
  | [], _ => True
  | a :: as, 0 => ∀ b ∈ a :: as, p b = false
  | a :: as, k + 1 => Confined as (depth a (k + 1))

variable {depth p} {as bs : List α} {k : Nat}

theorem confined_zero : Confined depth p as 0 ↔ ∀ a ∈ as, p a = false := by
  cases as with
  | nil => simp [Confined]
  | cons a as => rfl

theorem confined_of_forall (h : ∀ a ∈ as, p a = false) (k : Nat) : Confined depth p as k := by
  induction as generalizing k with
  | nil => trivial
  | cons a as ih =>
    cases k with
    | zero => exact h
    | succ k => exact ih (fun b hb => h b (List.mem_cons_of_mem a hb)) _

/-- What is put in front neither locks nor unlocks. -/
theorem Confined.push (h : Confined depth p bs (k + 1))
    (has : ∀ a ∈ as, depth a (k + 1) = k + 1) : Confined depth p (as ++ bs) (k + 1) := by
  induction as with
  | nil => exact h
  | cons a as ih =>
    change Confined depth p (as ++ bs) (depth a (k + 1))
    rw [has a List.mem_cons_self]
    exact ih fun b hb => has b (List.mem_cons_of_mem a hb)

end Confined

end Plan
