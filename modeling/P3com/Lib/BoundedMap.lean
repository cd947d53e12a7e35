/-
# The bounded finite map

What a map of bounded capacity is for, with nothing said about how it is kept.  The state is a
finite map, and the machine accepts an operation together with the answer that the client got for
it: an event is possible only if the answer is the right one.  A container is such a map if
everything its clients see is a run of this machine.

A run says by itself what the map holds (`lookup_exec`): a key has the value that was last emplaced
under it, unless the key has been dropped since.
-/
import P3com.Lib.Run
import Mathlib.Data.Finmap

namespace BoundedMap

variable {K T : Type*}

/-- An operation and its answer. -/
inductive Event (K T : Type*)
  | emplace (key : K) (t : T) (accepted : Bool)
  | find (key : K) (found : Option T)
  | erase (key : K)
  | clear

/-- The event takes the key out of the map. -/
def Event.Drops (k : K) : Event K T → Prop
  | .erase key => key = k
  | .clear => True
  | .emplace _ _ _ => False
  | .find _ _ => False

/-- The value was emplaced under the key, and the key has not been dropped since. -/
def Holds (es : List (Event K T)) (k : K) (t : T) : Prop :=
  ∃ before after, es = before ++ .emplace k t true :: after ∧ ∀ e ∈ after, ¬ e.Drops k

theorem not_holds_nil {k : K} {t : T} : ¬ Holds [] k t := by
  rintro ⟨before, after, h, -⟩
  simp at h

/-- What one more event does to what is held. -/
theorem holds_concat {es : List (Event K T)} {e : Event K T} {k : K} {t : T} :
    Holds (es ++ [e]) k t ↔ e = .emplace k t true ∨ (Holds es k t ∧ ¬ e.Drops k) := by
  constructor
  · rintro ⟨before, after, heq, hafter⟩
    rcases List.eq_nil_or_concat after with rfl | ⟨after, e', rfl⟩
    · obtain ⟨-, h⟩ := List.append_inj' heq rfl
      exact Or.inl (List.singleton_inj.mp h)
    · rw [List.concat_eq_append, ← List.cons_append, ← List.append_assoc] at heq
      obtain ⟨h, h'⟩ := List.append_inj' heq rfl
      obtain rfl := List.singleton_inj.mp h'
      exact Or.inr ⟨⟨before, after, h, fun d hd => hafter d (by simp [hd])⟩, hafter e (by simp)⟩
  · rintro (rfl | ⟨⟨before, after, rfl, hafter⟩, he⟩)
    · exact ⟨es, [], rfl, by simp⟩
    · refine ⟨before, after ++ [e], by simp, fun d hd => ?_⟩
      rcases List.mem_append.mp hd with hd | hd
      · exact hafter d hd
      · obtain rfl := List.mem_singleton.mp hd
        exact he

section Machine

variable [DecidableEq K]

open Classical in
/-- A fresh key is accepted if and only if there is room.  Only a key of the map is erased. -/
noncomputable def step (cap : Nat) (f : Finmap fun _ : K => T) :
    Event K T → Option (Finmap fun _ : K => T)
  | .emplace key t true =>
    if key ∉ f ∧ f.keys.card < cap then some (f.insert key t) else none
  | .emplace key _ false => if key ∉ f ∧ f.keys.card = cap then some f else none
  | .find key found => if f.lookup key = found then some f else none
  | .erase key => if key ∈ f then some (f.erase key) else none
  | .clear => some ∅

variable {cap : Nat} {f f' : Finmap fun _ : K => T}

/-- What one event does to the map. -/
theorem lookup_step {e : Event K T} (h : step cap f e = some f') (k : K) (t : T) :
    f'.lookup k = some t ↔ e = .emplace k t true ∨ (f.lookup k = some t ∧ ¬ e.Drops k) := by
  cases e with
  | emplace key u accepted =>
    cases accepted with
    | true =>
      obtain ⟨⟨hkey, -⟩, ⟨⟩⟩ := Option.ite_none_right_eq_some.mp h
      by_cases hk : k = key
      · subst hk
        simp [Finmap.lookup_insert, Finmap.lookup_eq_none.mpr hkey]
      · rw [Finmap.lookup_insert_of_ne f hk]
        simp [Event.Drops, Ne.symm hk]
    | false =>
      obtain ⟨-, ⟨⟩⟩ := Option.ite_none_right_eq_some.mp h
      simp [Event.Drops]
  | find key found =>
    obtain ⟨-, ⟨⟩⟩ := Option.ite_none_right_eq_some.mp h
    simp [Event.Drops]
  | erase key =>
    obtain ⟨-, ⟨⟩⟩ := Option.ite_none_right_eq_some.mp h
    by_cases hk : k = key
    · subst hk
      simp [Finmap.lookup_erase, Event.Drops]
    · rw [Finmap.lookup_erase_ne hk]
      simp [Event.Drops, Ne.symm hk]
  | clear =>
    obtain rfl := Option.some.inj h
    simp [Finmap.lookup_empty, Event.Drops]

/-- **The map of a run.**  It holds what was last emplaced and not dropped since. -/
theorem lookup_exec {es : List (Event K T)} (h : Run.exec (step cap) ∅ es = some f) (k : K)
    (t : T) : f.lookup k = some t ↔ Holds es k t := by
  have hnil : ∀ k t, (∅ : Finmap fun _ : K => T).lookup k = some t ↔ Holds [] k t := by
    intro k t
    simp [Finmap.lookup_empty, not_holds_nil]
  have hrun := Run.invariant_labels
    (fun (f : Finmap fun _ : K => T) es => ∀ k t, f.lookup k = some t ↔ Holds es k t)
    (fun e => [e]) (fun f e f' es hf _ hstep k t => ?_) hnil
    (Run.guarded_of_forall (p := fun _ => True) (fun _ _ => trivial) ∅) h
  · simpa using hrun k t
  · rw [lookup_step hstep k t, hf k t, holds_concat]

end Machine

end BoundedMap
