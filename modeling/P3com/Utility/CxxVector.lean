/-
# `iox::cxx::vector`, and the container helpers over it

The vectors of the gateway are `iox::cxx::vector<T, Capacity>`: a list whose length never
exceeds the capacity.  `push_back` and `emplace_back` report a full vector by their result, and
every caller modelled here ignores that result or tests it for an error message only, so
`pushBack` returns the vector unchanged.

The second half is `include/p3com/utility/helper_functions.hpp`: `deleteElement`,
`deleteElements`, `containsElement` and `pushUnique`.
-/
import Mathlib.Data.List.Nodup
import Mathlib.Data.List.Perm.Basic
import Mathlib.Data.Finset.Card
import Mathlib.Tactic.Tauto

namespace P3com

/-- `iox::cxx::vector<T, Capacity>`. -/
structure CxxVector (α : Type) (cap : Nat) where
  toList : List α
  size_le : toList.length ≤ cap
deriving DecidableEq

namespace CxxVector

variable {α : Type} {cap : Nat}

def empty : CxxVector α cap := ⟨[], Nat.zero_le _⟩

instance : Inhabited (CxxVector α cap) := ⟨empty⟩

def size (v : CxxVector α cap) : Nat := v.toList.length

/-- `push_back`: the element is dropped when the vector is full. -/
def pushBack (v : CxxVector α cap) (x : α) : CxxVector α cap :=
  if h : v.toList.length < cap then ⟨v.toList ++ [x], by rw [List.length_append]; exact h⟩ else v

/-- `erase` of the element at index `i`. -/
def erase (v : CxxVector α cap) (i : Nat) : CxxVector α cap :=
  ⟨v.toList.eraseIdx i, Nat.le_trans (List.length_eraseIdx_le _ _) v.size_le⟩

/-- Assignment through the reference to the element at index `i`. -/
def set (v : CxxVector α cap) (i : Nat) (x : α) : CxxVector α cap :=
  ⟨v.toList.set i x, by simpa using v.size_le⟩

/-- One `push_back` after another. -/
def pushAll (v : CxxVector α cap) (xs : List α) : CxxVector α cap := xs.foldl pushBack v

@[simp] theorem toList_empty : (empty : CxxVector α cap).toList = [] := rfl

@[ext] theorem ext {v w : CxxVector α cap} (h : v.toList = w.toList) : v = w := by
  cases v
  cases w
  simpa using h

theorem toList_pushBack {v : CxxVector α cap} (h : v.size < cap) (x : α) :
    (v.pushBack x).toList = v.toList ++ [x] := by
  unfold pushBack
  rw [dif_pos (show v.toList.length < cap from h)]

theorem pushBack_full {v : CxxVector α cap} (h : v.size = cap) (x : α) : v.pushBack x = v := by
  unfold pushBack
  rw [dif_neg (by unfold size at h; omega)]

/-- Pushing a list that fits appends it whole. -/
theorem toList_pushAll {xs : List α} {v : CxxVector α cap} (h : v.size + xs.length ≤ cap) :
    (v.pushAll xs).toList = v.toList ++ xs := by
  induction xs generalizing v with
  | nil => simp [pushAll]
  | cons x xs ih =>
    simp only [List.length_cons] at h
    have hx : (v.pushBack x).toList = v.toList ++ [x] := toList_pushBack (by omega) x
    have hs : (v.pushBack x).size = v.size + 1 := by simp [size, hx]
    have := ih (v := v.pushBack x) (by omega)
    simp only [pushAll, List.foldl_cons] at this ⊢
    rw [this, hx, List.append_assoc, List.singleton_append]

/-- What does not fit is dropped. -/
theorem toList_pushAll_take (v : CxxVector α cap) (xs : List α) :
    (v.pushAll xs).toList = (v.toList ++ xs).take cap := by
  induction xs generalizing v with
  | nil =>
    rw [List.append_nil, List.take_of_length_le v.size_le]
    rfl
  | cons x xs ih =>
    have hcons : v.pushAll (x :: xs) = (v.pushBack x).pushAll xs := rfl
    rw [hcons, ih]
    rcases Nat.lt_or_ge v.size cap with h | h
    · rw [toList_pushBack h, List.append_assoc, List.singleton_append]
    · have hfull : v.size = cap := Nat.le_antisymm v.size_le h
      rw [pushBack_full hfull, List.take_append_of_le_length h, List.take_append_of_le_length h]

theorem mem_of_mem_pushBack {v : CxxVector α cap} {x y : α} (h : y ∈ (v.pushBack x).toList) :
    y ∈ v.toList ∨ y = x := by
  unfold pushBack at h
  split at h
  · simpa using h
  · exact Or.inl h

/-- Pushing a list adds nothing else, whether it fits or not. -/
theorem mem_of_mem_pushAll {xs : List α} {v : CxxVector α cap} {y : α}
    (h : y ∈ (v.pushAll xs).toList) : y ∈ v.toList ∨ y ∈ xs := by
  induction xs generalizing v with
  | nil => exact Or.inl h
  | cons x xs ih =>
    rcases ih h with h | h
    · rcases mem_of_mem_pushBack h with h | rfl
      · exact Or.inl h
      · exact Or.inr List.mem_cons_self
    · exact Or.inr (List.mem_cons_of_mem _ h)

section Helpers

variable [DecidableEq α]

/-- `containsElement`. -/
def containsElement (v : CxxVector α cap) (x : α) : Bool := x ∈ v.toList

/-- `deleteElement`: erase the first occurrence. -/
def deleteElement (v : CxxVector α cap) (x : α) : CxxVector α cap :=
  match v.toList.idxOf? x with
  | some i => v.erase i
  | none => v

/-- `deleteElements`: delete the elements of `b` from `a`, one occurrence for each. -/
def deleteElements (a b : CxxVector α cap) : CxxVector α cap := b.toList.foldl deleteElement a

/-- The body of the loop of `pushUnique`. -/
def pushNew (a : CxxVector α cap) (x : α) : CxxVector α cap :=
  if a.containsElement x then a else a.pushBack x

/-- `pushUnique`: append to `a` the elements of `b` that are not yet in it. -/
def pushUnique (a b : CxxVector α cap) : CxxVector α cap := b.toList.foldl pushNew a

theorem toList_deleteElement (v : CxxVector α cap) (x : α) :
    (v.deleteElement x).toList = v.toList.erase x := by
  unfold deleteElement
  rw [List.erase_eq_eraseIdx]
  cases v.toList.idxOf? x <;> rfl

theorem toList_deleteElements (a b : CxxVector α cap) :
    (a.deleteElements b).toList = a.toList.diff b.toList := by
  unfold deleteElements
  generalize b.toList = xs
  induction xs generalizing a with
  | nil => simp
  | cons x xs ih => rw [List.foldl_cons, ih, toList_deleteElement, List.diff_cons]

theorem nodup_pushNew {a : CxxVector α cap} (h : a.toList.Nodup) (x : α) :
    (a.pushNew x).toList.Nodup := by
  unfold pushNew containsElement
  split
  · exact h
  · rename_i hx
    unfold pushBack
    split
    · exact h.append (List.nodup_singleton x) (by simpa using hx)
    · exact h

theorem nodup_foldl_pushNew {a : CxxVector α cap} (h : a.toList.Nodup) (xs : List α) :
    (xs.foldl pushNew a).toList.Nodup := by
  induction xs generalizing a with
  | nil => exact h
  | cons x xs ih => exact ih (nodup_pushNew h x)

/-- Nothing is ever taken out again. -/
theorem mem_foldl_pushNew_of_mem {a : CxxVector α cap} {y : α} (h : y ∈ a.toList)
    (xs : List α) : y ∈ (xs.foldl pushNew a).toList := by
  induction xs generalizing a with
  | nil => exact h
  | cons x xs ih =>
    refine ih ?_
    unfold pushNew
    split
    · exact h
    · unfold pushBack
      split
      · exact List.mem_append_left _ h
      · exact h

/-- Pushing a new element into a vector of distinct elements that has room for it. -/
theorem mem_pushNew {a : CxxVector α cap} (h : a.toList.Nodup) {x : α}
    (hfit : (a.toList ++ [x]).toFinset.card ≤ cap) (y : α) :
    y ∈ (a.pushNew x).toList ↔ y ∈ a.toList ∨ y = x := by
  unfold pushNew containsElement
  split
  · rename_i hx
    have hx : x ∈ a.toList := by simpa using hx
    constructor
    · exact Or.inl
    · rintro (hy | rfl)
      · exact hy
      · exact hx
  · rename_i hx
    have hx : x ∉ a.toList := by simpa using hx
    have hn : (a.toList ++ [x]).Nodup :=
      h.append (List.nodup_singleton x) (by simpa using hx)
    rw [List.toFinset_card_of_nodup hn, List.length_append, List.length_singleton] at hfit
    rw [toList_pushBack (by unfold size; omega)]
    simp

/-- **What repeated `pushUnique` collects.**  As long as the distinct elements fit, nothing is
dropped: the vector has exactly the elements of the list, each once. -/
theorem foldl_pushNew {xs : List α} {a : CxxVector α cap} (h : a.toList.Nodup)
    (hfit : (a.toList ++ xs).toFinset.card ≤ cap) :
    (xs.foldl pushNew a).toList.Nodup ∧
      ∀ y, y ∈ (xs.foldl pushNew a).toList ↔ y ∈ a.toList ∨ y ∈ xs := by
  induction xs generalizing a with
  | nil => exact ⟨h, by simp⟩
  | cons x xs ih =>
    have hx : (a.toList ++ [x]).toFinset.card ≤ cap := by
      refine Nat.le_trans (Finset.card_le_card fun y hy => ?_) hfit
      simp only [List.mem_toFinset, List.mem_append, List.mem_cons] at hy ⊢
      tauto
    have hmem := mem_pushNew h hx
    have hsame : ((a.pushNew x).toList ++ xs).toFinset = (a.toList ++ x :: xs).toFinset := by
      ext y
      simp only [List.mem_toFinset, List.mem_append, List.mem_cons, hmem y]
      tauto
    obtain ⟨hn, hy⟩ := ih (nodup_pushNew h x) (by rw [hsame]; exact hfit)
    refine ⟨hn, fun y => ?_⟩
    rw [List.foldl_cons, hy, hmem, List.mem_cons, or_assoc]

/-- The same from the empty vector. -/
theorem mem_foldl_pushNew_empty {xs : List α} (hfit : xs.toFinset.card ≤ cap) (y : α) :
    y ∈ (xs.foldl pushNew (empty : CxxVector α cap)).toList ↔ y ∈ xs := by
  have hnil : (empty : CxxVector α cap).toList.Nodup := List.nodup_nil
  rw [(foldl_pushNew hnil hfit).2, toList_empty]
  simp

end Helpers

end CxxVector

end P3com
