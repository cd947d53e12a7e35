/-
# Counting in a list when one position changes

The counts that an accounting argument needs: how `List.countP` changes when the element at an
index is erased or replaced.
-/
import Mathlib.Data.List.Perm.Basic
import Mathlib.Data.List.Count

namespace List

variable {α : Type*} {l : List α} {i : Nat} {a : α}

/-- The element at an index, and the others. -/
theorem perm_cons_eraseIdx (h : l[i]? = some a) : l.Perm (a :: l.eraseIdx i) := by
  obtain ⟨hlt, rfl⟩ := getElem?_eq_some_iff.mp h
  exact (getElem_cons_eraseIdx_perm hlt).symm

theorem mem_eraseIdx_of_ne {b : α} (h : l[i]? = some a) (hb : b ∈ l) (hne : b ≠ a) :
    b ∈ l.eraseIdx i := by
  rcases mem_cons.mp ((perm_cons_eraseIdx h).mem_iff.mp hb) with rfl | hb
  · exact absurd rfl hne
  · exact hb

/-- The elements after one position has been overwritten. -/
theorem mem_set_iff {b c : α} (h : l[i]? = some a) :
    c ∈ l.set i b ↔ c = b ∨ c ∈ l.eraseIdx i := by
  obtain ⟨hlt, -⟩ := getElem?_eq_some_iff.mp h
  have hset : (l.set i b)[i]? = some b := by simp [hlt]
  rw [(perm_cons_eraseIdx hset).mem_iff, mem_cons, eraseIdx_set_eq]

theorem countP_eraseIdx (h : l[i]? = some a) (p : α → Bool) :
    l.countP p = (l.eraseIdx i).countP p + if p a then 1 else 0 := by
  rw [(perm_cons_eraseIdx h).countP_eq, countP_cons]

/-- What the filter drops may be erased first. -/
theorem filter_eraseIdx {p : α → Bool} (h : l[i]? = some a) (hp : ¬ p a) :
    (l.eraseIdx i).filter p = l.filter p := by
  obtain ⟨hlt, rfl⟩ := getElem?_eq_some_iff.mp h
  rw [eraseIdx_eq_take_drop_succ, filter_append]
  conv_rhs => rw [← take_append_drop i l, drop_eq_getElem_cons hlt, filter_append,
    filter_cons_of_neg hp]

theorem countP_set_add (h : l[i]? = some a) (b : α) (p : α → Bool) :
    (l.set i b).countP p + (if p a then 1 else 0) = l.countP p + if p b then 1 else 0 := by
  obtain ⟨hlt, rfl⟩ := getElem?_eq_some_iff.mp h
  have hset : (l.set i b)[i]? = some b := by simp [hlt]
  rw [countP_eraseIdx hset, countP_eraseIdx h, eraseIdx_set_eq]
  omega

/-- A property that at most one position has determines the element. -/
theorem eq_of_countP_le_one {p : α → Bool} (h : l.countP p ≤ 1) {b : α} (ha : a ∈ l) (hb : b ∈ l)
    (hpa : p a = true) (hpb : p b = true) : a = b := by
  have hone : (l.filter p).length ≤ 1 := by rwa [← countP_eq_length_filter]
  have ha' : a ∈ l.filter p := mem_filter.mpr ⟨ha, hpa⟩
  have hb' : b ∈ l.filter p := mem_filter.mpr ⟨hb, hpb⟩
  match hl : l.filter p, hone with
  | [], _ => simp [hl] at ha'
  | [c], _ =>
    rw [hl] at ha' hb'
    rw [mem_singleton.mp ha', mem_singleton.mp hb']

end List
