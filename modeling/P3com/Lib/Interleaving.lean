/-
# Interleavings

A list is an interleaving of several sequences, one for each thread, when its elements can be
attributed to the threads such that every thread gets its own sequence, in order.  What the order
in a sequence says about the order in an interleaving is stated with `Precedes`.
-/
import Mathlib.Logic.Function.Basic
import Mathlib.Data.List.Basic
import Mathlib.Data.List.Nodup

variable {τ α : Type*} [DecidableEq τ]

/-- The list is an interleaving of the sequences. -/
def Interleaves (seqs : τ → List α) (l : List α) : Prop :=
  ∃ tagged : List (τ × α), tagged.map Prod.snd = l ∧
    ∀ t, (tagged.filter fun x => x.1 = t).map Prod.snd = seqs t

namespace Interleaves

variable {seqs : τ → List α} {l : List α}

theorem nil : Interleaves (fun _ : τ => ([] : List α)) [] := ⟨[], rfl, fun _ => rfl⟩

/-- One thread goes on. -/
theorem concat (h : Interleaves seqs l) (t : τ) (a : α) :
    Interleaves (Function.update seqs t (seqs t ++ [a])) (l ++ [a]) := by
  obtain ⟨tagged, rfl, hseqs⟩ := h
  refine ⟨tagged ++ [(t, a)], by simp, fun t' => ?_⟩
  rw [List.filter_append, List.map_append, hseqs]
  by_cases ht : t' = t
  · subst ht
    simp
  · simp [Function.update_of_ne ht, Ne.symm ht]

/-- Every element is from one of the sequences. -/
theorem mem (h : Interleaves seqs l) {a : α} (ha : a ∈ l) : ∃ t, a ∈ seqs t := by
  obtain ⟨tagged, rfl, hseqs⟩ := h
  obtain ⟨⟨t, b⟩, hmem, rfl⟩ := List.mem_map.mp ha
  refine ⟨t, ?_⟩
  rw [← hseqs t]
  exact List.mem_map_of_mem (List.mem_filter.mpr ⟨hmem, by simp⟩)

/-- Every sequence is there, in its order. -/
theorem sublist (h : Interleaves seqs l) (t : τ) : (seqs t).Sublist l := by
  obtain ⟨tagged, rfl, hseqs⟩ := h
  rw [← hseqs t]
  exact List.filter_sublist.map _

/-- The beginning of an interleaving is an interleaving of the beginnings. -/
theorem of_beginning {l' : List α} (h : Interleaves seqs l) (hl : l' <+: l) :
    ∃ seqs' : τ → List α, (∀ t, seqs' t <+: seqs t) ∧ Interleaves seqs' l' := by
  obtain ⟨tagged, rfl, hseqs⟩ := h
  obtain ⟨front, hfront, rfl⟩ := List.prefix_map_iff.mp hl
  refine ⟨fun t => (front.filter fun x => x.1 = t).map Prod.snd, fun t => ?_, front, rfl,
    fun _ => rfl⟩
  rw [← hseqs t]
  exact (hfront.filter _).map _

/-- Sequences without a repetition and without a common element. -/
theorem nodup [DecidableEq α] (h : Interleaves seqs l) (hn : ∀ t, (seqs t).Nodup)
    (hdisjoint : ∀ t t' a, a ∈ seqs t → a ∈ seqs t' → t = t') : l.Nodup := by
  obtain ⟨tagged, rfl, hseqs⟩ := h
  have hmem : ∀ x ∈ tagged, x.2 ∈ seqs x.1 := by
    intro x hx
    rw [← hseqs x.1]
    exact List.mem_map_of_mem (List.mem_filter.mpr ⟨hx, by simp⟩)
  have htagged : tagged.Nodup := by
    refine List.nodup_iff_count_le_one.mpr fun x => ?_
    calc tagged.count x
        = (tagged.filter fun y => y.1 = x.1).count x := (List.count_filter (by simp)).symm
      _ ≤ ((tagged.filter fun y => y.1 = x.1).map Prod.snd).count x.2 := List.count_le_count_map
      _ = (seqs x.1).count x.2 := by rw [hseqs]
      _ ≤ 1 := List.nodup_iff_count_le_one.mp (hn x.1) x.2
  refine htagged.map_on fun x hx y hy heq => Prod.ext ?_ heq
  exact hdisjoint x.1 y.1 x.2 (hmem x hx) (heq ▸ hmem y hy)

end Interleaves

/-! ## The order of two elements -/

section Precedes

variable {l l' : List α} {a b : α}

/-- An occurrence of `a` comes before one of `b`. -/
def Precedes (l : List α) (a b : α) : Prop := [a, b].Sublist l

theorem precedes_cons {x : α} (hb : b ∈ l) : Precedes (x :: l) x b :=
  (List.singleton_sublist.mpr hb).cons_cons x

theorem Precedes.mono (h : Precedes l a b) (hl : l.Sublist l') : Precedes l' a b :=
  List.Sublist.trans h hl

/-- Where an element stands first, every other one comes after it. -/
theorem Precedes.of_cons {x : α} (h : Precedes (x :: l) a b) :
    (a = x ∧ b ∈ l) ∨ Precedes l a b := by
  rcases List.sublist_cons_iff.mp h with h | ⟨r, hr, hsub⟩
  · exact Or.inr h
  · obtain ⟨rfl, rfl⟩ := List.cons.inj hr
    exact Or.inl ⟨rfl, List.singleton_sublist.mp hsub⟩

theorem Precedes.mem (h : Precedes l a b) : a ∈ l ∧ b ∈ l :=
  ⟨h.subset (by simp), h.subset (by simp)⟩

/-- Without repetitions the order is one. -/
theorem Precedes.asymm (hn : l.Nodup) (h : Precedes l a b) : ¬ Precedes l b a := by
  induction l with
  | nil => exact absurd h.mem.1 List.not_mem_nil
  | cons x l ih =>
    obtain ⟨hx, hn⟩ := List.nodup_cons.mp hn
    intro h'
    rcases h.of_cons with ⟨rfl, hb⟩ | hl
    · rcases h'.of_cons with ⟨rfl, ha⟩ | hl'
      · exact hx ha
      · exact hx hl'.mem.2
    · rcases h'.of_cons with ⟨rfl, ha⟩ | hl'
      · exact hx hl.mem.2
      · exact ih hn hl hl'

theorem precedes_or_precedes (ha : a ∈ l) (hb : b ∈ l) (hne : a ≠ b) :
    Precedes l a b ∨ Precedes l b a := by
  induction l with
  | nil => exact absurd ha List.not_mem_nil
  | cons x l ih =>
    rcases List.mem_cons.mp ha with rfl | ha'
    · rcases List.mem_cons.mp hb with rfl | hb'
      · exact absurd rfl hne
      · exact Or.inl (precedes_cons hb')
    · rcases List.mem_cons.mp hb with rfl | hb'
      · exact Or.inr (precedes_cons ha')
      · exact (ih ha' hb').imp (fun h => h.mono (List.sublist_cons_self _ _))
          fun h => h.mono (List.sublist_cons_self _ _)

/-- The order in a part of the list is that in the whole. -/
theorem Precedes.of_sublist (hn : l.Nodup) (h : Precedes l a b) (hl : l'.Sublist l)
    (ha : a ∈ l') (hb : b ∈ l') : Precedes l' a b := by
  have hne : a ≠ b := by
    rintro rfl
    exact h.asymm hn h
  refine (precedes_or_precedes ha hb hne).resolve_right fun h' => ?_
  exact h.asymm hn (h'.mono hl)

/-- Blocks that stand in order have their elements in order. -/
theorem Precedes.flatMap {β : Type*} {f : α → List β} {x y : β} (h : Precedes l a b)
    (hx : x ∈ f a) (hy : y ∈ f b) : Precedes (l.flatMap f) x y := by
  induction l with
  | nil => exact absurd h.mem.1 List.not_mem_nil
  | cons c l ih =>
    rw [List.flatMap_cons]
    rcases h.of_cons with ⟨rfl, hb⟩ | h
    · exact (List.singleton_sublist.mpr hx).append
        (List.singleton_sublist.mpr (List.mem_flatMap.mpr ⟨b, hb, hy⟩))
    · exact (ih h).mono (List.sublist_append_right _ _)

/-- A list whose elements are elements of the other one, in its order. -/
theorem sublist_of_precedes (hn : l.Nodup) (hmem : ∀ a ∈ l', a ∈ l)
    (hord : l'.Pairwise (Precedes l)) : l'.Sublist l := by
  induction l' generalizing l with
  | nil => exact List.nil_sublist _
  | cons a l' ih =>
    obtain ⟨hfirst, hrest⟩ := List.pairwise_cons.mp hord
    obtain ⟨front, back, rfl⟩ := List.append_of_mem (hmem a List.mem_cons_self)
    -- what comes after `a` is in the part after `a`
    have hback : ∀ {b}, Precedes (front ++ a :: back) a b → b ∈ back := by
      intro b hb
      have hn' := List.nodup_middle.mp hn
      have hnot := (List.nodup_cons.mp hn').1
      rw [List.mem_append, not_or] at hnot
      clear hn hn' hmem hord hfirst hrest ih
      induction front with
      | nil => exact hb.of_cons.elim And.right fun h => absurd h.mem.1 hnot.2
      | cons x front ihf =>
        rw [List.mem_cons, not_or] at hnot
        rcases hb.of_cons with ⟨heq, -⟩ | hb
        · exact absurd heq hnot.1.1
        · exact ihf hb ⟨hnot.1.2, hnot.2⟩
    have hsub : (a :: back).Sublist (front ++ a :: back) := List.sublist_append_right _ _
    refine List.Sublist.trans (List.Sublist.cons_cons a ?_) hsub
    refine ih ((List.nodup_cons.mp (hn.sublist hsub)).2) (fun b hb => hback (hfirst b hb)) ?_
    refine hrest.imp_of_mem fun {b c} hb hc hbc => ?_
    exact hbc.of_sublist hn ((List.sublist_cons_self _ _).trans hsub) (hback (hfirst b hb))
      (hback (hfirst c hc))

end Precedes
