/-
# Runs of a machine given by a partial step function

A machine is a step function `step : σ → ℓ → Option σ`: the label says which thread moves and
what the environment answers, and `none` means that the move is not possible in that state.  A
run is a list of labels.  This module has what the developments over such machines share: the
composition of runs, the invariant rule, and the invariant rule for runs whose steps all meet a
guard.
-/
import Mathlib.Data.List.Basic

namespace Run

variable {σ ℓ : Type*}

/-- The state that the labels `ls` lead to from `s`, if every one of them is possible. -/
def exec (step : σ → ℓ → Option σ) : σ → List ℓ → Option σ
  | s, [] => some s
  | s, l :: ls => (step s l).bind fun s' => exec step s' ls

/-- Every step of the run `ls` from `s` meets the guard.  The guard reads the state before the
step and the label. -/
def Guarded (step : σ → ℓ → Option σ) (guard : σ → ℓ → Prop) : σ → List ℓ → Prop
  | _, [] => True
  | s, l :: ls => guard s l ∧ ∀ s', step s l = some s' → Guarded step guard s' ls

variable {step : σ → ℓ → Option σ}

/-- Whether a given run is guarded can be computed by running it. -/
instance decidableGuarded {guard : σ → ℓ → Prop} [∀ s l, Decidable (guard s l)] :
    (s : σ) → (ls : List ℓ) → Decidable (Guarded step guard s ls)
  | _, [] => isTrue trivial
  | s, l :: ls =>
    match h : step s l with
    | none => decidable_of_iff (guard s l) (by simp [Guarded, h])
    | some s' =>
      have : Decidable (Guarded step guard s' ls) := decidableGuarded s' ls
      decidable_of_iff (guard s l ∧ Guarded step guard s' ls) (by simp [Guarded, h])

@[simp] theorem exec_nil (s : σ) : exec step s [] = some s := rfl

theorem exec_cons {s t : σ} {l : ℓ} {ls : List ℓ} :
    exec step s (l :: ls) = some t ↔ ∃ s', step s l = some s' ∧ exec step s' ls = some t := by
  simp [exec, Option.bind_eq_some_iff]

theorem exec_append (s : σ) (ls ls' : List ℓ) :
    exec step s (ls ++ ls') = (exec step s ls).bind fun s' => exec step s' ls' := by
  induction ls generalizing s with
  | nil => rfl
  | cons l ls ih =>
    simp only [List.cons_append, exec]
    cases step s l with
    | none => rfl
    | some s' => simpa using ih s'

/-- Two runs one after the other. -/
theorem exec_trans {s t u : σ} {ls ls' : List ℓ} (h : exec step s ls = some t)
    (h' : exec step t ls' = some u) : exec step s (ls ++ ls') = some u := by
  rw [exec_append, h]
  exact h'

/-- **The invariant rule.**  What one step preserves, every run preserves. -/
theorem invariant (Inv : σ → Prop)
    (hstep : ∀ s l s', Inv s → step s l = some s' → Inv s') {s t : σ} {ls : List ℓ}
    (hs : Inv s) (h : exec step s ls = some t) : Inv t := by
  induction ls generalizing s with
  | nil =>
    obtain rfl : s = t := by simpa using h
    exact hs
  | cons l ls ih =>
    obtain ⟨s', h₁, h₂⟩ := exec_cons.mp h
    exact ih (hstep s l s' hs h₁) h₂

/-- The invariant rule for a machine that is never stuck: every list of labels is a run. -/
theorem total (Inv : σ → Prop) (hstep : ∀ s l, Inv s → ∃ s', step s l = some s' ∧ Inv s') {s : σ}
    (hs : Inv s) (ls : List ℓ) : ∃ t, exec step s ls = some t ∧ Inv t := by
  induction ls generalizing s with
  | nil => exact ⟨s, rfl, hs⟩
  | cons l ls ih =>
    obtain ⟨s', h₁, hs'⟩ := hstep s l hs
    obtain ⟨t, h₂, ht⟩ := ih hs'
    exact ⟨t, exec_cons.mpr ⟨s', h₁, h₂⟩, ht⟩

/-- The invariant rule for guarded runs: each step may use that it meets the guard. -/
theorem invariant_guarded {guard : σ → ℓ → Prop} (Inv : σ → Prop)
    (hstep : ∀ s l s', Inv s → guard s l → step s l = some s' → Inv s') {s t : σ} {ls : List ℓ}
    (hs : Inv s) (hg : Guarded step guard s ls) (h : exec step s ls = some t) : Inv t := by
  induction ls generalizing s with
  | nil =>
    obtain rfl : s = t := by simpa using h
    exact hs
  | cons l ls ih =>
    obtain ⟨s', h₁, h₂⟩ := exec_cons.mp h
    exact ih (hstep s l s' hs hg.1 h₁) (hg.2 s' h₁) h₂

/-- A guarded run, cut in two. -/
theorem Guarded.append {guard : σ → ℓ → Prop} {s t : σ} {ls ls' : List ℓ}
    (h : Guarded step guard s (ls ++ ls')) (hrun : exec step s ls = some t) :
    Guarded step guard s ls ∧ Guarded step guard t ls' := by
  induction ls generalizing s with
  | nil =>
    obtain rfl : s = t := by simpa using hrun
    exact ⟨trivial, h⟩
  | cons l ls ih =>
    obtain ⟨s', hstep, hrest⟩ := exec_cons.mp hrun
    obtain ⟨h₁, h₂⟩ := ih (h.2 s' hstep) hrest
    refine ⟨⟨h.1, fun u hu => ?_⟩, h₂⟩
    obtain rfl : s' = u := Option.some.inj (hstep.symm.trans hu)
    exact h₁

/-- **What is gone is left alone.**  If nothing that a step adds to the log has to do with what is
gone before the step, and what is gone stays gone, then the rest of a run adds nothing that has to
do with it. -/
theorem untouched {α ι : Type*} {guard : σ → ℓ → Prop} (Inv : σ → Prop) (log : σ → List α)
    (gone : σ → ι → Prop) (touches : α → ι → Prop)
    (hstep : ∀ s l s', Inv s → guard s l → step s l = some s' → Inv s' ∧
      (∃ new, log s' = new ++ log s ∧ ∀ a ∈ new, ∀ i, gone s i → ¬ touches a i) ∧
      ∀ i, gone s i → gone s' i)
    {s t : σ} {ls : List ℓ} (hs : Inv s) (hg : Guarded step guard s ls)
    (h : exec step s ls = some t) {i : ι} (hi : gone s i) :
    ∃ new, log t = new ++ log s ∧ ∀ a ∈ new, ¬ touches a i := by
  induction ls generalizing s with
  | nil =>
    obtain rfl : s = t := by simpa using h
    exact ⟨[], rfl, by simp⟩
  | cons l ls ih =>
    obtain ⟨s', h₁, h₂⟩ := exec_cons.mp h
    obtain ⟨hs', ⟨new, hnew, hfree⟩, hgone⟩ := hstep s l s' hs hg.1 h₁
    obtain ⟨later, hlater, hlaterFree⟩ := ih hs' (hg.2 s' h₁) h₂ (hgone i hi)
    refine ⟨later ++ new, by rw [hlater, hnew, List.append_assoc], fun a ha => ?_⟩
    rcases List.mem_append.mp ha with ha | ha
    · exact hlaterFree a ha
    · exact hfree a ha i hi

/-- What the steps of a run put out, in order. -/
def trace {α : Type*} (step : σ → ℓ → Option σ) (out : σ → ℓ → List α) : σ → List ℓ → List α
  | _, [] => []
  | s, l :: ls => out s l ++ ((step s l).map fun s' => trace step out s' ls).getD []

/-- The invariant rule for a run and what it has put out so far.  What is asked of the output of a
run is asked of the output of its beginnings too. -/
theorem invariant_trace {α : Type*} {guard : σ → ℓ → Prop} {out : σ → ℓ → List α}
    (Inv : σ → List α → Prop) (Asked : List α → Prop)
    (hasked : ∀ os os', Asked (os ++ os') → Asked os)
    (hstep : ∀ s l s' os, Inv s os → guard s l → Asked (os ++ out s l) → step s l = some s' →
      Inv s' (os ++ out s l))
    {s t : σ} {ls : List ℓ} {os : List α} (hs : Inv s os) (hg : Guarded step guard s ls)
    (h : exec step s ls = some t) (ha : Asked (os ++ trace step out s ls)) :
    Inv t (os ++ trace step out s ls) := by
  induction ls generalizing s os with
  | nil =>
    obtain rfl : s = t := by simpa using h
    simpa [trace] using hs
  | cons l ls ih =>
    obtain ⟨s', h₁, h₂⟩ := exec_cons.mp h
    simp only [trace, h₁, Option.map_some, Option.getD_some, ← List.append_assoc] at ha ⊢
    exact ih (hstep s l s' os hs hg.1 (hasked _ _ ha) h₁) (hg.2 s' h₁) h₂ ha

/-- The invariant rule for a run and what its labels bring in. -/
theorem invariant_labels {α : Type*} {guard : σ → ℓ → Prop} (Inv : σ → List α → Prop)
    (brings : ℓ → List α)
    (hstep : ∀ s l s' as, Inv s as → guard s l → step s l = some s' → Inv s' (as ++ brings l))
    {s t : σ} {ls : List ℓ} {as : List α} (hs : Inv s as) (hg : Guarded step guard s ls)
    (h : exec step s ls = some t) : Inv t (as ++ ls.flatMap brings) := by
  induction ls generalizing s as with
  | nil =>
    obtain rfl : s = t := by simpa using h
    simpa using hs
  | cons l ls ih =>
    obtain ⟨s', h₁, h₂⟩ := exec_cons.mp h
    rw [List.flatMap_cons, ← List.append_assoc]
    exact ih (hstep s l s' as hs hg.1 h₁) (hg.2 s' h₁) h₂

/-- A run that meets two guards meets both at every step. -/
theorem Guarded.and {guard guard' : σ → ℓ → Prop} {s : σ} {ls : List ℓ}
    (h : Guarded step guard s ls) (h' : Guarded step guard' s ls) :
    Guarded step (fun s l => guard s l ∧ guard' s l) s ls := by
  induction ls generalizing s with
  | nil => trivial
  | cons l ls ih => exact ⟨⟨h.1, h'.1⟩, fun s' hs' => ih (h.2 s' hs') (h'.2 s' hs')⟩

/-- A guard on the labels alone holds along every run of such labels. -/
theorem guarded_of_forall {p : ℓ → Prop} {ls : List ℓ} (h : ∀ l ∈ ls, p l) (s : σ) :
    Guarded step (fun _ l => p l) s ls := by
  induction ls generalizing s with
  | nil => trivial
  | cons l ls ih =>
    refine ⟨h l List.mem_cons_self, fun s' _ => ih (fun l' hl' => ?_) s'⟩
    exact h l' (List.mem_cons_of_mem _ hl')

end Run
