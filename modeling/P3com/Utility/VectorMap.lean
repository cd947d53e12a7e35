/-
# `vector_map`: a map kept in two parallel vectors

`include/p3com/utility/vector_map.hpp` and `internal/utility/vector_map.inl`.  The keys and the
elements are two `iox::cxx::vector`s of the same capacity, and an association exists only by
position: the element of a key is the one at the key's index.  An iterator is modelled by that
index.

`iox::cxx::vector` is bounded: `push_back` and `emplace_back` refuse a further element at the
capacity and `erase` shifts the tail left.  The structure carries what every operation keeps:
both vectors have the same length, at most `cap`.

The lemmas speak of `entries`, the list of pairs, so that nothing above has to look at the two
vectors again.
-/
import P3com.Lib.Count
import Mathlib.Data.List.Nodup
import Mathlib.Data.List.Basic

namespace P3com

/-- `cxx::vector_map<Key, T, Capacity>`. -/
structure VectorMap (K T : Type) (cap : Nat) where
  keys : List K
  elems : List T
  size_eq : keys.length = elems.length
  size_le : elems.length ≤ cap

namespace VectorMap

variable {K T : Type} {cap : Nat}

instance [DecidableEq K] [DecidableEq T] : DecidableEq (VectorMap K T cap) := fun m m' =>
  decidable_of_iff (m.keys = m'.keys ∧ m.elems = m'.elems) <| by
    cases m
    cases m'
    simp

/-- The map as a list of associations, in the order of the vectors. -/
def entries (m : VectorMap K T cap) : List (K × T) := m.keys.zip m.elems

def empty : VectorMap K T cap := ⟨[], [], rfl, Nat.zero_le _⟩

def size (m : VectorMap K T cap) : Nat := m.elems.length

/-- `find`: the index of the first occurrence of the key among the keys, `none` for `end()`. -/
def find [DecidableEq K] (m : VectorMap K T cap) (key : K) : Option Nat := m.keys.idxOf? key

/-- `find` and the dereferenced iterator. -/
def findElem [DecidableEq K] (m : VectorMap K T cap) (key : K) : Option (Nat × T) :=
  (m.find key).bind fun i => m.elems[i]?.map fun t => (i, t)

/-- `emplace`: `none` when the vectors are full, and then nothing has changed. -/
def emplace (m : VectorMap K T cap) (key : K) (t : T) : Option (VectorMap K T cap) :=
  if h : m.elems.length < cap then
    some ⟨m.keys ++ [key], m.elems ++ [t],
      by rw [List.length_append, List.length_append, m.size_eq]; rfl,
      by rw [List.length_append]; exact h⟩
  else
    none

/-- `erase` of the iterator at index `i`. -/
def erase (m : VectorMap K T cap) (i : Nat) : VectorMap K T cap :=
  ⟨m.keys.eraseIdx i, m.elems.eraseIdx i, by simp [List.length_eraseIdx, m.size_eq],
    Nat.le_trans (List.length_eraseIdx_le _ _) m.size_le⟩

/-- `clear`. -/
def clear (_ : VectorMap K T cap) : VectorMap K T cap := empty

/-- Assignment through the iterator at index `i`. -/
def set (m : VectorMap K T cap) (i : Nat) (t : T) : VectorMap K T cap :=
  ⟨m.keys, m.elems.set i t, by simp [m.size_eq], by simpa using m.size_le⟩

/-! ## What the operations do to the associations -/

@[simp] theorem length_entries (m : VectorMap K T cap) : m.entries.length = m.size := by
  simp [entries, size, m.size_eq]

theorem keys_eq (m : VectorMap K T cap) : m.keys = m.entries.map Prod.fst := by
  simp [entries, List.map_fst_zip, m.size_eq]

theorem elems_eq (m : VectorMap K T cap) : m.elems = m.entries.map Prod.snd := by
  simp [entries, List.map_snd_zip, m.size_eq]

theorem getElem?_entries {m : VectorMap K T cap} {i : Nat} {k : K} {t : T} :
    m.entries[i]? = some (k, t) ↔ m.keys[i]? = some k ∧ m.elems[i]? = some t := by
  simp [entries, List.getElem?_zip_eq_some]

theorem size_le_cap (m : VectorMap K T cap) : m.size ≤ cap := m.size_le

@[simp] theorem entries_empty : (empty : VectorMap K T cap).entries = [] := rfl

@[simp] theorem entries_clear (m : VectorMap K T cap) : m.clear.entries = [] := rfl

theorem entries_erase (m : VectorMap K T cap) (i : Nat) :
    (m.erase i).entries = m.entries.eraseIdx i := by
  apply List.ext_getElem?
  intro j
  rcases Nat.lt_or_ge j i with h | h
  · simp [entries, erase, List.getElem?_eraseIdx_of_lt, h, List.zip, List.getElem?_zipWith]
  · simp [entries, erase, List.getElem?_eraseIdx_of_ge, h, List.zip, List.getElem?_zipWith]

theorem entries_set {m : VectorMap K T cap} {i : Nat} {k : K} (hk : m.keys[i]? = some k) (t : T) :
    (m.set i t).entries = m.entries.set i (k, t) := by
  have hlt : i < m.keys.length := (List.getElem?_eq_some_iff.mp hk).1
  apply List.ext_getElem?
  intro j
  by_cases h : i = j
  · subst h
    have h' : i < m.elems.length := m.size_eq ▸ hlt
    have hz : i < (m.keys.zip m.elems).length := by simp [m.size_eq, h']
    rw [entries, entries, List.getElem?_set_self hz]
    simp [set, List.zip, List.getElem?_zipWith, hk, h']
  · simp [entries, set, List.zip, List.getElem?_zipWith, h]

theorem entries_emplace {m m' : VectorMap K T cap} {k : K} {t : T} (h : m.emplace k t = some m') :
    m'.entries = m.entries ++ [(k, t)] := by
  unfold emplace at h
  split at h
  · obtain rfl := Option.some.inj h
    simp [entries, List.zip_append m.size_eq]
  · cases h

theorem emplace_eq_none {m : VectorMap K T cap} {k : K} {t : T} :
    m.emplace k t = none ↔ m.size = cap := by
  have := m.size_le
  unfold emplace size
  split
  · simp; omega
  · simp; omega

theorem emplace_isSome {m : VectorMap K T cap} (h : m.size < cap) (k : K) (t : T) :
    ∃ m', m.emplace k t = some m' := by
  cases hm : m.emplace k t with
  | none =>
    have := emplace_eq_none.mp hm
    omega
  | some m' => exact ⟨m', rfl⟩

/-- What is erased may be overwritten before. -/
theorem erase_set (m : VectorMap K T cap) (i : Nat) (t : T) : (m.set i t).erase i = m.erase i := by
  simp only [erase, set, List.eraseIdx_set_eq]

/-- The entry at an index, and the others. -/
theorem entries_perm_erase {m : VectorMap K T cap} {i : Nat} {e : K × T}
    (h : m.entries[i]? = some e) : m.entries.Perm (e :: (m.erase i).entries) := by
  rw [entries_erase]
  exact List.perm_cons_eraseIdx h

theorem countP_entries_erase {m : VectorMap K T cap} {i : Nat} {e : K × T}
    (h : m.entries[i]? = some e) (p : K × T → Bool) :
    m.entries.countP p = (m.erase i).entries.countP p + if p e then 1 else 0 := by
  rw [entries_erase]
  exact List.countP_eraseIdx h p

theorem countP_entries_set {m : VectorMap K T cap} {i : Nat} {k : K} {t t' : T}
    (h : m.entries[i]? = some (k, t)) {p : K × T → Bool} (hp : p (k, t') = p (k, t)) :
    (m.set i t').entries.countP p = m.entries.countP p := by
  have := List.countP_set_add h (k, t') p
  rw [entries_set (getElem?_entries.mp h).1]
  rw [hp] at this
  omega

theorem mem_entries_of_mem_erase {m : VectorMap K T cap} {i : Nat} {e : K × T}
    (h : e ∈ (m.erase i).entries) : e ∈ m.entries := by
  rw [entries_erase] at h
  exact List.mem_of_mem_eraseIdx h

theorem mem_keys_of_mem_entries {m : VectorMap K T cap} {k : K} {t : T}
    (h : (k, t) ∈ m.entries) : k ∈ m.keys := by
  rw [keys_eq]
  exact List.mem_map_of_mem h

theorem exists_of_mem_keys {m : VectorMap K T cap} {k : K} (h : k ∈ m.keys) :
    ∃ t, (k, t) ∈ m.entries := by
  rw [keys_eq] at h
  obtain ⟨⟨k', t⟩, hmem, rfl⟩ := List.mem_map.mp h
  exact ⟨t, hmem⟩

/-! ## Distinct keys -/

theorem nodup_keys_erase {m : VectorMap K T cap} (h : m.keys.Nodup) (i : Nat) :
    (m.erase i).keys.Nodup :=
  h.sublist (List.eraseIdx_sublist _ _)

theorem nodup_keys_emplace {m m' : VectorMap K T cap} {k : K} {t : T} (hn : m.keys.Nodup)
    (hk : k ∉ m.keys) (h : m.emplace k t = some m') : m'.keys.Nodup := by
  rw [keys_eq, entries_emplace h, List.map_append, ← keys_eq]
  exact hn.append (List.nodup_singleton k) (List.disjoint_singleton.mpr hk)

/-- With distinct keys, an association is erased with the last occurrence of its key. -/
theorem not_mem_keys_erase {m : VectorMap K T cap} (hn : m.keys.Nodup) {i : Nat} {k : K} {t : T}
    (h : m.entries[i]? = some (k, t)) : k ∉ (m.erase i).keys := by
  have hp := (entries_perm_erase h).map Prod.fst
  rw [← keys_eq, List.map_cons, ← keys_eq] at hp
  exact (List.nodup_cons.mp (hp.nodup_iff.mp hn)).1

theorem filter_key_eq_nil {m : VectorMap K T cap} [DecidableEq K] {k : K} (h : k ∉ m.keys) :
    (m.entries.filter fun e => e.1 = k) = [] := by
  refine List.filter_eq_nil_iff.mpr fun e he hek => h ?_
  rw [← of_decide_eq_true hek]
  exact mem_keys_of_mem_entries he

/-- With distinct keys, an association is the only one of its key. -/
theorem filter_key {m : VectorMap K T cap} [DecidableEq K] (hn : m.keys.Nodup) {i : Nat} {k : K}
    {t : T} (h : m.entries[i]? = some (k, t)) : (m.entries.filter fun e => e.1 = k) = [(k, t)] := by
  have hnone : ((m.erase i).entries.filter fun e => e.1 = k) = [] :=
    filter_key_eq_nil (not_mem_keys_erase hn h)
  have hperm := (entries_perm_erase h).filter fun e => e.1 = k
  rw [List.filter_cons_of_pos (by simp), hnone] at hperm
  exact List.perm_singleton.mp hperm

theorem mem_erase_of_ne {m : VectorMap K T cap} {i : Nat} {k k' : K} {t t' : T}
    (h : m.entries[i]? = some (k, t)) (h' : (k', t') ∈ m.entries) (hne : k' ≠ k) :
    (k', t') ∈ (m.erase i).entries := by
  rcases List.mem_cons.mp ((entries_perm_erase h).mem_iff.mp h') with heq | hmem
  · exact absurd (congrArg Prod.fst heq) hne
  · exact hmem

/-- With distinct keys, what is left after an erasure has other keys. -/
theorem ne_of_mem_erase {m : VectorMap K T cap} (hn : m.keys.Nodup) {i : Nat} {k k' : K} {t t' : T}
    (h : m.entries[i]? = some (k, t)) (hmem : (k', t') ∈ (m.erase i).entries) : k' ≠ k := by
  rintro rfl
  exact not_mem_keys_erase hn h (mem_keys_of_mem_entries hmem)

/-- With distinct keys, an assignment changes the association of one key. -/
theorem mem_set_cases {m : VectorMap K T cap} (hn : m.keys.Nodup) {i : Nat} {k k' : K}
    {t t' u : T} (h : m.entries[i]? = some (k, t)) (hmem : (k', t') ∈ (m.set i u).entries) :
    (k' = k ∧ t' = u) ∨ ((k', t') ∈ m.entries ∧ k' ≠ k) := by
  have hlt := (List.getElem?_eq_some_iff.mp h).1
  have hset : (m.entries.set i (k, u))[i]? = some (k, u) := List.getElem?_set_self hlt
  rw [entries_set (getElem?_entries.mp h).1,
    (List.perm_cons_eraseIdx hset).mem_iff, List.eraseIdx_set_eq, ← entries_erase] at hmem
  rcases List.mem_cons.mp hmem with heq | hmem
  · exact Or.inl (Prod.mk.inj heq)
  · exact Or.inr ⟨mem_entries_of_mem_erase hmem, ne_of_mem_erase hn h hmem⟩

theorem mem_set_self {m : VectorMap K T cap} {i : Nat} {k : K} {t : T}
    (h : m.entries[i]? = some (k, t)) (u : T) : (k, u) ∈ (m.set i u).entries := by
  rw [entries_set (getElem?_entries.mp h).1]
  exact List.mem_set (List.getElem?_eq_some_iff.mp h).1 _

section Find

variable [DecidableEq K]

theorem findElem_eq_none {m : VectorMap K T cap} {k : K} :
    m.findElem k = none ↔ k ∉ m.keys := by
  unfold findElem find
  cases h : m.keys.idxOf? k with
  | none => simpa using h
  | some i =>
    obtain ⟨hlt, hk, _⟩ := List.idxOf?_eq_some_iff.mp h
    have hi : i < m.elems.length := m.size_eq ▸ hlt
    have hmem : k ∈ m.keys := by
      rw [← hk]
      exact List.getElem_mem hlt
    simp [hi, hmem]

theorem findElem_eq_some {m : VectorMap K T cap} {k : K} {i : Nat} {t : T}
    (h : m.findElem k = some (i, t)) : m.entries[i]? = some (k, t) := by
  obtain ⟨j, hj, hb⟩ := Option.bind_eq_some_iff.mp h
  obtain ⟨t', ht', heq⟩ := Option.map_eq_some_iff.mp hb
  obtain ⟨rfl, rfl⟩ := Prod.mk.inj heq
  obtain ⟨hlt, hk, _⟩ := List.idxOf?_eq_some_iff.mp hj
  refine getElem?_entries.mpr ⟨?_, ht'⟩
  rw [List.getElem?_eq_getElem hlt, hk]

theorem mem_of_findElem {m : VectorMap K T cap} {k : K} {i : Nat} {t : T}
    (h : m.findElem k = some (i, t)) : (k, t) ∈ m.entries :=
  List.mem_of_getElem? (findElem_eq_some h)

/-- With distinct keys, an association is found by its key. -/
theorem findElem_of_mem {m : VectorMap K T cap} (hn : m.keys.Nodup) {k : K} {t : T}
    (h : (k, t) ∈ m.entries) : ∃ i, m.findElem k = some (i, t) := by
  cases hf : m.findElem k with
  | none => exact absurd (mem_keys_of_mem_entries h) (findElem_eq_none.mp hf)
  | some r =>
    obtain ⟨i, t'⟩ := r
    have hkeys : (m.entries.map Prod.fst).Nodup := keys_eq m ▸ hn
    have := List.inj_on_of_nodup_map hkeys h (mem_of_findElem hf) rfl
    exact ⟨i, by rw [(Prod.mk.inj this).2]⟩

end Find

end VectorMap

end P3com
