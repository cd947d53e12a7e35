/-
# `vector_map` as it is written, and what it is for

`VectorMap` carries the proof that its two vectors have the same length.  The C++ class has no such
proof: `m_keys` and `m_elems` are two vectors that know nothing of each other, `emplace` pushes to
the one and then to the other with a short-circuit `&&`, and `find` and `erase` carry an index from
the one to the other.  `TwoVectors` is the class as it is written, and the lemmas about `raw` say
that it computes what `VectorMap` computes.

The second half is what the class is for.  Everything that its clients see is a run of the bounded
finite map (`vector_map_refines_bounded_map`), as long as they emplace fresh keys only and erase
iterators of elements only.
-/
import P3com.Utility.VectorMap
import P3com.Utility.CxxVector
import P3com.Lib.BoundedMap

namespace P3com

/-- `push_back` and `emplace_back` with their result, whether there was room. -/
def CxxVector.tryPushBack {α : Type} {cap : Nat} (v : CxxVector α cap) (x : α) :
    Bool × CxxVector α cap :=
  (decide (v.size < cap), v.pushBack x)

/-- The members of `cxx::vector_map<Key, T, Capacity>`. -/
structure TwoVectors (K T : Type) (cap : Nat) where
  keys : CxxVector K cap
  elems : CxxVector T cap
deriving DecidableEq

namespace TwoVectors

variable {K T : Type} {cap : Nat}

def empty : TwoVectors K T cap := ⟨.empty, .empty⟩

/-- `begin()`.  An iterator is a position in `m_elems`. -/
def beginIt (_ : TwoVectors K T cap) : Nat := 0

/-- `end()`. -/
def endIt (m : TwoVectors K T cap) : Nat := m.elems.size

/-- The element that an iterator points to. -/
def deref (m : TwoVectors K T cap) (it : Nat) : Option T := m.elems.toList[it]?

/-- `find`.  `std::find` gives the position of the first key that is equal, or that of
`m_keys.end()`. -/
def find [DecidableEq K] (m : TwoVectors K T cap) (key : K) : Nat :=
  let it := m.keys.toList.idxOf key
  if it = m.keys.size then m.endIt else m.beginIt + it

/-- `emplace`: the element is pushed only if the key was. -/
def emplace (m : TwoVectors K T cap) (key : K) (t : T) : Bool × TwoVectors K T cap :=
  let (pushed, keys) := m.keys.tryPushBack key
  if pushed then
    let (emplaced, elems) := m.elems.tryPushBack t
    (emplaced, ⟨keys, elems⟩)
  else
    (false, ⟨keys, m.elems⟩)

/-- `erase`. -/
def erase (m : TwoVectors K T cap) (it : Nat) : TwoVectors K T cap :=
  let index := it - m.beginIt
  ⟨m.keys.erase index, m.elems.erase index⟩

/-- Assignment through an iterator. -/
def set (m : TwoVectors K T cap) (it : Nat) (t : T) : TwoVectors K T cap :=
  { m with elems := m.elems.set it t }

/-- `clear`. -/
def clear (_ : TwoVectors K T cap) : TwoVectors K T cap := ⟨.empty, .empty⟩

/-- `back()`. -/
def back (m : TwoVectors K T cap) : Option T := m.elems.toList.getLast?

/-- `size()`. -/
def size (m : TwoVectors K T cap) : Nat := m.elems.size

/-- The associations, in the order of the vectors. -/
def entries (m : TwoVectors K T cap) : List (K × T) := m.keys.toList.zip m.elems.toList

end TwoVectors

/-! ## It computes what `VectorMap` computes -/

namespace VectorMap

variable {K T : Type} {cap : Nat}

/-- The two vectors alone. -/
def raw (v : VectorMap K T cap) : TwoVectors K T cap :=
  ⟨⟨v.keys, v.size_eq ▸ v.size_le⟩, ⟨v.elems, v.size_le⟩⟩

variable {v v' : VectorMap K T cap} {k : K} {t : T} {i : Nat}

theorem raw_emplace_of_some (h : v.emplace k t = some v') : v.raw.emplace k t = (true, v'.raw) := by
  unfold emplace at h
  split at h
  · rename_i hlt
    obtain rfl := Option.some.inj h
    have hkeys : v.keys.length < cap := v.size_eq ▸ hlt
    simp [TwoVectors.emplace, CxxVector.tryPushBack, CxxVector.pushBack, CxxVector.size, raw,
      hlt, hkeys]
  · cases h

/-- A full map stays as it is: the key is not pushed, and so the element is not either. -/
theorem raw_emplace_of_none (h : v.emplace k t = none) : v.raw.emplace k t = (false, v.raw) := by
  have hfull : v.raw.keys.size = cap := v.size_eq.trans (emplace_eq_none.mp h)
  have hkeys : v.raw.keys.pushBack k = v.raw.keys := CxxVector.pushBack_full hfull k
  have hsize : ¬ v.raw.keys.size < cap := Nat.not_lt.mpr (Nat.le_of_eq hfull.symm)
  simp [TwoVectors.emplace, CxxVector.tryPushBack, hkeys, hsize]

/-- What `emplace` answers. -/
theorem raw_emplace_fails (k : K) (t : T) : (v.raw.emplace k t).1 = false ↔ v.raw.size = cap := by
  have hsize : v.raw.size = v.size := rfl
  rw [hsize, ← emplace_eq_none (k := k) (t := t)]
  cases h : v.emplace k t with
  | none => simp [raw_emplace_of_none h]
  | some v' => simp [raw_emplace_of_some h]

theorem raw_emplace_unchanged (k : K) (t : T) (h : (v.raw.emplace k t).1 = false) :
    (v.raw.emplace k t).2 = v.raw := by
  have hnone : v.emplace k t = none := emplace_eq_none.mpr ((raw_emplace_fails k t).mp h)
  rw [raw_emplace_of_none hnone]

theorem raw_emplace_back (k : K) (t : T) (h : (v.raw.emplace k t).1 = true) :
    (v.raw.emplace k t).2.entries = v.raw.entries ++ [(k, t)] ∧
      (v.raw.emplace k t).2.back = some t := by
  cases he : v.emplace k t with
  | none => simp [raw_emplace_of_none he] at h
  | some v' =>
    have hentries : v'.entries = v.entries ++ [(k, t)] := entries_emplace he
    have hback : v'.elems.getLast? = some t := by simp [elems_eq, hentries]
    rw [raw_emplace_of_some he]
    exact ⟨hentries, hback⟩

/-- The element at a position has a key. -/
theorem exists_entry (h : i < v.raw.endIt) : ∃ k t, v.entries[i]? = some (k, t) := by
  have hlt : i < v.entries.length := by
    rw [length_entries]
    exact h
  exact ⟨v.entries[i].1, v.entries[i].2, List.getElem?_eq_getElem hlt⟩

theorem raw_erase (v : VectorMap K T cap) (i : Nat) : v.raw.erase i = (v.erase i).raw := rfl

theorem raw_set (v : VectorMap K T cap) (i : Nat) (t : T) : v.raw.set i t = (v.set i t).raw := rfl

theorem raw_clear (v : VectorMap K T cap) : v.raw.clear = v.clear.raw := rfl

section Find

variable [DecidableEq K]

theorem find_raw_of_some (h : v.find k = some i) : v.raw.find k = i := by
  obtain ⟨hlt, hi⟩ := List.findIdx?_eq_some_iff_findIdx_eq.mp h
  have hidx : v.raw.keys.toList.idxOf k = i := hi
  have hne : i ≠ v.raw.keys.size := Nat.ne_of_lt hlt
  simp [TwoVectors.find, TwoVectors.beginIt, hidx, hne]

theorem find_raw_of_none (h : v.find k = none) : v.raw.find k = v.raw.endIt := by
  have hk : k ∉ v.keys := by simpa [find] using h
  have hidx : v.raw.keys.toList.idxOf k = v.raw.keys.size := List.idxOf_eq_length hk
  simp [TwoVectors.find, hidx]

theorem find_raw_eq_endIt : v.raw.find k = v.raw.endIt ↔ k ∉ v.keys := by
  cases h : v.find k with
  | none =>
    have hk : k ∉ v.keys := by simpa [find] using h
    simp [find_raw_of_none h, hk]
  | some i =>
    obtain ⟨hlt, hkey, -⟩ := List.idxOf?_eq_some_iff.mp h
    have hne : i ≠ v.raw.endIt := Nat.ne_of_lt (Nat.lt_of_lt_of_eq hlt v.size_eq)
    have hk : k ∈ v.keys := hkey ▸ List.getElem_mem hlt
    simp [find_raw_of_some h, hne, hk]

/-- The iterator that `find` returns points to the position of the key. -/
theorem getElem?_find_raw (h : k ∈ v.keys) : v.raw.keys.toList[v.raw.find k]? = some k := by
  cases hf : v.find k with
  | none =>
    have hk : k ∉ v.keys := by simpa [find] using hf
    exact absurd h hk
  | some i =>
    obtain ⟨hlt, hkey, -⟩ := List.idxOf?_eq_some_iff.mp hf
    rw [find_raw_of_some hf]
    exact List.getElem?_eq_some_iff.mpr ⟨hlt, hkey⟩

theorem deref_find_raw (v : VectorMap K T cap) (k : K) :
    v.raw.deref (v.raw.find k) = (v.findElem k).map Prod.snd := by
  cases h : v.find k with
  | none =>
    rw [find_raw_of_none h]
    simp [findElem, h, TwoVectors.deref, TwoVectors.endIt, CxxVector.size]
  | some i =>
    rw [find_raw_of_some h]
    simp [findElem, h, TwoVectors.deref, raw]

end Find

end VectorMap

/-! ## Runs -/

namespace TwoVectors

variable {K T : Type} [DecidableEq K] {cap : Nat}

open BoundedMap (Event Holds)

/-- What a client calls. -/
inductive Call (K T : Type)
  | emplace (key : K) (t : T)
  | find (key : K)
  | erase (it : Nat)
  | clear
deriving DecidableEq

def step (m : TwoVectors K T cap) : Call K T → Option (TwoVectors K T cap)
  | .emplace key t => some (m.emplace key t).2
  | .find _ => some m
  | .erase it => some (m.erase it)
  | .clear => some m.clear

/-- The clients emplace a key that is not present, and erase an iterator that points to an
element. -/
def Proper (m : TwoVectors K T cap) : Call K T → Prop
  | .emplace key _ => key ∉ m.keys.toList
  | .erase it => m.beginIt ≤ it ∧ it < m.endIt
  | .find _ => True
  | .clear => True

instance (m : TwoVectors K T cap) : (c : Call K T) → Decidable (m.Proper c)
  | .emplace key _ => inferInstanceAs (Decidable (key ∉ m.keys.toList))
  | .erase it => inferInstanceAs (Decidable (m.beginIt ≤ it ∧ it < m.endIt))
  | .find _ => isTrue trivial
  | .clear => isTrue trivial

/-- What the client sees of a call, with iterators named by their keys. -/
def observe (m : TwoVectors K T cap) : Call K T → List (Event K T)
  | .emplace key t => [.emplace key t (m.emplace key t).1]
  | .find key => [.find key (m.deref (m.find key))]
  | .erase it => m.keys.toList[it]?.toList.map .erase
  | .clear => [.clear]

end TwoVectors

namespace VectorMap

variable {K T : Type} [DecidableEq K] {cap : Nat}

/-- The finite map has the associations of the vectors. -/
def Represents (v : VectorMap K T cap) (f : Finmap fun _ : K => T) : Prop :=
  ∀ k t, f.lookup k = some t ↔ (k, t) ∈ v.entries

variable {v v' : VectorMap K T cap} {f : Finmap fun _ : K => T} {k : K} {t : T} {i : Nat}

theorem Represents.mem_iff (h : v.Represents f) : k ∈ f ↔ k ∈ v.keys := by
  rw [Finmap.mem_iff]
  constructor
  · rintro ⟨t, ht⟩
    exact mem_keys_of_mem_entries ((h k t).mp ht)
  · intro hk
    obtain ⟨t, ht⟩ := exists_of_mem_keys hk
    exact ⟨t, (h k t).mpr ht⟩

/-- With distinct keys, the map has as many keys as the vectors have elements. -/
theorem Represents.card_keys (h : v.Represents f) (hn : v.keys.Nodup) :
    f.keys.card = v.size := by
  have hkeys : f.keys = v.keys.toFinset := by
    ext k
    rw [Finmap.mem_keys, h.mem_iff, List.mem_toFinset]
  rw [hkeys, List.toFinset_card_of_nodup hn]
  exact v.size_eq

/-- `find` is the lookup. -/
theorem Represents.lookup_eq (h : v.Represents f) (k : K) :
    f.lookup k = v.raw.deref (v.raw.find k) := by
  rw [deref_find_raw]
  cases hf : v.findElem k with
  | none =>
    rw [Option.map_none, Finmap.lookup_eq_none, h.mem_iff]
    exact findElem_eq_none.mp hf
  | some r =>
    obtain ⟨i, t⟩ := r
    exact (h k t).mpr (mem_of_findElem hf)

theorem represents_empty : (empty : VectorMap K T cap).Represents ∅ := by
  intro k t
  simp [Finmap.lookup_empty]

theorem Represents.emplace (h : v.Represents f) (hk : k ∉ v.keys)
    (he : v.emplace k t = some v') : v'.Represents (f.insert k t) := by
  intro k' t'
  rw [entries_emplace he, List.mem_append, List.mem_singleton, Prod.mk.injEq]
  by_cases hk' : k' = k
  · subst hk'
    have hno : (k', t') ∉ v.entries := fun hmem => hk (mem_keys_of_mem_entries hmem)
    simp [Finmap.lookup_insert, hno, eq_comm]
  · rw [Finmap.lookup_insert_of_ne f hk', h k' t']
    simp [hk']

theorem Represents.erase (h : v.Represents f) (hn : v.keys.Nodup)
    (hi : v.entries[i]? = some (k, t)) : (v.erase i).Represents (f.erase k) := by
  intro k' t'
  by_cases hk' : k' = k
  · subst hk'
    have hno : (k', t') ∉ (v.erase i).entries := fun hmem => ne_of_mem_erase hn hi hmem rfl
    simp [Finmap.lookup_erase, hno]
  · rw [Finmap.lookup_erase_ne hk', h k' t']
    exact ⟨fun hmem => mem_erase_of_ne hi hmem hk', mem_entries_of_mem_erase⟩

/-- With distinct keys, an erasure is a filter. -/
theorem entries_erase_eq_filter (hn : v.keys.Nodup) (hi : v.entries[i]? = some (k, t)) :
    (v.erase i).entries = v.entries.filter fun e => e.1 ≠ k := by
  have hleft : ∀ e ∈ (v.erase i).entries, decide (e.1 ≠ k) = true := by
    rintro ⟨k', t'⟩ hmem
    exact decide_eq_true (ne_of_mem_erase hn hi hmem)
  rw [← List.filter_eq_self.mpr hleft, entries_erase]
  exact List.filter_eraseIdx hi (by simp)

end VectorMap

namespace TwoVectors

variable {K T : Type} [DecidableEq K] {cap : Nat}

open BoundedMap (Event Holds)

/-- The vectors are those of a `VectorMap` with distinct keys, and what the clients have seen is a
run of the bounded finite map that ends in the map they represent. -/
def Inv (m : TwoVectors K T cap) (es : List (Event K T)) : Prop :=
  ∃ v f, m = VectorMap.raw v ∧ v.keys.Nodup ∧ v.Represents f ∧
    Run.exec (BoundedMap.step cap) ∅ es = some f

/-- Everything that a client can ask of the map after the events `es`. -/
structure BehavesAsMap (m : TwoVectors K T cap) (es : List (Event K T)) : Prop where
  /-- The events are a run of the bounded finite map, and `find` is the lookup where it ends. -/
  refines : ∃ f, Run.exec (BoundedMap.step cap) ∅ es = some f ∧ f.keys.card = m.size ∧
    ∀ k, m.deref (m.find k) = f.lookup k
  size_eq : m.keys.size = m.elems.size
  size_le : m.size ≤ cap
  nodup : m.keys.toList.Nodup
  find_elem : ∀ k t, m.deref (m.find k) = some t ↔ Holds es k t
  find_end : ∀ k, m.find k = m.endIt ↔ ¬ ∃ t, Holds es k t
  find_key : ∀ k, m.find k ≠ m.endIt → m.find k < m.endIt ∧ m.keys.toList[m.find k]? = some k
  emplace_fails : ∀ k t, (m.emplace k t).1 = false ↔ m.size = cap
  emplace_unchanged : ∀ k t, (m.emplace k t).1 = false → (m.emplace k t).2 = m
  emplace_back : ∀ k t, (m.emplace k t).1 = true →
    (m.emplace k t).2.entries = m.entries ++ [(k, t)] ∧ (m.emplace k t).2.back = some t
  /-- The element at an iterator has a key, and the erasure takes out that key. -/
  erase_key : ∀ it < m.endIt, ∃ k, m.keys.toList[it]? = some k ∧
    (m.erase it).find k = (m.erase it).endIt ∧
    (∀ k', k' ≠ k → (m.erase it).deref ((m.erase it).find k') = m.deref (m.find k')) ∧
    (m.erase it).entries = m.entries.filter fun e => e.1 ≠ k
  clear_end : ∀ k, m.clear.find k = m.clear.endIt

variable {m m' : TwoVectors K T cap} {es : List (Event K T)}

/-- One more event of the bounded finite map. -/
theorem exec_concat {f f' : Finmap fun _ : K => T} {e : Event K T}
    (h : Run.exec (BoundedMap.step cap) ∅ es = some f) (hstep : BoundedMap.step cap f e = some f') :
    Run.exec (BoundedMap.step cap) ∅ (es ++ [e]) = some f' :=
  Run.exec_trans h (Run.exec_cons.mpr ⟨f', hstep, Run.exec_nil f'⟩)

/-- A call does what the bounded finite map does, and its answer is the right one. -/
theorem inv_step {c : Call K T} (h : m.Inv es) (hp : m.Proper c) (hstep : m.step c = some m') :
    m'.Inv (es ++ m.observe c) := by
  obtain ⟨v, f, rfl, hn, hr, hf⟩ := h
  cases c with
  | emplace k t =>
    obtain rfl := Option.some.inj hstep
    have hk : k ∉ f := fun hmem => hp (hr.mem_iff.mp hmem)
    cases he : v.emplace k t with
    | none =>
      have hfull : f.keys.card = cap :=
        (hr.card_keys hn).trans (VectorMap.emplace_eq_none.mp he)
      simp only [observe, VectorMap.raw_emplace_of_none he]
      exact ⟨v, f, rfl, hn, hr, exec_concat hf (if_pos ⟨hk, hfull⟩)⟩
    | some v' =>
      have hroom : f.keys.card < cap := by
        have hle := v.size_le_cap
        have hne : v.size ≠ cap := fun hfull => by
          simp [VectorMap.emplace_eq_none.mpr hfull] at he
        rw [hr.card_keys hn]
        omega
      simp only [observe, VectorMap.raw_emplace_of_some he]
      exact ⟨v', f.insert k t, rfl, VectorMap.nodup_keys_emplace hn hp he, hr.emplace hp he,
        exec_concat hf (if_pos ⟨hk, hroom⟩)⟩
  | find k =>
    obtain rfl := Option.some.inj hstep
    exact ⟨v, f, rfl, hn, hr, exec_concat hf (if_pos (hr.lookup_eq k))⟩
  | erase i =>
    obtain rfl := Option.some.inj hstep
    obtain ⟨k, t, hi⟩ := VectorMap.exists_entry hp.2
    have hkey : v.raw.keys.toList[i]? = some k := (VectorMap.getElem?_entries.mp hi).1
    have hk : k ∈ f := hr.mem_iff.mpr (List.mem_of_getElem? hkey)
    simp only [observe, hkey, Option.toList_some, List.map_cons, List.map_nil]
    exact ⟨v.erase i, f.erase k, rfl, VectorMap.nodup_keys_erase hn i, hr.erase hn hi,
      exec_concat hf (if_pos hk)⟩
  | clear =>
    obtain rfl := Option.some.inj hstep
    exact ⟨VectorMap.empty, ∅, rfl, List.nodup_nil, VectorMap.represents_empty,
      exec_concat hf rfl⟩

theorem Inv.behavesAsMap (h : m.Inv es) : m.BehavesAsMap es := by
  obtain ⟨v, f, rfl, hn, hr, hf⟩ := h
  have hholds : ∀ k t, v.raw.deref (v.raw.find k) = some t ↔ Holds es k t := fun k t => by
    rw [← hr.lookup_eq k]
    exact BoundedMap.lookup_exec hf k t
  have hend : ∀ k, v.raw.find k = v.raw.endIt ↔ ¬ ∃ t, Holds es k t := fun k => by
    rw [VectorMap.find_raw_eq_endIt, ← hr.mem_iff, Finmap.mem_iff]
    simp only [BoundedMap.lookup_exec hf]
  exact {
    refines := ⟨f, hf, hr.card_keys hn, fun k => (hr.lookup_eq k).symm⟩
    size_eq := v.size_eq
    size_le := v.size_le_cap
    nodup := hn
    find_elem := hholds
    find_end := hend
    find_key := fun k hk => by
      have hmem : k ∈ v.keys := not_not.mp fun hno => hk (VectorMap.find_raw_eq_endIt.mpr hno)
      have hkey := VectorMap.getElem?_find_raw hmem
      obtain ⟨hlt, -⟩ := List.getElem?_eq_some_iff.mp hkey
      exact ⟨Nat.lt_of_lt_of_eq hlt v.size_eq, hkey⟩
    emplace_fails := VectorMap.raw_emplace_fails
    emplace_unchanged := VectorMap.raw_emplace_unchanged
    emplace_back := VectorMap.raw_emplace_back
    erase_key := fun i hi => by
      obtain ⟨k, t, hentry⟩ := VectorMap.exists_entry hi
      refine ⟨k, (VectorMap.getElem?_entries.mp hentry).1, ?_, fun k' hk' => ?_, ?_⟩
      · exact VectorMap.find_raw_eq_endIt.mpr (VectorMap.not_mem_keys_erase hn hentry)
      · rw [VectorMap.raw_erase, ← (hr.erase hn hentry).lookup_eq k', ← hr.lookup_eq k',
          Finmap.lookup_erase_ne hk']
      · exact VectorMap.entries_erase_eq_filter hn hentry
    clear_end := fun k => by
      rw [VectorMap.raw_clear]
      exact VectorMap.find_raw_eq_endIt.mpr List.not_mem_nil }

/-- **`vector_map` is a bounded finite map.**  After every sequence of calls that emplaces fresh
keys only and erases iterators of elements only, the map behaves as the calls and their answers so
far say. -/
theorem vector_map_refines_bounded_map {ls : List (Call K T)}
    (hg : Run.Guarded step Proper (empty : TwoVectors K T cap) ls)
    (hrun : Run.exec step empty ls = some m) :
    m.BehavesAsMap (Run.trace step observe (empty : TwoVectors K T cap) ls) := by
  have hempty : (empty : TwoVectors K T cap).Inv [] :=
    ⟨VectorMap.empty, ∅, rfl, List.nodup_nil, VectorMap.represents_empty, rfl⟩
  have hinv : m.Inv ([] ++ Run.trace step observe (empty : TwoVectors K T cap) ls) :=
    Run.invariant_trace Inv (fun _ => True) (fun _ _ _ => trivial)
      (fun _ _ _ _ hm hp _ hstep => inv_step hm hp hstep) hempty hg hrun trivial
  exact hinv.behavesAsMap

/-- Room for two: the third key is refused, and accepted after the first one has been erased. -/
theorem vector_map_refines_bounded_map_demo :
    (⟨⟨[2, 3], by decide⟩, ⟨[20, 31], by decide⟩⟩ : TwoVectors Nat Nat 2).BehavesAsMap
      (Run.trace step observe (empty : TwoVectors Nat Nat 2)
        [.emplace 1 10, .emplace 2 20, .emplace 3 30, .find 1, .erase 0, .emplace 3 31]) :=
  vector_map_refines_bounded_map (by decide) (by decide)

end TwoVectors

end P3com
