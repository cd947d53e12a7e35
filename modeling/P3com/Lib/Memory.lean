/-
# Bytes at 64-bit addresses

A memory is a function from addresses to bytes.  Addresses are numbers modulo `2 ^ 64`, and so a
pointer may be advanced past the end of a region without harm.  A region is given by its first
address and its length; whether an address lies in it is decided by its distance from the first.

`memcpy` is the function of the C library, for regions that do not overlap.  The rule for a copy
that is made in parts is `memcpy_memcpy`.  A buffer is a region with the list of its bytes.
-/
import Mathlib.Data.UInt

namespace Memory

variable {mem : UInt64 → UInt8} {destination source p q : UInt64} {m n i : Nat}

/-- The memory after `n` bytes at `source` have been copied to `destination`. -/
def memcpy (mem : UInt64 → UInt8) (destination source : UInt64) (n : Nat) : UInt64 → UInt8 :=
  fun a => if (a - destination).toNat < n then mem (source + (a - destination)) else mem a

/-- The region of `m` bytes at `p` and the one of `n` bytes at `q` have no address in common. -/
def Apart (p : UInt64) (m : Nat) (q : UInt64) (n : Nat) : Prop :=
  ∀ i < m, ∀ j < n, p + UInt64.ofNat i ≠ q + UInt64.ofNat j

/-- The bytes lie at the address `p`. -/
def Holds (mem : UInt64 → UInt8) (p : UInt64) (bytes : List UInt8) : Prop :=
  ∀ i b, bytes[i]? = some b → mem (p + UInt64.ofNat i) = b

/-- An address is the first one and its distance from it. -/
theorem add_distance (a p : UInt64) : p + (a - p) = a := by
  rw [UInt64.add_comm, UInt64.sub_add_cancel]

/-- The distance from an address further on. -/
theorem distance_add (a p : UInt64) (m : Nat) :
    a - (p + UInt64.ofNat m) = a - p - UInt64.ofNat m := by
  grind

theorem toNat_ofNat (h : i < 2 ^ 64) : (UInt64.ofNat i).toNat = i :=
  UInt64.toNat_ofNat_of_lt' h

theorem ofNat_succ_sub_one (i : Nat) : UInt64.ofNat (i + 1) - 1 = UInt64.ofNat i := by
  rw [UInt64.ofNat_add]
  exact UInt64.add_sub_cancel _ _

/-- Regions one after the other in the address space. -/
theorem apart_of_le (h : p.toNat + m ≤ q.toNat) (hq : q.toNat + n ≤ 2 ^ 64) : Apart p m q n := by
  intro i hi j hj heq
  have hnat := congrArg UInt64.toNat heq
  rw [UInt64.toNat_add, UInt64.toNat_add, toNat_ofNat (by omega), toNat_ofNat (by omega),
    Nat.mod_eq_of_lt (by omega), Nat.mod_eq_of_lt (by omega)] at hnat
  omega

/-- An address of the one region is not one of the other. -/
theorem Apart.not_lt (h : Apart p m q n) (hi : i < m) : ¬ (p + UInt64.ofNat i - q).toNat < n := by
  intro hlt
  refine h i hi _ hlt ?_
  rw [UInt64.ofNat_toNat, add_distance]

theorem Apart.symm (h : Apart p m q n) : Apart q n p m :=
  fun i hi j hj heq => h j hj i hi heq.symm

/-- A part of the second region. -/
theorem Apart.part {l n' : Nat} (h : Apart p m q n) (hn : l + n' ≤ n) :
    Apart p m (q + UInt64.ofNat l) n' := by
  intro i hi j hj heq
  rw [UInt64.add_assoc, ← UInt64.ofNat_add] at heq
  exact h i hi (l + j) (by omega) heq

theorem Apart.mono {m' n' : Nat} (h : Apart p m q n) (hm : m' ≤ m) (hn : n' ≤ n) :
    Apart p m' q n' :=
  fun i hi j hj => h i (Nat.lt_of_lt_of_le hi hm) j (Nat.lt_of_lt_of_le hj hn)

@[simp] theorem memcpy_zero : memcpy mem destination source 0 = mem := by
  funext a
  simp [memcpy]

/-- A copied byte. -/
theorem memcpy_apply (h : n ≤ 2 ^ 64) (hi : i < n) :
    memcpy mem destination source n (destination + UInt64.ofNat i)
      = mem (source + UInt64.ofNat i) := by
  have hdist : destination + UInt64.ofNat i - destination = UInt64.ofNat i := by
    rw [UInt64.add_comm, UInt64.add_sub_cancel]
  rw [memcpy, hdist, if_pos]
  rw [toNat_ofNat (by omega)]
  exact hi

/-- A byte outside the destination. -/
theorem memcpy_of_ne {a : UInt64} (h : ∀ i < n, a ≠ destination + UInt64.ofNat i) :
    memcpy mem destination source n a = mem a := by
  refine if_neg fun hlt => h _ hlt ?_
  rw [UInt64.ofNat_toNat, add_distance]

/-- **A copy in two parts.**  The second part reads what the first one has not written. -/
theorem memcpy_memcpy (h : Apart source (m + n) destination (m + n)) (hlt : m + n < 2 ^ 64) :
    memcpy (memcpy mem destination source m) (destination + UInt64.ofNat m)
      (source + UInt64.ofNat m) n = memcpy mem destination source (m + n) := by
  funext a
  have hm : (UInt64.ofNat m).toNat = m := toNat_ofNat (by omega)
  have hdist := UInt64.toNat_sub (a - destination) (UInt64.ofNat m)
  rw [hm] at hdist
  simp only [memcpy, distance_add, hdist]
  -- the address lies in the first part, in the second one, or in none
  by_cases h₁ : (a - destination).toNat < m
  · have h₂ : ¬ (2 ^ 64 - m + (a - destination).toNat) % 2 ^ 64 < n := by omega
    rw [if_neg h₂, if_pos h₁, if_pos (by omega)]
  · have h₂ : (2 ^ 64 - m + (a - destination).toNat) % 2 ^ 64 = (a - destination).toNat - m := by
      have := (a - destination).toNat_lt
      omega
    rw [h₂]
    by_cases h₃ : (a - destination).toNat < m + n
    · have hread : source + UInt64.ofNat m + (a - destination - UInt64.ofNat m)
          = source + (a - destination) := by grind
      have hnot := h.not_lt h₃
      rw [UInt64.ofNat_toNat] at hnot
      rw [if_pos (by omega), if_pos h₃, hread, if_neg (by omega)]
    · rw [if_neg (by omega), if_neg h₁, if_neg h₃]

/-- A buffer that is not written. -/
theorem Holds.memcpy {bytes : List UInt8} (hb : Holds mem p bytes)
    (h : Apart p bytes.length destination n) : Holds (memcpy mem destination source n) p bytes := by
  intro i b hi
  rw [memcpy_of_ne (h i (List.getElem?_eq_some_iff.mp hi).1)]
  exact hb i b hi

end Memory
