/-
# The NEON copy

`include/p3com/utility/helper_functions.hpp`, `neonMemcpy`.  The header has the function twice.
Where the compiler targets NEON, a block of assembly copies 64 bytes a round through four vector
registers, and `std::memcpy` copies what is left; elsewhere the function is `std::memcpy`.  Both
are embedded here, and the first one is proved to leave the memory that the second one leaves.

The block has three operands that it reads and writes: the two pointers, which the load and the
store advance, and the number of rounds, which `subs` counts down.  `bne` goes back to the label as
long as the difference was not zero, and so the body runs before the count is first looked at.
The model takes a bound on the rounds.  The list of clobbered registers is the compiler's concern
and not in the model.
-/
import P3com.Lib.Memory

namespace P3com

open Memory

/-- `ITERATION_SIZE`. -/
def iterationSize : UInt64 := 64

/-- The vector registers `V0.16B` to `V3.16B`. -/
abbrev VectorRegisters := Fin 4 → Fin 16 → UInt8

/-- `LD1` of four registers with post-increment. -/
def ld1 (memory : UInt64 → UInt8) (source : UInt64) : VectorRegisters × UInt64 :=
  (fun v b => memory (source + UInt64.ofNat (16 * v.val + b.val)), source + 64)

/-- `ST1` of four registers with post-increment. -/
def st1 (memory : UInt64 → UInt8) (destination : UInt64) (registers : VectorRegisters) :
    (UInt64 → UInt8) × UInt64 :=
  (fun a =>
    if h : (a - destination).toNat < 64 then
      registers ⟨(a - destination).toNat / 16, by omega⟩ ⟨(a - destination).toNat % 16, by omega⟩
    else memory a,
   destination + 64)

/-- The memory and the operands of the assembly block. -/
structure CopyState where
  memory : UInt64 → UInt8
  source : UInt64
  destination : UInt64
  iterations : UInt64

namespace CopyState

/-- The block from its label to `subs`. -/
def round (s : CopyState) : CopyState :=
  let (registers, source) := ld1 s.memory s.source
  let (memory, destination) := st1 s.memory s.destination registers
  ⟨memory, source, destination, s.iterations - 1⟩

/-- `neon_memcpy_loop`, with a bound on the number of rounds. -/
def neonMemcpyLoop : Nat → CopyState → Option CopyState
  | 0, _ => none
  | fuel + 1, s => if s.round.iterations ≠ 0 then neonMemcpyLoop fuel s.round else some s.round

/-- What follows the block: the bytes that do not fill a round. -/
def copyRemaining (s : CopyState) (size : UInt64) : UInt64 → UInt8 :=
  let remainingSize := size % iterationSize
  if remainingSize ≠ 0 then
    memcpy s.memory s.destination s.source remainingSize.toNat
  else s.memory

end CopyState

/-- `neonMemcpy` where NEON is there. -/
def Neon.neonMemcpy (fuel : Nat) (memory : UInt64 → UInt8) (destination source size : UInt64) :
    Option (UInt64 → UInt8) :=
  let s : CopyState := ⟨memory, source, destination, size / iterationSize⟩
  (if size ≥ iterationSize then s.neonMemcpyLoop fuel else some s).map (·.copyRemaining size)

/-- `neonMemcpy` elsewhere. -/
def Plain.neonMemcpy (memory : UInt64 → UInt8) (destination source size : UInt64) :
    UInt64 → UInt8 :=
  memcpy memory destination source size.toNat

namespace CopyState

/-! ## The loop -/

/-- The state in which `n` more bytes are copied and `iterations` rounds are left. -/
def copied (s : CopyState) (n : Nat) (iterations : UInt64) : CopyState where
  memory := memcpy s.memory s.destination s.source n
  source := s.source + UInt64.ofNat n
  destination := s.destination + UInt64.ofNat n
  iterations := iterations

/-- What is stored is what was loaded. -/
theorem st1_ld1 (memory : UInt64 → UInt8) (destination source : UInt64) :
    (st1 memory destination (ld1 memory source).1).1 = memcpy memory destination source 64 := by
  funext a
  simp only [st1, ld1, memcpy, Nat.div_add_mod, UInt64.ofNat_toNat, dite_eq_ite]

/-- **A round** copies 64 bytes. -/
theorem round_eq (s : CopyState) : s.round = s.copied 64 (s.iterations - 1) := by
  rw [copied, ← st1_ld1]
  rfl

theorem neonMemcpyLoop_succ (fuel : Nat) (s : CopyState) :
    s.neonMemcpyLoop (fuel + 1) =
      if s.iterations - 1 ≠ 0 then (s.copied 64 (s.iterations - 1)).neonMemcpyLoop fuel
      else some (s.copied 64 (s.iterations - 1)) := by
  rw [neonMemcpyLoop, round_eq]
  rfl

/-- A copy of 64 bytes and then one of `n` bytes. -/
theorem copied_copied {s : CopyState} {n : Nat} {k l : UInt64}
    (h : Apart s.source (64 + n) s.destination (64 + n)) (hlt : 64 + n < 2 ^ 64) :
    (s.copied 64 k).copied n l = s.copied (64 + n) l := by
  simp only [copied, memcpy_memcpy h hlt, UInt64.ofNat_add, UInt64.add_assoc]

/-- **The loop** copies 64 bytes for each round, and it ends when they are done. -/
theorem neonMemcpyLoop_eq (extra k : Nat) (s : CopyState)
    (hk : s.iterations = UInt64.ofNat (k + 1)) (hlt : 64 * (k + 1) < 2 ^ 64)
    (h : Apart s.source (64 * (k + 1)) s.destination (64 * (k + 1))) :
    s.neonMemcpyLoop (k + 1 + extra) = some (s.copied (64 * (k + 1)) 0) := by
  -- on the rounds that are left; the next one starts where the first 64 bytes end
  induction k generalizing s with
  | zero =>
    rw [Nat.zero_add, Nat.add_comm, neonMemcpyLoop_succ, hk]
    exact if_neg (fun hne => hne rfl)
  | succ k ih =>
    have hne : UInt64.ofNat (k + 1) ≠ 0 := by
      intro heq
      have hnat := congrArg UInt64.toNat heq
      rw [toNat_ofNat (by omega)] at hnat
      exact Nat.succ_ne_zero k hnat
    have hsize : 64 * (k + 1 + 1) = 64 + 64 * (k + 1) := by omega
    rw [hsize] at h hlt ⊢
    have hrest : Apart (s.source + UInt64.ofNat 64) (64 * (k + 1))
        (s.destination + UInt64.ofNat 64) (64 * (k + 1)) :=
      ((h.part le_rfl).symm.part le_rfl).symm
    have hnext := ih (s.copied 64 (UInt64.ofNat (k + 1))) rfl (by omega) hrest
    rw [Nat.add_right_comm, neonMemcpyLoop_succ, hk, ofNat_succ_sub_one, if_pos hne, hnext,
      copied_copied h hlt]

/-- The remaining bytes are those after the last whole round; none is a copy of none. -/
theorem copyRemaining_eq (s : CopyState) (size : UInt64) :
    s.copyRemaining size = memcpy s.memory s.destination s.source (size.toNat % 64) := by
  have hmod : (size % iterationSize).toNat = size.toNat % 64 := UInt64.toNat_mod size iterationSize
  simp only [copyRemaining, ← hmod]
  split
  · rfl
  · rename_i hzero
    rw [not_ne_iff.mp hzero]
    exact memcpy_zero.symm

end CopyState

/-! ## The copy -/

/-- The two versions leave the same memory. -/
theorem neon_neonMemcpy_eq (memory : UInt64 → UInt8) (destination source size : UInt64)
    (h : Apart source size.toNat destination size.toNat) (extra : Nat) :
    Neon.neonMemcpy (size.toNat / 64 + extra) memory destination source size
      = some (Plain.neonMemcpy memory destination source size) := by
  have hlt := size.toNat_lt
  simp only [Neon.neonMemcpy, Plain.neonMemcpy]
  by_cases hge : size ≥ iterationSize
  · have hnat : 64 ≤ size.toNat := hge
    obtain ⟨k, hk⟩ : ∃ k, size.toNat / 64 = k + 1 := ⟨size.toNat / 64 - 1, by omega⟩
    have hsplit : 64 * (k + 1) + size.toNat % 64 = size.toNat := by omega
    have hiterations : size / iterationSize = UInt64.ofNat (k + 1) := by
      rw [← hk, ← UInt64.toNat_inj, toNat_ofNat (by omega)]
      exact UInt64.toNat_div size iterationSize
    rw [← hsplit] at h
    have hloop := CopyState.neonMemcpyLoop_eq extra k
      ⟨memory, source, destination, size / iterationSize⟩ hiterations (by omega)
      (h.mono (by omega) (by omega))
    rw [if_pos hge, hk, hloop, Option.map_some, CopyState.copyRemaining_eq]
    simp only [CopyState.copied]
    rw [memcpy_memcpy h (by omega), hsplit]
  · have hnat : size.toNat < 64 := Nat.lt_of_not_le hge
    rw [if_neg hge, Option.map_some, CopyState.copyRemaining_eq, Nat.mod_eq_of_lt hnat]

/-- **The NEON copy is the plain copy.**  Between regions that do not overlap it ends with as many
rounds as there are whole 64 bytes, the destination then holds the bytes of the source, and no
other byte has changed. -/
theorem neon_copy_equals_plain (memory : UInt64 → UInt8) (destination source size : UInt64)
    (h : Apart source size.toNat destination size.toNat) (extra : Nat) :
    ∃ memory',
      Neon.neonMemcpy (size.toNat / 64 + extra) memory destination source size = some memory' ∧
      memory' = Plain.neonMemcpy memory destination source size ∧
      (∀ i < size.toNat,
        memory' (destination + UInt64.ofNat i) = memory (source + UInt64.ofNat i)) ∧
      ∀ a, (∀ i < size.toNat, a ≠ destination + UInt64.ofNat i) → memory' a = memory a := by
  refine ⟨_, neon_neonMemcpy_eq memory destination source size h extra, rfl, ?_, ?_⟩
  · intro i hi
    exact memcpy_apply (Nat.le_of_lt size.toNat_lt) hi
  · intro a ha
    exact memcpy_of_ne ha

/-- Two rounds and two more bytes. -/
theorem neon_copy_of_two_rounds :
    Apart 1000 130 5000 130 ∧
    ∃ memory', Neon.neonMemcpy 2 (fun a => a.toUInt8) 5000 1000 130 = some memory' ∧
      memory' 5128 = 104 ∧ memory' 5130 = 10 := by
  have h : Apart 1000 130 5000 130 := apart_of_le (by decide) (by decide)
  obtain ⟨memory', hrun, -, hcopied, hother⟩ :=
    neon_copy_equals_plain (fun a => a.toUInt8) 5000 1000 130 h 0
  refine ⟨h, memory', hrun, hcopied 128 (by decide), hother 5130 ?_⟩
  intro i hi heq
  have hnat := congrArg UInt64.toNat heq
  have hlt : i < 130 := hi
  rw [UInt64.toNat_add, toNat_ofNat (by omega)] at hnat
  change 5130 = (5000 + i) % 2 ^ 64 at hnat
  omega

end P3com
