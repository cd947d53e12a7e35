/-
# Little-endian numbers as byte strings

`leBytes n v` are the `n` lowest bytes of `v`, lowest first, and `leValue` reads such a string
back.  Reading back what was written gives the number modulo `256 ^ n`, and writing what was read
gives the string.
-/
import Mathlib.Tactic.Ring

namespace LittleEndian

/-- The `n` lowest bytes of a number, lowest first. -/
def leBytes : Nat → Nat → List UInt8
  | 0, _ => []
  | n + 1, v => v.toUInt8 :: leBytes n (v / 256)

/-- The number that a little-endian byte string stands for. -/
def leValue : List UInt8 → Nat
  | [] => 0
  | b :: bs => b.toNat + 256 * leValue bs

@[simp] theorem length_leBytes : ∀ n v : Nat, (leBytes n v).length = n
  | 0, _ => rfl
  | n + 1, v => by simp [leBytes, length_leBytes n]

theorem leValue_lt : ∀ bs : List UInt8, leValue bs < 256 ^ bs.length
  | [] => by simp [leValue]
  | b :: bs => by
    have hb : b.toNat < 256 := b.toNat_lt
    have ih := leValue_lt bs
    simp only [leValue, List.length_cons, pow_succ]
    omega

theorem leValue_leBytes : ∀ n v : Nat, leValue (leBytes n v) = v % 256 ^ n
  | 0, v => by simp [leBytes, leValue, Nat.mod_one]
  | n + 1, v => by
    rw [leBytes, leValue, leValue_leBytes n, pow_succ, Nat.mul_comm (256 ^ n) 256, Nat.mod_mul]
    simp [Nat.toUInt8]

theorem leBytes_leValue : ∀ bs : List UInt8, leBytes bs.length (leValue bs) = bs
  | [] => rfl
  | b :: bs => by
    have hb : b.toNat < 256 := b.toNat_lt
    have hlow : (b.toNat + 256 * leValue bs).toUInt8 = b := by
      apply UInt8.toNat_inj.mp
      simp only [Nat.toUInt8, UInt8.toNat_ofNat']
      omega
    have hhigh : (b.toNat + 256 * leValue bs) / 256 = leValue bs := by omega
    rw [List.length_cons, leValue, leBytes, hlow, hhigh, leBytes_leValue bs]

end LittleEndian
