import Mathlib.Data.Int.Init
import Mathlib.Tactic.Linarith

/-!
# Machine integers

Fixed-width integers of the C code are `ℤ` (signed) and `ℕ` (unsigned) with the wrap written out:
a signed type wraps by `long32`, `long64`, an unsigned one by `% 2 ^ 32`, `% 2 ^ 64`. The wrap is the
identity on the values of the type, which is how the proofs get rid of it.
-/

namespace MachineInt

/-- The 32-bit signed value that `x` wraps to. -/
def long32 (x : ℤ) : ℤ := (x + 2147483648) % 4294967296 - 2147483648

/-- The 64-bit signed value that `x` wraps to. -/
def long64 (x : ℤ) : ℤ := (x + 9223372036854775808) % 18446744073709551616 - 9223372036854775808

/-- The 64-bit unsigned value that the signed `x` converts to. -/
def ulong64 (x : ℤ) : ℕ := (x % 18446744073709551616).toNat

/-- The 32-bit unsigned difference of two 32-bit unsigned values. -/
def ulongSub (x y : ℕ) : ℕ := if y ≤ x then x - y else x + 4294967296 - y

theorem ulongSub_of_le {x y : ℕ} (h : y ≤ x) : ulongSub x y = x - y := if_pos h

theorem long32_of_mem {x : ℤ} (h : -2147483648 ≤ x) (h' : x < 2147483648) : long32 x = x := by
  unfold long32
  omega

theorem long64_of_mem {x : ℤ} (h : -9223372036854775808 ≤ x) (h' : x < 9223372036854775808) :
    long64 x = x := by
  unfold long64
  omega

theorem ulong64_of_mem {x : ℤ} (h : 0 ≤ x) (h' : x < 18446744073709551616) :
    (ulong64 x : ℤ) = x := by
  unfold ulong64
  omega

end MachineInt
