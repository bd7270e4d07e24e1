import Mathlib.Data.Nat.Digits.Defs

/-!
# Numbers in memory

A number of `n` bytes, the lowest first, is read from a position of a memory. A read that is not in the memory has
no result (`none`).
-/

namespace LittleEndian

/-- The number of `n` bytes at the position `i`. -/
def number (memory : List UInt8) (i n : ℕ) : Option ℕ :=
  if i + n ≤ memory.length then some (Nat.ofDigits 256 (((memory.drop i).take n).map UInt8.toNat)) else none

variable {memory : List UInt8} {i n m : ℕ}

theorem number_isSome : (number memory i n).isSome ↔ i + n ≤ memory.length := by
  unfold number
  split_ifs with h <;> simp [h]

theorem exists_number (h : i + n ≤ memory.length) : ∃ m, number memory i n = some m :=
  Option.isSome_iff_exists.mp (number_isSome.mpr h)

theorem number_lt (h : number memory i n = some m) : m < 256 ^ n := by
  unfold number at h
  split_ifs at h with hle
  obtain rfl := Option.some.inj h
  have hlength : (((memory.drop i).take n).map UInt8.toNat).length = n := by
    rw [List.length_map, List.length_take, List.length_drop]
    omega
  have hlt := Nat.ofDigits_lt_base_pow_length (b := 256) (l := ((memory.drop i).take n).map UInt8.toNat)
    (by decide) fun x hx => ?_
  · rwa [hlength] at hlt
  · obtain ⟨b, -, rfl⟩ := List.mem_map.mp hx
    exact b.toNat_lt

/-- What is read from a copy of the first bytes. -/
theorem number_take {k : ℕ} (hle : i + n ≤ k) (hk : k ≤ memory.length) :
    number (memory.take k) i n = number memory i n := by
  have hcopy : (memory.take k).length = k := List.length_take_of_le hk
  rw [number, number, if_pos (by omega), if_pos (by omega), List.drop_take, List.take_take]
  have hmin : min n (k - i) = n := by omega
  rw [hmin]

end LittleEndian
