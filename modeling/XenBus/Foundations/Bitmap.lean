import Mathlib.Logic.Function.Basic
import Mathlib.Data.Nat.Notation

/-!
# Words of bits, and bitmaps of words

A word of `w` bits is a `BitVec w`; `setBit` and `clearBit` change one bit of it. A bitmap is a
family of words, and its bit `i` is bit `i % w` of word `i / w`. `get` reads a bit; after a change of one
bit, that bit has changed and the others have not.
-/

namespace Bitmap

variable {w : ℕ}

/-! ## Words -/

/-- The word with the bit set. -/
def setBit (Mask : BitVec w) (Bit : ℕ) : BitVec w := Mask ||| BitVec.twoPow w Bit

/-- The word with the bit clear. -/
def clearBit (Mask : BitVec w) (Bit : ℕ) : BitVec w := Mask &&& ~~~BitVec.twoPow w Bit

theorem getLsbD_setBit (m : BitVec w) (i j : ℕ) :
    (setBit m i).getLsbD j = (m.getLsbD j || decide (i < w) && decide (i = j)) := by
  rw [setBit, BitVec.getLsbD_or, BitVec.getLsbD_twoPow]

theorem getLsbD_clearBit (m : BitVec w) (i j : ℕ) :
    (clearBit m i).getLsbD j = (m.getLsbD j && !decide (i = j)) := by
  rw [clearBit, BitVec.getLsbD_and, BitVec.getLsbD_not, BitVec.getLsbD_twoPow]
  by_cases hj : j < w
  · by_cases hij : i = j
    · subst hij
      simp [hj]
    · simp [hj, hij]
  · simp [BitVec.getLsbD_of_ge m j (by omega)]

theorem getLsbD_setBit_self (m : BitVec w) {i : ℕ} (h : i < w) : (setBit m i).getLsbD i = true := by
  simp [getLsbD_setBit, h]

/-- Setting a bit clears none. -/
theorem getLsbD_setBit_of_getLsbD {m : BitVec w} {j : ℕ} (h : m.getLsbD j = true) (i : ℕ) :
    (setBit m i).getLsbD j = true := by
  rw [getLsbD_setBit, h, Bool.true_or]

theorem getLsbD_clearBit_of_ne {m : BitVec w} {i j : ℕ} (h : i ≠ j) :
    (clearBit m i).getLsbD j = m.getLsbD j := by
  simp [getLsbD_clearBit, h]

theorem getLsbD_clearBit_self (m : BitVec w) (i : ℕ) : (clearBit m i).getLsbD i = false := by
  simp [getLsbD_clearBit]

theorem ne_zero_of_getLsbD {m : BitVec w} {i : ℕ} (h : m.getLsbD i = true) : m ≠ 0#w := by
  rintro rfl
  simp at h

/-! ## Bitmaps -/

/-- The bit of the bitmap. -/
def get (map : ℕ → BitVec w) (i : ℕ) : Bool := (map (i / w)).getLsbD (i % w)

/-- The bitmap with the bit set. -/
def set (map : ℕ → BitVec w) (i : ℕ) : ℕ → BitVec w :=
  Function.update map (i / w) (setBit (map (i / w)) (i % w))

/-- The bitmap with the bit clear. -/
def clear (map : ℕ → BitVec w) (i : ℕ) : ℕ → BitVec w :=
  Function.update map (i / w) (clearBit (map (i / w)) (i % w))

/-- The bitmap with the bit as given. -/
def put (map : ℕ → BitVec w) (i : ℕ) (b : Bool) : ℕ → BitVec w :=
  if b then set map i else clear map i

theorem ne_of_div_eq {i j : ℕ} (h : i ≠ j) (hdiv : j / w = i / w) : i % w ≠ j % w := by
  intro hmod
  apply h
  rw [← Nat.div_add_mod i w, ← Nat.div_add_mod j w, hdiv, hmod]

theorem get_set_self (map : ℕ → BitVec w) (i : ℕ) (hw : 0 < w) : get (set map i) i = true := by
  rw [get, set, Function.update_self]
  exact getLsbD_setBit_self _ (Nat.mod_lt i hw)

theorem get_set_of_ne (map : ℕ → BitVec w) {i j : ℕ} (h : i ≠ j) : get (set map i) j = get map j := by
  by_cases hdiv : j / w = i / w
  · rw [get, set, get, hdiv, Function.update_self, getLsbD_setBit,
      decide_eq_false (ne_of_div_eq h hdiv), Bool.and_false, Bool.or_false]
  · rw [get, set, get, Function.update_of_ne hdiv]

theorem get_clear_self (map : ℕ → BitVec w) (i : ℕ) : get (clear map i) i = false := by
  rw [get, clear, Function.update_self, getLsbD_clearBit_self]

theorem get_clear_of_ne (map : ℕ → BitVec w) {i j : ℕ} (h : i ≠ j) :
    get (clear map i) j = get map j := by
  by_cases hdiv : j / w = i / w
  · rw [get, clear, get, hdiv, Function.update_self, getLsbD_clearBit_of_ne (ne_of_div_eq h hdiv)]
  · rw [get, clear, get, Function.update_of_ne hdiv]

theorem get_put_of_ne (map : ℕ → BitVec w) {i j : ℕ} (h : i ≠ j) (b : Bool) :
    get (put map i b) j = get map j := by
  cases b
  · exact get_clear_of_ne map h
  · exact get_set_of_ne map h

end Bitmap
