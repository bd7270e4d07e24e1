import Mathlib.Data.List.Basic

/-!
# Writing into a buffer of bounded length

A write that is not to the buffer has no result (`none`), so a function that has a result has written
nothing beyond it. `write_of_le` is for a write to anywhere in the buffer; `write_append` is for one right
after what the buffer already holds, and `write_over` for one over it.
-/

namespace BoundedBuffer

variable {α : Type*}

/-- A buffer after `items` have been written to it from the position `i` on. -/
def write (buffer : List α) (i : ℕ) (items : List α) : Option (List α) :=
  if i + items.length ≤ buffer.length then
    some (buffer.take i ++ items ++ buffer.drop (i + items.length))
  else none

variable {buffer items : List α} {i : ℕ}

/-- A write that is not to the buffer. -/
theorem write_of_lt (h : buffer.length < i + items.length) : write buffer i items = none :=
  if_neg (by omega)

/-- A write to the buffer keeps its length, and what is before. -/
theorem write_of_le (buffer : List α) (i : ℕ) (items : List α) (h : i + items.length ≤ buffer.length) :
    ∃ buffer', write buffer i items = some buffer' ∧ buffer'.length = buffer.length ∧
      buffer'.take (i + items.length) = buffer.take i ++ items := by
  refine ⟨_, if_pos h, ?_, ?_⟩
  · simp only [List.length_append, List.length_take, List.length_drop]
    omega
  · have hlength : i + items.length = (buffer.take i ++ items).length := by
      simp only [List.length_append, List.length_take]
      omega
    rw [hlength, List.take_left]

/-- A write after what the buffer holds. -/
theorem write_append (held rest items : List α) (h : items.length ≤ rest.length) :
    write (held ++ rest) held.length items = some (held ++ items ++ rest.drop items.length) := by
  have hfits : held.length + items.length ≤ (held ++ rest).length := by
    rw [List.length_append]
    omega
  rw [write, if_pos hfits, List.take_left, List.drop_append, List.drop_of_length_le (by omega),
    List.nil_append, Nat.add_sub_cancel_left]

/-- A write over what the buffer holds. -/
theorem write_over (held rest items : List α) (h : items.length = held.length) :
    write (held ++ rest) 0 items = some (items ++ rest) := by
  have hfits : 0 + items.length ≤ (held ++ rest).length := by
    rw [List.length_append]
    omega
  rw [write, if_pos hfits, List.take_zero, List.nil_append, Nat.zero_add, h, List.drop_left]

end BoundedBuffer
