import Mathlib.Order.Bounds.Basic
import Mathlib.Data.List.Count

/-!
# The slowest of several counters

Counters that advance by one, one at a time. The least of those in a set advances exactly if the one that
advances is behind all others of the set (`isLeast_advance`); so whoever sees each of them advance can follow
the slowest one from there.
-/

namespace Counters

variable {ι : Type*} [DecidableEq ι] {f : ι → ℕ} {s : Set ι} {i j : ι} {m : ℕ}

/-- The counter `i` advances. -/
def advance (f : ι → ℕ) (i : ι) : ι → ℕ := Function.update f i (f i + 1)

@[simp] theorem advance_self (f : ι → ℕ) (i : ι) : advance f i i = f i + 1 := Function.update_self ..

@[simp] theorem advance_of_ne (f : ι → ℕ) (h : j ≠ i) : advance f i j = f j := Function.update_of_ne h ..

theorem le_advance (f : ι → ℕ) (i j : ι) : f j ≤ advance f i j := by
  by_cases h : j = i
  · subst h
    exact (advance_self f j).symm ▸ Nat.le_succ _
  · exact (advance_of_ne f h).ge

/-- What a list counts advances with an entry at its end. -/
theorem count_append_singleton (as : List ι) (i : ι) :
    (fun k => (as ++ [i]).count k) = advance (fun k => as.count k) i := by
  funext k
  rw [List.count_append, List.count_singleton]
  by_cases h : k = i
  · subst h
    rw [advance_self, if_pos (beq_self_eq_true k)]
  · rw [advance_of_ne _ h, if_neg fun hi => h (beq_iff_eq.mp hi).symm, Nat.add_zero]

/-- The counter `i` of the set is behind all others. -/
def Behind (f : ι → ℕ) (s : Set ι) (i : ι) : Prop := i ∈ s ∧ ∀ j ∈ s, j ≠ i → f i < f j

/-- The one that is behind takes the least value along. -/
theorem Behind.isLeast (h : Behind f s i) (hm : IsLeast (f '' s) m) :
    IsLeast (advance f i '' s) (m + 1) := by
  obtain ⟨hi, hbehind⟩ := h
  obtain ⟨⟨k, hk, rfl⟩, hlower⟩ := hm
  obtain rfl : k = i := by
    by_contra hne
    exact (hbehind k hk hne).not_ge (hlower (Set.mem_image_of_mem f hi))
  refine ⟨⟨k, hk, advance_self f k⟩, ?_⟩
  rintro _ ⟨j, hj, rfl⟩
  by_cases hne : j = k
  · subst hne
    rw [advance_self]
  · rw [advance_of_ne f hne]
    exact hbehind j hj hne

/-- Any other leaves it. -/
theorem isLeast_of_not_behind (h : ¬ Behind f s i) (hm : IsLeast (f '' s) m) :
    IsLeast (advance f i '' s) m := by
  obtain ⟨⟨k, hk, rfl⟩, hlower⟩ := hm
  refine ⟨?_, ?_⟩
  · by_cases hne : k = i
    · subst hne
      -- another one is as far behind
      obtain ⟨j, hj, hjk, hle⟩ : ∃ j ∈ s, j ≠ k ∧ f j ≤ f k := by
        by_contra hnone
        push Not at hnone
        exact h ⟨hk, hnone⟩
      refine ⟨j, hj, ?_⟩
      rw [advance_of_ne f hjk]
      exact le_antisymm hle (hlower (Set.mem_image_of_mem f hj))
    · exact ⟨k, hk, advance_of_ne f hne⟩
  · rintro _ ⟨j, hj, rfl⟩
    exact (hlower (Set.mem_image_of_mem f hj)).trans (le_advance f i j)

/-- **The slowest counter** advances with the one that is behind, and with no other. -/
theorem isLeast_advance (hm : IsLeast (f '' s) m) (i : ι) [Decidable (Behind f s i)] :
    IsLeast (advance f i '' s) (if Behind f s i then m + 1 else m) := by
  split_ifs with h
  · exact h.isLeast hm
  · exact isLeast_of_not_behind h hm

end Counters
