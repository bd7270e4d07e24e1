import Mathlib.Data.Finset.Basic
import Mathlib.Data.Int.ConditionallyCompleteOrder
import Mathlib.Data.Int.Interval
import Mathlib.Data.List.Pairwise
import Mathlib.Tactic.Linarith

/-!
# Extents of an interval

Extents that have been handed out of the interval `[0, N)`, and the set of the integers that are left
(`Laid`). One that is contained in what is left can be handed out (`Laid.take`), and any of them can be given
back (`Laid.give`).
-/

/-- `count` integers from `first` on. -/
structure Extent where
  first : ℤ
  count : ℕ

namespace Extent

/-- The integers of the extent. -/
noncomputable def items (e : Extent) : Finset ℤ := Finset.Icc e.first (e.first + e.count - 1)

theorem mem_items {e : Extent} {x : ℤ} : x ∈ e.items ↔ e.first ≤ x ∧ x < e.first + e.count := by
  rw [items, Finset.mem_Icc]
  omega

/-- The extents have no integer in common. -/
def Apart (e e' : Extent) : Prop := Disjoint e.items e'.items

/-- The extents have been handed out of `[0, N)`, and `S` is what is left. -/
structure Laid (N : ℕ) (l : List Extent) (S : Finset ℤ) : Prop where
  pos : ∀ e ∈ l, 0 < e.count
  within : ∀ e ∈ l, 0 ≤ e.first ∧ e.first + e.count ≤ N
  apart : l.Pairwise Apart
  left : ∀ x, x ∈ S ↔ 0 ≤ x ∧ x < N ∧ ∀ e ∈ l, x ∉ e.items

variable {N : ℕ} {l : List Extent} {S : Finset ℤ} {e : Extent}

theorem laid_nil (h : ∀ x, x ∈ S ↔ 0 ≤ x ∧ x < N) : Laid N [] S where
  pos := by simp
  within := by simp
  apart := .nil
  left := by simpa using h

/-- An extent is apart from what is left. -/
theorem Laid.disjoint (h : Laid N l S) (he : e ∈ l) : Disjoint S e.items := by
  rw [Finset.disjoint_left]
  exact fun x hx => ((h.left x).mp hx).2.2 e he

/-- **An extent of what is left is handed out.** -/
theorem Laid.take (h : Laid N l S) (hpos : 0 < e.count) (he : e.items ⊆ S) : Laid N (e :: l) (S \ e.items) := by
  have hfirst := (h.left _).mp (he (mem_items.mpr ⟨le_refl e.first, by omega⟩))
  have hlast := (h.left _).mp (he (mem_items.mpr
    (⟨by omega, by omega⟩ : e.first ≤ e.first + e.count - 1 ∧ e.first + e.count - 1 < e.first + e.count)))
  constructor
  case pos => exact List.forall_mem_cons.mpr ⟨hpos, h.pos⟩
  case within => exact List.forall_mem_cons.mpr ⟨⟨hfirst.1, by omega⟩, h.within⟩
  case apart =>
    refine List.pairwise_cons.mpr ⟨fun e' he' => ?_, h.apart⟩
    exact Disjoint.mono_left he (h.disjoint he')
  case left =>
    intro x
    rw [Finset.mem_sdiff, h.left, List.forall_mem_cons]
    exact ⟨fun ⟨⟨h0, hN, hl⟩, hx⟩ => ⟨h0, hN, hx, hl⟩, fun ⟨h0, hN, hx, hl⟩ => ⟨⟨h0, hN, hl⟩, hx⟩⟩

/-- **An extent is given back.** -/
theorem Laid.give {k : ℕ} (h : Laid N l S) (hk : l[k]? = some e) :
    Laid N (l.eraseIdx k) (S ∪ e.items) := by
  obtain ⟨hlt, rfl⟩ := List.getElem?_eq_some_iff.mp hk
  have hsub : ∀ e' ∈ l.eraseIdx k, e' ∈ l := fun _ => (List.eraseIdx_sublist l k).mem
  have hperm : (l[k] :: l.eraseIdx k).Perm l := List.getElem_cons_eraseIdx_perm hlt
  have hapart := (List.pairwise_cons.mp ((hperm.pairwise_iff fun h => Disjoint.symm h).mpr h.apart)).1
  have hwithin := h.within _ (List.getElem_mem hlt)
  constructor
  case pos => exact fun e' he' => h.pos e' (hsub e' he')
  case within => exact fun e' he' => h.within e' (hsub e' he')
  case apart => exact h.apart.sublist (List.eraseIdx_sublist l k)
  case left =>
    intro x
    have hall : (∀ e' ∈ l, x ∉ e'.items) ↔ x ∉ l[k].items ∧ ∀ e' ∈ l.eraseIdx k, x ∉ e'.items := by
      simp only [← hperm.mem_iff, List.mem_cons, forall_eq_or_imp]
    rw [Finset.mem_union, h.left, hall]
    constructor
    · rintro (⟨h0, hN, -, hl⟩ | hx)
      · exact ⟨h0, hN, hl⟩
      · have hx' := mem_items.mp hx
        exact ⟨by omega, by omega, fun e' he' => Finset.disjoint_left.mp (hapart e' he') hx⟩
    · rintro ⟨h0, hN, hl⟩
      by_cases hx : x ∈ l[k].items
      · exact .inr hx
      · exact .inl ⟨h0, hN, hx, hl⟩

end Extent
