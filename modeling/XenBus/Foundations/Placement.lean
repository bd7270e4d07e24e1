import Mathlib.Data.List.Basic
import Mathlib.Data.List.Nodup
import Mathlib.Logic.Function.Basic
import Mathlib.Logic.Equiv.Basic

/-!
# Items in places

A family of lists (`f k` is what the place `k` holds) over which items move: an item is in one place
at most, and once, and while it is in one it carries a mark. That is the discipline of a flag that is
set before an item is queued and cleared after it has left the queue: whoever sets a mark that was
clear may place the item (`Tracked.add`), an item changes its place with its mark set (`Tracked.move`),
and it is nowhere after it has left its place (`Tracked.drop`).

`Move` is what one step can do to items that have a way to go: one of them goes on to a next place, all
items of a place go on together, or a new one arrives.
-/

namespace Placement

variable {κ α : Type*}

/-- Every item is in one place at most, once, and with its mark set. -/
structure Tracked (f : κ → List α) (Mark : α → Prop) : Prop where
  nodup : ∀ k, (f k).Nodup
  apart : ∀ k k' x, x ∈ f k → x ∈ f k' → k = k'
  mark : ∀ k x, x ∈ f k → Mark x

variable {f f' : κ → List α} {Mark Mark' : α → Prop} {x : α} {i j : κ}

namespace Tracked

/-- An item without its mark is nowhere. -/
theorem not_mem (h : Tracked f Mark) (hx : ¬ Mark x) (k : κ) : x ∉ f k :=
  fun hmem => hx (h.mark k x hmem)

/-- Each place keeps what it holds. -/
theorem congr (h : Tracked f Mark) (hf : ∀ k, (f' k).Perm (f k))
    (hmark : ∀ k y, y ∈ f k → Mark y → Mark' y) : Tracked f' Mark' where
  nodup k := (hf k).nodup_iff.mpr (h.nodup k)
  apart k k' y hk hk' := h.apart k k' y ((hf k).mem_iff.mp hk) ((hf k').mem_iff.mp hk')
  mark k y hk :=
    have hy := (hf k).mem_iff.mp hk
    hmark k y hy (h.mark k y hy)

/-- An item that is nowhere gets a place and its mark. -/
theorem add (h : Tracked f Mark) (hx : ∀ k, x ∉ f k) (hj : (f' j).Perm (x :: f j))
    (hother : ∀ k, k ≠ j → f' k = f k) (hmark : Mark' x) (hmarks : ∀ y, y ≠ x → Mark y → Mark' y) :
    Tracked f' Mark' := by
  have hmem : ∀ k y, y ∈ f' k → y = x ∧ k = j ∨ y ≠ x ∧ y ∈ f k := by
    intro k y hy
    have hne : y ∈ f k → y ≠ x := fun hk hyx => hx k (hyx ▸ hk)
    by_cases hkj : k = j
    · subst hkj
      obtain rfl | hk := List.mem_cons.mp (hj.mem_iff.mp hy)
      · exact .inl ⟨rfl, rfl⟩
      · exact .inr ⟨hne hk, hk⟩
    · rw [hother k hkj] at hy
      exact .inr ⟨hne hy, hy⟩
  refine ⟨fun k => ?_, fun k k' y hk hk' => ?_, fun k y hk => ?_⟩
  · by_cases hkj : k = j
    · subst hkj
      exact hj.nodup_iff.mpr (List.nodup_cons.mpr ⟨hx k, h.nodup k⟩)
    · rw [hother k hkj]
      exact h.nodup k
  · obtain ⟨hy, rfl⟩ | ⟨hy, hk⟩ := hmem k y hk
    · obtain ⟨-, rfl⟩ | ⟨hy', -⟩ := hmem k' y hk'
      · rfl
      · exact absurd hy hy'
    · obtain ⟨hy', -⟩ | ⟨-, hk'⟩ := hmem k' y hk'
      · exact absurd hy' hy
      · exact h.apart k k' y hk hk'
  · obtain ⟨rfl, -⟩ | ⟨hy, hk⟩ := hmem k y hk
    · exact hmark
    · exact hmarks y hy (h.mark k y hk)

/-- After an item has left its place, it is nowhere, and its mark may go. -/
theorem drop (h : Tracked f Mark) (hi : (f i).Perm (x :: f' i))
    (hother : ∀ k, k ≠ i → f' k = f k) (hmarks : ∀ y, y ≠ x → Mark y → Mark' y) :
    Tracked f' Mark' ∧ ∀ k, x ∉ f' k := by
  have hx : x ∈ f i := hi.mem_iff.mpr List.mem_cons_self
  have hnodup := List.nodup_cons.mp (hi.nodup_iff.mp (h.nodup i))
  have hsub : ∀ k y, y ∈ f' k → y ∈ f k := by
    intro k y hy
    by_cases hki : k = i
    · subst hki
      exact hi.mem_iff.mpr (List.mem_cons_of_mem _ hy)
    · exact hother k hki ▸ hy
  have hnone : ∀ k, x ∉ f' k := by
    intro k hk
    obtain rfl := h.apart k i x (hsub k x hk) hx
    exact hnodup.1 hk
  refine ⟨⟨fun k => ?_, fun k k' y hk hk' => h.apart k k' y (hsub k y hk) (hsub k' y hk'),
    fun k y hk => hmarks y (fun hyx => hnone k (hyx ▸ hk)) (h.mark k y (hsub k y hk))⟩, hnone⟩
  by_cases hki : k = i
  · subst hki
    exact hnodup.2
  · rw [hother k hki]
    exact h.nodup k

/-- An item goes from one place to another. -/
theorem move [DecidableEq κ] (h : Tracked f Mark) (hij : i ≠ j) (hi : (f i).Perm (x :: f' i))
    (hj : (f' j).Perm (x :: f j)) (hother : ∀ k, k ≠ i → k ≠ j → f' k = f k)
    (hmark : ∀ y, Mark y → Mark' y) : Tracked f' Mark' := by
  have hx : x ∈ f i := hi.mem_iff.mpr List.mem_cons_self
  -- the item leaves its place first, and arrives then
  obtain ⟨hg, hnone⟩ : Tracked (Function.update f i (f' i)) Mark' ∧
      ∀ k, x ∉ Function.update f i (f' i) k := by
    apply h.drop (i := i)
    · rwa [Function.update_self]
    · exact fun k hk => Function.update_of_ne hk _ _
    · exact fun y _ => hmark y
  apply hg.add hnone (j := j)
  · rwa [Function.update_of_ne hij.symm]
  · intro k hkj
    by_cases hki : k = i
    · rw [hki, Function.update_self]
    · rw [Function.update_of_ne hki, hother k hki hkj]
  · exact hmark x (h.mark i x hx)
  · exact fun _ _ hy => hy

end Tracked

/-- A step: nothing moves, an item or all items of a place go on to a next one, or an item is new. -/
inductive Move (Next : κ → κ → Prop) (Mark' : α → Prop) (f f' : κ → List α) : Prop
  | same (h : ∀ k, f' k = f k)
  | one (x : α) (i j : κ) (hnext : Next i j) (hij : i ≠ j) (hi : (f i).Perm (x :: f' i))
      (hj : (f' j).Perm (x :: f j)) (hother : ∀ k, k ≠ i → k ≠ j → f' k = f k)
  | all (i j : κ) (hnext : Next i j) (hij : i ≠ j) (hj : f j = []) (hi' : f' i = []) (hj' : f' j = f i)
      (hother : ∀ k, k ≠ i → k ≠ j → f' k = f k)
  | new (x : α) (j : κ) (hx : ∀ k, x ∉ f k) (hj : (f' j).Perm (x :: f j))
      (hother : ∀ k, k ≠ j → f' k = f k) (hmark : Mark' x)

namespace Move

variable {Next : κ → κ → Prop}

/-- An item goes on, as two places are updated. -/
theorem of_update [DecidableEq κ] {l l' : List α} (hnext : Next i j) (hij : i ≠ j)
    (hi : (f i).Perm (x :: l)) (hj : l'.Perm (x :: f j)) :
    Move Next Mark' f (Function.update (Function.update f j l') i l) := by
  apply Move.one x i j hnext hij
  · rwa [Function.update_self]
  · rwa [Function.update_of_ne hij.symm, Function.update_self]
  · intro k hki hkj
    rw [Function.update_of_ne hki, Function.update_of_ne hkj]

/-- Where an item was, and where it is then. -/
theorem place (h : Move Next Mark' f f') {k : κ} (hk : x ∈ f' k) :
    x ∈ f k ∨ (∃ i, Next i k ∧ x ∈ f i) ∨ Mark' x ∧ ∀ k, x ∉ f k := by
  cases h with
  | same h => exact .inl (h k ▸ hk)
  | one y i j hnext hij hi hj hother =>
    by_cases hki : k = i
    · rw [hki] at hk ⊢
      exact .inl (hi.mem_iff.mpr (List.mem_cons_of_mem _ hk))
    by_cases hkj : k = j
    · subst hkj
      obtain rfl | hk := List.mem_cons.mp (hj.mem_iff.mp hk)
      · exact .inr (.inl ⟨i, hnext, hi.mem_iff.mpr List.mem_cons_self⟩)
      · exact .inl hk
    · exact .inl (hother k hki hkj ▸ hk)
  | all i j hnext hij hj hi' hj' hother =>
    by_cases hki : k = i
    · rw [hki, hi'] at hk
      cases hk
    by_cases hkj : k = j
    · subst hkj
      exact .inr (.inl ⟨i, hnext, hj' ▸ hk⟩)
    · exact .inl (hother k hki hkj ▸ hk)
  | new y j hy hj hother hmark =>
    by_cases hkj : k = j
    · subst hkj
      obtain rfl | hk := List.mem_cons.mp (hj.mem_iff.mp hk)
      · exact .inr (.inr ⟨hmark, hy⟩)
      · exact .inl hk
    · exact .inl (hother k hkj ▸ hk)

/-- No item is lost. -/
theorem kept (h : Move Next Mark' f f') {k : κ} (hk : x ∈ f k) : ∃ k', x ∈ f' k' := by
  cases h with
  | same h => exact ⟨k, (h k).symm ▸ hk⟩
  | one y i j _ _ hi hj hother =>
    by_cases hki : k = i
    · subst hki
      obtain rfl | hk := List.mem_cons.mp (hi.mem_iff.mp hk)
      · exact ⟨j, hj.mem_iff.mpr List.mem_cons_self⟩
      · exact ⟨k, hk⟩
    by_cases hkj : k = j
    · subst hkj
      exact ⟨k, hj.mem_iff.mpr (List.mem_cons_of_mem _ hk)⟩
    · exact ⟨k, (hother k hki hkj).symm ▸ hk⟩
  | all i j _ _ hj hi' hj' hother =>
    by_cases hki : k = i
    · subst hki
      exact ⟨j, hj'.symm ▸ hk⟩
    by_cases hkj : k = j
    · rw [hkj, hj] at hk
      cases hk
    · exact ⟨k, (hother k hki hkj).symm ▸ hk⟩
  | new y j _ hj hother _ =>
    by_cases hkj : k = j
    · subst hkj
      exact ⟨k, hj.mem_iff.mpr (List.mem_cons_of_mem _ hk)⟩
    · exact ⟨k, (hother k hkj).symm ▸ hk⟩

/-- An item goes on to a next place, or stays. -/
theorem next (h : Move Next Mark' f f') (hf : Tracked f Mark) {k k' : κ} (hk : x ∈ f k)
    (hk' : x ∈ f' k') : k = k' ∨ Next k k' := by
  obtain hx | ⟨i, hnext, hx⟩ | ⟨-, hx⟩ := h.place hk'
  · exact .inl (hf.apart k k' x hk hx)
  · exact .inr (hf.apart k i x hk hx ▸ hnext)
  · exact absurd hk (hx k)

/-- A step keeps every item in one place at most. -/
theorem tracked [DecidableEq κ] (h : Move Next Mark' f f') (hf : Tracked f Mark)
    (hmark : ∀ y, Mark y → Mark' y) : Tracked f' Mark' := by
  cases h with
  | same h => exact hf.congr (fun k => h k ▸ List.Perm.refl _) fun _ y _ => hmark y
  | one y i j _ hij hi hj hother => exact hf.move hij hi hj hother hmark
  | all i j _ hij hj hi' hj' hother =>
    -- the two places have changed their roles
    have hswap : f' = f ∘ Equiv.swap i j := by
      funext k
      by_cases hki : k = i
      · rw [hki, Function.comp_apply, Equiv.swap_apply_left, hi', hj]
      by_cases hkj : k = j
      · rw [hkj, Function.comp_apply, Equiv.swap_apply_right, hj']
      · rw [Function.comp_apply, Equiv.swap_apply_of_ne_of_ne hki hkj, hother k hki hkj]
    subst hswap
    exact ⟨fun k => hf.nodup _, fun k k' y hk hk' => (Equiv.swap i j).injective (hf.apart _ _ y hk hk'),
      fun k y hk => hmark y (hf.mark _ y hk)⟩
  | new y j hy hj hother hmarked => exact hf.add hy hj hother hmarked fun _ _ => hmark _

end Move

end Placement
