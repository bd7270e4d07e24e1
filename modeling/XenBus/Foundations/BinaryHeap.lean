import Mathlib.Logic.Equiv.Basic
import Mathlib.Order.Lattice
import Mathlib.Order.Nat

/-!
# Binary heaps in an array

A heap is a function of the index of which the first `n` entries are looked at: the children of the entry at
`p` are at `p * 2 + 1` and `p * 2 + 2`. `MaxHeap H n p` says that no entry of the subtree at `p` is less than
its children.

* `MaxHeap.le_root`: the entry at the root is the largest of its subtree.
* `MaxHeap.sift`: a root that is less than one of its children changes places with the larger one, and is
  then moved down in the subtree of that child.
* `MaxHeap.pop`: the root changes places with the last entry, which is then left out.
-/

namespace BinaryHeap

variable {α : Type*}

/-- The entry at `c` is a child of the one at `p`. -/
def IsChild (c p : ℕ) : Prop := c = p * 2 + 1 ∨ c = p * 2 + 2

/-- The indices of the subtree at `p`. -/
inductive Below (p : ℕ) : ℕ → Prop
  | refl : Below p p
  | child {i c : ℕ} (h : Below p i) (hc : IsChild c i) : Below p c

variable {n p i c d : ℕ}

theorem IsChild.lt (h : IsChild c p) : p < c := by
  rcases h with rfl | rfl <;> omega

/-- A child has one parent. -/
theorem IsChild.unique (h : IsChild c p) (h' : IsChild c i) : p = i := by
  rcases h with rfl | rfl <;> rcases h' with h' | h' <;> omega

/-- Every entry but the first is a child. -/
theorem exists_isChild (h : 0 < c) : ∃ p, IsChild c p := by
  refine ⟨(c - 1) / 2, ?_⟩
  unfold IsChild
  omega

theorem Below.le (h : Below p i) : p ≤ i := by
  induction h with
  | refl => exact le_rfl
  | child _ hc ih => exact ih.trans hc.lt.le

theorem Below.trans (h : Below p i) (h' : Below i c) : Below p c := by
  induction h' with
  | refl => exact h
  | child _ hc ih => exact ih.child hc

theorem IsChild.below (h : IsChild c p) : Below p c := Below.refl.child h

/-- An entry of a subtree is its root or in the subtree of one of the root's children. -/
theorem Below.root_or (h : Below p i) : i = p ∨ ∃ c, IsChild c p ∧ Below c i := by
  induction h with
  | refl => exact .inl rfl
  | child _ hc ih =>
    rcases ih with rfl | ⟨d, hd, hbelow⟩
    · exact .inr ⟨_, hc, .refl⟩
    · exact .inr ⟨d, hd, hbelow.child hc⟩

/-- The subtrees of two children of an entry have nothing in common. -/
theorem Below.disjoint (hc : IsChild c p) (hd : IsChild d p) (hne : c ≠ d) (h : Below c i) : ¬ Below d i := by
  induction h with
  | refl =>
    intro hbelow
    cases hbelow with
    | refl => exact hne rfl
    | child hbelow hchild =>
      have hparent := hchild.unique hc
      subst hparent
      have := hbelow.le
      have := hd.lt
      omega
  | child hci hchild ih =>
    intro hbelow
    cases hbelow with
    | refl =>
      have hparent := hchild.unique hd
      subst hparent
      have := hci.le
      have := hc.lt
      omega
    | child hbelow hchild' => exact ih (hchild.unique hchild' ▸ hbelow)

/-- Of two subtrees with an entry in common one is in the other. -/
theorem Below.of_le (hp : Below p i) (hd : Below d i) (hle : p ≤ d) : Below p d := by
  induction hd with
  | refl => exact hp
  | child hd hc ih =>
    cases hp with
    | refl => exact absurd (hle.trans hd.le) (not_le.2 hc.lt)
    | child hp hc' => exact ih (hc'.unique hc ▸ hp)

/-- Every entry is in the subtree of the first one. -/
theorem below_zero (i : ℕ) : Below 0 i := by
  induction i using Nat.strong_induction_on with
  | _ i ih =>
    rcases Nat.eq_zero_or_pos i with rfl | hpos
    · exact .refl
    · obtain ⟨p, hp⟩ := exists_isChild hpos
      exact (ih p hp.lt).child hp

/-- The root changes places with a child. -/
theorem swap_of_below {H : ℕ → α} (hc : IsChild c p) (hd : IsChild d p) (hi : Below d i) (hne : i ≠ c) :
    (H ∘ Equiv.swap c p) i = H i := by
  have hp : i ≠ p := by
    rintro rfl
    have := hi.le
    have := hd.lt
    omega
  rw [Function.comp_apply, Equiv.swap_apply_of_ne_of_ne hne hp]

/-! ## Order -/

section Order

variable [LinearOrder α] {H H' R : ℕ → α}

/-- **The max-heap property** of the subtree at `p`, in the first `n` entries. -/
def MaxHeap (H : ℕ → α) (n p : ℕ) : Prop := ∀ i c, Below p i → IsChild c i → c < n → H c ≤ H i

theorem MaxHeap.child (h : MaxHeap H n p) (hc : IsChild c p) : MaxHeap H n c :=
  fun i d hi => h i d (hc.below.trans hi)

/-- The subtree only depends on its own entries. -/
theorem MaxHeap.congr (h : MaxHeap H n p) (heq : ∀ i, Below p i → i < n → R i = H i) : MaxHeap R n p := by
  intro i c hi hc hlt
  rw [heq c (hi.child hc) hlt, heq i hi (hc.lt.trans hlt)]
  exact h i c hi hc hlt

/-- The first entries of a heap are a heap. -/
theorem MaxHeap.anti {m : ℕ} (h : MaxHeap H n p) (hm : m ≤ n) : MaxHeap H m p :=
  fun i c hi hc hlt => h i c hi hc (hlt.trans_le hm)

/-- The root is the largest entry. -/
theorem MaxHeap.le_root (h : MaxHeap H n p) (hi : Below p i) (hlt : i < n) : H i ≤ H p := by
  induction hi with
  | refl => exact le_rfl
  | child hi hc ih => exact (h _ _ hi hc hlt).trans (ih (hc.lt.trans hlt))

/-- A subtree beyond the entries that are looked at. -/
theorem maxHeap_of_le (H : ℕ → α) (h : n ≤ p * 2 + 1) : MaxHeap H n p := by
  intro i c hi hc hlt
  have := hi.le
  rcases hc with rfl | rfl <;> omega

/-- A subtree whose root is not less than its children, the subtrees of which are heaps. -/
theorem maxHeap_of_children (hroot : ∀ c, IsChild c p → c < n → H c ≤ H p)
    (hchild : ∀ c, IsChild c p → MaxHeap H n c) : MaxHeap H n p := by
  intro i c hi hc hlt
  rcases hi.root_or with rfl | ⟨d, hd, hbelow⟩
  · exact hroot c hc hlt
  · exact hchild d hd i c hbelow hc hlt

/-- What moving the root of the subtree at `p` down keeps: the other entries, and every upper bound of those
of the subtree. -/
structure Sifted (H R : ℕ → α) (n p : ℕ) : Prop where
  outside : ∀ i, ¬ Below p i → R i = H i
  bounded : ∀ b, (∀ i, Below p i → i < n → H i ≤ b) → ∀ i, Below p i → i < n → R i ≤ b

theorem Sifted.refl (H : ℕ → α) (n p : ℕ) : Sifted H H n p := ⟨fun _ _ => rfl, fun _ h => h⟩

/-- **A root that changes places with its largest child, and is then moved down from there.** -/
theorem MaxHeap.sift (hc : IsChild c p) (hlt : c < n) (hsub : ∀ d, IsChild d p → MaxHeap H n d)
    (hmax : ∀ d, IsChild d p → d < n → H d ≤ H c) (hless : H p ≤ H c)
    (hR : (∀ d, IsChild d c → MaxHeap (H ∘ Equiv.swap c p) n d) → MaxHeap R n c)
    (hkeep : Sifted (H ∘ Equiv.swap c p) R n c) : MaxHeap R n p ∧ Sifted H R n p := by
  have hswap : ∀ i, Below p i → i < n → (H ∘ Equiv.swap c p) i ≤ H c := by
    intro i hi hin
    by_cases hic : i = c
    · rw [hic, Function.comp_apply, Equiv.swap_apply_left]
      exact hless
    · rcases hi.root_or with rfl | ⟨d, hd, hbelow⟩
      · rw [Function.comp_apply, Equiv.swap_apply_right]
      · rw [swap_of_below hc hd hbelow hic]
        exact ((hsub d hd).le_root hbelow hin).trans (hmax d hd (hbelow.le.trans_lt hin))
  have hheap : MaxHeap R n c := by
    refine hR fun d hd => ((hsub c hc).child hd).congr fun i hi _ => swap_of_below hc hc (hd.below.trans hi) ?_
    rintro rfl
    have := hi.le
    have := hd.lt
    omega
  have hnot : ¬ Below c p := fun h => absurd h.le (not_le.2 hc.lt)
  have hroot : R p = H c := by
    rw [hkeep.outside p hnot, Function.comp_apply, Equiv.swap_apply_right]
  have hother : ∀ d, IsChild d p → d ≠ c → ∀ i, Below d i → R i = H i := by
    intro d hd hne i hi
    have hout := hi.disjoint hd hc hne
    rw [hkeep.outside i hout]
    refine swap_of_below hc hd hi ?_
    rintro rfl
    exact hout .refl
  constructor
  · refine maxHeap_of_children ?_ ?_
    · intro d hd hdn
      rw [hroot]
      by_cases hdc : d = c
      · rw [hdc]
        exact hkeep.bounded _ (fun i hi hin => hswap i (hc.below.trans hi) hin) c .refl hlt
      · rw [hother d hd hdc d .refl]
        exact hmax d hd hdn
    · intro d hd
      by_cases hdc : d = c
      · rw [hdc]
        exact hheap
      · exact (hsub d hd).congr fun i hi _ => hother d hd hdc i hi
  · constructor
    · intro i hi
      have hp : i ≠ p := fun h => hi (h ▸ .refl)
      have hic : i ≠ c := fun h => hi (h ▸ hc.below)
      rw [hkeep.outside i fun h => hi (hc.below.trans h), Function.comp_apply,
        Equiv.swap_apply_of_ne_of_ne hic hp]
    · intro b hb i hi hin
      have hcb := hb c hc.below hlt
      by_cases hbelow : Below c i
      · exact hkeep.bounded b (fun j hj hjn => (hswap j (hc.below.trans hj) hjn).trans hcb) i hbelow hin
      · rw [hkeep.outside i hbelow]
        exact (hswap i hi hin).trans hcb

/-- **The root of the heap changes places with the last entry, and is left out.** What is left is a heap but
for its root, and nothing in it is more than what was left out. -/
theorem MaxHeap.pop (h : MaxHeap H (n + 1) 0) :
    (∀ d, IsChild d 0 → MaxHeap (H ∘ Equiv.swap 0 n) n d) ∧
      ∀ i, i < n → (H ∘ Equiv.swap 0 n) i ≤ (H ∘ Equiv.swap 0 n) n := by
  constructor
  · intro d hd
    refine ((h.child hd).anti (Nat.le_succ n)).congr fun i hi hin => ?_
    have hpos := hd.lt.trans_le hi.le
    rw [Function.comp_apply, Equiv.swap_apply_of_ne_of_ne (by omega) (by omega)]
  · intro i hin
    rw [Function.comp_apply, Function.comp_apply, Equiv.swap_apply_right]
    rcases Nat.eq_zero_or_pos i with rfl | hpos
    · rw [Equiv.swap_apply_left]
      exact h.le_root (below_zero n) (Nat.lt_succ_self n)
    · rw [Equiv.swap_apply_of_ne_of_ne (by omega) (by omega)]
      exact h.le_root (below_zero i) (by omega)

end Order

end BinaryHeap
