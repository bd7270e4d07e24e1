import Mathlib.Data.List.Nodup
import Mathlib.Data.List.Perm.Basic
import Mathlib.Data.List.Range
import Mathlib.Logic.Equiv.Basic
import Mathlib.Tactic.Linarith

/-!
# The scratch array of the balloon

`Context->PfnArray` as a function of the index. `BalloonSort` sorts its first entries with a heap, and
`BalloonFreePages` hands them back in runs of consecutive page frame numbers; neither loses a page
(`balloonSort_perm`, `pages_balloonFreePages`).
-/

namespace XenBus.Balloon

/-- An array of page frame numbers. -/
abbrev PfnArray := ℕ → ℕ

/-- The first `n` entries. -/
def pfns (Pfn : PfnArray) (n : ℕ) : List ℕ := (List.range n).map Pfn

theorem length_pfns (Pfn : PfnArray) (n : ℕ) : (pfns Pfn n).length = n := by
  rw [pfns, List.length_map, List.length_range]

theorem take_pfns (Pfn : PfnArray) {m n : ℕ} (h : m ≤ n) : (pfns Pfn n).take m = pfns Pfn m := by
  rw [pfns, ← List.map_take, List.take_range, min_eq_left h]
  rfl

theorem pfns_add (Pfn : PfnArray) (m n : ℕ) :
    pfns Pfn (m + n) = pfns Pfn m ++ pfns (fun k => Pfn (m + k)) n := by
  rw [pfns, List.range_add, List.map_append, List.map_map]
  rfl

theorem pfns_congr {Pfn Pfn' : PfnArray} {n : ℕ} (h : ∀ k < n, Pfn' k = Pfn k) :
    pfns Pfn' n = pfns Pfn n :=
  List.map_congr_left fun k hk => h k (List.mem_range.mp hk)

/-! ## Sorting -/

/-- `SWAP_NODES`. -/
def swapNodes (Pfn : PfnArray) (X Y : ℕ) (k : ℕ) : ℕ :=
  if k = X then Pfn Y else if k = Y then Pfn X else Pfn k

/-- `BalloonHeapPushDown`; every round moves `Start` up, so `Count` rounds are enough. -/
def balloonHeapPushDown (Count : ℕ) : (fuel : ℕ) → (Heap : PfnArray) → (Start : ℕ) → PfnArray
  | 0, Heap, _ => Heap
  | fuel + 1, Heap, Start =>
    let LeftChild := Start * 2 + 1
    let RightChild := Start * 2 + 2
    if RightChild < Count then
      if Heap LeftChild < Heap Start ∧ Heap RightChild < Heap Start then Heap
      else if Heap LeftChild < Heap Start ∧ Heap RightChild > Heap Start then
        balloonHeapPushDown Count fuel (swapNodes Heap RightChild Start) RightChild
      else if Heap RightChild < Heap Start ∧ Heap LeftChild > Heap Start then
        balloonHeapPushDown Count fuel (swapNodes Heap LeftChild Start) LeftChild
      else if Heap LeftChild > Heap RightChild then
        balloonHeapPushDown Count fuel (swapNodes Heap LeftChild Start) LeftChild
      else balloonHeapPushDown Count fuel (swapNodes Heap RightChild Start) RightChild
    else if LeftChild < Count then
      if Heap LeftChild < Heap Start then Heap
      else balloonHeapPushDown Count fuel (swapNodes Heap LeftChild Start) LeftChild
    else Heap

/-- The loop of `BalloonCreateHeap`, `while (--Index >= 0)`. -/
def balloonCreateHeap (Count : ℕ) : (Index : ℕ) → PfnArray → PfnArray
  | 0, Pfn => Pfn
  | Index + 1, Pfn => balloonCreateHeap Count Index (balloonHeapPushDown Count Count Pfn Index)

/-- The loop of `BalloonSort` over `Unsorted`. -/
def sortUnsorted : (Unsorted : ℕ) → PfnArray → PfnArray
  | 0, Pfn => Pfn
  | Unsorted + 1, Pfn =>
    sortUnsorted Unsorted (balloonHeapPushDown Unsorted Unsorted (swapNodes Pfn 0 Unsorted) 0)

/-- `BalloonSort`. -/
def balloonSort (Pfn : PfnArray) (Count : ℕ) : PfnArray :=
  sortUnsorted Count (balloonCreateHeap Count Count Pfn)

/-- Two entries change places. -/
theorem swapNodes_perm (Pfn : PfnArray) {X Y n : ℕ} (hX : X < n) (hY : Y < n) :
    (pfns (swapNodes Pfn X Y) n).Perm (pfns Pfn n) := by
  have hswap : swapNodes Pfn X Y = Pfn ∘ Equiv.swap X Y := by
    funext k
    rw [swapNodes, Function.comp_apply, Equiv.swap_apply_def]
    split_ifs <;> rfl
  have hrange : ((List.range n).map (Equiv.swap X Y)).Perm (List.range n) := by
    refine (List.perm_ext_iff_of_nodup ?_ List.nodup_range).mpr fun k => ?_
    · exact List.Nodup.map (Equiv.swap X Y).injective List.nodup_range
    · rw [List.mem_map, List.mem_range]
      have hin : ∀ k, k < n → Equiv.swap X Y k < n := fun k hk => by
        rw [Equiv.swap_apply_def]
        split_ifs <;> assumption
      constructor
      · rintro ⟨j, hj, rfl⟩
        exact hin j (List.mem_range.mp hj)
      · intro hk
        exact ⟨Equiv.swap X Y k, List.mem_range.mpr (hin k hk), Equiv.swap_apply_self X Y k⟩
  rw [pfns, hswap, ← List.map_map]
  exact hrange.map Pfn

theorem balloonHeapPushDown_perm {Count n : ℕ} (hn : Count ≤ n) (fuel : ℕ) (Heap : PfnArray)
    (Start : ℕ) : (pfns (balloonHeapPushDown Count fuel Heap Start) n).Perm (pfns Heap n) := by
  induction fuel generalizing Heap Start with
  | zero => exact .refl _
  | succ fuel ih =>
    have hswap : ∀ Child, Child < Count → Start < Child →
        (pfns (balloonHeapPushDown Count fuel (swapNodes Heap Child Start) Child) n).Perm
          (pfns Heap n) := fun Child hChild hlt =>
      (ih _ _).trans (swapNodes_perm Heap (by omega) (by omega))
    rw [balloonHeapPushDown]
    split_ifs with hright
    · exact .refl _
    · exact hswap _ hright (by omega)
    · exact hswap _ (by omega) (by omega)
    · exact hswap _ (by omega) (by omega)
    · exact hswap _ hright (by omega)
    · exact .refl _
    · exact hswap _ (by omega) (by omega)
    · exact .refl _

theorem balloonCreateHeap_perm (Count Index : ℕ) (Pfn : PfnArray) :
    (pfns (balloonCreateHeap Count Index Pfn) Count).Perm (pfns Pfn Count) := by
  induction Index generalizing Pfn with
  | zero => exact .refl _
  | succ Index ih => exact (ih _).trans (balloonHeapPushDown_perm le_rfl _ _ _)

theorem sortUnsorted_perm {Unsorted n : ℕ} (hn : Unsorted ≤ n) (Pfn : PfnArray) :
    (pfns (sortUnsorted Unsorted Pfn) n).Perm (pfns Pfn n) := by
  induction Unsorted generalizing Pfn with
  | zero => exact .refl _
  | succ Unsorted ih =>
    refine (ih (by omega) _).trans ((balloonHeapPushDown_perm (by omega) _ _ _).trans ?_)
    exact swapNodes_perm Pfn (by omega) (by omega)

/-- **`BalloonSort` permutes the entries that it sorts.** -/
theorem balloonSort_perm (Pfn : PfnArray) (Count : ℕ) :
    (pfns (balloonSort Pfn Count) Count).Perm (pfns Pfn Count) :=
  (sortUnsorted_perm le_rfl _).trans (balloonCreateHeap_perm Count Count Pfn)

/-! The entries from `Count` on stay as they are. -/

theorem swapNodes_of_le (Pfn : PfnArray) {X Y n k : ℕ} (hX : X < n) (hY : Y < n) (hk : n ≤ k) :
    swapNodes Pfn X Y k = Pfn k := by
  rw [swapNodes, if_neg (by omega), if_neg (by omega)]

theorem balloonHeapPushDown_of_le {Count k : ℕ} (hk : Count ≤ k) (fuel : ℕ) (Heap : PfnArray)
    (Start : ℕ) : balloonHeapPushDown Count fuel Heap Start k = Heap k := by
  induction fuel generalizing Heap Start with
  | zero => rfl
  | succ fuel ih =>
    have hswap : ∀ Child, Child < Count → Start < Child →
        balloonHeapPushDown Count fuel (swapNodes Heap Child Start) Child k = Heap k :=
      fun Child hChild hlt => (ih _ _).trans (swapNodes_of_le Heap hChild (by omega) hk)
    rw [balloonHeapPushDown]
    split_ifs with hright
    · rfl
    · exact hswap _ hright (by omega)
    · exact hswap _ (by omega) (by omega)
    · exact hswap _ (by omega) (by omega)
    · exact hswap _ hright (by omega)
    · rfl
    · exact hswap _ (by omega) (by omega)
    · rfl

theorem balloonCreateHeap_of_le {Count k : ℕ} (hk : Count ≤ k) (Index : ℕ) (Pfn : PfnArray) :
    balloonCreateHeap Count Index Pfn k = Pfn k := by
  induction Index generalizing Pfn with
  | zero => rfl
  | succ Index ih => exact (ih _).trans (balloonHeapPushDown_of_le hk _ _ _)

theorem sortUnsorted_of_le {Unsorted k : ℕ} (hk : Unsorted ≤ k) (Pfn : PfnArray) :
    sortUnsorted Unsorted Pfn k = Pfn k := by
  induction Unsorted generalizing Pfn with
  | zero => rfl
  | succ Unsorted ih =>
    refine (ih (by omega) _).trans ((balloonHeapPushDown_of_le (by omega) _ _ _).trans ?_)
    exact swapNodes_of_le Pfn (Nat.succ_pos _) (Nat.lt_succ_self _) hk

theorem balloonSort_of_le (Pfn : PfnArray) {Count k : ℕ} (hk : Count ≤ k) :
    balloonSort Pfn Count k = Pfn k :=
  (sortUnsorted_of_le hk _).trans (balloonCreateHeap_of_le hk Count Pfn)

/-! ## Handing pages back -/

/-- The inner loop of `BalloonFreePages`: the end of the run of consecutive pages from `RangeStart` on. -/
def rangeEnd (Pfn : PfnArray) (RangeStart Count : ℕ) : (fuel : ℕ) → (RangeEnd : ℕ) → ℕ
  | 0, RangeEnd => RangeEnd
  | fuel + 1, RangeEnd =>
    if RangeEnd < Count then
      if Pfn RangeEnd ≠ Pfn RangeStart + (RangeEnd - RangeStart) then RangeEnd
      else rangeEnd Pfn RangeStart Count fuel (RangeEnd + 1)
    else RangeEnd

/-- `BalloonFreePages`: the calls of `MmAddPhysicalMemory`, with the first page and the number of pages.
They succeed. -/
def balloonFreePages (Pfn : PfnArray) (Count : ℕ) : (fuel : ℕ) → (RangeStart : ℕ) → List (ℕ × ℕ)
  | 0, _ => []
  | fuel + 1, RangeStart =>
    if RangeStart < Count then
      let RangeEnd := rangeEnd Pfn RangeStart Count Count RangeStart
      (Pfn RangeStart, RangeEnd - RangeStart) :: balloonFreePages Pfn Count fuel RangeEnd
    else []

/-- The pages of calls of `MmAddPhysicalMemory`. -/
def pages (calls : List (ℕ × ℕ)) : List ℕ :=
  (calls.map fun call => (List.range call.2).map (call.1 + ·)).flatten

theorem rangeEnd_spec (Pfn : PfnArray) (fuel : ℕ) {RangeStart Count RangeEnd : ℕ} (hend : RangeEnd ≤ Count)
    (hrun : ∀ k, RangeStart ≤ k → k < RangeEnd → Pfn k = Pfn RangeStart + (k - RangeStart)) :
    RangeEnd ≤ rangeEnd Pfn RangeStart Count fuel RangeEnd ∧
      rangeEnd Pfn RangeStart Count fuel RangeEnd ≤ Count ∧
      ∀ k, RangeStart ≤ k → k < rangeEnd Pfn RangeStart Count fuel RangeEnd →
        Pfn k = Pfn RangeStart + (k - RangeStart) := by
  induction fuel generalizing RangeEnd with
  | zero => exact ⟨le_rfl, hend, hrun⟩
  | succ fuel ih =>
    rw [rangeEnd]
    split_ifs with hlt hne
    · exact ⟨le_rfl, hend, hrun⟩
    · have hnext : ∀ k, RangeStart ≤ k → k < RangeEnd + 1 →
          Pfn k = Pfn RangeStart + (k - RangeStart) := fun k hk hk' => by
        by_cases heq : k = RangeEnd
        · rw [heq]
          exact not_not.mp hne
        · exact hrun k hk (by omega)
      have hlt' : RangeEnd + 1 ≤ Count := hlt
      obtain ⟨hle, hle', hrun'⟩ := ih hlt' hnext
      exact ⟨by omega, hle', hrun'⟩
    · exact ⟨le_rfl, hend, hrun⟩

/-- A run has at least one page. -/
theorem lt_rangeEnd (Pfn : PfnArray) {RangeStart Count : ℕ} (h : RangeStart < Count) :
    RangeStart < rangeEnd Pfn RangeStart Count Count RangeStart := by
  obtain ⟨fuel, rfl⟩ : ∃ fuel, Count = fuel + 1 := ⟨Count - 1, by omega⟩
  rw [rangeEnd, if_pos h, if_neg (by rw [Nat.sub_self]; simp)]
  have hrun : ∀ k, RangeStart ≤ k → k < RangeStart + 1 →
      Pfn k = Pfn RangeStart + (k - RangeStart) := fun k hk hk' => by
    obtain rfl : k = RangeStart := by omega
    rw [Nat.sub_self, Nat.add_zero]
  exact (rangeEnd_spec Pfn fuel h hrun).1

/-- **`BalloonFreePages` hands back each entry of the array once.** -/
theorem pages_balloonFreePages (Pfn : PfnArray) {Count fuel RangeStart : ℕ}
    (hfuel : Count ≤ RangeStart + fuel) :
    pages (balloonFreePages Pfn Count fuel RangeStart) = (pfns Pfn Count).drop RangeStart := by
  induction fuel generalizing RangeStart with
  | zero =>
    rw [List.drop_of_length_le (by rw [length_pfns]; omega)]
    rfl
  | succ fuel ih =>
    rw [balloonFreePages]
    by_cases hlt : RangeStart < Count
    · rw [if_pos hlt]
      have hpos := lt_rangeEnd Pfn hlt
      obtain ⟨-, hle, hrun⟩ := rangeEnd_spec Pfn Count hlt.le
        (fun k hk hk' => absurd hk' (not_lt.mpr hk))
      obtain ⟨n, hn⟩ := Nat.exists_eq_add_of_lt hpos
      dsimp only
      rw [hn] at hle hrun ⊢
      have hfirst : (List.range (RangeStart + n + 1 - RangeStart)).map (Pfn RangeStart + ·) =
          pfns (fun k => Pfn (RangeStart + k)) (n + 1) := by
        rw [show RangeStart + n + 1 - RangeStart = n + 1 by omega]
        refine List.map_congr_left fun k hk => ?_
        have hk' := List.mem_range.mp hk
        rw [hrun (RangeStart + k) (by omega) (by omega), Nat.add_sub_cancel_left]
      have hdrop : (pfns Pfn Count).drop RangeStart =
          pfns (fun k => Pfn (RangeStart + k)) (n + 1) ++ (pfns Pfn Count).drop (RangeStart + n + 1) := by
        obtain ⟨m, rfl⟩ := Nat.exists_eq_add_of_le hle
        rw [Nat.add_assoc RangeStart, Nat.add_assoc RangeStart, pfns_add, pfns_add,
          List.drop_left' (length_pfns _ _), ← List.append_assoc,
          List.drop_left' (by rw [List.length_append, length_pfns, length_pfns])]
      rw [hdrop, ← ih (by omega), ← hfirst]
      rfl
    · rw [if_neg hlt, List.drop_of_length_le (by rw [length_pfns]; omega)]
      rfl

end XenBus.Balloon
