import XenBus.Balloon.Model
import XenBus.Foundations.BinaryHeap

/-!
# The heap sort of the balloon

`BalloonHeapPushDown`, `BalloonCreateHeap` and `BalloonSort` with their assertions, and with a bound on what
they access: there is no result if an entry outside the array is read or written, if an assertion fails, or
if the loop is not done within its `fuel`. Indices are `ULONG`s.

`balloonHeapPushDownChecked_eq` and its successors say that none of this happens as long as the entries are
distinct, and that the result is that of the functions of `XenBus.Balloon.PfnArray`; what these come to is
then a matter of heaps (`BinaryHeap.MaxHeap`).
-/

namespace XenBus.Balloon

open BinaryHeap MachineInt

/-! ## The checked functions -/

/-- An access to the array, and nothing else. -/
def access (size k : ℕ) : Option Unit := if k < size then some () else none

/-- `ASSERT`. -/
def require (condition : Prop) [Decidable condition] : Option Unit := if condition then some () else none

/-- `SWAP_NODES`, and the assertion after it that the entries are now in order. -/
def swapNodesChecked (size : ℕ) (Heap : PfnArray) (X Y : ℕ) : Option PfnArray := do
  access size Y
  access size X
  let Heap := swapNodes Heap X Y
  require (Heap X < Heap Y)
  return Heap

/-- `BalloonHeapPushDown`, on an array of `size` entries. -/
def balloonHeapPushDownChecked (size Count : ℕ) :
    (fuel : ℕ) → (Heap : PfnArray) → (Start : ℕ) → Option PfnArray
  | 0, _, _ => none
  | fuel + 1, Heap, Start => do
    let again (Heap : PfnArray) (Child : ℕ) : Option PfnArray := do
      let Heap ← swapNodesChecked size Heap Child Start
      balloonHeapPushDownChecked size Count fuel Heap Child
    let LeftChild := (Start * 2 + 1) % 4294967296
    let RightChild := (Start * 2 + 2) % 4294967296
    if RightChild < Count then
      access size LeftChild
      access size RightChild
      access size Start
      require (Heap LeftChild ≠ Heap Start)
      require (Heap RightChild ≠ Heap Start)
      require (Heap LeftChild ≠ Heap RightChild)
      if Heap LeftChild < Heap Start ∧ Heap RightChild < Heap Start then return Heap
      else if Heap LeftChild < Heap Start ∧ Heap RightChild > Heap Start then again Heap RightChild
      else if Heap RightChild < Heap Start ∧ Heap LeftChild > Heap Start then again Heap LeftChild
      else if Heap LeftChild > Heap RightChild then again Heap LeftChild
      else again Heap RightChild
    else if LeftChild < Count then
      access size LeftChild
      access size Start
      require (Heap LeftChild ≠ Heap Start)
      if Heap LeftChild < Heap Start then return Heap
      else again Heap LeftChild
    else return Heap

/-- The loop of `BalloonCreateHeap`, `while (--Index >= 0)`. -/
def balloonCreateHeapChecked (Count : ℕ) : (Index : ℕ) → PfnArray → Option PfnArray
  | 0, Pfn => some Pfn
  | Index + 1, Pfn => do
    let Pfn ← balloonHeapPushDownChecked Count Count (Count + 1) Pfn Index
    balloonCreateHeapChecked Count Index Pfn

/-- The loop of `BalloonSort` over `Unsorted`, on an array of `size` entries. -/
def sortUnsortedChecked (size : ℕ) : (Unsorted : ℕ) → PfnArray → Option PfnArray
  | 0, Pfn => some Pfn
  | Unsorted + 1, Pfn => do
    access size Unsorted
    access size 0
    let Pfn ← balloonHeapPushDownChecked size Unsorted (Unsorted + 1) (swapNodes Pfn 0 Unsorted) 0
    sortUnsortedChecked size Unsorted Pfn

/-- The loop of `BalloonSort` over its assertions, for `n` entries from `Index` on. -/
def assertAscending (size : ℕ) (Pfn : PfnArray) : (n : ℕ) → (Index : ℕ) → Option Unit
  | 0, _ => some ()
  | n + 1, Index => do
    access size Index
    access size (Index + 1)
    require (Pfn Index < Pfn (Index + 1))
    assertAscending size Pfn n (Index + 1)

/-- `BalloonSort`. -/
def balloonSortChecked (Pfn : PfnArray) (Count : ℕ) : Option PfnArray := do
  let Pfn ← balloonCreateHeapChecked Count Count Pfn
  let Pfn ← sortUnsortedChecked Count Count Pfn
  assertAscending Count Pfn (ulongSub Count 1) 0
  return Pfn

variable {Pfn Heap : PfnArray} {Count size n m fuel Start Child k : ℕ}

theorem access_of_lt (h : k < size) : access size k = some () := if_pos h

theorem require_of {condition : Prop} [Decidable condition] (h : condition) : require condition = some () :=
  if_pos h

/-! ## Distinct entries -/

/-- The first `n` entries are distinct. -/
def Distinct (Pfn : PfnArray) (n : ℕ) : Prop := ∀ i < n, ∀ j < n, Pfn i = Pfn j → i = j

theorem distinct_iff : Distinct Pfn n ↔ (pfns Pfn n).Nodup := by
  rw [pfns, List.nodup_map_iff_inj_on List.nodup_range]
  simp only [List.mem_range]
  rfl

theorem Distinct.perm {Pfn' : PfnArray} (h : Distinct Pfn n) (hperm : (pfns Pfn' n).Perm (pfns Pfn n)) :
    Distinct Pfn' n := distinct_iff.2 (hperm.nodup_iff.2 (distinct_iff.1 h))

theorem Distinct.ne {i j : ℕ} (h : Distinct Pfn n) (hi : i < n) (hj : j < n) (hne : i ≠ j) : Pfn i ≠ Pfn j :=
  fun heq => hne (h i hi j hj heq)

theorem swapNodes_eq (Pfn : PfnArray) (X Y : ℕ) : swapNodes Pfn X Y = Pfn ∘ Equiv.swap X Y := by
  funext k
  rw [swapNodes, Function.comp_apply, Equiv.swap_apply_def]
  split_ifs <;> rfl

/-! ## Pushing down -/

theorem swapNodesChecked_eq (hChild : Child < size) (hlt : Start < Child) (hgreater : Heap Start < Heap Child) :
    swapNodesChecked size Heap Child Start = some (swapNodes Heap Child Start) := by
  have horder : swapNodes Heap Child Start Child < swapNodes Heap Child Start Start := by
    simp only [swapNodes, if_true, if_neg hlt.ne]
    exact hgreater
  rw [swapNodesChecked, access_of_lt (hlt.trans hChild), access_of_lt hChild]
  simp only [require_of horder, Option.bind_eq_bind, Option.bind_some, Option.pure_def]

/-- **No assertion of `BalloonHeapPushDown` fails, it stays in the array, and it ends**, however much more
fuel it is given. -/
theorem balloonHeapPushDownChecked_eq (hCount : Count ≤ pfnArraySize) (hsize : Count ≤ size) (hn : size ≤ n)
    (hdistinct : Distinct Heap n) (hStart : Start ≤ pfnArraySize) (hfuel : Count ≤ Start + fuel) (hm : fuel < m) :
    balloonHeapPushDownChecked size Count m Heap Start = some (balloonHeapPushDown Count fuel Heap Start) := by
  have hbound : pfnArraySize = 8192 := rfl
  induction m generalizing Heap Start fuel with
  | zero => omega
  | succ m ih =>
    have hleft : (Start * 2 + 1) % 4294967296 = Start * 2 + 1 := Nat.mod_eq_of_lt (by omega)
    have hright : (Start * 2 + 2) % 4294967296 = Start * 2 + 2 := Nat.mod_eq_of_lt (by omega)
    rw [balloonHeapPushDownChecked, hleft, hright]
    cases fuel with
    | zero =>
      rw [balloonHeapPushDown, if_neg (by omega), if_neg (by omega)]
      rfl
    | succ fuel =>
      have hagain : ∀ Child, Start < Child → Child < Count → Heap Start < Heap Child →
          (swapNodesChecked size Heap Child Start).bind
              (fun Heap => balloonHeapPushDownChecked size Count m Heap Child) =
            some (balloonHeapPushDown Count fuel (swapNodes Heap Child Start) Child) := by
        intro Child hlt hChild hgreater
        rw [swapNodesChecked_eq (by omega) hlt hgreater, Option.bind_some]
        refine ih ?_ (by omega) (by omega) (by omega)
        exact hdistinct.perm (swapNodes_perm Heap (by omega) (by omega))
      have hne : ∀ i < Count, ∀ j < Count, i ≠ j → Heap i ≠ Heap j := fun i hi j hj =>
        hdistinct.ne (by omega) (by omega)
      rw [balloonHeapPushDown]
      by_cases hRight : Start * 2 + 2 < Count
      · have hls := hne (Start * 2 + 1) (by omega) Start (by omega) (by omega)
        have hrs := hne (Start * 2 + 2) (by omega) Start (by omega) (by omega)
        have hlr := hne (Start * 2 + 1) (by omega) (Start * 2 + 2) (by omega) (by omega)
        simp only [if_pos hRight, access_of_lt (show Start * 2 + 1 < size by omega),
          access_of_lt (show Start * 2 + 2 < size by omega), access_of_lt (show Start < size by omega),
          require_of hls, require_of hrs, require_of hlr, Option.bind_eq_bind, Option.bind_some,
          Option.pure_def]
        split_ifs with h1 h2 h3 h4
        · rfl
        · exact hagain _ (by omega) hRight h2.2
        · exact hagain _ (by omega) (by omega) h3.2
        · exact hagain _ (by omega) (by omega) (by omega)
        · exact hagain _ (by omega) hRight (by omega)
      · by_cases hLeft : Start * 2 + 1 < Count
        · have hls := hne (Start * 2 + 1) hLeft Start (by omega) (by omega)
          simp only [if_neg hRight, if_pos hLeft, access_of_lt (show Start * 2 + 1 < size by omega),
            access_of_lt (show Start < size by omega), require_of hls, Option.bind_eq_bind,
            Option.bind_some, Option.pure_def]
          split_ifs with h1
          · rfl
          · exact hagain _ (by omega) hLeft (by omega)
        · simp only [if_neg hRight, if_neg hLeft, Option.pure_def]

/-- **`BalloonHeapPushDown` restores the max-heap property** of a subtree whose child subtrees have it, and
only moves entries of that subtree. -/
theorem balloonHeapPushDown_maxHeap (hfuel : Count ≤ Start + fuel)
    (hsub : ∀ Child, IsChild Child Start → MaxHeap Heap Count Child) :
    MaxHeap (balloonHeapPushDown Count fuel Heap Start) Count Start ∧
      Sifted Heap (balloonHeapPushDown Count fuel Heap Start) Count Start := by
  induction fuel generalizing Heap Start with
  | zero => exact ⟨maxHeap_of_le _ (by omega), .refl _ _ _⟩
  | succ fuel ih =>
    have hagain : ∀ Child, IsChild Child Start → Child < Count →
        (∀ c, IsChild c Start → c < Count → Heap c ≤ Heap Child) → Heap Start ≤ Heap Child →
        MaxHeap (balloonHeapPushDown Count fuel (swapNodes Heap Child Start) Child) Count Start ∧
          Sifted Heap (balloonHeapPushDown Count fuel (swapNodes Heap Child Start) Child) Count Start := by
      intro Child hChild hlt hmax hless
      have hgreater := hChild.lt
      rw [swapNodes_eq]
      have hdown : ∀ d, IsChild d Child → MaxHeap (Heap ∘ Equiv.swap Child Start) Count d := by
        intro d hd
        refine ((hsub Child hChild).child hd).congr fun i hi _ => ?_
        refine swap_of_below hChild hChild (hd.below.trans hi) ?_
        rintro rfl
        exact absurd hi.le (not_le.2 hd.lt)
      obtain ⟨hheap, hkeep⟩ := ih (show Count ≤ Child + fuel by omega) hdown
      exact MaxHeap.sift hChild hlt hsub hmax hless (fun _ => hheap) hkeep
    have hstop : (∀ c, IsChild c Start → c < Count → Heap c ≤ Heap Start) →
        MaxHeap Heap Count Start ∧ Sifted Heap Heap Count Start := fun hroot =>
      ⟨maxHeap_of_children hroot hsub, .refl _ _ _⟩
    have hleft : IsChild (Start * 2 + 1) Start := .inl rfl
    have hright : IsChild (Start * 2 + 2) Start := .inr rfl
    rw [balloonHeapPushDown]
    by_cases hRight : Start * 2 + 2 < Count
    · simp only [if_pos hRight]
      split_ifs with h1 h2 h3 h4
      · refine hstop ?_
        rintro c (rfl | rfl) - <;> omega
      · refine hagain _ hright hRight ?_ (by omega)
        rintro c (rfl | rfl) - <;> omega
      · refine hagain _ hleft (by omega) ?_ (by omega)
        rintro c (rfl | rfl) - <;> omega
      · refine hagain _ hleft (by omega) ?_ (by omega)
        rintro c (rfl | rfl) - <;> omega
      · refine hagain _ hright hRight ?_ (by omega)
        rintro c (rfl | rfl) - <;> omega
    · simp only [if_neg hRight]
      split_ifs with hLeft h1
      · refine hstop ?_
        rintro c (rfl | rfl) hc <;> omega
      · refine hagain _ hleft hLeft ?_ (by omega)
        rintro c (rfl | rfl) hc <;> omega
      · refine hstop ?_
        rintro c (rfl | rfl) hc <;> omega

/-! ## The heap -/

theorem balloonCreateHeapChecked_eq (hCount : Count ≤ pfnArraySize) (hk : k ≤ Count)
    (hdistinct : Distinct Pfn Count) :
    balloonCreateHeapChecked Count k Pfn = some (balloonCreateHeap Count k Pfn) := by
  induction k generalizing Pfn with
  | zero => rfl
  | succ k ih =>
    rw [balloonCreateHeapChecked, balloonCreateHeap, balloonHeapPushDownChecked_eq hCount le_rfl le_rfl
      hdistinct (by omega) (Nat.le_add_left Count k) (Nat.lt_succ_self Count)]
    exact ih (by omega) (hdistinct.perm (balloonHeapPushDown_perm le_rfl Count Pfn k))

/-- The subtrees at `k` and beyond are heaps. -/
def HeapFrom (Pfn : PfnArray) (Count k : ℕ) : Prop := ∀ i, k ≤ i → MaxHeap Pfn Count i

/-- One round of the loop of `BalloonCreateHeap`. -/
theorem HeapFrom.pushDown (h : HeapFrom Pfn Count (k + 1)) :
    HeapFrom (balloonHeapPushDown Count Count Pfn k) Count k := by
  obtain ⟨hheap, hkeep⟩ := balloonHeapPushDown_maxHeap (Nat.le_add_left Count k)
    fun Child hChild => h Child hChild.lt
  intro i hi
  by_cases hbelow : Below k i
  · exact fun j c hj => hheap j c (hbelow.trans hj)
  · refine (h i ?_).congr fun j hj _ => hkeep.outside j ?_
    · rcases Nat.eq_or_lt_of_le hi with rfl | hlt
      · exact absurd .refl hbelow
      · exact hlt
    · exact fun hkj => hbelow (hkj.of_le hj hi)

/-- **`BalloonCreateHeap` makes the whole array a max-heap.** -/
theorem balloonCreateHeap_maxHeap (h : HeapFrom Pfn Count k) :
    MaxHeap (balloonCreateHeap Count k Pfn) Count 0 := by
  induction k generalizing Pfn with
  | zero => exact h 0 le_rfl
  | succ k ih => exact ih h.pushDown

/-! ## The sorted tail -/

/-- The first `k` entries are a heap, those from there on up to `n` are in order, and none of the former is
more than any of the latter. -/
structure HalfSorted (Pfn : PfnArray) (k n : ℕ) : Prop where
  heap : MaxHeap Pfn k 0
  below : ∀ i < k, ∀ j, k ≤ j → j < n → Pfn i ≤ Pfn j
  sorted : ∀ i, k ≤ i → ∀ j, i < j → j < n → Pfn i ≤ Pfn j

/-- One round of the loop of `BalloonSort`. -/
theorem HalfSorted.pop (h : HalfSorted Pfn (k + 1) n) :
    HalfSorted (balloonHeapPushDown k k (swapNodes Pfn 0 k) 0) k n := by
  obtain ⟨hsub, hmax⟩ := h.heap.pop
  rw [swapNodes_eq]
  obtain ⟨hheap, hkeep⟩ := balloonHeapPushDown_maxHeap (show k ≤ 0 + k by omega) hsub
  have hbound : ∀ b, (∀ i < k, (Pfn ∘ Equiv.swap 0 k) i ≤ b) →
      ∀ i < k, balloonHeapPushDown k k (Pfn ∘ Equiv.swap 0 k) 0 i ≤ b := fun b hb i hi =>
    hkeep.bounded b (fun j _ hj => hb j hj) i (below_zero i) hi
  have hstay : ∀ i, k ≤ i → balloonHeapPushDown k k (Pfn ∘ Equiv.swap 0 k) 0 i = (Pfn ∘ Equiv.swap 0 k) i :=
    fun i hi => balloonHeapPushDown_of_le hi k _ 0
  have htail : ∀ i, k < i → (Pfn ∘ Equiv.swap 0 k) i = Pfn i := fun i hi =>
    congrArg Pfn (Equiv.swap_apply_of_ne_of_ne (by omega) (by omega))
  have hhead : ∀ i ≤ k, ∀ j, k < j → j < n → (Pfn ∘ Equiv.swap 0 k) i ≤ Pfn j := by
    intro i hi j hj hjn
    refine h.below _ ?_ j hj hjn
    rw [Equiv.swap_apply_def]
    split_ifs <;> omega
  refine ⟨hheap, ?_, ?_⟩
  · intro i hi j hj hjn
    refine hbound _ (fun i hi => ?_) i hi
    rw [hstay j hj]
    rcases Nat.eq_or_lt_of_le hj with rfl | hlt
    · exact hmax i hi
    · rw [htail j hlt]
      exact hhead i hi.le j hlt hjn
  · intro i hi j hij hjn
    rw [hstay i hi, hstay j (by omega), htail j (by omega)]
    rcases Nat.eq_or_lt_of_le hi with rfl | hlt
    · exact hhead k le_rfl j hij hjn
    · rw [htail i hlt]
      exact h.sorted i hlt j hij hjn

theorem sortUnsorted_halfSorted (h : HalfSorted Pfn k n) :
    HalfSorted (sortUnsorted k Pfn) 0 n := by
  induction k generalizing Pfn with
  | zero => exact h
  | succ k ih => exact ih h.pop

theorem sortUnsortedChecked_eq (hsize : size ≤ pfnArraySize) (hk : k ≤ size) (hdistinct : Distinct Pfn size) :
    sortUnsortedChecked size k Pfn = some (sortUnsorted k Pfn) := by
  induction k generalizing Pfn with
  | zero => rfl
  | succ k ih =>
    have hswap := hdistinct.perm (swapNodes_perm Pfn (show 0 < size by omega) (show k < size by omega))
    have hpush := balloonHeapPushDownChecked_eq (show k ≤ pfnArraySize by omega) (show k ≤ size by omega)
      le_rfl hswap (Nat.zero_le _) (Nat.le_add_left k 0) (Nat.lt_succ_self k)
    rw [sortUnsortedChecked, sortUnsorted, access_of_lt (show k < size by omega),
      access_of_lt (show 0 < size by omega)]
    simp only [hpush, Option.bind_eq_bind, Option.bind_some]
    exact ih (by omega) (hswap.perm (balloonHeapPushDown_perm (by omega) k _ 0))

theorem assertAscending_eq (h : ∀ i, i + 1 < size → Pfn i < Pfn (i + 1)) (hk : k + n < size) :
    assertAscending size Pfn n k = some () := by
  induction n generalizing k with
  | zero => rfl
  | succ n ih =>
    rw [assertAscending, access_of_lt (show k < size by omega), access_of_lt (show k + 1 < size by omega),
      require_of (h k (by omega))]
    exact ih (by omega)

/-- `BalloonSort` leaves the entries in strictly ascending order. -/
theorem balloonSort_lt (hdistinct : Distinct Pfn Count) {i j : ℕ} (hij : i < j) (hj : j < Count) :
    balloonSort Pfn Count i < balloonSort Pfn Count j := by
  have hheap : MaxHeap (balloonCreateHeap Count Count Pfn) Count 0 :=
    balloonCreateHeap_maxHeap fun i hi => maxHeap_of_le _ (by omega)
  have hstart : HalfSorted (balloonCreateHeap Count Count Pfn) Count Count :=
    ⟨hheap, fun _ _ _ _ _ => by omega, fun _ _ _ _ _ => by omega⟩
  have hsorted := (sortUnsorted_halfSorted hstart).sorted i (Nat.zero_le i) j hij hj
  have hdistinct' := hdistinct.perm (balloonSort_perm Pfn Count)
  exact lt_of_le_of_ne hsorted (hdistinct'.ne (hij.trans hj) hj hij.ne)

theorem balloonSortChecked_eq (hpos : 0 < Count) (hCount : Count ≤ pfnArraySize)
    (hdistinct : Distinct Pfn Count) : balloonSortChecked Pfn Count = some (balloonSort Pfn Count) := by
  have hheap := balloonCreateHeapChecked_eq hCount le_rfl hdistinct
  have hsort := sortUnsortedChecked_eq hCount le_rfl
    (hdistinct.perm (balloonCreateHeap_perm Count Count Pfn))
  have hassert : assertAscending Count (balloonSort Pfn Count) (Count - 1) 0 = some () :=
    assertAscending_eq (fun i hi => balloonSort_lt hdistinct (Nat.lt_succ_self i) hi) (by omega)
  rw [balloonSort] at hassert ⊢
  simp only [balloonSortChecked, hheap, hsort, ulongSub_of_le hpos, hassert, Option.bind_eq_bind,
    Option.bind_some, Option.pure_def]

/-- **The heap sort of the balloon sorts.** For distinct entries, no assertion fails and nothing outside the
array is accessed: `BalloonHeapPushDown` ends wherever it is started, and restores the max-heap property of
a subtree whose child subtrees have it; `BalloonCreateHeap` makes the whole array a max-heap; `BalloonSort`
leaves the entries strictly ascending, and they are the same entries. -/
theorem heapSort_sorts (Pfn : PfnArray) (Count : ℕ) (hpos : 1 ≤ Count) (hCount : Count ≤ pfnArraySize)
    (hdistinct : (pfns Pfn Count).Nodup) :
    (∀ Start < Count, ∃ Heap,
      (∀ fuel, Count < fuel → balloonHeapPushDownChecked Count Count fuel Pfn Start = some Heap) ∧
        (pfns Heap Count).Perm (pfns Pfn Count) ∧
        ((∀ Child, IsChild Child Start → MaxHeap Pfn Count Child) →
          MaxHeap Heap Count Start ∧ ∀ i, ¬ Below Start i → Heap i = Pfn i)) ∧
      (∃ Heap, balloonCreateHeapChecked Count Count Pfn = some Heap ∧ MaxHeap Heap Count 0 ∧
        (pfns Heap Count).Perm (pfns Pfn Count)) ∧
      ∃ Sorted, balloonSortChecked Pfn Count = some Sorted ∧
        (pfns Sorted Count).Pairwise (· < ·) ∧ (pfns Sorted Count).Perm (pfns Pfn Count) := by
  have hdistinct' := distinct_iff.2 hdistinct
  refine ⟨?_, ?_, ?_⟩
  · intro Start hStart
    refine ⟨balloonHeapPushDown Count Count Pfn Start, fun fuel hfuel => ?_,
      balloonHeapPushDown_perm le_rfl Count Pfn Start, fun hsub => ?_⟩
    · exact balloonHeapPushDownChecked_eq hCount le_rfl le_rfl hdistinct' (by omega)
        (Nat.le_add_left Count Start) hfuel
    · obtain ⟨hheap, hkeep⟩ := balloonHeapPushDown_maxHeap (Nat.le_add_left Count Start) hsub
      exact ⟨hheap, hkeep.outside⟩
  · exact ⟨_, balloonCreateHeapChecked_eq hCount le_rfl hdistinct',
      balloonCreateHeap_maxHeap fun i hi => maxHeap_of_le _ (by omega), balloonCreateHeap_perm Count Count Pfn⟩
  · refine ⟨_, balloonSortChecked_eq hpos hCount hdistinct', ?_, balloonSort_perm Pfn Count⟩
    rw [pfns, List.pairwise_map]
    exact List.pairwise_lt_range.imp_of_mem fun hi hj hij =>
      balloonSort_lt hdistinct' hij (List.mem_range.1 hj)

/-- Five pages. -/
theorem heapSort_sorts_five :
    ∃ Sorted, balloonSortChecked (fun k => [30, 10, 50, 20, 40].getD k 0) 5 = some Sorted ∧
      (pfns Sorted 5).Pairwise (· < ·) ∧ (pfns Sorted 5).Perm [30, 10, 50, 20, 40] :=
  (heapSort_sorts (fun k => [30, 10, 50, 20, 40].getD k 0) 5 (by decide) (by decide) (by decide)).2.2

end XenBus.Balloon
