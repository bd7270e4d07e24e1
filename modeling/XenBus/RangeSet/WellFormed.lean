import XenBus.RangeSet.Model

/-!
# The representation invariant of the range set

A well-formed range set (`WellFormed`) keeps a separated list of ranges away from the 64-bit limits,
and its counts are the length of the list and the number of items. One lemma for each operation says
what it does to the set of items when the invariant holds before, and that it holds after:
`rangeSetAdd_spec`, `rangeSetPut_spec`, `rangeSetGet_spec`, `rangeSetPop_spec`.

The cursor is not part of the invariant. `CursorValid` says that it is at an element unless the list
is empty; every successful operation establishes it, and `RangeSetPut` and `RangeSetGet` need it.
-/

namespace XenBus.RangeSet

open MachineInt IntInterval

/-- The items of the set. -/
noncomputable def items (rs : RangeSet) : Finset ℤ := IntInterval.items rs.Ranges.toList

/-- At least 1 away from the limits of `LONGLONG`. -/
def Bounded (r : Range) : Prop := -9223372036854775808 < r.Start ∧ r.End < 9223372036854775807

/-- `RangeCount` is the length of the list, as a `ULONG`. -/
def Counted (rs : RangeSet) : Prop := rs.RangeCount = rs.Ranges.toList.length % 4294967296

/-- The representation invariant. -/
structure WellFormed (rs : RangeSet) : Prop where
  separated : Separated rs.Ranges.toList
  bounded : ∀ r ∈ rs.Ranges.toList, Bounded r
  counted : rs.Counted
  itemCount : rs.ItemCount = rs.items.card

/-- `Cursor` points at an element of the list whenever the list is non-empty. -/
def CursorValid (rs : RangeSet) : Prop := rs.Ranges.toList ≠ [] → rs.Ranges.After ≠ []

theorem wellFormed_create : WellFormed rangeSetCreate :=
  ⟨separated_nil, by simp [rangeSetCreate], rfl, rfl⟩

theorem cursorValid_create : CursorValid rangeSetCreate := fun h => absurd rfl h

theorem cursorValid_of_after {rs : RangeSet} (h : rs.Ranges.After ≠ []) : CursorValid rs :=
  fun _ => h

/-- A well-formed set has fewer than `2 ^ 64` items, as its endpoints are away from the limits. -/
theorem card_lt_of_bounded {S : Finset ℤ}
    (h : ∀ x ∈ S, -9223372036854775808 < x ∧ x < 9223372036854775807) :
    S.card < 18446744073709551616 := by
  have hsub : S ⊆ Finset.Ioo (-9223372036854775808) 9223372036854775807 := fun x hx =>
    Finset.mem_Ioo.mpr (h x hx)
  have hcard := Finset.card_le_card hsub
  rw [Int.card_Ioo] at hcard
  omega

theorem WellFormed.bounded_items {rs : RangeSet} (h : rs.WellFormed) :
    ∀ x ∈ rs.items, -9223372036854775808 < x ∧ x < 9223372036854775807 := by
  intro x hx
  obtain ⟨r, hr, h1, h2⟩ := mem_items.mp hx
  obtain ⟨hb, hb'⟩ := h.bounded r hr
  omega

/-! ## Adding a range -/

/-- The new range `r` is in the gap between `before` and `rest`, and may touch its neighbours. -/
structure InGap (before : List Range) (r : Range) (rest : List Range) : Prop where
  separated : Separated (before.reverse ++ rest)
  nonempty : r.Start ≤ r.End
  above : ∀ b ∈ before, b.End < r.Start
  below : ∀ a ∈ rest, r.End < a.Start
  bounded : ∀ x ∈ before.reverse ++ r :: rest, Bounded x

/-- The items of a list with `r` between `before` and `rest`. -/
theorem items_between (before rest : List Range) (r : Range) :
    IntInterval.items (before.reverse ++ r :: rest) =
      IntInterval.items (before.reverse ++ rest) ∪ Finset.Icc r.Start r.End := by
  rw [items_append, items_append, IntInterval.items, Finset.union_comm (Finset.Icc _ _),
    Finset.union_assoc]

/-- `RangeSetMergeBackwards` leaves a gap before the range at the cursor. -/
theorem rangeSetMergeBackwards_spec {rs : RangeSet} {before rest : List Range} {r : Range}
    (hrs : rs.Ranges = ⟨before, r :: rest⟩) (h : InGap before r rest) (hc : rs.Counted) :
    ∃ before' r', (rangeSetMergeBackwards rs).Ranges = ⟨before', r' :: rest⟩ ∧
      InGap before' r' rest ∧ (∀ b ∈ before', b.End + 1 < r'.Start) ∧
      (rangeSetMergeBackwards rs).items = rs.items ∧ (rangeSetMergeBackwards rs).Counted ∧
      (rangeSetMergeBackwards rs).ItemCount = rs.ItemCount := by
  have hlong : long64 (r.Start - 1) = r.Start - 1 := by
    obtain ⟨hb, hb'⟩ := h.bounded r (by simp)
    have := h.nonempty
    exact long64_of_mem (by omega) (by omega)
  cases before with
  | nil =>
    have heq : rangeSetMergeBackwards rs = rs := by simp [rangeSetMergeBackwards, hrs]
    rw [heq]
    exact ⟨[], r, hrs, h, by simp, rfl, hc, rfl⟩
  | cons b before =>
    by_cases ht : b.End = r.Start - 1
    · -- touching: the node of `r` goes and the previous range ends where `r` did
      have heq : rangeSetMergeBackwards rs =
          { rs with
            Ranges := ⟨before, { b with End := r.End } :: rest⟩
            RangeCount := (rs.RangeCount + 4294967295) % 4294967296
            Spare := true } := by
        simp [rangeSetMergeBackwards, hrs, hlong, ht, rangeSetRemove]
      obtain ⟨hsb, hsr, hbr⟩ := separated_append.mp h.separated
      rw [List.reverse_cons] at hsb
      obtain ⟨hsb', hsbb, hbb⟩ := separated_append.mp hsb
      have hb := hsbb.nonempty b (by simp)
      have hn := h.nonempty
      rw [heq]
      refine ⟨before, { b with End := r.End }, rfl, ⟨?_, ?_, ?_, h.below, ?_⟩, ?_, ?_, ?_, rfl⟩
      · exact separated_append.mpr ⟨hsb', hsr, fun x hx y hy => hbr x (by simp_all) y hy⟩
      · change b.Start ≤ r.End
        omega
      · intro x hx
        change x.End < b.Start
        have := hbb x (by simpa using hx) b (by simp)
        omega
      · intro x hx
        have hBr := h.bounded r (by simp)
        have hBb := h.bounded b (by simp)
        rcases List.mem_append.mp hx with hx | hx
        · exact h.bounded x (by simp_all)
        · rcases List.mem_cons.mp hx with rfl | hx
          · exact ⟨hBb.1, hBr.2⟩
          · exact h.bounded x (by simp [hx])
      · intro x hx
        exact hbb x (by simpa using hx) b (by simp)
      · have hu : Finset.Icc b.Start r.End =
            Finset.Icc b.Start b.End ∪ Finset.Icc r.Start r.End := by
          have := Icc_union_Icc_of_touching (a := b.Start) (b := b.End) (c := r.End)
            (by omega) (by omega)
          rw [← this, ht, sub_add_cancel]
        rw [items, items, hrs]
        simp only [CursorList.toList_mk]
        rw [items_between, items_between, hu, List.reverse_cons, List.append_assoc,
          List.singleton_append, items_between, Finset.union_assoc]
      · rw [Counted] at hc ⊢
        simp only [hrs, CursorList.toList_mk, List.length_append, List.length_reverse,
          List.length_cons] at hc ⊢
        omega
    · have heq : rangeSetMergeBackwards rs = rs := by
        simp [rangeSetMergeBackwards, hrs, hlong, ht]
      rw [heq]
      refine ⟨b :: before, r, hrs, h, ?_, rfl, hc, rfl⟩
      -- the nearest range does not touch, so none before it does
      intro x hx
      have hb := h.above b (by simp)
      rcases List.mem_cons.mp hx with rfl | hx
      · omega
      · obtain ⟨hsb, -, -⟩ := separated_append.mp h.separated
        rw [List.reverse_cons] at hsb
        obtain ⟨-, hsbb, hbb⟩ := separated_append.mp hsb
        have := hbb x (by simpa using hx) b (by simp)
        have := hsbb.nonempty b (by simp)
        omega

/-- `RangeSetMergeForwards` restores the separation. -/
theorem rangeSetMergeForwards_spec {rs : RangeSet} {before rest : List Range} {r : Range}
    (hrs : rs.Ranges = ⟨before, r :: rest⟩) (h : InGap before r rest)
    (hgap : ∀ b ∈ before, b.End + 1 < r.Start) (hc : rs.Counted) :
    Separated (rangeSetMergeForwards rs).Ranges.toList ∧
      (∀ x ∈ (rangeSetMergeForwards rs).Ranges.toList, Bounded x) ∧
      (rangeSetMergeForwards rs).Ranges.After ≠ [] ∧
      (rangeSetMergeForwards rs).items = rs.items ∧ (rangeSetMergeForwards rs).Counted ∧
      (rangeSetMergeForwards rs).ItemCount = rs.ItemCount := by
  have hlong : long64 (r.End + 1) = r.End + 1 := by
    obtain ⟨hb, hb'⟩ := h.bounded r (by simp)
    have := h.nonempty
    exact long64_of_mem (by omega) (by omega)
  obtain ⟨hsb, hsr, hbr⟩ := separated_append.mp h.separated
  cases rest with
  | nil =>
    have heq : rangeSetMergeForwards rs = rs := by simp [rangeSetMergeForwards, hrs]
    rw [heq, hrs]
    refine ⟨separated_append.mpr ⟨hsb, separated_cons.mpr ⟨h.nonempty, by simp, hsr⟩, ?_⟩,
      h.bounded, by simp, rfl, hc, rfl⟩
    intro b hb x hx
    obtain rfl := List.mem_singleton.mp hx
    exact hgap b (by simpa using hb)
  | cons a rest =>
    obtain ⟨hna, ha, hsr'⟩ := separated_cons.mp hsr
    have hra := h.below a (by simp)
    have hn := h.nonempty
    by_cases ht : a.Start = r.End + 1
    · -- touching: the node of `r` goes and the next range starts where `r` did
      have heq : rangeSetMergeForwards rs =
          { rs with
            Ranges := ⟨before, { a with Start := r.Start } :: rest⟩
            RangeCount := (rs.RangeCount + 4294967295) % 4294967296
            Spare := true } := by
        simp [rangeSetMergeForwards, hrs, hlong, ht, rangeSetRemove, CursorList.removeForward]
      rw [heq]
      refine ⟨separated_append.mpr ⟨hsb, separated_cons.mpr ⟨?_, ha, hsr'⟩, ?_⟩, ?_, by simp, ?_,
        ?_, rfl⟩
      · change r.Start ≤ a.End
        omega
      · intro b hb x hx
        rcases List.mem_cons.mp hx with rfl | hx
        · exact hgap b (by simpa using hb)
        · exact hbr b hb x (by simp [hx])
      · intro x hx
        have hBr := h.bounded r (by simp)
        have hBa := h.bounded a (by simp)
        rcases List.mem_append.mp hx with hx | hx
        · exact h.bounded x (by simp_all)
        · rcases List.mem_cons.mp hx with rfl | hx
          · exact ⟨hBr.1, hBa.2⟩
          · exact h.bounded x (by simp [hx])
      · have hu : Finset.Icc r.Start a.End =
            Finset.Icc r.Start r.End ∪ Finset.Icc a.Start a.End := by
          rw [ht, Icc_union_Icc_of_touching (by omega) (by omega)]
        rw [items, items, hrs]
        simp only [CursorList.toList_mk, items_append, IntInterval.items, hu, Finset.union_assoc]
      · rw [Counted] at hc ⊢
        simp only [hrs, CursorList.toList_mk, List.length_append, List.length_reverse,
          List.length_cons] at hc ⊢
        omega
    · have heq : rangeSetMergeForwards rs = rs := by
        simp [rangeSetMergeForwards, hrs, hlong, ht]
      rw [heq, hrs]
      refine ⟨separated_append.mpr ⟨hsb, separated_cons.mpr ⟨hn, ?_, hsr⟩, ?_⟩, h.bounded, by simp,
        rfl, hc, rfl⟩
      · intro x hx
        rcases List.mem_cons.mp hx with rfl | hx
        · omega
        · have := ha x hx
          omega
      · intro b hb x hx
        have hb' := hgap b (by simpa using hb)
        rcases List.mem_cons.mp hx with rfl | hx
        · exact hb'
        · exact hbr b hb x hx

/-- What a successful `RangeSetAdd` of the items `T` establishes. -/
structure Added (rs : RangeSet) (T : Finset ℤ) (rs' : RangeSet) : Prop where
  separated : Separated rs'.Ranges.toList
  bounded : ∀ x ∈ rs'.Ranges.toList, Bounded x
  after : rs'.Ranges.After ≠ []
  items : rs'.items = rs.items ∪ T
  counted : rs'.Counted
  itemCount : rs'.ItemCount = rs.ItemCount

/-- **`RangeSetAdd`** of a range in the gap that the cursor points to. -/
theorem rangeSetAdd_spec (rs : RangeSet) {Start End : ℤ} {after allocate : Bool}
    {before rest : List Range} (halloc : (rs.Spare || allocate) = true)
    (hins : (if after then rs.Ranges.insertAfter ⟨Start, End⟩
      else rs.Ranges.insertBefore ⟨Start, End⟩) = ⟨before, ⟨Start, End⟩ :: rest⟩)
    (hlist : rs.Ranges.toList = before.reverse ++ rest)
    (h : InGap before ⟨Start, End⟩ rest) (hc : rs.Counted) :
    ∃ rs', rangeSetAdd rs Start End after allocate = (.success, rs') ∧
      Added rs (Finset.Icc Start End) rs' := by
  have hc' : Counted { rs with
      Ranges := ⟨before, ⟨Start, End⟩ :: rest⟩
      RangeCount := (rs.RangeCount + 1) % 4294967296
      Spare := false } := by
    rw [Counted] at hc ⊢
    rw [hlist] at hc
    simp only [CursorList.toList_mk, List.length_append, List.length_reverse,
      List.length_cons] at hc ⊢
    omega
  obtain ⟨before', r', hm, hgap, hb, hitems, hcount, hic⟩ :=
    rangeSetMergeBackwards_spec rfl h hc'
  obtain ⟨hsep, hbd, haft, hitems', hcount', hic'⟩ :=
    rangeSetMergeForwards_spec hm hgap hb hcount
  have hcond : (!rs.Spare && !allocate) = false := by
    cases hS : rs.Spare <;> simp_all
  refine ⟨_, by simp [rangeSetAdd, hcond, hins], hsep, hbd, haft, ?_, hcount', ?_⟩
  · rw [hitems', hitems, items, items, hlist, CursorList.toList_mk, items_between]
  · rw [hic', hic]

/-- A failing `RangeSetAdd` leaves the range set as it is. -/
theorem rangeSetAdd_noMemory {rs : RangeSet} {Start End : ℤ} {after allocate : Bool}
    (halloc : (rs.Spare || allocate) = false) :
    rangeSetAdd rs Start End after allocate = (.noMemory, rs) := by
  have hcond : (!rs.Spare && !allocate) = true := by
    cases hS : rs.Spare <;> simp_all
  rw [rangeSetAdd, if_pos hcond]

/-! ## Putting an interval

The two directional searches stop at the gap that the new interval belongs to. Where they stop is
also all that a failing `RangeSetAdd` leaves behind. -/

/-- The interval meets none of the items. -/
def Clear (S : Finset ℤ) (Start End : ℤ) : Prop := ∀ x ∈ S, x < Start ∨ End < x

/-- A range of the list is below or above an interval clear of the items. -/
theorem Clear.below_or_above {l : List Range} {Start End : ℤ} (h : Clear (IntInterval.items l) Start End)
    (hSE : Start ≤ End) {r : Range} (hr : r ∈ l) (hn : r.Start ≤ r.End) :
    r.End < Start ∨ End < r.Start := by
  by_contra hcon
  rcases h (max r.Start Start) (mem_items.mpr ⟨r, hr, by omega, by omega⟩) with hlt | hlt <;> omega

/-- The forward search passes the ranges that start at or below `Start`. -/
theorem addAfterFind_spec (Start : ℤ) {rest : List Range} (before : List Range)
    (hsep : Separated rest) :
    ∃ mid tail, rest = mid ++ tail ∧
      addAfterFind Start before rest = ⟨mid.reverse ++ before, tail⟩ ∧
      (∀ m ∈ mid, m.Start ≤ Start) ∧ ∀ a ∈ tail, Start < a.Start := by
  induction rest generalizing before with
  | nil => exact ⟨[], [], rfl, rfl, by simp, by simp⟩
  | cons r rest ih =>
    obtain ⟨hn, hr, hsep'⟩ := separated_cons.mp hsep
    by_cases hlt : Start < r.Start
    · refine ⟨[], r :: rest, rfl, by simp [addAfterFind, hlt], by simp, ?_⟩
      intro a ha
      rcases List.mem_cons.mp ha with rfl | ha
      · exact hlt
      · have := hr a ha
        omega
    · obtain ⟨mid, tail, hrest, hfind, hmid, htail⟩ := ih (r :: before) hsep'
      refine ⟨r :: mid, tail, by rw [hrest]; rfl, ?_, ?_, htail⟩
      · rw [addAfterFind, if_neg hlt, hfind]
        simp
      · intro m hm
        rcases List.mem_cons.mp hm with rfl | hm
        · omega
        · exact hmid m hm

/-- The backward search passes the ranges that end at or above `End`. -/
theorem addBeforeFind_spec (End : ℤ) {before : List Range} (rest : List Range)
    (hsep : Separated before.reverse) :
    ∃ mid tail, before = mid ++ tail ∧
      (addBeforeFind End rest before).toList = before.reverse ++ rest ∧
      (∀ x, (addBeforeFind End rest before).insertAfter x = ⟨tail, x :: (mid.reverse ++ rest)⟩) ∧
      ((addBeforeFind End rest before).After = [] ↔ tail = []) ∧
      (∀ m ∈ mid, End ≤ m.End) ∧ ∀ b ∈ tail, b.End < End := by
  induction before generalizing rest with
  | nil => exact ⟨[], [], rfl, by simp [addBeforeFind], by simp [addBeforeFind],
      by simp [addBeforeFind], by simp, by simp⟩
  | cons r before ih =>
    rw [List.reverse_cons] at hsep
    obtain ⟨hsep', hsr, hb⟩ := separated_append.mp hsep
    by_cases hlt : End > r.End
    · refine ⟨[], r :: before, rfl, by simp [addBeforeFind, hlt], by simp [addBeforeFind, hlt],
        by simp [addBeforeFind, hlt], by simp, ?_⟩
      intro b hbm
      rcases List.mem_cons.mp hbm with rfl | hbm
      · exact hlt
      · have := hb b (by simpa using hbm) r (by simp)
        have := hsr.nonempty r (by simp)
        omega
    · obtain ⟨mid, tail, hbefore, hlist, hins, hnil, hmid, htail⟩ := ih (r :: rest) hsep'
      have hstep : addBeforeFind End rest (r :: before) = addBeforeFind End (r :: rest) before := by
        rw [addBeforeFind, if_neg hlt]
      rw [hstep]
      refine ⟨r :: mid, tail, by rw [hbefore]; rfl, by rw [hlist]; simp, ?_, hnil, ?_, htail⟩
      · intro x
        rw [hins]
        simp
      · intro m hm
        rcases List.mem_cons.mp hm with rfl | hm
        · omega
        · exact hmid m hm

/-- `RangeSetPut` has searched: `RangeSetAdd` is called with the cursor list `l`, and the new range
goes between `before` and `rest`. The cursor is then at the anchor if the gap is at an end of the
list. -/
structure PutSearch (rs : RangeSet) (Start End : ℤ) (l : CursorList Range) (after : Bool)
    (before rest : List Range) : Prop where
  insert : (if after then l.insertAfter ⟨Start, End⟩ else l.insertBefore ⟨Start, End⟩) =
    ⟨before, ⟨Start, End⟩ :: rest⟩
  list : l.toList = rs.Ranges.toList
  split : rs.Ranges.toList = before.reverse ++ rest
  gap : InGap before ⟨Start, End⟩ rest
  anchor : l.After = [] ↔ before = [] ∨ rest = []

/-- Ranges that start at or below `Start`, and ranges that end at or above `End`, leave a gap for
an interval that is clear of the items. -/
theorem WellFormed.inGap {rs : RangeSet} (h : rs.WellFormed) {Start End : ℤ} (hSE : Start ≤ End)
    (hb : Bounded ⟨Start, End⟩) (hclear : Clear rs.items Start End) {before rest : List Range}
    (hlist : rs.Ranges.toList = before.reverse ++ rest) (hbelow : ∀ b ∈ before, b.Start ≤ Start)
    (habove : ∀ a ∈ rest, End ≤ a.End) : InGap before ⟨Start, End⟩ rest := by
  refine ⟨hlist ▸ h.separated, hSE, ?_, ?_, ?_⟩
  · intro b hbm
    have hmem : b ∈ rs.Ranges.toList := by rw [hlist]; simp [hbm]
    have := hbelow b hbm
    change b.End < Start
    rcases hclear.below_or_above hSE hmem (h.separated.nonempty b hmem) with h | h <;> omega
  · intro a ham
    have hmem : a ∈ rs.Ranges.toList := by rw [hlist]; simp [ham]
    have := habove a ham
    change End < a.Start
    rcases hclear.below_or_above hSE hmem (h.separated.nonempty a hmem) with h | h <;> omega
  · intro x hx
    rcases List.mem_append.mp hx with hx | hx
    · exact h.bounded x (by rw [hlist]; simp_all)
    · rcases List.mem_cons.mp hx with rfl | hx
      · exact hb
      · exact h.bounded x (by rw [hlist]; simp [hx])

/-- The searches of `RangeSetPut` find the gap, wherever the cursor is. -/
theorem rangeSetPut_search {rs : RangeSet} (h : rs.WellFormed) (hcur : rs.CursorValid) {Start : ℤ}
    {Count : ℕ} (hC : 0 < Count) (hlo : -9223372036854775808 < Start)
    (hhi : Start + Count - 1 < 9223372036854775807)
    (hclear : Clear rs.items Start (Start + Count - 1)) (allocate : Bool) :
    ∃ l after before rest, PutSearch rs Start (Start + Count - 1) l after before rest ∧
      rangeSetPut rs Start Count allocate =
        some (putDone Count
          (rangeSetAdd { rs with Ranges := l } Start (Start + Count - 1) after allocate)) := by
  have hEnd : long64 (Start + Count - 1) = Start + Count - 1 :=
    long64_of_mem (by omega) (by omega)
  have hSE : Start ≤ Start + Count - 1 := by omega
  have hb : Bounded ⟨Start, Start + Count - 1⟩ := ⟨hlo, hhi⟩
  have hC' : Count ≠ 0 := by omega
  obtain ⟨⟨before, after⟩, RangeCount, ItemCount, Spare⟩ := rs
  cases after with
  | nil =>
    -- the cursor is at the anchor, so the list is empty
    obtain rfl : before = [] := by
      by_contra hne
      exact hcur (by simpa using hne) rfl
    refine ⟨⟨[], []⟩, true, [], [], ⟨rfl, rfl, rfl, ?_, by simp⟩, ?_⟩
    · exact h.inGap hSE hb hclear rfl (by simp) (by simp)
    · simp [rangeSetPut, hC', hEnd]
  | cons r rest =>
    have hsep := h.separated
    have hmem : r ∈ before.reverse ++ r :: rest := by simp
    obtain ⟨hsb, hsr, hbr⟩ := separated_append.mp hsep
    obtain ⟨hn, hr, hsrest⟩ := separated_cons.mp hsr
    have hside := hclear.below_or_above hSE hmem hn
    by_cases hgt : Start > r.End
    · -- forward from the range at the cursor
      obtain ⟨mid, tail, hrest, hfind, hmid, htail⟩ :=
        addAfterFind_spec Start (r :: before) hsrest
      refine ⟨⟨mid.reverse ++ r :: before, tail⟩, false, mid.reverse ++ r :: before, tail,
        ⟨rfl, by simp [hrest], by simp [hrest], ?_, by simp⟩, ?_⟩
      · refine h.inGap hSE hb hclear (by simp [hrest]) ?_ ?_
        · intro b hbm
          simp only [List.mem_append, List.mem_reverse, List.mem_cons] at hbm
          rcases hbm with hbm | rfl | hbm
          · exact hmid b hbm
          · omega
          · have := hbr b (by simpa using hbm) r (by simp)
            have := hsb.nonempty b (by simpa using hbm)
            omega
        · intro a ham
          have hsa : a ∈ before.reverse ++ r :: rest := by simp [hrest, ham]
          have := htail a ham
          have := hsep.nonempty a hsa
          rcases hclear.below_or_above hSE hsa this with h | h <;> omega
      · simp [rangeSetPut, hC', hEnd, hgt, rangeSetAddAfter, hfind]
    · -- backward from the range at the cursor
      obtain ⟨mid, tail, hbefore, hlist, hins, hnil, hmid, htail⟩ :=
        addBeforeFind_spec (Start + Count - 1) (r :: rest) hsb
      replace hbefore : before = mid ++ tail := hbefore
      refine ⟨addBeforeFind (Start + Count - 1) (r :: rest) before, true, tail,
        mid.reverse ++ r :: rest, ⟨hins _, hlist, by simp [hbefore], ?_, by simp [hnil]⟩, ?_⟩
      · refine h.inGap hSE hb hclear (by simp [hbefore]) ?_ ?_
        · intro b hbm
          have hsb' : b ∈ before.reverse ++ r :: rest := by simp [hbefore, hbm]
          have := htail b hbm
          have := hsep.nonempty b hsb'
          rcases hclear.below_or_above hSE hsb' this with h | h <;> omega
        · intro a ham
          simp only [List.mem_append, List.mem_reverse, List.mem_cons] at ham
          rcases ham with ham | rfl | ham
          · exact hmid a ham
          · omega
          · have := hr a ham
            have := hsrest.nonempty a ham
            omega
      · simp [rangeSetPut, hC', hEnd, hgt, rangeSetAddBefore]

/-- A set of items clear of an interval is disjoint from it. -/
theorem Clear.disjoint {S : Finset ℤ} {Start End : ℤ} (h : Clear S Start End) :
    Disjoint S (Finset.Icc Start End) := by
  rw [Finset.disjoint_left]
  intro x hx hx'
  have := Finset.mem_Icc.mp hx'
  rcases h x hx with h | h <;> omega

/-- **`RangeSetPut`** of an interval clear of the items adds it to the set. -/
theorem rangeSetPut_spec {rs : RangeSet} (h : rs.WellFormed) (hcur : rs.CursorValid) {Start : ℤ}
    {Count : ℕ} (hC : 0 < Count) (hlo : -9223372036854775808 < Start)
    (hhi : Start + Count - 1 < 9223372036854775807)
    (hclear : Clear rs.items Start (Start + Count - 1)) {allocate : Bool}
    (halloc : (rs.Spare || allocate) = true) :
    ∃ rs', rangeSetPut rs Start Count allocate = some (.success, rs') ∧ rs'.WellFormed ∧
      rs'.CursorValid ∧ rs'.items = rs.items ∪ Finset.Icc Start (Start + Count - 1) := by
  obtain ⟨l, after, before, rest, hs, hput⟩ :=
    rangeSetPut_search h hcur hC hlo hhi hclear allocate
  have hcounted : Counted { rs with Ranges := l } := by
    have hc := h.counted
    rw [Counted] at hc ⊢
    rw [hs.list, ← hc]
  obtain ⟨rs', hadd, ha⟩ := rangeSetAdd_spec { rs with Ranges := l } halloc hs.insert
    (hs.list.trans hs.split) hs.gap hcounted
  have hitems : rs'.items = rs.items ∪ Finset.Icc Start (Start + Count - 1) := by
    rw [ha.items, items, items, hs.list]
  have hwf : ∀ x ∈ rs'.items, -9223372036854775808 < x ∧ x < 9223372036854775807 := by
    intro x hx
    obtain ⟨r, hr, h1, h2⟩ := mem_items.mp hx
    obtain ⟨hb, hb'⟩ := ha.bounded r hr
    omega
  have hcard : rs'.items.card = rs.items.card + Count := by
    rw [hitems, Finset.card_union_of_disjoint hclear.disjoint, Int.card_Icc]
    omega
  have hlt := card_lt_of_bounded hwf
  refine ⟨{ rs' with ItemCount := (rs'.ItemCount + Count) % 18446744073709551616 }, ?_,
    ⟨ha.separated, ha.bounded, ha.counted, ?_⟩, fun _ => ha.after, hitems⟩
  · rw [hput, hadd]
    rfl
  · have hic : rs'.ItemCount = rs.items.card := ha.itemCount.trans h.itemCount
    have hit : items { rs' with ItemCount := (rs'.ItemCount + Count) % 18446744073709551616 } =
      rs'.items := rfl
    rw [hit, hcard]
    change (rs'.ItemCount + Count) % 18446744073709551616 = rs.items.card + Count
    omega

/-- A failing `RangeSetPut` leaves the cursor where its search stopped: at the anchor iff no item is
below the interval, or none is above it. -/
theorem rangeSetPut_noMemory {rs : RangeSet} (h : rs.WellFormed) (hcur : rs.CursorValid) {Start : ℤ}
    {Count : ℕ} (hC : 0 < Count) (hlo : -9223372036854775808 < Start)
    (hhi : Start + Count - 1 < 9223372036854775807)
    (hclear : Clear rs.items Start (Start + Count - 1)) {allocate : Bool}
    (halloc : (rs.Spare || allocate) = false) :
    ∃ l, rangeSetPut rs Start Count allocate = some (.noMemory, { rs with Ranges := l }) ∧
      l.toList = rs.Ranges.toList ∧
      (l.After ≠ [] ↔ (∃ x ∈ rs.items, x < Start) ∧ ∃ x ∈ rs.items, Start + Count - 1 < x) := by
  obtain ⟨l, after, before, rest, hs, hput⟩ :=
    rangeSetPut_search h hcur hC hlo hhi hclear allocate
  refine ⟨l, ?_, hs.list, ?_⟩
  · rw [hput, rangeSetAdd_noMemory (by exact halloc)]
    rfl
  · have hmem : ∀ x, x ∈ rs.items ↔ ∃ r ∈ before.reverse ++ rest, r.Start ≤ x ∧ x ≤ r.End := by
      intro x
      rw [items, hs.split, mem_items]
    have hbelow : before ≠ [] ↔ ∃ x ∈ rs.items, x < Start := by
      constructor
      · intro hne
        obtain ⟨b, hb⟩ := List.exists_mem_of_ne_nil _ hne
        have hn := hs.gap.separated.nonempty b (by simp [hb])
        exact ⟨b.End, (hmem _).mpr ⟨b, by simp [hb], hn, le_rfl⟩, hs.gap.above b hb⟩
      · rintro ⟨x, hx, hlt⟩ rfl
        obtain ⟨r, hr, h1, h2⟩ := (hmem x).mp hx
        have : Start + Count - 1 < r.Start := hs.gap.below r (by simpa using hr)
        omega
    have habove : rest ≠ [] ↔ ∃ x ∈ rs.items, Start + Count - 1 < x := by
      constructor
      · intro hne
        obtain ⟨a, ha⟩ := List.exists_mem_of_ne_nil _ hne
        have hn := hs.gap.separated.nonempty a (by simp [ha])
        exact ⟨a.Start, (hmem _).mpr ⟨a, by simp [ha], le_rfl, hn⟩, hs.gap.below a ha⟩
      · rintro ⟨x, hx, hlt⟩ rfl
        obtain ⟨r, hr, h1, h2⟩ := (hmem x).mp hx
        have : r.End < Start := hs.gap.above r (by simpa using hr)
        omega
    rw [← hbelow, ← habove, Ne, hs.anchor, not_or]

/-- With the cursor at the anchor of a non-empty list, `RangeSetPut` reads the list head as a
`RANGE`. -/
theorem rangeSetPut_eq_none {rs : RangeSet} (hcur : ¬ rs.CursorValid) {Start : ℤ} {Count : ℕ}
    (hC : 0 < Count) (allocate : Bool) : rangeSetPut rs Start Count allocate = none := by
  rw [CursorValid, Classical.not_imp, not_not] at hcur
  obtain ⟨hne, hnil⟩ := hcur
  rw [rangeSetPut, if_neg (by omega), if_neg hne, hnil]

/-! ## Getting an interval -/

/-- The backward search stops at the range that contains `Start`. -/
theorem getBackward_spec {Start : ℤ} {before : List Range} (rest : List Range) {r : Range} (hr : r ∈ before)
    (hrS : r.Start ≤ Start) (hrE : Start ≤ r.End) (hsep : Separated before.reverse) :
    ∃ mid tail, before = mid ++ r :: tail ∧
      getBackward Start before rest = some ⟨tail, r :: (mid.reverse ++ rest)⟩ := by
  induction before generalizing rest with
  | nil => simp at hr
  | cons b before ih =>
    rw [List.reverse_cons] at hsep
    obtain ⟨hsep', -, hb⟩ := separated_append.mp hsep
    rcases List.mem_cons.mp hr with rfl | hr
    · exact ⟨[], before, rfl, by simp [getBackward, not_lt.mpr hrS]⟩
    · have hlt : Start < b.Start := by
        have := hb r (by simpa using hr) b (by simp)
        omega
      obtain ⟨mid, tail, hbefore, hfind⟩ := ih (b :: rest) hr hsep'
      refine ⟨b :: mid, tail, by rw [hbefore]; rfl, ?_⟩
      rw [getBackward, if_pos hlt, hfind]
      simp

/-- The forward search stops at the range that contains `Start`. -/
theorem getForward_spec {Start : ℤ} (before : List Range) {rest : List Range} {r : Range} (hr : r ∈ rest)
    (hrS : r.Start ≤ Start) (hrE : Start ≤ r.End) (hsep : Separated rest) :
    ∃ mid tail, rest = mid ++ r :: tail ∧
      getForward Start before rest = some ⟨mid.reverse ++ before, r :: tail⟩ := by
  induction rest generalizing before with
  | nil => simp at hr
  | cons a rest ih =>
    obtain ⟨-, ha, hsep'⟩ := separated_cons.mp hsep
    rcases List.mem_cons.mp hr with rfl | hr
    · exact ⟨[], rest, rfl, by simp [getForward, not_lt.mpr hrE]⟩
    · have hgt : Start > a.End := by
        have := ha r hr
        omega
      obtain ⟨mid, tail, hrest, hfind⟩ := ih (a :: before) hr hsep'
      refine ⟨a :: mid, tail, by rw [hrest]; rfl, ?_⟩
      rw [getForward, if_pos hgt, hfind]
      simp

/-- **The search of `RangeSetGet`** finds the range that contains `Start` wherever the cursor is. -/
theorem getFind_spec {l : CursorList Range} {Start : ℤ} {r : Range} (hsep : Separated l.toList)
    (hcur : l.After ≠ []) (hr : r ∈ l.toList) (hrS : r.Start ≤ Start) (hrE : Start ≤ r.End) :
    ∃ before rest, l.toList = before.reverse ++ r :: rest ∧
      getFind Start l = some ⟨before, r :: rest⟩ := by
  obtain ⟨before, after⟩ := l
  cases after with
  | nil => exact absurd rfl hcur
  | cons c rest =>
    obtain ⟨hsb, hsr, hbr⟩ := separated_append.mp hsep
    obtain ⟨hn, hc, hsrest⟩ := separated_cons.mp hsr
    replace hr : r ∈ before.reverse ++ c :: rest := hr
    simp only [List.mem_append, List.mem_reverse, List.mem_cons] at hr
    replace hn : c.Start ≤ c.End := hn
    rcases hr with hr | rfl | hr
    · -- before the cursor
      have hlt : Start < c.Start := by
        have := hbr r (by simpa using hr) c (by simp)
        omega
      obtain ⟨mid, tail, hbefore, hfind⟩ :=
        getBackward_spec (c :: rest) hr hrS hrE hsb
      replace hbefore : before = mid ++ r :: tail := hbefore
      exact ⟨tail, mid.reverse ++ c :: rest, by simp [hbefore], by simp [getFind, hlt, hfind]⟩
    · -- at the cursor
      exact ⟨before, rest, rfl, by simp [getFind, not_lt.mpr hrS, not_lt.mpr hrE]⟩
    · -- after the cursor
      have hgt : Start > c.End := by
        have := hc r hr
        omega
      have hnlt : ¬ Start < c.Start := by omega
      obtain ⟨mid, tail, hrest, hfind⟩ :=
        getForward_spec (c :: before) hr hrS hrE hsrest
      exact ⟨mid.reverse ++ c :: before, tail, by simp [hrest],
        by simp [getFind, hnlt, hgt, hfind]⟩

/-- The range set with other ranges, from which `Count` items have been taken. -/
def taken (rs : RangeSet) (l : CursorList Range) (n : ℕ) (Count : ℕ) (spare : Bool) : RangeSet where
  Ranges := l
  RangeCount := n
  ItemCount := (rs.ItemCount + (18446744073709551616 - Count)) % 18446744073709551616
  Spare := spare

/-- Replacing the range `r` by ranges `new` inside it, so that it loses the items `T`. -/
theorem WellFormed.taken {rs : RangeSet} (h : rs.WellFormed) {before rest : List Range} {r : Range}
    (hlist : rs.Ranges.toList = before.reverse ++ r :: rest) (new : List Range) {T : Finset ℤ}
    {l : CursorList Range} {n : ℕ} (spare : Bool)
    (hl : l.toList = before.reverse ++ (new ++ rest)) (hsep : Separated new)
    (hin : ∀ r' ∈ new, r.Start ≤ r'.Start ∧ r'.End ≤ r.End)
    (hnew : IntInterval.items new = Finset.Icc r.Start r.End \ T)
    (hT : T ⊆ Finset.Icc r.Start r.End)
    (hn : n = (before.reverse ++ (new ++ rest)).length % 4294967296) :
    (rs.taken l n T.card spare).WellFormed ∧ (rs.taken l n T.card spare).items = rs.items \ T := by
  have hs : Separated (before.reverse ++ r :: rest) := hlist ▸ h.separated
  have hitems : (rs.taken l n T.card spare).items = rs.items \ T := by
    change IntInterval.items l.toList = IntInterval.items rs.Ranges.toList \ T
    rw [hlist, hl, items_replace hs hnew hT]
  refine ⟨⟨?_, ?_, ?_, ?_⟩, hitems⟩
  · change Separated l.toList
    rw [hl]
    exact hs.replace hsep hin
  · intro x hx
    replace hx : x ∈ l.toList := hx
    rw [hl] at hx
    have hbd : ∀ y ∈ before.reverse ++ r :: rest, Bounded y := hlist ▸ h.bounded
    rcases List.mem_append.mp hx with hx | hx
    · exact hbd x (by simp_all)
    · rcases List.mem_append.mp hx with hx | hx
      · obtain ⟨h1, h2⟩ := hin x hx
        obtain ⟨hb, hb'⟩ := hbd r (by simp)
        exact ⟨by omega, by omega⟩
      · exact hbd x (by simp [hx])
  · change n = l.toList.length % 4294967296
    rw [hn, hl]
  · have hsub : T ⊆ rs.items := by
      intro x hx
      obtain ⟨h1, h2⟩ := Finset.mem_Icc.mp (hT hx)
      exact mem_items.mpr ⟨r, by rw [hlist]; simp, h1, h2⟩
    have hle := Finset.card_le_card hsub
    have hlt := card_lt_of_bounded h.bounded_items
    rw [hitems, Finset.card_sdiff_of_subset hsub]
    change (rs.ItemCount + (18446744073709551616 - T.card)) % 18446744073709551616 = _
    rw [h.itemCount]
    omega

/-- Moving the cursor keeps the invariant. -/
theorem WellFormed.moveCursor {rs : RangeSet} (h : rs.WellFormed) {l : CursorList Range}
    (hl : l.toList = rs.Ranges.toList) : WellFormed { rs with Ranges := l } := by
  refine ⟨?_, ?_, ?_, ?_⟩
  · exact hl ▸ h.separated
  · exact hl ▸ h.bounded
  · change rs.RangeCount = l.toList.length % 4294967296
    rw [hl]
    exact h.counted
  · change rs.ItemCount = (IntInterval.items l.toList).card
    rw [hl]
    exact h.itemCount

/-- `RangeCount` of a list with one range singled out. -/
theorem Counted.singled {rs : RangeSet} (h : rs.Counted) {before rest : List Range} {r : Range}
    (hlist : rs.Ranges.toList = before.reverse ++ r :: rest) :
    rs.RangeCount = (before.length + rest.length + 1) % 4294967296 := by
  rw [Counted, hlist] at h
  rw [h]
  simp only [List.length_append, List.length_reverse, List.length_cons, add_assoc]

theorem card_Icc_count (Start : ℤ) {Count : ℕ} (hC : 0 < Count) :
    (Finset.Icc Start (Start + Count - 1)).card = Count := by
  rw [Int.card_Icc]
  omega

/-- The split of `RangeSetGet`: the node added after the range at the cursor merges with nothing. -/
theorem rangeSetAdd_split {rs : RangeSet} {before rest : List Range} {r : Range} {Start End : ℤ}
    {allocate : Bool} (hrs : rs.Ranges = ⟨before, r :: rest⟩)
    (halloc : (rs.Spare || allocate) = true)
    (hsep : Separated (before.reverse ++ r :: rest)) (hbd : Bounded r) (hrS : r.Start ≤ Start)
    (hSE : Start ≤ End) (hlt : End < r.End) :
    rangeSetAdd rs (long64 (End + 1)) r.End true allocate = (.success, { rs with
      Ranges := ⟨r :: before, ⟨End + 1, r.End⟩ :: rest⟩
      RangeCount := (rs.RangeCount + 1) % 4294967296
      Spare := false }) := by
  obtain ⟨-, hsr, -⟩ := separated_append.mp hsep
  obtain ⟨-, hr, -⟩ := separated_cons.mp hsr
  obtain ⟨hb, hb'⟩ := hbd
  have hcond : (!rs.Spare && !allocate) = false := by
    cases hS : rs.Spare <;> simp_all
  have hE1 : long64 (End + 1) = End + 1 := long64_of_mem (by omega) (by omega)
  have hE2 : long64 End = End := long64_of_mem (by omega) (by omega)
  have hE3 : long64 (r.End + 1) = r.End + 1 := long64_of_mem (by omega) (by omega)
  have hne : r.End ≠ End := by omega
  have hbw : ∀ n, rangeSetMergeBackwards { rs with
      Ranges := ⟨r :: before, ⟨End + 1, r.End⟩ :: rest⟩
      RangeCount := n
      Spare := false } = { rs with
      Ranges := ⟨r :: before, ⟨End + 1, r.End⟩ :: rest⟩
      RangeCount := n
      Spare := false } := by
    intro n
    simp [rangeSetMergeBackwards, hE2, hne]
  have hfw : ∀ n, rangeSetMergeForwards { rs with
      Ranges := ⟨r :: before, ⟨End + 1, r.End⟩ :: rest⟩
      RangeCount := n
      Spare := false } = { rs with
      Ranges := ⟨r :: before, ⟨End + 1, r.End⟩ :: rest⟩
      RangeCount := n
      Spare := false } := by
    intro n
    cases rest with
    | nil => rfl
    | cons a rest =>
      have hne' : a.Start ≠ r.End + 1 := by
        have := hr a (by simp)
        omega
      simp [rangeSetMergeForwards, hE3, hne']
  simp only [rangeSetAdd, hcond, hE1, hrs, CursorList.insertAfter_cons, if_true, hbw, hfw,
    Bool.false_eq_true, if_false]

/-- `getFound` takes an interval out of the range that contains it, unless the range has to be
split and there is no node. -/
theorem getFound_spec {rs : RangeSet} (h : rs.WellFormed) {before rest : List Range} {r : Range}
    (hlist : rs.Ranges.toList = before.reverse ++ r :: rest) {Start End : ℤ}
    (hrS : r.Start ≤ Start) (hSE : Start ≤ End) (hrE : End ≤ r.End) (allocate : Bool) :
    (∃ rs', getFound rs before r rest Start End (Finset.Icc Start End).card allocate =
        (.success, rs') ∧
      rs'.WellFormed ∧ rs'.CursorValid ∧ rs'.items = rs.items \ Finset.Icc Start End) ∨
    (rs.Spare || allocate) = false ∧
      getFound rs before r rest Start End (Finset.Icc Start End).card allocate =
        (.noMemory, { rs with Ranges := ⟨before, r :: rest⟩ }) := by
  have hr : r ∈ rs.Ranges.toList := by rw [hlist]; simp
  obtain ⟨hb, hb'⟩ := h.bounded r hr
  have hE1 : long64 (End + 1) = End + 1 := long64_of_mem (by omega) (by omega)
  have hS1 : long64 (Start - 1) = Start - 1 := long64_of_mem (by omega) (by omega)
  have hT : Finset.Icc Start End ⊆ Finset.Icc r.Start r.End := Finset.Icc_subset_Icc hrS hrE
  have hcount := h.counted.singled hlist
  by_cases h1 : Start = r.Start
  · by_cases h2 : End = r.End
    · -- the whole range: its node is removed
      left
      obtain ⟨hwf, hitems⟩ := h.taken hlist [] true
        (n := (rs.RangeCount + 4294967295) % 4294967296)
        (CursorList.toList_removeForward before rest { r with Start := long64 (End + 1) })
        separated_nil (by simp) (by simp [IntInterval.items, h1, h2]) hT
        (by rw [hcount]; simp; omega)
      refine ⟨_, ?_, hwf, fun hne => ?_, hitems⟩
      · rw [getFound, if_pos ⟨h1, h2⟩]
        rfl
      · refine CursorList.removeForward_after _ _ _ ?_
        rwa [← CursorList.toList_removeForward]
    · -- a prefix: the range starts later
      left
      have hnew : IntInterval.items [⟨End + 1, r.End⟩] =
          Finset.Icc r.Start r.End \ Finset.Icc Start End := by
        ext x
        simp [IntInterval.items]
        omega
      obtain ⟨hwf, hitems⟩ := h.taken hlist [⟨End + 1, r.End⟩] rs.Spare
        (l := ⟨before, ⟨End + 1, r.End⟩ :: rest⟩) (n := rs.RangeCount) (by simp)
        (separated_cons.mpr ⟨by change End + 1 ≤ r.End; omega, by simp, separated_nil⟩)
        (by simp; omega) hnew hT (by rw [hcount]; simp; omega)
      refine ⟨_, ?_, hwf, cursorValid_of_after (by simp [taken]), hitems⟩
      rw [getFound, if_neg (by tauto), if_pos h1, hE1]
      rfl
  · by_cases h2 : End = r.End
    · -- a suffix: the range ends earlier
      left
      have hnew : IntInterval.items [⟨r.Start, Start - 1⟩] =
          Finset.Icc r.Start r.End \ Finset.Icc Start End := by
        ext x
        simp [IntInterval.items]
        omega
      obtain ⟨hwf, hitems⟩ := h.taken hlist [⟨r.Start, Start - 1⟩] rs.Spare
        (l := ⟨before, ⟨r.Start, Start - 1⟩ :: rest⟩) (n := rs.RangeCount) (by simp)
        (separated_cons.mpr ⟨by change r.Start ≤ Start - 1; omega, by simp, separated_nil⟩)
        (by simp; omega) hnew hT (by rw [hcount]; simp; omega)
      refine ⟨_, ?_, hwf, cursorValid_of_after (by simp [taken]), hitems⟩
      rw [getFound, if_neg (by tauto), if_neg h1, if_pos h2, hS1]
      rfl
    · -- the middle: the range is split
      rw [getFound, if_neg (by tauto), if_neg h1, if_neg h2]
      cases halloc : (rs.Spare || allocate) with
      | false =>
        right
        rw [rangeSetAdd_noMemory (by exact halloc)]
        exact ⟨rfl, rfl⟩
      | true =>
        left
        have hsep : Separated [⟨r.Start, Start - 1⟩, ⟨End + 1, r.End⟩] := by
          refine separated_cons.mpr ⟨?_, ?_, separated_cons.mpr ⟨?_, by simp, separated_nil⟩⟩
          · change r.Start ≤ Start - 1
            omega
          · intro x hx
            obtain rfl := List.mem_singleton.mp hx
            change Start - 1 + 1 < End + 1
            omega
          · change End + 1 ≤ r.End
            omega
        have hnew : IntInterval.items [⟨r.Start, Start - 1⟩, ⟨End + 1, r.End⟩] =
            Finset.Icc r.Start r.End \ Finset.Icc Start End := by
          ext x
          simp [IntInterval.items]
          omega
        obtain ⟨hwf, hitems⟩ := h.taken hlist _ false
          (l := ⟨⟨r.Start, Start - 1⟩ :: before, ⟨End + 1, r.End⟩ :: rest⟩)
          (n := (rs.RangeCount + 1) % 4294967296) (by simp) hsep (by simp; omega) hnew hT
          (by rw [hcount]; simp; omega)
        refine ⟨_, ?_, hwf, cursorValid_of_after (by simp [taken]), hitems⟩
        rw [rangeSetAdd_split rfl (by exact halloc) (hlist ▸ h.separated) ⟨hb, hb'⟩ hrS hSE
          (by omega)]
        simp only [getDone, getTruncate, hS1, taken]

/-- **`RangeSetGet`** of an interval of the set takes it out, or fails to allocate the node for the
second half of a range that it splits. -/
theorem rangeSetGet_spec {rs : RangeSet} (h : rs.WellFormed) (hcur : rs.CursorValid) {Start : ℤ}
    {Count : ℕ} (hC : 0 < Count) (hsub : Finset.Icc Start (Start + Count - 1) ⊆ rs.items)
    (allocate : Bool) :
    (∃ rs', rangeSetGet rs Start Count allocate = some (.success, rs') ∧ rs'.WellFormed ∧
      rs'.CursorValid ∧ rs'.items = rs.items \ Finset.Icc Start (Start + Count - 1)) ∨
    (rs.Spare || allocate) = false ∧
      ∃ l, rangeSetGet rs Start Count allocate = some (.noMemory, { rs with Ranges := l }) ∧
        l.toList = rs.Ranges.toList ∧ l.After ≠ [] := by
  obtain ⟨r, hr, hrS, hrE⟩ := h.separated.exists_of_subset (a := Start) (n := Count - 1) fun k hk =>
    hsub (Finset.mem_Icc.mpr ⟨by omega, by omega⟩)
  replace hrE : Start + Count - 1 ≤ r.End := by omega
  obtain ⟨before, rest, hlist, hfind⟩ :=
    getFind_spec h.separated (hcur (List.ne_nil_of_mem hr)) hr hrS (by omega)
  obtain ⟨hb, hb'⟩ := h.bounded r hr
  have hEnd : long64 (Start + Count - 1) = Start + Count - 1 :=
    long64_of_mem (by omega) (by omega)
  have hget : rangeSetGet rs Start Count allocate = some (getFound rs before r rest Start
      (Start + Count - 1) (Finset.Icc Start (Start + Count - 1)).card allocate) := by
    rw [card_Icc_count Start hC, rangeSetGet, if_neg (by omega), hfind, hEnd]
  rw [hget]
  rcases getFound_spec h hlist hrS (by omega) hrE allocate with
    ⟨rs', heq, hwf, hcv, hitems⟩ | ⟨halloc, heq⟩
  · exact .inl ⟨rs', by rw [heq], hwf, hcv, hitems⟩
  · exact .inr ⟨halloc, ⟨before, r :: rest⟩, by rw [heq], hlist.symm, by simp⟩

/-- With the cursor at the anchor of a non-empty list, `RangeSetGet` reads the list head as a
`RANGE`. -/
theorem rangeSetGet_eq_none {rs : RangeSet} (hcur : ¬ rs.CursorValid) {Start : ℤ} {Count : ℕ}
    (hC : 0 < Count) (allocate : Bool) : rangeSetGet rs Start Count allocate = none := by
  rw [CursorValid, Classical.not_imp, not_not] at hcur
  have hfind : getFind Start rs.Ranges = none := by
    rcases hl : rs.Ranges with ⟨before, after⟩
    rw [hl] at hcur
    obtain rfl : after = [] := hcur.2
    rfl
  rw [rangeSetGet, if_neg (by omega), hfind]

/-! ## Popping -/

/-- The search of `RangeSetPop` is first fit. -/
theorem popFind_spec (Count : ℕ) {rest : List Range} (before : List Range) (hsep : Separated rest)
    (hbd : ∀ r ∈ rest, Bounded r) :
    (popFind Count before rest = none ∧ ∀ r ∈ rest, r.End + 1 < r.Start + Count) ∨
    ∃ (mid : List Range) (r : Range) (tail : List Range), rest = mid ++ r :: tail ∧
      popFind Count before rest = some ⟨mid.reverse ++ before, r :: tail⟩ ∧
      (∀ m ∈ mid, m.End + 1 < m.Start + Count) ∧ r.Start + Count ≤ r.End + 1 := by
  induction rest generalizing before with
  | nil => exact .inl ⟨rfl, by simp⟩
  | cons r rest ih =>
    obtain ⟨hn, -, hsep'⟩ := separated_cons.mp hsep
    obtain ⟨hb, hb'⟩ := hbd r (by simp)
    have hlen : (ulong64 (r.End + 1 - r.Start) : ℤ) = r.End + 1 - r.Start :=
      ulong64_of_mem (by omega) (by omega)
    by_cases hfit : Count ≤ ulong64 (r.End + 1 - r.Start)
    · exact .inr ⟨[], r, rest, rfl, by simp [popFind, hfit], by simp, by omega⟩
    · rcases ih (r :: before) hsep' fun x hx => hbd x (by simp [hx]) with
        ⟨hnone, hall⟩ | ⟨mid, r', tail, hrest, hfind, hmid, hlong⟩
      · refine .inl ⟨by rw [popFind, if_neg hfit, hnone], fun x hx => ?_⟩
        rcases List.mem_cons.mp hx with rfl | hx
        · omega
        · exact hall x hx
      · refine .inr ⟨r :: mid, r', tail, by rw [hrest]; rfl, ?_, fun x hx => ?_, hlong⟩
        · rw [popFind, if_neg hfit, hfind]
          simp
        · rcases List.mem_cons.mp hx with rfl | hx
          · omega
          · exact hmid x hx

/-- **`RangeSetPop`** takes the first items of the first run that is long enough, and fails when
there is no such run. -/
theorem rangeSetPop_spec {rs : RangeSet} (h : rs.WellFormed) {Count : ℕ} (hC : 0 < Count) :
    (∃ a rs', rangeSetPop rs Count = (.success, some a, rs') ∧
      IsLeast {a | HasRun rs.items a Count} a ∧ rs'.WellFormed ∧ rs'.CursorValid ∧
      rs'.items = rs.items \ Finset.Icc a (a + Count - 1)) ∨
    (¬ ∃ a, HasRun rs.items a Count) ∧
      rangeSetPop rs Count = (.insufficientResources, none, rs) := by
  have hC' : Count ≠ 0 := by omega
  rcases popFind_spec Count [] h.separated h.bounded with
    ⟨hnone, hall⟩ | ⟨mid, r, tail, hlist, hfind, hmid, hlong⟩
  · right
    refine ⟨?_, by rw [rangeSetPop, if_neg hC', hnone]⟩
    rintro ⟨a, hrun⟩
    obtain ⟨r, hr, rfl, hlen⟩ := h.separated.exists_start_eq hC hrun
    have := hall r hr
    omega
  · left
    rw [List.append_nil] at hfind
    replace hlist : rs.Ranges.toList = mid.reverse.reverse ++ r :: tail := by
      rw [hlist, List.reverse_reverse]
    have hr : r ∈ rs.Ranges.toList := by rw [hlist]; simp
    obtain ⟨hb, hb'⟩ := h.bounded r hr
    have hstart : long64 (r.Start + Count) = r.Start + Count := long64_of_mem (by omega) (by omega)
    have hT : Finset.Icc r.Start (r.Start + Count - 1) ⊆ Finset.Icc r.Start r.End :=
      Finset.Icc_subset_Icc le_rfl (by omega)
    have hcard := card_Icc_count r.Start hC
    have hcount := h.counted.singled hlist
    have hpop : rangeSetPop rs Count = (.success, some r.Start,
        if r.Start + Count > r.End then
          rangeSetRemove (rs.taken ⟨mid.reverse, ⟨r.Start + Count, r.End⟩ :: tail⟩ rs.RangeCount
            Count rs.Spare) true
        else rs.taken ⟨mid.reverse, ⟨r.Start + Count, r.End⟩ :: tail⟩ rs.RangeCount Count
          rs.Spare) := by
      rw [rangeSetPop, if_neg hC', hfind]
      simp only [hstart]
      rfl
    have hleast : IsLeast {a | HasRun rs.items a Count} r.Start := by
      refine ⟨h.separated.hasRun hr hlong, fun a hrun => ?_⟩
      obtain ⟨r', hr', rfl, hlen⟩ := h.separated.exists_start_eq hC hrun
      have hs := h.separated
      rw [hlist, List.reverse_reverse] at hr' hs
      obtain ⟨-, hsr, -⟩ := separated_append.mp hs
      obtain ⟨hn, hrt, -⟩ := separated_cons.mp hsr
      rcases List.mem_append.mp hr' with hr' | hr'
      · have := hmid r' hr'
        omega
      · rcases List.mem_cons.mp hr' with rfl | hr'
        · exact le_rfl
        · have := hrt r' hr'
          omega
    refine ⟨r.Start, _, hpop, hleast, ?_⟩
    by_cases hall : r.Start + Count > r.End
    · -- the whole range: its node is removed
      rw [if_pos hall]
      have hnew : IntInterval.items [] =
          Finset.Icc r.Start r.End \ Finset.Icc r.Start (r.Start + Count - 1) := by
        symm
        rw [IntInterval.items, Finset.sdiff_eq_empty_iff_subset]
        exact Finset.Icc_subset_Icc le_rfl (by omega)
      obtain ⟨hwf, hitems⟩ := h.taken hlist [] true
        (n := (rs.RangeCount + 4294967295) % 4294967296)
        (CursorList.toList_removeForward mid.reverse tail ⟨r.Start + Count, r.End⟩)
        separated_nil (by simp) hnew hT (by rw [hcount]; simp; omega)
      rw [hcard] at hwf hitems
      refine ⟨hwf, fun hne => ?_, hitems⟩
      refine CursorList.removeForward_after _ _ _ ?_
      rwa [← CursorList.toList_removeForward]
    · rw [if_neg hall]
      have hnew : IntInterval.items [⟨r.Start + Count, r.End⟩] =
          Finset.Icc r.Start r.End \ Finset.Icc r.Start (r.Start + Count - 1) := by
        ext x
        simp [IntInterval.items]
        omega
      obtain ⟨hwf, hitems⟩ := h.taken hlist [⟨r.Start + Count, r.End⟩] rs.Spare
        (l := ⟨mid.reverse, ⟨r.Start + Count, r.End⟩ :: tail⟩) (n := rs.RangeCount) (by simp)
        (separated_cons.mpr ⟨by change r.Start + Count ≤ r.End; omega, by simp, separated_nil⟩)
        (by simp) hnew hT (by rw [hcount]; simp; omega)
      rw [hcard] at hwf hitems
      exact ⟨hwf, cursorValid_of_after (by simp [taken]), hitems⟩

end XenBus.RangeSet
