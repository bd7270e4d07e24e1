import XenBus.Foundations.Transition
import XenBus.RangeSet.WellFormed

/-!
# The range set is a finite set of integers

The abstract range set is a `Finset ℤ`. `Admissible` says which calls its users make, and `Meets`
what a call does to it: `RangeSetPut` is the union, `RangeSetGet` the difference, and `RangeSetPop`
takes the first items of the first maximal run that is long enough.

* `refines`: along every run of admissible calls whose node allocations succeed, every call returns
  and meets this specification, with `items` as the abstraction.
* `Sound.eq_single`, `rangeSetGet_top`: a set whose items are one interval has one range, and taking items
  off its top needs no node.
* `atomic_iff_interior`: a call whose node allocation fails leaves the content as it was, and leaves
  the cursor at an element of the list iff the interval is not at an end of a non-empty set.
-/

namespace XenBus.RangeSet

open MachineInt IntInterval Transition

/-! ## Calls -/

/-- A call. -/
inductive Op
  | put (Start : ℤ) (Count : ℕ)
  | get (Start : ℤ) (Count : ℕ)
  | pop (Count : ℕ)
  deriving DecidableEq, Repr

/-- The status that a call returns, and `*Start` for `RangeSetPop`. -/
abbrev Result := Status × Option ℤ

/-- The call `op`, with the outcome of the node allocation. -/
def perform (rs : RangeSet) (op : Op) (allocate : Bool) : Option (Result × RangeSet) :=
  match op with
  | .put Start Count => (rangeSetPut rs Start Count allocate).map fun (s, rs') => ((s, none), rs')
  | .get Start Count => (rangeSetGet rs Start Count allocate).map fun (s, rs') => ((s, none), rs')
  | .pop Count =>
    let (s, start, rs') := rangeSetPop rs Count
    some ((s, start), rs')

/-- The system: a call and the outcome of its allocation. -/
def step (rs : RangeSet) (a : Op × Bool) : Option RangeSet :=
  (perform rs a.1 a.2).map Prod.snd

/-! ## The abstract set -/

/-- The calls that the users of the set `S` make: a put is disjoint from the set and away from the
64-bit limits, a get is contained in it. -/
def Admissible (S : Finset ℤ) : Op → Prop
  | .put Start Count => -9223372036854775808 < Start ∧ Start + Count ≤ 9223372036854775807 ∧
      Disjoint S (Finset.Ico Start (Start + Count))
  | .get Start Count => 1 ≤ Count ∧ Finset.Ico Start (Start + Count) ⊆ S
  | .pop Count => 1 ≤ Count

noncomputable instance (S : Finset ℤ) : (op : Op) → Decidable (Admissible S op)
  | .put .. => inferInstanceAs (Decidable (_ ∧ _ ∧ _))
  | .get .. => inferInstanceAs (Decidable (_ ∧ _))
  | .pop Count => inferInstanceAs (Decidable (1 ≤ Count))

/-- What a call with result `res` does to the set. -/
def Meets (S : Finset ℤ) (op : Op) (res : Result) (S' : Finset ℤ) : Prop :=
  match op with
  | .put Start Count => (1 ≤ Count → res.1 = .success) ∧ S' = S ∪ Finset.Ico Start (Start + Count)
  | .get Start Count => res.1 = .success ∧ S' = S \ Finset.Ico Start (Start + Count)
  | .pop Count =>
    (res.1 = .success ↔ ∃ a : ℤ, ∀ k : ℕ, k < Count → a + k ∈ S) ∧
    (res.1 = .success → ∃ a, res.2 = some a ∧ IsLeast {a | HasRun S a Count} a ∧
      S' = S \ Finset.Ico a (a + Count)) ∧
    (res.1 ≠ .success → S' = S)

theorem Ico_eq_Icc (a b : ℤ) : Finset.Ico a b = Finset.Icc a (b - 1) := by
  ext x
  simp only [Finset.mem_Ico, Finset.mem_Icc]
  omega

theorem clear_of_disjoint {S : Finset ℤ} {Start : ℤ} {Count : ℕ}
    (h : Disjoint S (Finset.Ico Start (Start + Count))) : Clear S Start (Start + Count - 1) := by
  intro x hx
  by_contra hcon
  exact Finset.disjoint_left.mp h hx (Finset.mem_Ico.mpr (by omega))

/-! ## Refinement -/

/-- The invariant of runs in which no allocation fails. -/
structure Sound (rs : RangeSet) : Prop where
  wellFormed : rs.WellFormed
  cursor : rs.CursorValid

theorem sound_create : Sound rangeSetCreate := ⟨wellFormed_create, cursorValid_create⟩

/-- One call from a sound range set. -/
theorem Sound.perform {rs : RangeSet} (h : Sound rs) {op : Op} (hop : Admissible rs.items op) :
    ∃ res rs', perform rs op true = some (res, rs') ∧ Sound rs' ∧
      Meets rs.items op res rs'.items := by
  cases op with
  | put Start Count =>
    obtain ⟨hlo, hhi, hdisj⟩ := hop
    rcases Nat.eq_zero_or_pos Count with rfl | hC
    · exact ⟨(.invalidParameter, none), rs, rfl, h, by simp, by simp⟩
    · obtain ⟨rs', hput, hwf, hcur, hitems⟩ := rangeSetPut_spec h.wellFormed h.cursor hC hlo
        (by omega) (clear_of_disjoint hdisj) (Bool.or_true rs.Spare)
      refine ⟨(.success, none), rs', by simp [RangeSet.perform, hput], ⟨hwf, hcur⟩, fun _ => rfl, ?_⟩
      rw [hitems, Ico_eq_Icc]
  | get Start Count =>
    obtain ⟨hC, hsub⟩ := hop
    rw [Ico_eq_Icc] at hsub
    rcases rangeSetGet_spec h.wellFormed h.cursor hC hsub true with
      ⟨rs', hget, hwf, hcur, hitems⟩ | ⟨halloc, -⟩
    · refine ⟨(.success, none), rs', by simp [RangeSet.perform, hget], ⟨hwf, hcur⟩, rfl, ?_⟩
      rw [hitems, Ico_eq_Icc]
    · simp at halloc
  | pop Count =>
    have hiff := h.wellFormed.separated.exists_hasRun_iff hop
    rcases rangeSetPop_spec h.wellFormed hop with
      ⟨a, rs', hpop, hleast, hwf, hcur, hitems⟩ | ⟨hnone, hpop⟩
    · refine ⟨(.success, some a), rs', by simp [RangeSet.perform, hpop], ⟨hwf, hcur⟩, ?_, ?_, ?_⟩
      · exact iff_of_true rfl (hiff.mp ⟨a, hleast.1⟩)
      · exact fun _ => ⟨a, rfl, hleast, by rw [hitems, Ico_eq_Icc]⟩
      · exact fun hne => absurd rfl hne
    · refine ⟨(.insufficientResources, none), rs, by simp [RangeSet.perform, hpop], h, ?_, ?_, ?_⟩
      · exact iff_of_false (by simp) fun hex => hnone (hiff.mpr hex)
      · exact fun hs => absurd hs (by simp)
      · exact fun _ => rfl

/-- **The range set refines a finite set of integers.** In every state reached by admissible calls
whose allocations succeed, the item count is the size of the set, and every admissible call returns
and does to the set what `Meets` says. -/
theorem refines {rs : RangeSet}
    (h : Reaches step (fun rs a => a.2 = true ∧ Admissible rs.items a.1) rangeSetCreate rs) :
    rs.ItemCount = rs.items.card ∧ ∀ op, Admissible rs.items op →
      ∃ res rs', perform rs op true = some (res, rs') ∧ Meets rs.items op res rs'.items := by
  have hsound : Sound rs := by
    refine h.invariant sound_create fun rs a rs' hs ⟨ha, hop⟩ hstep => ?_
    obtain ⟨op, allocate⟩ := a
    obtain rfl : allocate = true := ha
    obtain ⟨res, rs'', hperf, hs', -⟩ := hs.perform hop
    rw [step, hperf] at hstep
    exact Option.some.inj hstep ▸ hs'
  refine ⟨hsound.wellFormed.itemCount, fun op hop => ?_⟩
  obtain ⟨res, rs', hperf, -, hmeets⟩ := hsound.perform hop
  exact ⟨res, rs', hperf, hmeets⟩

/-- A first put, a pop from it and a get of one of the items left. -/
theorem refines_put_pop_get : ∃ rs, rs.ItemCount = rs.items.card ∧
    ∃ res rs', perform rs (.get 4 1) true = some (res, rs') ∧
      Meets rs.items (.get 4 1) res rs'.items := by
  have hrun : Reaches step (fun rs a => a.2 = true ∧ Admissible rs.items a.1) rangeSetCreate
      ⟨⟨[], [⟨3, 5⟩]⟩, 1, 3, false⟩ :=
    reaches_cons (a := (.put 1 5, true)) ⟨rfl, by decide⟩ rfl <|
      reaches_cons (a := (.pop 2, true)) ⟨rfl, by decide⟩ rfl <| .refl _
  obtain ⟨hcount, hmeets⟩ := refines hrun
  exact ⟨_, hcount, hmeets _ (by decide)⟩

/-! ## One range -/

/-- The range set whose only range is from `Start` to `End`. -/
def single (Start End : ℤ) (Spare : Bool) : RangeSet where
  Ranges := ⟨[], [⟨Start, End⟩]⟩
  RangeCount := 1
  ItemCount := (End + 1 - Start).toNat
  Spare := Spare

/-- The range set without a range. -/
def vacant (Spare : Bool) : RangeSet := { rangeSetCreate with Spare := Spare }

/-- A sound range set of the items of one interval has one range. -/
theorem Sound.eq_single {rs : RangeSet} (h : Sound rs) {a b : ℤ} (hab : a ≤ b)
    (hitems : ∀ x, x ∈ rs.items ↔ a ≤ x ∧ x ≤ b) : rs = single a b rs.Spare := by
  have hlist : rs.Ranges.toList = [⟨a, b⟩] := h.wellFormed.separated.eq_singleton hab hitems
  have hafter := h.cursor (by rw [hlist]; exact List.cons_ne_nil _ _)
  have hrangeCount := h.wellFormed.counted
  have hitemCount := h.wellFormed.itemCount
  have hcard : rs.items = Finset.Icc a b := Finset.ext fun x => by rw [hitems, Finset.mem_Icc]
  rw [hcard, Int.card_Icc] at hitemCount
  rw [Counted, hlist] at hrangeCount
  obtain ⟨⟨before, after⟩, RangeCount, ItemCount, Spare⟩ := rs
  obtain rfl : ItemCount = _ := hitemCount
  obtain rfl : RangeCount = 1 := hrangeCount
  cases after with
  | nil => exact absurd rfl hafter
  | cons r rest =>
    have hbefore : before = [] ∧ r = ⟨a, b⟩ ∧ rest = [] := by
      change before.reverse ++ r :: rest = [⟨a, b⟩] at hlist
      have hlength := congrArg List.length hlist
      simp only [List.length_append, List.length_reverse, List.length_cons, List.length_nil] at hlength
      obtain rfl := List.eq_nil_of_length_eq_zero (by omega : before.length = 0)
      obtain rfl := List.eq_nil_of_length_eq_zero (by omega : rest.length = 0)
      exact ⟨rfl, List.singleton_inj.mp hlist, rfl⟩
    obtain ⟨rfl, rfl, rfl⟩ := hbefore
    rfl

/-- A sound range set without items has no range. -/
theorem Sound.eq_vacant {rs : RangeSet} (h : Sound rs) (hitems : rs.items = ∅) : rs = vacant rs.Spare := by
  have hlist : rs.Ranges.toList = [] := by
    by_contra hne
    obtain ⟨r, hr⟩ := List.exists_mem_of_ne_nil _ hne
    have hmem : r.Start ∈ rs.items :=
      mem_items.mpr ⟨r, hr, le_rfl, h.wellFormed.separated.nonempty r hr⟩
    rw [hitems] at hmem
    exact Finset.notMem_empty _ hmem
  have hrangeCount := h.wellFormed.counted
  have hitemCount := h.wellFormed.itemCount
  rw [hitems] at hitemCount
  rw [Counted, hlist] at hrangeCount
  obtain ⟨⟨before, after⟩, RangeCount, ItemCount, Spare⟩ := rs
  obtain rfl : ItemCount = 0 := hitemCount
  obtain rfl : RangeCount = 0 := hrangeCount
  obtain ⟨hbefore, rfl⟩ := List.append_eq_nil_iff.mp hlist
  obtain rfl := List.reverse_eq_nil_iff.mp hbefore
  rfl

/-- **Taking items off the top** of one range leaves one range, and needs no node. -/
theorem rangeSetGet_top {a Start : ℤ} {Count : ℕ} (hlo : -9223372036854775808 < a) (ha : a < Start)
    (hC : 0 < Count) (hhi : Start + Count ≤ 9223372036854775807) (Spare allocate : Bool) :
    rangeSetGet (single a (Start + Count - 1) Spare) Start Count allocate =
      some (.success, single a (Start - 1) Spare) := by
  have hEnd : long64 (Start + Count - 1) = Start + Count - 1 := long64_of_mem (by omega) (by omega)
  have hStart : long64 (Start - 1) = Start - 1 := long64_of_mem (by omega) (by omega)
  have hge : ¬ Start < a := by omega
  have hle : ¬ Start > Start + Count - 1 := by omega
  have hfind : getFind Start (single a (Start + Count - 1) Spare).Ranges =
      some ⟨[], [⟨a, Start + Count - 1⟩]⟩ := by
    simp only [single, getFind, if_neg hge, if_neg hle]
  have hcount : ((Start + Count - 1 + 1 - a).toNat + (18446744073709551616 - Count)) %
      18446744073709551616 = (Start - 1 + 1 - a).toNat := by omega
  have hfound : getFound (single a (Start + Count - 1) Spare) [] ⟨a, Start + Count - 1⟩ [] Start
      (Start + Count - 1) Count allocate = (.success, single a (Start - 1) Spare) := by
    simp only [getFound, ne_of_gt ha, false_and, if_false, if_true, hStart, getDone, single, hcount]
  rw [rangeSetGet, if_neg (Nat.ne_of_gt hC), hfind, hEnd]
  exact congrArg some hfound

/-- Taking all items leaves no range. -/
theorem rangeSetGet_single {Start : ℤ} {Count : ℕ} (hlo : -9223372036854775808 < Start)
    (hC : 0 < Count) (hhi : Start + Count ≤ 9223372036854775807) (Spare allocate : Bool) :
    rangeSetGet (single Start (Start + Count - 1) Spare) Start Count allocate =
      some (.success, vacant true) := by
  have hEnd : long64 (Start + Count - 1) = Start + Count - 1 := long64_of_mem (by omega) (by omega)
  have hle : ¬ Start > Start + Count - 1 := by omega
  have hfind : getFind Start (single Start (Start + Count - 1) Spare).Ranges =
      some ⟨[], [⟨Start, Start + Count - 1⟩]⟩ := by
    simp only [single, getFind, if_neg (lt_irrefl Start), if_neg hle]
  have hcount : ((Start + Count - 1 + 1 - Start).toNat + (18446744073709551616 - Count)) %
      18446744073709551616 = 0 := by omega
  have hfound : getFound (single Start (Start + Count - 1) Spare) [] ⟨Start, Start + Count - 1⟩ [] Start
      (Start + Count - 1) Count allocate = (.success, vacant true) := by
    simp only [getFound, and_self, if_true, getDone, rangeSetRemove, single, hcount]
    rfl
  rw [rangeSetGet, if_neg (Nat.ne_of_gt hC), hfind, hEnd]
  exact congrArg some hfound

/-! ## Failing allocations -/

/-- A call leaves the content as it was and the cursor at an element, unless the list is empty. -/
structure Atomic (rs rs' : RangeSet) : Prop where
  list : rs'.Ranges.toList = rs.Ranges.toList
  rangeCount : rs'.RangeCount = rs.RangeCount
  itemCount : rs'.ItemCount = rs.ItemCount
  cursor : rs'.CursorValid

/-- A put into an empty set, or between items of the set; any get. -/
def Interior (S : Finset ℤ) : Op → Prop
  | .put Start Count => S = ∅ ∨ (∃ x ∈ S, x < Start) ∧ ∃ x ∈ S, Start + Count ≤ x
  | .get .. => True
  | .pop .. => True

theorem items_eq_empty {rs : RangeSet} (h : rs.WellFormed) :
    rs.items = ∅ ↔ rs.Ranges.toList = [] := by
  constructor
  · intro hempty
    by_contra hne
    obtain ⟨r, hr⟩ := List.exists_mem_of_ne_nil _ hne
    have hmem : r.Start ∈ rs.items := mem_items.mpr ⟨r, hr, le_rfl, h.separated.nonempty r hr⟩
    rw [hempty] at hmem
    simp at hmem
  · intro hnil
    rw [items, hnil, IntInterval.items]

/-- One call from a well-formed range set, whatever its allocation does: it keeps the invariant, and
if it fails to allocate a node it is atomic iff it is interior. -/
theorem WellFormed.perform {rs rs' : RangeSet} (h : rs.WellFormed) {op : Op} {allocate : Bool}
    {res : Result} (hop : Admissible rs.items op)
    (hp : perform rs op allocate = some (res, rs')) :
    rs'.WellFormed ∧ (res.1 = .noMemory → (Atomic rs rs' ↔ Interior rs.items op)) := by
  cases op with
  | put Start Count =>
    obtain ⟨hlo, hhi, hdisj⟩ := hop
    rcases Nat.eq_zero_or_pos Count with rfl | hC
    · obtain ⟨rfl, rfl⟩ := Prod.mk.inj (Option.some.inj hp)
      exact ⟨h, by simp⟩
    · by_cases hcur : rs.CursorValid
      · have hclear := clear_of_disjoint hdisj
        cases halloc : rs.Spare || allocate with
        | true =>
          obtain ⟨rs'', hput, hwf, -, -⟩ := rangeSetPut_spec h hcur hC hlo (by omega) hclear halloc
          rw [RangeSet.perform, hput] at hp
          obtain ⟨rfl, rfl⟩ := Prod.mk.inj (Option.some.inj hp)
          exact ⟨hwf, by simp⟩
        | false =>
          obtain ⟨l, hput, hlist, hafter⟩ :=
            rangeSetPut_noMemory h hcur hC hlo (by omega) hclear halloc
          rw [RangeSet.perform, hput] at hp
          obtain ⟨rfl, rfl⟩ := Prod.mk.inj (Option.some.inj hp)
          refine ⟨h.moveCursor hlist, fun _ => ?_⟩
          have hend : (∃ x ∈ rs.items, Start + Count - 1 < x) ↔
              ∃ x ∈ rs.items, Start + Count ≤ x := by
            simp only [Int.sub_one_lt_iff]
          rw [hend] at hafter
          constructor
          · intro hatomic
            by_cases hnil : rs.Ranges.toList = []
            · exact .inl ((items_eq_empty h).mpr hnil)
            · exact .inr (hafter.mp (hatomic.cursor (by rwa [hlist])))
          · intro hint
            refine ⟨hlist, rfl, rfl, fun hne => ?_⟩
            rcases hint with hempty | hint
            · exact absurd (hlist.trans ((items_eq_empty h).mp hempty)) hne
            · exact hafter.mpr hint
      · rw [RangeSet.perform, rangeSetPut_eq_none hcur hC] at hp
        simp at hp
  | get Start Count =>
    obtain ⟨hC, hsub⟩ := hop
    rw [Ico_eq_Icc] at hsub
    by_cases hcur : rs.CursorValid
    · rcases rangeSetGet_spec h hcur hC hsub allocate with
        ⟨rs'', hget, hwf, -, -⟩ | ⟨-, l, hget, hlist, hafter⟩
      · rw [RangeSet.perform, hget] at hp
        obtain ⟨rfl, rfl⟩ := Prod.mk.inj (Option.some.inj hp)
        exact ⟨hwf, by simp⟩
      · rw [RangeSet.perform, hget] at hp
        obtain ⟨rfl, rfl⟩ := Prod.mk.inj (Option.some.inj hp)
        exact ⟨h.moveCursor hlist,
          fun _ => iff_of_true ⟨hlist, rfl, rfl, fun _ => hafter⟩ trivial⟩
    · rw [RangeSet.perform, rangeSetGet_eq_none hcur hC] at hp
      simp at hp
  | pop Count =>
    rcases rangeSetPop_spec h hop with ⟨a, rs'', hpop, -, hwf, -, -⟩ | ⟨-, hpop⟩
    · rw [RangeSet.perform, hpop] at hp
      obtain ⟨rfl, rfl⟩ := Prod.mk.inj (Option.some.inj hp)
      exact ⟨hwf, by simp⟩
    · rw [RangeSet.perform, hpop] at hp
      obtain ⟨rfl, rfl⟩ := Prod.mk.inj (Option.some.inj hp)
      exact ⟨h, by simp⟩

/-- **Failing allocations.** In every state reached by admissible calls with any outcomes of their
allocations, an admissible call that returns `STATUS_NO_MEMORY` leaves the content as it was and the
cursor at an element of the list iff it is a get, or a put of an interval that has items on both
sides (or of the first interval). -/
theorem atomic_iff_interior {rs rs' : RangeSet} {op : Op} {allocate : Bool} {res : Result}
    (h : Reaches step (fun rs a => Admissible rs.items a.1) rangeSetCreate rs)
    (hop : Admissible rs.items op) (hp : perform rs op allocate = some (res, rs'))
    (hres : res.1 = .noMemory) : Atomic rs rs' ↔ Interior rs.items op := by
  have hwf : rs.WellFormed := by
    refine h.invariant wellFormed_create fun rs a rs' hs hop hstep => ?_
    obtain ⟨op, allocate⟩ := a
    obtain ⟨⟨res, rs''⟩, hperf, rfl⟩ := Option.map_eq_some_iff.mp hstep
    exact (hs.perform hop hperf).1
  exact (hwf.perform hop hp).2 hres

/-- Items 1 to 3 and 7 to 9: a put of 5, between them, fails to allocate and is atomic. -/
theorem atomic_iff_interior_between : ∃ rs rs', Atomic rs rs' ∧ rs.items.Nonempty := by
  have hrun : Reaches step (fun rs a => Admissible rs.items a.1) rangeSetCreate
      ⟨⟨[⟨1, 3⟩], [⟨7, 9⟩]⟩, 2, 6, false⟩ :=
    reaches_cons (a := (.put 1 3, true)) (by decide) rfl <|
      reaches_cons (a := (.put 7 3, true)) (by decide) rfl <| .refl _
  have hput : perform ⟨⟨[⟨1, 3⟩], [⟨7, 9⟩]⟩, 2, 6, false⟩ (.put 5 1) false =
      some ((.noMemory, none), ⟨⟨[], [⟨1, 3⟩, ⟨7, 9⟩]⟩, 2, 6, false⟩) := rfl
  exact ⟨_, _, (atomic_iff_interior hrun (by decide) hput rfl).mpr
    (.inr ⟨⟨1, by decide⟩, ⟨7, by decide⟩⟩), ⟨1, by decide⟩⟩

/-- A put of 20 after a put of 10 fails to allocate: the cursor is left at the anchor, and the next
put reads the list head as a `RANGE`. -/
theorem not_atomic_put_at_end : ∃ rs rs' : RangeSet,
    Reaches step (fun rs a => Admissible rs.items a.1) rangeSetCreate rs ∧
    Admissible rs.items (.put 20 1) ∧
    perform rs (.put 20 1) false = some ((.noMemory, none), rs') ∧ ¬ Atomic rs rs' ∧
    Admissible rs'.items (.put 30 1) ∧ perform rs' (.put 30 1) true = none := by
  refine ⟨⟨⟨[], [⟨10, 10⟩]⟩, 1, 1, false⟩, ⟨⟨[⟨10, 10⟩], []⟩, 1, 1, false⟩, ?_, by decide, rfl, ?_,
    by decide, rfl⟩
  · exact Reaches.single (a := (.put 10 1, true)) (by decide) rfl
  · exact fun h => h.cursor (by decide) rfl

end XenBus.RangeSet
