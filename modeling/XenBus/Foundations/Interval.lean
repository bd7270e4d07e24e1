import Mathlib.Data.Int.ConditionallyCompleteOrder
import Mathlib.Data.Int.Interval
import Mathlib.Tactic.Linarith

/-!
# Sets of integers as lists of intervals

A list of closed intervals represents the set of the integers in them (`items`). The list is
*separated* when its intervals are non-empty, in ascending order, and no two of them overlap or
touch; its intervals are then the maximal runs of the set: an interval inside the set is inside one
of them (`Separated.exists_of_subset`), and a run that cannot be extended to the left starts where one
of them starts (`Separated.exists_start_eq`).

`HasRun S a n` says that a maximal run of `S` starts at `a` and has at least `n` members.
-/

/-- The closed interval `[Start, End]`. -/
@[ext] structure IntInterval where
  Start : ℤ
  End : ℤ
  deriving DecidableEq, Repr

namespace IntInterval

/-- The integers in a list of intervals. -/
noncomputable def items : List IntInterval → Finset ℤ
  | [] => ∅
  | r :: l => Finset.Icc r.Start r.End ∪ items l

@[simp] theorem mem_items {l : List IntInterval} {x : ℤ} :
    x ∈ items l ↔ ∃ r ∈ l, r.Start ≤ x ∧ x ≤ r.End := by
  induction l with
  | nil => simp [items]
  | cons r l ih => simp [items, ih]

theorem items_append (l m : List IntInterval) : items (l ++ m) = items l ∪ items m := by
  ext x
  simp [or_and_right, exists_or]

/-- Non-empty intervals in ascending order that neither overlap nor touch. -/
structure Separated (l : List IntInterval) : Prop where
  apart : l.Pairwise fun r r' => r.End + 1 < r'.Start
  nonempty : ∀ r ∈ l, r.Start ≤ r.End

theorem separated_nil : Separated [] := ⟨.nil, by simp⟩

theorem separated_cons {r : IntInterval} {l : List IntInterval} :
    Separated (r :: l) ↔
      r.Start ≤ r.End ∧ (∀ r' ∈ l, r.End + 1 < r'.Start) ∧ Separated l := by
  constructor
  · intro h
    obtain ⟨h1, h2⟩ := List.pairwise_cons.mp h.apart
    exact ⟨h.nonempty r (by simp), h1, h2, fun r' hr' => h.nonempty r' (by simp [hr'])⟩
  · rintro ⟨h1, h2, h3⟩
    refine ⟨List.pairwise_cons.mpr ⟨h2, h3.apart⟩, fun r' hr' => ?_⟩
    rcases List.mem_cons.mp hr' with rfl | hr'
    · exact h1
    · exact h3.nonempty r' hr'

theorem separated_append {l m : List IntInterval} :
    Separated (l ++ m) ↔
      Separated l ∧ Separated m ∧ ∀ r ∈ l, ∀ r' ∈ m, r.End + 1 < r'.Start := by
  constructor
  · intro h
    obtain ⟨h1, h2, h3⟩ := List.pairwise_append.mp h.apart
    exact ⟨⟨h1, fun r hr => h.nonempty r (by simp [hr])⟩,
      ⟨h2, fun r hr => h.nonempty r (by simp [hr])⟩, h3⟩
  · rintro ⟨h1, h2, h3⟩
    refine ⟨List.pairwise_append.mpr ⟨h1.apart, h2.apart, h3⟩, fun r hr => ?_⟩
    rcases List.mem_append.mp hr with hr | hr
    · exact h1.nonempty r hr
    · exact h2.nonempty r hr

namespace Separated

variable {l : List IntInterval}

/-- The intervals of a separated list are pairwise the same or apart. -/
theorem eq_or_apart (h : Separated l) {r r' : IntInterval} (hr : r ∈ l) (hr' : r' ∈ l) :
    r = r' ∨ r.End + 1 < r'.Start ∨ r'.End + 1 < r.Start := by
  induction l with
  | nil => simp at hr
  | cons a l ih =>
    obtain ⟨-, h2, h3⟩ := separated_cons.mp h
    rcases List.mem_cons.mp hr with h1 | h1 <;> rcases List.mem_cons.mp hr' with h1' | h1'
    · exact .inl (h1.trans h1'.symm)
    · exact .inr (.inl (h1 ▸ h2 r' h1'))
    · exact .inr (.inr (h1' ▸ h2 r h1))
    · exact ih h3 h1 h1'

/-- The integer before an interval of the list is not in the set. -/
theorem start_sub_one_notMem (h : Separated l) {r : IntInterval} (hr : r ∈ l) :
    r.Start - 1 ∉ items l := by
  rw [mem_items]
  rintro ⟨r', hr', h1, h2⟩
  have := h.nonempty r hr
  rcases h.eq_or_apart hr hr' with rfl | h | h <;> omega

/-- An integer of the set belongs to one interval only. -/
theorem eq_of_mem (h : Separated l) {r r' : IntInterval} (hr : r ∈ l) (hr' : r' ∈ l) {x : ℤ}
    (hx : r.Start ≤ x ∧ x ≤ r.End) (hx' : r'.Start ≤ x ∧ x ≤ r'.End) : r = r' := by
  rcases h.eq_or_apart hr hr' with h | h | h
  · exact h
  · omega
  · omega

/-- **An interval inside the set is inside one of its intervals.** -/
theorem exists_of_subset (h : Separated l) {a : ℤ} {n : ℕ}
    (hsub : ∀ k : ℕ, k ≤ n → a + k ∈ items l) :
    ∃ r ∈ l, r.Start ≤ a ∧ a + n ≤ r.End := by
  induction n with
  | zero =>
    obtain ⟨r, hr, h1, h2⟩ := mem_items.mp (hsub 0 le_rfl)
    exact ⟨r, hr, by simpa using h1, by simpa using h2⟩
  | succ n ih =>
    obtain ⟨r, hr, h1, h2⟩ := ih fun k hk => hsub k (by omega)
    obtain ⟨r', hr', h1', h2'⟩ := mem_items.mp (hsub (n + 1) le_rfl)
    push_cast at h1' h2' ⊢
    -- the next integer belongs to the same interval, as two intervals do not touch
    rcases h.eq_or_apart hr hr' with rfl | ha | ha
    · exact ⟨r, hr, h1, by omega⟩
    · omega
    · have := h.nonempty r hr
      omega

/-- A separated list of the integers of one interval is that interval. -/
theorem eq_singleton (h : Separated l) {a b : ℤ} (hab : a ≤ b)
    (hitems : ∀ x, x ∈ items l ↔ a ≤ x ∧ x ≤ b) : l = [⟨a, b⟩] := by
  obtain ⟨r, hr, h1, h2⟩ := h.exists_of_subset (a := a) (n := (b - a).toNat) fun k hk =>
    (hitems _).mpr ⟨by omega, by omega⟩
  have hall : ∀ r' ∈ l, r' = ⟨a, b⟩ := fun r' hr' => by
    have hne := h.nonempty r' hr'
    have hstart := (hitems _).mp (mem_items.mpr ⟨r', hr', le_rfl, hne⟩)
    have hend := (hitems _).mp (mem_items.mpr ⟨r', hr', hne, le_rfl⟩)
    obtain rfl := h.eq_of_mem hr hr' (x := r'.Start) ⟨by omega, by omega⟩ ⟨le_rfl, hne⟩
    have hS : r.Start = a := by omega
    have hE : r.End = b := by omega
    rw [← hS, ← hE]
  cases l with
  | nil => exact absurd hr List.not_mem_nil
  | cons x l =>
    obtain ⟨-, hapart, -⟩ := separated_cons.mp h
    obtain rfl := hall x List.mem_cons_self
    have hnil : l = [] := List.eq_nil_iff_forall_not_mem.mpr fun y hy => by
      have hlt := hapart y hy
      rw [hall y (List.mem_cons_of_mem _ hy)] at hlt
      change b + 1 < a at hlt
      omega
    rw [hnil]

end Separated

/-! ## Changing one interval -/

/-- Replacing an interval by a separated list inside it. -/
theorem Separated.replace {l m rs : List IntInterval} {r : IntInterval} (h : Separated (l ++ r :: m))
    (hrs : Separated rs) (hin : ∀ r' ∈ rs, r.Start ≤ r'.Start ∧ r'.End ≤ r.End) :
    Separated (l ++ (rs ++ m)) := by
  obtain ⟨hl, hrm, hlrm⟩ := separated_append.mp h
  obtain ⟨-, hr, hm⟩ := separated_cons.mp hrm
  refine separated_append.mpr ⟨hl, separated_append.mpr ⟨hrs, hm, ?_⟩, ?_⟩
  · intro r' hr' a ha
    have := hin r' hr'
    have := hr a ha
    omega
  · intro b hb a ha
    rcases List.mem_append.mp ha with ha | ha
    · have := hin a ha
      have := hlrm b hb r (by simp)
      omega
    · exact hlrm b hb a (by simp [ha])

/-- Taking out of an interval what it contains takes it out of the set. -/
theorem items_replace {l m rs : List IntInterval} {r : IntInterval} (h : Separated (l ++ r :: m))
    {T : Finset ℤ} (hrs : items rs = Finset.Icc r.Start r.End \ T)
    (hT : T ⊆ Finset.Icc r.Start r.End) :
    items (l ++ (rs ++ m)) = items (l ++ r :: m) \ T := by
  obtain ⟨-, hrm, hlrm⟩ := separated_append.mp h
  obtain ⟨-, hr, -⟩ := separated_cons.mp hrm
  have hl : items l \ T = items l := by
    refine Finset.sdiff_eq_self_of_disjoint (Finset.disjoint_left.mpr fun x hx hxT => ?_)
    obtain ⟨b, hb, h1, h2⟩ := mem_items.mp hx
    have := Finset.mem_Icc.mp (hT hxT)
    have := hlrm b hb r (by simp)
    omega
  have hm : items m \ T = items m := by
    refine Finset.sdiff_eq_self_of_disjoint (Finset.disjoint_left.mpr fun x hx hxT => ?_)
    obtain ⟨a, ha, h1, h2⟩ := mem_items.mp hx
    have := Finset.mem_Icc.mp (hT hxT)
    have := hr a ha
    omega
  calc items (l ++ (rs ++ m))
      = (items l \ T) ∪ ((Finset.Icc r.Start r.End \ T) ∪ (items m \ T)) := by
        rw [items_append, items_append, hrs, hl, hm]
    _ = items (l ++ r :: m) \ T := by
        rw [items_append, items, Finset.union_sdiff_distrib, Finset.union_sdiff_distrib]

/-- Two intervals of which the second starts right after the first are one interval. -/
theorem Icc_union_Icc_of_touching {a b c : ℤ} (hab : a ≤ b + 1) (hbc : b ≤ c) :
    Finset.Icc a b ∪ Finset.Icc (b + 1) c = Finset.Icc a c := by
  ext x
  simp only [Finset.mem_union, Finset.mem_Icc]
  omega

/-! ## Runs -/

/-- A maximal run of `S` starts at `a` and has at least `n` members. -/
def HasRun (S : Finset ℤ) (a : ℤ) (n : ℕ) : Prop := a - 1 ∉ S ∧ ∀ k : ℕ, k < n → a + k ∈ S

/-- A run that cannot be extended to the left starts where one of the intervals starts. -/
theorem Separated.exists_start_eq {l : List IntInterval} (h : Separated l) {a : ℤ} {n : ℕ} (hn : 0 < n)
    (hrun : HasRun (items l) a n) : ∃ r ∈ l, r.Start = a ∧ a + n ≤ r.End + 1 := by
  obtain ⟨r, hr, h1, h2⟩ := h.exists_of_subset (n := n - 1) fun k hk => hrun.2 k (by omega)
  refine ⟨r, hr, ?_, by omega⟩
  by_contra hne
  exact hrun.1 (mem_items.mpr ⟨r, hr, by omega, by omega⟩)

/-- An interval of the list that is long enough is such a run. -/
theorem Separated.hasRun {l : List IntInterval} (h : Separated l) {r : IntInterval} (hr : r ∈ l) {n : ℕ}
    (hn : r.Start + n ≤ r.End + 1) : HasRun (items l) r.Start n :=
  ⟨h.start_sub_one_notMem hr, fun k hk => mem_items.mpr ⟨r, hr, by omega, by omega⟩⟩

/-- The set contains `n` consecutive integers iff a maximal run has `n` members. -/
theorem Separated.exists_hasRun_iff {l : List IntInterval} (h : Separated l) {n : ℕ} (hn : 0 < n) :
    (∃ a, HasRun (items l) a n) ↔ ∃ a : ℤ, ∀ k : ℕ, k < n → a + k ∈ items l := by
  constructor
  · rintro ⟨a, ha⟩
    exact ⟨a, ha.2⟩
  · rintro ⟨a, ha⟩
    obtain ⟨r, hr, h1, h2⟩ := h.exists_of_subset (n := n - 1) fun k hk => ha k (by omega)
    exact ⟨r.Start, h.hasRun hr (by omega)⟩

end IntInterval
