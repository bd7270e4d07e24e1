import Mathlib.Algebra.BigOperators.Group.Finset.Basic
import Mathlib.Algebra.Order.BigOperators.Group.Finset
import Mathlib.Data.Fintype.Basic
import XenBus.Foundations.Unwind

/-!
# Counted holdings

Components are counted, and one with a count other than zero holds things: references to other components, entries
of lists. What the state measures of each thing is what the components in use and others hold of it
(`Books.Balanced`). A component whose routine is under way is *busy*: what it holds is then counted with what the
others hold, and its count is fixed.

* `Earns`, `Spends`: a step after which more is held, an undo that gives it up again. `Earns.cons` and
  `Spends.cons` compose them.
* `Books.acquire_earns`, `Books.release_spends`: with a routine that earns what the component holds, a counted call
  earns one reference to it; with one that spends it, the release spends that reference.
-/

namespace Holdings

open Unwind

universe u v w

variable {σ : Type u} {κ : Type v} {ι : Type w}

/-! ## Steps that earn -/

/-- From a state where `U` is held, with `P U`, a step that succeeds comes to one where `t` is held as well; one
that fails comes to one where `U` is held. -/
structure Earns (I : Multiset ι → σ → Prop) (P : Multiset ι → Prop) (t : Multiset ι) (step : Step σ) : Prop where
  /-- A step that succeeds. -/
  gains : ∀ U w w', P U → I U w → step w = some (true, w') → I (U + t) w'
  /-- A step that fails. -/
  loses : ∀ U w w', P U → I U w → step w = some (false, w') → I U w'

/-- An undo that gives `t` up. -/
def Spends (I : Multiset ι → σ → Prop) (P : Multiset ι → Prop) (t : Multiset ι) (undo : Undo σ) : Prop :=
  ∀ U w w', P U → I (U + t) w → undo w = some w' → I U w'

/-- Whatever is held. -/
abbrev Always : Multiset ι → Prop := fun _ => True

section Composition

variable {I : Multiset ι → σ → Prop} {P Q : Multiset ι → Prop} {t t' : Multiset ι} {step : Step σ} {undo : Undo σ}
  {label undos : List (Undo σ)} {rest : List (Stage σ)}

theorem Earns.mono (h : Earns I P t step) (hP : ∀ U, Q U → P U) : Earns I Q t step where
  gains := fun U w w' hU => h.gains U w w' (hP U hU)
  loses := fun U w w' hU => h.loses U w w' (hP U hU)

theorem Spends.mono (h : Spends I P t undo) (hP : ∀ U, Q U → P U) : Spends I Q t undo :=
  fun U w w' hU => h U w w' (hP U hU)

theorem Earns.any (h : Earns I Always t step) : Earns I P t step := h.mono fun _ _ => trivial

theorem Spends.any (h : Spends I Always t undo) : Spends I P t undo := h.mono fun _ _ => trivial

/-- The same things, in another order. -/
theorem Earns.of_eq (heq : t = t') (h : Earns I P t step) : Earns I P t' step := heq ▸ h

theorem Spends.of_eq (heq : t = t') (h : Spends I P t undo) : Spends I P t' undo := heq ▸ h

/-- The same condition in other words. -/
theorem Earns.congr {J : Multiset ι → σ → Prop} (hI : ∀ U w, I U w ↔ J U w) (h : Earns I P t step) :
    Earns J P t step where
  gains := fun U w w' hU hw hrun => (hI _ _).1 (h.gains U w w' hU ((hI U w).2 hw) hrun)
  loses := fun U w w' hU hw hrun => (hI _ _).1 (h.loses U w w' hU ((hI U w).2 hw) hrun)

theorem Spends.congr {J : Multiset ι → σ → Prop} (hI : ∀ U w, I U w ↔ J U w) (h : Spends I P t undo) :
    Spends J P t undo := fun U w w' hU hw hrun => (hI _ _).1 (h U w w' hU ((hI _ w).2 hw) hrun)

/-- The last step of a routine. -/
theorem Earns.last (label : List (Undo σ)) (h : Earns I P t step) : Earns I P t (attempt [⟨step, label⟩]) := by
  rwa [attempt_single]

/-- A step and the rest of its routine. -/
theorem Earns.cons (h : Earns I P t step) (hlabel : Spends I P t (sequence label))
    (hrest : Earns I Q t' (attempt rest)) (hQ : ∀ U, P U → Q (U + t)) :
    Earns I P (t + t') (attempt (⟨step, label⟩ :: rest)) where
  gains := by
    intro U w w' hU hw hrun
    obtain ⟨v, hstep, hrun'⟩ := attempt_cons_true.1 hrun
    rw [← add_assoc]
    exact hrest.gains _ v w' (hQ U hU) (h.gains U w v hU hw hstep) hrun'
  loses := by
    intro U w w' hU hw hrun
    rcases attempt_cons_false.1 hrun with hstep | ⟨v, v', hstep, hrun', hback⟩
    · exact h.loses U w w' hU hw hstep
    · exact hlabel U v' w' hU (hrest.loses _ v v' (hQ U hU) (h.gains U w v hU hw hstep) hrun') hback

theorem Spends.nil : Spends I P 0 (sequence []) := by
  intro U w w' _ hw hrun
  rw [sequence_nil, Option.some.injEq] at hrun
  rwa [← hrun, ← add_zero U]

/-- An undo and those after it. -/
theorem Spends.cons (h : Spends I P t undo) (hrest : Spends I Q t' (sequence undos)) (hP : ∀ U, Q U → P (U + t')) :
    Spends I Q (t + t') (sequence (undo :: undos)) := by
  intro U w w' hU hw hrun
  obtain ⟨v, hundo, hrun'⟩ := Option.bind_eq_some_iff.1 hrun
  rw [add_comm t, ← add_assoc] at hw
  exact hrest U v w' hU (h _ w v (hP U hU) hw hundo) hrun'

/-- One list of undos after the other. -/
theorem Spends.append {more : List (Undo σ)} (h : Spends I P t (sequence undos))
    (hmore : Spends I Q t' (sequence more)) (hP : ∀ U, Q U → P (U + t')) :
    Spends I Q (t + t') (sequence (undos ++ more)) := by
  intro U w w' hU hw hrun
  rw [sequence_append] at hrun
  obtain ⟨v, hundos, hrun'⟩ := Option.bind_eq_some_iff.1 hrun
  rw [add_comm t, ← add_assoc] at hw
  exact hmore U v w' hU (h _ w v (hP U hU) hw hundos) hrun'

theorem Spends.single (h : Spends I P t undo) : Spends I P t (sequence [undo]) := by
  rwa [sequence_single]

/-- Nothing is asked of what is held. -/
theorem Earns.next (h : Earns I Always t step) (hlabel : Spends I Always t (sequence label))
    (hrest : Earns I Always t' (attempt rest)) : Earns I Always (t + t') (attempt (⟨step, label⟩ :: rest)) :=
  h.cons hlabel hrest fun _ _ => trivial

theorem Spends.next (h : Spends I Always t undo) (hrest : Spends I Always t' (sequence undos)) :
    Spends I Always (t + t') (sequence (undo :: undos)) := h.cons hrest fun _ _ => trivial

/-- Something that is held stays so. -/
theorem Earns.above {i : ι} (h : Earns I (fun U => i ∈ U) t step)
    (hlabel : Spends I (fun U => i ∈ U) t (sequence label))
    (hrest : Earns I (fun U => i ∈ U) t' (attempt rest)) :
    Earns I (fun U => i ∈ U) (t + t') (attempt (⟨step, label⟩ :: rest)) :=
  h.cons hlabel hrest fun _ hU => Multiset.mem_add.2 (.inl hU)

/-- A step that keeps what is seen earns nothing. -/
theorem Earns.of_keeps {τ : Type v} {view : σ → τ} (h : StepKeeps view step)
    (hI : ∀ U v w, view v = view w → I U w → I U v) : Earns I P 0 step where
  gains := by
    intro U w w' _ hw hrun
    rw [add_zero]
    exact hI U w' w (h w true w' hrun) hw
  loses := fun U w w' _ hw hrun => hI U w' w (h w false w' hrun) hw

theorem Spends.of_keeps {τ : Type v} {view : σ → τ} (h : UndoKeeps view undo)
    (hI : ∀ U v w, view v = view w → I U w → I U v) : Spends I P 0 undo := by
  intro U w w' _ hw hrun
  rw [add_zero] at hw
  exact hI U w' w (h w w' hrun) hw

/-- A step on a part. -/
theorem Earns.part {ρ τ : Type u} (p : Part σ ρ) {J : τ → Multiset ι → ρ → Prop} {step : Step ρ} (rest : σ → τ)
    (hrest : ∀ r w, rest (p.set r w) = rest w) (h : ∀ a, Earns (J a) P t step) :
    Earns (fun U w => J (rest w) U (p.get w)) P t (p.step step) where
  gains := by
    intro U w w' hU hw hrun
    obtain ⟨⟨ok, r⟩, hstep, heq⟩ := Option.map_eq_some_iff.1 hrun
    obtain ⟨rfl, rfl⟩ := Prod.mk.inj heq
    rw [hrest, p.get_set]
    exact (h _).gains U _ r hU hw hstep
  loses := by
    intro U w w' hU hw hrun
    obtain ⟨⟨ok, r⟩, hstep, heq⟩ := Option.map_eq_some_iff.1 hrun
    obtain ⟨rfl, rfl⟩ := Prod.mk.inj heq
    rw [hrest, p.get_set]
    exact (h _).loses U _ r hU hw hstep

theorem Spends.part {ρ τ : Type u} (p : Part σ ρ) {J : τ → Multiset ι → ρ → Prop} {undo : Undo ρ} (rest : σ → τ)
    (hrest : ∀ r w, rest (p.set r w) = rest w) (h : ∀ a, Spends (J a) P t undo) :
    Spends (fun U w => J (rest w) U (p.get w)) P t (p.undo undo) := by
  intro U w w' hU hw hrun
  obtain ⟨r, hundo, rfl⟩ := Option.map_eq_some_iff.1 hrun
  rw [hrest, p.get_set]
  exact h _ U _ r hU hw hundo

end Composition

/-! ## Balanced books -/

/-- The counts of the components, what each holds while it is in use, and what the state measures of each thing. -/
structure Books (σ : Type u) (κ : Type v) (ι : Type w) where
  /-- What a component in use holds. -/
  holdings : κ → Multiset ι
  /-- What is measured. -/
  measure : σ → ι → ℤ
  /-- The count of a component. -/
  count : σ → κ → ℤ

section Balance

variable (b : Books σ κ ι) {c : Counter σ} {busy busy' : κ → Option ℤ} {k : κ} {i : ι} {m n : ℤ}
  {T T' : Multiset ι} {w w' : σ}

/-- A component with this counter, and the thing that a reference to it is. -/
structure Books.Tracks [DecidableEq ι] (c : Counter σ) (k : κ) (i : ι) : Prop where
  count : ∀ w, c.count w = b.count w k
  count_add : ∀ n w k', k' ≠ k → b.count (c.add n w) k' = b.count w k'
  measure_add : ∀ n w j, b.measure (c.add n w) j = b.measure w j + if j = i then n else 0
  le : ∀ w, b.measure w i ≤ b.count w k

/-- The component `k` becomes busy, with a count of `n`. -/
abbrev engage [DecidableEq κ] (busy : κ → Option ℤ) (k : κ) (n : ℤ) : κ → Option ℤ :=
  Function.update busy k (some n)

/-- The busy components have the counts that are fixed for them. -/
def Books.Fixed (busy : κ → Option ℤ) (w : σ) : Prop := ∀ k n, busy k = some n → b.count w k = n

variable {b}

theorem Books.Tracks.count_add_self [DecidableEq ι] (ht : b.Tracks c k i) (n : ℤ) (w : σ) :
    b.count (c.add n w) k = b.count w k + n := by
  rw [← ht.count, ← ht.count, c.count_add]

theorem Books.Fixed.ne (hk : busy k = none) {k' : κ} (hk' : busy k' = some n) : k' ≠ k := by
  rintro rfl
  rw [hk] at hk'
  cases hk'

theorem Books.Fixed.enter [DecidableEq κ] (h : b.Fixed busy w) (hcount : b.count w k = n) :
    b.Fixed (engage busy k n) w := by
  intro k' n' hk'
  by_cases hkk : k' = k
  · subst hkk
    rw [engage, Function.update_self, Option.some.injEq] at hk'
    rw [hcount, hk']
  · rw [engage, Function.update_of_ne hkk] at hk'
    exact h k' n' hk'

theorem Books.Fixed.leave [DecidableEq κ] (h : b.Fixed (engage busy k n) w) (hk : busy k = none) :
    b.Fixed busy w :=
  fun k' n' hk' => h k' n' ((Function.update_of_ne (Fixed.ne hk hk') _ _).trans hk')

variable [Fintype κ] (b)

/-- The components in use that are not busy. -/
def Books.active (busy : κ → Option ℤ) (w : σ) : Finset κ :=
  Finset.univ.filter fun k => busy k = none ∧ b.count w k ≠ 0

variable {b}

/-- A component in use that becomes busy is not active any more. -/
theorem Books.active_enter [DecidableEq κ] (hk : busy k = none) (hcount : b.count w k ≠ 0) :
    b.active busy w = insert k (b.active (engage busy k n) w) := by
  ext k'
  simp only [active, Finset.mem_insert, Finset.mem_filter, Finset.mem_univ, true_and]
  by_cases h : k' = k
  · simp [h, hk, hcount]
  · simp [h]

theorem Books.active_enter_idle [DecidableEq κ] (hcount : b.count w k = 0) :
    b.active (engage busy k n) w = b.active busy w := by
  ext k'
  simp only [active, Finset.mem_filter, Finset.mem_univ, true_and]
  by_cases h : k' = k
  · simp [h, hcount]
  · simp [Function.update_of_ne h]

theorem Books.sum_enter [DecidableEq κ] (hk : busy k = none) (hcount : b.count w k ≠ 0) (T : Multiset ι) :
    T + ∑ k ∈ b.active busy w, b.holdings k =
      T + b.holdings k + ∑ k ∈ b.active (engage busy k n) w, b.holdings k := by
  rw [b.active_enter hk hcount (n := n), Finset.sum_insert, add_assoc]
  simp [active]

variable [DecidableEq ι] (b)

/-- The busy components have the counts that are fixed for them, and of each thing, what is measured is what the
active components and `T` hold. -/
structure Books.Balanced (busy : κ → Option ℤ) (T : Multiset ι) (w : σ) : Prop where
  fixed : b.Fixed busy w
  books : ∀ i, b.measure w i = (T + ∑ k ∈ b.active busy w, b.holdings k).count i

variable {b}

/-- What is measured is not negative. -/
theorem Books.Balanced.measure_nonneg (h : b.Balanced busy T w) (i : ι) : 0 ≤ b.measure w i := by
  rw [h.books]
  exact Int.natCast_nonneg _

/-- What `T` holds is measured. -/
theorem Books.Balanced.le_measure (h : b.Balanced busy T w) (i : ι) : (T.count i : ℤ) ≤ b.measure w i := by
  rw [h.books, Multiset.count_add]
  exact_mod_cast Nat.le_add_right _ _

/-- What an active component holds is measured beside what `T` holds. -/
theorem Books.Balanced.add_le_measure (h : b.Balanced busy T w) (hk : k ∈ b.active busy w) (i : ι) :
    (T.count i + (b.holdings k).count i : ℤ) ≤ b.measure w i := by
  rw [h.books, Multiset.count_add, Multiset.count_sum']
  have hle := Finset.single_le_sum (fun k' _ => Nat.zero_le ((b.holdings k').count i)) hk
  exact_mod_cast Nat.add_le_add_left hle _

theorem count_add_singleton (U : Multiset ι) (i j : ι) :
    ((U + {i}).count j : ℤ) = U.count j + if j = i then 1 else 0 := by
  rw [Multiset.count_add, Multiset.count_singleton, Int.natCast_add]
  split_ifs <;> rfl

theorem count_eq_sub_singleton (U : Multiset ι) (i j : ι) :
    (U.count j : ℤ) = (U + {i}).count j + if j = i then -1 else 0 := by
  rw [count_add_singleton]
  split_ifs <;> omega

/-- What is measured changes, and with it what `T` holds. -/
theorem Books.Balanced.shift (h : b.Balanced busy T w)
    (hmeasure : ∀ j, b.measure w' j = b.measure w j + if j = i then n else 0) (hfixed : b.Fixed busy' w')
    (hactive : b.active busy' w' = b.active busy w)
    (hT : ∀ j, (T'.count j : ℤ) = T.count j + if j = i then n else 0) : b.Balanced busy' T' w' where
  fixed := hfixed
  books := by
    intro j
    rw [hmeasure, h.books, hactive, Multiset.count_add, Multiset.count_add, Int.natCast_add, Int.natCast_add, hT]
    exact add_right_comm _ _ _

/-- No count changes. -/
theorem Books.Balanced.change (h : b.Balanced busy T w) (hcount : ∀ k, b.count w' k = b.count w k)
    (hmeasure : ∀ j, b.measure w' j = b.measure w j + if j = i then n else 0)
    (hT : ∀ j, (T'.count j : ℤ) = T.count j + if j = i then n else 0) : b.Balanced busy T' w' := by
  refine h.shift hmeasure (fun k n hk => (hcount k).trans (h.fixed k n hk)) ?_ hT
  ext k
  simp only [active, hcount]

variable [DecidableEq κ]

/-- The count of a busy component. -/
theorem Books.Balanced.count_entered (h : b.Balanced (engage busy k n) T w) : b.count w k = n :=
  h.fixed k n (Function.update_self _ _ _)

/-- A component in use becomes busy: what it holds is counted with the rest. -/
theorem Books.Balanced.enter (h : b.Balanced busy T w) (hk : busy k = none) (hcount : b.count w k = n)
    (hn : n ≠ 0) :
    b.Balanced (engage busy k n) (T + b.holdings k) w where
  fixed := h.fixed.enter hcount
  books := fun i => by rw [h.books, b.sum_enter hk (hcount.trans_ne hn)]

theorem Books.Balanced.leave (h : b.Balanced (engage busy k n) (T + b.holdings k) w) (hk : busy k = none)
    (hn : n ≠ 0) : b.Balanced busy T w where
  fixed := h.fixed.leave hk
  books := fun i => by rw [h.books, b.sum_enter hk (h.count_entered.trans_ne hn)]

/-- A component without a reference becomes busy, and is so no more. -/
theorem Books.Balanced.enterIdle (h : b.Balanced busy T w) (hcount : b.count w k = 0) :
    b.Balanced (engage busy k 0) T w where
  fixed := h.fixed.enter hcount
  books := fun i => by rw [h.books, b.active_enter_idle hcount]

theorem Books.Balanced.leaveIdle (h : b.Balanced (engage busy k 0) T w) (hk : busy k = none) :
    b.Balanced busy T w where
  fixed := h.fixed.leave hk
  books := fun i => by rw [h.books, b.active_enter_idle h.count_entered]

/-- A reference to a component that stays in use. -/
theorem Books.Balanced.referActive (ht : b.Tracks c k i) (h : b.Balanced busy T w) (hk : busy k = none)
    (hcount : b.count w k ≠ 0) (hcount' : b.count w k + n ≠ 0)
    (hT : ∀ j, (T'.count j : ℤ) = T.count j + if j = i then n else 0) : b.Balanced busy T' (c.add n w) := by
  refine h.shift (ht.measure_add n w) (fun k' n' hk' => ?_) ?_ hT
  · rw [ht.count_add n w k' (Fixed.ne hk hk'), h.fixed k' n' hk']
  · ext k'
    simp only [active, Finset.mem_filter, Finset.mem_univ, true_and]
    by_cases hkk : k' = k
    · subst hkk
      simp [ht.count_add_self, hcount, hcount']
    · rw [ht.count_add n w k' hkk]

/-- A reference to a busy component. -/
theorem Books.Balanced.referBusy (ht : b.Tracks c k i) (h : b.Balanced (engage busy k m) T w)
    (hT : ∀ j, (T'.count j : ℤ) = T.count j + if j = i then n else 0) :
    b.Balanced (engage busy k (m + n)) T' (c.add n w) := by
  refine h.shift (ht.measure_add n w) (fun k' n' hk' => ?_) ?_ hT
  · by_cases hkk : k' = k
    · subst hkk
      rw [engage, Function.update_self, Option.some.injEq] at hk'
      rw [ht.count_add_self, h.count_entered, hk']
    · rw [engage, Function.update_of_ne hkk] at hk'
      rw [ht.count_add n w k' hkk]
      exact h.fixed k' n' ((Function.update_of_ne hkk _ _).trans hk')
  · ext k'
    simp only [active, Finset.mem_filter, Finset.mem_univ, true_and]
    by_cases hkk : k' = k
    · simp [hkk]
    · simp [Function.update_of_ne hkk, ht.count_add n w k' hkk]

/-! ## Counted calls -/

/-- The books and a condition that is relaxed while components are busy. -/
def Books.Kept (E : (κ → Option ℤ) → σ → Prop) (busy : κ → Option ℤ) (T : Multiset ι) (w : σ) : Prop :=
  b.Balanced busy T w ∧ E busy w

/-- The condition does not depend on the count of `k`, may be relaxed when `k` becomes busy, and holds again when
it is so no more. -/
structure Books.Guards (b : Books σ κ ι) (E : (κ → Option ℤ) → σ → Prop) (P : Multiset ι → Prop)
    (busy : κ → Option ℤ) (c : Counter σ) (k : κ) (i : ι) : Prop where
  add : ∀ busy n w, E busy w → E busy (c.add n w)
  enter : ∀ n w, E busy w → E (engage busy k n) w
  renumber : ∀ m n w, E (engage busy k m) w → E (engage busy k n) w
  up : ∀ U w, P U → b.Balanced (engage busy k 1) (U + {i} + b.holdings k) w →
    E (engage busy k 1) w → E busy w
  down : ∀ U w, P U → b.Balanced (engage busy k 0) U w → E (engage busy k 0) w → E busy w

variable {E : (κ → Option ℤ) → σ → Prop} {P Q : Multiset ι → Prop} {stages : List (Stage σ)} {body : List (Undo σ)}

/-- **A counted call earns a reference.** -/
theorem Books.acquire_earns (ht : b.Tracks c k i) (hE : b.Guards E P busy c k i) (hk : busy k = none)
    (hstages : Earns (b.Kept E (engage busy k 1)) Q (b.holdings k) (attempt stages))
    (hQ : ∀ U, P U → Q (U + {i})) : Earns (b.Kept E busy) P {i} (c.acquire stages) := by
  have hfirst : ∀ U w, b.Kept E busy U w → c.count w = 0 →
      b.Kept E (engage busy k 1) (U + {i}) (c.add 1 w) := by
    rintro U w ⟨hw, hw'⟩ h0
    have hbusy := (hw.enterIdle ((ht.count w).symm.trans h0)).referBusy ht (count_add_singleton U i)
    exact ⟨hbusy, hE.add _ _ _ (hE.enter _ _ hw')⟩
  constructor
  · rintro U w w' hU ⟨hw, hw'⟩ hrun
    rcases c.acquire_true.1 hrun with ⟨hne, rfl⟩ | ⟨h0, hrun'⟩
    · rw [ht.count] at hne
      have hnonneg := (hw.measure_nonneg i).trans (ht.le w)
      exact ⟨hw.referActive ht hk hne (by omega) (count_add_singleton U i), hE.add _ _ _ hw'⟩
    · obtain ⟨hup, hup'⟩ := hstages.gains _ _ _ (hQ U hU) (hfirst U w ⟨hw, hw'⟩ h0) hrun'
      exact ⟨hup.leave hk (by decide), hE.up U w' hU hup hup'⟩
  · rintro U w w' hU hw hrun
    obtain ⟨h0, v, hrun', hdrop⟩ := c.acquire_false.1 hrun
    obtain ⟨hback, hback'⟩ := hstages.loses _ _ _ (hQ U hU) (hfirst U w hw h0) hrun'
    rw [Counter.drop] at hdrop
    split_ifs at hdrop
    obtain rfl := Option.some.inj hdrop
    have hidle : b.Balanced (engage busy k 0) U (c.add (-1) v) :=
      hback.referBusy ht (count_eq_sub_singleton U i)
    exact ⟨hidle.leaveIdle hk, hE.down U _ hU hidle (hE.renumber _ _ _ (hE.add _ _ _ hback'))⟩

/-- **A release spends a reference.** -/
theorem Books.release_spends (ht : b.Tracks c k i) (hE : b.Guards E P busy c k i) (hk : busy k = none)
    (hbody : Spends (b.Kept E (engage busy k 0)) P (b.holdings k) (sequence body)) :
    Spends (b.Kept E busy) P {i} (c.release body) := by
  rintro U w w' hU ⟨hw, hw'⟩ hrun
  have hpos : (1 : ℤ) ≤ b.count w k := by
    have hle := (hw.le_measure i).trans (ht.le w)
    rw [count_add_singleton, if_pos rfl] at hle
    omega
  have hT := count_eq_sub_singleton U i
  rcases c.release_some.1 hrun with ⟨hmore, rfl⟩ | ⟨hlast, hrun'⟩
  · rw [ht.count] at hmore
    exact ⟨hw.referActive ht hk (by omega) (by omega) hT, hE.add _ _ _ hw'⟩
  · rw [ht.count] at hlast
    have hbusy := hw.enter hk (show b.count w k = 1 by omega) (by decide)
    have hT' : ∀ j, ((U + b.holdings k).count j : ℤ) =
        (U + {i} + b.holdings k).count j + if j = i then -1 else 0 := by
      intro j
      rw [Multiset.count_add, Multiset.count_add, Int.natCast_add, Int.natCast_add, hT j]
      exact add_right_comm _ _ _
    have hdown : b.Balanced (engage busy k 0) (U + b.holdings k) (c.add (-1) w) := hbusy.referBusy ht hT'
    obtain ⟨hidle, hidle'⟩ := hbody _ _ _ hU ⟨hdown, hE.add _ _ _ (hE.enter 0 _ hw')⟩ hrun'
    exact ⟨hidle.leaveIdle hk, hE.down U w' hU hidle hidle'⟩

end Balance

end Holdings
