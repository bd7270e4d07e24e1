import Mathlib.Logic.Relation
import Mathlib.Data.Fintype.BigOperators
import Mathlib.Algebra.BigOperators.Ring.Finset
import Mathlib.Algebra.Order.BigOperators.Group.Finset
import Mathlib.Algebra.Order.Ring.Int

/-!
# Guarded runs of a step function

A system is a step function `σ → α → Option σ`: `step s a = some t` says that the action `a` is
possible in the state `s` and leads to `t`. A run is a chain of possible steps, and a *guarded* run
one in which each step meets a condition on the state before it and the action. What one step
preserves, a whole run preserves (`Reaches.invariant`); `run` executes a list of actions, and a list
that executes is a run (`reaches_of_run`).

For a family of agents, of which a step moves one, `sum_update` says how a sum over the family
changes.
-/

namespace Transition

variable {σ α : Type*}

/-- `t` is reached from `s` by steps that meet the guard `G`. -/
def Reaches (step : σ → α → Option σ) (G : σ → α → Prop) : σ → σ → Prop :=
  Relation.ReflTransGen fun s t => ∃ a, G s a ∧ step s a = some t

/-- The guard that every step meets. -/
abbrev Free : σ → α → Prop := fun _ _ => True

/-- Execution of a list of actions. -/
def run (step : σ → α → Option σ) (s : σ) : List α → Option σ
  | [] => some s
  | a :: as => (step s a).bind fun t => run step t as

variable {step : σ → α → Option σ} {G G' : σ → α → Prop} {s t u : σ} {P : σ → Prop}

namespace Reaches

theorem refl (s : σ) : Reaches step G s s := Relation.ReflTransGen.refl

theorem trans (h : Reaches step G s t) (h' : Reaches step G t u) : Reaches step G s u :=
  Relation.ReflTransGen.trans h h'

theorem tail {a : α} (h : Reaches step G s t) (hG : G t a) (ht : step t a = some u) :
    Reaches step G s u :=
  Relation.ReflTransGen.tail h ⟨a, hG, ht⟩

theorem single {a : α} (hG : G s a) (hs : step s a = some t) : Reaches step G s t :=
  (refl s).tail hG hs

/-- **The invariant rule**: what each guarded step preserves holds along every guarded run. -/
theorem invariant (h : Reaches step G s t) (h0 : P s)
    (hstep : ∀ s a t, P s → G s a → step s a = some t → P t) : P t := by
  induction h with
  | refl => exact h0
  | tail _ hst ih =>
    obtain ⟨a, hG, hs⟩ := hst
    exact hstep _ a _ ih hG hs

/-- **The restriction rule**: if what holds at the end of a step held before it, where the step met another
guard, then a run at whose end it holds is one within that guard. -/
theorem restrict {Q : σ → Prop} (h : Reaches step G s t) (h0 : P s)
    (hstep : ∀ s a t, P s → G s a → step s a = some t → P t ∧ (Q t → Q s ∧ G' s a)) (hQ : Q t) :
    Reaches step G' s t := by
  suffices hboth : P t ∧ (Q t → Reaches step G' s t) from hboth.2 hQ
  clear hQ
  induction h with
  | refl => exact ⟨h0, fun _ => refl _⟩
  | tail _ hst ih =>
    obtain ⟨a, hG, hs⟩ := hst
    obtain ⟨hP, hback⟩ := hstep _ a _ ih.1 hG hs
    exact ⟨hP, fun hQ => (ih.2 (hback hQ).1).tail (hback hQ).2 hs⟩

theorem mono (h : Reaches step G s t) (hG : ∀ s a, G s a → G' s a) : Reaches step G' s t := by
  induction h with
  | refl => exact refl _
  | tail _ hst ih =>
    obtain ⟨a, hga, hs⟩ := hst
    exact ih.tail (hG _ a hga) hs

end Reaches

/-- A list of actions that executes is a run. -/
theorem reaches_of_run {as : List α} (h : run step s as = some t) : Reaches step Free s t := by
  induction as generalizing s with
  | nil =>
    obtain rfl := Option.some.inj h
    exact .refl s
  | cons a as ih =>
    obtain ⟨v, hv, h⟩ := Option.bind_eq_some_iff.mp h
    exact (Reaches.single trivial hv).trans (ih h)

/-- A list of actions executes as its two parts do, one after the other. -/
theorem run_append (s : σ) (as bs : List α) :
    run step s (as ++ bs) = (run step s as).bind fun t => run step t bs := by
  induction as generalizing s with
  | nil => rfl
  | cons a as ih =>
    rw [List.cons_append, run, run, Option.bind_assoc]
    exact congrArg _ (funext fun v => ih v)

theorem run_concat (s : σ) (as : List α) (a : α) :
    run step s (as ++ [a]) = (run step s as).bind fun t => step t a := by
  rw [run_append]
  exact congrArg _ (funext fun t => Option.bind_fun_some _)

/-- A list of actions that executes, each of them within the guard, is a guarded run. -/
theorem reaches_cons {a : α} (hG : G s a) (hs : step s a = some t) (h : Reaches step G t u) :
    Reaches step G s u :=
  (Reaches.single hG hs).trans h

/-- Execution of a list of actions, each of them within the guard. -/
def guardedRun (step : σ → α → Option σ) (G : σ → α → Prop) [∀ s a, Decidable (G s a)] (s : σ) :
    List α → Option σ
  | [] => some s
  | a :: as => if G s a then (step s a).bind fun t => guardedRun step G t as else none

theorem reaches_of_guardedRun [∀ s a, Decidable (G s a)] {as : List α}
    (h : guardedRun step G s as = some t) : Reaches step G s t := by
  induction as generalizing s with
  | nil =>
    obtain rfl := Option.some.inj h
    exact .refl s
  | cons a as ih =>
    unfold guardedRun at h
    split_ifs at h with hG
    obtain ⟨v, hv, h⟩ := Option.bind_eq_some_iff.mp h
    exact reaches_cons hG hv (ih h)

/-- **The progress rule**: if in every state that meets `P` but not `Q` some step leads to a state that
meets `P` with a smaller measure, then `Q` is reached. -/
theorem Reaches.eventually {Q : σ → Prop} (measure : σ → ℕ)
    (hstep : ∀ s, P s → ¬ Q s → ∃ a t, G s a ∧ step s a = some t ∧ P t ∧ measure t < measure s)
    (s : σ) (h : P s) : ∃ t, Reaches step G s t ∧ P t ∧ Q t := by
  induction hn : measure s using Nat.strong_induction_on generalizing s with
  | _ n ih =>
    by_cases hQ : Q s
    · exact ⟨s, .refl s, h, hQ⟩
    · obtain ⟨a, t, hG, hs, hP, hlt⟩ := hstep s h hQ
      obtain ⟨u, hu, hPu, hQu⟩ := ih _ (hn ▸ hlt) t hP rfl
      exact ⟨u, reaches_cons hG hs hu, hPu, hQu⟩

/-- The steps within `Own` lead to `Q`: however far the others have gone, such a step is possible, and each such
step comes to `Q` or to where it is so again. -/
inductive Inevitable (step : σ → α → Option σ) (Own : σ → α → Prop) (Q : σ → Prop) : σ → Prop
  | now {s : σ} (h : Q s) : Inevitable step Own Q s
  | later {s : σ} (can : ∀ t, Reaches step (fun s a => ¬ Own s a) s t → ∃ a u, Own t a ∧ step t a = some u)
      (next : ∀ t a u, Reaches step (fun s a => ¬ Own s a) s t → Own t a → step t a = some u →
        Inevitable step Own Q u) : Inevitable step Own Q s

/-- What the steps lead to is reached by them alone. -/
theorem Inevitable.reaches {Own : σ → α → Prop} {Q : σ → Prop} (h : Inevitable step Own Q s) :
    ∃ t, Reaches step Own s t ∧ Q t := by
  induction h with
  | now h => exact ⟨_, .refl _, h⟩
  | later can _ ih =>
    obtain ⟨a, u, hOwn, hs⟩ := can _ (.refl _)
    obtain ⟨t, ht, hQ⟩ := ih _ a u (.refl _) hOwn hs
    exact ⟨t, reaches_cons hOwn hs ht, hQ⟩

/-- **The rank rule**: in states that meet `P` but not `Q`, a step within `Own` is possible, each such step comes
to `Q` or lowers the rank, and no other step raises it. -/
theorem inevitable_of_rank {Own : σ → α → Prop} {Q : σ → Prop} (rank : σ → ℕ)
    (hothers : ∀ s a t, P s → ¬ Q s → ¬ Own s a → step s a = some t → P t ∧ ¬ Q t ∧ rank t ≤ rank s)
    (hcan : ∀ s, P s → ¬ Q s → ∃ a t, Own s a ∧ step s a = some t)
    (hown : ∀ s a t, P s → ¬ Q s → Own s a → step s a = some t → Q t ∨ P t ∧ rank t < rank s)
    (s : σ) (h : P s) : Inevitable step Own Q s := by
  induction hn : rank s using Nat.strong_induction_on generalizing s with
  | _ n ih =>
    by_cases hQ : Q s
    · exact .now hQ
    · have hbetween : ∀ t, Reaches step (fun s a => ¬ Own s a) s t → P t ∧ ¬ Q t ∧ rank t ≤ n := fun t ht =>
        ht.invariant (P := fun t => P t ∧ ¬ Q t ∧ rank t ≤ n) ⟨h, hQ, hn.le⟩ fun u a v hu hG hs =>
          have ⟨hP, hnot, hle⟩ := hothers u a v hu.1 hu.2.1 hG hs
          ⟨hP, hnot, hle.trans hu.2.2⟩
      refine .later (fun t ht => hcan t (hbetween t ht).1 (hbetween t ht).2.1) fun t a u ht hOwn hs => ?_
      obtain ⟨hP, hnot, hle⟩ := hbetween t ht
      obtain hQu | ⟨hPu, hlt⟩ := hown t a u hP hnot hOwn hs
      · exact .now hQu
      · exact ih (rank u) (hlt.trans_le hle) u hPu rfl

/-- **The simulation rule**: if each guarded step from a state that meets the invariant is answered by a
run of another system between the abstract states, then the abstract states of a run are those of a run
of that system. -/
theorem Reaches.simulation {σ' α' : Type*} {step' : σ' → α' → Option σ'} {G' : σ' → α' → Prop}
    (abs : σ → σ') (h : Reaches step G s t) (h0 : P s)
    (hstep : ∀ s a t, P s → G s a → step s a = some t → P t ∧ Reaches step' G' (abs s) (abs t)) :
    P t ∧ Reaches step' G' (abs s) (abs t) := by
  induction h with
  | refl => exact ⟨h0, .refl _⟩
  | tail _ hst ih =>
    obtain ⟨a, hG, hs⟩ := hst
    obtain ⟨hP, hrun⟩ := hstep _ a _ ih.1 hG hs
    exact ⟨hP, ih.2.trans hrun⟩

/-! ## One agent of a family -/

section Family

variable {ι β M : Type*} [DecidableEq ι]

/-- A sum over a family, one of whose members changes. -/
theorem sum_update [Fintype ι] [AddCommGroup M] (c : ι → β → M) (f : ι → β) (i : ι) (b : β) :
    ∑ j, c j (Function.update f i b j) = (∑ j, c j (f j)) - c i (f i) + c i b := by
  have hne : ∀ j ∈ Finset.univ.erase i, c j (Function.update f i b j) = c j (f j) := fun j hj => by
    rw [Function.update_of_ne (Finset.ne_of_mem_erase hj)]
  rw [← Finset.sum_erase_add _ _ (Finset.mem_univ i), Finset.sum_congr rfl hne,
    ← Finset.sum_erase_add Finset.univ (fun j => c j (f j)) (Finset.mem_univ i),
    Function.update_self, add_sub_cancel_right]

/-- The same where there is no subtraction. -/
theorem sum_update_add [Fintype ι] [AddCommMonoid M] (c : β → M) (f : ι → β) (i : ι) (b : β) :
    ∑ j, c (Function.update f i b j) + c (f i) = ∑ j, c (f j) + c b := by
  have hne : ∀ j ∈ Finset.univ.erase i, c (Function.update f i b j) = c (f j) := fun j hj => by
    rw [Function.update_of_ne (Finset.ne_of_mem_erase hj)]
  rw [← Finset.sum_erase_add _ _ (Finset.mem_univ i), Finset.sum_congr rfl hne,
    ← Finset.sum_erase_add Finset.univ (fun j => c (f j)) (Finset.mem_univ i), Function.update_self]
  exact add_right_comm _ _ _

/-- The sum of the ranks falls with the rank of one member. -/
theorem sum_update_lt [Fintype ι] (rank : β → ℕ) (f : ι → β) (i : ι) {b : β}
    (h : rank b < rank (f i)) : ∑ j, rank (Function.update f i b j) < ∑ j, rank (f j) := by
  apply Finset.sum_lt_sum
  · intro j _
    by_cases hj : j = i
    · subst hj
      rw [Function.update_self]
      exact h.le
    · rw [Function.update_of_ne hj]
  · exact ⟨i, Finset.mem_univ i, by rwa [Function.update_self]⟩

/-- A property of all members survives the change of one that keeps it. -/
theorem forall_update {Q : β → Prop} {f : ι → β} (h : ∀ j, Q (f j)) (i : ι) {b : β} (hb : Q b)
    (j : ι) : Q (Function.update f i b j) := by
  by_cases hj : j = i
  · subst hj
    rwa [Function.update_self]
  · rw [Function.update_of_ne hj]
    exact h j

end Family

section Count

variable {ι : Type*} [Fintype ι]

/-- A sum over a family whose members contribute at most 1 each. -/
theorem sum_le_card {c : ι → ℤ} (h : ∀ i, c i ≤ 1) : ∑ i, c i ≤ Fintype.card ι := by
  calc ∑ i, c i ≤ ∑ _i : ι, (1 : ℤ) := Finset.sum_le_sum fun i _ => h i
    _ = Fintype.card ι := by simp

/-- It falls short of the size of the family as soon as one of them does not contribute. -/
theorem sum_lt_card {c : ι → ℤ} (h : ∀ i, c i ≤ 1) {i : ι} (hi : c i ≤ 0) :
    ∑ i, c i < Fintype.card ι := by
  calc ∑ i, c i < ∑ _i : ι, (1 : ℤ) :=
        Finset.sum_lt_sum (fun i _ => h i) ⟨i, Finset.mem_univ i, by omega⟩
    _ = Fintype.card ι := by simp

end Count

end Transition
