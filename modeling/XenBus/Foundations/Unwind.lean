import Mathlib.Data.Int.Order.Basic
import Mathlib.Order.Basic

/-!
# Routines that unwind

A routine takes one step after the other. A step that fails jumps to a label; what stands there takes back
what the step before it did and falls through to the label above, so that a failed routine leaves the state
as it was. `attempt` runs such a routine.

* `Exact`: a step whose outcome and effect are known functions of the state, with an undo that is its exact
  inverse. `Exact.cons` composes them.
* `Keeps`: a step or an undo that does not change what is seen of the state.
* `Counter`: a count of references kept in the state. `Counter.acquire` runs the routine for the first
  reference only, `Counter.release` undoes it with the last one.
-/

namespace Unwind

universe u v w

variable {σ : Type u} {τ : Type v}

/-- A step that can fail: `none` when it faults, else whether it succeeded and the state after it. -/
abbrev Step (σ : Type u) := σ → Option (Bool × σ)

/-- What takes a step back: `none` when it faults. -/
abbrev Undo (σ : Type u) := σ → Option σ

/-- A step, and what the routine does at the label that the step after it jumps to. -/
structure Stage (σ : Type u) where
  /-- The step. -/
  step : Step σ
  /-- What is done at the label of the step after it, before falling through to the label above. -/
  label : List (Undo σ)

/-- One after the other. -/
def sequence : List (Undo σ) → Undo σ
  | [], w => some w
  | undo :: rest, w => (undo w).bind (sequence rest)

/-- The steps in turn. One that fails goes through the labels of those before it, the latest first. -/
def attempt : List (Stage σ) → Step σ
  | [], w => some (true, w)
  | stage :: rest, w =>
    match stage.step w with
    | some (true, w') =>
      match attempt rest w' with
      | some (false, w'') => (sequence stage.label w'').map (Prod.mk false)
      | outcome => outcome
    | outcome => outcome

/-- All the labels, from the lowest one on. -/
def unwind : List (Stage σ) → List (Undo σ)
  | [] => []
  | stage :: rest => unwind rest ++ stage.label

@[simp]
theorem sequence_nil (w : σ) : sequence [] w = some w := rfl

@[simp]
theorem sequence_cons (undo : Undo σ) (rest : List (Undo σ)) (w : σ) :
    sequence (undo :: rest) w = (undo w).bind (sequence rest) := rfl

@[simp]
theorem bind_sequence_nil (o : Option σ) : o.bind (sequence []) = o := by cases o <;> rfl

theorem sequence_single (undo : Undo σ) : sequence [undo] = undo := by
  funext w
  simp

theorem sequence_append (xs ys : List (Undo σ)) (w : σ) :
    sequence (xs ++ ys) w = (sequence xs w).bind (sequence ys) := by
  induction xs generalizing w with
  | nil => rfl
  | cons undo xs ih =>
    simp only [List.cons_append, sequence_cons, Option.bind_assoc]
    exact congrArg (Option.bind (undo w)) (funext ih)

@[simp]
theorem attempt_nil (w : σ) : attempt [] w = some (true, w) := rfl

/-- A routine of one step; its label is never come to. -/
theorem attempt_single (stage : Stage σ) : attempt [stage] = stage.step := by
  funext w
  rcases h : stage.step w with _ | ⟨_ | _, v⟩ <;> simp [attempt, h]

/-- A first step that fails. -/
theorem attempt_cons_of_fails {stage : Stage σ} {rest : List (Stage σ)} {w w' : σ}
    (h : stage.step w = some (false, w')) : attempt (stage :: rest) w = some (false, w') := by
  rw [attempt, h]

/-- What a routine comes to after a first step that succeeded. -/
theorem attempt_cons_of_passes {stage : Stage σ} {rest : List (Stage σ)} {w w' : σ}
    (h : stage.step w = some (true, w')) : attempt (stage :: rest) w =
      match attempt rest w' with
      | some (false, w'') => (sequence stage.label w'').map (Prod.mk false)
      | outcome => outcome := by
  rw [attempt, h]

/-- A routine succeeds when each of its steps does. -/
theorem attempt_cons_true {stage : Stage σ} {rest : List (Stage σ)} {w w' : σ} :
    attempt (stage :: rest) w = some (true, w') ↔
      ∃ v, stage.step w = some (true, v) ∧ attempt rest v = some (true, w') := by
  rw [attempt]
  rcases hstep : stage.step w with _ | ⟨_ | _, v⟩
  · simp
  · simp
  · rcases hrest : attempt rest v with _ | ⟨_ | _, w''⟩ <;> simp [hrest]

/-- A routine fails with its first step, or goes through the label after a later one failed. -/
theorem attempt_cons_false {stage : Stage σ} {rest : List (Stage σ)} {w w' : σ} :
    attempt (stage :: rest) w = some (false, w') ↔
      stage.step w = some (false, w') ∨
        ∃ v v', stage.step w = some (true, v) ∧ attempt rest v = some (false, v') ∧
          sequence stage.label v' = some w' := by
  rw [attempt]
  rcases hstep : stage.step w with _ | ⟨_ | _, v⟩
  · simp
  · simp
  · rcases hrest : attempt rest v with _ | ⟨_ | _, w''⟩ <;> simp [hrest]

/-- The first steps of a routine as one step. -/
theorem attempt_append (xs ys : List (Stage σ)) :
    attempt (xs ++ ys) = attempt (⟨attempt xs, unwind xs⟩ :: ys) := by
  funext w
  induction xs generalizing w with
  | nil =>
    rw [List.nil_append, attempt]
    simp only [attempt_nil, unwind, sequence_nil, Option.map_some]
    rcases attempt ys w with _ | ⟨_ | _, w'⟩ <;> rfl
  | cons stage xs ih =>
    rcases hstep : stage.step w with _ | ⟨_ | _, v⟩
    · simp [attempt, hstep]
    · simp [attempt, hstep]
    · have hrest : attempt (xs ++ ys) v = match attempt xs v with
          | some (true, v') => match attempt ys v' with
            | some (false, u) => (sequence (unwind xs) u).map (Prod.mk false)
            | outcome => outcome
          | outcome => outcome := ih v
      rcases hxs : attempt xs v with _ | ⟨_ | _, v'⟩
      · rw [hxs] at hrest
        simp [attempt, hstep, hxs, hrest]
      · rw [hxs] at hrest
        rcases hlabel : sequence stage.label v' with _ | w'
        · simp [attempt, hstep, hxs, hrest, hlabel]
        · simp [attempt, hstep, hxs, hrest, hlabel]
      · rw [hxs] at hrest
        rcases hys : attempt ys v' with _ | ⟨_ | _, u⟩
        · simp only [hys] at hrest
          simp [attempt, hstep, hxs, hrest, hys]
        · simp only [hys] at hrest
          rcases hundo : sequence (unwind xs) u with _ | u'
          · simp [attempt, hstep, hxs, hrest, hys, unwind, sequence_append, hundo]
          · rcases hlabel : sequence stage.label u' with _ | w'
            · simp [attempt, hstep, hxs, hrest, hys, unwind, sequence_append, hundo, hlabel]
            · simp [attempt, hstep, hxs, hrest, hys, unwind, sequence_append, hundo, hlabel]
        · simp only [hys] at hrest
          simp [attempt, hstep, hxs, hrest, hys]

/-! ## Steps of known effect -/

/-- From a state in `P`, `step` succeeds when `ok` holds, with the effect `up` and in `Q`, and `undo` takes
that effect back; else it fails and changes nothing. -/
structure Exact (P Q ok : σ → Prop) (up : σ → σ) (step : Step σ) (undo : Undo σ) : Prop where
  /-- It succeeds. -/
  passes : ∀ w, P w → ok w → step w = some (true, up w)
  /-- The state after it. -/
  after : ∀ w, P w → ok w → Q (up w)
  /-- The effect is taken back. -/
  undone : ∀ w, P w → ok w → undo (up w) = some w
  /-- It fails. -/
  fails : ∀ w, P w → ¬ ok w → step w = some (false, w)

section Rules

variable {P Q R ok ok' : σ → Prop} {up up' : σ → σ} {step : Step σ} {undo : Undo σ}

/-- The undo as a list. -/
theorem Exact.single (h : Exact P Q ok up step undo) : Exact P Q ok up step (sequence [undo]) := by
  rwa [sequence_single]

/-- The last step of a routine. -/
theorem Exact.last (label : List (Undo σ)) (h : Exact P Q ok up step undo) :
    Exact P Q ok up (attempt [⟨step, label⟩]) undo := by
  rwa [attempt_single]

/-- A step and the rest of its routine. -/
theorem Exact.cons {label undos : List (Undo σ)} {rest : List (Stage σ)}
    (h : Exact P Q ok up step (sequence label))
    (hrest : Exact Q R ok' up' (attempt rest) (sequence undos)) :
    Exact P R (fun w => ok w ∧ ok' (up w)) (fun w => up' (up w)) (attempt (⟨step, label⟩ :: rest))
      (sequence (undos ++ label)) where
  passes := by
    rintro w hw ⟨hok, hok'⟩
    rw [attempt_cons_of_passes (h.passes w hw hok), hrest.passes _ (h.after w hw hok) hok']
  after := by
    rintro w hw ⟨hok, hok'⟩
    exact hrest.after _ (h.after w hw hok) hok'
  undone := by
    rintro w hw ⟨hok, hok'⟩
    rw [sequence_append, hrest.undone _ (h.after w hw hok) hok']
    exact h.undone w hw hok
  fails := by
    intro w hw hnot
    by_cases hok : ok w
    · rw [attempt_cons_of_passes (h.passes w hw hok),
        hrest.fails _ (h.after w hw hok) fun hok' => hnot ⟨hok, hok'⟩]
      simp only [h.undone w hw hok, Option.map_some]
    · exact attempt_cons_of_fails (h.fails w hw hok)

/-- A check that passes before the effect is taken back. -/
theorem Exact.checked {P' : σ → Prop} {undos : List (Undo σ)} (guard : Undo σ)
    (h : Exact P Q ok up step (sequence undos)) (hP : ∀ w, P' w → P w)
    (hguard : ∀ w, P' w → ok w → guard (up w) = some (up w)) :
    Exact P' Q ok up step (sequence (guard :: undos)) where
  passes := fun w hw => h.passes w (hP w hw)
  after := fun w hw => h.after w (hP w hw)
  undone := by
    intro w hw hok
    rw [sequence_cons, hguard w hw hok, Option.bind_some, h.undone w (hP w hw) hok]
  fails := fun w hw => h.fails w (hP w hw)

/-- What else the effect keeps. -/
theorem Exact.keeping (F : σ → Prop) (h : Exact P Q ok up step undo) (hF : ∀ w, F w → F (up w)) :
    Exact (fun w => P w ∧ F w) (fun w => Q w ∧ F w) ok up step undo where
  passes := fun w hw => h.passes w hw.1
  after := fun w hw hok => ⟨h.after w hw.1 hok, hF w hw.2⟩
  undone := fun w hw => h.undone w hw.1
  fails := fun w hw => h.fails w hw.1

/-- A weaker start and a weaker end. -/
theorem Exact.mono {P' Q' : σ → Prop} (h : Exact P Q ok up step undo) (hP : ∀ w, P' w → P w)
    (hQ : ∀ w, Q w → Q' w) : Exact P' Q' ok up step undo where
  passes := fun w hw => h.passes w (hP w hw)
  after := fun w hw hok => hQ _ (h.after w (hP w hw) hok)
  undone := fun w hw => h.undone w (hP w hw)
  fails := fun w hw => h.fails w (hP w hw)

/-- What is asked of the state only when the step succeeds. -/
theorem Exact.when {C D : σ → Prop} (h : Exact P Q ok up step undo)
    (hC : ∀ w, P w → ok w → C w → D (up w)) :
    Exact (fun w => P w ∧ (ok w → C w)) (fun w => Q w ∧ D w) ok up step undo where
  passes := fun w hw => h.passes w hw.1
  after := fun w hw hok => ⟨h.after w hw.1 hok, hC w hw.1 hok (hw.2 hok)⟩
  undone := fun w hw => h.undone w hw.1
  fails := fun w hw => h.fails w hw.1

/-- The condition in other words. -/
theorem Exact.iff (h : Exact P Q ok up step undo) (hok : ∀ w, P w → (ok' w ↔ ok w)) :
    Exact P Q ok' up step undo where
  passes := fun w hw hok' => h.passes w hw ((hok w hw).1 hok')
  after := fun w hw hok' => h.after w hw ((hok w hw).1 hok')
  undone := fun w hw hok' => h.undone w hw ((hok w hw).1 hok')
  fails := fun w hw hnot => h.fails w hw fun hok' => hnot ((hok w hw).2 hok')

end Rules

/-! ## A part of the state -/

/-- A part of the state that can be read and put back. -/
structure Part (σ : Type u) (ρ : Type v) where
  /-- The part. -/
  get : σ → ρ
  /-- The state with another part. -/
  set : ρ → σ → σ
  /-- What was put is read. -/
  get_set : ∀ r w, get (set r w) = r
  /-- Putting back what was read. -/
  set_get : ∀ w, set (get w) w = w
  /-- The last one put stays. -/
  set_set : ∀ r r' w, set r (set r' w) = set r w

variable {ρ : Type v}

/-- A step on the part. -/
def Part.step (p : Part σ ρ) (step : Step ρ) : Step σ := fun w =>
  (step (p.get w)).map fun outcome => (outcome.1, p.set outcome.2 w)

/-- An undo on the part. -/
def Part.undo (p : Part σ ρ) (undo : Undo ρ) : Undo σ := fun w => (undo (p.get w)).map fun r => p.set r w

/-- A stage on the part. -/
def Part.stage (p : Part σ ρ) (stage : Stage ρ) : Stage σ := ⟨p.step stage.step, stage.label.map p.undo⟩

section PartRules

variable {P Q ok : ρ → Prop} {up : ρ → ρ} {step : Step ρ} {undo : Undo ρ} (p : Part σ ρ)

theorem Part.sequence_map (undos : List (Undo ρ)) (w : σ) :
    sequence (undos.map p.undo) w = p.undo (sequence undos) w := by
  induction undos generalizing w with
  | nil => simp [Part.undo, p.set_get]
  | cons undo undos ih =>
    rw [List.map_cons, sequence_cons]
    rcases hundo : undo (p.get w) with _ | r
    · simp [Part.undo, hundo]
    · simp only [Part.undo, hundo, sequence_cons, Option.map_some, Option.bind_some]
      rw [ih]
      simp only [Part.undo, p.get_set, p.set_set]

theorem Part.unwind_map (stages : List (Stage ρ)) :
    unwind (stages.map p.stage) = (unwind stages).map p.undo := by
  induction stages with
  | nil => rfl
  | cons stage stages ih => simp only [List.map_cons, unwind, ih, List.map_append, Part.stage]

theorem Part.attempt_map (stages : List (Stage ρ)) (w : σ) :
    attempt (stages.map p.stage) w = p.step (attempt stages) w := by
  induction stages generalizing w with
  | nil => simp [Part.step, p.set_get]
  | cons stage stages ih =>
    simp only [List.map_cons, attempt, Part.step, Part.stage]
    rcases hstep : stage.step (p.get w) with _ | ⟨_ | _, r⟩
    · rfl
    · rfl
    · simp only [Option.map_some, ih, Part.step, p.get_set]
      rcases hrun : attempt stages r with _ | ⟨_ | _, r'⟩
      · rfl
      · simp only [Option.map_some, p.sequence_map, Part.undo, p.get_set, p.set_set, Option.map_map]
        rfl
      · simp only [Option.map_some, p.set_set]

/-- A step of known effect on the part. -/
theorem Exact.part {undos : List (Undo ρ)} (h : Exact P Q ok up step (sequence undos)) (F : σ → Prop)
    (hF : ∀ r w, F w → F (p.set r w)) :
    Exact (fun w => P (p.get w) ∧ F w) (fun w => Q (p.get w) ∧ F w) (fun w => ok (p.get w))
      (fun w => p.set (up (p.get w)) w) (p.step step) (sequence (undos.map p.undo)) where
  passes := by
    intro w hw hok
    simp [Part.step, h.passes _ hw.1 hok]
  after := by
    intro w hw hok
    exact ⟨(p.get_set _ w).symm ▸ h.after _ hw.1 hok, hF _ w hw.2⟩
  undone := by
    intro w hw hok
    simp [p.sequence_map, Part.undo, p.get_set, h.undone _ hw.1 hok, p.set_set, p.set_get]
  fails := by
    intro w hw hok
    simp [Part.step, h.fails _ hw.1 hok, p.set_get]

/-- Undos on two parts that do not overlap can be done in either order. -/
theorem Part.sequence_swap {π : Type w} (p' : Part σ π) (undo : Undo π) (undos : List (Undo ρ))
    (rest : List (Undo σ)) (hget : ∀ r w, p'.get (p.set r w) = p'.get w)
    (hget' : ∀ s w, p.get (p'.set s w) = p.get w)
    (hset : ∀ r s w, p'.set s (p.set r w) = p.set r (p'.set s w)) :
    sequence (p'.undo undo :: (undos.map p.undo ++ rest)) =
      sequence (undos.map p.undo ++ p'.undo undo :: rest) := by
  funext w
  rw [sequence_cons, sequence_append]
  rcases hundo : undo (p'.get w) with _ | s
  · rw [p.sequence_map]
    rcases hundos : sequence undos (p.get w) with _ | r
    · simp [Part.undo, hundo, hundos]
    · simp [Part.undo, hundo, hundos, hget]
  · rcases hundos : sequence undos (p.get w) with _ | r
    · simp [Part.undo, hundo, hundos, hget', sequence_append, p.sequence_map]
    · simp [Part.undo, hundo, hundos, hget, hget', hset, sequence_append, p.sequence_map]

end PartRules

/-! ## What is not touched -/

/-- A step that does not change what `view` sees. -/
def StepKeeps (view : σ → τ) (step : Step σ) : Prop :=
  ∀ w ok w', step w = some (ok, w') → view w' = view w

/-- An undo that does not change what `view` sees. -/
def UndoKeeps (view : σ → τ) (undo : Undo σ) : Prop := ∀ w w', undo w = some w' → view w' = view w

/-- An undo that does not read what `change` changes. -/
def Commutes (change : σ → σ) (undo : Undo σ) : Prop := ∀ w, undo (change w) = (undo w).map change

section Untouched

variable {view : σ → τ} {change : σ → σ} {undos : List (Undo σ)} {stages : List (Stage σ)}

theorem sequence_keeps (h : ∀ undo ∈ undos, UndoKeeps view undo) : UndoKeeps view (sequence undos) := by
  induction undos with
  | nil =>
    intro w w' hrun
    rw [sequence_nil, Option.some.injEq] at hrun
    rw [hrun]
  | cons undo undos ih =>
    intro w w' hrun
    obtain ⟨v, hundo, hrest⟩ := Option.bind_eq_some_iff.1 hrun
    rw [ih (fun x hx => h x (List.mem_cons_of_mem undo hx)) v w' hrest, h undo (by simp) w v hundo]

/-- What each undo preserves, a list of them does. -/
theorem sequence_invariant {P : σ → Prop} {w w' : σ}
    (h : ∀ undo ∈ undos, ∀ w w', P w → undo w = some w' → P w') (hw : P w) (hrun : sequence undos w = some w') :
    P w' := by
  induction undos generalizing w with
  | nil =>
    rw [sequence_nil, Option.some.injEq] at hrun
    rwa [← hrun]
  | cons undo undos ih =>
    obtain ⟨v, hundo, hrest⟩ := Option.bind_eq_some_iff.1 hrun
    exact ih (fun x hx => h x (List.mem_cons_of_mem undo hx)) (h undo (by simp) w v hw hundo) hrest

theorem attempt_keeps (h : ∀ stage ∈ stages, StepKeeps view stage.step ∧
    ∀ undo ∈ stage.label, UndoKeeps view undo) : StepKeeps view (attempt stages) := by
  induction stages with
  | nil =>
    intro w ok w' hrun
    simp only [attempt_nil, Option.some.injEq, Prod.mk.injEq] at hrun
    rw [hrun.2]
  | cons stage stages ih =>
    have hrest := ih fun x hx => h x (List.mem_cons_of_mem stage hx)
    obtain ⟨hstep, hlabel⟩ := h stage (by simp)
    intro w ok w' hrun
    cases ok with
    | true =>
      obtain ⟨v, hpass, hrun'⟩ := attempt_cons_true.1 hrun
      rw [hrest v true w' hrun', hstep w true v hpass]
    | false =>
      rcases attempt_cons_false.1 hrun with hfail | ⟨v, v', hpass, hrun', hback⟩
      · exact hstep w false w' hfail
      · rw [sequence_keeps hlabel v' w' hback, hrest v false v' hrun', hstep w true v hpass]

/-- What a step, the rest of its routine and its label preserve, the routine does. -/
theorem attempt_cons_invariant {P : σ → Prop} {step : Step σ} {label : List (Undo σ)} {rest : List (Stage σ)}
    {w w' : σ} {ok : Bool} (hstep : ∀ ok v, step w = some (ok, v) → P v)
    (hrest : ∀ v ok u, step w = some (true, v) → P v → attempt rest v = some (ok, u) → P u)
    (hlabel : ∀ u v, P u → sequence label u = some v → P v)
    (hrun : attempt (⟨step, label⟩ :: rest) w = some (ok, w')) : P w' := by
  cases ok with
  | true =>
    obtain ⟨v, hpass, hrun'⟩ := attempt_cons_true.1 hrun
    exact hrest v true w' hpass (hstep true v hpass) hrun'
  | false =>
    rcases attempt_cons_false.1 hrun with hfail | ⟨v, u, hpass, hrun', hback⟩
    · exact hstep false w' hfail
    · exact hlabel u w' (hrest v false u hpass (hstep true v hpass) hrun') hback

theorem sequence_commutes (h : ∀ undo ∈ undos, Commutes change undo) :
    Commutes change (sequence undos) := by
  induction undos with
  | nil => exact fun w => rfl
  | cons undo undos ih =>
    intro w
    have hrest := ih fun x hx => h x (List.mem_cons_of_mem undo hx)
    simp only [sequence_cons, h undo (by simp) w, Option.bind_map, Option.map_bind]
    exact congrArg (Option.bind (undo w)) (funext hrest)

/-- A step on a part keeps what it keeps of the part. -/
theorem Part.step_keeps (p : Part σ ρ) {view : ρ → τ} {step : Step ρ} (h : StepKeeps view step) :
    StepKeeps (fun w => view (p.get w)) (p.step step) := by
  intro w ok w' hrun
  obtain ⟨⟨ok', r⟩, hstep, heq⟩ := Option.map_eq_some_iff.1 hrun
  obtain ⟨rfl, rfl⟩ := Prod.mk.inj heq
  exact (congrArg view (p.get_set r w)).trans (h _ _ _ hstep)

theorem Part.undo_keeps (p : Part σ ρ) {view : ρ → τ} {undo : Undo ρ} (h : UndoKeeps view undo) :
    UndoKeeps (fun w => view (p.get w)) (p.undo undo) := by
  intro w w' hrun
  obtain ⟨r, hundo, rfl⟩ := Option.map_eq_some_iff.1 hrun
  exact (congrArg view (p.get_set r w)).trans (h _ _ hundo)

/-- A step on a part keeps what does not see the part. -/
theorem Part.step_keeps_of_apart (p : Part σ ρ) (step : Step ρ) (hview : ∀ r w, view (p.set r w) = view w) :
    StepKeeps view (p.step step) := by
  intro w ok w' hrun
  obtain ⟨⟨ok', r⟩, hstep, heq⟩ := Option.map_eq_some_iff.1 hrun
  obtain ⟨rfl, rfl⟩ := Prod.mk.inj heq
  exact hview r w

theorem Part.undo_keeps_of_apart (p : Part σ ρ) (undo : Undo ρ) (hview : ∀ r w, view (p.set r w) = view w) :
    UndoKeeps view (p.undo undo) := by
  intro w w' hrun
  obtain ⟨r, hundo, rfl⟩ := Option.map_eq_some_iff.1 hrun
  exact hview r w

/-- A stage that does not change what `view` sees. -/
def StageKeeps (view : σ → τ) (stage : Stage σ) : Prop :=
  StepKeeps view stage.step ∧ ∀ undo ∈ stage.label, UndoKeeps view undo

/-- Two views of the state. -/
theorem UndoKeeps.prodMk {π : Type w} {view' : σ → π} {undo : Undo σ} (h : UndoKeeps view undo)
    (h' : UndoKeeps view' undo) : UndoKeeps (fun w => (view w, view' w)) undo := fun w w' hrun =>
  Prod.ext (h w w' hrun) (h' w w' hrun)

theorem StageKeeps.prodMk {π : Type w} {view' : σ → π} {stage : Stage σ} (h : StageKeeps view stage)
    (h' : StageKeeps view' stage) : StageKeeps (fun w => (view w, view' w)) stage :=
  ⟨fun w ok w' hrun => Prod.ext (h.1 w ok w' hrun) (h'.1 w ok w' hrun), fun undo hundo =>
    (h.2 undo hundo).prodMk (h'.2 undo hundo)⟩

theorem Part.stage_keeps (p : Part σ ρ) {view : ρ → τ} {stage : Stage ρ} (h : StageKeeps view stage) :
    StageKeeps (fun w => view (p.get w)) (p.stage stage) := by
  refine ⟨p.step_keeps h.1, fun undo hundo => ?_⟩
  obtain ⟨undo, hmem, rfl⟩ := List.mem_map.1 hundo
  exact p.undo_keeps (h.2 undo hmem)

theorem Part.stage_keeps_of_apart (p : Part σ ρ) (stage : Stage ρ) (hview : ∀ r w, view (p.set r w) = view w) :
    StageKeeps view (p.stage stage) := by
  refine ⟨p.step_keeps_of_apart stage.step hview, fun undo hundo => ?_⟩
  obtain ⟨undo, -, rfl⟩ := List.mem_map.1 hundo
  exact p.undo_keeps_of_apart undo hview

/-- An undo on a part commutes with a change of that part. -/
theorem Part.undo_commutes (p : Part σ ρ) {undo : Undo ρ} {change : ρ → ρ} (h : Commutes change undo) :
    Commutes (fun w => p.set (change (p.get w)) w) (p.undo undo) := by
  intro w
  simp only [Part.undo, p.get_set, h (p.get w), Option.map_map]
  congr 1
  funext r
  simp only [Function.comp_apply, p.get_set, p.set_set]

/-- An undo on a part commutes with a change elsewhere. -/
theorem Part.undo_commutes_of_apart (p : Part σ ρ) (undo : Undo ρ)
    (hget : ∀ w, p.get (change w) = p.get w) (hset : ∀ r w, p.set r (change w) = change (p.set r w)) :
    Commutes change (p.undo undo) := by
  intro w
  simp only [Part.undo, hget, Option.map_map]
  congr 1
  funext r
  exact hset r w

end Untouched

/-! ## All or nothing -/

/-- A call that fails changes nothing, and one that succeeds can be taken back. -/
def AllOrNothing (step : Step σ) (undo : Undo σ) (w : σ) : Prop :=
  ∃ ok w', step w = some (ok, w') ∧ (ok = false → w' = w) ∧ (ok = true → undo w' = some w)

theorem Exact.allOrNothing {P Q ok : σ → Prop} {up : σ → σ} {step : Step σ} {undo : Undo σ} {w : σ}
    (h : Exact P Q ok up step undo) (hw : P w) : AllOrNothing step undo w := by
  by_cases hok : ok w
  · exact ⟨true, up w, h.passes w hw hok, fun hfalse => Bool.noConfusion hfalse, fun _ => h.undone w hw hok⟩
  · exact ⟨false, w, h.fails w hw hok, fun _ => rfl, fun htrue => Bool.noConfusion htrue⟩

/-- A step on a part leaves the rest as it is. -/
theorem Part.allOrNothing {ρ : Type v} (p : Part σ ρ) {step : Step ρ} {undo : Undo ρ} {w : σ} :
    AllOrNothing (p.step step) (p.undo undo) w ↔ AllOrNothing step undo (p.get w) := by
  have hback : ∀ {r}, p.set r w = w → r = p.get w := fun h => (p.get_set _ w).symm.trans (congrArg p.get h)
  constructor
  · rintro ⟨ok, w', hrun, hfails, hundo⟩
    obtain ⟨⟨ok, r⟩, hstep, heq⟩ := Option.map_eq_some_iff.1 hrun
    obtain ⟨rfl, rfl⟩ := Prod.mk.inj heq
    refine ⟨ok, r, hstep, fun h => hback (hfails h), fun h => ?_⟩
    obtain ⟨r', hr', heq'⟩ := Option.map_eq_some_iff.1 (hundo h)
    rw [p.get_set] at hr'
    rw [p.set_set] at heq'
    rw [hr', hback heq']
  · rintro ⟨ok, r, hstep, hfails, hundo⟩
    refine ⟨ok, p.set r w, congrArg (Option.map _) hstep, fun h => ?_, fun h => ?_⟩
    · rw [hfails h, p.set_get]
    · rw [Part.undo, p.get_set, hundo h, Option.map_some, p.set_set, p.set_get]

/-- A step whose failure or undo leaves something else than `before` where `seen` looks: its failure does, and so
does its undo, from any state that looks the same to `view`. -/
structure Spoils {υ : Type w} (view : σ → τ) (seen : σ → υ) (before : υ) (step : Step σ) (undo : Undo σ) (w : σ) :
    Prop where
  /-- A step that fails. -/
  failed : ∀ w', step w = some (false, w') → seen w' ≠ before
  /-- A step that succeeds. -/
  undone : ∀ w' v v', step w = some (true, w') → view v = view w' → undo v = some v' → seen v' ≠ before

section Spoiling

variable {υ : Type w} {view : σ → τ} {seen : σ → υ} {before : υ} {step : Step σ} {undo : Undo σ}
  {rest : List (Stage σ)} {undos label : List (Undo σ)} {w v : σ}

theorem Spoils.not_allOrNothing (h : Spoils view seen (seen w) step undo w) : ¬ AllOrNothing step undo w := by
  rintro ⟨ok, w', hstep, hfalse, htrue⟩
  cases ok with
  | false => exact h.failed w' hstep (by rw [hfalse rfl])
  | true => exact h.undone w' w' w hstep rfl (htrue rfl) rfl

/-- A view that sees more. -/
theorem Spoils.mono {ρ : Type v} {view' : σ → ρ} (h : Spoils view seen before step undo w)
    (hview : ∀ v w, view' v = view' w → view v = view w) : Spoils view' seen before step undo w where
  failed := h.failed
  undone := fun w' v v' hstep hv => h.undone w' v v' hstep (hview v w' hv)

/-- A step that comes before. -/
theorem Spoils.cons (h : Spoils view seen before (attempt rest) (sequence undos) v)
    (hstep : step w = some (true, v)) (hlabel : ∀ undo ∈ label, UndoKeeps seen undo) :
    Spoils view seen before (attempt (⟨step, label⟩ :: rest)) (sequence (undos ++ label)) w where
  failed := by
    intro w' hrun
    rcases attempt_cons_false.1 hrun with hfails | ⟨v', w'', hpasses, hrest, hback⟩
    · simp [hstep] at hfails
    · obtain rfl : v = v' := by simpa [hstep] using hpasses
      rw [sequence_keeps hlabel _ _ hback]
      exact h.failed w'' hrest
  undone := by
    intro w' u u' hrun hu hundo
    obtain ⟨v', hpasses, hrest⟩ := attempt_cons_true.1 hrun
    obtain rfl : v = v' := by simpa [hstep] using hpasses
    rw [sequence_append] at hundo
    obtain ⟨x, hx, hback⟩ := Option.bind_eq_some_iff.1 hundo
    rw [sequence_keeps hlabel _ _ hback]
    exact h.undone w' u x hrest hu hx

/-- Steps that come after. -/
theorem Spoils.head (h : Spoils view seen before step (sequence label) w)
    (hrest : StepKeeps view (attempt rest)) (hundos : ∀ undo ∈ undos, UndoKeeps view undo) :
    Spoils view seen before (attempt (⟨step, label⟩ :: rest)) (sequence (undos ++ label)) w where
  failed := by
    intro w' hrun
    rcases attempt_cons_false.1 hrun with hfails | ⟨v, v', hpasses, hrun', hback⟩
    · exact h.failed w' hfails
    · exact h.undone v v' w' hpasses (hrest v false v' hrun') hback
  undone := by
    intro w' u u' hrun hu hundo
    obtain ⟨v, hpasses, hrun'⟩ := attempt_cons_true.1 hrun
    rw [sequence_append] at hundo
    obtain ⟨x, hx, hback⟩ := Option.bind_eq_some_iff.1 hundo
    have hview : view x = view v := by
      rw [sequence_keeps hundos _ _ hx, hu, hrest v true w' hrun']
    exact h.undone v x u' hpasses hview hback

/-- More is taken back after it. -/
theorem Spoils.append {more : List (Undo σ)} (h : Spoils view seen before step (sequence undos) w)
    (hmore : ∀ undo ∈ more, UndoKeeps seen undo) : Spoils view seen before step (sequence (undos ++ more)) w where
  failed := h.failed
  undone := by
    intro w' v v' hrun hv hundo
    rw [sequence_append] at hundo
    obtain ⟨x, hx, hrest⟩ := Option.bind_eq_some_iff.1 hundo
    rw [sequence_keeps hmore _ _ hrest]
    exact h.undone w' v x hrun hv hx

end Spoiling

/-! ## Counted references -/

/-- A count of references in the state. -/
structure Counter (σ : Type u) where
  /-- The count. -/
  count : σ → ℤ
  /-- The state with so many more references. -/
  add : ℤ → σ → σ
  /-- The count after an addition. -/
  count_add : ∀ n w, count (add n w) = count w + n
  /-- Two additions. -/
  add_add : ∀ m n w, add m (add n w) = add (n + m) w
  /-- Nothing added. -/
  add_zero : ∀ w, add 0 w = w

variable (c : Counter σ)

/-- The last label of a routine that is run for the first reference: the count is taken back, and must be
zero. -/
def Counter.drop : Undo σ := fun w => if c.count (c.add (-1) w) = 0 then some (c.add (-1) w) else none

/-- A reference is taken. The first one runs the routine. -/
def Counter.acquire (stages : List (Stage σ)) : Step σ := fun w =>
  if c.count w ≠ 0 then some (true, c.add 1 w)
  else attempt (⟨fun w => some (true, c.add 1 w), [c.drop]⟩ :: stages) w

/-- A reference is given back. The last one runs `body`. -/
def Counter.release (body : List (Undo σ)) : Undo σ := fun w =>
  if 0 < c.count (c.add (-1) w) then some (c.add (-1) w) else sequence body (c.add (-1) w)

/-- The effect of taking a reference. -/
def Counter.up (up : σ → σ) : σ → σ := fun w => if c.count w = 0 then up (c.add 1 w) else c.add 1 w

section Counted

variable {view : σ → τ} {P P₁ Q ok : σ → Prop} {up : σ → σ} {stages : List (Stage σ)}
  {body : List (Undo σ)} {w w' : σ}

theorem Counter.add_neg_one_add_one (w : σ) : c.add (-1) (c.add 1 w) = w := by
  rw [c.add_add]
  exact c.add_zero w

theorem Counter.drop_add_one (h : c.count w = 0) : c.drop (c.add 1 w) = some w := by
  rw [drop, c.add_neg_one_add_one, if_pos h]

/-- Another reference. -/
theorem Counter.acquire_of_ne (h : c.count w ≠ 0) : c.acquire stages w = some (true, c.add 1 w) :=
  if_pos h

/-- The first reference. -/
theorem Counter.acquire_of_eq (h : c.count w = 0) : c.acquire stages w =
    match attempt stages (c.add 1 w) with
    | some (false, w') => (c.drop w').map (Prod.mk false)
    | outcome => outcome := by
  rw [acquire, if_neg (not_not.2 h), attempt_cons_of_passes rfl]
  simp only [sequence_cons, bind_sequence_nil]

/-- A reference is taken: one more, or the routine has succeeded. -/
theorem Counter.acquire_true : c.acquire stages w = some (true, w') ↔
    c.count w ≠ 0 ∧ c.add 1 w = w' ∨ c.count w = 0 ∧ attempt stages (c.add 1 w) = some (true, w') := by
  by_cases h : c.count w = 0
  · rw [acquire, if_neg (not_not.2 h), attempt_cons_true]
    simp [h]
  · simp [acquire, h]

/-- No reference is taken: the first one, and the routine has failed. -/
theorem Counter.acquire_false : c.acquire stages w = some (false, w') ↔
    c.count w = 0 ∧ ∃ v, attempt stages (c.add 1 w) = some (false, v) ∧ c.drop v = some w' := by
  by_cases h : c.count w = 0
  · rw [acquire, if_neg (not_not.2 h), attempt_cons_false]
    simp [h]
  · simp [acquire, h]

/-- A reference is given back: there are others, or it was the last one. -/
theorem Counter.release_some : c.release body w = some w' ↔
    1 < c.count w ∧ c.add (-1) w = w' ∨ c.count w ≤ 1 ∧ sequence body (c.add (-1) w) = some w' := by
  rw [release]
  by_cases h : 0 < c.count (c.add (-1) w)
  · rw [if_pos h]
    rw [c.count_add] at h
    simp [show 1 < c.count w by omega, show ¬ c.count w ≤ 1 by omega]
  · rw [if_neg h]
    rw [c.count_add] at h
    simp [show ¬ 1 < c.count w by omega, show c.count w ≤ 1 by omega]

/-- What the routine and the count preserve, a counted call does. -/
theorem Counter.acquire_invariant {P : σ → Prop} {ok : Bool} (hadd : ∀ n w, P w → P (c.add n w)) (hw : P w)
    (hstages : ∀ ok v, c.count w = 0 → attempt stages (c.add 1 w) = some (ok, v) → P v)
    (hrun : c.acquire stages w = some (ok, w')) : P w' := by
  cases ok with
  | true =>
    rcases c.acquire_true.1 hrun with ⟨-, rfl⟩ | ⟨h0, hrun'⟩
    · exact hadd 1 w hw
    · exact hstages true w' h0 hrun'
  | false =>
    obtain ⟨h0, v, hrun', hdrop⟩ := c.acquire_false.1 hrun
    rw [Counter.drop] at hdrop
    split_ifs at hdrop
    obtain rfl := Option.some.inj hdrop
    exact hadd (-1) v (hstages false v h0 hrun')

theorem Counter.release_invariant {P : σ → Prop} (hadd : ∀ n w, P w → P (c.add n w)) (hw : P w)
    (hbody : ∀ undo ∈ body, ∀ w w', P w → undo w = some w' → P w') (hrun : c.release body w = some w') : P w' := by
  rcases c.release_some.1 hrun with ⟨-, rfl⟩ | ⟨-, hlast⟩
  · exact hadd (-1) w hw
  · exact sequence_invariant hbody (hadd (-1) w hw) hlast

theorem Counter.release_keeps (hadd : ∀ w, view (c.add (-1) w) = view w)
    (h : ∀ undo ∈ body, UndoKeeps view undo) : UndoKeeps view (c.release body) := by
  intro w w' hrun
  rcases c.release_some.1 hrun with ⟨-, rfl⟩ | ⟨-, hbody⟩
  · exact hadd w
  · rw [sequence_keeps h _ _ hbody, hadd]

theorem Counter.acquire_keeps (hadd : ∀ n w, view (c.add n w) = view w) (h : StepKeeps view (attempt stages)) :
    StepKeeps view (c.acquire stages) := by
  intro w ok w' hrun
  cases ok with
  | true =>
    rcases c.acquire_true.1 hrun with ⟨-, rfl⟩ | ⟨-, hrun'⟩
    · exact hadd 1 w
    · rw [h _ _ _ hrun', hadd]
  | false =>
    obtain ⟨-, v, hrun', hdrop⟩ := c.acquire_false.1 hrun
    rw [drop] at hdrop
    split at hdrop
    · rw [← Option.some.inj hdrop, hadd, h _ _ _ hrun', hadd]
    · cases hdrop

/-- A first reference whose routine spoils what is seen. -/
theorem Counter.spoils {ρ : Type v} {υ : Type w} {view' : σ → ρ} {seen : σ → υ} {before : υ}
    (h : Spoils view seen before (attempt stages) (sequence body) (c.add 1 w)) (h0 : c.count w = 0)
    (hkeeps : ∀ w', attempt stages (c.add 1 w) = some (true, w') → c.count w' = 1)
    (hview : ∀ v w, view' v = view' w → view v = view w ∧ c.count v = c.count w)
    (hadd : ∀ w, view (c.add (-1) w) = view w) (hseen : ∀ w, seen (c.add (-1) w) = seen w) :
    Spoils view' seen before (c.acquire stages) (c.release body) w where
  failed := by
    intro w' hrun
    obtain ⟨-, v, hrun', hdrop⟩ := c.acquire_false.1 hrun
    rw [drop] at hdrop
    split at hdrop
    · rw [← Option.some.inj hdrop, hseen]
      exact h.failed v hrun'
    · cases hdrop
  undone := by
    intro w' v v' hrun hv hundo
    rcases c.acquire_true.1 hrun with ⟨hne, -⟩ | ⟨-, hrun'⟩
    · exact absurd h0 hne
    · obtain ⟨hsame, hcount⟩ := hview v w' hv
      rcases c.release_some.1 hundo with ⟨hmore, -⟩ | ⟨-, hbody⟩
      · rw [hcount, hkeeps w' hrun'] at hmore
        omega
      · exact h.undone w' _ v' hrun' ((hadd v).trans hsame) hbody

theorem Counter.release_commutes {change : σ → σ} (hcount : ∀ w, c.count (change w) = c.count w)
    (hadd : ∀ w, c.add (-1) (change w) = change (c.add (-1) w))
    (h : ∀ undo ∈ body, Commutes change undo) : Commutes change (c.release body) := by
  intro w
  simp only [release, hadd, hcount]
  split
  · rfl
  · exact sequence_commutes h _

/-- A counted routine of known effect. -/
theorem Counter.exact (h : Exact P₁ Q ok up (attempt stages) (sequence body))
    (hnonneg : ∀ w, P w → 0 ≤ c.count w) (hP : ∀ w, P w → c.count w = 0 → P₁ (c.add 1 w))
    (hQ : ∀ w, P w → c.count w ≠ 0 → Q (c.add 1 w)) (hcount : ∀ w, c.count (up w) = c.count w)
    (hbody : Commutes (c.add (-1)) (sequence body)) :
    Exact P Q (fun w => c.count w = 0 → ok (c.add 1 w)) (c.up up) (c.acquire stages) (c.release body) where
  passes := by
    intro w hw hok
    by_cases h0 : c.count w = 0
    · rw [c.acquire_of_eq h0, h.passes _ (hP w hw h0) (hok h0)]
      simp only [Counter.up, if_pos h0]
    · rw [c.acquire_of_ne h0]
      simp only [Counter.up, if_neg h0]
  after := by
    intro w hw hok
    by_cases h0 : c.count w = 0
    · simp only [Counter.up, if_pos h0]
      exact h.after _ (hP w hw h0) (hok h0)
    · simp only [Counter.up, if_neg h0]
      exact hQ w hw h0
  undone := by
    intro w hw hok
    by_cases h0 : c.count w = 0
    · simp only [Counter.up, if_pos h0]
      have hlast : ¬ 0 < c.count (c.add (-1) (up (c.add 1 w))) := by
        rw [c.count_add, hcount, c.count_add]
        omega
      rw [release, if_neg hlast, hbody, h.undone _ (hP w hw h0) (hok h0), Option.map_some,
        c.add_neg_one_add_one]
    · simp only [Counter.up, if_neg h0]
      have hmore : 0 < c.count w := by
        have := hnonneg w hw
        omega
      rw [release, c.add_neg_one_add_one, if_pos hmore]
  fails := by
    intro w hw hnot
    obtain ⟨h0, hok⟩ : c.count w = 0 ∧ ¬ ok (c.add 1 w) := by
      by_contra hcontra
      exact hnot fun h0 => by_contra fun hok => hcontra ⟨h0, hok⟩
    rw [c.acquire_of_eq h0, h.fails _ (hP w hw h0) hok]
    simp only [c.drop_add_one h0, Option.map_some]

end Counted

end Unwind
