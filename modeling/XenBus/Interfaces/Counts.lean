import XenBus.Interfaces.Fifo

/-!
# What a call does not count

No call changes the count of an interface that it does not use, whether it succeeds or fails.
-/

namespace XenBus.Interfaces

open Unwind

variable {τ : Type} {view : World → τ} {env : Env} {i k : Interface} {q : Queue} {r : Resource}

/-! ## The ledger -/

/-- `Context->References`, as it is seen in the ledger. -/
abbrev countOf (k : Interface) (l : Ledger) : ℤ := l.References k

theorem claim_keeps (k : Interface) (fails : Bool) (r : Resource) : StepKeeps (countOf k) (claim fails r) := by
  intro l ok l' hrun
  rw [claim] at hrun
  split_ifs at hrun <;>
  · obtain ⟨-, rfl⟩ := Prod.mk.inj (Option.some.inj hrun)
    rfl

theorem check_keeps {σ : Type} (view : σ → τ) (fails : Bool) : StepKeeps view (check fails) := by
  intro l ok l' hrun
  obtain ⟨-, rfl⟩ := Prod.mk.inj (Option.some.inj hrun)
  rfl

theorem register_keeps (k : Interface) (env : Env) (q : Queue) (i : Interface) :
    StepKeeps (countOf k) (register env q i) := by
  intro l ok l' hrun
  rw [register] at hrun
  split_ifs at hrun <;>
  · obtain ⟨-, rfl⟩ := Prod.mk.inj (Option.some.inj hrun)
    rfl

theorem giveBack_keeps (k : Interface) (r : Resource) : UndoKeeps (countOf k) (giveBack r) := by
  intro l l' hrun
  rw [giveBack] at hrun
  split_ifs at hrun
  obtain rfl := Option.some.inj hrun
  rfl

theorem deregister_keeps (k : Interface) (q : Queue) (i : Interface) :
    UndoKeeps (countOf k) (deregister q i) := by
  intro l l' hrun
  obtain ⟨xs, -, rfl⟩ := Option.map_eq_some_iff.1 hrun
  rfl

theorem destroy_keeps (k i : Interface) : UndoKeeps (countOf k) (destroy i) := by
  intro l l' hrun
  rw [destroy] at hrun
  split_ifs at hrun
  obtain rfl := Option.some.inj hrun
  rfl

theorem bugOnOutstanding_keeps (k i : Interface) : UndoKeeps (countOf k) (bugOnOutstanding i) := by
  intro l l' hrun
  rw [bugOnOutstanding] at hrun
  split_ifs at hrun
  obtain rfl := Option.some.inj hrun
  rfl

/-- A counted call keeps the counts of other interfaces that its routine keeps. -/
theorem acquire_keeps (h : k ≠ i) {stages : List (Stage Ledger)}
    (hstages : ∀ stage ∈ stages, StepKeeps (countOf k) stage.step ∧
      ∀ undo ∈ stage.label, UndoKeeps (countOf k) undo) :
    StepKeeps (countOf k) ((references i).acquire stages) :=
  (references i).acquire_keeps (fun _ _ => refer_References_of_ne h) (attempt_keeps hstages)

theorem release_keeps (h : k ≠ i) {body : List (Undo Ledger)}
    (hbody : ∀ undo ∈ body, UndoKeeps (countOf k) undo) :
    UndoKeeps (countOf k) ((references i).release body) :=
  (references i).release_keeps (fun _ => refer_References_of_ne h) hbody

theorem debugAcquire_keeps (env : Env) (h : k ≠ .debug) : StepKeeps (countOf k) (debugAcquire env) :=
  acquire_keeps h <| by simp [claim_keeps]

theorem debugRelease_keeps (h : k ≠ .debug) : UndoKeeps (countOf k) debugRelease :=
  release_keeps h <| by simp [bugOnOutstanding_keeps, giveBack_keeps]

theorem reportingAcquire_keeps (env : Env) (h : k ≠ .debug) (hi : k ≠ i) :
    StepKeeps (countOf k) (reportingAcquire env i) :=
  acquire_keeps hi <| by simp [debugAcquire_keeps, debugRelease_keeps, register_keeps, h]

theorem reportingRelease_keeps (h : k ≠ .debug) (hi : k ≠ i) : UndoKeeps (countOf k) (reportingRelease i) :=
  release_keeps hi <| by simp [bugOnOutstanding_keeps, deregister_keeps, debugRelease_keeps, h]

theorem sharedInfoAcquire_keeps (env : Env) (h : k ≠ .debug) (hs : k ≠ .suspend) (hi : k ≠ .sharedInfo) :
    StepKeeps (countOf k) (sharedInfoAcquire env) :=
  acquire_keeps hi <| by
    simp [claim_keeps, giveBack_keeps, register_keeps, deregister_keeps, check_keeps, debugAcquire_keeps,
      debugRelease_keeps, suspendAcquire, suspendRelease, reportingAcquire_keeps, reportingRelease_keeps, h, hs]

theorem sharedInfoRelease_keeps (h : k ≠ .debug) (hs : k ≠ .suspend) (hi : k ≠ .sharedInfo) :
    UndoKeeps (countOf k) sharedInfoRelease :=
  release_keeps hi <| by
    simp [giveBack_keeps, deregister_keeps, debugRelease_keeps, suspendRelease, reportingRelease_keeps, h, hs]

theorem evtchnTwoLevelAcquire_keeps (env : Env) (h : k ≠ .debug) (hs : k ≠ .suspend) (hi : k ≠ .sharedInfo)
    (ht : k ≠ .twoLevel) : StepKeeps (countOf k) (evtchnTwoLevelAcquire env) :=
  acquire_keeps ht <| by simp [check_keeps, sharedInfoAcquire_keeps, sharedInfoRelease_keeps, h, hs, hi]

theorem evtchnTwoLevelRelease_keeps (h : k ≠ .debug) (hs : k ≠ .suspend) (hi : k ≠ .sharedInfo)
    (ht : k ≠ .twoLevel) : UndoKeeps (countOf k) evtchnTwoLevelRelease :=
  release_keeps ht <| by simp [sharedInfoRelease_keeps, h, hs, hi]

/-! ## The grant tables -/

/-- `Context->References`, as the grant tables see it. -/
abbrev lowerCountOf (k : Interface) (w : Lower) : ℤ := w.ledger.References k

/-- The interfaces that use the grant tables or the event channels, and these. -/
def Interface.upper : Interface → Bool
  | .evtchn | .store | .console => true
  | _ => false

theorem ne_of_upper {j : Interface} (h : k.upper = true) (hj : j.upper = false) : k ≠ j := by
  rintro rfl
  rw [h] at hj
  cases hj

theorem rangeSetCreate_keeps (k : Interface) (env : Env) : StepKeeps (countOf k) (rangeSetCreate env) := by
  intro l ok l' hrun
  rw [rangeSetCreate] at hrun
  split_ifs at hrun <;>
  · obtain ⟨-, rfl⟩ := Prod.mk.inj (Option.some.inj hrun)
    rfl

theorem gnttabCallbacks_keeps (env : Env) (hk : k.upper = true) :
    ∀ stage ∈ gnttabCallbacks env, StageKeeps (countOf k) stage := by
  have h := ne_of_upper (j := .debug) hk rfl
  have hs := ne_of_upper (j := .suspend) hk rfl
  have hc := ne_of_upper (j := .cache) hk rfl
  simp [gnttabCallbacks, StageKeeps, cacheAcquire, cacheRelease, suspendAcquire, suspendRelease,
    reportingAcquire_keeps, reportingRelease_keeps, register_keeps, deregister_keeps, debugAcquire_keeps,
    debugRelease_keeps, h, hs, hc]

/-- `GnttabAcquire` keeps the counts of the interfaces above it. -/
theorem gnttabAcquire_keeps (env : Env) (hk : k.upper = true) :
    StepKeeps (lowerCountOf k) (gnttabAcquire env) := by
  have ledger {stage : Stage Ledger} (h : StageKeeps (countOf k) stage) :
      StageKeeps (lowerCountOf k) (lowerLedger.stage stage) := lowerLedger.stage_keeps h
  have frames (stage : Stage GnttabContext) : StageKeeps (lowerCountOf k) (lowerGnttab.stage stage) :=
    lowerGnttab.stage_keeps_of_apart stage fun _ _ => rfl
  have hrange : StageKeeps (countOf k) ⟨rangeSetAcquire env, [rangeSetRelease]⟩ :=
    ⟨reportingAcquire_keeps env (ne_of_upper hk rfl) (ne_of_upper hk rfl),
      List.forall_mem_singleton.2 (reportingRelease_keeps (ne_of_upper hk rfl) (ne_of_upper hk rfl))⟩
  have hcreate : StageKeeps (lowerCountOf k) ⟨lowerLedger.step (rangeSetCreate env),
      [lowerGnttab.undo gnttabContract, lowerLedger.undo (destroy .rangeSet)]⟩ :=
    ⟨lowerLedger.step_keeps (rangeSetCreate_keeps k env), List.forall_mem_cons.2
      ⟨lowerGnttab.undo_keeps_of_apart _ fun _ _ => rfl,
        List.forall_mem_singleton.2 (lowerLedger.undo_keeps (destroy_keeps k .rangeSet))⟩⟩
  refine gnttabReferences.acquire_keeps (fun n w => refer_References_of_ne (ne_of_upper hk rfl)) (attempt_keeps ?_)
  simp only [gnttabTables, List.mem_append, List.mem_cons, List.not_mem_nil, or_false, List.mem_map, or_assoc]
  rintro stage (rfl | rfl | rfl | rfl | rfl | ⟨stage, hstage, rfl⟩ | rfl)
  · exact ⟨check_keeps _ _, List.forall_mem_nil _⟩
  · exact ledger ⟨claim_keeps k _ _, List.forall_mem_singleton.2 (giveBack_keeps k _)⟩
  · exact frames _
  · exact ledger hrange
  · exact hcreate
  · exact ledger (gnttabCallbacks_keeps env hk stage hstage)
  · exact frames _

theorem gnttabRelease_keeps (hk : k.upper = true) : UndoKeeps (lowerCountOf k) gnttabRelease := by
  have ledger {undo : Undo Ledger} (h : UndoKeeps (countOf k) undo) :
      UndoKeeps (lowerCountOf k) (lowerLedger.undo undo) := lowerLedger.undo_keeps h
  have frames (undo : Undo GnttabContext) : UndoKeeps (lowerCountOf k) (lowerGnttab.undo undo) :=
    lowerGnttab.undo_keeps_of_apart undo fun _ _ => rfl
  refine gnttabReferences.release_keeps (fun w => refer_References_of_ne (ne_of_upper hk rfl)) ?_
  simp only [List.mem_cons, List.not_mem_nil, or_false, forall_eq_or_imp, forall_eq]
  have h := ne_of_upper (j := .debug) hk rfl
  exact ⟨ledger (bugOnOutstanding_keeps _ _), ledger (deregister_keeps _ _ _), ledger (debugRelease_keeps h),
    ledger (deregister_keeps _ _ _), ledger (reportingRelease_keeps h (ne_of_upper hk rfl)),
    ledger (reportingRelease_keeps h (ne_of_upper hk rfl)), frames _, ledger (destroy_keeps _ _),
    ledger (reportingRelease_keeps h (ne_of_upper hk rfl)), frames _, ledger (giveBack_keeps _ _)⟩

/-! ## The event channels -/

/-- `Context->References`, as the event channels see it. -/
abbrev worldCountOf (k : Interface) (w : World) : ℤ := w.ledger.References k

theorem evtchnCallbacks_keeps (env : Env) (hk : k.upper = true) :
    ∀ stage ∈ evtchnCallbacks env, StageKeeps (countOf k) stage := by
  have h := ne_of_upper (j := .debug) hk rfl
  have hs := ne_of_upper (j := .suspend) hk rfl
  have hi := ne_of_upper (j := .sharedInfo) hk rfl
  simp [evtchnCallbacks, StageKeeps, suspendAcquire, suspendRelease, reportingAcquire_keeps,
    reportingRelease_keeps, register_keeps, deregister_keeps, debugAcquire_keeps, debugRelease_keeps,
    sharedInfoAcquire_keeps, sharedInfoRelease_keeps, h, hs, hi]

/-- What `EvtchnAbiAcquire` comes to: the FIFO ABI, or the two-level ABI if the FIFO ABI is not to be used or has
failed. -/
theorem evtchnAbiAcquire_some {w w' : World} {ok : Bool} (hrun : evtchnAbiAcquire env w = some (ok, w')) :
    (env.UseEvtchnFifoAbi = true ∧ ∃ f, evtchnFifoAcquire env w.fifo = some (true, f) ∧ ok = true ∧
        w' = worldFifo.set f (setAbi (some .fifo) w)) ∨
      ∃ f l, (env.UseEvtchnFifoAbi = true ∧ evtchnFifoAcquire env w.fifo = some (false, f) ∨ f = w.fifo) ∧
        evtchnTwoLevelAcquire env w.ledger = some (ok, l) ∧
        w' = worldFifo.set f (worldLedger.set l (setAbi (some .twoLevel) w)) := by
  rw [evtchnAbiAcquire] at hrun
  split_ifs at hrun with hUse
  · cases hstep : worldFifo.step (evtchnFifoAcquire env) (setAbi (some .fifo) w) with
    | none => simp [hstep] at hrun
    | some outcome =>
      obtain ⟨⟨ok', f⟩, hf, rfl⟩ := Option.map_eq_some_iff.1 hstep
      cases ok' with
      | false =>
        simp only [hstep] at hrun
        obtain ⟨⟨ok', l⟩, hl, heq⟩ := Option.map_eq_some_iff.1 hrun
        obtain ⟨rfl, rfl⟩ := Prod.mk.inj heq
        exact .inr ⟨f, l, .inl ⟨hUse, hf⟩, hl, rfl⟩
      | true =>
        simp only [hstep, Option.some.injEq, Prod.mk.injEq] at hrun
        exact .inl ⟨hUse, f, hf, hrun.1.symm, hrun.2.symm⟩
  · obtain ⟨⟨ok', l⟩, hl, heq⟩ := Option.map_eq_some_iff.1 hrun
    obtain ⟨rfl, rfl⟩ := Prod.mk.inj heq
    exact .inr ⟨w.fifo, l, .inr rfl, hl, rfl⟩

/-- What `EvtchnAbiRelease` comes to. -/
theorem evtchnAbiRelease_some {w w' : World} (hrun : evtchnAbiRelease w = some w') :
    (w.evtchn.EvtchnAbi = some .fifo ∧ ∃ f, evtchnFifoRelease w.fifo = some f ∧
        w' = setAbi none (worldFifo.set f w)) ∨
      w.evtchn.EvtchnAbi = some .twoLevel ∧ ∃ l, evtchnTwoLevelRelease w.ledger = some l ∧
        w' = setAbi none (worldLedger.set l w) := by
  rw [evtchnAbiRelease] at hrun
  split at hrun
  · obtain ⟨v, hv, rfl⟩ := Option.map_eq_some_iff.1 hrun
    obtain ⟨f, hf, rfl⟩ := Option.map_eq_some_iff.1 hv
    exact .inl ⟨‹_›, f, hf, rfl⟩
  · obtain ⟨v, hv, rfl⟩ := Option.map_eq_some_iff.1 hrun
    obtain ⟨l, hl, rfl⟩ := Option.map_eq_some_iff.1 hv
    exact .inr ⟨‹_›, l, hl, rfl⟩
  · cases hrun

theorem evtchnAbiAcquire_keeps (env : Env) (hk : k.upper = true) :
    StepKeeps (worldCountOf k) (evtchnAbiAcquire env) := by
  intro w ok w' hrun
  rcases evtchnAbiAcquire_some hrun with ⟨-, f, -, -, rfl⟩ | ⟨f, l, -, hl, rfl⟩
  · rfl
  · exact evtchnTwoLevelAcquire_keeps env (ne_of_upper hk rfl) (ne_of_upper hk rfl) (ne_of_upper hk rfl)
      (ne_of_upper hk rfl) w.ledger ok l hl

theorem evtchnAbiRelease_keeps (hk : k.upper = true) : UndoKeeps (worldCountOf k) evtchnAbiRelease := by
  intro w w' hrun
  rcases evtchnAbiRelease_some hrun with ⟨-, f, -, rfl⟩ | ⟨-, l, hl, rfl⟩
  · rfl
  · exact evtchnTwoLevelRelease_keeps (ne_of_upper hk rfl) (ne_of_upper hk rfl) (ne_of_upper hk rfl)
      (ne_of_upper hk rfl) w.ledger l hl

theorem allocateInterrupts_keeps (env : Env)
    (hview : ∀ interrupts w, view (setInterrupts interrupts w) = view w) :
    StepKeeps view (allocateInterrupts env) := by
  intro w ok w' hrun
  obtain ⟨-, rfl⟩ := Prod.mk.inj (Option.some.inj hrun)
  exact hview _ w

theorem freeInterrupts_keeps (env : Env) (hview : ∀ interrupts w, view (setInterrupts interrupts w) = view w) :
    UndoKeeps view (freeInterrupts env) := by
  intro w w' hrun
  rw [freeInterrupts] at hrun
  split_ifs at hrun
  obtain rfl := Option.some.inj hrun
  exact hview _ w

theorem allocateInterrupt_keeps (env : Env)
    (hview : ∀ interrupt (w : World),
      view { w with evtchn := { w.evtchn with Interrupt := interrupt } } = view w) :
    StepKeeps view (allocateInterrupt env) := by
  intro w ok w' hrun
  rw [allocateInterrupt] at hrun
  split_ifs at hrun
  · obtain ⟨-, rfl⟩ := Prod.mk.inj (Option.some.inj hrun)
    rfl
  · obtain ⟨-, rfl⟩ := Prod.mk.inj (Option.some.inj hrun)
    exact hview true w

theorem freeInterrupt_keeps
    (hview : ∀ interrupt (w : World),
      view { w with evtchn := { w.evtchn with Interrupt := interrupt } } = view w) :
    UndoKeeps view freeInterrupt := by
  intro w w' hrun
  rw [freeInterrupt] at hrun
  split_ifs at hrun
  obtain rfl := Option.some.inj hrun
  exact hview false w

theorem evtchnInterruptEnable_keeps (env : Env) : StepKeeps view (evtchnInterruptEnable env) := by
  intro w ok w' hrun
  rw [evtchnInterruptEnable] at hrun
  split_ifs at hrun
  obtain ⟨-, rfl⟩ := Prod.mk.inj (Option.some.inj hrun)
  rfl

theorem ledger_keeps {stage : Stage Ledger} (h : StageKeeps (countOf k) stage) :
    StageKeeps (worldCountOf k) (worldLedger.stage stage) := worldLedger.stage_keeps h

/-- The steps of `EvtchnAcquire` keep the counts of the interfaces above. -/
theorem evtchnSteps_keeps (env : Env) (hk : k.upper = true) :
    StepKeeps (worldCountOf k) (attempt ((evtchnCallbacks env).map worldLedger.stage ++
      ⟨evtchnAbiAcquire env, [evtchnAbiRelease]⟩ :: evtchnInterrupts env)) := by
  refine attempt_keeps ?_
  simp only [evtchnInterrupts, List.mem_append, List.mem_cons, List.not_mem_nil, or_false, List.mem_map]
  rintro stage (⟨stage, hstage, rfl⟩ | rfl | rfl | rfl | rfl | rfl)
  · exact ledger_keeps (evtchnCallbacks_keeps env hk stage hstage)
  · exact ⟨evtchnAbiAcquire_keeps env hk, List.forall_mem_singleton.2 (evtchnAbiRelease_keeps hk)⟩
  · exact ledger_keeps ⟨claim_keeps k _ _, List.forall_mem_singleton.2 (giveBack_keeps k _)⟩
  · exact ⟨allocateInterrupts_keeps env fun _ _ => rfl,
      List.forall_mem_singleton.2 (freeInterrupts_keeps env fun _ _ => rfl)⟩
  · exact ⟨allocateInterrupt_keeps env fun _ _ => rfl, List.forall_mem_nil _⟩
  · exact ⟨evtchnInterruptEnable_keeps env, List.forall_mem_nil _⟩

theorem evtchnAcquire_keeps (env : Env) (hk : k.upper = true) (hne : k ≠ .evtchn) :
    StepKeeps (worldCountOf k) (evtchnAcquire env) :=
  (worldReferences .evtchn).acquire_keeps (fun _ _ => refer_References_of_ne hne) (evtchnSteps_keeps env hk)

theorem evtchnRelease_keeps (env : Env) (hk : k.upper = true) (hne : k ≠ .evtchn) :
    UndoKeeps (worldCountOf k) (evtchnRelease env) := by
  have ledger {undo : Undo Ledger} (h : UndoKeeps (countOf k) undo) :
      UndoKeeps (worldCountOf k) (worldLedger.undo undo) := worldLedger.undo_keeps h
  have h := ne_of_upper (j := .debug) hk rfl
  have hs := ne_of_upper (j := .suspend) hk rfl
  refine (worldReferences .evtchn).release_keeps (fun _ => refer_References_of_ne hne) ?_
  simp only [List.mem_cons, List.not_mem_nil, or_false, forall_eq_or_imp, forall_eq]
  exact ⟨freeInterrupts_keeps env fun _ _ => rfl, ledger (giveBack_keeps _ _),
    freeInterrupt_keeps fun _ _ => rfl, ledger (bugOnOutstanding_keeps _ _), evtchnAbiRelease_keeps hk,
    ledger (sharedInfoRelease_keeps h hs (ne_of_upper hk rfl)), ledger (deregister_keeps _ _ _),
    ledger (debugRelease_keeps h), ledger (deregister_keeps _ _ _), ledger (deregister_keeps _ _ _),
    ledger (reportingRelease_keeps h hs)⟩

end XenBus.Interfaces
