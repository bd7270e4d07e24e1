import XenBus.Interfaces.Clients

/-!
# Where a call cannot be taken back

When the FIFO ABI slips, it is released without having been acquired, and its count is below zero. When the
interrupt of a processor is missing, the loop that frees the interrupts faults. Both are then in every call that
comes to `EvtchnAcquire`. `EvtchnTwoLevelAcquire` releases the shared info that it could not acquire.
-/

namespace XenBus.Interfaces

open Unwind

variable {env : Env} {w v : World} {f : FifoContext} {js : List Interface} {i k : Interface} {l : Ledger}
  {reference : ℤ} {cpu : ℕ}

/-! ## The two-level ABI -/

/-- Without a reference to the shared info, its release does not leave a count of zero. -/
theorem sharedInfoRelease_idle {l' : Ledger} (h0 : l.References .sharedInfo = 0)
    (hrun : sharedInfoRelease l = some l') : l'.References .sharedInfo = -1 := by
  have hcount : (references .sharedInfo).count l = 0 := h0
  have hbody : ∀ undo ∈ [giveBack (.array .sharedInfo), deregister .debug .sharedInfo, debugRelease,
      deregister .early .sharedInfo, suspendRelease, giveBack (.mapping .sharedInfo),
      giveBack (.hole .sharedInfo)], UndoKeeps (countOf .sharedInfo) undo := by
    simp [giveBack_keeps, deregister_keeps, debugRelease_keeps, suspendRelease, reportingRelease_keeps]
  rcases (references .sharedInfo).release_some.1 hrun with ⟨hmore, -⟩ | ⟨-, hlast⟩
  · omega
  · have hkept : l'.References .sharedInfo = (l.refer .sharedInfo (-1)).References .sharedInfo :=
      sequence_keeps hbody _ _ hlast
    rw [hkept, refer_References_self, h0]
    rfl

/-- **Where the shared info cannot be acquired, neither can `EvtchnTwoLevelAcquire` be unwound.** -/
theorem evtchnTwoLevelAcquire_spoils (hl : Kept js l) (h0 : l.References .twoLevel = 0)
    (hnot : ¬ sharedInfoOk env l) :
    ¬ AllOrNothing (evtchnTwoLevelAcquire env) evtchnTwoLevelRelease l := by
  obtain ⟨hidle, hnot'⟩ := Classical.not_imp.1 hnot
  have hrefer : ¬ sharedInfoOk env (l.refer .twoLevel 1) := by
    rwa [sharedInfoOk_congr (refer_References_of_ne (by decide)) (reportingOk_refer (by decide) (by decide))
      (debugOk_refer (by decide))]
  have hfails := (sharedInfoAcquire_exact env (.twoLevel :: js)).fails _ (hl.refer .twoLevel) hrefer
  have hattempt : attempt [⟨check false, [sharedInfoRelease]⟩, ⟨sharedInfoAcquire env, []⟩] (l.refer .twoLevel 1) =
      (sharedInfoRelease (l.refer .twoLevel 1)).map (Prod.mk false) := by
    rw [attempt_cons_of_passes rfl, attempt_single]
    simp only [hfails, sequence_single]
  rintro ⟨ok, l', hstep, hfalse, -⟩
  cases ok with
  | true =>
    rcases (references .twoLevel).acquire_true.1 hstep with ⟨hne, -⟩ | ⟨-, hpasses⟩
    · exact hne h0
    · obtain ⟨v, -, hv⟩ := Option.map_eq_some_iff.1 (hattempt.symm.trans hpasses)
      cases hv
  | false =>
    obtain ⟨-, v, hrun, hdrop⟩ := (references .twoLevel).acquire_false.1 hstep
    obtain ⟨v', hrelease, hv⟩ := Option.map_eq_some_iff.1 (hattempt.symm.trans hrun)
    obtain rfl : v' = v := (Prod.mk.inj hv).2
    have hcount := sharedInfoRelease_idle ((refer_References_of_ne (by decide)).trans hidle) hrelease
    rw [Counter.drop] at hdrop
    split at hdrop
    · have hlast : l'.References .sharedInfo = v'.References .sharedInfo := by
        rw [← Option.some.inj hdrop]
        exact refer_References_of_ne (by decide)
      rw [hfalse rfl, hidle, hcount] at hlast
      cases hlast
    · cases hdrop

/-! ## The FIFO ABI -/

/-- **Where the FIFO ABI slips, its release leaves a count below zero.** -/
theorem evtchnFifoAcquire_spoils (hkept : FifoKept f) (h0 : f.References = 0) (hslips : fifoSlips env) :
    Spoils id FifoContext.References 0 (evtchnFifoAcquire env) evtchnFifoRelease f where
  failed := by
    intro f' hrun
    rw [evtchnFifoAcquire_slips hkept h0 hslips] at hrun
    cases hrun
  undone := by
    rintro f' v v' hrun (rfl : v = f') hundo
    obtain rfl : f = v := by simpa [evtchnFifoAcquire_slips hkept h0 hslips] using hrun
    have hcount : fifoReferences.count f = 0 := h0
    rcases fifoReferences.release_some.1 hundo with ⟨hmore, -⟩ | ⟨-, hlast⟩
    · omega
    · have hfree : fifoFree hvmMaxVcpus (fifoReferences.add (-1) f) = some (fifoReferences.add (-1) f) :=
        fifoFree_none _ fun cpu _ => hkept.idle h0 cpu
      rw [sequence_single, hfree, Option.some.injEq] at hlast
      rw [← hlast]
      exact ne_of_eq_of_ne (congrArg (· + -1) h0) (by decide)

/-! ## The event channels -/

/-- What `EvtchnAcquire` goes by once the ABI has been acquired. -/
def interruptView (w : World) : FifoContext × Option Abi × (ℕ → Bool) :=
  (w.fifo, w.evtchn.EvtchnAbi, w.evtchn.Processor)

/-- The steps of `EvtchnAcquire` from the ABI on. -/
def abiStages (env : Env) : List (Stage World) :=
  ⟨evtchnAbiAcquire env, [evtchnAbiRelease]⟩ :: evtchnInterrupts env

/-- The releases of `EvtchnRelease` up to that of the ABI. -/
def abiUndos (env : Env) : List (Undo World) :=
  [freeInterrupts env, worldLedger.undo (giveBack (.array .evtchn)), freeInterrupt,
    worldLedger.undo (bugOnOutstanding .evtchn)] ++ [evtchnAbiRelease]

/-- What the ABI goes by. -/
def abiView (w : World) : FifoContext × Option Abi := (w.fifo, w.evtchn.EvtchnAbi)

theorem evtchnInterrupts_keeps (env : Env) : StepKeeps abiView (attempt (evtchnInterrupts env)) := by
  refine attempt_keeps ?_
  simp only [evtchnInterrupts, List.mem_cons, List.not_mem_nil, or_false]
  rintro stage (rfl | rfl | rfl | rfl)
  · exact worldLedger.stage_keeps_of_apart _ fun _ _ => rfl
  · exact ⟨allocateInterrupts_keeps env fun _ _ => rfl,
      List.forall_mem_singleton.2 (freeInterrupts_keeps env fun _ _ => rfl)⟩
  · exact ⟨allocateInterrupt_keeps env fun _ _ => rfl, List.forall_mem_nil _⟩
  · exact ⟨evtchnInterruptEnable_keeps env, List.forall_mem_nil _⟩

/-- Where the FIFO ABI slips, so does the ABI. -/
theorem evtchnAbiAcquire_spoils (hUse : env.UseEvtchnFifoAbi = true) (hkept : FifoKept w.fifo)
    (h0 : w.fifo.References = 0) (hslips : fifoSlips env) :
    Spoils abiView (fun w => w.fifo.References) 0 (evtchnAbiAcquire env) (sequence [evtchnAbiRelease]) w := by
  have hrun : evtchnAbiAcquire env w = some (true, setAbi (some .fifo) w) := by
    have hfifo : worldFifo.step (evtchnFifoAcquire env) (setAbi (some .fifo) w) =
        some (true, setAbi (some .fifo) w) :=
      congrArg (Option.map _) (evtchnFifoAcquire_slips hkept h0 hslips)
    rw [evtchnAbiAcquire, if_pos hUse, hfifo]
  constructor
  · intro w' hfails
    rw [hrun] at hfails
    cases hfails
  · intro w' v v' hpasses hv hundo
    obtain rfl : setAbi (some .fifo) w = w' := by simpa [hrun] using hpasses
    obtain ⟨hfifo, habi⟩ := Prod.mk.inj hv
    have habi' : v.evtchn.EvtchnAbi = some .fifo := habi
    rw [sequence_single, evtchnAbiRelease, habi'] at hundo
    obtain ⟨u, hu, rfl⟩ := Option.map_eq_some_iff.1 hundo
    obtain ⟨g, hg, rfl⟩ := Option.map_eq_some_iff.1 hu
    have hrelease : evtchnFifoRelease w.fifo = some g := hfifo ▸ hg
    exact (evtchnFifoAcquire_spoils hkept h0 hslips).undone w.fifo w.fifo g
      (evtchnFifoAcquire_slips hkept h0 hslips) rfl hrelease

/-- Without the interrupt of an enabled processor, the loop that frees the interrupts faults. -/
theorem allocateInterrupts_spoils (henabled : evtchnIsProcessorEnabled env w cpu = true)
    (hmissing : env.fails (.processorInterrupt cpu) = true) :
    Spoils interruptView (fun _ => (0 : ℤ)) 0 (allocateInterrupts env) (sequence [freeInterrupts env]) w where
  failed := by
    intro w' hrun
    cases hrun
  undone := by
    intro w' v v' hrun hv hundo
    obtain ⟨-, rfl⟩ := Prod.mk.inj (Option.some.inj hrun)
    obtain ⟨hfifo, hrest⟩ := Prod.mk.inj hv
    obtain ⟨habi, hProcessor⟩ := Prod.mk.inj hrest
    have hsame : evtchnIsProcessorEnabled env v = evtchnIsProcessorEnabled env w :=
      evtchnIsProcessorEnabled_congr hfifo habi
    have habsent : v.evtchn.Processor cpu = false := by
      rw [hProcessor]
      simp [setInterrupts, henabled, hmissing]
    rw [sequence_single, freeInterrupts] at hundo
    split_ifs at hundo with hpresent
    rw [interruptsPresent_iff.1 hpresent cpu (hsame ▸ henabled)] at habsent
    cases habsent

/-- The steps from the array on then neither fail nor can be taken back. -/
theorem evtchnInterrupts_spoils (hallocate : env.fails (.allocate .evtchn) = false)
    (henabled : evtchnIsProcessorEnabled env w cpu = true)
    (hmissing : env.fails (.processorInterrupt cpu) = true) :
    Spoils interruptView (fun _ => (0 : ℤ)) 0 (attempt (evtchnInterrupts env))
      (sequence [freeInterrupts env, worldLedger.undo (giveBack (.array .evtchn)), freeInterrupt,
        worldLedger.undo (bugOnOutstanding .evtchn)]) w := by
  have hsame : evtchnIsProcessorEnabled env (worldLedger.set (w.ledger.take (.array .evtchn)) w) =
      evtchnIsProcessorEnabled env w := evtchnIsProcessorEnabled_congr rfl rfl
  have hrest : StepKeeps interruptView
      (attempt [⟨allocateInterrupt env, []⟩, ⟨evtchnInterruptEnable env, []⟩]) := by
    refine attempt_keeps (List.forall_mem_cons.2
      ⟨⟨?_, List.forall_mem_nil _⟩, List.forall_mem_singleton.2 ⟨?_, ?_⟩⟩)
    · exact allocateInterrupt_keeps env fun _ _ => rfl
    · exact evtchnInterruptEnable_keeps env
    · exact List.forall_mem_nil _
  have hloop := (allocateInterrupts_spoils (w := worldLedger.set (w.ledger.take (.array .evtchn)) w)
    (hsame ▸ henabled) hmissing).head hrest (List.forall_mem_nil _)
  have harray : worldLedger.step (claim (env.fails (.allocate .evtchn)) (.array .evtchn)) w =
      some (true, worldLedger.set (w.ledger.take (.array .evtchn)) w) := by
    rw [hallocate]
    rfl
  have hsteps : Spoils interruptView (fun _ => (0 : ℤ)) 0 (attempt (evtchnInterrupts env))
      (sequence [freeInterrupts env, worldLedger.undo (giveBack (.array .evtchn))]) w :=
    hloop.cons harray fun _ _ _ _ _ => rfl
  exact hsteps.append fun _ _ _ _ _ => rfl

/-- The state in which `EvtchnAcquire` comes to the ABI. -/
def beforeAbi (w : World) : World := worldLedger.set (upEvtchnCallbacks (w.ledger.refer .evtchn 1)) w

/-- What the interfaces above the event channels leave as it is. -/
def channelView (w : World) : FifoContext × EvtchnContext × ℤ := (w.fifo, w.evtchn, w.ledger.References .evtchn)

/-- What spoils the steps from the ABI on spoils `EvtchnAcquire`. -/
theorem Spoils.evtchnAcquire {seen : World → ℤ} {before : ℤ} (hl : Kept js w.ledger)
    (h0 : w.ledger.References .evtchn = 0) (hok : evtchnCallbacksOk env w.ledger)
    (h : Spoils interruptView seen before (attempt (abiStages env)) (sequence (abiUndos env)) (beforeAbi w))
    (hseen : ∀ l w, seen (worldLedger.set l w) = seen w) :
    Spoils channelView seen before (evtchnAcquire env) (evtchnRelease env) w := by
  have hpasses : worldLedger.step (attempt (evtchnCallbacks env)) ((worldReferences .evtchn).add 1 w) =
      some (true, beforeAbi w) := by
    have hledger := (evtchnCallbacks_exact env js).passes (w.ledger.refer .evtchn 1)
      ⟨hl.refer .evtchn, outstanding_refer.trans (hl.idle _ h0)⟩ ((evtchnCallbacksOk_refer rfl).2 hok)
    exact congrArg (Option.map _) hledger
  have hlabel : ∀ undo ∈ evtchnCallbacksUndo.map worldLedger.undo, UndoKeeps seen undo := by
    intro undo hundo
    obtain ⟨undo, -, rfl⟩ := List.mem_map.1 hundo
    exact worldLedger.undo_keeps_of_apart undo hseen
  have hsteps : Spoils interruptView seen before
      (attempt ((evtchnCallbacks env).map worldLedger.stage ++ abiStages env))
      (sequence (abiUndos env ++ evtchnCallbacksUndo.map worldLedger.undo))
      ((worldReferences .evtchn).add 1 w) := by
    rw [abiStages, attempt_evtchnStages]
    exact h.cons hpasses hlabel
  have hcount : ∀ w', attempt ((evtchnCallbacks env).map worldLedger.stage ++ abiStages env)
      ((worldReferences .evtchn).add 1 w) = some (true, w') → (worldReferences .evtchn).count w' = 1 := by
    intro w' hrun
    have hkept := evtchnSteps_keeps env (k := .evtchn) rfl _ _ _ hrun
    exact hkept.trans (refer_References_self.trans (congrArg (· + 1) h0))
  have hview : ∀ v w : World, channelView v = channelView w → interruptView v = interruptView w ∧
      (worldReferences .evtchn).count v = (worldReferences .evtchn).count w := by
    intro v w hsame
    obtain ⟨hfifo, hrest⟩ := Prod.mk.inj hsame
    obtain ⟨hevtchn, hReferences⟩ := Prod.mk.inj hrest
    rw [interruptView, interruptView, hfifo, hevtchn]
    exact ⟨rfl, hReferences⟩
  exact (worldReferences .evtchn).spoils hsteps h0 hcount hview (fun _ => rfl) fun w => hseen _ w

/-- **Where `EvtchnAcquire` is not whole**, it can neither be unwound nor taken back. -/
theorem evtchnAcquire_spoils (hw : EvtchnKept js w) (hnot : ¬ evtchnWhole env w) :
    ∃ seen : World → ℤ, (∀ r w, seen (worldLower.set r w) = seen w) ∧
      Spoils channelView seen (seen w) (evtchnAcquire env) (evtchnRelease env) w := by
  obtain ⟨h0, hnot⟩ := Classical.not_imp.1 hnot
  obtain ⟨hok, hnot⟩ := Classical.not_imp.1 hnot
  have hidle := hw.idle h0
  have hcallbacks : Kept (.sharedInfo :: .evtchn :: js) (beforeAbi w).ledger :=
    ((evtchnCallbacks_exact env js).after (w.ledger.refer .evtchn 1)
      ⟨hw.ledger.refer .evtchn, outstanding_refer.trans (hw.ledger.idle _ h0)⟩
      ((evtchnCallbacksOk_refer rfl).2 hok)).1
  by_cases hsteady : Steady env w.fifo
  · -- the interrupt of a processor is missing
    obtain ⟨hallocate, hall⟩ := Classical.not_imp.1 fun h => hnot ⟨hsteady, h⟩
    obtain ⟨cpu, hcpu⟩ := not_forall.1 hall
    obtain ⟨henabled, hmissing⟩ := Classical.not_imp.1 hcpu
    rw [Bool.not_eq_false] at hmissing
    refine ⟨fun _ => 0, fun _ _ => rfl, Spoils.evtchnAcquire hw.ledger h0 hok ?_ fun _ _ => rfl⟩
    have hpasses := (evtchnAbiAcquire_exact env _ List.mem_cons_self).passes (beforeAbi w)
      ⟨⟨hcallbacks, hw.fifo⟩, hidle, hsteady⟩ trivial
    have henabled' : evtchnIsProcessorEnabled env (upAbi env (beforeAbi w)) cpu = true :=
      (evtchnIsProcessorEnabled_upAbi env (beforeAbi w) cpu).trans henabled
    exact (evtchnInterrupts_spoils hallocate henabled' hmissing).cons hpasses fun _ _ _ _ _ => rfl
  · -- the FIFO ABI slips
    obtain ⟨hUse, hsteady⟩ := Classical.not_imp.1 hsteady
    obtain ⟨hf0, hslips⟩ := Classical.not_imp.1 hsteady
    refine ⟨fun w => w.fifo.References, fun _ _ => rfl, Spoils.evtchnAcquire hw.ledger h0 hok ?_ fun _ _ => rfl⟩
    have habi := evtchnAbiAcquire_spoils (w := beforeAbi w) hUse hw.fifo hf0 (not_not.1 hslips)
    simp only [hf0]
    refine (habi.head (evtchnInterrupts_keeps env) ?_).mono fun v w hsame => ?_
    · simp only [List.mem_cons, List.not_mem_nil, or_false, forall_eq_or_imp, forall_eq]
      exact ⟨freeInterrupts_keeps env fun _ _ => rfl, worldLedger.undo_keeps_of_apart _ fun _ _ => rfl,
        freeInterrupt_keeps fun _ _ => rfl, worldLedger.undo_keeps_of_apart _ fun _ _ => rfl⟩
    · obtain ⟨hfifo, hrest⟩ := Prod.mk.inj hsame
      obtain ⟨habi, -⟩ := Prod.mk.inj hrest
      rw [abiView, abiView, hfifo, habi]

/-! ## Store and console -/

/-- What the callbacks of an interface above the event channels keep. -/
theorem channelView_keeps {stages : List (Stage Ledger)}
    (h : ∀ stage ∈ stages, StageKeeps (countOf .evtchn) stage) :
    ∀ stage ∈ stages.map worldLedger.stage, StageKeeps channelView stage := by
  intro stage hstage
  obtain ⟨stage, hmem, rfl⟩ := List.mem_map.1 hstage
  exact (worldLedger.stage_keeps_of_apart stage fun _ _ => rfl).prodMk
    ((worldLedger.stage_keeps_of_apart stage fun _ _ => rfl).prodMk (worldLedger.stage_keeps (h stage hmem)))

/-- The state in which `StoreAcquire` or `ConsoleAcquire` comes to `EvtchnAcquire`. -/
def beforeEvtchn (i : Interface) (w : World) : World :=
  worldLower.set (upRing i ((worldReferences i).add 1 w).toLower) ((worldReferences i).add 1 w)

theorem beforeEvtchn_References (i : Interface) (hne : i ≠ .evtchn) (w : World) :
    (beforeEvtchn i w).ledger.References .evtchn = w.ledger.References .evtchn :=
  (upRing_References (k := .evtchn) rfl ((worldReferences i).add 1 w).toLower).trans
    (refer_References_of_ne hne.symm)

/-- The steps to the ring page come to it. -/
theorem ringPage_passes (hi : i.upper = true) (hne : i ≠ .evtchn) (hreference : reference < gnttabEntryPerFrame)
    (hw : Consistent [] w) (hok : gnttabOk env w.ledger) (hmap : env.fails (.mapIoSpace i) = false) :
    worldLower.step (attempt (ringPage env i reference)) ((worldReferences i).add 1 w) =
        some (true, beforeEvtchn i w) ∧
      EvtchnKept [.gnttab, i] (beforeEvtchn i w) ∧ (evtchnWhole env (beforeEvtchn i w) ↔ evtchnWhole env w) := by
  have hw' := hw.refer hi hne
  have hkept : GnttabKept [i] ((worldReferences i).add 1 w).toLower := ⟨hw'.ledger, hw'.gnttab⟩
  have hok' : gnttabOk env ((worldReferences i).add 1 w).ledger := (gnttabOk_refer hi).2 hok
  have hring := (ringPage_exact env i [i] hreference).part worldLower (fun _ => True) fun _ _ h => h
  have hcount := beforeEvtchn_References i hne w
  have hafter := hring.after ((worldReferences i).add 1 w) ⟨⟨hkept, fun _ => hw'.frames⟩, trivial⟩
    ⟨hok', trivial, hmap⟩
  refine ⟨hring.passes _ ⟨⟨hkept, fun _ => hw'.frames⟩, trivial⟩ ⟨hok', trivial, hmap⟩,
    ⟨hafter.1, hw.fifo, fun h0 => hw.idle (hcount.symm.trans h0)⟩, ?_⟩
  have hcallbacks : evtchnCallbacksOk env (beforeEvtchn i w).ledger ↔ evtchnCallbacksOk env w.ledger :=
    (evtchnCallbacksOk_upRing hkept hok').trans (evtchnCallbacksOk_refer hi)
  rw [evtchnWhole, evtchnWhole, hcount, hcallbacks]
  exact Iff.rfl

/-- The steps keep the count of the interface itself. -/
theorem clientSteps_keeps {callbacks : List (Stage Ledger)} (env : Env) (hi : i.upper = true) (hne : i ≠ .evtchn)
    (hcallbacks : ∀ stage ∈ callbacks, StageKeeps (countOf i) stage) :
    StepKeeps (worldCountOf i) (attempt (clientSteps env i reference callbacks)) := by
  have lower {stage : Stage Lower} (h : StageKeeps (lowerCountOf i) stage) :
      StageKeeps (worldCountOf i) (worldLower.stage stage) := worldLower.stage_keeps h
  have ledger {stage : Stage Ledger} (h : StageKeeps (countOf i) stage) :
      StageKeeps (lowerCountOf i) (lowerLedger.stage stage) := lowerLedger.stage_keeps h
  refine attempt_keeps ?_
  simp only [clientSteps, ringPage, List.map_cons, List.map_nil, List.cons_append, List.nil_append, List.mem_cons,
    List.mem_map]
  rintro stage (rfl | rfl | rfl | rfl | ⟨stage, hstage, rfl⟩)
  · exact lower ⟨gnttabAcquire_keeps env hi, List.forall_mem_singleton.2 (gnttabRelease_keeps hi)⟩
  · exact lower ⟨fun w => check_keeps _ _ w, List.forall_mem_nil _⟩
  · exact lower (ledger ⟨claim_keeps i _ _, List.forall_mem_singleton.2 (giveBack_keeps i _)⟩)
  · exact ⟨evtchnAcquire_keeps env hi hne, List.forall_mem_singleton.2 (evtchnRelease_keeps env hi hne)⟩
  · exact ledger_keeps (hcallbacks stage hstage)

/-- **Where the `EvtchnAcquire` that it comes to is not whole**, neither is the call. -/
theorem clientAcquire_spoils {callbacks : List (Stage Ledger)} {undos : List (Undo Ledger)} (hi : i.upper = true)
    (hne : i ≠ .evtchn) (hreference : reference < gnttabEntryPerFrame)
    (hcallbacks : ∀ k, k.upper = true → ∀ stage ∈ callbacks, StageKeeps (countOf k) stage)
    (hundos : ∀ undo ∈ undos, UndoKeeps (countOf .evtchn) undo)
    (hw : Consistent [] w) (hnot : ¬ clientWhole env i w) :
    ¬ AllOrNothing ((worldReferences i).acquire (clientSteps env i reference callbacks))
      ((worldReferences i).release (undos.map worldLedger.undo ++ clientUndo env i)) w := by
  obtain ⟨h0, hnot⟩ := Classical.not_imp.1 hnot
  obtain ⟨hok, hnot⟩ := Classical.not_imp.1 hnot
  obtain ⟨hmap, hnot⟩ := Classical.not_imp.1 hnot
  obtain ⟨hpasses, hkept, hwhole⟩ := ringPage_passes hi hne hreference hw hok hmap
  obtain ⟨seen, hseen, hspoils⟩ := evtchnAcquire_spoils hkept (mt hwhole.1 hnot)
  have hbefore : seen (beforeEvtchn i w) = seen w := (hseen _ _).trans (hseen _ _)
  rw [hbefore, ← sequence_single (evtchnRelease env)] at hspoils
  have hrest : StepKeeps channelView (attempt (callbacks.map worldLedger.stage)) :=
    attempt_keeps (channelView_keeps (hcallbacks .evtchn rfl))
  have hback : ∀ undo ∈ undos.map worldLedger.undo, UndoKeeps channelView undo := by
    intro undo hundo
    obtain ⟨undo, hmem, rfl⟩ := List.mem_map.1 hundo
    exact (worldLedger.undo_keeps_of_apart undo fun _ _ => rfl).prodMk
      ((worldLedger.undo_keeps_of_apart undo fun _ _ => rfl).prodMk (worldLedger.undo_keeps (hundos undo hmem)))
  have hlabel : ∀ undo ∈ [worldLower.undo (lowerLedger.undo (giveBack (.ioSpace i))),
      worldLower.undo gnttabRelease], UndoKeeps seen undo :=
    List.forall_mem_cons.2 ⟨worldLower.undo_keeps_of_apart _ hseen,
      List.forall_mem_singleton.2 (worldLower.undo_keeps_of_apart _ hseen)⟩
  have hsteps : Spoils channelView seen (seen w) (attempt (clientSteps env i reference callbacks))
      (sequence (undos.map worldLedger.undo ++ clientUndo env i)) ((worldReferences i).add 1 w) := by
    have hundo : undos.map worldLedger.undo ++ clientUndo env i =
        undos.map worldLedger.undo ++ [evtchnRelease env] ++
          [worldLower.undo (lowerLedger.undo (giveBack (.ioSpace i))), worldLower.undo gnttabRelease] := by
      rw [List.append_assoc]
      rfl
    rw [attempt_clientSteps, hundo]
    exact (hspoils.head hrest hback).cons hpasses hlabel
  have hcount : ∀ w', attempt (clientSteps env i reference callbacks) ((worldReferences i).add 1 w) =
      some (true, w') → (worldReferences i).count w' = 1 := by
    intro w' hrun
    have hcounted := clientSteps_keeps env hi hne (hcallbacks i hi) _ _ _ hrun
    exact hcounted.trans (refer_References_self.trans (congrArg (· + 1) h0))
  have hview : ∀ w, channelView ((worldReferences i).add (-1) w) = channelView w := fun w =>
    congrArg (fun n => (w.fifo, w.evtchn, n)) (refer_References_of_ne hne.symm)
  have hspoiled : Spoils id seen (seen w) _ _ w := (worldReferences i).spoils hsteps h0 hcount
    (fun v w (hsame : v = w) => hsame ▸ ⟨rfl, rfl⟩) hview fun w => hseen _ w
  exact hspoiled.not_allOrNothing

/-- An opened channel is not counted. -/
theorem open_keeps (k : Interface) (fails : Bool) :
    StepKeeps (countOf k) (fun l => if fails then some (false, l) else evtchnOpen l) := by
  intro l ok l' hrun
  cases fails with
  | true => exact congrArg (countOf k) (Prod.mk.inj (Option.some.inj hrun)).2.symm
  | false =>
    obtain ⟨-, rfl⟩ := Prod.mk.inj (Option.some.inj hrun)
    rfl

theorem evtchnOpen_keeps (k : Interface) : StepKeeps (countOf k) evtchnOpen := open_keeps k false

theorem storeAcquire_spoils (hw : Consistent [] w) (hnot : ¬ clientWhole env .store w) :
    ¬ AllOrNothing (storeAcquire env) (storeRelease env) w := by
  have hundos : ∀ undo ∈ bugOnOutstanding .store :: storeCallbacksUndo, UndoKeeps (countOf .evtchn) undo := by
    simp [storeCallbacksUndo, bugOnOutstanding_keeps, deregister_keeps, debugRelease_keeps, suspendRelease,
      reportingRelease_keeps, evtchnClose, destroy_keeps]
  refine clientAcquire_spoils rfl (by decide) (by decide) (fun k hk => ?_) hundos hw hnot
  simp [storeCallbacks, StageKeeps, evtchnOpen_keeps, evtchnClose, destroy_keeps, suspendAcquire, suspendRelease,
    reportingAcquire_keeps, reportingRelease_keeps, register_keeps, deregister_keeps, debugAcquire_keeps,
    debugRelease_keeps, ne_of_upper (j := .debug) hk rfl, ne_of_upper (j := .suspend) hk rfl]

theorem consoleAcquire_spoils (hw : Consistent [] w) (hnot : ¬ clientWhole env .console w) :
    ¬ AllOrNothing (consoleAcquire env) (consoleRelease env) w := by
  have hundos : ∀ undo ∈ bugOnOutstanding .console :: consoleCallbacksUndo, UndoKeeps (countOf .evtchn) undo := by
    simp [consoleCallbacksUndo, bugOnOutstanding_keeps, deregister_keeps, debugRelease_keeps, suspendRelease,
      reportingRelease_keeps, evtchnClose, destroy_keeps]
  refine clientAcquire_spoils rfl (by decide) (by decide) (fun k hk => ?_) hundos hw hnot
  simp [consoleCallbacks, StageKeeps, open_keeps, evtchnClose, destroy_keeps, suspendAcquire, suspendRelease,
    reportingAcquire_keeps, reportingRelease_keeps, register_keeps, deregister_keeps, debugAcquire_keeps,
    debugRelease_keeps, ne_of_upper (j := .debug) hk rfl, ne_of_upper (j := .suspend) hk rfl]

end XenBus.Interfaces
