import XenBus.Interfaces.Counts

/-!
# Event channels

`EvtchnAcquire` acquires the ABI after its callbacks, and then an interrupt for each processor. What
`FdoAllocateInterrupt` returns for a processor is not checked, but asserted wherever the interrupt is used.

`evtchnAcquire_exact` says what the call comes to where the FIFO ABI does not slip and no interrupt of a processor
is missing.
-/

namespace XenBus.Interfaces

open Unwind

variable {env : Env} {w v : World} {f : FifoContext} {js : List Interface} {k : Interface} {l : Ledger} {cpu : ℕ}

/-! ## The ABI -/

instance : Decidable (fifoOk env) :=
  inferInstanceAs (Decidable (∀ cpu < env.ProcessorCount, fifoClaimFails env cpu = none))

/-- The FIFO ABI is asked for, and it is there or can be set up. -/
def usesFifo (env : Env) (f : FifoContext) : Prop :=
  env.UseEvtchnFifoAbi = true ∧ (f.References = 0 → fifoOk env)

instance : Decidable (usesFifo env f) :=
  inferInstanceAs (Decidable (env.UseEvtchnFifoAbi = true ∧ (f.References = 0 → fifoOk env)))

/-- What the event channels hold themselves while there is no reference to them. -/
def closed : EvtchnContext := ⟨none, fun _ => false, false⟩

/-- What `EvtchnAbiAcquire` comes to. -/
def upAbi (env : Env) (w : World) : World :=
  if usesFifo env w.fifo then worldFifo.set (upFifo env w.fifo) (setAbi (some .fifo) w)
  else
    worldLedger.set ((references .twoLevel).up (Ledger.refer .sharedInfo 1) w.ledger) (setAbi (some .twoLevel) w)

/-- The FIFO ABI does not slip when the event channels are acquired. -/
def Steady (env : Env) (f : FifoContext) : Prop :=
  env.UseEvtchnFifoAbi = true → f.References = 0 → ¬ fifoSlips env

/-- With the shared info held, `EvtchnAbiAcquire` succeeds: if the FIFO ABI cannot be set up, with the two-level
ABI. -/
theorem evtchnAbiAcquire_exact (env : Env) (js : List Interface) (hjs : .sharedInfo ∈ js) :
    Exact (fun w => (Kept js w.ledger ∧ FifoKept w.fifo) ∧ w.evtchn = closed ∧ Steady env w.fifo)
      (fun w => Kept js w.ledger) (fun _ => True) (upAbi env) (evtchnAbiAcquire env)
      (sequence [evtchnAbiRelease]) := by
  have hfifo := evtchnFifoAcquire_exact env
  have htwoLevel := evtchnTwoLevelAcquire_exact env hjs
  constructor
  · rintro w ⟨⟨hkept, hf⟩, hclosed, hsteady⟩ -
    rw [upAbi, evtchnAbiAcquire]
    have huse : useTwoLevel env w = some (true, worldLedger.set
        ((references .twoLevel).up (Ledger.refer .sharedInfo 1) w.ledger) (setAbi (some .twoLevel) w)) := by
      have hpasses := htwoLevel.passes w.ledger hkept trivial
      rw [useTwoLevel, Part.step]
      exact congrArg (Option.map _) hpasses
    cases hUse : env.UseEvtchnFifoAbi with
    | false =>
      have hnot : ¬ usesFifo env w.fifo := fun h => by simpa [hUse] using h.1
      rw [if_neg hnot, if_neg (by decide), huse]
    | true =>
      have hP : FifoKept w.fifo ∧ (w.fifo.References = 0 → ¬ fifoSlips env) := ⟨hf, hsteady hUse⟩
      rw [if_pos rfl]
      by_cases hok : w.fifo.References = 0 → fifoOk env
      · rw [if_pos ⟨hUse, hok⟩]
        have hpasses : worldFifo.step (evtchnFifoAcquire env) (setAbi (some .fifo) w) =
            some (true, worldFifo.set (upFifo env w.fifo) (setAbi (some .fifo) w)) :=
          congrArg (Option.map _) (hfifo.passes w.fifo hP hok)
        rw [hpasses]
      · rw [if_neg fun h => hok h.2]
        have hfails : worldFifo.step (evtchnFifoAcquire env) (setAbi (some .fifo) w) =
            some (false, setAbi (some .fifo) w) := congrArg (Option.map _) (hfifo.fails w.fifo hP hok)
        rw [hfails]
        exact huse
  · rintro w ⟨⟨hkept, hf⟩, hclosed, hsteady⟩ -
    rw [upAbi]
    split_ifs
    · exact hkept
    · exact htwoLevel.after w.ledger hkept trivial
  · rintro w ⟨⟨hkept, hf⟩, hclosed, hsteady⟩ -
    rw [sequence_single, upAbi]
    have hback : ∀ abi, setAbi none (setAbi abi w) = w := fun abi => by
      cases w
      obtain rfl := hclosed
      rfl
    split_ifs with huses
    · have hundone := hfifo.undone w.fifo ⟨hf, hsteady huses.1⟩ huses.2
      have hcall : evtchnAbiRelease (worldFifo.set (upFifo env w.fifo) (setAbi (some .fifo) w)) =
          some (setAbi none (setAbi (some .fifo) w)) := congrArg (Option.map _ <| Option.map _ ·) hundone
      rw [hcall, hback]
    · have hundone := htwoLevel.undone w.ledger hkept trivial
      have hcall : evtchnAbiRelease (worldLedger.set
          ((references .twoLevel).up (Ledger.refer .sharedInfo 1) w.ledger) (setAbi (some .twoLevel) w)) =
          some (setAbi none (setAbi (some .twoLevel) w)) := congrArg (Option.map _ <| Option.map _ ·) hundone
      rw [hcall, hback]
  · exact fun _ _ hnot => absurd trivial hnot

theorem fifoClaimed_block_some {n vcpu_id : ℕ} (hlt : cpu < n) (hid : env.processorVcpuId cpu = .ok vcpu_id) :
    (fifoClaimed env n f).ControlBlockMdl vcpu_id = true := by
  induction n with
  | zero => omega
  | succ n ih =>
    rw [fifoClaimed, fifoClaimOne]
    rcases Nat.lt_succ_iff_lt_or_eq.1 hlt with hbelow | rfl
    · rcases env.processorVcpuId n with status | v
      · exact ih hbelow
      · rcases eq_or_ne vcpu_id v with rfl | hne
        · exact Function.update_self _ _ _
        · exact (Function.update_of_ne hne _ _).trans (ih hbelow)
    · rw [hid]
      exact Function.update_self _ _ _

/-- `EvtchnIsProcessorEnabled` once the ABI has been acquired. -/
def enabledAfter (env : Env) (f : FifoContext) (cpu : ℕ) : Bool :=
  decide (cpu < env.ProcessorCount) && sharedInfoUpcallSupported env cpu &&
    match env.processorVcpuId cpu with
    | .error _ => false
    | .ok vcpu_id => if usesFifo env f then decide (f.References = 0) || f.ControlBlockMdl vcpu_id else true

theorem evtchnIsProcessorEnabled_upAbi (env : Env) (w : World) (cpu : ℕ) :
    evtchnIsProcessorEnabled env (upAbi env w) cpu = enabledAfter env w.fifo cpu := by
  rw [evtchnIsProcessorEnabled, enabledAfter, abiIsProcessorEnabled, upAbi]
  by_cases hlt : cpu < env.ProcessorCount
  · congr 1
    rcases hid : env.processorVcpuId cpu with status | vcpu_id
    · rfl
    · by_cases huses : usesFifo env w.fifo
      · simp only [if_pos huses]
        by_cases h0 : w.fifo.References = 0
        · have hup : upFifo env w.fifo = fifoClaimed env env.ProcessorCount (fifoReferences.add 1 w.fifo) :=
            if_pos h0
          rw [decide_eq_true h0, Bool.true_or]
          exact (congrArg (·.ControlBlockMdl vcpu_id) hup).trans (fifoClaimed_block_some hlt hid)
        · have hup : upFifo env w.fifo = fifoReferences.add 1 w.fifo := if_neg h0
          rw [decide_eq_false h0, Bool.false_or]
          exact congrArg (·.ControlBlockMdl vcpu_id) hup
      · simp only [if_neg huses]
        rfl
  · simp [hlt]

/-! ## The interrupts -/

theorem evtchnIsProcessorEnabled_congr (hfifo : v.fifo = w.fifo) (habi : v.evtchn.EvtchnAbi = w.evtchn.EvtchnAbi) :
    evtchnIsProcessorEnabled env v = evtchnIsProcessorEnabled env w := by
  funext cpu
  simp only [evtchnIsProcessorEnabled, abiIsProcessorEnabled, hfifo, habi]

/-- The ABI is there, and if the array can be allocated, so can an interrupt for each processor. -/
def Ready (env : Env) (w : World) : Prop :=
  (∃ abi, w.evtchn = ⟨some abi, fun _ => false, false⟩) ∧
    (env.fails (.allocate .evtchn) = false →
      ∀ cpu, evtchnIsProcessorEnabled env w cpu = true → env.fails (.processorInterrupt cpu) = false)

/-- The array and the interrupts. -/
def upInterrupts (env : Env) (w : World) : World :=
  { w with
    ledger := w.ledger.take (.array .evtchn)
    evtchn := ⟨w.evtchn.EvtchnAbi, evtchnIsProcessorEnabled env w, true⟩ }

theorem enabledInterrupts_of_forall
    (h : ∀ cpu, evtchnIsProcessorEnabled env w cpu = true → w.evtchn.Processor cpu = true) (n cpu : ℕ) :
    enabledInterrupts env w n cpu = true := by
  induction n generalizing cpu with
  | zero => rfl
  | succ n ih =>
    rw [enabledInterrupts]
    split_ifs with henabled
    · rw [h cpu henabled, ih, Bool.or_true, Bool.and_true]
    · exact ih (cpu + 1)

theorem interruptsPresent_iff : interruptsPresent env w = true ↔
    ∀ cpu, evtchnIsProcessorEnabled env w cpu = true → w.evtchn.Processor cpu = true := by
  simp only [interruptsPresent, List.all_eq_true, List.mem_range, Bool.or_eq_true, Bool.not_eq_true']
  refine forall_congr' fun cpu => ?_
  constructor
  · intro h henabled
    have hlt : cpu < env.ProcessorCount := by
      simp only [evtchnIsProcessorEnabled, Bool.and_eq_true, decide_eq_true_eq] at henabled
      exact henabled.1.1
    rcases h hlt with hnot | hpresent
    · rw [hnot] at henabled
      cases henabled
    · exact hpresent
  · intro h _
    cases henabled : evtchnIsProcessorEnabled env w cpu with
    | false => exact .inl rfl
    | true => exact .inr (h henabled)

/-- With the array, `EvtchnAcquire` allocates the interrupts. -/
theorem allocateInterrupts_eq (hready : Ready env w) (hok : env.fails (.allocate .evtchn) = false) :
    allocateInterrupts env (worldLedger.set (w.ledger.take (.array .evtchn)) w) =
      some (true, { upInterrupts env w with
        evtchn := ⟨w.evtchn.EvtchnAbi, evtchnIsProcessorEnabled env w, false⟩ }) := by
  obtain ⟨⟨abi, habi⟩, hall⟩ := hready
  have hProcessor : ∀ cpu, w.evtchn.Processor cpu = false := fun cpu => by rw [habi]
  have hInterrupt : w.evtchn.Interrupt = false := by rw [habi]
  have hsame : evtchnIsProcessorEnabled env (worldLedger.set (w.ledger.take (.array .evtchn)) w) =
      evtchnIsProcessorEnabled env w := evtchnIsProcessorEnabled_congr rfl rfl
  have hfun : (fun cpu => if evtchnIsProcessorEnabled env w cpu = true then
      !env.fails (.processorInterrupt cpu) else w.evtchn.Processor cpu) = evtchnIsProcessorEnabled env w := by
    funext cpu
    cases henabled : evtchnIsProcessorEnabled env w cpu with
    | false => simp [hProcessor cpu]
    | true => simp [hall hok cpu henabled]
  rw [allocateInterrupts, hsame]
  have hWorld : setInterrupts (fun cpu => if evtchnIsProcessorEnabled env w cpu = true then
      !env.fails (.processorInterrupt cpu) else w.evtchn.Processor cpu)
        (worldLedger.set (w.ledger.take (.array .evtchn)) w) =
      { upInterrupts env w with
        evtchn := ⟨w.evtchn.EvtchnAbi, evtchnIsProcessorEnabled env w, false⟩ } := by
    rw [hfun]
    simp only [setInterrupts, upInterrupts, worldLedger, hInterrupt]
  exact congrArg (fun w => some (true, w)) hWorld

/-- The interrupts are freed again. -/
theorem freeInterrupts_eq (env : Env) (w : World) (interrupt : Bool)
    (hProcessor : w.evtchn.Processor = fun _ => false) :
    freeInterrupts env { upInterrupts env w with
      evtchn := ⟨w.evtchn.EvtchnAbi, evtchnIsProcessorEnabled env w, interrupt⟩ } =
      some { upInterrupts env w with evtchn := ⟨w.evtchn.EvtchnAbi, w.evtchn.Processor, interrupt⟩ } := by
  have hsame : evtchnIsProcessorEnabled env { upInterrupts env w with
      evtchn := ⟨w.evtchn.EvtchnAbi, evtchnIsProcessorEnabled env w, interrupt⟩ } =
      evtchnIsProcessorEnabled env w := evtchnIsProcessorEnabled_congr rfl rfl
  have hpresent : interruptsPresent env { upInterrupts env w with
      evtchn := ⟨w.evtchn.EvtchnAbi, evtchnIsProcessorEnabled env w, interrupt⟩ } = true := by
    rw [interruptsPresent_iff, hsame]
    exact fun cpu h => h
  have hfun : (fun cpu => if evtchnIsProcessorEnabled env w cpu = true then false
      else evtchnIsProcessorEnabled env w cpu) = w.evtchn.Processor := by
    rw [hProcessor]
    funext cpu
    cases evtchnIsProcessorEnabled env w cpu <;> rfl
  rw [freeInterrupts, if_pos hpresent, hsame]
  exact congrArg (fun interrupts => some (setInterrupts interrupts _)) hfun

theorem evtchnInterrupts_exact (env : Env) (js : List Interface) :
    Exact (fun w => (Kept js w.ledger ∧ w.ledger.outstanding .evtchn = false) ∧ Ready env w)
      (fun w => Kept js w.ledger)
      (fun _ => env.fails (.allocate .evtchn) = false ∧ env.fails .interrupt = false) (upInterrupts env)
      (attempt (evtchnInterrupts env))
      (sequence [freeInterrupts env, worldLedger.undo (giveBack (.array .evtchn)), freeInterrupt,
        worldLedger.undo (bugOnOutstanding .evtchn)]) := by
  have harray : ∀ w : World, env.fails (.allocate .evtchn) = false →
      worldLedger.step (claim (env.fails (.allocate .evtchn)) (.array .evtchn)) w =
        some (true, worldLedger.set (w.ledger.take (.array .evtchn)) w) := by
    intro w hok
    simp only [Part.step, claim, hok]
    rfl
  have hgive : ∀ (w : World) (e : EvtchnContext),
      worldLedger.undo (giveBack (.array .evtchn)) { upInterrupts env w with evtchn := e } =
        some { w with evtchn := e } := by
    intro w e
    have hledger := (claim_exact [] false (.array .evtchn)).undone
    simp only [Part.undo, giveBack, worldLedger, upInterrupts, Ledger.take, Function.update_self,
      Nat.add_one_ne_zero, if_false, Option.map_some, Nat.add_sub_cancel, Function.update_idem,
      Function.update_eq_self]
  constructor
  · rintro w ⟨hkept, hready⟩ ⟨hallocate, hinterrupt⟩
    rw [evtchnInterrupts, Part.stage, attempt_cons_of_passes (harray w hallocate),
      attempt_cons_of_passes (allocateInterrupts_eq hready hallocate)]
    have hpasses : allocateInterrupt env { upInterrupts env w with
        evtchn := ⟨w.evtchn.EvtchnAbi, evtchnIsProcessorEnabled env w, false⟩ } =
        some (true, upInterrupts env w) := by
      rw [allocateInterrupt, hinterrupt, if_neg (by decide)]
      rfl
    have hsame : evtchnIsProcessorEnabled env (upInterrupts env w) = evtchnIsProcessorEnabled env w :=
      evtchnIsProcessorEnabled_congr rfl rfl
    have henable : evtchnInterruptEnable env (upInterrupts env w) = some (true, upInterrupts env w) := by
      rw [evtchnInterruptEnable, enabledInterrupts_of_forall (fun cpu h => ?_), Bool.not_true, Bool.and_false,
        if_neg (by decide)]
      rw [hsame] at h
      exact h
    rw [attempt_cons_of_passes hpasses, attempt_single]
    simp only [henable]
  · exact fun w hw _ => hw.1.1.take _
  · rintro w ⟨⟨hkept, hnone⟩, ⟨abi, habi⟩, -⟩ -
    have hfree := freeInterrupts_eq env w true (by rw [habi])
    have hupper : upInterrupts env w = { upInterrupts env w with
        evtchn := ⟨w.evtchn.EvtchnAbi, evtchnIsProcessorEnabled env w, true⟩ } := rfl
    rw [sequence_cons, hupper, hfree, Option.bind_some, sequence_cons, hgive, Option.bind_some, sequence_cons]
    have hinterrupt : freeInterrupt { w with evtchn := ⟨w.evtchn.EvtchnAbi, w.evtchn.Processor, true⟩ } =
        some w := by
      have hevtchn : (⟨w.evtchn.EvtchnAbi, w.evtchn.Processor, false⟩ : EvtchnContext) = w.evtchn := by rw [habi]
      rw [freeInterrupt, if_pos rfl]
      exact congrArg (fun e => some { w with evtchn := e }) hevtchn
    rw [hinterrupt, Option.bind_some, sequence_single]
    simp [Part.undo, worldLedger, bugOnOutstanding, hnone]
  · rintro w ⟨hkept, hready⟩ hnot
    cases hallocate : env.fails (.allocate .evtchn) with
    | true =>
      refine attempt_cons_of_fails ?_
      simp only [Part.stage, Part.step, claim, hallocate]
      rfl
    | false =>
      obtain ⟨⟨abi, habi⟩, -⟩ := id hready
      have hinterrupt : env.fails .interrupt = true := by
        cases h : env.fails .interrupt with
        | true => rfl
        | false => exact absurd ⟨hallocate, h⟩ hnot
      have hfails : allocateInterrupt env { upInterrupts env w with
          evtchn := ⟨w.evtchn.EvtchnAbi, evtchnIsProcessorEnabled env w, false⟩ } =
          some (false, { upInterrupts env w with
            evtchn := ⟨w.evtchn.EvtchnAbi, evtchnIsProcessorEnabled env w, false⟩ }) := by
        rw [allocateInterrupt, if_pos hinterrupt]
      have hfree := freeInterrupts_eq env w false (by rw [habi])
      have hevtchn : (⟨w.evtchn.EvtchnAbi, w.evtchn.Processor, false⟩ : EvtchnContext) = w.evtchn := by rw [habi]
      rw [evtchnInterrupts, Part.stage, attempt_cons_of_passes (harray w hallocate),
        attempt_cons_of_passes (allocateInterrupts_eq hready hallocate), attempt_cons_of_fails hfails]
      simp only [sequence_single, hfree, Option.map_some, List.map_cons, List.map_nil, hgive, hevtchn]

/-! ## The call -/

theorem debugOk_of_up (hl : Kept js l) (hmem : .debug ∈ js) : debugOk env l := fun h0 => absurd h0 (hl.up _ hmem)

theorem reportingOk_of_up {i : Interface} (hl : Kept js l) (hmem : i ∈ js) : reportingOk env i l :=
  fun h0 => absurd h0 (hl.up _ hmem)

/-- Whether the shared info can be acquired depends on three counts. -/
theorem sharedInfoOk_congr {l' : Ledger} (hcount : l'.References .sharedInfo = l.References .sharedInfo)
    (hsuspend : reportingOk env .suspend l' ↔ reportingOk env .suspend l)
    (hdebug : debugOk env l' ↔ debugOk env l) :
    sharedInfoOk env l' ↔ sharedInfoOk env l := by
  rw [sharedInfoOk, sharedInfoOk, hcount, hsuspend, hdebug]

theorem upSharedInfo_outstanding (h : k ≠ .debug) (hs : k ≠ .suspend) :
    (upSharedInfo l).outstanding k = l.outstanding k := by
  refine up_outstanding fun l => ?_
  rw [upSharedInfoSteps, outstanding_take, outstanding_insertTail h, upDebug_outstanding,
    outstanding_insertTail hs, upReporting_outstanding h, outstanding_take, outstanding_take]

/-- The steps of `EvtchnAcquire` up to the ABI succeed. -/
def evtchnCallbacksOk (env : Env) (l : Ledger) : Prop :=
  reportingOk env .suspend l ∧ env.fails (.register .early .evtchn) = false ∧
    env.fails (.register .late .evtchn) = false ∧ debugOk env l ∧ env.fails (.register .debug .evtchn) = false ∧
    sharedInfoOk env l

/-- What they come to. -/
def upEvtchnCallbacks (l : Ledger) : Ledger :=
  upSharedInfo ((upDebug (((upReporting .suspend l).insertTail .early .evtchn).insertTail .late
    .evtchn)).insertTail .debug .evtchn)

theorem upEvtchnCallbacks_outstanding (h : k ≠ .debug) (hs : k ≠ .suspend) :
    (upEvtchnCallbacks l).outstanding k = l.outstanding k := by
  have early : k ≠ Queue.early.owner := hs
  have late : k ≠ Queue.late.owner := hs
  have debug : k ≠ Queue.debug.owner := h
  rw [upEvtchnCallbacks, upSharedInfo_outstanding h hs, outstanding_insertTail debug, upDebug_outstanding,
    outstanding_insertTail late, outstanding_insertTail early, upReporting_outstanding h]

theorem upEvtchnCallbacks_References (h : k ≠ .debug) (hs : k ≠ .suspend) (hi : k ≠ .sharedInfo) :
    (upEvtchnCallbacks l).References k = l.References k := by
  rw [upEvtchnCallbacks, upSharedInfo_References h hs hi, insertTail_References, upDebug_References h,
    insertTail_References, insertTail_References, upReporting_References h hs]

theorem evtchnCallbacks_exact (env : Env) (js : List Interface) :
    Exact (fun l => Kept (.evtchn :: js) l ∧ l.outstanding .evtchn = false)
      (fun l => Kept (.sharedInfo :: .evtchn :: js) l ∧ l.outstanding .evtchn = false) (evtchnCallbacksOk env)
      upEvtchnCallbacks (attempt (evtchnCallbacks env))
      (sequence [sharedInfoRelease, deregister .debug .evtchn, debugRelease, deregister .late .evtchn,
        deregister .early .evtchn, suspendRelease]) := by
  have hshared := (sharedInfoAcquire_exact env (.debug :: .suspend :: .evtchn :: js)).single.last
    [sharedInfoRelease]
  have hregister := (register_exact env .debug (by simp [Queue.owner]) .evtchn).cons hshared
  have hdebug := (debugAcquire_exact env (.suspend :: .evtchn :: js)).single.cons hregister
  have hlate := (register_exact env .late (by simp [Queue.owner]) .evtchn).cons hdebug
  have hearly := (register_exact env .early (by simp [Queue.owner]) .evtchn).cons hlate
  have hsuspend := (reportingAcquire_exact env (i := .suspend) (by decide) (.evtchn :: js)).single.cons hearly
  have hkeeping := hsuspend.keeping (fun l => l.outstanding .evtchn = false) fun l hl =>
    (upEvtchnCallbacks_outstanding (by decide) (by decide)).trans hl
  have hsub : .sharedInfo :: .evtchn :: js ⊆ .sharedInfo :: .debug :: .suspend :: .evtchn :: js :=
    List.cons_subset_cons _ fun j hj => List.mem_cons_of_mem _ (List.mem_cons_of_mem _ hj)
  refine (hkeeping.mono (fun _ h => h) fun l hl => ⟨hl.1.mono hsub, hl.2⟩).iff fun l hl => ?_
  rw [evtchnCallbacksOk]
  refine and_congr_right fun hok => and_congr_right fun _ => and_congr_right fun _ => ?_
  have hsuspended := (reportingAcquire_exact env (i := .suspend) (by decide) (.evtchn :: js)).after l hl.1 hok
  have hkept := (hsuspended.insertTail (q := .early) (by simp [Queue.owner]) .evtchn).insertTail (q := .late)
    (by simp [Queue.owner]) .evtchn
  have hdebugOk : debugOk env (((upReporting .suspend l).insertTail .early .evtchn).insertTail .late .evtchn) ↔
      debugOk env l := debugOk_upReporting hl.1 (by decide) hok
  rw [hdebugOk]
  refine and_congr_right fun hok' => and_congr_right fun _ => ?_
  have hkept' := ((debugAcquire_exact env _).after _ hkept (hdebugOk.2 hok')).insertTail (q := .debug)
    (by simp [Queue.owner]) .evtchn
  refine (sharedInfoOk_congr ?_ ?_ ?_).symm
  · rw [insertTail_References, upDebug_References (by decide), insertTail_References, insertTail_References,
      upReporting_References (by decide) (by decide)]
  · exact iff_of_true (reportingOk_of_up hkept' (by simp)) hok
  · exact iff_of_true (debugOk_of_up hkept' (by simp)) hok'

/-- The FIFO ABI does not slip, and if the array can be allocated, so can an interrupt for each processor. -/
def Whole (env : Env) (f : FifoContext) : Prop :=
  Steady env f ∧ (env.fails (.allocate .evtchn) = false →
    ∀ cpu, enabledAfter env f cpu = true → env.fails (.processorInterrupt cpu) = false)

/-- If the event channels have to be set up, and `EvtchnAcquire` comes to the ABI, it is whole. -/
def evtchnWhole (env : Env) (w : World) : Prop :=
  w.ledger.References .evtchn = 0 → evtchnCallbacksOk env w.ledger → Whole env w.fifo

/-- What the event channels keep: they hold nothing while there is no reference to them. -/
structure EvtchnKept (js : List Interface) (w : World) : Prop where
  ledger : Kept js w.ledger
  fifo : FifoKept w.fifo
  idle : w.ledger.References .evtchn = 0 → w.evtchn = closed

/-- The releases of `EvtchnRelease` that its `Acquire` made before the ABI. -/
def evtchnCallbacksUndo : List (Undo Ledger) :=
  [sharedInfoRelease, deregister .debug .evtchn, debugRelease, deregister .late .evtchn,
    deregister .early .evtchn, suspendRelease]

theorem upAbi_outstanding : (upAbi env w).ledger.outstanding k = w.ledger.outstanding k := by
  rw [upAbi]
  split_ifs
  · rfl
  · exact up_outstanding fun _ => outstanding_refer

theorem upAbi_References (hi : k ≠ .sharedInfo) (ht : k ≠ .twoLevel) :
    (upAbi env w).ledger.References k = w.ledger.References k := by
  rw [upAbi]
  split_ifs
  · rfl
  · exact up_References (fun _ => refer_References_of_ne hi) ht

/-- The steps before the ABI as one. -/
theorem attempt_evtchnStages (env : Env) :
    attempt ((evtchnCallbacks env).map worldLedger.stage ++
        ⟨evtchnAbiAcquire env, [evtchnAbiRelease]⟩ :: evtchnInterrupts env) =
      attempt (⟨worldLedger.step (attempt (evtchnCallbacks env)), evtchnCallbacksUndo.map worldLedger.undo⟩ ::
        ⟨evtchnAbiAcquire env, [evtchnAbiRelease]⟩ :: evtchnInterrupts env) := by
  rw [attempt_append, funext (worldLedger.attempt_map (evtchnCallbacks env)), worldLedger.unwind_map]
  rfl

theorem evtchnSteps_exact (env : Env) (js : List Interface) :
    Exact (fun w => ((Kept (.evtchn :: js) w.ledger ∧ w.ledger.outstanding .evtchn = false) ∧
        FifoKept w.fifo ∧ w.evtchn = closed) ∧ (evtchnCallbacksOk env w.ledger → Whole env w.fifo))
      (fun w => Kept (.evtchn :: js) w.ledger)
      (fun w => evtchnCallbacksOk env w.ledger ∧ True ∧
        env.fails (.allocate .evtchn) = false ∧ env.fails .interrupt = false)
      (fun w => upInterrupts env (upAbi env (worldLedger.set (upEvtchnCallbacks w.ledger) w)))
      (attempt ((evtchnCallbacks env).map worldLedger.stage ++
        ⟨evtchnAbiAcquire env, [evtchnAbiRelease]⟩ :: evtchnInterrupts env))
      (sequence ([freeInterrupts env, worldLedger.undo (giveBack (.array .evtchn)), freeInterrupt,
        worldLedger.undo (bugOnOutstanding .evtchn)] ++ [evtchnAbiRelease] ++
          evtchnCallbacksUndo.map worldLedger.undo)) := by
  have hinterrupts := evtchnInterrupts_exact env (.sharedInfo :: .evtchn :: js)
  have habi := (evtchnAbiAcquire_exact env (.sharedInfo :: .evtchn :: js) List.mem_cons_self).when
    (C := fun w => w.ledger.outstanding .evtchn = false ∧ Whole env w.fifo)
    (D := fun w => w.ledger.outstanding .evtchn = false ∧ Ready env w) (by
      rintro w ⟨-, hclosed, -⟩ - ⟨hnone, -, hall⟩
      refine ⟨upAbi_outstanding.trans hnone, ⟨?_, fun hok cpu henabled => ?_⟩⟩
      · rw [upAbi]
        split_ifs
        · exact ⟨.fifo, by simp [worldFifo, setAbi, hclosed, closed]⟩
        · exact ⟨.twoLevel, by simp [worldLedger, setAbi, hclosed, closed]⟩
      · rw [evtchnIsProcessorEnabled_upAbi] at henabled
        exact hall hok cpu henabled)
  have hrest : Exact (fun w : World => (Kept (.sharedInfo :: .evtchn :: js) w.ledger ∧
      w.ledger.outstanding .evtchn = false) ∧ (FifoKept w.fifo ∧ w.evtchn = closed) ∧ Whole env w.fifo)
      _ _ _ _ _ :=
    (habi.mono (fun w hw => ⟨⟨⟨hw.1.1, hw.2.1.1⟩, hw.2.1.2, hw.2.2.1⟩, fun _ => ⟨hw.1.2, hw.2.2⟩⟩)
      fun w hw => ⟨⟨hw.1, hw.2.1⟩, hw.2.2⟩).cons hinterrupts
  have hcallbacks := ((evtchnCallbacks_exact env js).part worldLedger
    (fun w => FifoKept w.fifo ∧ w.evtchn = closed) fun _ _ h => h).when (C := fun w => Whole env w.fifo)
    (D := fun w => Whole env w.fifo) fun _ _ _ h => h
  have hsteps := (hcallbacks.mono (fun _ h => h) fun w hw => ⟨hw.1.1, hw.1.2, hw.2⟩).cons hrest
  rw [attempt_evtchnStages]
  exact hsteps.mono (fun _ h => h) fun w hw => hw.mono (List.subset_cons_self _ _)

/-- What the releases of the event channels do not read. -/
theorem evtchnUndo_commutes (undo : Undo Ledger) (h : Commutes (Ledger.refer k (-1)) undo) :
    Commutes ((worldReferences k).add (-1)) (worldLedger.undo undo) := worldLedger.undo_commutes h

theorem freeInterrupts_commutes (env : Env) (k : Interface) :
    Commutes ((worldReferences k).add (-1)) (freeInterrupts env) := by
  intro w
  have hsame : evtchnIsProcessorEnabled env ((worldReferences k).add (-1) w) = evtchnIsProcessorEnabled env w :=
    evtchnIsProcessorEnabled_congr rfl rfl
  have hpresent : interruptsPresent env ((worldReferences k).add (-1) w) = interruptsPresent env w := by
    rw [Bool.eq_iff_iff, interruptsPresent_iff, interruptsPresent_iff, hsame]
    rfl
  rw [freeInterrupts, freeInterrupts, hpresent, hsame]
  split_ifs <;> rfl

theorem freeInterrupt_commutes (k : Interface) : Commutes ((worldReferences k).add (-1)) freeInterrupt := by
  intro w
  rw [freeInterrupt, freeInterrupt]
  by_cases h : w.evtchn.Interrupt = true
  · rw [if_pos h, if_pos (show ((worldReferences k).add (-1) w).evtchn.Interrupt = true from h)]
    rfl
  · rw [if_neg h, if_neg (show ¬ ((worldReferences k).add (-1) w).evtchn.Interrupt = true from h)]
    rfl

theorem evtchnTwoLevelRelease_commutes {n : ℤ} (h : k ≠ .debug) (hs : k ≠ .suspend) (hi : k ≠ .sharedInfo)
    (ht : k ≠ .twoLevel) : Commutes (Ledger.refer k n) evtchnTwoLevelRelease :=
  release_commutes ht <| by simpa using sharedInfoRelease_commutes h hs hi

theorem evtchnAbiRelease_commutes (h : k ≠ .debug) (hs : k ≠ .suspend) (hi : k ≠ .sharedInfo)
    (ht : k ≠ .twoLevel) :
    Commutes ((worldReferences k).add (-1)) evtchnAbiRelease := by
  have hset : ∀ o : Option World, (o.map ((worldReferences k).add (-1))).map (setAbi none) =
      (o.map (setAbi none)).map ((worldReferences k).add (-1)) := by
    rintro (_ | w) <;> rfl
  intro w
  rw [evtchnAbiRelease, evtchnAbiRelease]
  have hAbi : ((worldReferences k).add (-1) w).evtchn.EvtchnAbi = w.evtchn.EvtchnAbi := rfl
  rw [hAbi]
  rcases w.evtchn.EvtchnAbi with _ | _ | _
  · rfl
  · simp only
    have hapart : Commutes ((worldReferences k).add (-1)) (worldFifo.undo evtchnFifoRelease) :=
      worldFifo.undo_commutes_of_apart evtchnFifoRelease (fun _ => rfl) fun _ _ => rfl
    rw [hapart w, hset]
  · simp only
    rw [evtchnUndo_commutes _ (evtchnTwoLevelRelease_commutes h hs hi ht) w, hset]

/-- What the steps of `EvtchnAcquire` come to. -/
def upEvtchnSteps (env : Env) (w : World) : World :=
  upInterrupts env (upAbi env (worldLedger.set (upEvtchnCallbacks w.ledger) w))

/-- What `EvtchnAcquire` comes to. -/
def upEvtchn (env : Env) : World → World := (worldReferences .evtchn).up (upEvtchnSteps env)

theorem upEvtchnSteps_References (h : k ≠ .debug) (hs : k ≠ .suspend) (hi : k ≠ .sharedInfo) (ht : k ≠ .twoLevel) :
    (upEvtchnSteps env w).ledger.References k = w.ledger.References k := by
  have hcallbacks : (upEvtchnCallbacks w.ledger).References k = w.ledger.References k :=
    upEvtchnCallbacks_References h hs hi
  exact (upAbi_References hi ht).trans hcallbacks

theorem upEvtchnSteps_outstanding (h : k ≠ .debug) (hs : k ≠ .suspend) :
    (upEvtchnSteps env w).ledger.outstanding k = w.ledger.outstanding k := by
  have hcallbacks : (upEvtchnCallbacks w.ledger).outstanding k = w.ledger.outstanding k :=
    upEvtchnCallbacks_outstanding h hs
  exact outstanding_take.trans (upAbi_outstanding.trans hcallbacks)

theorem evtchnCallbacksOk_refer {n : ℤ} (hk : k.upper = true) :
    evtchnCallbacksOk env (l.refer k n) ↔ evtchnCallbacksOk env l := by
  have hsuspend : reportingOk env .suspend (l.refer k n) ↔ reportingOk env .suspend l :=
    reportingOk_refer (ne_of_upper hk rfl) (ne_of_upper hk rfl)
  have hdebug : debugOk env (l.refer k n) ↔ debugOk env l := debugOk_refer (ne_of_upper hk rfl)
  have hcount : (l.refer k n).References .sharedInfo = l.References .sharedInfo :=
    refer_References_of_ne (ne_of_upper hk rfl).symm
  rw [evtchnCallbacksOk, evtchnCallbacksOk, hsuspend, hdebug, sharedInfoOk_congr hcount hsuspend hdebug]

/-- **`EvtchnAcquire` is exact**, if it is whole. -/
theorem evtchnAcquire_exact (env : Env) (js : List Interface) :
    Exact (fun w => EvtchnKept js w ∧ evtchnWhole env w) (fun w => Kept (.evtchn :: js) w.ledger)
      (fun w => w.ledger.References .evtchn = 0 → evtchnCallbacksOk env w.ledger ∧
        env.fails (.allocate .evtchn) = false ∧ env.fails .interrupt = false)
      (upEvtchn env) (evtchnAcquire env) (evtchnRelease env) := by
  have hcallbacks : ∀ l : Ledger, evtchnCallbacksOk env (l.refer .evtchn 1) ↔ evtchnCallbacksOk env l :=
    fun l => evtchnCallbacksOk_refer rfl
  refine ((worldReferences .evtchn).exact (evtchnSteps_exact env js) ?_ ?_ ?_ ?_ ?_).iff ?_
  · exact fun w hw => hw.1.ledger.nonneg _
  · intro w hw h0
    refine ⟨⟨⟨hw.1.ledger.refer _, outstanding_refer.trans (hw.1.ledger.idle _ h0)⟩, hw.1.fifo, hw.1.idle h0⟩, ?_⟩
    intro hok
    exact hw.2 h0 ((hcallbacks w.ledger).1 hok)
  · exact fun w hw _ => hw.1.ledger.refer _
  · exact fun w => upEvtchnSteps_References (by decide) (by decide) (by decide) (by decide)
  · refine sequence_commutes ?_
    simp only [evtchnCallbacksUndo, List.map_cons, List.map_nil, List.cons_append, List.nil_append, List.mem_cons,
      List.not_mem_nil, or_false, forall_eq_or_imp, forall_eq]
    exact ⟨freeInterrupts_commutes _ _, evtchnUndo_commutes _ (giveBack_commutes _), freeInterrupt_commutes _,
      evtchnUndo_commutes _ (bugOnOutstanding_commutes _),
      evtchnAbiRelease_commutes (by decide) (by decide) (by decide) (by decide),
      evtchnUndo_commutes _ (sharedInfoRelease_commutes (by decide) (by decide) (by decide)),
      evtchnUndo_commutes _ (deregister_commutes _ _), evtchnUndo_commutes _ (debugRelease_commutes (by decide)),
      evtchnUndo_commutes _ (deregister_commutes _ _), evtchnUndo_commutes _ (deregister_commutes _ _),
      evtchnUndo_commutes _ (reportingRelease_commutes (by decide) (by decide))⟩
  · intro w hw
    refine imp_congr_right fun _ => ?_
    rw [true_and]
    exact and_congr_left fun _ => (hcallbacks w.ledger).symm

end XenBus.Interfaces
