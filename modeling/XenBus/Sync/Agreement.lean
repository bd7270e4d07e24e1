import XenBus.Sync.Phases

/-!
# Agreement on disabled interrupts

Once a CPU has returned success from `__SyncProcessorDisableInterrupts`, every other CPU has, or is
counted in and will (`Agreed`), as long as the owner does not start `SyncRunEarly` too soon: it resets the
count that the others still read, and calls `Early` when they may not have disabled their interrupts
yet. `agreed_of_settled` says that this is the only way to fail, and `not_agreed_of_early_reset` is a
run in which it happens.
-/

namespace XenBus.Sync

open Transition

variable {ι : Type*} [Fintype ι] {s t : State ι} {N count : ℤ} {w w' : Worker}

/-! ## The property -/

/-- The CPU has returned success from `__SyncProcessorDisableInterrupts`. -/
def Cpu.Disabled (cpu : Cpu) : Prop := .disableInterrupts ∈ cpu.Ran

/-- The CPU is at a place in `__SyncProcessorDisableInterrupts`. -/
def State.At (s : State ι) (d : Disabling) : Option ι → Prop
  | none => s.owner.pc = .disabling d
  | some i => (s.worker i).pc = .disabling d

/-- The CPU calls `Early` in its next step. -/
def State.AtEarly (s : State ι) : Option ι → Prop
  | none => s.owner.pc = .work .early
  | some i => (s.worker i).pc = .work .early

/-- The CPU is in `__SyncProcessorDisableInterrupts` and returns success: it has read
`ProcessorCount`, or is counted in with the count at `ProcessorCount`. -/
def State.Succeeds (s : State ι) (c : Option ι) : Prop :=
  ∃ d : Disabling, s.At d c ∧ d.Valid (processorCount ι) ∧ d.share (processorCount ι) = 1 ∧
    (d.Decided (processorCount ι) ∨ s.CompletionCount = processorCount ι)

theorem Capturing.not_disabled (h : Capturing s) (c : Option ι) : ¬ (s.cpu c).Disabled := by
  have hcpu : s.cpu c = .init := by
    cases c with
    | none =>
      obtain ⟨ho, -⟩ | ⟨ho, -⟩ | ⟨ho, -⟩ | ⟨ho, -⟩ := h.owner <;> simp [State.cpu, ho]
    | some i => exact (h.fresh i).cpu
  simp [hcpu, Cpu.Disabled, Cpu.init]

theorem Capturing.not_atEarly (h : Capturing s) (c : Option ι) : ¬ s.AtEarly c := by
  cases c with
  | none =>
    obtain ⟨ho, -⟩ | ⟨ho, -⟩ | ⟨ho, -⟩ | ⟨ho, -⟩ := h.owner <;> simp [State.AtEarly, ho]
  | some i =>
    have hok := h.fresh i
    show ¬ (s.worker i).pc = _
    generalize s.worker i = w at hok
    cases hok <;> simp

theorem Round.not_atEarly (h : Round s) (c : Option ι) : ¬ s.AtEarly c := by
  cases c with
  | none =>
    have hown := h.owner
    show ¬ s.owner.pc = _
    generalize s.owner = o at hown
    cases hown <;> simp
  | some i =>
    have hok := h.tally.ok i
    show ¬ (s.worker i).pc = _
    generalize s.worker i = w at hok
    cases hok with
    | poll hpc => obtain rfl | rfl | rfl := hpc <;> simp
    | attempt => simp
    | update r => simp
    | idle hpc => obtain rfl | rfl := hpc <;> simp

variable [DecidableEq ι]

/-- The CPU, if it is scheduled alone, returns success. -/
def State.Returns (s : State ι) (c : Option ι) : Prop :=
  ∃ t, Reaches step (fun _ a => a = c) s t ∧ (t.cpu c).Disabled

/-- **Agreement.** -/
structure Agreed (s : State ι) : Prop where
  /-- Once a CPU has returned success, each of them has, or is about to in the same round; -/
  success : (∃ c, (s.cpu c).Disabled) → ∀ c, (s.cpu c).Disabled ∨ s.Succeeds c
  /-- and it does, when it is scheduled. -/
  returns : ∀ c, s.Succeeds c → s.Returns c

/-- `Early` is called only with all CPUs at `HIGH_LEVEL` and their interrupts disabled. -/
def EarlySafe (s : State ι) (c : Option ι) : Prop :=
  s.AtEarly c → ∀ c', (s.cpu c').high = true ∧ (s.cpu c').disabled = true

/-! ## A CPU that is counted in returns success -/

/-- A step of a CPU in the loops. -/
theorem step_at {d : Disabling} {c : Option ι} (h : s.At d c) (hd : ∀ Old, d ≠ .done Old) :
    ∃ t, step s c = some t ∧ t.At (d.step (processorCount ι) s.CompletionCount).1 c ∧
      t.CompletionCount = (d.step (processorCount ι) s.CompletionCount).2 := by
  cases c with
  | none => exact ⟨_, congrArg (Option.map _) (ownerStep_disabling h hd), rfl, rfl⟩
  | some i =>
    refine ⟨_, congrArg (Option.map _) (workerStep_disabling h hd), ?_, rfl⟩
    show (Function.update s.worker i _ i).pc = _
    rw [Function.update_self]

theorem State.Returns.of_step {c : Option ι} (hs : step s c = some t) (h : t.Returns c) :
    s.Returns c := by
  obtain ⟨u, hu, hdis⟩ := h
  exact ⟨u, reaches_cons rfl hs hu, hdis⟩

theorem returns_of_done {Old : ℤ} {c : Option ι} (h : s.At (.done Old) c)
    (hOld : processorCount ι ≤ Old) : s.Returns c := by
  have hnot : ¬ Old < processorCount ι := by omega
  cases c with
  | none =>
    have hpc : s.owner.pc = .disabling (.done Old) := h
    refine ⟨_, .single rfl (by simp only [step, ownerStep, hpc, if_neg hnot]; rfl), ?_⟩
    simp [State.cpu, Cpu.Disabled, Cpu.disable]
  | some i =>
    have hpc : (s.worker i).pc = .disabling (.done Old) := h
    refine ⟨_, .single rfl (by simp only [step, workerStep, hpc, if_neg hnot]; rfl), ?_⟩
    simp [State.cpu, Cpu.Disabled, Cpu.disable]

theorem returns_of_read {c : Option ι} (h : s.At .read c)
    (hc : s.CompletionCount = processorCount ι) : s.Returns c := by
  obtain ⟨t, hs, hat, -⟩ := step_at h nofun
  rw [show (Disabling.read.step (processorCount ι) s.CompletionCount).1 = .done s.CompletionCount
    from if_pos hc] at hat
  exact .of_step hs (returns_of_done hat hc.ge)

/-- **A CPU that is counted in, with the count at `ProcessorCount`, returns success.** -/
theorem State.Succeeds.returns {c : Option ι} (h : s.Succeeds c) : s.Returns c := by
  obtain ⟨d, hat, hvalid, hshare, hdec⟩ := h
  cases d with
  | inc => cases hshare
  | done Old =>
    have hOld : ¬ Old < processorCount ι := fun hlt => by
      rw [show (Disabling.done Old).share (processorCount ι) = 0 from if_pos hlt] at hshare
      cases hshare
    exact returns_of_done hat (by omega)
  | read => exact returns_of_read hat (hdec.resolve_left nofun)
  | spin Attempts =>
    have hc := hdec.resolve_left nofun
    obtain ⟨t, hs, hat', hct⟩ := step_at hat nofun
    rw [show ((Disabling.spin Attempts).step (processorCount ι) s.CompletionCount).1 = .read
      from if_neg (by simp [hc])] at hat'
    exact .of_step hs (returns_of_read hat' (hct.trans hc))
  | exchange Old =>
    have hc := hdec.resolve_left nofun
    -- the exchange fails: it is from a smaller value
    have hOld : ¬ s.CompletionCount = Old := by
      have := hvalid Old rfl
      omega
    obtain ⟨t, hs, hat', hct⟩ := step_at hat nofun
    rw [show (Disabling.exchange Old).step (processorCount ι) s.CompletionCount =
      (.read, s.CompletionCount) from if_neg hOld] at hat' hct
    exact .of_step hs (returns_of_read hat' (hct.trans hc))

/-! ## The early phase -/

/-- A worker in the early phase: its interrupts are disabled. -/
inductive InEarly : Worker → Prop
  | poll {pc : WorkerPc} (r : SyncRequest)
    (h : pc = .update ∨ pc = .readExit ∨ pc = .readSame ∨ pc = .readSwitch ∨ pc = .work .early) :
    InEarly ⟨pc, r, .after .disableInterrupts⟩
  | inc (r : SyncRequest) : InEarly ⟨.inc .early, r, .after .runEarly⟩
  | update (r : SyncRequest) : InEarly ⟨.update, r, .after .runEarly⟩
  | idle {pc : WorkerPc} (h : pc = .readExit ∨ pc = .readSame) :
    InEarly ⟨pc, .runEarly, .after .runEarly⟩

/-- 1 if the worker has counted itself in for the early phase. -/
def earlyShare (w : Worker) : ℤ :=
  if .runEarly ∈ w.cpu.Ran ∧ w.pc ≠ .inc .early then 1 else 0

/-- The owner waits for the end of the early phase. -/
structure WaitsEarly (s : State ι) : Prop where
  request : s.Request = .runEarly
  owner : s.owner = ⟨.wait .early, .after .runEarly⟩
  tally : Tally InEarly earlyShare 1 s

theorem earlyShare_le (w : Worker) : earlyShare w ≤ 1 := by
  unfold earlyShare
  split_ifs <;> omega

theorem InEarly.step {c : ℤ} (h : InEarly w) (hs : workerStep N count .runEarly w = some (w', c)) :
    InEarly w' ∧ c = count + earlyShare w' - earlyShare w := by
  cases h with
  | poll r hpc =>
    obtain rfl | rfl | rfl | rfl | rfl := hpc
    · obtain ⟨rfl, rfl⟩ := Prod.mk.inj (Option.some.inj hs)
      exact ⟨.poll _ (by simp), by simp [earlyShare, Cpu.after]⟩
    · obtain ⟨rfl, rfl⟩ := Prod.mk.inj (Option.some.inj hs)
      exact ⟨.poll _ (by simp), by simp [earlyShare, Cpu.after]⟩
    · obtain ⟨rfl, rfl⟩ := Prod.mk.inj (Option.some.inj hs)
      refine ⟨.poll _ ?_, by simp [earlyShare, Cpu.after]⟩
      split_ifs <;> simp
    · obtain ⟨rfl, rfl⟩ := Prod.mk.inj (Option.some.inj hs)
      exact ⟨.poll _ (by simp [dispatch]), by simp [earlyShare, Cpu.after]⟩
    · obtain ⟨rfl, rfl⟩ := Prod.mk.inj (Option.some.inj hs)
      exact ⟨.inc r, by simp [earlyShare, Cpu.after, Phase.perform]⟩
  | inc r =>
    obtain ⟨rfl, rfl⟩ := Prod.mk.inj (Option.some.inj hs)
    exact ⟨.update r, by simp [earlyShare, Cpu.after]⟩
  | update r =>
    obtain ⟨rfl, rfl⟩ := Prod.mk.inj (Option.some.inj hs)
    exact ⟨.idle (.inl rfl), by simp [earlyShare, Cpu.after]⟩
  | idle hpc =>
    obtain rfl | rfl := hpc
    · obtain ⟨rfl, rfl⟩ := Prod.mk.inj (Option.some.inj hs)
      exact ⟨.idle (by simp), by simp [earlyShare, Cpu.after]⟩
    · obtain ⟨rfl, rfl⟩ := Prod.mk.inj (Option.some.inj hs)
      exact ⟨.idle (by simp), by simp [earlyShare, Cpu.after]⟩

theorem WaitsEarly.step_worker (h : WaitsEarly s) {i : ι} (hs : step s (some i) = some t) :
    WaitsEarly t := by
  obtain ⟨w, c, hw, rfl⟩ := Sync.step_worker hs
  rw [h.request] at hw
  obtain ⟨hok, hc⟩ := (h.tally.ok i).step hw
  exact ⟨h.request, h.owner, h.tally.update i hok hc⟩

/-! ## After the early phase -/

/-- A place from which the owner does not come back to the early phase. -/
def OwnerPc.late : OwnerPc → Bool
  | .reset ph => decide (ph ≠ .early)
  | .work ph => decide (ph ≠ .early)
  | .inc ph => decide (ph ≠ .early)
  | .request ph => decide (ph ≠ .early)
  | .wait ph => decide (ph ≠ .early)
  | .ended => true
  | _ => false

/-- A worker that has finished the early phase, given the present request: as long as that is the one
of the early phase, it has noted that it has done it, or is about to. -/
structure PastEarly (Request : SyncRequest) (w : Worker) : Prop where
  disabled : w.cpu.Disabled
  outside : w.pc.inRoutine = false ∧ w.pc ≠ .start ∧ w.pc ≠ .work .early
  noted : Request = .runEarly →
    w.pc = .update ∨ w.Request = .runEarly ∧ (w.pc = .readExit ∨ w.pc = .readSame)

/-- The early phase has ended for all CPUs. -/
structure AfterEarly (s : State ι) : Prop where
  request : s.Request ≠ .disableInterrupts
  owner : s.owner.pc.late = true ∧ s.owner.cpu.Disabled
  worker : ∀ i, PastEarly s.Request (s.worker i)

theorem Cpu.Disabled.perform {cpu : Cpu} (h : cpu.Disabled) (ph : Phase) :
    (ph.perform cpu).Disabled := by
  cases ph <;> simpa [Phase.perform, Cpu.Disabled] using h

theorem PastEarly.step {r : SyncRequest} {c : ℤ} (h : PastEarly r w) (hr : r ≠ .disableInterrupts)
    (hs : workerStep N count r w = some (w', c)) : PastEarly r w' := by
  obtain ⟨pc, Request, cpu⟩ := w
  obtain ⟨hdis, ⟨hin, hstart, hwork⟩, hnoted⟩ := h
  dsimp only at hdis hin hstart hwork hnoted
  cases pc with
  | start => exact absurd rfl hstart
  | readExit =>
    obtain ⟨rfl, -⟩ := Prod.mk.inj (Option.some.inj hs)
    refine ⟨hdis, ?_, fun he => ?_⟩
    · dsimp only
      split_ifs <;> simp [WorkerPc.inRoutine]
    · subst he
      exact .inr ⟨((hnoted rfl).resolve_left nofun).1, .inr rfl⟩
  | readSame =>
    obtain ⟨rfl, -⟩ := Prod.mk.inj (Option.some.inj hs)
    refine ⟨hdis, ?_, fun he => ?_⟩
    · dsimp only
      split_ifs <;> simp [WorkerPc.inRoutine]
    · subst he
      have hsame := ((hnoted rfl).resolve_left nofun).1
      exact .inr ⟨hsame, .inl (if_pos hsame.symm)⟩
  | readSwitch =>
    obtain ⟨rfl, -⟩ := Prod.mk.inj (Option.some.inj hs)
    -- the request of the early phase has been noted, and is not carried out again
    have he : r ≠ .runEarly := fun he => by simpa using hnoted he
    refine ⟨hdis, ?_, fun he' => absurd he' he⟩
    cases r with
    | disableInterrupts => exact absurd rfl hr
    | runEarly => exact absurd rfl he
    | _ => simp [dispatch, WorkerPc.inRoutine]
  | disabling d => cases hin
  | work ph =>
    obtain ⟨rfl, -⟩ := Prod.mk.inj (Option.some.inj hs)
    exact ⟨hdis.perform ph, by simp [WorkerPc.inRoutine], fun he => by simpa using hnoted he⟩
  | inc ph =>
    obtain ⟨rfl, -⟩ := Prod.mk.inj (Option.some.inj hs)
    refine ⟨hdis, ?_, fun he => by simpa using hnoted he⟩
    dsimp only
    split_ifs <;> simp [WorkerPc.inRoutine]
  | update =>
    obtain ⟨rfl, -⟩ := Prod.mk.inj (Option.some.inj hs)
    exact ⟨hdis, by simp [WorkerPc.inRoutine], fun he => .inr ⟨he, .inl rfl⟩⟩
  | exited => cases hs

/-- The owner never requests the early phase again. -/
theorem ownerStep_late {o o' : Owner} {r r' : SyncRequest} {c : ℤ} (hlate : o.pc.late = true)
    (hdis : o.cpu.Disabled) (hs : ownerStep N count r o = some (o', c, r')) :
    (o'.pc.late = true ∧ o'.cpu.Disabled) ∧
      (r' = r ∨ r' ≠ .runEarly ∧ r' ≠ .disableInterrupts) := by
  obtain ⟨pc, cpu⟩ := o
  dsimp only at hlate hdis
  cases pc with
  | reset ph =>
    simp only [ownerStep, Option.some.injEq, Prod.mk.injEq] at hs
    obtain ⟨rfl, -, rfl⟩ := hs
    refine ⟨⟨?_, hdis⟩, .inl rfl⟩
    dsimp only
    split_ifs
    · exact hlate
    · exact hlate
  | work ph =>
    simp only [ownerStep, Option.some.injEq, Prod.mk.injEq] at hs
    obtain ⟨rfl, -, rfl⟩ := hs
    exact ⟨⟨hlate, hdis.perform ph⟩, .inl rfl⟩
  | inc ph =>
    simp only [ownerStep, Option.some.injEq, Prod.mk.injEq] at hs
    obtain ⟨rfl, -, rfl⟩ := hs
    exact ⟨⟨hlate, hdis⟩, .inl rfl⟩
  | request ph =>
    simp only [ownerStep, Option.some.injEq, Prod.mk.injEq] at hs
    obtain ⟨rfl, -, rfl⟩ := hs
    refine ⟨⟨hlate, hdis⟩, .inr ?_⟩
    cases ph with
    | early => cases hlate
    | _ => decide
  | wait ph =>
    by_cases hN : count = N
    · rw [ownerStep_wait hN] at hs
      obtain ⟨rfl, hcr⟩ := Prod.mk.inj (Option.some.inj hs)
      obtain ⟨-, rfl⟩ := Prod.mk.inj hcr
      cases ph with
      | release => exact ⟨⟨rfl, hdis⟩, .inr (by simp)⟩
      | _ => exact ⟨⟨rfl, hdis⟩, .inl rfl⟩
    · rw [ownerStep_wait_of_ne hN] at hs
      obtain ⟨rfl, hcr⟩ := Prod.mk.inj (Option.some.inj hs)
      obtain ⟨-, rfl⟩ := Prod.mk.inj hcr
      exact ⟨⟨hlate, hdis⟩, .inl rfl⟩
  | ended => cases hs
  | _ => cases hlate

theorem AfterEarly.step_worker (h : AfterEarly s) {i : ι} (hs : step s (some i) = some t) :
    AfterEarly t := by
  obtain ⟨w, c, hw, rfl⟩ := Sync.step_worker hs
  exact ⟨h.request, h.owner, forall_update h.worker i ((h.worker i).step h.request hw)⟩

theorem AfterEarly.step_owner (h : AfterEarly s) (hs : step s none = some t) : AfterEarly t := by
  obtain ⟨o, c, r, ho, rfl⟩ := Sync.step_owner hs
  obtain ⟨hown, hr⟩ := ownerStep_late h.owner.1 h.owner.2 ho
  obtain rfl | ⟨hne, hne'⟩ := hr
  · exact ⟨h.request, hown, h.worker⟩
  · exact ⟨hne', hown, fun i => ⟨(h.worker i).disabled, (h.worker i).outside,
      fun he => absurd he hne⟩⟩

/-- The end of the wait: every worker has counted itself in. -/
theorem WaitsEarly.step_owner (h : WaitsEarly s) (hs : step s none = some t) :
    WaitsEarly t ∨ AfterEarly t := by
  obtain ⟨o, c, r, ho, rfl⟩ := Sync.step_owner hs
  clear hs
  obtain ⟨count, request, owner, worker⟩ := s
  obtain ⟨rfl, rfl, ht⟩ := h
  dsimp only at ho
  by_cases hN : count = processorCount ι
  · rw [ownerStep_wait hN] at ho
    obtain ⟨rfl, hcr⟩ := Prod.mk.inj (Option.some.inj ho)
    obtain ⟨rfl, rfl⟩ := Prod.mk.inj hcr
    refine .inr ⟨nofun, ⟨rfl, by simp [Cpu.Disabled, Cpu.after]⟩, fun i => ?_⟩
    have hok : InEarly (worker i) := ht.ok i
    have hshare : ¬ earlyShare (worker i) ≤ 0 := fun hle =>
      absurd hN (ht.lt earlyShare_le le_rfl (i := i) hle).ne
    show PastEarly .runEarly (worker i)
    generalize worker i = w at hok hshare
    cases hok with
    | poll r hpc => simp [earlyShare, Cpu.after] at hshare
    | inc r => simp [earlyShare] at hshare
    | update r =>
      exact ⟨by simp [Cpu.Disabled, Cpu.after], ⟨rfl, nofun, nofun⟩, fun _ => .inl rfl⟩
    | idle hpc =>
      refine ⟨by simp [Cpu.Disabled, Cpu.after], ?_, fun _ => .inr ⟨rfl, hpc⟩⟩
      obtain rfl | rfl := hpc
      · exact ⟨rfl, nofun, nofun⟩
      · exact ⟨rfl, nofun, nofun⟩
  · rw [ownerStep_wait_of_ne hN] at ho
    obtain ⟨rfl, hcr⟩ := Prod.mk.inj (Option.some.inj ho)
    obtain ⟨rfl, rfl⟩ := Prod.mk.inj hcr
    exact .inl ⟨rfl, rfl, ht⟩

omit [DecidableEq ι] in
/-- The request of the early phase finds every worker with its interrupts disabled. -/
theorem Between.waitsEarly (h : Between .early s) (hc : s.CompletionCount = 1)
    (hin : ∀ i, (s.worker i).pc.inRoutine = false) :
    WaitsEarly { s with owner := ⟨.wait .early, .after .runEarly⟩, Request := .runEarly } := by
  have hok : ∀ i, InEarly (s.worker i) ∧ earlyShare (s.worker i) = 0 := fun i => by
    have hdone := h.worker i
    have hin := hin i
    generalize s.worker i = w at hdone hin
    cases hdone with
    | returning => cases hin
    | update r => exact ⟨.poll r (by simp), by simp [earlyShare, Cpu.after, Phase.prev]⟩
    | idle hpc =>
      refine ⟨.poll _ (by tauto), by simp [earlyShare, Cpu.after, Phase.prev]⟩
  refine ⟨rfl, rfl, fun i => (hok i).1, ?_⟩
  show s.CompletionCount = 1 + ∑ i, earlyShare (s.worker i)
  rw [Finset.sum_eq_zero fun i _ => (hok i).2, hc]
  rfl

/-! ## Agreement -/

/-- The condition on a step: the owner resets the count for the early phase when no worker is in the
loops of `__SyncProcessorDisableInterrupts`, and calls `Early` when all of them have returned. -/
def Settled (s : State ι) (a : Option ι) : Prop :=
  a = none →
    (s.owner.pc = .reset .early → ∀ i, (s.worker i).pc.looping (processorCount ι) = false) ∧
    (s.owner.pc = .work .early → ∀ i, (s.worker i).pc.inRoutine = false)

instance (s : State ι) (a : Option ι) : Decidable (Settled s a) :=
  inferInstanceAs (Decidable (_ → _ ∧ _))

/-- Where a run is that keeps to the condition. -/
inductive Stage (s : State ι) : Prop
  | capturing (h : Capturing s)
  | round (h : Round s)
  | between (h : Between .early s)
    (hin : s.owner.pc ≠ .work .early → ∀ i, (s.worker i).pc.inRoutine = false)
  | waitsEarly (h : WaitsEarly s)
  | afterEarly (h : AfterEarly s)

theorem Stage.step {a : Option ι} (h : Stage s) (ha : Settled s a) (hs : step s a = some t) :
    Stage t := by
  cases h with
  | capturing h =>
    cases a with
    | none => exact (h.step_owner hs).elim .capturing .round
    | some i => exact .capturing (h.worker hs)
  | round h =>
    cases a with
    | none =>
      by_cases ho : s.owner.pc = .reset .early
      · obtain ⟨hb, hpc⟩ := h.step_reset ho ((ha rfl).1 ho) hs
        exact .between hb fun hne => absurd hpc hne
      · exact .round (h.step_owner ho hs)
    | some i => exact .round (h.worker hs)
  | between h hin =>
    cases a with
    | none =>
      have hin' : ∀ i, (s.worker i).pc.inRoutine = false := by
        by_cases ho : s.owner.pc = .work .early
        · exact (ha rfl).2 ho
        · exact hin ho
      obtain ⟨hb, -⟩ | ⟨-, hc, rfl⟩ := h.step_owner hs
      · refine .between hb fun _ => ?_
        obtain ⟨o, c, r, -, rfl⟩ := Sync.step_owner hs
        exact hin'
      · exact .waitsEarly (h.waitsEarly hc hin')
    | some i =>
      obtain ⟨hb, howner, hmono⟩ := h.step_worker hs
      refine .between hb fun hne j => ?_
      rw [howner] at hne
      have := hin hne j
      cases hj : (t.worker j).pc.inRoutine with
      | false => rfl
      | true => exact absurd (hmono j hj) (by simp [this])
  | waitsEarly h =>
    cases a with
    | none => exact (h.step_owner hs).elim .waitsEarly .afterEarly
    | some i => exact .waitsEarly (h.step_worker hs)
  | afterEarly h =>
    cases a with
    | none => exact .afterEarly (h.step_owner hs)
    | some i => exact .afterEarly (h.step_worker hs)

omit [DecidableEq ι] in
theorem Round.success (h : Round s) (hc : s.CompletionCount = processorCount ι) (c : Option ι) :
    (s.cpu c).Disabled ∨ s.Succeeds c := by
  cases c with
  | none =>
    have hown := h.owner
    have hshare : ¬ s.owner.share (processorCount ι) ≤ 0 := fun hle =>
      absurd hc (h.tally.lt_of_base Worker.share_le hle).ne
    have hle := s.owner.share_le (N := processorCount ι)
    show s.owner.cpu.Disabled ∨ ∃ d, s.owner.pc = .disabling d ∧ _
    generalize s.owner = o at hown hshare hle
    cases hown with
    | @attempt d hd =>
      have : d.share (processorCount ι) = 1 := by
        change ¬ d.share _ ≤ 0 at hshare
        change d.share _ ≤ 1 at hle
        omega
      exact .inr ⟨d, rfl, hd, this, .inr hc⟩
    | reset => exact .inl (by simp [Cpu.Disabled, Cpu.after])
  | some i =>
    have hok := h.tally.ok i
    have hshare := h.share_eq hc i
    show (s.worker i).cpu.Disabled ∨ ∃ d, (s.worker i).pc = .disabling d ∧ _
    generalize s.worker i = w at hok hshare
    cases hok with
    | poll hpc => obtain rfl | rfl | rfl := hpc <;> simp [Worker.share, Cpu.init] at hshare
    | attempt hd => exact .inr ⟨_, rfl, hd, hshare, .inr hc⟩
    | update r => exact .inl (by simp [Cpu.Disabled, Cpu.after])
    | idle hpc => exact .inl (by simp [Cpu.Disabled, Cpu.after])

omit [DecidableEq ι] in
/-- In the rounds, success means that the count is `ProcessorCount`. -/
theorem Round.count_of_disabled (h : Round s) {c : Option ι} (hc : (s.cpu c).Disabled) :
    s.CompletionCount = processorCount ι := by
  apply h.decided
  cases c with
  | none =>
    have hown := h.owner
    change s.owner.cpu.Disabled at hc
    generalize s.owner = o at hown hc
    cases hown with
    | attempt => simp [Cpu.Disabled] at hc
    | reset => exact .inl trivial
  | some i =>
    have hok := h.tally.ok i
    change (s.worker i).cpu.Disabled at hc
    refine .inr ⟨i, ?_⟩
    generalize s.worker i = w at hok hc
    cases hok with
    | poll => simp [Cpu.Disabled, Cpu.init] at hc
    | attempt => simp [Cpu.Disabled] at hc
    | update r => rfl
    | idle hpc => obtain rfl | rfl := hpc <;> rfl

omit [DecidableEq ι] in
theorem Stage.success (h : Stage s) (hc : ∃ c, (s.cpu c).Disabled) (c : Option ι) :
    (s.cpu c).Disabled ∨ s.Succeeds c := by
  cases h with
  | capturing h =>
    -- nobody has been asked to disable interrupts
    obtain ⟨c', hc'⟩ := hc
    exact absurd hc' (h.not_disabled c')
  | round h =>
    obtain ⟨c', hc'⟩ := hc
    exact h.success (h.count_of_disabled hc') c
  | between h hin =>
    cases c with
    | none =>
      have hown := h.owner
      refine .inl ?_
      show s.owner.cpu.Disabled
      generalize s.owner = o, s.CompletionCount = n at hown
      cases hown <;> simp [Cpu.Disabled, Cpu.after, Phase.prev, Phase.request]
    | some i =>
      have hdone := h.worker i
      show (s.worker i).cpu.Disabled ∨ ∃ d, (s.worker i).pc = .disabling d ∧ _
      generalize s.worker i = w at hdone
      cases hdone with
      | @returning Old hr hOld =>
        exact .inr ⟨.done Old, rfl, nofun, if_neg (by omega), .inl ⟨Old, rfl, hOld⟩⟩
      | update r => exact .inl (by simp [Cpu.Disabled, Cpu.after, Phase.prev])
      | idle hpc => exact .inl (by simp [Cpu.Disabled, Cpu.after, Phase.prev])
  | waitsEarly h =>
    refine .inl ?_
    cases c with
    | none => simp [State.cpu, h.owner, Cpu.Disabled, Cpu.after]
    | some i =>
      have hok := h.tally.ok i
      show (s.worker i).cpu.Disabled
      generalize s.worker i = w at hok
      cases hok <;> simp [Cpu.Disabled, Cpu.after]
  | afterEarly h =>
    refine .inl ?_
    cases c with
    | none => exact h.owner.2
    | some i => exact (h.worker i).disabled

theorem Stage.agreed (h : Stage s) : Agreed s :=
  ⟨h.success, fun _ hc => hc.returns⟩

omit [DecidableEq ι] in
theorem Stage.earlySafe {c : Option ι} (h : Stage s) (hset : Settled s c) : EarlySafe s c := by
  intro hearly
  cases h with
  | capturing h => exact absurd hearly (h.not_atEarly c)
  | round h => exact absurd hearly (h.not_atEarly c)
  | between h hin =>
    -- only the owner can be there, and then no worker is in the routine
    cases c with
    | none =>
      intro c'
      have hin := (hset rfl).2 hearly
      cases c' with
      | none =>
        have hown := h.owner
        change s.owner.pc = _ at hearly
        show s.owner.cpu.high = true ∧ s.owner.cpu.disabled = true
        generalize s.owner = o, s.CompletionCount = n at hown hearly
        cases hown <;> simp [Cpu.after, Phase.prev, Phase.request]
      | some i =>
        have hdone := h.worker i
        have hin := hin i
        show (s.worker i).cpu.high = true ∧ (s.worker i).cpu.disabled = true
        generalize s.worker i = w at hdone hin
        cases hdone with
        | returning => cases hin
        | update r => simp [Cpu.after, Phase.prev]
        | idle hpc => simp [Cpu.after, Phase.prev]
    | some i =>
      have hdone := h.worker i
      change (s.worker i).pc = _ at hearly
      generalize s.worker i = w at hdone hearly
      cases hdone with
      | returning => cases hearly
      | update r => cases hearly
      | idle hpc => obtain rfl | rfl := hpc <;> cases hearly
  | waitsEarly h =>
    intro c'
    cases c' with
    | none => simp [State.cpu, h.owner, Cpu.after]
    | some i =>
      have hok := h.tally.ok i
      show (s.worker i).cpu.high = true ∧ (s.worker i).cpu.disabled = true
      generalize s.worker i = w at hok
      cases hok <;> simp [Cpu.after]
  | afterEarly h =>
    cases c with
    | none =>
      have hlate := h.owner.1
      change s.owner.pc = _ at hearly
      rw [hearly] at hlate
      cases hlate
    | some i => exact absurd hearly (h.worker i).outside.2.2

/-- A worker in the loops whose count the owner takes away has not agreed. -/
theorem Round.settled (h : Round s) (ho : s.owner.pc = .reset .early) (hs : step s none = some t)
    (ht : Agreed t) (i : ι) : (s.worker i).pc.looping (processorCount ι) = false := by
  obtain ⟨o, c, r, hown, rfl⟩ := Sync.step_owner hs
  rw [h.owner_reset ho] at hown
  obtain ⟨rfl, hcr⟩ := Prod.mk.inj (Option.some.inj hown)
  obtain ⟨rfl, rfl⟩ := Prod.mk.inj hcr
  have hdis : (Cpu.after .disableInterrupts).Disabled := by simp [Cpu.Disabled, Cpu.after]
  have hsuccess := ht.success ⟨none, hdis⟩ (some i)
  have hcount : ¬ (0 : ℤ) = processorCount ι := by
    unfold processorCount
    omega
  have hok := h.tally.ok i
  change (s.worker i).cpu.Disabled ∨ ∃ d : Disabling, (s.worker i).pc = .disabling d ∧ _ ∧ _ ∧
    (_ ∨ (0 : ℤ) = processorCount ι) at hsuccess
  generalize s.worker i = w at hok hsuccess
  cases hok with
  | poll hpc => obtain rfl | rfl | rfl := hpc <;> rfl
  | attempt hd =>
    obtain hdis | ⟨d', hpc, -, -, ⟨Old, rfl, hOld⟩ | hzero⟩ := hsuccess
    · simp [Cpu.Disabled] at hdis
    · obtain rfl := WorkerPc.disabling.inj hpc
      simpa [WorkerPc.looping] using hOld
    · exact absurd hzero hcount
  | update r => rfl
  | idle hpc => obtain rfl | rfl := hpc <;> rfl

omit [DecidableEq ι] in
/-- `Early` is not safe while a worker is in the routine. -/
theorem Between.settled (h : Between .early s) (ho : s.owner.pc = .work .early)
    (hsafe : EarlySafe s none) (i : ι) : (s.worker i).pc.inRoutine = false := by
  have hdone := h.worker i
  have hdis : (s.worker i).cpu.disabled = true := (hsafe ho (some i)).2
  generalize s.worker i = w at hdone hdis
  cases hdone with
  | returning => cases hdis
  | update r => rfl
  | idle hpc => obtain rfl | rfl := hpc <;> rfl

/-- A step that does not keep to the condition breaks the agreement. -/
theorem Stage.settled {c : Option ι} (h : Stage s) (hs : Sync.step s c = some t) (ht : Agreed t)
    (hsafe : EarlySafe s c) : Settled s c := by
  rintro rfl
  cases h with
  | capturing h =>
    obtain ⟨ho, -⟩ | ⟨ho, -⟩ | ⟨ho, -⟩ | ⟨ho, -⟩ := h.owner <;> simp [ho]
  | round h =>
    exact ⟨fun ho => h.settled ho hs ht, fun ho => absurd ho (h.not_atEarly none)⟩
  | between h hin =>
    exact ⟨fun _ i => (h.worker i).looping, fun ho => h.settled ho hsafe⟩
  | waitsEarly h => simp [h.owner]
  | afterEarly h =>
    have hlate := h.owner.1
    refine ⟨fun ho => ?_, fun ho => ?_⟩
    · rw [ho] at hlate
      cases hlate
    · rw [ho] at hlate
      cases hlate

/-- **Agreement on disabled interrupts**: in every run in which the owner keeps to the condition, once a
CPU has returned success all of them have or are about to, and `Early` is called only with all CPUs at
`HIGH_LEVEL` and their interrupts disabled. The first step that does not keep to it breaks this. -/
theorem agreed_of_settled (h : Reaches step Settled (init ι) s) :
    Agreed s ∧ ∀ c t, step s c = some t → (Settled s c ↔ Agreed t ∧ EarlySafe s c) := by
  have hstage : Stage s :=
    h.invariant (.capturing capturing_init) fun _ _ _ hs ha hst => hs.step ha hst
  refine ⟨hstage.agreed, fun c t hs => ⟨fun hc => ?_, fun ⟨ht, hsafe⟩ => hstage.settled hs ht hsafe⟩⟩
  exact ⟨(hstage.step hc hs).agreed, hstage.earlySafe hc⟩

/-- An owner and a worker, up to the worker's call of `Early`. -/
theorem agreed_of_settled_early : ∃ s t : State Unit,
    guardedRun step Settled (init Unit)
      [some (), none, none, none, none, some (), some (), some (), some (), none, none, none, none,
        some (), some (), some (), some (), none, none, none, none, some (), some (), some ()] =
      some s ∧ step s (some ()) = some t ∧ s.AtEarly (some ()) ∧ Agreed s ∧ Agreed t ∧
      EarlySafe s (some ()) := by
  obtain ⟨s, t, hs, ht, hat⟩ : ∃ s t : State Unit, guardedRun step Settled (init Unit)
      [some (), none, none, none, none, some (), some (), some (), some (), none, none, none, none,
        some (), some (), some (), some (), none, none, none, none, some (), some (), some ()] =
      some s ∧ step s (some ()) = some t ∧ s.AtEarly (some ()) := ⟨_, _, rfl, rfl, rfl⟩
  have h := agreed_of_settled (reaches_of_guardedRun hs)
  have hnext := (h.2 (some ()) t ht).1 nofun
  exact ⟨s, t, hs, ht, hat, h.1, hnext.1, hnext.2⟩

/-- **The owner can take the count away from a worker that still reads it**: the worker has seen all
CPUs counted in but not read `Old` yet, the owner returns success and starts the early phase, and
the worker finds 0, takes itself out and backs off. -/
theorem not_agreed_of_early_reset :
    ¬ ∀ s : State Unit, Reaches step Free (init Unit) s → Agreed s ∧ ∀ c, EarlySafe s c := by
  intro h
  obtain ⟨s, hs⟩ : ∃ s, run step (init Unit)
      [some (), none, none, none, none, some (), some (), some (), some (), none, none, none, none,
        some (), none, some (), some (), some ()] = some s := ⟨_, rfl⟩
  have howner : (s.cpu none).Disabled := by
    obtain rfl := Option.some.inj hs
    exact List.mem_singleton.mpr rfl
  have hworker : s.worker () = ⟨.readExit, .none, .init⟩ := by
    obtain rfl := Option.some.inj hs
    rfl
  obtain hdis | ⟨d, hat, -⟩ := (h s (reaches_of_run hs)).1.success ⟨none, howner⟩ (some ())
  · simp [State.cpu, hworker, Cpu.Disabled, Cpu.init] at hdis
  · simp [State.At, hworker] at hat

end XenBus.Sync
