import XenBus.Sync.Model

/-!
# Capturing the CPUs and disabling their interrupts

In `__SyncProcessorDisableInterrupts` a CPU counts itself in, waits, and then either finds all CPUs
counted in or counts itself out again with a compare-exchange. `CompletionCount` is the number of CPUs
that are counted in (`Round`). It cannot be `ProcessorCount` when one of them counts itself out, as the
exchange is made from a smaller value; so once a CPU has read `ProcessorCount`, the count stays there
and every CPU reads it, until the owner resets it for the next phase.

`Tally` is the form of the invariants of this and of the later phases: a property of each worker, and
the count as a sum of what the CPUs contribute.
-/

namespace XenBus.Sync

open Transition

variable {ι : Type*} [Fintype ι] {s t : State ι} {N count : ℤ}

/-! ## Tallies -/

/-- Each worker meets `Ok`, and the count is `base` plus the shares of the workers. -/
structure Tally (Ok : Worker → Prop) (share : Worker → ℤ) (base : ℤ) (s : State ι) : Prop where
  ok : ∀ i, Ok (s.worker i)
  count : s.CompletionCount = base + ∑ i, share (s.worker i)

/-- With all CPUs but the owner contributing at most 1, the count is at most `ProcessorCount`. -/
theorem Tally.le {Ok : Worker → Prop} {share : Worker → ℤ} {base : ℤ} (h : Tally Ok share base s)
    (hshare : ∀ w, share w ≤ 1) (hbase : base ≤ 1) : s.CompletionCount ≤ processorCount ι := by
  have := sum_le_card (c := fun i => share (s.worker i)) fun i => hshare _
  rw [h.count, processorCount]
  omega

/-- It is smaller if one of them does not contribute. -/
theorem Tally.lt {Ok : Worker → Prop} {share : Worker → ℤ} {base : ℤ} (h : Tally Ok share base s)
    (hshare : ∀ w, share w ≤ 1) (hbase : base ≤ 1) {i : ι} (hi : share (s.worker i) ≤ 0) :
    s.CompletionCount < processorCount ι := by
  have := sum_lt_card (c := fun i => share (s.worker i)) (fun i => hshare _) hi
  rw [h.count, processorCount]
  omega

/-- It is smaller if the owner does not contribute. -/
theorem Tally.lt_of_base {Ok : Worker → Prop} {share : Worker → ℤ} {base : ℤ}
    (h : Tally Ok share base s) (hshare : ∀ w, share w ≤ 1) (hbase : base ≤ 0) :
    s.CompletionCount < processorCount ι := by
  have := sum_le_card (c := fun i => share (s.worker i)) fun i => hshare _
  rw [h.count, processorCount]
  omega

/-- A step of the owner keeps a tally if it changes the count by the change of the base. -/
theorem Tally.owner {Ok : Worker → Prop} {share : Worker → ℤ} {base base' : ℤ}
    (h : Tally Ok share base s) (o : Owner) {c : ℤ} (r : SyncRequest)
    (hc : c = s.CompletionCount + base' - base) :
    Tally Ok share base' { s with owner := o, CompletionCount := c, Request := r } where
  ok := h.ok
  count := by
    have hcount := h.count
    change c = base' + ∑ i, share (s.worker i)
    omega

variable [DecidableEq ι]

/-- What a step of a worker leaves alone. -/
theorem step_worker {i : ι} (h : step s (some i) = some t) :
    ∃ w c, workerStep (processorCount ι) s.CompletionCount s.Request (s.worker i) = some (w, c) ∧
      t = { s with worker := Function.update s.worker i w, CompletionCount := c } := by
  obtain ⟨⟨w, c⟩, hw, rfl⟩ := Option.map_eq_some_iff.mp h
  exact ⟨w, c, hw, rfl⟩

/-- **The tally rule**: a step of a worker keeps a tally if it keeps the property of the worker and
changes the count by the change of its share. -/
theorem Tally.update {Ok : Worker → Prop} {share : Worker → ℤ} {base : ℤ} (h : Tally Ok share base s)
    (i : ι) {w : Worker} {c : ℤ} (hok : Ok w)
    (hc : c = s.CompletionCount + share w - share (s.worker i)) :
    Tally Ok share base
      { s with worker := Function.update s.worker i w, CompletionCount := c } where
  ok := forall_update h.ok i hok
  count := by
    change c = base + ∑ j, share (Function.update s.worker i w j)
    rw [sum_update (fun _ => share), hc, h.count]
    omega

/-! ## One CPU in `__SyncProcessorDisableInterrupts` -/

namespace Disabling

/-- 1 if the CPU is counted in. -/
def share (N : ℤ) : Disabling → ℤ
  | .inc => 0
  | .spin _ => 1
  | .read => 1
  | .exchange _ => 1
  | .done Old => if Old < N then 0 else 1

/-- The CPU has raised its `IRQL`. -/
def high : Disabling → Bool
  | .inc => false
  | _ => true

/-- The exchange is from a value below `ProcessorCount`. -/
def Valid (N : ℤ) (d : Disabling) : Prop := ∀ Old, d = .exchange Old → Old < N

/-- The CPU has read `ProcessorCount`. -/
def Decided (N : ℤ) (d : Disabling) : Prop := ∃ Old, d = .done Old ∧ N ≤ Old

theorem share_le (d : Disabling) : d.share N ≤ 1 := by
  cases d with
  | done Old =>
    show (if Old < N then (0 : ℤ) else 1) ≤ 1
    split_ifs <;> omega
  | _ => simp [share]

/-- **One step of the routine**, before its loop has ended: the count follows the share, it does not
move from `ProcessorCount`, and the CPU decides only if it is there. -/
theorem step_spec {d d' : Disabling} {c : ℤ} (hd : d.Valid N) (hdone : ∀ Old, d ≠ .done Old)
    (hle : count ≤ N) (hlt : d.share N = 0 → count < N) (hs : d.step N count = (d', c)) :
    d'.Valid N ∧ d' ≠ .inc ∧ c = count + d'.share N - d.share N ∧ (d'.Decided N → c = N) ∧
      (c ≠ count → count < N) := by
  cases d with
  | inc =>
    obtain ⟨rfl, rfl⟩ := Prod.mk.inj hs
    exact ⟨by simp [Valid], by simp, by simp [share], by simp [Decided], fun _ => hlt rfl⟩
  | spin Attempts =>
    obtain ⟨rfl, rfl⟩ := Prod.mk.inj hs
    split_ifs
    · exact ⟨by simp [Valid], by simp, by simp [share], by simp [Decided], by simp⟩
    · exact ⟨by simp [Valid], by simp, by simp [share], by simp [Decided], by simp⟩
  | read =>
    obtain ⟨rfl, rfl⟩ := Prod.mk.inj hs
    split_ifs with hN
    · exact ⟨by simp [Valid], by simp, by simp [share, hN], fun _ => hN, by simp⟩
    · refine ⟨fun Old hOld => ?_, by simp, by simp [share], by simp [Decided], by simp⟩
      obtain rfl := Disabling.exchange.inj hOld
      omega
  | exchange Old =>
    have hOld := hd Old rfl
    by_cases hc : count = Old
    · -- the CPU counts itself out
      rw [show (exchange Old).step N count = (done Old, Old - 1) from if_pos hc] at hs
      obtain ⟨rfl, rfl⟩ := Prod.mk.inj hs
      refine ⟨by simp [Valid], by simp, ?_, ?_, fun _ => by omega⟩
      · simp only [share, if_pos hOld]
        omega
      · rintro ⟨Old', hOld', hle'⟩
        obtain rfl := Disabling.done.inj hOld'
        omega
    · rw [show (exchange Old).step N count = (read, count) from if_neg hc] at hs
      obtain ⟨rfl, rfl⟩ := Prod.mk.inj hs
      exact ⟨by simp [Valid], by simp, by simp [share], by simp [Decided], by simp⟩
  | done Old => exact absurd rfl (hdone Old)

end Disabling

/-- A step of a worker in the loops. -/
theorem workerStep_disabling {w : Worker} {d : Disabling} {r : SyncRequest}
    (hpc : w.pc = .disabling d) (hd : ∀ Old, d ≠ .done Old) :
    workerStep N count r w =
      some ({ w with pc := .disabling (d.step N count).1, cpu := { w.cpu with high := true } },
        (d.step N count).2) := by
  cases d with
  | done Old => exact absurd rfl (hd Old)
  | _ => simp only [workerStep, hpc]

/-- A step of the owner in the loops. -/
theorem ownerStep_disabling {o : Owner} {d : Disabling} {r : SyncRequest}
    (hpc : o.pc = .disabling d) (hd : ∀ Old, d ≠ .done Old) :
    ownerStep N count r o =
      some (⟨.disabling (d.step N count).1, { o.cpu with high := true }⟩, (d.step N count).2, r) := by
  cases d with
  | done Old => exact absurd rfl (hd Old)
  | _ => simp only [ownerStep, hpc]

/-! ## Capture -/

/-- A worker that has not been told anything yet. -/
inductive Fresh : Worker → Prop
  | start : Fresh ⟨.start, .none, .init⟩
  | readExit : Fresh ⟨.readExit, .none, .init⟩
  | readSame : Fresh ⟨.readSame, .none, .init⟩

/-- 1 if the worker has started. -/
def started (w : Worker) : ℤ := if w.pc = .start then 0 else 1

/-- The owner has not requested anything. -/
structure Capturing (s : State ι) : Prop where
  request : s.Request = .none
  owner : s.owner = ⟨.captureInc, .init⟩ ∧ Tally Fresh started 0 s ∨
    s.owner = ⟨.captureWait, .init⟩ ∧ Tally Fresh started 1 s ∨
    s.owner = ⟨.disableReset, .init⟩ ∧ (∀ i, Fresh (s.worker i) ∧ (s.worker i).pc ≠ .start) ∨
    s.owner = ⟨.disableRequest, .init⟩ ∧ s.CompletionCount = 0 ∧
      ∀ i, Fresh (s.worker i) ∧ (s.worker i).pc ≠ .start

theorem Fresh.cpu {w : Worker} (h : Fresh w) : w.cpu = .init := by
  cases h <;> rfl

omit [DecidableEq ι] in
theorem Capturing.fresh (h : Capturing s) (i : ι) : Fresh (s.worker i) := by
  obtain ⟨-, ht⟩ | ⟨-, ht⟩ | ⟨-, ht⟩ | ⟨-, -, ht⟩ := h.owner
  · exact ht.ok i
  · exact ht.ok i
  · exact (ht i).1
  · exact (ht i).1

theorem started_le (w : Worker) : started w ≤ 1 := by
  unfold started
  split_ifs <;> omega

omit [DecidableEq ι] in
theorem capturing_init : Capturing (init ι) := by
  refine ⟨rfl, .inl ⟨rfl, ⟨fun _ => .start, ?_⟩⟩⟩
  simp [init, started]

/-- A step of a worker that waits for the first request. -/
theorem Fresh.step {w w' : Worker} {c : ℤ} (h : Fresh w)
    (hs : workerStep N count .none w = some (w', c)) :
    Fresh w' ∧ w'.pc ≠ .start ∧ c = count + started w' - started w := by
  cases h with
  | start =>
    obtain ⟨rfl, rfl⟩ := Prod.mk.inj (Option.some.inj hs)
    exact ⟨.readExit, by simp, by simp [started]⟩
  | readExit =>
    obtain ⟨rfl, rfl⟩ := Prod.mk.inj (Option.some.inj hs)
    exact ⟨.readSame, by simp, by simp [started]⟩
  | readSame =>
    obtain ⟨rfl, rfl⟩ := Prod.mk.inj (Option.some.inj hs)
    exact ⟨.readExit, by simp, by simp [started]⟩

theorem Capturing.worker (h : Capturing s) {i : ι} (hs : step s (some i) = some t) :
    Capturing t := by
  obtain ⟨w, c, hw, rfl⟩ := step_worker hs
  rw [h.request] at hw
  refine ⟨h.request, ?_⟩
  obtain ⟨ho, ht⟩ | ⟨ho, ht⟩ | ⟨ho, ht⟩ | ⟨ho, hc, ht⟩ := h.owner
  · obtain ⟨hok, -, hc⟩ := (ht.ok i).step hw
    exact .inl ⟨ho, ht.update i hok hc⟩
  · obtain ⟨hok, -, hc⟩ := (ht.ok i).step hw
    exact .inr (.inl ⟨ho, ht.update i hok hc⟩)
  · obtain ⟨hok, hne, -⟩ := (ht i).1.step hw
    have hall := forall_update (Q := fun w => Fresh w ∧ w.pc ≠ .start) ht i ⟨hok, hne⟩
    exact .inr (.inr (.inl ⟨ho, hall⟩))
  · obtain ⟨hok, hne, hc'⟩ := (ht i).1.step hw
    have hstarted : started (s.worker i) = 1 := if_neg (ht i).2
    have hstarted' : started w = 1 := if_neg hne
    have hall := forall_update (Q := fun w => Fresh w ∧ w.pc ≠ .start) ht i ⟨hok, hne⟩
    refine .inr (.inr (.inr ⟨ho, ?_, hall⟩))
    change c = 0
    omega

/-! ## The rounds of `SyncDisableInterrupts` -/

/-- A CPU that has done what a request asks for, and what the requests before it asked for. -/
def Cpu.after : SyncRequest → Cpu
  | .none => .init
  | .disableInterrupts => ⟨true, true, [.disableInterrupts]⟩
  | .runEarly => ⟨true, true, [.disableInterrupts, .runEarly]⟩
  | .enableInterrupts => ⟨false, false, [.disableInterrupts, .runEarly, .enableInterrupts]⟩
  | .runLate => ⟨false, false, [.disableInterrupts, .runEarly, .enableInterrupts, .runLate]⟩
  | .exit => ⟨false, false, [.disableInterrupts, .runEarly, .enableInterrupts, .runLate]⟩

/-- A worker while the request is to disable interrupts. -/
inductive Trying (N : ℤ) : Worker → Prop
  /-- It has not tried yet, or has backed off. -/
  | poll {pc : WorkerPc} (h : pc = .readExit ∨ pc = .readSame ∨ pc = .readSwitch) :
    Trying N ⟨pc, .none, .init⟩
  /-- It tries. -/
  | attempt {d : Disabling} (h : d.Valid N) : Trying N ⟨.disabling d, .none, ⟨d.high, false, []⟩⟩
  /-- It has succeeded. -/
  | update (r : SyncRequest) : Trying N ⟨.update, r, .after .disableInterrupts⟩
  | idle {pc : WorkerPc} (h : pc = .readExit ∨ pc = .readSame) :
    Trying N ⟨pc, .disableInterrupts, .after .disableInterrupts⟩

/-- 1 if the worker is counted in. -/
def Worker.share (N : ℤ) (w : Worker) : ℤ :=
  match w.pc with
  | .disabling d => d.share N
  | _ => if w.cpu.disabled then 1 else 0

/-- The worker has read `ProcessorCount`. -/
def Worker.Decided (N : ℤ) (w : Worker) : Prop :=
  match w.pc with
  | .disabling d => d.Decided N
  | _ => w.cpu.disabled = true

theorem Worker.share_le (w : Worker) : w.share N ≤ 1 := by
  unfold Worker.share
  split
  · exact Disabling.share_le _
  · split_ifs <;> omega

/-- A worker that has started is not counted in when the first round begins. -/
theorem Fresh.trying {w : Worker} (h : Fresh w) (hpc : w.pc ≠ .start) :
    Trying N w ∧ w.share N = 0 ∧ ¬ w.Decided N := by
  cases h with
  | start => exact absurd rfl hpc
  | readExit =>
    exact ⟨.poll (by simp), by simp [Worker.share, Cpu.init], by simp [Worker.Decided, Cpu.init]⟩
  | readSame =>
    exact ⟨.poll (by simp), by simp [Worker.share, Cpu.init], by simp [Worker.Decided, Cpu.init]⟩

/-- **A step of a worker while the request is to disable interrupts.** -/
theorem Trying.step {w w' : Worker} {c : ℤ} (h : Trying N w) (hle : count ≤ N)
    (hlt : w.share N = 0 → count < N)
    (hs : workerStep N count .disableInterrupts w = some (w', c)) :
    Trying N w' ∧ c = count + w'.share N - w.share N ∧
      (w'.Decided N → w.Decided N ∨ c = N) ∧ (c ≠ count → count < N) := by
  cases h with
  | poll hpc =>
    obtain rfl | rfl | rfl := hpc
    · obtain ⟨rfl, rfl⟩ := Prod.mk.inj (Option.some.inj hs)
      exact ⟨.poll (by simp), by simp [Worker.share, Cpu.init], by simp [Worker.Decided, Cpu.init],
        by simp⟩
    · obtain ⟨rfl, rfl⟩ := Prod.mk.inj (Option.some.inj hs)
      exact ⟨.poll (by simp), by simp [Worker.share, Cpu.init], by simp [Worker.Decided, Cpu.init],
        by simp⟩
    · obtain ⟨rfl, rfl⟩ := Prod.mk.inj (Option.some.inj hs)
      have hvalid : Disabling.inc.Valid N := by simp [Disabling.Valid]
      exact ⟨.attempt hvalid, by simp [Worker.share, Cpu.init, dispatch, Disabling.share],
        by simp [Worker.Decided, dispatch, Disabling.Decided], by simp⟩
  | @attempt d hd =>
    by_cases hdone : ∃ Old, d = .done Old
    · obtain ⟨Old, rfl⟩ := hdone
      obtain ⟨rfl, rfl⟩ := Prod.mk.inj (Option.some.inj hs)
      split_ifs with hOld
      · -- it backs off
        exact ⟨.poll (.inl rfl), by simp [Worker.share, Disabling.share, hOld, Cpu.backOff],
          by simp [Worker.Decided, Cpu.backOff], by simp⟩
      · -- it succeeds
        exact ⟨.update .none, by simp [Worker.share, Disabling.share, hOld, Cpu.disable],
          fun _ => .inl ⟨Old, rfl, by omega⟩, by simp⟩
    · have hdone' : ∀ Old, d ≠ .done Old := fun Old heq => hdone ⟨Old, heq⟩
      obtain ⟨d', c', hstep⟩ : ∃ d' c', d.step N count = (d', c') := ⟨_, _, rfl⟩
      rw [workerStep_disabling rfl hdone', hstep] at hs
      obtain ⟨rfl, rfl⟩ := Prod.mk.inj (Option.some.inj hs)
      obtain ⟨hv, hne, hc, hdec, hmove⟩ := Disabling.step_spec hd hdone' hle hlt hstep
      have hhigh : d'.high = true := by
        cases d' with
        | inc => exact absurd rfl hne
        | _ => rfl
      refine ⟨?_, hc, fun h => .inr (hdec h), hmove⟩
      have := Trying.attempt hv
      rwa [hhigh] at this
  | update r =>
    obtain ⟨rfl, rfl⟩ := Prod.mk.inj (Option.some.inj hs)
    exact ⟨.idle (.inl rfl), by simp [Worker.share], fun _ => .inl rfl, by simp⟩
  | idle hpc =>
    obtain rfl | rfl := hpc
    · obtain ⟨rfl, rfl⟩ := Prod.mk.inj (Option.some.inj hs)
      exact ⟨.idle (.inr rfl), by simp [Worker.share], fun _ => .inl rfl, by simp⟩
    · obtain ⟨rfl, rfl⟩ := Prod.mk.inj (Option.some.inj hs)
      exact ⟨.idle (.inl rfl), by simp [Worker.share], fun _ => .inl rfl, by simp⟩

/-- 1 if the owner is counted in. -/
def Owner.share (N : ℤ) (o : Owner) : ℤ :=
  match o.pc with
  | .disabling d => d.share N
  | _ => 1

/-- The owner has read `ProcessorCount`. -/
def Owner.Decided (N : ℤ) (o : Owner) : Prop :=
  match o.pc with
  | .disabling d => d.Decided N
  | _ => True

/-- The owner while the request is to disable interrupts: it tries, or has succeeded. -/
inductive OwnerTrying (N : ℤ) : Owner → Prop
  | attempt {d : Disabling} (h : d.Valid N) : OwnerTrying N ⟨.disabling d, ⟨d.high, false, []⟩⟩
  | reset : OwnerTrying N ⟨.reset .early, .after .disableInterrupts⟩

/-- The request is to disable interrupts: the CPUs are in the rounds of `SyncDisableInterrupts`. -/
structure Round (s : State ι) : Prop where
  request : s.Request = .disableInterrupts
  owner : OwnerTrying (processorCount ι) s.owner
  tally : Tally (Trying (processorCount ι)) (Worker.share (processorCount ι))
    (s.owner.share (processorCount ι)) s
  decided : (s.owner.Decided (processorCount ι) ∨
    ∃ i, (s.worker i).Decided (processorCount ι)) → s.CompletionCount = processorCount ι

theorem Owner.share_le (o : Owner) : o.share N ≤ 1 := by
  unfold Owner.share
  split
  · exact Disabling.share_le _
  · exact le_rfl

omit [DecidableEq ι] in
/-- When the count is `ProcessorCount`, every worker is counted in. -/
theorem Round.share_eq (h : Round s) (hc : s.CompletionCount = processorCount ι) (i : ι) :
    (s.worker i).share (processorCount ι) = 1 := by
  have hle := Worker.share_le (N := processorCount ι) (s.worker i)
  by_contra hne
  have hlt := h.tally.lt Worker.share_le (Owner.share_le _) (i := i) (by omega)
  omega

theorem Round.worker (h : Round s) {i : ι} (hs : step s (some i) = some t) : Round t := by
  obtain ⟨w, c, hw, rfl⟩ := step_worker hs
  rw [h.request] at hw
  have hle := h.tally.le Worker.share_le (Owner.share_le _)
  have hlt : (s.worker i).share (processorCount ι) = 0 → s.CompletionCount < processorCount ι :=
    fun h0 => h.tally.lt Worker.share_le (Owner.share_le _) h0.le
  obtain ⟨hok, hc, hdec, hmove⟩ := (h.tally.ok i).step hle hlt hw
  -- the count does not move from `ProcessorCount`
  have hstay : s.CompletionCount = processorCount ι → c = processorCount ι := fun heq => by
    by_contra hne
    have := hmove (by omega)
    omega
  refine ⟨h.request, h.owner, h.tally.update i hok hc, ?_⟩
  rintro (ho | ⟨j, hj⟩)
  · exact hstay (h.decided (.inl ho))
  · by_cases hij : j = i
    · subst hij
      change (Function.update s.worker j w j).Decided _ at hj
      rw [Function.update_self] at hj
      obtain hd | hd := hdec hj
      · exact hstay (h.decided (.inr ⟨j, hd⟩))
      · exact hd
    · change (Function.update s.worker i w j).Decided _ at hj
      rw [Function.update_of_ne hij] at hj
      exact hstay (h.decided (.inr ⟨j, hj⟩))

/-- What a step of the owner leaves alone. -/
theorem step_owner (h : step s none = some t) :
    ∃ o c r, ownerStep (processorCount ι) s.CompletionCount s.Request s.owner = some (o, c, r) ∧
      t = { s with owner := o, CompletionCount := c, Request := r } := by
  obtain ⟨⟨o, c, r⟩, ho, rfl⟩ := Option.map_eq_some_iff.mp h
  exact ⟨o, c, r, ho, rfl⟩

theorem Round.step_owner (h : Round s) (hpc : s.owner.pc ≠ .reset .early)
    (hs : step s none = some t) : Round t := by
  obtain ⟨o, c, r, ho, rfl⟩ := Sync.step_owner hs
  clear hs
  obtain ⟨count, request, owner, worker⟩ := s
  obtain ⟨rfl, hown, htally, hdecided⟩ := h
  dsimp only at hown ho hpc htally hdecided
  cases hown with
  | reset => exact absurd rfl hpc
  | @attempt d hd =>
    by_cases hdone : ∃ Old, d = .done Old
    · obtain ⟨Old, rfl⟩ := hdone
      obtain ⟨rfl, hcr⟩ := Prod.mk.inj (Option.some.inj ho)
      obtain ⟨rfl, rfl⟩ := Prod.mk.inj hcr
      split_ifs with hOld
      · -- it backs off and tries again
        have hvalid : Disabling.inc.Valid (processorCount ι) := by simp [Disabling.Valid]
        have hshare : (Disabling.done Old).share (processorCount ι) = 0 := if_pos hOld
        refine ⟨rfl, .attempt hvalid, htally.owner _ _ ?_, ?_⟩
        · simp [Owner.share, Disabling.share, hOld]
        · rintro (hdec | hdec)
          · simp [Owner.Decided, Disabling.Decided] at hdec
          · exact hdecided (.inr hdec)
      · have hdec : (Disabling.done Old).Decided (processorCount ι) := ⟨Old, rfl, by omega⟩
        refine ⟨rfl, .reset, htally.owner _ _ ?_, fun _ => hdecided (.inl hdec)⟩
        simp [Owner.share, Disabling.share, hOld]
    · have hdone' : ∀ Old, d ≠ .done Old := fun Old heq => hdone ⟨Old, heq⟩
      obtain ⟨d', c', hstep⟩ : ∃ d' c', d.step (processorCount ι) count = (d', c') := ⟨_, _, rfl⟩
      rw [ownerStep_disabling rfl hdone', hstep] at ho
      obtain ⟨rfl, hcr⟩ := Prod.mk.inj (Option.some.inj ho)
      obtain ⟨rfl, rfl⟩ := Prod.mk.inj hcr
      have hle : count ≤ processorCount ι := htally.le Worker.share_le (Owner.share_le _)
      have hlt : d.share (processorCount ι) = 0 → count < processorCount ι :=
        fun h0 => htally.lt_of_base Worker.share_le h0.le
      obtain ⟨hv, hne, hc, hdec, hmove⟩ := Disabling.step_spec hd hdone' hle hlt hstep
      have hhigh : d'.high = true := by
        cases d' with
        | inc => exact absurd rfl hne
        | _ => rfl
      have hown' := OwnerTrying.attempt hv
      rw [hhigh] at hown'
      refine ⟨rfl, hown', htally.owner _ _ hc, ?_⟩
      rintro (hd' | hd')
      · exact hdec hd'
      · have heq : count = processorCount ι := hdecided (.inr hd')
        by_contra hne'
        dsimp only at hne'
        have := hmove (by omega)
        omega

theorem Capturing.step_owner (h : Capturing s) (hs : step s none = some t) :
    Capturing t ∨ Round t := by
  obtain ⟨o, c, r, ho, rfl⟩ := Sync.step_owner hs
  clear hs
  obtain ⟨count, request, owner, worker⟩ := s
  obtain ⟨rfl, hown⟩ := h
  dsimp only at hown ho
  obtain ⟨rfl, ht⟩ | ⟨rfl, ht⟩ | ⟨rfl, ht⟩ | ⟨rfl, rfl, ht⟩ := hown
  · obtain ⟨rfl, hcr⟩ := Prod.mk.inj (Option.some.inj ho)
    obtain ⟨rfl, rfl⟩ := Prod.mk.inj hcr
    exact .inl ⟨rfl, .inr (.inl ⟨rfl, ht.owner _ _ (by simp)⟩)⟩
  · obtain ⟨rfl, hcr⟩ := Prod.mk.inj (Option.some.inj ho)
    obtain ⟨rfl, rfl⟩ := Prod.mk.inj hcr
    split_ifs with hN
    · -- all workers have started
      refine .inl ⟨rfl, .inr (.inr (.inl ⟨rfl, fun i => ⟨ht.ok i, fun hpc => ?_⟩⟩))⟩
      have := ht.lt started_le le_rfl (i := i) (if_pos hpc).le
      exact absurd hN this.ne
    · exact .inl ⟨rfl, .inr (.inl ⟨rfl, ht⟩)⟩
  · obtain ⟨rfl, hcr⟩ := Prod.mk.inj (Option.some.inj ho)
    obtain ⟨rfl, rfl⟩ := Prod.mk.inj hcr
    exact .inl ⟨rfl, .inr (.inr (.inr ⟨rfl, rfl, ht⟩))⟩
  · obtain ⟨rfl, hcr⟩ := Prod.mk.inj (Option.some.inj ho)
    obtain ⟨rfl, rfl⟩ := Prod.mk.inj hcr
    have hpoll := fun i => (ht i).1.trying (N := processorCount ι) (ht i).2
    have hvalid : Disabling.inc.Valid (processorCount ι) := by simp [Disabling.Valid]
    refine .inr ⟨rfl, .attempt hvalid, ⟨fun i => (hpoll i).1, ?_⟩, ?_⟩
    · change (0 : ℤ) = 0 + ∑ i, (worker i).share (processorCount ι)
      rw [Finset.sum_eq_zero fun i _ => (hpoll i).2.1]
      rfl
    · rintro (hdec | ⟨i, hdec⟩)
      · simp [Owner.Decided, Disabling.Decided] at hdec
      · exact absurd hdec (hpoll i).2.2

/-! ## The end of the rounds -/

/-- The CPU is in the loops of `__SyncProcessorDisableInterrupts`, or backs off. -/
def WorkerPc.looping (N : ℤ) : WorkerPc → Bool
  | .disabling (.done Old) => decide (Old < N)
  | .disabling _ => true
  | _ => false

/-- A worker that has done its part of the request `r`. In that of disabling the interrupts it has at
least read `ProcessorCount`. -/
inductive Done (N : ℤ) (r : SyncRequest) : Worker → Prop
  | returning {Old : ℤ} (hr : r = .disableInterrupts) (h : N ≤ Old) :
    Done N r ⟨.disabling (.done Old), .none, ⟨true, false, []⟩⟩
  | update (r' : SyncRequest) : Done N r ⟨.update, r', .after r⟩
  | idle {pc : WorkerPc} (h : pc = .readExit ∨ pc = .readSame) : Done N r ⟨pc, r, .after r⟩

theorem Done.looping {r : SyncRequest} {w : Worker} (h : Done N r w) : w.pc.looping N = false := by
  cases h with
  | returning hr hOld => simpa [WorkerPc.looping] using hOld
  | update r' => rfl
  | idle hpc => obtain rfl | rfl := hpc <;> rfl

omit [DecidableEq ι] in
theorem Round.owner_reset (h : Round s) (ho : s.owner.pc = .reset .early) :
    s.owner = ⟨.reset .early, .after .disableInterrupts⟩ := by
  have hown := h.owner
  generalize s.owner = o at hown ho
  cases hown with
  | attempt => cases ho
  | reset => rfl

omit [DecidableEq ι] in
/-- **The end of the rounds**: when the owner is about to reset the count for the early phase, every
worker is counted in; those that are no longer in the loops have read `ProcessorCount`. -/
theorem Round.done (h : Round s) (ho : s.owner.pc = .reset .early)
    (hin : ∀ i, (s.worker i).pc.looping (processorCount ι) = false) (i : ι) :
    Done (processorCount ι) .disableInterrupts (s.worker i) := by
  have hdec : s.owner.Decided (processorCount ι) := by simp [Owner.Decided, ho]
  have hc := h.decided (.inl hdec)
  have hok := h.tally.ok i
  have hshare := h.share_eq hc i
  have hin := hin i
  generalize s.worker i = w at hok hshare hin
  cases hok with
  | poll hpc => obtain rfl | rfl | rfl := hpc <;> simp [Worker.share, Cpu.init] at hshare
  | @attempt d =>
    cases d with
    | done Old => exact .returning rfl (by simpa [WorkerPc.looping] using hin)
    | _ => simp [WorkerPc.looping] at hin
  | update r => exact .update r
  | idle hpc => exact .idle hpc

end XenBus.Sync
