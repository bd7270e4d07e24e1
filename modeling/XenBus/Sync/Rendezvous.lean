import XenBus.Sync.Phases

/-!
# The phases of a rendezvous

A worker that has reported completion reads `Request` once more, to note which request it has done. If
the owner writes the next request before that, the worker notes it as done and never carries it out,
and the owner waits for ever (`not_rendezvous_of_early_request`). `rendezvous_of_inStep` says that
nothing else goes wrong: as long as the owner writes a request when all workers poll, and resets the
count for the early phase when none of them still reads it, each worker carries out every phase once
and in order, and the owner's wait can always end.
-/

namespace XenBus.Sync

open Transition

variable {ι : Type*} [Fintype ι] {s t : State ι} {N count : ℤ} {ph : Phase} {w w' : Worker}

/-! ## The property -/

/-- The phases that a worker carries out. -/
def phases : List SyncRequest := [.disableInterrupts, .runEarly, .enableInterrupts, .runLate]

/-- The owner is in `__SyncWait`. -/
def OwnerPc.waiting : OwnerPc → Bool
  | .captureWait => true
  | .wait _ => true
  | _ => false

/-- A worker carries out the phases once and in order, and all of them before it exits. -/
structure Orderly (w : Worker) : Prop where
  inOrder : w.cpu.Ran <+: phases
  complete : w.pc = .exited → w.cpu.Ran = phases

/-- **The rendezvous.** -/
structure Rendezvous [DecidableEq ι] (s : State ι) : Prop where
  orderly : ∀ i, Orderly (s.worker i)
  /-- The count can still reach `ProcessorCount`. -/
  progress : s.owner.pc.waiting = true →
    ∃ t, Reaches step Free s t ∧ t.CompletionCount = processorCount ι

/-! ## Progress -/

/-- While the count is not `ProcessorCount`, some worker is missing. -/
theorem Tally.exists_share_ne {Ok : Worker → Prop} {share : Worker → ℤ} (h : Tally Ok share 1 s)
    (hc : s.CompletionCount ≠ processorCount ι) : ∃ i, share (s.worker i) ≠ 1 := by
  by_contra hall
  push Not at hall
  apply hc
  rw [h.count, Finset.sum_congr rfl fun i _ => hall i, processorCount]
  simp [add_comm]

section Progress

variable [DecidableEq ι]

/-- **The progress of a phase**: if a worker that is missing can take a step, and each of its steps
brings it closer, the count can reach `ProcessorCount`. -/
theorem Tally.progress {P : State ι → Prop} {Ok : Worker → Prop} {share : Worker → ℤ}
    (rank : Worker → ℕ) (htally : ∀ s, P s → Tally Ok share 1 s)
    (hstep : ∀ s i t, P s → step s (some i) = some t → P t)
    (hrank : ∀ s i, P s → share (s.worker i) ≠ 1 → ∃ w c,
      workerStep (processorCount ι) s.CompletionCount s.Request (s.worker i) = some (w, c) ∧
        rank w < rank (s.worker i))
    (h : P s) : ∃ t, Reaches step Free s t ∧ t.CompletionCount = processorCount ι := by
  have hnext : ∀ s, P s → ¬ s.CompletionCount = processorCount ι → ∃ a t, Free s a ∧
      step s a = some t ∧ P t ∧ ∑ i, rank (t.worker i) < ∑ i, rank (s.worker i) := by
    intro s hs hN
    obtain ⟨i, hi⟩ := (htally s hs).exists_share_ne hN
    obtain ⟨w, c, hw, hlt⟩ := hrank s i hs hi
    have hst : step s (some i) =
        some { s with worker := Function.update s.worker i w, CompletionCount := c } :=
      congrArg (Option.map _) hw
    exact ⟨some i, _, trivial, hst, hstep s i _ hs hst, sum_update_lt rank s.worker i hlt⟩
  obtain ⟨t, ht, -, hN⟩ :=
    Reaches.eventually (fun s : State ι => ∑ i, rank (s.worker i)) hnext s h
  exact ⟨t, ht, hN⟩

end Progress

/-! ## A phase -/

/-- A worker while the owner waits for the end of a phase. -/
inductive InPhase (N : ℤ) (ph : Phase) : Worker → Prop
  | poll {pc : WorkerPc} (h : pc = .readExit ∨ pc = .readSame ∨ pc = .readSwitch) :
    InPhase N ph ⟨pc, ph.prev, .after ph.prev⟩
  | work : InPhase N ph ⟨.work ph, ph.prev, .after ph.prev⟩
  | inc : InPhase N ph ⟨.inc ph, ph.prev, .after ph.request⟩
  | done {w : Worker} (h : Done N ph.request w) : InPhase N ph w

/-- 1 if the worker has reported completion. -/
def Phase.share (ph : Phase) (w : Worker) : ℤ :=
  if w.cpu = .after ph.request ∧ w.pc ≠ .inc ph then 1 else 0

/-- How many steps the worker is from reporting completion. -/
def Phase.rank (ph : Phase) (w : Worker) : ℕ :=
  if w.cpu = .after ph.request then (if w.pc = .inc ph then 1 else 0)
  else match w.pc with
    | .readExit => 5
    | .readSame => 4
    | .readSwitch => 3
    | _ => 2

/-- The owner waits for the end of a phase. -/
structure Collecting (ph : Phase) (s : State ι) : Prop where
  request : s.Request = ph.request
  owner : s.owner = ⟨.wait ph, .after ph.request⟩
  tally : Tally (InPhase (processorCount ι) ph) ph.share 1 s

theorem Phase.after_prev_ne (hph : ph ≠ .release) :
    Cpu.after ph.prev ≠ .after ph.request ∧ ph.request ≠ ph.prev ∧ ph.request ≠ .exit ∧
      ph.request ≠ .disableInterrupts ∧ dispatch ph.request = .work ph := by
  cases ph with
  | release => exact absurd rfl hph
  | _ => simp [Cpu.after, Phase.prev, Phase.request, dispatch]

theorem Done.share_phase (hph : ph ≠ .release) (h : Done N ph.request w) : ph.share w = 1 := by
  cases h with
  | returning hr => exact absurd hr (Phase.after_prev_ne hph).2.2.2.1
  | update r => simp [Phase.share]
  | idle hpc => obtain rfl | rfl := hpc <;> simp [Phase.share]

/-- **A step of a worker in a phase.** -/
theorem InPhase.step (hph : ph ≠ .release) (h : InPhase N ph w) {c : ℤ}
    (hs : workerStep N count ph.request w = some (w', c)) :
    InPhase N ph w' ∧ c = count + ph.share w' - ph.share w ∧
      (ph.share w ≠ 1 → ph.rank w' < ph.rank w) := by
  obtain ⟨hafter, hprev, hexit, hdis, hdispatch⟩ := Phase.after_prev_ne hph
  cases h with
  | poll hpc =>
    obtain rfl | rfl | rfl := hpc
    · obtain ⟨rfl, rfl⟩ := Prod.mk.inj (Option.some.inj hs)
      rw [if_neg hexit]
      exact ⟨.poll (by simp), by simp [Phase.share, hafter], by simp [Phase.rank, hafter]⟩
    · obtain ⟨rfl, rfl⟩ := Prod.mk.inj (Option.some.inj hs)
      rw [if_neg hprev]
      exact ⟨.poll (by simp), by simp [Phase.share, hafter], by simp [Phase.rank, hafter]⟩
    · obtain ⟨rfl, rfl⟩ := Prod.mk.inj (Option.some.inj hs)
      rw [hdispatch]
      exact ⟨.work, by simp [Phase.share, hafter], by simp [Phase.rank, hafter]⟩
  | work =>
    obtain ⟨rfl, rfl⟩ := Prod.mk.inj (Option.some.inj hs)
    rw [Phase.perform_after]
    exact ⟨.inc, by simp [Phase.share, hafter], by simp [Phase.rank, hafter]⟩
  | inc =>
    obtain ⟨rfl, rfl⟩ := Prod.mk.inj (Option.some.inj hs)
    rw [if_neg hph]
    exact ⟨.done (.update _), by simp [Phase.share], by simp [Phase.rank]⟩
  | done hdone =>
    obtain ⟨hdone', rfl, -⟩ := hdone.step hexit hs
    have hshare := hdone.share_phase hph
    exact ⟨.done hdone', by simp [hshare, hdone'.share_phase hph], fun hne => absurd hshare hne⟩

/-- A worker that has not exited can take a step. -/
theorem exists_workerStep {r : SyncRequest} (h : w.pc ≠ .exited) :
    ∃ w' c, workerStep N count r w = some (w', c) := by
  obtain ⟨pc, Request, cpu⟩ := w
  cases pc with
  | exited => exact absurd rfl h
  | disabling d => cases d <;> exact ⟨_, _, rfl⟩
  | _ => exact ⟨_, _, rfl⟩

theorem InPhase.ne_exited (h : InPhase N ph w) : w.pc ≠ .exited := by
  cases h with
  | poll hpc => obtain rfl | rfl | rfl := hpc <;> nofun
  | work => nofun
  | inc => nofun
  | done hdone =>
    cases hdone with
    | returning => nofun
    | update r => nofun
    | idle hpc => obtain rfl | rfl := hpc <;> nofun

theorem Phase.share_le (ph : Phase) (w : Worker) : ph.share w ≤ 1 := by
  unfold Phase.share
  split_ifs <;> omega

/-- A worker that has been counted in has done its part. -/
theorem InPhase.done_of_share (hph : ph ≠ .release) (h : InPhase N ph w) (hs : ¬ ph.share w ≤ 0) :
    Done N ph.request w := by
  have hafter := (Phase.after_prev_ne hph).1
  cases h with
  | poll hpc => simp [Phase.share, hafter] at hs
  | work => simp [Phase.share, hafter] at hs
  | inc => simp [Phase.share] at hs
  | done hdone => exact hdone

/-- The phase after. -/
def Phase.next : Phase → Phase
  | .early => .enable
  | .enable => .late
  | .late => .release
  | .release => .release

theorem Phase.after_eq (hph : ph ≠ .release) : ph.after = .reset ph.next := by
  cases ph with
  | release => exact absurd rfl hph
  | _ => rfl

theorem Phase.prev_next (hph : ph ≠ .release) : ph.next.prev = ph.request := by
  cases ph with
  | release => exact absurd rfl hph
  | _ => rfl

/-! ## The release -/

/-- A worker while the owner waits for the workers to exit. -/
inductive InRelease : Worker → Prop
  | poll {pc : WorkerPc} (r : SyncRequest)
    (h : pc = .update ∨ pc = .readExit ∨ pc = .readSame ∨ pc = .readSwitch) :
    InRelease ⟨pc, r, .after .exit⟩
  | inc (r : SyncRequest) : InRelease ⟨.inc .release, r, .after .exit⟩
  | exited (r : SyncRequest) : InRelease ⟨.exited, r, .after .exit⟩

/-- 1 if the worker has exited. -/
def exitShare (w : Worker) : ℤ := if w.pc = .exited then 1 else 0

/-- How many steps the worker is from its exit. -/
def exitRank (w : Worker) : ℕ :=
  match w.pc with
  | .readSame => 5
  | .readSwitch => 4
  | .update => 3
  | .readExit => 2
  | .inc _ => 1
  | _ => 0

/-- The owner waits for the workers to exit. -/
structure Releasing (s : State ι) : Prop where
  request : s.Request = .exit
  owner : s.owner = ⟨.wait .release, .after .exit⟩
  tally : Tally InRelease exitShare 1 s

theorem exitShare_le (w : Worker) : exitShare w ≤ 1 := by
  unfold exitShare
  split_ifs <;> omega

/-- **A step of a worker that is released.** -/
theorem InRelease.step (h : InRelease w) {c : ℤ} (hs : workerStep N count .exit w = some (w', c)) :
    InRelease w' ∧ c = count + exitShare w' - exitShare w ∧ exitRank w' < exitRank w := by
  cases h with
  | poll r hpc =>
    obtain rfl | rfl | rfl | rfl := hpc
    · obtain ⟨rfl, rfl⟩ := Prod.mk.inj (Option.some.inj hs)
      exact ⟨.poll _ (by simp), by simp [exitShare], by simp [exitRank]⟩
    · obtain ⟨rfl, rfl⟩ := Prod.mk.inj (Option.some.inj hs)
      rw [if_pos rfl]
      exact ⟨.inc r, by simp [exitShare], by simp [exitRank]⟩
    · obtain ⟨rfl, rfl⟩ := Prod.mk.inj (Option.some.inj hs)
      split_ifs
      · exact ⟨.poll _ (by simp), by simp [exitShare], by simp [exitRank]⟩
      · exact ⟨.poll _ (by simp), by simp [exitShare], by simp [exitRank]⟩
    · obtain ⟨rfl, rfl⟩ := Prod.mk.inj (Option.some.inj hs)
      exact ⟨.poll _ (by simp [dispatch]), by simp [exitShare, dispatch],
        by simp [exitRank, dispatch]⟩
  | inc r =>
    obtain ⟨rfl, rfl⟩ := Prod.mk.inj (Option.some.inj hs)
    rw [if_pos rfl]
    exact ⟨.exited r, by simp [exitShare], by simp [exitRank]⟩
  | exited r => cases hs

/-- The rendezvous has ended. -/
structure Ended (s : State ι) : Prop where
  owner : s.owner.pc = .ended
  worker : ∀ i, (s.worker i).pc = .exited ∧ (s.worker i).cpu = .after .exit

/-! ## Runs -/

/-- The owner is about to write one of the requests that the workers carry out. -/
def OwnerPc.requesting : OwnerPc → Bool
  | .request ph => decide (ph ≠ .release)
  | _ => false

/-- The condition on a step: the owner resets the count for the early phase when no worker is in the
loops of `__SyncProcessorDisableInterrupts`, and requests a phase when every worker polls. -/
def InStep (s : State ι) (a : Option ι) : Prop :=
  a = none →
    (s.owner.pc = .reset .early → ∀ i, (s.worker i).pc.looping (processorCount ι) = false) ∧
    (s.owner.pc.requesting = true →
      ∀ i, (s.worker i).pc = .readExit ∨ (s.worker i).pc = .readSame)

instance (s : State ι) (a : Option ι) : Decidable (InStep s a) :=
  inferInstanceAs (Decidable (_ → _ ∧ _))

/-- Where a run is that keeps to the condition. -/
inductive Place (s : State ι) : Prop
  | capturing (h : Capturing s)
  | round (h : Round s)
  | between (ph : Phase) (h : Between ph s)
  | collecting (ph : Phase) (hph : ph ≠ .release) (h : Collecting ph s)
  | releasing (h : Releasing s)
  | ended (h : Ended s)

/-- A request finds every worker polling. -/
theorem Between.collecting (h : Between ph s) (hph : ph ≠ .release) (hc : s.CompletionCount = 1)
    (hpoll : ∀ i, (s.worker i).pc = .readExit ∨ (s.worker i).pc = .readSame) :
    Collecting ph { s with owner := ⟨.wait ph, .after ph.request⟩, Request := ph.request } := by
  have hok : ∀ i, InPhase (processorCount ι) ph (s.worker i) ∧ ph.share (s.worker i) = 0 :=
    fun i => by
      have hdone := h.worker i
      have hpoll := hpoll i
      generalize s.worker i = w at hdone hpoll
      cases hdone with
      | returning => simp at hpoll
      | update r => simp at hpoll
      | idle hpc =>
        exact ⟨.poll (by tauto), by simp [Phase.share, (Phase.after_prev_ne hph).1]⟩
  refine ⟨rfl, rfl, fun i => (hok i).1, ?_⟩
  show s.CompletionCount = 1 + ∑ i, ph.share (s.worker i)
  rw [Finset.sum_eq_zero fun i _ => (hok i).2, hc]
  rfl

/-- The last request is seen by every worker, wherever it is. -/
theorem Between.releasing (h : Between .release s) (hc : s.CompletionCount = 1) :
    Releasing { s with owner := ⟨.wait .release, .after .exit⟩, Request := .exit } := by
  have hok : ∀ i, InRelease (s.worker i) ∧ exitShare (s.worker i) = 0 := fun i => by
    have hdone := h.worker i
    generalize s.worker i = w at hdone
    cases hdone with
    | returning hr => cases hr
    | update r => exact ⟨.poll r (by simp), by simp [exitShare]⟩
    | idle hpc =>
      obtain rfl | rfl := hpc
      · exact ⟨.poll _ (by simp), by simp [exitShare]⟩
      · exact ⟨.poll _ (by simp), by simp [exitShare]⟩
  refine ⟨rfl, rfl, fun i => (hok i).1, ?_⟩
  show s.CompletionCount = 1 + ∑ i, exitShare (s.worker i)
  rw [Finset.sum_eq_zero fun i _ => (hok i).2, hc]
  rfl

variable [DecidableEq ι]

theorem Collecting.step_worker (h : Collecting ph s) (hph : ph ≠ .release) {i : ι}
    (hs : step s (some i) = some t) : Collecting ph t := by
  obtain ⟨w, c, hw, rfl⟩ := Sync.step_worker hs
  rw [h.request] at hw
  obtain ⟨hok, hc, -⟩ := (h.tally.ok i).step hph hw
  exact ⟨h.request, h.owner, h.tally.update i hok hc⟩

/-- The end of the wait: every worker has reported completion. -/
theorem Collecting.step_owner (h : Collecting ph s) (hph : ph ≠ .release)
    (hs : step s none = some t) : Collecting ph t ∨ Between ph.next t := by
  obtain ⟨o, c, r, ho, rfl⟩ := Sync.step_owner hs
  clear hs
  obtain ⟨count, request, owner, worker⟩ := s
  obtain ⟨rfl, rfl, ht⟩ := h
  dsimp only at ho
  by_cases hN : count = processorCount ι
  · rw [ownerStep_wait hN, if_neg hph, if_neg hph] at ho
    obtain ⟨rfl, hcr⟩ := Prod.mk.inj (Option.some.inj ho)
    obtain ⟨rfl, rfl⟩ := Prod.mk.inj hcr
    refine .inr ⟨(Phase.prev_next hph).symm, ?_, fun i => ?_⟩
    · rw [Phase.after_eq hph, ← Phase.prev_next hph]
      exact .reset count
    · rw [Phase.prev_next hph]
      exact (ht.ok i).done_of_share hph fun hle =>
        absurd hN (ht.lt ph.share_le le_rfl (i := i) hle).ne
  · rw [ownerStep_wait_of_ne hN] at ho
    obtain ⟨rfl, hcr⟩ := Prod.mk.inj (Option.some.inj ho)
    obtain ⟨rfl, rfl⟩ := Prod.mk.inj hcr
    exact .inl ⟨rfl, rfl, ht⟩

theorem Releasing.step_worker (h : Releasing s) {i : ι} (hs : step s (some i) = some t) :
    Releasing t := by
  obtain ⟨w, c, hw, rfl⟩ := Sync.step_worker hs
  rw [h.request] at hw
  obtain ⟨hok, hc, -⟩ := (h.tally.ok i).step hw
  exact ⟨h.request, h.owner, h.tally.update i hok hc⟩

theorem Releasing.step_owner (h : Releasing s) (hs : step s none = some t) :
    Releasing t ∨ Ended t := by
  obtain ⟨o, c, r, ho, rfl⟩ := Sync.step_owner hs
  clear hs
  obtain ⟨count, request, owner, worker⟩ := s
  obtain ⟨rfl, rfl, ht⟩ := h
  dsimp only at ho
  by_cases hN : count = processorCount ι
  · rw [ownerStep_wait hN] at ho
    obtain ⟨rfl, hcr⟩ := Prod.mk.inj (Option.some.inj ho)
    refine .inr ⟨rfl, fun i => ?_⟩
    have hok : InRelease (worker i) := ht.ok i
    have hshare : ¬ exitShare (worker i) ≤ 0 := fun hle =>
      absurd hN (ht.lt exitShare_le le_rfl (i := i) hle).ne
    show (worker i).pc = .exited ∧ (worker i).cpu = .after .exit
    generalize worker i = w at hok hshare
    cases hok with
    | poll r hpc => obtain rfl | rfl | rfl | rfl := hpc <;> simp [exitShare] at hshare
    | inc r => simp [exitShare] at hshare
    | exited r => exact ⟨rfl, rfl⟩
  · rw [ownerStep_wait_of_ne hN] at ho
    obtain ⟨rfl, hcr⟩ := Prod.mk.inj (Option.some.inj ho)
    obtain ⟨rfl, rfl⟩ := Prod.mk.inj hcr
    exact .inl ⟨rfl, rfl, ht⟩

theorem Ended.not_step (h : Ended s) (a : Option ι) : step s a = none := by
  cases a with
  | none => simp [step, ownerStep, h.owner]
  | some i => simp [step, workerStep, (h.worker i).1]

theorem Place.step {a : Option ι} (h : Place s) (ha : InStep s a) (hs : step s a = some t) :
    Place t := by
  cases h with
  | capturing h =>
    cases a with
    | none => exact (h.step_owner hs).elim .capturing .round
    | some i => exact .capturing (h.worker hs)
  | round h =>
    cases a with
    | none =>
      by_cases ho : s.owner.pc = .reset .early
      · exact .between .early (h.step_reset ho ((ha rfl).1 ho) hs).1
      · exact .round (h.step_owner ho hs)
    | some i => exact .round (h.worker hs)
  | between ph h =>
    cases a with
    | none =>
      obtain ⟨hb, -⟩ | ⟨hpc, hc, rfl⟩ := h.step_owner hs
      · exact .between ph hb
      · by_cases hph : ph = .release
        · subst hph
          exact .releasing (h.releasing hc)
        · have hreq : s.owner.pc.requesting = true := by simp [hpc, OwnerPc.requesting, hph]
          exact .collecting ph hph (h.collecting hph hc ((ha rfl).2 hreq))
    | some i => exact .between ph (h.step_worker hs).1
  | collecting ph hph h =>
    cases a with
    | none => exact (h.step_owner hph hs).elim (.collecting ph hph) (.between ph.next)
    | some i => exact .collecting ph hph (h.step_worker hph hs)
  | releasing h =>
    cases a with
    | none => exact (h.step_owner hs).elim .releasing .ended
    | some i => exact .releasing (h.step_worker hs)
  | ended h => simp [h.not_step a] at hs

/-! ## The phases are carried out in order -/

theorem after_inOrder (r : SyncRequest) : (Cpu.after r).Ran <+: phases := by
  cases r <;> decide

theorem Done.orderly {r : SyncRequest} (h : Done N r w) : Orderly w := by
  cases h with
  | returning hr hOld => exact ⟨after_inOrder .none, nofun⟩
  | update r' => exact ⟨after_inOrder r, nofun⟩
  | idle hpc =>
    refine ⟨after_inOrder r, ?_⟩
    obtain rfl | rfl := hpc <;> nofun

theorem Fresh.orderly (h : Fresh w) : Orderly w := by
  cases h <;> exact ⟨after_inOrder .none, nofun⟩

theorem Trying.orderly (h : Trying N w) : Orderly w := by
  cases h with
  | poll hpc =>
    refine ⟨after_inOrder .none, ?_⟩
    obtain rfl | rfl | rfl := hpc <;> nofun
  | attempt hd => exact ⟨after_inOrder .none, nofun⟩
  | update r => exact ⟨after_inOrder .disableInterrupts, nofun⟩
  | idle hpc =>
    refine ⟨after_inOrder .disableInterrupts, ?_⟩
    obtain rfl | rfl := hpc <;> nofun

theorem InPhase.orderly (h : InPhase N ph w) : Orderly w := by
  refine ⟨?_, fun hpc => absurd hpc h.ne_exited⟩
  cases h with
  | poll hpc => exact after_inOrder ph.prev
  | work => exact after_inOrder ph.prev
  | inc => exact after_inOrder ph.request
  | done hdone => exact hdone.orderly.inOrder

theorem InRelease.orderly (h : InRelease w) : Orderly w := by
  cases h <;> exact ⟨after_inOrder .exit, fun _ => rfl⟩

omit [DecidableEq ι] in
theorem Place.orderly (h : Place s) (i : ι) : Orderly (s.worker i) := by
  cases h with
  | capturing h => exact (h.fresh i).orderly
  | round h => exact (h.tally.ok i).orderly
  | between ph h => exact (h.worker i).orderly
  | collecting ph hph h => exact (h.tally.ok i).orderly
  | releasing h => exact (h.tally.ok i).orderly
  | ended h =>
    have hcpu := (h.worker i).2
    exact ⟨hcpu ▸ after_inOrder .exit, fun _ => by rw [hcpu]; rfl⟩

/-! ## The waits can end -/

omit [DecidableEq ι] in
theorem Capturing.tally (h : Capturing s) (ho : s.owner.pc = .captureWait) :
    Tally Fresh started 1 s := by
  obtain ⟨ho', -⟩ | ⟨-, ht⟩ | ⟨ho', -⟩ | ⟨ho', -⟩ := h.owner
  · simp [ho'] at ho
  · exact ht
  · simp [ho'] at ho
  · simp [ho'] at ho

theorem Capturing.progress (h : Capturing s) (ho : s.owner.pc = .captureWait) :
    ∃ t, Reaches step Free s t ∧ t.CompletionCount = processorCount ι := by
  apply Tally.progress (P := fun s => Capturing s ∧ s.owner.pc = .captureWait)
    (fun w => if w.pc = .start then 1 else 0) (fun s hs => hs.1.tally hs.2) ?_ ?_ ⟨h, ho⟩
  · intro s i t hs hst
    obtain ⟨w, c, -, rfl⟩ := step_worker hst
    exact ⟨hs.1.worker hst, hs.2⟩
  · intro s i hs hshare
    have hpc : (s.worker i).pc = .start := by
      by_contra hpc
      exact hshare (if_neg hpc)
    refine ⟨_, _, by simp only [workerStep, hpc]; rfl, ?_⟩
    simp [hpc]

theorem Collecting.progress (h : Collecting ph s) (hph : ph ≠ .release) :
    ∃ t, Reaches step Free s t ∧ t.CompletionCount = processorCount ι := by
  apply Tally.progress ph.rank (fun s hs => hs.tally) (fun s i t hs hst => hs.step_worker hph hst)
    ?_ h
  intro s i hs hshare
  have hok := hs.tally.ok i
  obtain ⟨w, c, hw⟩ := exists_workerStep hok.ne_exited
  refine ⟨w, c, hw, ?_⟩
  rw [hs.request] at hw
  exact (hok.step hph hw).2.2 hshare

theorem Releasing.progress (h : Releasing s) :
    ∃ t, Reaches step Free s t ∧ t.CompletionCount = processorCount ι := by
  apply Tally.progress exitRank (fun s hs => hs.tally) (fun s i t hs hst => hs.step_worker hst) ?_ h
  intro s i hs hshare
  have hpc : (s.worker i).pc ≠ .exited := fun hpc => hshare (if_pos hpc)
  obtain ⟨w, c, hw⟩ := exists_workerStep hpc
  refine ⟨w, c, hw, ?_⟩
  rw [hs.request] at hw
  exact ((hs.tally.ok i).step hw).2.2

theorem Place.progress (h : Place s) (hw : s.owner.pc.waiting = true) :
    ∃ t, Reaches Sync.step Free s t ∧ t.CompletionCount = processorCount ι := by
  cases h with
  | capturing h =>
    by_cases ho : s.owner.pc = .captureWait
    · exact h.progress ho
    · obtain ⟨ho', -⟩ | ⟨ho', -⟩ | ⟨ho', -⟩ | ⟨ho', -⟩ := h.owner <;>
        simp [ho', OwnerPc.waiting] at hw ho
  | round h =>
    have hown := h.owner
    generalize s.owner = o at hown hw
    cases hown <;> simp [OwnerPc.waiting] at hw
  | between ph h =>
    have hown := h.owner
    generalize s.owner = o, s.CompletionCount = n at hown hw
    cases hown <;> simp [OwnerPc.waiting] at hw
  | collecting ph hph h => exact h.progress hph
  | releasing h => exact h.progress
  | ended h => simp [h.owner, OwnerPc.waiting] at hw

/-- **No phase is skipped or lost**: in every run in which the owner keeps to the condition, each worker
carries out the phases once and in order before it exits, and whenever the owner waits, the count can
still reach `ProcessorCount`. -/
theorem rendezvous_of_inStep (h : Reaches step InStep (init ι) s) : Rendezvous s := by
  have hplace : Place s :=
    h.invariant (.capturing capturing_init) fun _ _ _ hs ha hst => hs.step ha hst
  exact ⟨hplace.orderly, hplace.progress⟩

/-- The steps of an owner (`none`) and a worker, up to the end of `SyncDisableInterrupts`. -/
def disableRun : List (Option Unit) :=
  [some (), none, none, none, none] ++
    [some (), some (), some (), some (), none, none, none, none, some (), some (), some (), some ()]

/-- Their steps through one of the next three phases. -/
def phaseRun : List (Option Unit) :=
  [none, none, none, none, some (), some (), some (), some (), some (), some (), none]

/-- An owner and a worker, through all phases. -/
theorem rendezvous_of_inStep_ended : ∃ s : State Unit,
    guardedRun step InStep (init Unit) (disableRun ++ phaseRun ++ phaseRun ++ phaseRun ++
      [none, none, none, some (), some (), none]) = some s ∧
      s.owner.pc = .ended ∧ (s.worker ()).pc = .exited ∧ Rendezvous s := by
  obtain ⟨s, hs, ho, hw⟩ : ∃ s : State Unit, guardedRun step InStep (init Unit)
      (disableRun ++ phaseRun ++ phaseRun ++ phaseRun ++
        [none, none, none, some (), some (), none]) = some s ∧
      s.owner.pc = .ended ∧ (s.worker ()).pc = .exited := ⟨_, rfl, rfl, rfl⟩
  exact ⟨s, hs, ho, hw, rendezvous_of_inStep (reaches_of_guardedRun hs)⟩

/-! ## A request too soon -/

/-- The worker has noted the request to enable interrupts as done when it was not. -/
structure Stuck (s : State Unit) : Prop where
  request : s.Request = .enableInterrupts
  owner : s.owner = ⟨.wait .enable, .after .enableInterrupts⟩
  count : s.CompletionCount = 1
  worker : (s.worker ()).Request = .enableInterrupts ∧
    ((s.worker ()).pc = .readExit ∨ (s.worker ()).pc = .readSame)

theorem Stuck.step {s t : State Unit} {a : Option Unit} (h : Stuck s) (hs : Sync.step s a = some t) :
    Stuck t := by
  cases a with
  | none =>
    obtain ⟨o, c, r, ho, rfl⟩ := step_owner hs
    have hN : ¬ s.CompletionCount = processorCount Unit := by
      rw [h.count]
      decide
    rw [h.owner, ownerStep_wait_of_ne hN] at ho
    obtain ⟨rfl, hcr⟩ := Prod.mk.inj (Option.some.inj ho)
    obtain ⟨rfl, rfl⟩ := Prod.mk.inj hcr
    exact ⟨h.request, rfl, h.count, h.worker⟩
  | some i =>
    obtain ⟨w, c, hw, rfl⟩ := step_worker hs
    obtain ⟨hsame, hpc | hpc⟩ := h.worker
    · simp only [workerStep, hpc, h.request, Option.some.injEq, Prod.mk.injEq] at hw
      obtain ⟨rfl, rfl⟩ := hw
      exact ⟨h.request, h.owner, h.count, hsame, .inr rfl⟩
    · simp only [workerStep, hpc, h.request, hsame, if_pos, Option.some.injEq, Prod.mk.injEq] at hw
      obtain ⟨rfl, rfl⟩ := hw
      exact ⟨h.request, h.owner, h.count, rfl, .inl rfl⟩

/-- **The rendezvous can freeze**: the worker has counted itself in for the early phase, the owner goes
on and requests interrupts to be enabled before the worker notes the request that it has done. -/
theorem not_rendezvous_of_early_request :
    ¬ ∀ s : State Unit, Reaches step Free (init Unit) s → Rendezvous s := by
  intro h
  obtain ⟨s, hs⟩ : ∃ s, run step (init Unit)
      (disableRun ++ [none, none, none, none, some (), some (), some (), some (), some (), none] ++
        [none, none, none, none, some ()]) = some s := ⟨_, rfl⟩
  have hstuck : Stuck s := by
    obtain rfl := Option.some.inj hs
    exact ⟨rfl, rfl, rfl, rfl, .inl rfl⟩
  have hwait : s.owner.pc.waiting = true := by rw [hstuck.owner]; rfl
  obtain ⟨t, ht, hN⟩ := (h s (reaches_of_run hs)).progress hwait
  have hstuck' : Stuck t := ht.invariant hstuck fun _ _ _ hs _ hst => hs.step hst
  rw [hstuck'.count] at hN
  revert hN
  decide

end XenBus.Sync
