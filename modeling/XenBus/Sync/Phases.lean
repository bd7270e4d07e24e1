import XenBus.Sync.Disable

/-!
# Between two phases

When a phase has ended, every worker has done its part and either polls for the next request or is
about to note down which request it has done (`Done`). The owner resets the count, does its own part of
the next phase, and counts itself in; then it writes the next request (`Between`).
-/

namespace XenBus.Sync

open Transition

variable {ι : Type*} [Fintype ι] {s t : State ι} {N count : ℤ} {ph : Phase} {w w' : Worker}

@[simp] theorem Phase.perform_after (ph : Phase) :
    ph.perform (.after ph.prev) = .after ph.request := by
  cases ph <;> rfl

theorem Phase.prev_ne_exit (ph : Phase) : ph.prev ≠ .exit := by
  cases ph <;> nofun

/-- The worker is in `__SyncProcessorDisableInterrupts`. -/
def WorkerPc.inRoutine : WorkerPc → Bool
  | .disabling _ => true
  | _ => false

/-- A worker that has done its part of a request and still finds that request does nothing to the
count. -/
theorem Done.step {r : SyncRequest} {c : ℤ} (hr : r ≠ .exit) (h : Done N r w)
    (hs : workerStep N count r w = some (w', c)) :
    Done N r w' ∧ c = count ∧ w'.pc.inRoutine = false := by
  cases h with
  | @returning Old hdis hOld =>
    obtain ⟨rfl, rfl⟩ := Prod.mk.inj (Option.some.inj hs)
    subst hdis
    rw [if_neg (by omega)]
    exact ⟨.update _, rfl, rfl⟩
  | update r' =>
    obtain ⟨rfl, rfl⟩ := Prod.mk.inj (Option.some.inj hs)
    exact ⟨.idle (.inl rfl), rfl, rfl⟩
  | idle hpc =>
    obtain rfl | rfl := hpc
    · obtain ⟨rfl, rfl⟩ := Prod.mk.inj (Option.some.inj hs)
      rw [if_neg hr]
      exact ⟨.idle (.inr rfl), rfl, rfl⟩
    · obtain ⟨rfl, rfl⟩ := Prod.mk.inj (Option.some.inj hs)
      rw [if_pos rfl]
      exact ⟨.idle (.inl rfl), rfl, rfl⟩

/-! ## The wait -/

theorem ownerStep_wait {cpu : Cpu} {r : SyncRequest} (hN : count = N) :
    ownerStep N count r ⟨.wait ph, cpu⟩ =
      some (⟨ph.after, cpu⟩, if ph = .release then 0 else count,
        if ph = .release then .none else r) :=
  if_pos hN

theorem ownerStep_wait_of_ne {cpu : Cpu} {r : SyncRequest} (hN : ¬ count = N) :
    ownerStep N count r ⟨.wait ph, cpu⟩ = some (⟨.wait ph, cpu⟩, count, r) :=
  if_neg hN

/-! ## Between two phases -/

/-- The owner between the phases: what it has done, with the count. -/
inductive Starting (ph : Phase) : Owner → ℤ → Prop
  | reset (count : ℤ) : Starting ph ⟨.reset ph, .after ph.prev⟩ count
  | work (h : ph ≠ .release) : Starting ph ⟨.work ph, .after ph.prev⟩ 0
  | inc : Starting ph ⟨.inc ph, .after ph.request⟩ 0
  | request : Starting ph ⟨.request ph, .after ph.request⟩ 1

/-- The phase before `ph` has ended for all CPUs, and the request of `ph` is not yet written. -/
structure Between (ph : Phase) (s : State ι) : Prop where
  request : s.Request = ph.prev
  owner : Starting ph s.owner s.CompletionCount
  worker : ∀ i, Done (processorCount ι) ph.prev (s.worker i)

variable [DecidableEq ι]

theorem Between.step_worker (h : Between ph s) {i : ι} (hs : step s (some i) = some t) :
    Between ph t ∧ t.owner = s.owner ∧
      ∀ j, (t.worker j).pc.inRoutine = true → (s.worker j).pc.inRoutine = true := by
  obtain ⟨w, c, hw, rfl⟩ := Sync.step_worker hs
  rw [h.request] at hw
  obtain ⟨hdone, rfl, hin⟩ := (h.worker i).step ph.prev_ne_exit hw
  refine ⟨⟨h.request, h.owner, forall_update h.worker i hdone⟩, rfl, fun j hj => ?_⟩
  by_cases hij : j = i
  · subst hij
    change (Function.update s.worker j w j).pc.inRoutine = true at hj
    rw [Function.update_self, hin] at hj
    cases hj
  · change (Function.update s.worker i w j).pc.inRoutine = true at hj
    rwa [Function.update_of_ne hij] at hj

/-- **A step of the owner between two phases**: it stays between them, or writes the request. -/
theorem Between.step_owner (h : Between ph s) (hs : step s none = some t) :
    (Between ph t ∧ s.owner.pc ≠ .request ph) ∨
      s.owner.pc = .request ph ∧ s.CompletionCount = 1 ∧
        t = { s with owner := ⟨.wait ph, .after ph.request⟩, Request := ph.request } := by
  obtain ⟨o, c, r, ho, rfl⟩ := Sync.step_owner hs
  clear hs
  obtain ⟨count, request, owner, worker⟩ := s
  obtain ⟨rfl, hown, hworker⟩ := h
  dsimp only at hown ho
  cases hown with
  | reset =>
    obtain ⟨rfl, hcr⟩ := Prod.mk.inj (Option.some.inj ho)
    obtain ⟨rfl, rfl⟩ := Prod.mk.inj hcr
    refine .inl ⟨⟨rfl, ?_, hworker⟩, by simp⟩
    dsimp only
    split_ifs with hph
    · subst hph
      exact .inc
    · exact .work hph
  | work =>
    obtain ⟨rfl, hcr⟩ := Prod.mk.inj (Option.some.inj ho)
    obtain ⟨rfl, rfl⟩ := Prod.mk.inj hcr
    refine .inl ⟨⟨rfl, ?_, hworker⟩, by simp⟩
    rw [Phase.perform_after]
    exact .inc
  | inc =>
    obtain ⟨rfl, hcr⟩ := Prod.mk.inj (Option.some.inj ho)
    obtain ⟨rfl, rfl⟩ := Prod.mk.inj hcr
    exact .inl ⟨⟨rfl, .request, hworker⟩, by simp⟩
  | request =>
    obtain ⟨rfl, hcr⟩ := Prod.mk.inj (Option.some.inj ho)
    obtain ⟨rfl, rfl⟩ := Prod.mk.inj hcr
    exact .inr ⟨rfl, rfl, rfl⟩

/-- The owner resets the count for the early phase when no worker is left in the loops. -/
theorem Round.step_reset (h : Round s) (ho : s.owner.pc = .reset .early)
    (hin : ∀ i, (s.worker i).pc.looping (processorCount ι) = false) (hs : step s none = some t) :
    Between .early t ∧ t.owner.pc = .work .early := by
  obtain ⟨o, c, r, ho', rfl⟩ := Sync.step_owner hs
  rw [h.owner_reset ho] at ho'
  obtain ⟨rfl, hcr⟩ := Prod.mk.inj (Option.some.inj ho')
  obtain ⟨rfl, rfl⟩ := Prod.mk.inj hcr
  exact ⟨⟨h.request, .work nofun, h.done ho hin⟩, rfl⟩

end XenBus.Sync
