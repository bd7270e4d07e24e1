import Mathlib.Data.Nat.Find
import XenBus.Interfaces.Effects

/-!
# The FIFO ABI

`EvtchnFifoAcquire` sets up a control block for each processor in turn. Where a processor fails, the loop
at its last label gives the blocks back and, on its way, assigns `status`: unless processor 0 is the one
that failed or has no VCPU, the call then reports success without holding anything.
-/

namespace XenBus.Interfaces

open Unwind

variable {env : Env} {f : FifoContext} {k cpu vcpu_id : ℕ}

/-- No two processors have one VCPU id. -/
theorem processorVcpuId_inj (h : env.processorVcpuId k = .ok vcpu_id)
    (h' : env.processorVcpuId cpu = .ok vcpu_id) : k = cpu := by
  rw [Env.processorVcpuId] at h h'
  rcases hp : env.Processor[k]? with _ | p
  · simp [hp] at h
  · rcases hq : env.Processor[cpu]? with _ | q
    · simp [hq] at h'
    · simp only [hp, hq] at h h'
      split at h
      · split at h'
        · rename_i hinit hinit'
          simp only [Except.ok.injEq] at h h'
          exact env.distinct k cpu p q hp hq hinit hinit' (h.trans h'.symm)
        · cases h'
      · cases h

/-- A VCPU id is an index of the array of control blocks. -/
theorem processorVcpuId_lt (h : env.processorVcpuId k = .ok vcpu_id) : vcpu_id < hvmMaxVcpus := by
  rw [Env.processorVcpuId] at h
  rcases hp : env.Processor[k]? with _ | p
  · simp [hp] at h
  · simp only [hp] at h
    split at h
    · rename_i hinit
      simp only [Except.ok.injEq] at h
      exact h ▸ env.inRange p (List.mem_of_getElem? hp) hinit
    · cases h

/-! ## Claiming -/

/-- The status that `EvtchnFifoAcquire` stops with at `cpu`, if it does. -/
def fifoClaimFails (env : Env) (cpu : ℕ) : Option Status :=
  match env.processorVcpuId cpu with
  | .error status => if status = .notSupported then none else some status
  | .ok _ =>
    if env.fails (.allocatePage cpu) then some .noMemory
    else if env.fails (.initControl cpu) then some .unsuccessful
    else none

/-- The control block of `cpu` is set up. -/
def fifoClaimOne (env : Env) (cpu : ℕ) (f : FifoContext) : FifoContext :=
  match env.processorVcpuId cpu with
  | .error _ => f
  | .ok vcpu_id =>
    { f with ControlBlockMdl := Function.update f.ControlBlockMdl vcpu_id true, pages := f.pages + 1 }

/-- The control blocks of the first `k` processors are set up. -/
def fifoClaimed (env : Env) : ℕ → FifoContext → FifoContext
  | 0, f => f
  | k + 1, f => fifoClaimOne env k (fifoClaimed env k f)

/-- One turn of the loop. -/
theorem fifoClaim_succ (env : Env) (n Index : ℕ) (f : FifoContext) :
    fifoClaim env (n + 1) Index f =
      match fifoClaimFails env Index with
      | some status => (some (Index, status), f)
      | none => fifoClaim env n (Index + 1) (fifoClaimOne env Index f) := by
  rw [fifoClaim, fifoClaimFails, fifoClaimOne]
  rcases env.processorVcpuId Index with status | vcpu_id
  · by_cases h : status = .notSupported <;> simp [h]
  · by_cases hpage : env.fails (.allocatePage Index) = true
    · simp [hpage]
    · by_cases hinit : env.fails (.initControl Index) = true <;> simp [hpage, hinit]

/-- The loop to its end. -/
theorem fifoClaim_passes (env : Env) (f : FifoContext) (n Index : ℕ)
    (h : ∀ cpu, Index ≤ cpu → cpu < Index + n → fifoClaimFails env cpu = none) :
    fifoClaim env n Index (fifoClaimed env Index f) = (none, fifoClaimed env (Index + n) f) := by
  induction n generalizing Index with
  | zero => rfl
  | succ n ih =>
    rw [fifoClaim_succ, h Index (by omega) (by omega)]
    have hrest := ih (Index + 1) fun cpu hlow hhigh => h cpu (by omega) (by omega)
    rw [show Index + 1 + n = Index + (n + 1) by omega] at hrest
    exact hrest

/-- The loop up to the first processor that fails. -/
theorem fifoClaim_stops (env : Env) (f : FifoContext) (n Index : ℕ) {status : Status} (hlow : Index ≤ k)
    (hhigh : k < Index + n) (hk : fifoClaimFails env k = some status)
    (h : ∀ cpu, Index ≤ cpu → cpu < k → fifoClaimFails env cpu = none) :
    fifoClaim env n Index (fifoClaimed env Index f) = (some (k, status), fifoClaimed env k f) := by
  induction n generalizing Index with
  | zero => omega
  | succ n ih =>
    rw [fifoClaim_succ]
    rcases Nat.eq_or_lt_of_le hlow with rfl | hlt
    · rw [hk]
    · rw [h Index (Nat.le_refl Index) hlt]
      exact ih (Index + 1) hlt (by omega) fun cpu hcpu => h cpu (by omega)

theorem fifoClaimed_block (hnone : ∀ v, f.ControlBlockMdl v = false)
    (h : (fifoClaimed env k f).ControlBlockMdl vcpu_id = true) :
    ∃ cpu < k, env.processorVcpuId cpu = .ok vcpu_id := by
  induction k with
  | zero => simp [fifoClaimed, hnone] at h
  | succ k ih =>
    rw [fifoClaimed, fifoClaimOne] at h
    rcases hid : env.processorVcpuId k with status | v
    · simp only [hid] at h
      obtain ⟨cpu, hcpu, heq⟩ := ih h
      exact ⟨cpu, by omega, heq⟩
    · by_cases hv : vcpu_id = v
      · exact ⟨k, by omega, hv ▸ hid⟩
      · simp only [hid, Function.update_of_ne hv] at h
        obtain ⟨cpu, hcpu, heq⟩ := ih h
        exact ⟨cpu, by omega, heq⟩

/-- The control block of a processor is not set up before its turn. -/
theorem fifoClaimed_block_none (hnone : ∀ v, f.ControlBlockMdl v = false)
    (hid : env.processorVcpuId k = .ok vcpu_id) :
    (fifoClaimed env k f).ControlBlockMdl vcpu_id = false := by
  by_contra h
  obtain ⟨cpu, hcpu, hid'⟩ := fifoClaimed_block hnone (Bool.not_eq_false _ ▸ h)
  have := processorVcpuId_inj hid hid'
  omega

/-- A control block is given back right after it was set up. -/
theorem fifoBlock_undone (g : FifoContext) (h : g.ControlBlockMdl vcpu_id = false) :
    (⟨g.References, Function.update (Function.update g.ControlBlockMdl vcpu_id true) vcpu_id false,
      g.pages + 1 - 1⟩ : FifoContext) = g := by
  rw [Function.update_idem, ← h, Function.update_eq_self, Int.add_sub_cancel]

/-- The status after the loop at the last label: that of processor 0, unless it was the one that failed. -/
def fifoStatus (env : Env) (k : ℕ) (status : Status) : Status :=
  if k = 0 then status
  else
    match env.processorVcpuId 0 with
    | .error _ => .notSupported
    | .ok _ => .success

/-- The loop at the last label gives back what the loop before has set up, and assigns the status. -/
theorem fifoUnclaim_claimed (hnone : ∀ v, f.ControlBlockMdl v = false) (status : Status)
    (h : ∀ cpu < k, fifoClaimFails env cpu = none) :
    fifoUnclaim env k status (fifoClaimed env k f) = some (fifoStatus env k status, f) := by
  induction k generalizing status with
  | zero => rfl
  | succ k ih =>
    have hrest (status : Status) := ih status fun cpu hcpu => h cpu (by omega)
    have hk := h k (by omega)
    rw [fifoUnclaim, fifoClaimed, fifoClaimOne]
    rcases hid : env.processorVcpuId k with status' | v
    · have hsupported : status' = .notSupported := by
        by_contra hne
        simp [fifoClaimFails, hid, hne] at hk
      simp only [hsupported, if_true, hrest]
      rcases Nat.eq_zero_or_pos k with rfl | hpos
      · simp [fifoStatus, hid]
      · simp [fifoStatus, show k ≠ 0 by omega]
    · have hblock := fifoClaimed_block_none hnone hid
      simp only [Function.update_self, if_true, fifoBlock_undone _ hblock, hrest]
      rcases Nat.eq_zero_or_pos k with rfl | hpos
      · simp [fifoStatus, hid]
      · simp [fifoStatus, show k ≠ 0 by omega]

/-! ## Giving back -/

theorem fifoFree_none (m : ℕ) (h : ∀ v < m, f.ControlBlockMdl v = false) : fifoFree m f = some f := by
  induction m with
  | zero => rfl
  | succ m ih =>
    rw [fifoFree, h m (by omega)]
    exact ih fun v hv => h v (by omega)

/-- A control block that was set up is given back with the others. -/
theorem fifoFree_claim (m : ℕ) (g : FifoContext) (hlt : vcpu_id < m) (h : g.ControlBlockMdl vcpu_id = false) :
    fifoFree m ⟨g.References, Function.update g.ControlBlockMdl vcpu_id true, g.pages + 1⟩ = fifoFree m g := by
  induction m generalizing g with
  | zero => omega
  | succ m ih =>
    rw [fifoFree, fifoFree]
    by_cases hv : vcpu_id = m
    · subst hv
      simp only [Function.update_self, if_true, fifoBlock_undone g h, h]
      rfl
    · have hblock : Function.update g.ControlBlockMdl vcpu_id true m = g.ControlBlockMdl m :=
        Function.update_of_ne (Ne.symm hv) _ _
      simp only [hblock]
      by_cases hm : g.ControlBlockMdl m = true
      · rw [if_pos hm, if_pos hm, Function.update_comm hv, show g.pages + 1 - 1 = g.pages - 1 + 1 by omega]
        exact ih ⟨g.References, Function.update g.ControlBlockMdl m false, g.pages - 1⟩ (by omega)
          ((Function.update_of_ne hv _ _).trans h)
      · rw [if_neg hm, if_neg hm]
        exact ih g (by omega) h

/-- All that was set up is given back. -/
theorem fifoFree_claimed (hnone : ∀ v, f.ControlBlockMdl v = false) (k : ℕ) :
    fifoFree hvmMaxVcpus (fifoClaimed env k f) = some f := by
  induction k with
  | zero => exact fifoFree_none _ fun v _ => hnone v
  | succ k ih =>
    rw [fifoClaimed, fifoClaimOne]
    rcases hid : env.processorVcpuId k with status | v
    · exact ih
    · rw [← ih]
      exact fifoFree_claim _ _ (processorVcpuId_lt hid) (fifoClaimed_block_none hnone hid)

theorem fifoClaimed_add (n : ℤ) (k : ℕ) :
    fifoClaimed env k (fifoReferences.add n f) = fifoReferences.add n (fifoClaimed env k f) := by
  induction k with
  | zero => rfl
  | succ k ih =>
    rw [fifoClaimed, fifoClaimed, ih, fifoClaimOne, fifoClaimOne]
    rcases env.processorVcpuId k with status | v <;> rfl

theorem fifoClaimed_References (k : ℕ) : (fifoClaimed env k f).References = f.References := by
  induction k with
  | zero => rfl
  | succ k ih =>
    rw [fifoClaimed, ← ih, fifoClaimOne]
    rcases env.processorVcpuId k with status | v <;> rfl

/-! ## Acquire and release -/

/-- Every processor's control block can be set up. -/
def fifoOk (env : Env) : Prop := ∀ cpu < env.ProcessorCount, fifoClaimFails env cpu = none

/-- Some processor's control block cannot be set up, while processor 0 has a VCPU and its own can. -/
def fifoSlips (env : Env) : Prop :=
  ¬ fifoOk env ∧ fifoClaimFails env 0 = none ∧ ∃ vcpu_id, env.processorVcpuId 0 = .ok vcpu_id

/-- What the context keeps: the count is not negative, and there is no control block while it is zero. -/
structure FifoKept (f : FifoContext) : Prop where
  nonneg : 0 ≤ f.References
  idle : f.References = 0 → ∀ v, f.ControlBlockMdl v = false

/-- The first processor whose control block cannot be set up. -/
theorem fifoClaimFails_first (h : ¬ fifoOk env) :
    ∃ k < env.ProcessorCount, ∃ status, fifoClaimFails env k = some status ∧
      ∀ cpu < k, fifoClaimFails env cpu = none := by
  have hex : ∃ k, k < env.ProcessorCount ∧ fifoClaimFails env k ≠ none := by
    simp only [fifoOk, not_forall] at h
    obtain ⟨k, hlt, hne⟩ := h
    exact ⟨k, hlt, hne⟩
  obtain ⟨hlt, hne⟩ := Nat.find_spec hex
  obtain ⟨status, hstatus⟩ := Option.ne_none_iff_exists'.1 hne
  refine ⟨Nat.find hex, hlt, status, hstatus, fun cpu hcpu => ?_⟩
  by_contra hcontra
  exact Nat.find_min hex hcpu ⟨by omega, hcontra⟩

/-- What the first reference comes to when some control block cannot be set up: nothing is held, whatever
status is returned. -/
theorem evtchnFifoAcquire_stops (hkept : FifoKept f) (h0 : f.References = 0) (h : ¬ fifoOk env) :
    ∃ k status, fifoClaimFails env k = some status ∧ (∀ cpu < k, fifoClaimFails env cpu = none) ∧
      evtchnFifoAcquire env f = some ((fifoStatus env k status).ntSuccess, f) := by
  obtain ⟨k, hlt, status, hstatus, hfirst⟩ := fifoClaimFails_first h
  refine ⟨k, status, hstatus, hfirst, ?_⟩
  have hnone : ∀ v, (fifoReferences.add 1 f).ControlBlockMdl v = false := hkept.idle h0
  have hloop := fifoClaim_stops env (fifoReferences.add 1 f) env.ProcessorCount 0 (Nat.zero_le k) (by omega)
    hstatus fun cpu _ hcpu => hfirst cpu hcpu
  have hback := fifoUnclaim_claimed hnone status hfirst
  rw [evtchnFifoAcquire, if_neg (not_not.2 h0), show fifoReferences.add 1 f =
    fifoClaimed env 0 (fifoReferences.add 1 f) from rfl, hloop]
  simp only [hback, Option.bind_some, fifoReferences.drop_add_one h0, Option.map_some]

/-- The status that a processor stops the loop with is a failure. -/
theorem fifoClaimFails_status {status : Status} (h : fifoClaimFails env cpu = some status) :
    status.ntSuccess = false := by
  rw [fifoClaimFails, Env.processorVcpuId] at h
  rcases hp : env.Processor[cpu]? with _ | p
  · simp only [hp, reduceCtorEq, if_false, Option.some.injEq] at h
    exact h ▸ rfl
  · by_cases hinit : p.Initialized = true
    · simp only [hp, hinit, if_true] at h
      split at h
      · cases h
        rfl
      · split at h
        · cases h
          rfl
        · cases h
    · simp [hp, hinit] at h

/-- Without the slip, a call that stops fails. -/
theorem fifoStatus_fails {status : Status} (hslips : ¬ fifoSlips env) (hok : ¬ fifoOk env)
    (hstatus : fifoClaimFails env k = some status) (hfirst : ∀ cpu < k, fifoClaimFails env cpu = none) :
    (fifoStatus env k status).ntSuccess = false := by
  rcases Nat.eq_zero_or_pos k with rfl | hpos
  · exact fifoClaimFails_status hstatus
  · rcases hid : env.processorVcpuId 0 with status' | v
    · simp [fifoStatus, hid, show k ≠ 0 by omega, Status.ntSuccess]
    · exact absurd ⟨hok, hfirst 0 hpos, v, hid⟩ hslips

/-- **With the slip, `EvtchnFifoAcquire` reports success and holds nothing.** -/
theorem evtchnFifoAcquire_slips (hkept : FifoKept f) (h0 : f.References = 0) (hslips : fifoSlips env) :
    evtchnFifoAcquire env f = some (true, f) := by
  obtain ⟨hok, hzero, v, hid⟩ := hslips
  obtain ⟨k, status, hstatus, -, hrun⟩ := evtchnFifoAcquire_stops hkept h0 hok
  have hk : k ≠ 0 := by
    rintro rfl
    rw [hzero] at hstatus
    cases hstatus
  rw [hrun, fifoStatus, if_neg hk, hid]
  rfl

/-- What `EvtchnFifoAcquire` comes to. -/
def upFifo (env : Env) : FifoContext → FifoContext := fifoReferences.up (fifoClaimed env env.ProcessorCount)

/-- Unless it slips, `EvtchnFifoAcquire` is exact. -/
theorem evtchnFifoAcquire_exact (env : Env) :
    Exact (fun f => FifoKept f ∧ (f.References = 0 → ¬ fifoSlips env))
      (fun f => FifoKept f ∧ f.References ≠ 0) (fun f => f.References = 0 → fifoOk env) (upFifo env)
      (evtchnFifoAcquire env) evtchnFifoRelease where
  passes := by
    intro f hf hok
    by_cases h0 : f.References = 0
    · have hloop := fifoClaim_passes env (fifoReferences.add 1 f) env.ProcessorCount 0 fun cpu _ hcpu =>
        hok h0 cpu (by omega)
      rw [Nat.zero_add] at hloop
      rw [evtchnFifoAcquire, if_neg (not_not.2 h0), show fifoReferences.add 1 f =
        fifoClaimed env 0 (fifoReferences.add 1 f) from rfl, hloop]
      simp [upFifo, Counter.up, fifoReferences, h0]
    · rw [evtchnFifoAcquire, if_pos h0]
      simp [upFifo, Counter.up, fifoReferences, h0]
  after := by
    intro f hf hok
    have hnonneg := hf.1.nonneg
    have hone : (upFifo env f).References = f.References + 1 := by
      by_cases h0 : f.References = 0
      · simp [upFifo, Counter.up, fifoReferences, h0, fifoClaimed_References]
      · simp [upFifo, Counter.up, fifoReferences, h0]
    exact ⟨⟨by omega, fun h0 => by omega⟩, by omega⟩
  undone := by
    intro f hf hok
    by_cases h0 : f.References = 0
    · have hup : upFifo env f = fifoReferences.add 1 (fifoClaimed env env.ProcessorCount f) := by
        rw [upFifo, Counter.up, if_pos (show fifoReferences.count f = 0 from h0), fifoClaimed_add]
      rw [hup, evtchnFifoRelease, Counter.release, fifoReferences.add_neg_one_add_one]
      have hcount : fifoReferences.count (fifoClaimed env env.ProcessorCount f) = 0 :=
        (fifoClaimed_References _).trans h0
      rw [hcount, if_neg (lt_irrefl 0), sequence_single, fifoFree_claimed (hf.1.idle h0)]
    · have hup : upFifo env f = fifoReferences.add 1 f := if_neg h0
      have hmore : 0 < fifoReferences.count f := lt_of_le_of_ne hf.1.nonneg (Ne.symm h0)
      rw [hup, evtchnFifoRelease, Counter.release, fifoReferences.add_neg_one_add_one, if_pos hmore]
  fails := by
    intro f hf hnot
    obtain ⟨h0, hok⟩ := Classical.not_imp.1 hnot
    obtain ⟨k, status, hstatus, hfirst, hrun⟩ := evtchnFifoAcquire_stops hf.1 h0 hok
    rw [hrun, fifoStatus_fails (hf.2 h0) hok hstatus hfirst]

end XenBus.Interfaces
