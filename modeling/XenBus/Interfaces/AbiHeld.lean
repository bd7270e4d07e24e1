import XenBus.Interfaces.Resume

/-!
# The FIFO ABI is held while it is in use

While `EvtchnAbi` is the FIFO ABI, that has one reference; otherwise it has none, and no control block. Each call
keeps this (`acquire_held`, `release_held`), if it does not come to the slip of `EvtchnFifoAcquire`.
-/

namespace XenBus.Interfaces

open Unwind

variable {env : Env} {w w' : World} {f f' : FifoContext} {abi : Option Abi} {i : Interface} {ok : Bool}
  {reference : ℤ}

/-- The event channels hold the FIFO ABI exactly while they use it. -/
structure FifoHeld (f : FifoContext) (abi : Option Abi) : Prop where
  count : f.References = if abi = some .fifo then 1 else 0
  idle : f.References = 0 → ∀ v, f.ControlBlockMdl v = false
  inRange : ∀ v, hvmMaxVcpus ≤ v → f.ControlBlockMdl v = false

/-- The event channels hold the FIFO ABI exactly while they use it, in all the contexts. -/
abbrev AbiKept (w : World) : Prop := FifoHeld w.fifo w.evtchn.EvtchnAbi

theorem FifoHeld.kept (h : FifoHeld f abi) : FifoKept f where
  nonneg := by
    rw [h.count]
    split_ifs <;> decide
  idle := h.idle

/-- It is not in use. -/
theorem FifoHeld.other (h : FifoHeld f none) : FifoHeld f (some .twoLevel) := ⟨h.count, h.idle, h.inRange⟩

theorem abiKept_of_keeps (hsame : abiView w' = abiView w) (h : AbiKept w) : AbiKept w' := by
  obtain ⟨hfifo, habi⟩ := Prod.mk.inj hsame
  rwa [AbiKept, hfifo, habi]

/-! ## The control blocks -/

theorem fifoClaimed_inRange (h : ∀ v, hvmMaxVcpus ≤ v → f.ControlBlockMdl v = false) (n : ℕ) :
    ∀ v, hvmMaxVcpus ≤ v → (fifoClaimed env n f).ControlBlockMdl v = false := by
  induction n with
  | zero => exact h
  | succ n ih =>
    intro v hv
    rw [fifoClaimed, fifoClaimOne]
    rcases hid : env.processorVcpuId n with status | vcpu_id
    · exact ih v hv
    · have hlt := processorVcpuId_lt hid
      exact (Function.update_of_ne (by omega) _ _).trans (ih v hv)

/-- The loop of `EvtchnFifoRelease` gives back the control blocks below `n`, and no others. -/
theorem fifoFree_some (n : ℕ) (hrun : fifoFree n f = some f') :
    f'.References = f.References ∧ (∀ v < n, f'.ControlBlockMdl v = false) ∧
      ∀ v, n ≤ v → f'.ControlBlockMdl v = f.ControlBlockMdl v := by
  induction n generalizing f with
  | zero =>
    obtain rfl := Option.some.inj hrun
    exact ⟨rfl, fun v hv => absurd hv (Nat.not_lt_zero v), fun _ _ => rfl⟩
  | succ n ih =>
    have hstep : ∃ g : FifoContext, fifoFree n g = some f' ∧ g.References = f.References ∧
        g.ControlBlockMdl n = false ∧ ∀ v, n < v → g.ControlBlockMdl v = f.ControlBlockMdl v := by
      rw [fifoFree] at hrun
      split_ifs at hrun with hblock
      · exact ⟨_, hrun, rfl, Function.update_self _ _ _, fun v hv => Function.update_of_ne (by omega) _ _⟩
      · exact ⟨f, hrun, rfl, by simpa using hblock, fun _ _ => rfl⟩
    obtain ⟨g, hg, hReferences, hnone, habove⟩ := hstep
    obtain ⟨hcount, hbelow, hrest⟩ := ih hg
    refine ⟨hcount.trans hReferences, fun v hv => ?_, fun v hv => ?_⟩
    · rcases Nat.lt_succ_iff_lt_or_eq.1 hv with hlt | rfl
      · exact hbelow v hlt
      · exact (hrest v le_rfl).trans hnone
    · exact (hrest v (by omega)).trans (habove v (by omega))

/-- Without the slip, `EvtchnFifoAcquire` comes to hold the ABI, or to change nothing. -/
theorem evtchnFifoAcquire_held (h : FifoHeld f none) (hslips : ¬ fifoSlips env)
    (hrun : evtchnFifoAcquire env f = some (ok, f')) :
    FifoHeld f' (if ok then some .fifo else none) := by
  have h0 : f.References = 0 := h.count
  have hexact := evtchnFifoAcquire_exact env
  by_cases hok : fifoOk env
  · have hpasses := hexact.passes f ⟨h.kept, fun _ => hslips⟩ fun _ => hok
    obtain ⟨rfl, rfl⟩ := Prod.mk.inj (Option.some.inj (hpasses.symm.trans hrun))
    have hup : upFifo env f = fifoClaimed env env.ProcessorCount (fifoReferences.add 1 f) := if_pos h0
    have hone : (upFifo env f).References = 1 := by
      rw [hup, fifoClaimed_References]
      exact congrArg (· + 1) h0
    refine ⟨hone, fun hzero => ?_, ?_⟩
    · rw [hone] at hzero
      cases hzero
    · have hrange : ∀ v, hvmMaxVcpus ≤ v → (fifoReferences.add 1 f).ControlBlockMdl v = false := h.inRange
      rw [hup]
      exact fifoClaimed_inRange hrange _
  · have hfails := hexact.fails f ⟨h.kept, fun _ => hslips⟩ fun hall => hok (hall h0)
    obtain ⟨rfl, rfl⟩ := Prod.mk.inj (Option.some.inj (hfails.symm.trans hrun))
    exact h

theorem evtchnFifoRelease_held (h : FifoHeld f (some .fifo)) (hrun : evtchnFifoRelease f = some f') :
    FifoHeld f' none := by
  have hone : fifoReferences.count f = 1 := h.count
  rcases fifoReferences.release_some.1 hrun with ⟨hmore, -⟩ | ⟨-, hlast⟩
  · omega
  · rw [sequence_single] at hlast
    obtain ⟨hcount, hbelow, habove⟩ := fifoFree_some _ hlast
    have hnone : ∀ v, f'.ControlBlockMdl v = false := by
      intro v
      rcases lt_or_ge v hvmMaxVcpus with hlt | hge
      · exact hbelow v hlt
      · exact (habove v hge).trans (h.inRange v hge)
    exact ⟨hcount.trans (congrArg (· + -1) hone), fun _ => hnone, fun v _ => hnone v⟩

/-! ## The event channels -/

theorem evtchnAbiAcquire_held (h : AbiKept w) (hnone : w.evtchn.EvtchnAbi = none)
    (hslips : env.UseEvtchnFifoAbi = true → ¬ fifoSlips env) (hrun : evtchnAbiAcquire env w = some (ok, w')) :
    AbiKept w' := by
  have hfifo : FifoHeld w.fifo none := hnone ▸ h
  rcases evtchnAbiAcquire_some hrun with ⟨hUse, f, hf, -, rfl⟩ | ⟨f, l, hf, -, rfl⟩
  · exact evtchnFifoAcquire_held hfifo (hslips hUse) hf
  · rcases hf with ⟨hUse, hf⟩ | rfl
    · exact (evtchnFifoAcquire_held hfifo (hslips hUse) hf).other
    · exact hfifo.other

theorem evtchnAbiRelease_held (h : AbiKept w) (hrun : evtchnAbiRelease w = some w') :
    AbiKept w' ∧ w'.evtchn.EvtchnAbi = none := by
  rcases evtchnAbiRelease_some hrun with ⟨habi, f, hf, rfl⟩ | ⟨habi, l, -, rfl⟩
  · rw [AbiKept, habi] at h
    exact ⟨evtchnFifoRelease_held h hf, rfl⟩
  · rw [AbiKept, habi] at h
    exact ⟨⟨h.count, h.idle, h.inRange⟩, rfl⟩

/-- The steps of `EvtchnAcquire` from the ABI on. -/
theorem abiStages_held (h : AbiKept w) (hnone : w.evtchn.EvtchnAbi = none)
    (hslips : env.UseEvtchnFifoAbi = true → ¬ fifoSlips env) (hrun : attempt (abiStages env) w = some (ok, w')) :
    AbiKept w' := by
  refine attempt_cons_invariant (fun ok v hstep => evtchnAbiAcquire_held h hnone hslips hstep) ?_ ?_ hrun
  · intro v ok u _ hv hrest
    exact abiKept_of_keeps (evtchnInterrupts_keeps env v ok u hrest) hv
  · intro u v hu hback
    rw [sequence_single] at hback
    exact (evtchnAbiRelease_held hu hback).1

/-- A step on the ledger does not touch the ABI. -/
theorem ledger_held (undo : Undo Ledger) (v v' : World) (hv : AbiKept v)
    (hrun : worldLedger.undo undo v = some v') : AbiKept v' :=
  abiKept_of_keeps (worldLedger.undo_keeps_of_apart undo (fun _ _ => rfl) v v' hrun) hv

theorem evtchnAcquire_held (h : AbiKept w) (hidle : w.ledger.References .evtchn = 0 → w.evtchn.EvtchnAbi = none)
    (hslips : evtchnComesToAbi env w → env.UseEvtchnFifoAbi = true → ¬ fifoSlips env)
    (hrun : evtchnAcquire env w = some (ok, w')) : AbiKept w' := by
  have hcallbacks : StepKeeps abiView (worldLedger.step (attempt (evtchnCallbacks env))) :=
    worldLedger.step_keeps_of_apart _ fun _ _ => rfl
  refine (worldReferences .evtchn).acquire_invariant (fun _ _ hw => hw) h (fun ok v h0 hrun => ?_) hrun
  have hstart : abiView ((worldReferences .evtchn).add 1 w) = abiView w := rfl
  rw [attempt_evtchnStages] at hrun
  refine attempt_cons_invariant (fun ok u hstep => ?_) (fun u ok u' hpass hu hrest => ?_)
    (fun u u' hu hback => ?_) hrun
  · exact abiKept_of_keeps ((hcallbacks _ ok u hstep).trans hstart) h
  · have hsame := (hcallbacks _ true u hpass).trans hstart
    have hnone : u.evtchn.EvtchnAbi = none := (congrArg Prod.snd hsame).trans (hidle h0)
    obtain ⟨⟨ok', l⟩, hl, heq⟩ := Option.map_eq_some_iff.1 hpass
    obtain ⟨rfl, -⟩ := Prod.mk.inj heq
    exact abiStages_held hu hnone (hslips ⟨h0, l, hl⟩) hrest
  · refine sequence_invariant (fun undo hundo => ?_) hu hback
    obtain ⟨undo, -, rfl⟩ := List.mem_map.1 hundo
    exact ledger_held undo

theorem evtchnRelease_held (h : AbiKept w) (hrun : evtchnRelease env w = some w') : AbiKept w' := by
  have hkeeps {undo : Undo World} (hundo : UndoKeeps abiView undo) (v v' : World) (hv : AbiKept v)
      (hrun : undo v = some v') : AbiKept v' := abiKept_of_keeps (hundo v v' hrun) hv
  refine (worldReferences .evtchn).release_invariant (fun _ _ hw => hw) h ?_ hrun
  simp only [List.mem_cons, List.not_mem_nil, or_false, forall_eq_or_imp, forall_eq]
  exact ⟨hkeeps (freeInterrupts_keeps env fun _ _ => rfl), ledger_held _,
    hkeeps (freeInterrupt_keeps fun _ _ => rfl), ledger_held _,
    fun v v' hv hrun => (evtchnAbiRelease_held hv hrun).1, ledger_held _, ledger_held _, ledger_held _,
    ledger_held _, ledger_held _, ledger_held _⟩

/-! ## Store and console -/

/-- The steps to the ring page do not touch the event channels. -/
theorem ringPage_channelView (env : Env) (i : Interface) (reference : ℤ) :
    StepKeeps channelView (worldLower.step (attempt (ringPage env i reference))) := by
  have hcount : StepKeeps (lowerCountOf .evtchn) (attempt (ringPage env i reference)) := by
    refine attempt_keeps ?_
    simp only [ringPage, List.mem_cons, List.not_mem_nil, or_false]
    rintro stage (rfl | rfl | rfl)
    · exact ⟨gnttabAcquire_keeps env rfl, List.forall_mem_singleton.2 (gnttabRelease_keeps rfl)⟩
    · exact ⟨fun w => check_keeps _ _ w, List.forall_mem_nil _⟩
    · exact ⟨lowerLedger.step_keeps (claim_keeps _ _ _),
        List.forall_mem_singleton.2 (lowerLedger.undo_keeps (giveBack_keeps _ _))⟩
  have hapart : StepKeeps (fun w : World => (w.fifo, w.evtchn))
      (worldLower.step (attempt (ringPage env i reference))) :=
    worldLower.step_keeps_of_apart _ fun _ _ => rfl
  intro w ok w' hrun
  obtain ⟨hfifo, hevtchn⟩ := Prod.mk.inj (hapart w ok w' hrun)
  have hReferences := worldLower.step_keeps hcount w ok w' hrun
  exact Prod.ext hfifo (Prod.ext hevtchn hReferences)

theorem clientAcquire_held (callbacks : List (Stage Ledger)) (hne : i ≠ .evtchn) (h : AbiKept w)
    (hidle : w.ledger.References .evtchn = 0 → w.evtchn.EvtchnAbi = none)
    (hslips : clientComesToAbi env i reference w → env.UseEvtchnFifoAbi = true → ¬ fifoSlips env)
    (hrun : (worldReferences i).acquire (clientSteps env i reference callbacks) w = some (ok, w')) :
    AbiKept w' := by
  have hring := ringPage_channelView env i reference
  have hrest : StepKeeps abiView (attempt (callbacks.map worldLedger.stage)) :=
    attempt_keeps fun stage hstage => by
      obtain ⟨stage, -, rfl⟩ := List.mem_map.1 hstage
      exact worldLedger.stage_keeps_of_apart stage fun _ _ => rfl
  have hview : ∀ {u v : World}, channelView v = channelView u → abiView v = abiView u := fun hsame =>
    congrArg (fun x => (x.1, x.2.1.EvtchnAbi)) hsame
  refine (worldReferences i).acquire_invariant (fun _ _ hw => hw) h (fun ok v h0 hrun => ?_) hrun
  have hstart : channelView ((worldReferences i).add 1 w) = channelView w :=
    congrArg (fun n => (w.fifo, w.evtchn, n)) (refer_References_of_ne hne.symm)
  rw [attempt_clientSteps] at hrun
  refine attempt_cons_invariant (fun ok u hstep => ?_) (fun u ok u' hpass hu hrun => ?_)
    (fun u u' hu hback => ?_) hrun
  · exact abiKept_of_keeps (hview ((hring _ ok u hstep).trans hstart)) h
  · have hsame := (hring _ true u hpass).trans hstart
    have hevtchn : u.evtchn = w.evtchn := congrArg (fun x => x.2.1) hsame
    have hcount : u.ledger.References .evtchn = w.ledger.References .evtchn := congrArg (fun x => x.2.2) hsame
    obtain ⟨⟨ok', l⟩, hl, heq⟩ := Option.map_eq_some_iff.1 hpass
    obtain ⟨rfl, hset⟩ := Prod.mk.inj heq
    have hacquire : ∀ ok v, evtchnAcquire env u = some (ok, v) → AbiKept v := fun ok v hstep =>
      evtchnAcquire_held hu (fun hzero => hevtchn ▸ hidle (hcount.symm.trans hzero))
        (fun hcomes => hslips ⟨h0, l, hl, hset ▸ hcomes⟩) hstep
    refine attempt_cons_invariant hacquire (fun v ok v' _ hv hrun => ?_) (fun v v' hv hback => ?_) hrun
    · exact abiKept_of_keeps (hrest v ok v' hrun) hv
    · rw [sequence_single] at hback
      exact evtchnRelease_held hv hback
  · refine sequence_invariant ?_ hu hback
    simp only [List.mem_cons, List.not_mem_nil, or_false, forall_eq_or_imp, forall_eq]
    exact ⟨fun v v' hv hrun => abiKept_of_keeps (worldLower.undo_keeps_of_apart _ (fun _ _ => rfl) v v' hrun) hv,
      fun v v' hv hrun => abiKept_of_keeps (worldLower.undo_keeps_of_apart _ (fun _ _ => rfl) v v' hrun) hv⟩

theorem clientRelease_held (undos : List (Undo Ledger)) (h : AbiKept w)
    (hrun : (worldReferences i).release (undos.map worldLedger.undo ++ clientUndo env i) w = some w') :
    AbiKept w' := by
  refine (worldReferences i).release_invariant (fun _ _ hw => hw) h (List.forall_mem_append.2 ⟨?_, ?_⟩) hrun
  · intro undo hundo
    obtain ⟨undo, -, rfl⟩ := List.mem_map.1 hundo
    exact ledger_held undo
  · simp only [clientUndo, List.mem_cons, List.not_mem_nil, or_false, forall_eq_or_imp, forall_eq]
    exact ⟨fun v v' hv hrun => evtchnRelease_held hv hrun,
      fun v v' hv hrun => abiKept_of_keeps (worldLower.undo_keeps_of_apart _ (fun _ _ => rfl) v v' hrun) hv,
      fun v v' hv hrun => abiKept_of_keeps (worldLower.undo_keeps_of_apart _ (fun _ _ => rfl) v v' hrun) hv⟩

end XenBus.Interfaces
