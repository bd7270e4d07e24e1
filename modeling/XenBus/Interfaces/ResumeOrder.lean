import XenBus.Interfaces.ResumeCallbacks

/-!
# The order of the resume callbacks

`SuspendRegister` adds to the end of a list, and nothing orders the lists. That the callbacks come in the order of
their dependencies is due to the counts: an interface in use holds those below it, so that these have registered
before and stay registered.

`resumeCallbacks_ordered` says so for every run of calls and resumes. On a resume, the event channel ABI has then
been acquired again and the frames of the grant tables are back in the physmap when the store or the console is
called, unless the FIFO ABI has slipped.
-/

namespace XenBus.Interfaces

open Unwind Holdings Transition

variable {env : Env} {queue : Queue → List Interface} {frames : GnttabContext} {U : Multiset Holding}
  {w w' : World} {r r' : Resumption} {s s' : Session} {ok : Bool}

/-! ## The calls -/

theorem acquire_earns (env : Env) (service : Service) :
    Earns (WorldAccounted noneBusy) Clean {.reference service.interface} (service.call.acquire env) := by
  cases service with
  | sharedInfo => exact (world_earns fun abi => sharedInfoAcquire_earns env (quiet_noneBusy _)).any
  | gnttab => exact (worldLower_earns fun abi => gnttabAcquire_earns env (quiet_noneBusy _)).any
  | evtchn => exact evtchnAcquire_earns env (quiet_noneBusy _)
  | store => exact storeAcquire_earns env (quiet_noneBusy _)
  | console => exact consoleAcquire_earns env (quiet_noneBusy _)

theorem release_spends (env : Env) (service : Service) :
    Spends (WorldAccounted noneBusy) Clean {.reference service.interface} (service.call.release env) := by
  cases service with
  | sharedInfo => exact (world_spends fun abi => sharedInfoRelease_spends (quiet_noneBusy _)).any
  | gnttab => exact (worldLower_spends fun abi => gnttabRelease_spends (quiet_noneBusy _)).any
  | evtchn => exact evtchnRelease_spends env (quiet_noneBusy _)
  | store => exact storeRelease_spends env (quiet_noneBusy _)
  | console => exact consoleRelease_spends env (quiet_noneBusy _)

theorem acquire_held {service : Service} (h : AbiKept w)
    (hidle : w.ledger.References .evtchn = 0 → w.evtchn.EvtchnAbi = none)
    (hslips : service.comesToAbi env w → env.UseEvtchnFifoAbi = true → ¬ fifoSlips env)
    (hrun : service.call.acquire env w = some (ok, w')) : AbiKept w' := by
  cases service with
  | sharedInfo =>
    have hkeeps : StepKeeps abiView (worldLedger.step (sharedInfoAcquire env)) :=
      worldLedger.step_keeps_of_apart _ fun _ _ => rfl
    exact abiKept_of_keeps (hkeeps w ok w' hrun) h
  | gnttab =>
    have hkeeps : StepKeeps abiView (worldLower.step (gnttabAcquire env)) :=
      worldLower.step_keeps_of_apart _ fun _ _ => rfl
    exact abiKept_of_keeps (hkeeps w ok w' hrun) h
  | evtchn => exact evtchnAcquire_held h hidle hslips hrun
  | store => exact clientAcquire_held (storeCallbacks env) (by decide) h hidle hslips hrun
  | console => exact clientAcquire_held (consoleCallbacks env) (by decide) h hidle hslips hrun

theorem release_held {service : Service} (h : AbiKept w) (hrun : service.call.release env w = some w') :
    AbiKept w' := by
  cases service with
  | sharedInfo => exact ledger_held _ w w' h hrun
  | gnttab =>
    have hkeeps : UndoKeeps abiView (worldLower.undo gnttabRelease) :=
      worldLower.undo_keeps_of_apart _ fun _ _ => rfl
    exact abiKept_of_keeps (hkeeps w w' hrun) h
  | evtchn => exact evtchnRelease_held h hrun
  | store => exact clientRelease_held (bugOnOutstanding .store :: storeCallbacksUndo) h hrun
  | console => exact clientRelease_held (bugOnOutstanding .console :: consoleCallbacksUndo) h hrun

/-! ## A resume -/

theorem suspendEarly_keeps (hrun : suspendEarly env s.resumption = some r) :
    account r.world = account s.world ∧ abiView r.world = abiView s.world := by
  have hkeeps : UndoKeeps (fun r : Resumption => (account r.world, abiView r.world))
      (sequence ((s.resumption.world.ledger.queue .early).map (suspendCallbackEarly env))) := by
    refine sequence_keeps fun undo hundo => ?_
    obtain ⟨i, -, rfl⟩ := List.mem_map.1 hundo
    exact suspendCallbackEarly_keeps env i
  exact Prod.mk.inj (hkeeps _ _ hrun)

/-- Whatever the late callbacks so far were. -/
theorem sequence_resuming {xs : List Interface} (hU : Clean U) (hxs : ∀ i ∈ xs, i ∈ queue .late)
    (h : Resuming U queue frames r) (hrun : sequence (xs.map (suspendCallbackLate env)) r = some r') :
    Resuming U queue frames r' := by
  refine sequence_invariant (P := Resuming U queue frames) (fun undo hundo x x' hx hrun => ?_) h hrun
  obtain ⟨i, hi, rfl⟩ := List.mem_map.1 hundo
  exact suspendCallbackLate_resuming hU (hxs i hi) hx hrun

theorem sequence_held {xs : List Interface} (h : AbiKept r.world)
    (hslips : .evtchn ∈ xs → env.UseEvtchnFifoAbi = true → ¬ fifoSlips env)
    (hrun : sequence (xs.map (suspendCallbackLate env)) r = some r') : AbiKept r'.world := by
  refine sequence_invariant (P := fun r => AbiKept r.world) (fun undo hundo x x' hx hrun => ?_) h hrun
  obtain ⟨i, hi, rfl⟩ := List.mem_map.1 hundo
  exact suspendCallbackLate_held hx (fun heq => hslips (heq ▸ hi)) hrun

/-- The event channel ABI in use is referenced. -/
def abiHeld (w : World) : Prop :=
  match w.evtchn.EvtchnAbi with
  | some .fifo => 0 < w.fifo.References
  | some .twoLevel => 0 < w.ledger.References .twoLevel
  | none => False

theorem abiHeld_of_active (h : worldBooks.Balanced noneBusy U w) (habi : AbiKept w)
    (hevtchn : .evtchn ∈ worldBooks.active noneBusy w) : abiHeld w := by
  rw [abiHeld]
  rcases hAbi : w.evtchn.EvtchnAbi with _ | _ | _
  · exact EvtchnAbi_ne_none h hevtchn hAbi
  · have hone : w.fifo.References = 1 := habi.count.trans (by rw [hAbi]; rfl)
    simp only [hone]
    decide
  · have hle := h.measure_nonneg (.reference .twoLevel)
    simp [worldBooks, measure, hAbi] at hle
    simp only
    omega

/-- What the callback of the store or the console needs: the event channel ABI has been acquired again and is held,
and the physmap has all the frames of the grant tables. -/
structure Prepared (r : Resumption) : Prop where
  reacquired : r.reacquired = true
  abi : abiHeld r.world
  frames : r.world.gnttab.mappings = (r.world.gnttab.FrameIndex + 1).toNat

/-- On a resume, each late callback of the store or the console is called when that is so. -/
def ResumesInOrder (env : Env) (s : Session) : Prop :=
  ∀ r, suspendEarly env s.resumption = some r →
    ∀ i ys zs r', i = .store ∨ i = .console → r.world.ledger.queue .late = ys ++ i :: zs →
      sequence (ys.map (suspendCallbackLate env)) r = some r' → Prepared r'

/-! ## Runs -/

/-- What the clients hold. -/
def Session.held (s : Session) : Multiset Holding := s.clients.map fun c => .reference c.2.interface

theorem Session.held_clean (s : Session) : Clean s.held := by
  intro h hmem
  obtain ⟨c, -, rfl⟩ := Multiset.mem_map.1 hmem
  exact ⟨_, rfl⟩

/-- The accounts are kept: what is counted is what the clients and the interfaces in use hold. -/
def Session.Kept (s : Session) : Prop := WorldAccounted noneBusy s.held s.world

theorem Session.start_kept : Session.start.Kept := by
  have hidle : worldBooks.active noneBusy Session.start.world = ∅ :=
    Finset.filter_eq_empty_iff.2 fun _ _ h => h.2 rfl
  refine ⟨⟨fun k n hk => absurd hk (by simp), fun j => ?_⟩, fun _ => ⟨?_, ?_⟩⟩
  · rw [hidle]
    rcases j with i | ⟨q, i⟩ | _ <;> simp [worldBooks, measure, Session.start, Session.held, idle, closed]
  · exact follows_of_not_mem (by simp [Session.start, idle])
  · exact follows_of_not_mem (by simp [Session.start, idle])

/-- The late callbacks of a whole resume. -/
theorem resume_kept {r₀ : Resumption} (h : s.Kept) (hearly : suspendEarly env s.resumption = some r₀)
    (hlate : suspendLate env r₀ = some r) : WorldAccounted noneBusy s.held r.world := by
  have hr₀ := worldAccounted_of_account _ _ _ (suspendEarly_keeps hearly).1 h
  exact (sequence_resuming s.held_clean (fun _ hi => hi) ⟨hr₀, rfl, rfl⟩ hlate).accounted

/-- A release is of a reference that the client holds. -/
theorem Session.step_release {client : ℕ} {service : Service}
    (hstep : s.step (.release client service env) = some s') :
    (client, service) ∈ s.clients ∧ service.call.release env s.world = some s'.world ∧
      s'.clients = s.clients.erase (client, service) := by
  rw [Session.step] at hstep
  split at hstep
  · split at hstep
    · cases hstep
    · obtain ⟨w, hrelease, rfl⟩ := Option.map_eq_some_iff.1 hstep
      exact ⟨‹_›, hrelease, rfl⟩
  · cases hstep

/-- **The accounts are kept by each step.** -/
theorem Session.step_kept {a : Action} (h : s.Kept) (hstep : s.step a = some s') : s'.Kept := by
  cases a with
  | acquire client service env =>
    obtain ⟨⟨ok, w⟩, hacquire, rfl⟩ := Option.map_eq_some_iff.1 hstep
    cases ok with
    | false => exact (acquire_earns env service).loses _ _ w s.held_clean h hacquire
    | true =>
      have hgains := (acquire_earns env service).gains _ _ w s.held_clean h hacquire
      have hheld : s.held + {.reference service.interface} =
          ((client, service) ::ₘ s.clients).map fun c => Holding.reference c.2.interface := by
        rw [Multiset.map_cons, ← Multiset.singleton_add, add_comm]
        rfl
      rwa [hheld] at hgains
  | release client service env =>
    obtain ⟨hmem, hrelease, hclients⟩ := Session.step_release hstep
    have hheld : s.held = s'.held + {.reference service.interface} := by
      rw [Session.held, ← Multiset.cons_erase hmem, ← hclients, Multiset.map_cons, ← Multiset.singleton_add,
        add_comm]
      rfl
    rw [Session.Kept, hheld] at h
    exact release_spends env service _ _ _ s'.held_clean h hrelease
  | resume env =>
    obtain ⟨r, hresume, rfl⟩ := Option.map_eq_some_iff.1 hstep
    obtain ⟨r₀, hearly, hlate⟩ := Option.bind_eq_some_iff.1 hresume
    have hkept := resume_kept h hearly hlate
    exact hkept

theorem Session.evtchn_idle (h : s.Kept) (h0 : s.world.ledger.References .evtchn = 0) :
    s.world.evtchn.EvtchnAbi = none :=
  EvtchnAbi_eq_none h.1 s.held_clean.abi_not_mem fun hmem => (Finset.mem_filter.1 hmem).2.2 h0

/-- **The FIFO ABI is held while it is in use**, if the step does not slip. -/
theorem Session.step_held {a : Action} (h : s.Kept) (habi : AbiKept s.world) (hslips : Unslipped s a)
    (hstep : s.step a = some s') : AbiKept s'.world := by
  cases a with
  | acquire client service env =>
    obtain ⟨⟨ok, w⟩, hacquire, rfl⟩ := Option.map_eq_some_iff.1 hstep
    exact acquire_held habi (Session.evtchn_idle h) hslips hacquire
  | release client service env =>
    exact release_held habi (Session.step_release hstep).2.1
  | resume env =>
    obtain ⟨r, hresume, rfl⟩ := Option.map_eq_some_iff.1 hstep
    obtain ⟨r₀, hearly, hlate⟩ := Option.bind_eq_some_iff.1 hresume
    obtain ⟨haccount, hview⟩ := suspendEarly_keeps hearly
    refine sequence_held (abiKept_of_keeps hview habi) (fun hmem => hslips ?_) hlate
    have hr₀ := worldAccounted_of_account _ _ _ haccount h
    have hactive := mem_active_of_mem_queue hr₀.1 s.held_clean hmem
    have hReferences : r₀.world.ledger.References = s.world.ledger.References :=
      congrArg (fun x => x.1.1) haccount
    rw [← hReferences]
    exact (Finset.mem_filter.1 hactive).2.2

/-- **A resume calls back in order**, if it does not slip. -/
theorem resumesInOrder_of_kept (h : s.Kept) (habi : AbiKept s.world) (hslips : Unslipped s (.resume env)) :
    ResumesInOrder env s := by
  intro r hearly i ys zs r' hi hlate hrun
  obtain ⟨haccount, hview⟩ := suspendEarly_keeps hearly
  have hr := worldAccounted_of_account _ _ _ haccount h
  have hregistered := registered_of_accounted s.held_clean hr
  have hmem : i ∈ r.world.ledger.queue .late := by
    rw [hlate]
    simp
  obtain ⟨hfollows, hgnttab⟩ := hregistered.ordered i hi hmem
  have hevtchn : .evtchn ∈ ys := hfollows ys zs hlate
  have hys : ∀ j ∈ ys, j ∈ r.world.ledger.queue .late := by
    intro j hj
    rw [hlate]
    exact List.mem_append.2 (.inl hj)
  have hresuming := sequence_resuming s.held_clean hys ⟨hr, rfl, rfl⟩ hrun
  have hactive : .evtchn ∈ worldBooks.active noneBusy r'.world :=
    mem_active_of_mem_queue hresuming.accounted.1 s.held_clean (hresuming.queue_eq ▸ hys _ hevtchn)
  have hReferences : r.world.ledger.References = s.world.ledger.References :=
    congrArg (fun x => x.1.1) haccount
  refine ⟨sequence_reacquired hevtchn hrun, abiHeld_of_active hresuming.accounted.1 ?_ hactive, ?_⟩
  · refine sequence_held (abiKept_of_keeps hview habi) (fun hmem => hslips ?_) hrun
    have hactive' := mem_active_of_mem_queue hr.1 s.held_clean (hys _ hmem)
    rw [← hReferences]
    exact (Finset.mem_filter.1 hactive').2.2
  · -- the callback of the grant tables has been called exactly once
    have hframes := sequence_frames _ hearly
    have hqueue : s.resumption.world.ledger.queue = r.world.ledger.queue :=
      (congrArg (fun x => x.1.2) haccount).symm
    have hone : (r.world.ledger.queue .early).count .gnttab = 1 := by
      have hcount := hregistered.once .early .gnttab
      have hpos := List.one_le_count_iff.2 hgnttab
      split_ifs at hcount <;> omega
    rw [hqueue, hone, Nat.one_mul] at hframes
    rw [hresuming.frames_eq, hframes]
    exact Nat.zero_add _

/-- **The resume callbacks run in the order of their dependencies.** In every state that calls, releases and
resumes come to, each callback is registered exactly once while its interface is referenced, and that of the store
or the console comes after those of the interfaces below. If no step slips, each is called on a resume when the
event channel ABI has been acquired again and the frames of the grant tables have been mapped. -/
theorem resumeCallbacks_ordered (h : Reaches Session.step Free .start s) :
    Registered s.world ∧
      (Reaches Session.step Unslipped .start s → ∀ env, Unslipped s (.resume env) → ResumesInOrder env s) := by
  have hkept : s.Kept := h.invariant Session.start_kept fun s a s' hs _ hstep => Session.step_kept hs hstep
  refine ⟨registered_of_accounted s.held_clean hkept, fun hrun env hslips => ?_⟩
  have hstart : AbiKept Session.start.world := ⟨rfl, fun _ _ => rfl, fun _ _ => rfl⟩
  have hboth : s.Kept ∧ AbiKept s.world :=
    hrun.invariant (P := fun s => s.Kept ∧ AbiKept s.world) ⟨Session.start_kept, hstart⟩
      fun s a s' hs hslips hstep => ⟨Session.step_kept hs.1 hstep, Session.step_held hs.1 hs.2 hslips hstep⟩
  exact resumesInOrder_of_kept hkept hboth.2 hslips

/-- A client acquires the store, and the domain is resumed. -/
theorem resumeCallbacks_ordered_store :
    ∃ s, Session.start.step (.acquire 0 .store (twoProcessors fun _ => false)) = some s ∧
      s.world.ledger.queue .late = [.evtchn, .store] ∧ Registered s.world ∧
      ResumesInOrder (twoProcessors fun _ => false) s := by
  have hrun : (Session.start.step (.acquire 0 .store (twoProcessors fun _ => false))).map
      (fun s => s.world.ledger.queue .late) = some [.evtchn, .store] := by decide
  obtain ⟨s, hstep, hqueue⟩ := Option.map_eq_some_iff.1 hrun
  have hslips : ¬ fifoSlips (twoProcessors fun _ => false) := fun h => h.1 (by decide)
  obtain ⟨hregistered, hresumes⟩ := resumeCallbacks_ordered (Reaches.single trivial hstep)
  have hacquire : Unslipped .start (.acquire 0 .store (twoProcessors fun _ => false)) := fun _ _ => hslips
  exact ⟨s, hstep, hqueue, hregistered, hresumes (Reaches.single hacquire hstep) _ fun _ _ => hslips⟩

/-- The domain is resumed when the page of processor 1 cannot be allocated: the store is called while the FIFO ABI
has no reference. -/
theorem not_resumesInOrder_fifo :
    ∃ s, Session.start.step (.acquire 0 .store (twoProcessors fun _ => false)) = some s ∧
      ¬ ResumesInOrder (twoProcessors (· == .allocatePage 1)) s := by
  have hrun : ((Session.start.step (.acquire 0 .store (twoProcessors fun _ => false))).bind fun s =>
      (suspendEarly (twoProcessors (· == .allocatePage 1)) s.resumption).bind fun r =>
        (sequence ([.evtchn].map (suspendCallbackLate (twoProcessors (· == .allocatePage 1)))) r).map fun r' =>
          (r.world.ledger.queue .late, r'.world.evtchn.EvtchnAbi, r'.world.fifo.References)) =
      some ([.evtchn, .store], some .fifo, 0) := by decide
  obtain ⟨s, hstep, hrun⟩ := Option.bind_eq_some_iff.1 hrun
  obtain ⟨r, hearly, hrun⟩ := Option.bind_eq_some_iff.1 hrun
  obtain ⟨r', hlate, heq⟩ := Option.map_eq_some_iff.1 hrun
  obtain ⟨hqueue, heq⟩ := Prod.mk.inj heq
  obtain ⟨hAbi, hzero⟩ := Prod.mk.inj heq
  refine ⟨s, hstep, fun h => ?_⟩
  have habi := (h r hearly .store [.evtchn] [] r' (.inl rfl) hqueue hlate).abi
  rw [abiHeld, hAbi] at habi
  simp only [hzero] at habi
  exact absurd habi (lt_irrefl 0)

end XenBus.Interfaces
