import XenBus.Interfaces.Slips

/-!
# All or nothing

Each `Acquire` fails and changes nothing, or succeeds and can be taken back by its `Release`, exactly where the
slips of the FIFO ABI, the two-level ABI and the interrupts are not come to.
-/

namespace XenBus.Interfaces

open Unwind

variable {env : Env} {w : World} {js : List Interface}

/-! ## The two-level ABI -/

/-- `EvtchnTwoLevelAcquire` is exact where the shared info can be acquired. -/
theorem evtchnTwoLevelAcquire_whole (env : Env) (js : List Interface) :
    Exact (fun l => Kept js l ∧ (l.References .twoLevel = 0 → sharedInfoOk env l)) (Kept (.twoLevel :: js))
      (fun _ => True) ((references .twoLevel).up upSharedInfo) (evtchnTwoLevelAcquire env)
      evtchnTwoLevelRelease := by
  have hexact := sharedInfoAcquire_exact env (.twoLevel :: js)
  have hstages : Exact (fun l => Kept (.twoLevel :: js) l ∧ sharedInfoOk env l) (Kept (.twoLevel :: js))
      (fun _ => True) upSharedInfo (attempt [⟨check false, [sharedInfoRelease]⟩, ⟨sharedInfoAcquire env, []⟩])
      (sequence [sharedInfoRelease]) := by
    constructor
    · rintro l ⟨hl, hok⟩ -
      rw [attempt_cons_of_passes rfl, attempt_single]
      simp only [hexact.passes l hl hok]
    · rintro l ⟨hl, hok⟩ -
      exact (hexact.after l hl hok).mono (List.subset_cons_self _ _)
    · rintro l ⟨hl, hok⟩ -
      rw [sequence_single, hexact.undone l hl hok]
    · exact fun l _ hnot => absurd trivial hnot
  refine ((references .twoLevel).exact hstages ?_ ?_ ?_ ?_ ?_).iff fun l _ => by simp
  · exact fun l hl => hl.1.nonneg _
  · rintro l ⟨hl, hok⟩ h0
    refine ⟨hl.refer _, (sharedInfoOk_congr ?_ ?_ ?_).2 (hok h0)⟩
    · exact refer_References_of_ne (by decide)
    · exact reportingOk_refer (by decide) (by decide)
    · exact debugOk_refer (by decide)
  · exact fun l hl _ => hl.1.refer _
  · exact fun l => upSharedInfo_References (by decide) (by decide) (by decide)
  · refine sequence_commutes (List.forall_mem_singleton.2 ?_)
    exact sharedInfoRelease_commutes (by decide) (by decide) (by decide)

/-! ## The calls -/

/-- The interfaces whose `Acquire` unwinds. -/
inductive Call
  | sharedInfo | twoLevel | fifo | evtchn | gnttab | store | console
  deriving DecidableEq, Repr

/-- Its `Acquire`. -/
def Call.acquire (env : Env) : Call → Step World
  | .sharedInfo => worldLedger.step (sharedInfoAcquire env)
  | .twoLevel => worldLedger.step (evtchnTwoLevelAcquire env)
  | .fifo => worldFifo.step (evtchnFifoAcquire env)
  | .evtchn => evtchnAcquire env
  | .gnttab => worldLower.step (gnttabAcquire env)
  | .store => storeAcquire env
  | .console => consoleAcquire env

/-- Its `Release`. -/
def Call.release (env : Env) : Call → Undo World
  | .sharedInfo => worldLedger.undo sharedInfoRelease
  | .twoLevel => worldLedger.undo evtchnTwoLevelRelease
  | .fifo => worldFifo.undo evtchnFifoRelease
  | .evtchn => evtchnRelease env
  | .gnttab => worldLower.undo gnttabRelease
  | .store => storeRelease env
  | .console => consoleRelease env

/-- The call does not come to a slip: a first reference to the two-level ABI finds the shared info or can acquire
it, a first reference to the FIFO ABI does not slip, and the event channels are whole. -/
def Call.whole (env : Env) (w : World) : Call → Prop
  | .sharedInfo => True
  | .twoLevel => w.ledger.References .twoLevel = 0 → sharedInfoOk env w.ledger
  | .fifo => w.fifo.References = 0 → ¬ fifoSlips env
  | .evtchn => evtchnWhole env w
  | .gnttab => True
  | .store => clientWhole env .store w
  | .console => clientWhole env .console w

/-- **Acquire is all or nothing**, exactly where the call does not come to a slip. -/
theorem allOrNothing_iff (env : Env) (call : Call) (hw : Consistent [] w) :
    AllOrNothing (call.acquire env) (call.release env) w ↔ call.whole env w := by
  have hevtchn : EvtchnKept [] w := ⟨hw.ledger, hw.fifo, hw.idle⟩
  cases call with
  | sharedInfo =>
    refine iff_of_true (worldLedger.allOrNothing.2 ?_) trivial
    exact (sharedInfoAcquire_exact env []).allOrNothing hw.ledger
  | twoLevel =>
    refine worldLedger.allOrNothing.trans ⟨fun h h0 => ?_, fun h => ?_⟩
    · exact by_contra fun hnot => evtchnTwoLevelAcquire_spoils hw.ledger h0 hnot h
    · exact (evtchnTwoLevelAcquire_whole env []).allOrNothing ⟨hw.ledger, h⟩
  | fifo =>
    refine worldFifo.allOrNothing.trans ⟨fun h h0 hslips => ?_, fun h => ?_⟩
    · have hspoils := evtchnFifoAcquire_spoils hw.fifo h0 hslips
      exact (h0 ▸ hspoils).not_allOrNothing h
    · exact (evtchnFifoAcquire_exact env).allOrNothing ⟨hw.fifo, h⟩
  | evtchn =>
    refine ⟨fun h => by_contra fun hnot => ?_, fun h => (evtchnAcquire_exact env []).allOrNothing ⟨hevtchn, h⟩⟩
    obtain ⟨seen, -, hspoils⟩ := evtchnAcquire_spoils hevtchn hnot
    exact hspoils.not_allOrNothing h
  | gnttab =>
    refine iff_of_true (worldLower.allOrNothing.2 ?_) trivial
    exact (gnttabAcquire_exact env []).allOrNothing ⟨hw.ledger, hw.gnttab⟩
  | store =>
    obtain ⟨ok, up, hexact⟩ := storeAcquire_exact env
    exact ⟨fun h => by_contra fun hnot => storeAcquire_spoils hw hnot h, fun h => hexact.allOrNothing ⟨hw, h⟩⟩
  | console =>
    obtain ⟨ok, up, hexact⟩ := consoleAcquire_exact env
    exact ⟨fun h => by_contra fun hnot => consoleAcquire_spoils hw hnot h, fun h => hexact.allOrNothing ⟨hw, h⟩⟩

/-- Two processors. -/
def twoProcessors (fails : Point → Bool) : Env where
  Processor := [⟨true, 0, true⟩, ⟨true, 1, true⟩]
  ProcessorCount := 2
  upcallVector := fun _ => .success
  MaximumFrameCount := 32
  UseEvtchnFifoAbi := true
  UseEvtchnUpcall := true
  fails := fails
  distinct := by
    rintro (_ | _ | i) (_ | _ | j) p q hp hq - - hid <;> simp at hp hq <;> subst hp hq <;> simp_all
  inRange := by simp [hvmMaxVcpus]

/-- Nothing is referenced. -/
def idle : World where
  ledger := ⟨fun _ => 0, fun _ => 0, fun _ => [], fun _ => 0⟩
  gnttab := ⟨0, 0, 0⟩
  fifo := ⟨0, fun _ => false, 0⟩
  evtchn := closed

theorem consistent_idle : Consistent [] idle where
  ledger := ⟨fun _ => le_refl 0, fun i _ => by cases i <;> rfl, by simp⟩
  gnttab := fun _ => rfl
  frames := fun hne => absurd rfl hne
  fifo := ⟨le_refl 0, fun _ _ => rfl⟩
  idle := fun _ => rfl

/-- Where the console parameter cannot be read, `ConsoleAcquire` leaves all as it was. -/
theorem allOrNothing_consoleParam :
    AllOrNothing (Call.console.acquire (twoProcessors (· == .consoleParam)))
      (Call.console.release (twoProcessors (· == .consoleParam))) idle :=
  (allOrNothing_iff _ .console consistent_idle).2 fun _ _ _ _ _ =>
    ⟨fun _ _ hslips => hslips.1 (by decide), fun _ _ _ => rfl⟩

/-- Where the page of processor 1 cannot be allocated, `EvtchnFifoAcquire` reports success and holds nothing, and
its `Release` leaves a count of -1. -/
theorem not_allOrNothing_fifo :
    Consistent [] idle ∧ Call.fifo.acquire (twoProcessors (· == .allocatePage 1)) idle = some (true, idle) ∧
      ¬ AllOrNothing (Call.fifo.acquire (twoProcessors (· == .allocatePage 1)))
        (Call.fifo.release (twoProcessors (· == .allocatePage 1))) idle := by
  have hslips : fifoSlips (twoProcessors (· == .allocatePage 1)) := ⟨by decide, by decide, 0, rfl⟩
  have hspoils := evtchnFifoAcquire_spoils (f := idle.fifo) consistent_idle.fifo rfl hslips
  refine ⟨consistent_idle, ?_, fun h => hspoils.not_allOrNothing (worldFifo.allOrNothing.1 h)⟩
  rw [Call.acquire, Part.step]
  exact congrArg (Option.map _) (evtchnFifoAcquire_slips consistent_idle.fifo rfl hslips)

end XenBus.Interfaces
