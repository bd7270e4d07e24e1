import XenBus.Foundations.Transition

/-!
# The event channel of the console

`ConsoleEnable` and `ConsoleDisable` (`xenbus/console.c`) open and close the event channel of the console.
They are called when the interface is acquired, when that is undone, at each resume, and when it is released.
The operations are taken one after the other.

`enabled_of_reaches`: the console is enabled if and only if its channel is open, in every run. `ConsoleEnable`
may fail, but `ConsoleDisable` closes the channel in any case: `agrees_iff` says that the channel is used
properly if and only if each step that disables the console finds it enabled, and in `closed_null` it does
not, after a resume at which `HvmGetParam` has failed.
-/

namespace XenBus.Console

open Transition

/-! ## Data -/

/-- The interfaces that the console acquires. -/
inductive Interface
  | gnttab | evtchn | suspend | debug
  deriving DecidableEq

/-- The context, with the interfaces that are acquired, the event channels that are open with their ports,
and the arguments of those calls of `Close` and `Send` that did not name an open channel. -/
@[ext]
structure State where
  References : ℕ
  Address : ℕ
  Shared : Option ℕ
  Channel : Option ℕ
  SuspendCallbackLate : Bool
  DebugCallback : Bool
  Enabled : Bool
  acquired : Interface → Bool
  opened : ℕ → Option ℕ
  misused : List (Option ℕ)

/-- The context while there are no references to it. -/
def idle (misused : List (Option ℕ)) : State :=
  ⟨0, 0, none, none, false, false, false, fun _ => false, fun _ => none, misused⟩

/-- The context after `ConsoleInitialize`. -/
def initial : State := idle []

/-- The outcomes of the calls of `ConsoleAcquire`: of the four `Acquire`, of `QueryReference` (the PFN), of
`MmMapIoSpace`, of `HvmGetParam` (the value), and of the two `Register`. -/
structure Calls where
  gnttab : Bool
  address : Option ℕ
  shared : Option ℕ
  evtchn : Bool
  param : Option ℕ
  suspend : Bool
  suspendRegister : Bool
  debug : Bool
  debugRegister : Bool

/-! ## The interfaces -/

namespace State

/-- The channel is not `NULL`, and open. -/
def IsOpen (s : State) (Channel : Option ℕ) : Prop := (Channel.bind s.opened).isSome = true

instance (s : State) (Channel : Option ℕ) : Decidable (s.IsOpen Channel) :=
  inferInstanceAs (Decidable (_ = true))

/-- An `Acquire` that succeeds. -/
def acquire (s : State) (i : Interface) : State := { s with acquired := Function.update s.acquired i true }

/-- A `Release`. -/
def release (s : State) (i : Interface) : State := { s with acquired := Function.update s.acquired i false }

theorem release_acquire {s : State} {i : Interface} (h : s.acquired i = false) :
    (s.acquire i).release i = s := by
  simp [acquire, release, ← h]

end State

/-- `XENBUS_EVTCHN(Open)`: the channel that it returns and its port. -/
def EvtchnOpen (Channel Port : ℕ) (s : State) : State :=
  { s with opened := Function.update s.opened Channel (some Port) }

/-- `XENBUS_EVTCHN(Close)`. -/
def EvtchnClose (Channel : Option ℕ) (s : State) : State :=
  if s.IsOpen Channel then { s with opened := fun c => if Channel = some c then none else s.opened c }
  else { s with misused := s.misused ++ [Channel] }

/-- `XENBUS_EVTCHN(Send)`. -/
def EvtchnSend (Channel : Option ℕ) (s : State) : State :=
  if s.IsOpen Channel then s else { s with misused := s.misused ++ [Channel] }

/-! ## The console -/

/-- `ConsoleDisable`. -/
def ConsoleDisable (s : State) : State :=
  { EvtchnClose s.Channel { s with Enabled := false } with Channel := none }

/-- `ConsoleEnable`, with the value of the parameter, if it can be read, and the channel that is opened. -/
def ConsoleEnable (param : Option ℕ) (Channel : ℕ) (s : State) : Bool × State :=
  match param with
  | none => (false, s)
  | some Value =>
    let Port := Value % 4294967296
    (true, { EvtchnOpen Channel Port s with
      Channel := some Channel
      Enabled := true })

/-- `ConsoleSuspendCallbackLate`. The address that it reads is used in an assertion only. -/
def ConsoleSuspendCallbackLate (param : Option ℕ) (Channel : ℕ) (s : State) : State :=
  (ConsoleEnable param Channel (ConsoleDisable s)).2

/-- `ConsoleRead`, where `Read` is what `ConsoleCopyFromIn` returns. -/
def ConsoleRead (Read : ℕ) (s : State) : ℕ × State :=
  if s.Enabled then (Read, if Read ≠ 0 then EvtchnSend s.Channel s else s) else (0, s)

/-- `ConsoleWrite`, where `Written` is what `ConsoleCopyToOut` returns. -/
def ConsoleWrite (Written : ℕ) (s : State) : ℕ × State :=
  if s.Enabled then (Written, if Written ≠ 0 then EvtchnSend s.Channel s else s) else (0, s)

/-! The exits of `ConsoleAcquire`, from its labels on. -/

def fail1 (s : State) : State :=
  { s with
    Address := 0
    References := s.References - 1 }

def fail2 (s : State) : State := fail1 (s.release .gnttab)

def fail3 (s : State) : State := fail2 { s with Address := 0 }

def fail4 (s : State) : State := fail3 { s with Shared := none }

def fail5 (s : State) : State := fail4 (s.release .evtchn)

def fail6 (s : State) : State := fail5 (ConsoleDisable s)

def fail7 (s : State) : State := fail6 (s.release .suspend)

def fail8 (s : State) : State := fail7 { s with SuspendCallbackLate := false }

def fail9 (s : State) : State := fail8 (s.release .debug)

/-- `ConsoleAcquire` from the registration of the callbacks on. -/
def registerCallbacks (calls : Calls) (s : State) : Bool × State :=
  if calls.suspend then
    let s := s.acquire .suspend
    if calls.suspendRegister then
      let s := { s with SuspendCallbackLate := true }
      if calls.debug then
        let s := s.acquire .debug
        if calls.debugRegister then (true, { s with DebugCallback := true })
        else (false, fail9 s)
      else (false, fail8 s)
    else (false, fail7 s)
  else (false, fail6 s)

/-- `ConsoleAcquire`. -/
def ConsoleAcquire (calls : Calls) (Channel : ℕ) (s : State) : Bool × State :=
  let s := { s with References := s.References + 1 }
  if s.References ≠ 1 then (true, s)
  else if calls.gnttab then
    let s := s.acquire .gnttab
    match calls.address with
    | none => (false, fail2 s)
    | some Pfn =>
      let s := { s with Address := Pfn * 4096 % 18446744073709551616 }
      match calls.shared with
      | none => (false, fail3 s)
      | some Shared =>
        let s := { s with Shared := some Shared }
        if calls.evtchn then
          let s := s.acquire .evtchn
          let (status, s) := ConsoleEnable calls.param Channel s
          if status then registerCallbacks calls s else (false, fail5 s)
        else (false, fail4 s)
  else (false, fail1 s)

/-- `ConsoleRelease`. -/
def ConsoleRelease (s : State) : State :=
  let s := { s with References := s.References - 1 }
  if 0 < s.References then s
  else
    let s := ({ s with DebugCallback := false }).release .debug
    let s := ({ s with SuspendCallbackLate := false }).release .suspend
    let s := (ConsoleDisable s).release .evtchn
    ({ s with
      Shared := none
      Address := 0 }).release .gnttab

/-! ## Runs -/

/-- The operations, with the outcomes of the calls that they make. -/
inductive Action
  | acquire (calls : Calls) (Channel : ℕ)
  | late (param : Option ℕ) (Channel : ℕ)
  | read (Read : ℕ)
  | write (Written : ℕ)
  | release

/-- One operation. A channel that is opened was not open before, the callback is called while it is
registered, and a client releases what it has acquired. -/
def step (s : State) : Action → Option State
  | .acquire calls Channel =>
    if s.opened Channel = none then some (ConsoleAcquire calls Channel s).2 else none
  | .late param Channel =>
    if s.SuspendCallbackLate ∧ (ConsoleDisable s).opened Channel = none then
      some (ConsoleSuspendCallbackLate param Channel s)
    else none
  | .read Read => some (ConsoleRead Read s).2
  | .write Written => some (ConsoleWrite Written s).2
  | .release => if 0 < s.References then some (ConsoleRelease s) else none

/-- The console is enabled if and only if its channel is open, only open channels have been used, and none
is left open. -/
structure Agrees (s : State) : Prop where
  enabled : s.Enabled = true ↔ s.IsOpen s.Channel
  used : s.misused = []
  released : s.References = 0 → ∀ Channel, s.opened Channel = none

/-- A step that disables the console, which was enabled, finds it enabled: a resume, and the release of the
last reference. -/
def FindsEnabled (s : State) : Action → Prop
  | .late _ _ => s.Enabled = true
  | .release => s.References = 1 → s.Enabled = true
  | _ => True

instance (s : State) (a : Action) : Decidable (FindsEnabled s a) := by
  cases a <;> unfold FindsEnabled <;> infer_instance

/-! ## The channel -/

variable {s t : State} {param : Option ℕ} {Channel : ℕ}

/-- The channel of the console is the one that is open, and the console is enabled if there is one. -/
structure Linked (s : State) : Prop where
  opened : ∀ c, s.opened c = none ↔ s.Channel ≠ some c
  enabled : s.Enabled = s.Channel.isSome

theorem linked_idle (misused : List (Option ℕ)) : Linked (idle misused) := ⟨by simp [idle], rfl⟩

namespace Linked

theorem isOpen (h : Linked s) : s.Enabled = true ↔ s.IsOpen s.Channel := by
  rw [h.enabled, State.IsOpen]
  cases hChannel : s.Channel with
  | none => simp
  | some c =>
    have hopen : s.opened c ≠ none := fun hnone => (h.opened c).mp hnone hChannel
    simpa using Option.isSome_iff_ne_none.mpr hopen

/-- What is disabled has no channel; that it had none is noted. -/
theorem disable (h : Linked s) : ConsoleDisable s = { s with
    Enabled := false
    Channel := none
    opened := fun _ => none
    misused := if s.Enabled then s.misused else s.misused ++ [none] } := by
  have hsame : State.IsOpen { s with Enabled := false } s.Channel ↔ s.Enabled = true := h.isOpen.symm
  rw [ConsoleDisable, EvtchnClose]
  by_cases hEnabled : s.Enabled = true
  · rw [if_pos (hsame.mpr hEnabled), if_pos hEnabled]
    ext : 1
    case opened =>
      funext c
      by_cases hc : s.Channel = some c
      · simp [hc]
      · simpa [hc] using (h.opened c).mpr hc
    all_goals rfl
  · have hChannel : s.Channel = none := by
      have hnone := h.enabled
      rw [Bool.not_eq_true] at hEnabled
      rw [hEnabled] at hnone
      exact Option.isNone_iff_eq_none.mp (by simpa using hnone.symm)
    rw [if_neg fun hopen => hEnabled (hsame.mp hopen), if_neg hEnabled]
    ext : 1
    case opened =>
      funext c
      exact (h.opened c).mpr (by simp [hChannel])
    case misused => simp [hChannel]
    all_goals rfl

/-- A channel is opened where there was none. -/
theorem enable (h : ∀ c, s.opened c = none) (hChannel : s.Channel = none) (hEnabled : s.Enabled = false) :
    Linked (ConsoleEnable param Channel s).2 := by
  cases param with
  | none => exact ⟨by simp [ConsoleEnable, h, hChannel], by simp [ConsoleEnable, hChannel, hEnabled]⟩
  | some Value =>
    refine ⟨fun c => ?_, rfl⟩
    simp only [ConsoleEnable, EvtchnOpen, ne_eq, Option.some.injEq]
    by_cases hc : c = Channel
    · subst hc
      simp
    · simp [hc, h, Ne.symm hc]

theorem send (h : Linked s) (hEnabled : s.Enabled = true) : EvtchnSend s.Channel s = s :=
  if_pos (h.isOpen.mp hEnabled)

theorem read (h : Linked s) (Read : ℕ) : (ConsoleRead Read s).2 = s := by
  unfold ConsoleRead
  split_ifs with hEnabled hRead
  · exact h.send hEnabled
  · rfl
  · rfl

theorem write (h : Linked s) (Written : ℕ) : (ConsoleWrite Written s).2 = s := by
  unfold ConsoleWrite
  split_ifs with hEnabled hWritten
  · exact h.send hEnabled
  · rfl
  · rfl

end Linked

/-! ## Acquired and idle -/

/-- The interface has been acquired: so have those that it needs, and its callbacks are registered. -/
structure Warm (s : State) : Prop where
  References : 0 < s.References
  acquired : ∀ i, s.acquired i = true
  Shared : s.Shared.isSome = true
  SuspendCallbackLate : s.SuspendCallbackLate = true
  DebugCallback : s.DebugCallback = true
  linked : Linked s

/-- A context with one reference, of which nothing is left but what `fail6` undoes. -/
structure Failing (s : State) : Prop where
  References : s.References = 1
  SuspendCallbackLate : s.SuspendCallbackLate = false
  DebugCallback : s.DebugCallback = false
  suspend : s.acquired .suspend = false
  debug : s.acquired .debug = false
  linked : Linked s

theorem Failing.fail5_eq (h : Failing s) (hEnabled : s.Enabled = false) : fail5 s = idle s.misused := by
  have hChannel : s.Channel = none := by
    have hsome := h.linked.enabled
    rw [hEnabled] at hsome
    exact Option.isNone_iff_eq_none.mp (by simpa using hsome.symm)
  ext : 1
  case References => simp [fail5, fail4, fail3, fail2, fail1, State.release, idle, h.References]
  case Channel => exact hChannel
  case SuspendCallbackLate => exact h.SuspendCallbackLate
  case DebugCallback => exact h.DebugCallback
  case Enabled => exact hEnabled
  case opened => exact funext fun c => (h.linked.opened c).mpr (by simp [hChannel])
  case acquired =>
    funext i
    cases i
    case suspend => exact h.suspend
    case debug => exact h.debug
    all_goals rfl
  all_goals rfl

theorem Failing.fail6_eq (h : Failing s) (hEnabled : s.Enabled = true) : fail6 s = idle s.misused := by
  have hdisable := h.linked.disable
  rw [if_pos hEnabled] at hdisable
  rw [fail6, hdisable]
  exact fail5_eq ⟨h.References, h.SuspendCallbackLate, h.DebugCallback, h.suspend, h.debug, by simp, rfl⟩ rfl

/-- The registration of the callbacks succeeds, or everything is undone. -/
theorem register_eq (calls : Calls) (h : Failing s) (hEnabled : s.Enabled = true) :
    registerCallbacks calls s = (false, idle s.misused) ∨
      registerCallbacks calls s = (true, { s with
        SuspendCallbackLate := true
        DebugCallback := true
        acquired := Function.update (Function.update s.acquired .suspend true) .debug true }) := by
  have hsuspend : (s.acquire .suspend).release .suspend = s := State.release_acquire h.suspend
  have hregister : fail8 { s.acquire .suspend with SuspendCallbackLate := true } = fail6 s := by
    rw [fail8, fail7]
    change fail6 { (s.acquire .suspend).release .suspend with SuspendCallbackLate := false } = fail6 s
    rw [hsuspend, ← h.SuspendCallbackLate]
  have hdebug : fail9 (({ s.acquire .suspend with SuspendCallbackLate := true }).acquire .debug) = fail6 s := by
    rw [← hregister, fail9, State.release_acquire]
    exact h.debug
  have hfail := h.fail6_eq hEnabled
  unfold registerCallbacks
  split_ifs
  · exact .inr rfl
  · exact .inl (congrArg (Prod.mk false) (hdebug.trans hfail))
  · exact .inl (congrArg (Prod.mk false) (hregister.trans hfail))
  · exact .inl (congrArg (Prod.mk false) ((congrArg fail6 hsuspend).trans hfail))
  · exact .inl (congrArg (Prod.mk false) hfail)

/-- **A failed `ConsoleAcquire` leaves nothing behind**; one that succeeds has acquired everything. -/
theorem acquire_idle (calls : Calls) (Channel : ℕ) (misused : List (Option ℕ)) :
    ConsoleAcquire calls Channel (idle misused) = (false, idle misused) ∨
      ∃ t, ConsoleAcquire calls Channel (idle misused) = (true, t) ∧ Warm t ∧ t.References = 1 ∧
        t.misused = misused := by
  obtain ⟨gnttab, address, shared, evtchn, param, suspend, suspendRegister, debug, debugRegister⟩ := calls
  cases gnttab with
  | false => exact .inl rfl
  | true =>
  have hfail2 : fail2 ({ idle misused with References := 1 }.acquire .gnttab) = idle misused := by
    rw [fail2, State.release_acquire rfl]
    rfl
  cases address with
  | none => exact .inl (congrArg (Prod.mk false) hfail2)
  | some Pfn =>
  cases shared with
  | none => exact .inl (congrArg (Prod.mk false) hfail2)
  | some Shared =>
  cases evtchn with
  | false => exact .inl (congrArg (Prod.mk false) hfail2)
  | true =>
  let opening : State :=
    (({ idle misused with
        References := 1
        Address := Pfn * 4096 % 18446744073709551616
        Shared := some Shared }).acquire .gnttab).acquire .evtchn
  cases param with
  | none =>
    have hfailing : Failing opening := ⟨rfl, rfl, rfl, rfl, rfl, by simp [opening, idle, State.acquire], rfl⟩
    exact .inl (congrArg (Prod.mk false) (hfailing.fail5_eq rfl))
  | some Value =>
    let enabled := (ConsoleEnable (some Value) Channel opening).2
    have hfailing : Failing enabled :=
      ⟨rfl, rfl, rfl, rfl, rfl, Linked.enable (fun _ => rfl) rfl rfl⟩
    change registerCallbacks _ enabled = _ ∨ ∃ t, registerCallbacks _ enabled = _ ∧ _
    refine (register_eq _ hfailing rfl).imp_right fun hregister => ⟨_, hregister, ?_, rfl, rfl⟩
    exact
      { References := Nat.zero_lt_one
        acquired := fun i => by cases i <;> rfl
        Shared := rfl
        SuspendCallbackLate := rfl
        DebugCallback := rfl
        linked := ⟨hfailing.linked.opened, hfailing.linked.enabled⟩ }

/-- The invariant: the interface has been acquired, or the context is idle. -/
def Inv (s : State) : Prop := Warm s ∨ s = idle s.misused

theorem Inv.linked (h : Inv s) : Linked s := by
  obtain hwarm | hidle := h
  · exact hwarm.linked
  · rw [hidle]
    exact linked_idle _

theorem Inv.warm (h : Inv s) (hregistered : s.SuspendCallbackLate = true) : Warm s := by
  refine h.resolve_right fun hidle => ?_
  rw [hidle] at hregistered
  cases hregistered

theorem Inv.warm_of_pos (h : Inv s) (hpos : 0 < s.References) : Warm s := by
  refine h.resolve_right fun hidle => ?_
  rw [hidle] at hpos
  exact absurd hpos (Nat.lt_irrefl 0)

/-! ## The operations -/

theorem Inv.acquire (h : Inv s) (calls : Calls) (Channel : ℕ) :
    Inv (ConsoleAcquire calls Channel s).2 ∧ (ConsoleAcquire calls Channel s).2.misused = s.misused := by
  obtain hwarm | hidle := h
  · have hpos := hwarm.References
    have hagain : ConsoleAcquire calls Channel s = (true, { s with References := s.References + 1 }) :=
      if_pos (show s.References + 1 ≠ 1 by omega)
    rw [hagain]
    exact ⟨.inl { hwarm with
      References := Nat.succ_pos _
      linked := ⟨hwarm.linked.opened, hwarm.linked.enabled⟩ }, rfl⟩
  · obtain hfailed | ⟨t, hacquired, hwarm, -, hmisused⟩ := acquire_idle calls Channel s.misused
    · rw [hidle, hfailed]
      exact ⟨.inr rfl, rfl⟩
    · rw [hidle, hacquired]
      exact ⟨.inl hwarm, hmisused⟩

/-- A resume, after which the console is enabled if the parameter could be read. -/
theorem Warm.late (h : Warm s) (param : Option ℕ) (Channel : ℕ) :
    Warm (ConsoleSuspendCallbackLate param Channel s) ∧
      (ConsoleSuspendCallbackLate param Channel s).misused =
        if s.Enabled then s.misused else s.misused ++ [none] := by
  have hlinked : Linked (ConsoleSuspendCallbackLate param Channel s) := by
    rw [ConsoleSuspendCallbackLate, h.linked.disable]
    exact Linked.enable (fun _ => rfl) rfl rfl
  rw [ConsoleSuspendCallbackLate, h.linked.disable] at hlinked ⊢
  cases param with
  | none => exact ⟨{ h with linked := hlinked }, rfl⟩
  | some Value => exact ⟨{ h with linked := hlinked }, rfl⟩

theorem Warm.release (h : Warm s) :
    Inv (ConsoleRelease s) ∧ (ConsoleRelease s).misused =
      if s.References = 1 → s.Enabled = true then s.misused else s.misused ++ [none] := by
  have hpos := h.References
  by_cases hlast : s.References = 1
  · let stopped : State := ({ (({ s with
        References := s.References - 1
        DebugCallback := false }).release .debug) with SuspendCallbackLate := false }).release .suspend
    have hstopped : Linked stopped := ⟨h.linked.opened, h.linked.enabled⟩
    have hreleased : ConsoleRelease s = ({ (ConsoleDisable stopped).release .evtchn with
        Shared := none
        Address := 0 }).release .gnttab :=
      if_neg (show ¬ 0 < s.References - 1 by omega)
    have hidle : ConsoleRelease s = idle (if s.Enabled then s.misused else s.misused ++ [none]) := by
      rw [hreleased, hstopped.disable]
      ext : 1
      case References => exact (by omega : s.References - 1 = 0)
      case acquired =>
        funext i
        cases i <;> rfl
      all_goals rfl
    rw [hidle, if_congr (show (s.References = 1 → s.Enabled = true) ↔ s.Enabled = true by simp [hlast]) rfl rfl]
    exact ⟨.inr rfl, rfl⟩
  · have hmore : ConsoleRelease s = { s with References := s.References - 1 } :=
      if_pos (show 0 < s.References - 1 by omega)
    rw [hmore, if_pos fun hone => absurd hone hlast]
    exact ⟨.inl { h with
      References := show 0 < s.References - 1 by omega
      linked := ⟨h.linked.opened, h.linked.enabled⟩ }, rfl⟩

/-- **One operation** keeps the invariant, and notes whether it has found the console enabled. -/
theorem Inv.step {a : Action} (h : Inv s) (hs : Console.step s a = some t) :
    Inv t ∧ t.misused = if FindsEnabled s a then s.misused else s.misused ++ [none] := by
  cases a with
  | acquire calls Channel =>
    obtain ⟨-, hs⟩ := Option.ite_none_right_eq_some.mp hs
    obtain rfl := Option.some.inj hs
    rw [if_pos (show FindsEnabled s (.acquire calls Channel) from trivial)]
    exact h.acquire calls Channel
  | late param Channel =>
    obtain ⟨⟨hregistered, -⟩, hs⟩ := Option.ite_none_right_eq_some.mp hs
    obtain rfl := Option.some.inj hs
    obtain ⟨hwarm, hmisused⟩ := (h.warm hregistered).late param Channel
    exact ⟨.inl hwarm, hmisused⟩
  | read Read =>
    obtain rfl := Option.some.inj hs
    rw [h.linked.read, if_pos (show FindsEnabled s (.read Read) from trivial)]
    exact ⟨h, rfl⟩
  | write Written =>
    obtain rfl := Option.some.inj hs
    rw [h.linked.write, if_pos (show FindsEnabled s (.write Written) from trivial)]
    exact ⟨h, rfl⟩
  | release =>
    obtain ⟨hpos, hs⟩ := Option.ite_none_right_eq_some.mp hs
    obtain rfl := Option.some.inj hs
    exact (h.warm_of_pos hpos).release

/-! ## Runs -/

theorem Inv.agrees_iff_used (h : Inv s) : Agrees s ↔ s.misused = [] := by
  refine ⟨fun hagrees => hagrees.used, fun hused => ⟨h.linked.isOpen, hused, fun hzero => ?_⟩⟩
  obtain hwarm | hidle := h
  · exact absurd hwarm.References (by omega)
  · rw [hidle]
    exact fun _ => rfl

theorem inv_of_reaches (h : Reaches step Free initial s) : Inv s :=
  h.invariant (.inr rfl) fun _ _ _ hinv _ hs => (hinv.step hs).1

/-- **Enabled and channel agree** in every run: the console is enabled if and only if its channel is open, and
none is open without a reference. -/
theorem enabled_of_reaches (h : Reaches step Free initial s) :
    (s.Enabled = true ↔ s.IsOpen s.Channel) ∧ (s.References = 0 → ∀ Channel, s.opened Channel = none) := by
  have hinv := inv_of_reaches h
  refine ⟨hinv.linked.isOpen, fun hzero => ?_⟩
  obtain hwarm | hidle := hinv
  · exact absurd hwarm.References (by omega)
  · rw [hidle]
    exact fun _ => rfl

/-- **Only open channels are used** in exactly those runs in which each step that disables the console finds
it enabled. -/
theorem agrees_iff (h : Reaches step Free initial s) :
    Agrees s ↔ Reaches step FindsEnabled initial s := by
  rw [(inv_of_reaches h).agrees_iff_used]
  constructor
  · refine h.restrict (P := Inv) (Q := fun s => s.misused = []) (.inr rfl) fun s a t hinv _ hs => ?_
    obtain ⟨hinv', hmisused⟩ := hinv.step hs
    refine ⟨hinv', fun hused => ?_⟩
    rw [hmisused] at hused
    split_ifs at hused with hfinds
    · exact ⟨hused, hfinds⟩
    · exact absurd hused (by simp)
  · intro h
    refine (h.invariant (P := fun s => Inv s ∧ s.misused = []) ⟨.inr rfl, rfl⟩ ?_).2
    intro s a t hinv hfinds hs
    obtain ⟨hinv', hmisused⟩ := hinv.1.step hs
    rw [if_pos hfinds] at hmisused
    exact ⟨hinv', hmisused.trans hinv.2⟩

/-- Every call of `ConsoleAcquire` succeeds. -/
def succeeding : Calls := ⟨true, some 65281, some 1, true, some 3, true, true, true, true⟩

/-- A console is acquired, its channel is used, it is opened again at a resume, and released. -/
theorem agrees_run : ∃ s, Reaches step Free initial s ∧ Agrees s ∧ s.References = 0 := by
  have hrun : (guardedRun step FindsEnabled initial
      [.acquire succeeding 5, .write 12, .late (some 3) 5, .read 1, .release]).any
      (fun s => decide (s.References = 0)) = true := by decide +kernel
  obtain ⟨s, hs, hzero⟩ := (Option.any_eq_true _ _).mp hrun
  have hguarded := reaches_of_guardedRun hs
  have hfree : Reaches step Free initial s := hguarded.mono fun _ _ _ => trivial
  exact ⟨s, hfree, (agrees_iff hfree).mpr hguarded, of_decide_eq_true hzero⟩

/-- The parameter of a console can be read when it is acquired, and not at a resume: `ConsoleRelease` closes
`NULL`. -/
theorem closed_null :
    ∃ s, Reaches step Free initial s ∧ ¬ Agrees s ∧ s.References = 0 ∧ s.misused = [none] := by
  have hrun : (run step initial [.acquire succeeding 5, .late none 6, .release]).any
      (fun s => decide (s.References = 0 ∧ s.misused = [none])) = true := by decide +kernel
  obtain ⟨s, hs, hend⟩ := (Option.any_eq_true _ _).mp hrun
  obtain ⟨hzero, hmisused⟩ := of_decide_eq_true hend
  exact ⟨s, reaches_of_run hs, fun hagrees => absurd (hmisused.symm.trans hagrees.used) (by simp), hzero,
    hmisused⟩

end XenBus.Console
