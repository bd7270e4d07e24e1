import XenBus.Fdo.Balloon

/-!
# The hand-over between the suspend thread and the balloon thread

`FdoSuspend` and `FdoBalloon` (`fdo.c`) once more, with what `XenBus.Fdo.Balloon` takes as one step taken
apart: `BalloonSuspendMutex` is an event that is signalled while the mutex is free and an `Owner` that is
written after the event has been taken (`mutex.h`), each thread waits for an event of its own, which it
clears after the wait and which `ThreadWake` sets (`thread.c`), and the thread that releases the mutex wakes
the other one.

A thread that does not get the mutex goes back to wait. `tried_again_of_reaches` shows that it is woken:
as long as it has not looked at its request again, the other thread holds the mutex or is about to wake
it, or its event is signalled, or its wait is over. It need not try again then: a pass that finds the
device not in `PowerDeviceD0`, or no request, ends without a try (`request_withdrawn`).
-/

namespace XenBus.Fdo.HandOver

open Transition

/-! ## Data -/

/-- Where a thread is. `request` belongs to `FdoSuspend`, and `init`, `target` and `compare` to
`FdoBalloon`. -/
inductive Place
  /-- In `KeWaitForSingleObject`. -/
  | waiting
  /-- Before `KeClearEvent`. -/
  | clear
  /-- Before `ThreadIsAlerted`. -/
  | awake
  /-- Before `__FdoGetDevicePowerState`. -/
  | power
  /-- Before the read of `control/shutdown`. -/
  | request
  /-- Before `if (!Initialized)`. -/
  | init
  /-- Before the read of `memory/target`. -/
  | target
  /-- Before `XENBUS_BALLOON(GetSize)`. -/
  | compare
  /-- In `TryAcquireMutex`, before the wait. -/
  | setActive
  /-- In `TryAcquireMutex`, after the wait. -/
  | own
  /-- Before `XENBUS_SUSPEND(Trigger)` or `XENBUS_BALLOON(Adjust)`. -/
  | work
  /-- In `ReleaseMutex`, before `Owner` is written. -/
  | disown
  /-- In `ReleaseMutex`, before `KeSetEvent`. -/
  | signal
  /-- Before the other thread is woken. -/
  | wake
  /-- At the label `loop`. -/
  | loop
  | exited
  deriving DecidableEq

/-- `XENBUS_THREAD`, with the place of the thread in its function. `failed` and `again` are not in the
source: the last try to acquire the mutex failed, and a pass has come to its end since without a try. -/
structure Thread where
  place : Place
  Event : Bool
  Alerted : Bool
  failed : Bool
  again : Bool

/-- `MUTEX`. -/
structure Mutex where
  Owner : Option Owner
  Event : Bool

/-- The two threads with what they share, and the locals of `FdoBalloon`. -/
structure State where
  thread : Owner → Thread
  BalloonSuspendMutex : Mutex
  /-- `BalloonInterface.Interface.Context != NULL`. -/
  BalloonInterface : Bool
  /-- The device is in `PowerDeviceD0`. -/
  power : Bool
  /-- `control/shutdown` is `suspend`. -/
  shutdown : Bool
  /-- `memory/target`. -/
  target : ℕ
  /-- The size of the balloon. -/
  size : ℕ
  StaticMax : ℕ
  Initialized : Bool
  Active : Bool
  Size : ℕ

/-- The thread that a thread shares the mutex with. -/
def other : Owner → Owner
  | .balloon => .suspend
  | .suspend => .balloon

@[simp] theorem other_other (t : Owner) : other (other t) = t := by cases t <;> rfl

theorem other_ne (t : Owner) : other t ≠ t := by cases t <;> decide

theorem eq_other_of_ne {t u : Owner} (h : u ≠ t) : u = other t := by
  cases t <;> cases u <;> first | rfl | exact absurd rfl h

/-! ## The threads -/

/-- A thread of the state becomes another one. -/
def State.setThread (s : State) (t : Owner) (thread : Thread) : State :=
  { s with thread := Function.update s.thread t thread }

@[simp] theorem setThread_self (s : State) (t : Owner) (thread : Thread) :
    (s.setThread t thread).thread t = thread := Function.update_self ..

theorem setThread_of_ne {t u : Owner} (hu : u ≠ t) (s : State) (thread : Thread) :
    (s.setThread u thread).thread t = s.thread t := Function.update_of_ne hu.symm ..

/-- A thread moves. -/
def State.goTo (s : State) (t : Owner) (place : Place) : State :=
  s.setThread t { s.thread t with place := place }

/-- A pass ends without a try. -/
def State.idle (s : State) (t : Owner) : State :=
  s.setThread t { s.thread t with
    place := .loop
    again := true }

/-- `StaticMax` in pages, unless a read fails or there is not enough. -/
def staticMax (videoRAM : Option ℕ) : Option ℕ → Option ℕ
  | none | some 0 => none
  | some StaticMax =>
    if StaticMax < videoRAM.getD 0 then none else some ((StaticMax - videoRAM.getD 0) / 4)

/-- Where a thread begins to look for its request. -/
def look : Owner → Place
  | .balloon => .init
  | .suspend => .request

/-- A thread looks for its request: `FdoSuspend` in `control/shutdown`, and `FdoBalloon` in the size of the
balloon. -/
def lookStep (s : State) : Owner → Place → Choice → Option State
  | .suspend, .request, .read success =>
    some (if success ∧ s.shutdown then s.goTo .suspend .setActive else s.idle .suspend)
  | .balloon, .init, .limits StaticMax videoRAM =>
    some (if s.Initialized then s.goTo .balloon .target
    else match staticMax videoRAM StaticMax with
      | none => s.idle .balloon
      | some StaticMax => { s.goTo .balloon .target with
        StaticMax := StaticMax
        Initialized := true })
  | .balloon, .target, .read success =>
    some (if success then { s.goTo .balloon .compare with Size := sizeFor s.StaticMax s.target }
    else s.idle .balloon)
  | .balloon, .compare, .go =>
    some (if s.size = s.Size then s.idle .balloon
    else s.goTo .balloon (if s.Active then .work else .setActive))
  | _, _, _ => none

/-- `ThreadWake`, which others call too at any time, `ThreadAlert` after it has set `Alerted`. -/
def State.ThreadWake (s : State) (t : Owner) : State :=
  s.setThread t { s.thread t with Event := true }

/-- The first half of `TryAcquireMutex`. -/
def tryAcquire (s : State) (t : Owner) : State :=
  if s.BalloonSuspendMutex.Event then
    { s.setThread t { s.thread t with
        place := .own
        failed := false
        again := false } with
      BalloonSuspendMutex := { s.BalloonSuspendMutex with Event := false } }
  else s.setThread t { s.thread t with
    place := .loop
    failed := true
    again := false }

/-- `XENBUS_SUSPEND(Trigger)` after the request has been taken out of the store, unless that fails, and
`XENBUS_BALLOON(Adjust)`. -/
def work (s : State) : Owner → Choice → Option State
  | .suspend, .read success => some { s.goTo .suspend .disown with shutdown := s.shutdown && !success }
  | .balloon, .adjusted success size =>
    some (if success then { s.goTo .balloon .disown with
      size := size
      Active := false }
    else { s.goTo .balloon .loop with size := size })
  | _, _ => none

/-- The next step of a thread. -/
def threadStep (s : State) (t : Owner) : Place → Choice → Option State
  | .waiting, .go =>
    -- The balloon thread waits with a timeout while it holds the mutex.
    if (s.thread t).Event ∨ t = .balloon ∧ s.Active then some (s.goTo t .clear) else none
  | .clear, .go =>
    some (s.setThread t { s.thread t with
      Event := false
      place := .awake })
  | .awake, .go => some (s.goTo t (if (s.thread t).Alerted then .exited else .power))
  | .power, .go =>
    some (if s.power then s.goTo t (look t)
    else if t = .balloon ∧ s.Active then { s.goTo t .disown with Active := false }
    else s.idle t)
  | .setActive, .go => some (tryAcquire s t)
  | .own, .go =>
    some { s.goTo t .work with
      BalloonSuspendMutex := { s.BalloonSuspendMutex with Owner := some t }
      Active := s.Active || t = .balloon }
  | .work, choice => work s t choice
  | .disown, .go =>
    some { s.goTo t .signal with BalloonSuspendMutex := { s.BalloonSuspendMutex with Owner := none } }
  | .signal, .go =>
    some { s.goTo t .wake with BalloonSuspendMutex := { s.BalloonSuspendMutex with Event := true } }
  | .wake, .go =>
    -- `FdoSuspend` wakes the balloon thread if there is one.
    some (if t = .balloon ∨ s.BalloonInterface then (s.goTo t .loop).ThreadWake (other t) else s.goTo t .loop)
  | .loop, .go => some (s.goTo t .waiting)
  | place, choice => lookStep s t place choice

/-! ## The system -/

/-- A step: of a thread, or of its surroundings, which wake and alert the threads, change the store and the
power state. -/
inductive Action
  | thread (t : Owner) (choice : Choice)
  | wake (t : Owner)
  | alert (t : Owner)
  | setPower (power : Bool)
  | setShutdown (shutdown : Bool)
  | setTarget (target : ℕ)

def step (s : State) : Action → Option State
  | .thread t choice => threadStep s t (s.thread t).place choice
  | .wake t => some (s.ThreadWake t)
  | .alert t => some (s.setThread t { s.thread t with Alerted := true })
  | .setPower power => some { s with power := power }
  | .setShutdown shutdown => some { s with shutdown := shutdown }
  | .setTarget target => some { s with target := target }

/-- A thread before its first pass. -/
def newThread : Thread where
  place := .waiting
  Event := false
  Alerted := false
  failed := false
  again := false

/-- The threads have been created. -/
def init (power BalloonInterface shutdown : Bool) (target size : ℕ) : State where
  thread := fun _ => newThread
  BalloonSuspendMutex := ⟨none, true⟩
  BalloonInterface := BalloonInterface
  power := power
  shutdown := shutdown
  target := target
  size := size
  StaticMax := 0
  Initialized := false
  Active := false
  Size := 0

/-! ## The mutex -/

/-- Between the wait for the event of the mutex and `KeSetEvent`. -/
def InMutex (place : Place) : Prop := place = .own ∨ place = .work ∨ place = .disown ∨ place = .signal

/-- The thread holds the mutex: the balloon thread over several passes. -/
def Holds (s : State) (t : Owner) : Prop :=
  InMutex (s.thread t).place ∨ t = .balloon ∧ s.Active = true

/-- Without the mutex, and with no wake to execute. -/
def Outside (place : Place) : Prop := ¬ InMutex place ∧ place ≠ .wake

/-- The thread has come back from its wait. -/
def PastWait (place : Place) : Prop := place ≠ .loop ∧ place ≠ .waiting

/-- The last try failed, and no pass has come to its end since. -/
def Missed (thread : Thread) : Prop := thread.failed = true ∧ thread.again = false

/-- What a thread that did not get the mutex can rely on. -/
def HandedOver (s : State) (t : Owner) : Prop :=
  Holds s (other t) ∨ (s.thread (other t)).place = .wake ∨ (s.thread t).Event = true ∨
    PastWait (s.thread t).place

/-- The places where the balloon thread is without the mutex, or releases it. -/
def Inactive (place : Place) : Prop :=
  place = .setActive ∨ place = .own ∨ place = .disown ∨ place = .signal ∨ place = .wake

instance (place : Place) : Decidable (InMutex place) := inferInstanceAs (Decidable (_ ∨ _))

instance (place : Place) : Decidable (Outside place) := inferInstanceAs (Decidable (_ ∧ _))

instance (place : Place) : Decidable (PastWait place) := inferInstanceAs (Decidable (_ ∧ _))

instance (place : Place) : Decidable (Inactive place) := inferInstanceAs (Decidable (_ ∨ _))

instance (s : State) (t : Owner) : Decidable (Holds s t) := inferInstanceAs (Decidable (_ ∨ _))

instance (thread : Thread) : Decidable (Missed thread) := inferInstanceAs (Decidable (_ ∧ _))

instance (s : State) (t : Owner) : Decidable (HandedOver s t) := inferInstanceAs (Decidable (_ ∨ _))

/-- The invariant. -/
structure Inv (s : State) : Prop where
  interface : s.BalloonInterface = true
  event : s.BalloonSuspendMutex.Event = true ↔ ∀ t, ¬ Holds s t
  alone : ∀ t, Holds s t → ¬ Holds s (other t)
  active : s.Active = true → ¬ Inactive (s.thread .balloon).place
  work : (s.thread .balloon).place = .work → s.Active = true
  owner : ∀ t, s.BalloonSuspendMutex.Owner = some t ↔
    Holds s t ∧ (s.thread t).place ≠ .own ∧ (s.thread t).place ≠ .signal
  succeeded : ∀ t, Holds s t ∨ (s.thread t).place = .wake → (s.thread t).failed = false
  handed : ∀ t, Missed (s.thread t) → HandedOver s t

variable {s s' : State} {t : Owner} {thread : Thread}

theorem inv_init (power shutdown : Bool) (target size : ℕ) : Inv (init power true shutdown target size) where
  interface := rfl
  event := by simp [init, newThread, Holds, InMutex]
  alone := by simp [init, newThread, Holds, InMutex]
  active := by simp [init]
  work := by simp [init, newThread]
  owner := by simp [init, newThread, Holds, InMutex]
  succeeded := by simp [init, newThread]
  handed := by simp [init, newThread, Missed]

/-- A statement about both threads. -/
theorem forall_threads (t : Owner) {P : Owner → Prop} : (∀ u, P u) ↔ P t ∧ P (other t) := by
  constructor
  · exact fun h => ⟨h t, h (other t)⟩
  · rintro ⟨h, hother⟩ u
    by_cases hu : u = t
    · exact hu ▸ h
    · exact eq_other_of_ne hu ▸ hother

theorem Inv.event_iff (h : Inv s) (t : Owner) :
    s.BalloonSuspendMutex.Event = true ↔ ¬ Holds s t ∧ ¬ Holds s (other t) :=
  h.event.trans (forall_threads t)

/-- A step of one thread. -/
structure Moved (s s' : State) (t : Owner) (thread : Thread) : Prop where
  thread : s'.thread = Function.update s.thread t thread
  interface : s'.BalloonInterface = s.BalloonInterface
  active : t ≠ .balloon → s'.Active = s.Active

namespace Moved

variable (hm : Moved s s' t thread)

include hm

theorem self : s'.thread t = thread := by rw [hm.thread, Function.update_self]

theorem others : s'.thread (other t) = s.thread (other t) := by
  rw [hm.thread, Function.update_of_ne (other_ne t)]

theorem holds : Holds s' t ↔ InMutex thread.place ∨ t = .balloon ∧ s'.Active = true := by
  unfold Holds
  rw [hm.self]

theorem holds_other : Holds s' (other t) ↔ Holds s (other t) := by
  unfold Holds
  rw [hm.others]
  cases t with
  | balloon => simp [other]
  | suspend => rw [hm.active (by decide)]

theorem handedOver : HandedOver s' t ↔ Holds s (other t) ∨ (s.thread (other t)).place = .wake ∨
    thread.Event = true ∨ PastWait thread.place := by
  unfold HandedOver
  rw [hm.holds_other, hm.others, hm.self]

theorem handedOver_other : HandedOver s' (other t) ↔ Holds s' t ∨ thread.place = .wake ∨
    (s.thread (other t)).Event = true ∨ PastWait (s.thread (other t)).place := by
  unfold HandedOver
  rw [other_other, hm.others, hm.self]

/-- What is left to show about a step of one thread. -/
theorem inv (h : Inv s)
    (hevent : s'.BalloonSuspendMutex.Event = true ↔ ¬ Holds s' t ∧ ¬ Holds s (other t))
    (halone : Holds s' t → ¬ Holds s (other t))
    (hactive : t = .balloon → s'.Active = true → ¬ Inactive thread.place)
    (hwork : t = .balloon → thread.place = .work → s'.Active = true)
    (howner : s'.BalloonSuspendMutex.Owner = some t ↔
      Holds s' t ∧ thread.place ≠ .own ∧ thread.place ≠ .signal)
    (hothers : s'.BalloonSuspendMutex.Owner = some (other t) ↔
      s.BalloonSuspendMutex.Owner = some (other t))
    (hsucceeded : Holds s' t ∨ thread.place = .wake → thread.failed = false)
    (hhanded : Missed thread → HandedOver s' t)
    (hkept : Holds s t ∨ (s.thread t).place = .wake → Holds s' t ∨ thread.place = .wake ∨
      (s.thread (other t)).failed = false ∨ (s.thread (other t)).Event = true) : Inv s' := by
  constructor
  case interface => rw [hm.interface, h.interface]
  case event =>
    rw [forall_threads t, hm.holds_other]
    exact hevent
  case alone =>
    rw [forall_threads t, hm.holds_other, other_other]
    exact ⟨halone, fun hother hself => halone hself hother⟩
  case active =>
    by_cases ht : t = .balloon
    · subst ht
      rw [hm.self]
      exact hactive rfl
    · obtain rfl : t = .suspend := eq_other_of_ne ht
      rw [hm.active ht, show Owner.balloon = other .suspend from rfl, hm.others]
      exact h.active
  case work =>
    by_cases ht : t = .balloon
    · subst ht
      rw [hm.self]
      exact hwork rfl
    · obtain rfl : t = .suspend := eq_other_of_ne ht
      rw [hm.active ht, show Owner.balloon = other .suspend from rfl, hm.others]
      exact h.work
  case owner =>
    rw [forall_threads t, hm.holds_other, hm.others, hm.self, hothers]
    exact ⟨howner, h.owner (other t)⟩
  case succeeded =>
    rw [forall_threads t, hm.holds_other, hm.others, hm.self]
    exact ⟨hsucceeded, h.succeeded (other t)⟩
  case handed =>
    rw [forall_threads t, hm.others, hm.self, hm.handedOver_other]
    refine ⟨hhanded, fun hmissed => ?_⟩
    obtain hholds | hwake | hevent | hpast := h.handed (other t) hmissed
    · rw [other_other] at hholds
      obtain hholds | hwake | hfailed | hevent := hkept (.inl hholds)
      · exact .inl hholds
      · exact .inr (.inl hwake)
      · rw [hmissed.1] at hfailed
        cases hfailed
      · exact .inr (.inr (.inl hevent))
    · rw [other_other] at hwake
      obtain hholds | hwake | hfailed | hevent := hkept (.inr hwake)
      · exact .inl hholds
      · exact .inr (.inl hwake)
      · rw [hmissed.1] at hfailed
        cases hfailed
      · exact .inr (.inr (.inl hevent))
    · exact .inr (.inr (.inl hevent))
    · exact .inr (.inr (.inr hpast))

/-- A step that leaves the mutex alone. -/
theorem quiet (h : Inv s) (hmutex : s'.BalloonSuspendMutex = s.BalloonSuspendMutex)
    (hholds : Holds s' t ↔ Holds s t) (hActive : s'.Active = s.Active)
    (hfrom : (s.thread t).place ≠ .own ∧ (s.thread t).place ≠ .signal ∧ (s.thread t).place ≠ .wake)
    (hto : thread.place ≠ .own ∧ thread.place ≠ .signal ∧ thread.place ≠ .wake)
    (hactive : t = .balloon → s.Active = true → ¬ Inactive thread.place)
    (hwork : t = .balloon → thread.place = .work → s.Active = true)
    (hfailed : Holds s t → thread.failed = false)
    (hhanded : Missed thread → HandedOver s' t) : Inv s' := by
  refine hm.inv h ?_ ?_ ?_ ?_ ?_ ?_ ?_ hhanded ?_
  · rw [hmutex, hholds]
    exact h.event_iff t
  · rw [hholds]
    exact h.alone t
  · rw [hActive]
    exact hactive
  · rw [hActive]
    exact hwork
  · rw [hmutex, hholds, h.owner t]
    simp only [ne_eq, hfrom.1, hfrom.2.1, hto.1, hto.2.1]
  · rw [hmutex]
  · rw [hholds]
    rintro (hh | hwake)
    · exact hfailed hh
    · exact absurd hwake hto.2.2
  · rw [hholds]
    rintro (hh | hwake)
    · exact .inl hh
    · exact absurd hwake hfrom.2.2

/-- A step between two places outside the mutex. -/
theorem outside (h : Inv s) (hmutex : s'.BalloonSuspendMutex = s.BalloonSuspendMutex)
    (hActive : s'.Active = s.Active) {old : Place} (hplace : (s.thread t).place = old)
    (hfrom : Outside old) (hto : Outside thread.place)
    (hset : thread.place = .setActive → t = .balloon → s.Active = false)
    (hfailed : thread.failed = (s.thread t).failed ∨ ¬ Holds s t)
    (hhanded : Missed thread → HandedOver s' t) : Inv s' := by
  subst hplace
  obtain ⟨hfrom, hfrom'⟩ := hfrom
  obtain ⟨hto, hto'⟩ := hto
  have hfrom'' := not_or.mp hfrom
  have hto'' := not_or.mp hto
  refine hm.quiet h hmutex ?_ hActive ?_ ?_ ?_ ?_ ?_ hhanded
  · rw [hm.holds, hActive, Holds]
    simp only [hfrom, hto]
  · exact ⟨hfrom''.1, fun hsignal => hfrom (by simp [InMutex, hsignal]), hfrom'⟩
  · exact ⟨hto''.1, fun hsignal => hto (by simp [InMutex, hsignal]), hto'⟩
  · rintro ht hActive' (hplace | hplace | hplace | hplace | hplace)
    · rw [hset hplace ht] at hActive'
      cases hActive'
    · exact hto''.1 hplace
    · exact hto (by simp [InMutex, hplace])
    · exact hto (by simp [InMutex, hplace])
    · exact hto' hplace
  · exact fun _ hplace => absurd (by simp [InMutex, hplace]) hto
  · intro hh
    obtain hf | hf := hfailed
    · rw [hf]
      exact h.succeeded t (.inl hh)
    · exact absurd hh hf

end Moved

/-! ## Steps of a thread -/

theorem moved_setThread (s : State) (t : Owner) (thread : Thread) :
    Moved s (s.setThread t thread) t thread :=
  ⟨rfl, rfl, fun _ => rfl⟩

/-- A thread that did not get the mutex and has come back from its wait keeps what it relies on. -/
theorem handedOver_of_pastWait (hthread : s'.thread t = thread) (hpast : PastWait thread.place) :
    HandedOver s' t :=
  .inr (.inr (.inr (by rwa [hthread])))

/-- A step past the wait, without the mutex. -/
theorem Inv.goTo {place : Place} (h : Inv s) (hm : Moved s s' t { s.thread t with place := place })
    (hmutex : s'.BalloonSuspendMutex = s.BalloonSuspendMutex) (hActive : s'.Active = s.Active)
    {old : Place} (hplace : (s.thread t).place = old) (hfrom : Outside old) (hto : Outside place)
    (hpast : PastWait place) (hset : place = .setActive → t = .balloon → s.Active = false) : Inv s' :=
  hm.outside h hmutex hActive hplace hfrom hto hset (.inl rfl)
    fun _ => handedOver_of_pastWait hm.self hpast

/-- The end of a pass without a try. -/
theorem Inv.idle (h : Inv s) {old : Place} (hplace : (s.thread t).place = old) (hfrom : Outside old) :
    Inv (s.idle t) :=
  (moved_setThread s t _).outside h rfl rfl hplace hfrom (by simp [Outside, InMutex]) (by simp) (.inl rfl)
    fun hmissed => absurd hmissed.2 (by simp)

/-- The balloon thread has not acquired the mutex where it tries to. -/
theorem Inv.not_holds (h : Inv s) (hplace : (s.thread t).place = .setActive) : ¬ Holds s t := by
  rintro (hin | ⟨rfl, hActive⟩)
  · rw [hplace] at hin
    revert hin
    decide
  · exact h.active hActive (by rw [hplace]; decide)

theorem Inv.tryAcquire (h : Inv s) (hplace : (s.thread t).place = .setActive) : Inv (tryAcquire s t) := by
  have hnot := h.not_holds hplace
  unfold HandOver.tryAcquire
  split_ifs with hevent
  · have hfree := h.event.mp hevent
    have hm : Moved s _ t _ := moved_setThread s t { s.thread t with
      place := .own
      failed := false
      again := false }
    refine Moved.inv ⟨hm.thread, rfl, hm.active⟩ h ?_ ?_ ?_ ?_ ?_ ?_ ?_ ?_ ?_
    · simp [Holds, State.setThread, InMutex]
    · exact fun _ => hfree (other t)
    · rintro rfl hActive
      exact absurd (.inr ⟨rfl, hActive⟩) hnot
    · simp
    · simp [State.setThread, h.owner, hnot]
    · rfl
    · simp
    · exact fun hmissed => absurd hmissed.1 (by simp)
    · rintro (hh | hwake)
      · exact absurd hh hnot
      · rw [hplace] at hwake
        cases hwake
  · have hm := moved_setThread s t { s.thread t with
      place := .loop
      failed := true
      again := false }
    refine hm.outside h rfl rfl hplace (by decide) (by simp [Outside, InMutex]) (by simp) (.inr hnot) fun _ => ?_
    -- The event of the mutex is not signalled, so one of the two threads holds it.
    rw [hm.handedOver]
    by_contra hother
    apply hevent
    exact (h.event_iff t).mpr ⟨hnot, fun hh => hother (.inl hh)⟩

theorem Inv.own (h : Inv s) (hplace : (s.thread t).place = .own) : Inv { s.goTo t .work with
    BalloonSuspendMutex := { s.BalloonSuspendMutex with Owner := some t }
    Active := s.Active || t = .balloon } := by
  have hholds : Holds s t := .inl (by rw [hplace]; decide)
  have hm : Moved s { s.goTo t .work with
      BalloonSuspendMutex := { s.BalloonSuspendMutex with Owner := some t }
      Active := s.Active || t = .balloon } t { s.thread t with place := .work } :=
    ⟨rfl, rfl, fun ht => by simp [ht]⟩
  have hholds' := hm.holds.mpr (.inl (by simp [InMutex]))
  refine hm.inv h ?_ ?_ ?_ ?_ ?_ ?_ ?_ ?_ ?_
  · refine (h.event_iff t).trans ?_
    simp [hholds, hholds']
  · exact fun _ => h.alone t hholds
  · simp [Inactive]
  · rintro rfl -
    simp
  · simp [hholds']
  · have hno : ¬ s.BalloonSuspendMutex.Owner = some (other t) := fun howner =>
      h.alone t hholds ((h.owner _).mp howner).1
    simp [hno, (other_ne t).symm]
  · exact fun _ => h.succeeded t (.inl hholds)
  · exact fun _ => hm.handedOver.mpr (.inr (.inr (.inr (by simp [PastWait]))))
  · exact fun _ => .inl hholds'

/-- The thread that holds the mutex goes to the place where it releases it, or stays. -/
theorem Inv.toDisown (h : Inv s) (hholds : Holds s t)
    (hown : (s.thread t).place ≠ .own ∧ (s.thread t).place ≠ .signal)
    (hm : Moved s s' t { s.thread t with place := .disown })
    (hmutex : s'.BalloonSuspendMutex = s.BalloonSuspendMutex)
    (hActive : t = .balloon → s'.Active = false) : Inv s' := by
  have hholds' := hm.holds.mpr (.inl (by simp [InMutex]))
  refine hm.inv h ?_ ?_ ?_ ?_ ?_ ?_ ?_ ?_ ?_
  · rw [hmutex, h.event_iff t]
    simp [hholds, hholds']
  · exact fun _ => h.alone t hholds
  · intro ht hActive'
    rw [hActive ht] at hActive'
    cases hActive'
  · simp
  · simp [hmutex, h.owner, hholds, hholds', hown]
  · rw [hmutex]
  · exact fun _ => h.succeeded t (.inl hholds)
  · exact fun _ => hm.handedOver.mpr (.inr (.inr (.inr (by simp [PastWait]))))
  · exact fun _ => .inl hholds'

/-- The balloon thread keeps the mutex over an adjustment that fails. -/
theorem Inv.retry (h : Inv s) (hplace : (s.thread .balloon).place = .work) (size : ℕ) :
    Inv { s.goTo .balloon .loop with size := size } := by
  have hActive := h.work hplace
  have hholds : Holds s .balloon := .inr ⟨rfl, hActive⟩
  have hm : Moved s { s.goTo .balloon .loop with size := size } .balloon _ :=
    ⟨rfl, rfl, fun _ => rfl⟩
  have hfailed := h.succeeded .balloon (.inl hholds)
  refine hm.quiet h rfl ?_ rfl (by rw [hplace]; decide) (by simp) (by simp [Inactive]) (by simp)
    (fun _ => hfailed) fun hmissed => ?_
  · exact iff_of_true (.inr ⟨rfl, hActive⟩) hholds
  · exact absurd hmissed.1 (by simp [hfailed])

/-- `ASSERT3P(Mutex->Owner, ==, NULL)`. -/
theorem Inv.owner_none (h : Inv s) (hplace : (s.thread t).place = .own) :
    s.BalloonSuspendMutex.Owner = none := by
  have hholds : Holds s t := .inl (by rw [hplace]; decide)
  rw [Option.eq_none_iff_forall_ne_some]
  intro u howner
  obtain ⟨hu, hne, -⟩ := (h.owner u).mp howner
  by_cases hut : u = t
  · exact hne (hut ▸ hplace)
  · exact h.alone t hholds (eq_other_of_ne hut ▸ hu)

/-- `ASSERT3P(Mutex->Owner, ==, KeGetCurrentThread())`. -/
theorem Inv.owner_self (h : Inv s) (hplace : (s.thread t).place = .disown) :
    s.BalloonSuspendMutex.Owner = some t :=
  (h.owner t).mpr ⟨.inl (by rw [hplace]; decide), by rw [hplace]; decide, by rw [hplace]; decide⟩

theorem Inv.disown (h : Inv s) (hplace : (s.thread t).place = .disown) :
    Inv { s.goTo t .signal with BalloonSuspendMutex := { s.BalloonSuspendMutex with Owner := none } } := by
  have hholds : Holds s t := .inl (by rw [hplace]; decide)
  have hm : Moved s { s.goTo t .signal with
      BalloonSuspendMutex := { s.BalloonSuspendMutex with Owner := none } } t _ := ⟨rfl, rfl, fun _ => rfl⟩
  have hholds' := hm.holds.mpr (.inl (by simp [InMutex]))
  refine hm.inv h ?_ ?_ ?_ ?_ ?_ ?_ ?_ ?_ ?_
  · refine (h.event_iff t).trans ?_
    simp [hholds, hholds']
  · exact fun _ => h.alone t hholds
  · rintro rfl hActive
    exact absurd (by rw [hplace]; decide) (h.active hActive)
  · simp
  · simp
  · simp [h.owner_self hplace, (other_ne t).symm]
  · exact fun _ => h.succeeded t (.inl hholds)
  · exact fun _ => hm.handedOver.mpr (.inr (.inr (.inr (by simp [PastWait]))))
  · exact fun _ => .inl hholds'

theorem Inv.signal (h : Inv s) (hplace : (s.thread t).place = .signal) :
    Inv { s.goTo t .wake with BalloonSuspendMutex := { s.BalloonSuspendMutex with Event := true } } := by
  have hholds : Holds s t := .inl (by rw [hplace]; decide)
  have hm : Moved s { s.goTo t .wake with
      BalloonSuspendMutex := { s.BalloonSuspendMutex with Event := true } } t _ := ⟨rfl, rfl, fun _ => rfl⟩
  have hActive : ¬ (t = .balloon ∧ s.Active = true) := by
    rintro ⟨rfl, hActive⟩
    exact h.active hActive (by rw [hplace]; decide)
  have hnot : ¬ Holds { s.goTo t .wake with
      BalloonSuspendMutex := { s.BalloonSuspendMutex with Event := true } } t := by
    rw [hm.holds]
    rintro (hin | hin)
    · simp [InMutex] at hin
    · exact hActive hin
  refine hm.inv h ?_ ?_ ?_ ?_ ?_ ?_ ?_ ?_ ?_
  · exact iff_of_true rfl ⟨hnot, h.alone t hholds⟩
  · exact fun hh => absurd hh hnot
  · exact fun ht hA => absurd ⟨ht, hA⟩ hActive
  · simp
  · refine iff_of_false ?_ fun hh => hnot hh.1
    exact fun howner => ((h.owner t).mp howner).2.2 hplace
  · rfl
  · exact fun _ => h.succeeded t (.inl hholds)
  · exact fun _ => hm.handedOver.mpr (.inr (.inr (.inr (by simp [PastWait]))))
  · exact fun _ => .inr (.inl rfl)

/-- Something else about a thread changes than its place and its tries, and its event is not cleared. -/
theorem Inv.signalled (h : Inv s) (hplace : thread.place = (s.thread t).place)
    (hfailed : thread.failed = (s.thread t).failed) (hagain : thread.again = (s.thread t).again)
    (hevent : (s.thread t).Event = true → thread.Event = true) : Inv (s.setThread t thread) := by
  have hm := moved_setThread s t thread
  have hholds : Holds (s.setThread t thread) t ↔ Holds s t := by
    rw [hm.holds, hplace]
    rfl
  refine hm.inv h ?_ ?_ ?_ ?_ ?_ ?_ ?_ ?_ ?_
  · rw [hholds]
    exact h.event_iff t
  · rw [hholds]
    exact h.alone t
  · rintro rfl
    rw [hplace]
    exact h.active
  · rintro rfl
    rw [hplace]
    exact h.work
  · rw [hholds, hplace]
    exact h.owner t
  · rfl
  · rw [hholds, hplace, hfailed]
    exact h.succeeded t
  · rintro ⟨hmissed, hmissed'⟩
    rw [hm.handedOver, hplace]
    obtain hh | hh | hh | hh := h.handed t ⟨hfailed ▸ hmissed, hagain ▸ hmissed'⟩
    · exact .inl hh
    · exact .inr (.inl hh)
    · exact .inr (.inr (.inl (hevent hh)))
    · exact .inr (.inr (.inr hh))
  · rw [hholds, hplace]
    rintro (hh | hh)
    · exact .inl hh
    · exact .inr (.inl hh)

theorem Inv.ThreadWake (h : Inv s) (t : Owner) : Inv (s.ThreadWake t) :=
  h.signalled rfl rfl rfl fun _ => rfl

/-- The thread that has released the mutex goes on when the other one's event is signalled. -/
theorem Inv.woken (h : Inv s) (hplace : (s.thread t).place = .wake)
    (hevent : (s.thread (other t)).Event = true) : Inv (s.goTo t .loop) := by
  have hm : Moved s (s.goTo t .loop) t _ := moved_setThread s t _
  have hfailed := h.succeeded t (.inr hplace)
  have hActive : ¬ (t = .balloon ∧ s.Active = true) := by
    rintro ⟨rfl, hActive⟩
    exact h.active hActive (by rw [hplace]; decide)
  have hnot : ¬ Holds s t := by
    rintro (hin | hin)
    · rw [hplace] at hin
      exact absurd hin (by decide)
    · exact hActive hin
  have hnot' : ¬ Holds (s.goTo t .loop) t := by
    rw [hm.holds]
    rintro (hin | hin)
    · simp [InMutex] at hin
    · exact hActive hin
  refine hm.inv h ?_ ?_ ?_ ?_ ?_ ?_ ?_ ?_ ?_
  · refine (h.event_iff t).trans ?_
    simp [hnot, hnot']
  · exact fun hh => absurd hh hnot'
  · exact fun ht hA => absurd ⟨ht, hA⟩ hActive
  · simp
  · refine iff_of_false (fun howner => ?_) fun hh => hnot' hh.1
    exact hnot ((h.owner t).mp howner).1
  · rfl
  · exact fun _ => hfailed
  · exact fun hmissed => absurd hmissed.1 (by simp [hfailed])
  · exact fun _ => .inr (.inr (.inr hevent))

theorem Inv.wake (h : Inv s) (hplace : (s.thread t).place = .wake) :
    Inv (if t = .balloon ∨ s.BalloonInterface then (s.goTo t .loop).ThreadWake (other t)
      else s.goTo t .loop) := by
  rw [if_pos (.inr h.interface)]
  have hcomm : (s.goTo t .loop).ThreadWake (other t) = (s.ThreadWake (other t)).goTo t .loop := by
    simp only [State.goTo, State.ThreadWake, State.setThread, Function.update_of_ne (other_ne t),
      Function.update_of_ne (other_ne t).symm]
    rw [Function.update_comm (other_ne t)]
  rw [hcomm]
  refine (h.ThreadWake (other t)).woken ?_ ?_
  · rw [State.ThreadWake, setThread_of_ne (other_ne t), hplace]
  · rw [State.ThreadWake, setThread_self]

/-- What does not touch the threads and the mutex. -/
theorem Inv.congr (h : Inv s) (hthread : s'.thread = s.thread)
    (hmutex : s'.BalloonSuspendMutex = s.BalloonSuspendMutex)
    (hinterface : s'.BalloonInterface = s.BalloonInterface) (hActive : s'.Active = s.Active) : Inv s' := by
  have hm : Moved s s' .balloon (s.thread .balloon) :=
    ⟨by rw [hthread, Function.update_eq_self], hinterface, fun _ => hActive⟩
  have hholds : Holds s' .balloon ↔ Holds s .balloon := by rw [Holds, Holds, hthread, hActive]
  refine hm.inv h ?_ ?_ ?_ ?_ ?_ ?_ ?_ ?_ ?_
  · rw [hmutex, hholds]
    exact h.event_iff _
  · rw [hholds]
    exact h.alone _
  · exact fun _ => hActive ▸ h.active
  · exact fun _ hplace => hActive.trans (h.work hplace)
  · rw [hmutex, hholds]
    exact h.owner _
  · rw [hmutex]
  · rw [hholds]
    exact h.succeeded _
  · exact fun hmissed => hm.handedOver.mpr (h.handed _ hmissed)
  · rw [hholds]
    rintro (hh | hh)
    · exact .inl hh
    · exact .inr (.inl hh)

/-- The balloon thread goes on with what it has begun. -/
theorem Inv.resume (h : Inv s) (hplace : (s.thread .balloon).place = .compare) (hActive : s.Active = true) :
    Inv (s.goTo .balloon .work) := by
  have hholds : Holds s .balloon := .inr ⟨rfl, hActive⟩
  have hm := moved_setThread s .balloon { s.thread .balloon with place := .work }
  refine hm.quiet h rfl ?_ rfl (by rw [hplace]; decide) (by simp) (by simp [Inactive]) (fun _ _ => hActive)
    (fun _ => h.succeeded .balloon (.inl hholds))
    fun _ => handedOver_of_pastWait hm.self (by simp [PastWait])
  exact iff_of_true (.inr ⟨rfl, hActive⟩) hholds

theorem Inv.lookStep {place : Place} {choice : Choice} (h : Inv s) (hplace : (s.thread t).place = place)
    (hs : HandOver.lookStep s t place choice = some s') : Inv s' := by
  unfold HandOver.lookStep at hs
  split at hs
  -- The suspend thread.
  · obtain rfl := Option.some.inj hs
    split_ifs
    · exact h.goTo (moved_setThread s _ _) rfl rfl hplace (by decide) (by decide) (by decide) (by simp)
    · exact h.idle hplace (by decide)
  -- The limits.
  · obtain rfl := Option.some.inj hs
    split_ifs
    · exact h.goTo (moved_setThread s _ _) rfl rfl hplace (by decide) (by decide) (by decide) (by simp)
    · split
      · exact h.idle hplace (by decide)
      · refine Inv.congr (s := s.goTo .balloon .target) ?_ rfl rfl rfl rfl
        exact h.goTo (moved_setThread s _ _) rfl rfl hplace (by decide) (by decide) (by decide) (by simp)
  -- The target.
  · obtain rfl := Option.some.inj hs
    split_ifs
    · refine Inv.congr (s := s.goTo .balloon .compare) ?_ rfl rfl rfl rfl
      exact h.goTo (moved_setThread s _ _) rfl rfl hplace (by decide) (by decide) (by decide) (by simp)
    · exact h.idle hplace (by decide)
  -- The size.
  · obtain rfl := Option.some.inj hs
    split_ifs with _ hActive
    · exact h.idle hplace (by decide)
    · exact h.resume hplace hActive
    · exact h.goTo (moved_setThread s _ _) rfl rfl hplace (by decide) (by decide) (by decide)
        fun _ _ => by simpa using hActive
  · cases hs

theorem Inv.workStep {choice : Choice} (h : Inv s) (hplace : (s.thread t).place = .work)
    (hs : HandOver.work s t choice = some s') : Inv s' := by
  have hholds : Holds s t := .inl (by rw [hplace]; decide)
  unfold HandOver.work at hs
  split at hs
  · obtain rfl := Option.some.inj hs
    exact h.toDisown hholds (by rw [hplace]; decide) ⟨rfl, rfl, fun _ => rfl⟩ rfl (by simp)
  · obtain rfl := Option.some.inj hs
    split_ifs
    · exact h.toDisown hholds (by rw [hplace]; decide) ⟨rfl, rfl, by simp⟩ rfl (by simp)
    · exact h.retry hplace _
  · cases hs

theorem Inv.threadStep {choice : Choice} (h : Inv s)
    (hs : HandOver.threadStep s t (s.thread t).place choice = some s') : Inv s' := by
  generalize hplace : (s.thread t).place = place at hs
  unfold HandOver.threadStep at hs
  split at hs
  case h_1 =>
    split_ifs at hs
    obtain rfl := Option.some.inj hs
    exact h.goTo (moved_setThread s t _) rfl rfl hplace (by decide) (by decide) (by decide) (by simp)
  case h_2 =>
    obtain rfl := Option.some.inj hs
    have hm := moved_setThread s t { s.thread t with
      Event := false
      place := .awake }
    exact hm.outside h rfl rfl hplace (by decide) (by simp [Outside, InMutex]) (by simp) (.inl rfl)
      fun _ => handedOver_of_pastWait hm.self (by simp [PastWait])
  case h_3 =>
    obtain rfl := Option.some.inj hs
    have hnext : ∀ alerted : Bool, let place := if alerted then Place.exited else .power
        Outside place ∧ PastWait place ∧ place ≠ .setActive := by decide
    obtain ⟨hto, hpast, hset⟩ := hnext (s.thread t).Alerted
    exact h.goTo (moved_setThread s t _) rfl rfl hplace (by decide) hto hpast fun hplace' => absurd hplace' hset
  case h_4 =>
    obtain rfl := Option.some.inj hs
    split_ifs with hpower hActive
    · have hnext : ∀ t, Outside (look t) ∧ PastWait (look t) ∧ look t ≠ .setActive := by
        rintro (_ | _) <;> decide
      obtain ⟨hto, hpast, hset⟩ := hnext t
      exact h.goTo (moved_setThread s t _) rfl rfl hplace (by decide) hto hpast fun hplace' => absurd hplace' hset
    · exact h.toDisown (.inr hActive) (by rw [hplace]; decide)
        ⟨rfl, rfl, fun ht => absurd hActive.1 ht⟩ rfl fun _ => rfl
    · exact h.idle hplace (by decide)
  case h_5 =>
    obtain rfl := Option.some.inj hs
    exact h.tryAcquire hplace
  case h_6 =>
    obtain rfl := Option.some.inj hs
    exact h.own hplace
  case h_7 => exact h.workStep hplace hs
  case h_8 =>
    obtain rfl := Option.some.inj hs
    exact h.disown hplace
  case h_9 =>
    obtain rfl := Option.some.inj hs
    exact h.signal hplace
  case h_10 =>
    obtain rfl := Option.some.inj hs
    exact h.wake hplace
  case h_11 =>
    obtain rfl := Option.some.inj hs
    have hm := moved_setThread s t { s.thread t with place := .waiting }
    refine hm.outside h rfl rfl hplace (by decide) (by simp [Outside, InMutex]) (by simp) (.inl rfl)
      fun hmissed => hm.handedOver.mpr ?_
    obtain hh | hh | hh | hh := h.handed t hmissed
    · exact .inl hh
    · exact .inr (.inl hh)
    · exact .inr (.inr (.inl hh))
    · exact absurd hplace hh.1
  case h_12 => exact h.lookStep hplace hs

theorem Inv.step {a : Action} (h : Inv s) (hs : HandOver.step s a = some s') : Inv s' := by
  cases a with
  | thread t choice => exact h.threadStep hs
  | wake t =>
    obtain rfl := Option.some.inj hs
    exact h.ThreadWake t
  | alert t =>
    obtain rfl := Option.some.inj hs
    exact h.signalled rfl rfl rfl id
  | setPower power =>
    obtain rfl := Option.some.inj hs
    exact h.congr rfl rfl rfl rfl
  | setShutdown shutdown =>
    obtain rfl := Option.some.inj hs
    exact h.congr rfl rfl rfl rfl
  | setTarget target =>
    obtain rfl := Option.some.inj hs
    exact h.congr rfl rfl rfl rfl

theorem inv_of_reaches {power shutdown : Bool} {target size : ℕ}
    (h : Reaches step Free (init power true shutdown target size) s) : Inv s :=
  h.invariant (inv_init power shutdown target size) fun _ _ _ hinv _ hs => hinv.step hs

/-! ## The next try -/

/-- A thread is in its own function. -/
def Belongs : Owner → Place → Prop
  | .balloon, place => place ≠ .request
  | .suspend, place => place ≠ .init ∧ place ≠ .target ∧ place ≠ .compare

/-- The places that both threads have. -/
theorem belongs_of_common {place : Place}
    (h : place ≠ .request ∧ place ≠ .init ∧ place ≠ .target ∧ place ≠ .compare) : Belongs t place := by
  cases t
  · exact h.1
  · exact h.2

theorem belongs_setThread (h : ∀ u, Belongs u (s.thread u).place) (ht : Belongs t thread.place) (u : Owner) :
    Belongs u ((s.setThread t thread).thread u).place := by
  by_cases hu : u = t
  · subst hu
    rwa [setThread_self]
  · rw [setThread_of_ne (Ne.symm hu)]
    exact h u

theorem belongs_look (t : Owner) : Belongs t (look t) := by
  cases t
  · exact (by decide : look .balloon ≠ .request)
  · exact (by decide : look .suspend ≠ .init ∧ look .suspend ≠ .target ∧ look .suspend ≠ .compare)

theorem belongs_goTo {place : Place} (h : ∀ u, Belongs u (s.thread u).place) (ht : Belongs t place) :
    ∀ u, Belongs u ((s.goTo t place).thread u).place :=
  belongs_setThread h ht

theorem belongs_threadStep {choice : Choice} (h : ∀ u, Belongs u (s.thread u).place)
    (hs : threadStep s t (s.thread t).place choice = some s') : ∀ u, Belongs u (s'.thread u).place := by
  unfold threadStep lookStep work tryAcquire at hs
  repeat' split at hs
  all_goals cases hs
  -- Each step ends at a place that both threads have, or at one of the thread's own.
  all_goals first
    | exact belongs_goTo h (belongs_of_common (by decide))
    | exact belongs_goTo h (belongs_look t)
    | exact belongs_goTo h (by simp [Belongs])
    | exact belongs_setThread h (belongs_of_common (by simp))
    | exact belongs_setThread (belongs_goTo h (belongs_of_common (by decide)))
        (belongs_goTo h (belongs_of_common (by decide)) (other t))

theorem belongs_step {a : Action} (h : ∀ u, Belongs u (s.thread u).place) (hs : step s a = some s') :
    ∀ u, Belongs u (s'.thread u).place := by
  cases a with
  | thread t choice => exact belongs_threadStep h hs
  | wake t =>
    obtain rfl := Option.some.inj hs
    exact belongs_setThread h (h t)
  | alert t =>
    obtain rfl := Option.some.inj hs
    exact belongs_setThread h (h t)
  | setPower power =>
    obtain rfl := Option.some.inj hs
    exact h
  | setShutdown shutdown =>
    obtain rfl := Option.some.inj hs
    exact h
  | setTarget target =>
    obtain rfl := Option.some.inj hs
    exact h

theorem belongs_of_reaches {s₀ : State} (h₀ : ∀ u, Belongs u (s₀.thread u).place)
    (h : Reaches step Free s₀ s) : ∀ u, Belongs u (s.thread u).place :=
  h.invariant (P := fun s => ∀ u, Belongs u (s.thread u).place) h₀ fun _ _ _ hs _ hstep =>
    belongs_step hs hstep

/-- The steps of one thread. -/
def Own (t : Owner) : State → Action → Prop := fun _ a => ∃ choice, a = .thread t choice

/-- The thread tries again, or has found that it need not, or leaves. -/
def LooksAgain (thread : Thread) : Prop :=
  thread.place = .setActive ∨ thread.again = true ∨ thread.place = .exited

/-- The number of steps to the next try. -/
def Place.rank : Place → ℕ
  | .loop => 9
  | .waiting => 8
  | .clear => 7
  | .awake => 6
  | .power => 5
  | .init => 4
  | .target => 3
  | .compare => 2
  | .request => 2
  | _ => 0

/-- A thread that did not get the mutex and can go on. -/
structure Ready (s : State) (t : Owner) : Prop where
  inv : Inv s
  belongs : ∀ u, Belongs u (s.thread u).place
  failed : (s.thread t).failed = true
  go : (s.thread t).Event = true ∨ PastWait (s.thread t).place

theorem Ready.not_holds (h : Ready s t) : ¬ Holds s t ∧ (s.thread t).place ≠ .wake := by
  rw [← not_or]
  intro hh
  have hfailed := h.inv.succeeded t hh
  rw [h.failed] at hfailed
  cases hfailed

theorem Ready.not_active (h : Ready s t) : ¬ (t = .balloon ∧ s.Active = true) := fun hActive =>
  h.not_holds.1 (.inr hActive)

/-! ### The steps of the others -/

/-- What the others can do to a thread: signal its event, and alert it. -/
structure Kept (thread thread' : Thread) : Prop where
  place : thread'.place = thread.place
  failed : thread'.failed = thread.failed
  again : thread'.again = thread.again
  event : thread.Event = true → thread'.Event = true

theorem Kept.refl (thread : Thread) : Kept thread thread := ⟨rfl, rfl, rfl, id⟩

theorem kept_setThread {u : Owner} (hu : u ≠ t) (thread : Thread) :
    Kept (s.thread t) ((s.setThread u thread).thread t) := by
  rw [setThread_of_ne hu]
  exact .refl _

theorem kept_ThreadWake (u : Owner) : Kept (s.thread t) ((s.ThreadWake u).thread t) := by
  by_cases hu : u = t
  · subst hu
    rw [State.ThreadWake, setThread_self]
    exact ⟨rfl, rfl, rfl, fun _ => rfl⟩
  · exact kept_setThread hu _

theorem kept_threadStep {u : Owner} {choice : Choice} (hu : u ≠ t)
    (hs : threadStep s u (s.thread u).place choice = some s') : Kept (s.thread t) (s'.thread t) := by
  unfold threadStep lookStep work tryAcquire at hs
  repeat' split at hs
  all_goals cases hs
  -- Only `ThreadWake` writes to the thread of another.
  all_goals first
    | exact kept_setThread hu _
    | have hgoTo : Kept (s.thread t) ((s.goTo u .loop).thread t) := kept_setThread hu _
      have hwake := kept_ThreadWake (s := s.goTo u .loop) (t := t) (other u)
      exact ⟨hwake.place.trans hgoTo.place, hwake.failed.trans hgoTo.failed, hwake.again.trans hgoTo.again,
        fun hevent => hwake.event (hgoTo.event hevent)⟩

theorem kept_of_others {a : Action} (ha : ¬ Own t s a) (hs : step s a = some s') :
    Kept (s.thread t) (s'.thread t) := by
  cases a with
  | thread u choice =>
    refine kept_threadStep (fun hu => ha ?_) hs
    exact ⟨choice, hu ▸ rfl⟩
  | wake u =>
    obtain rfl := Option.some.inj hs
    exact kept_ThreadWake u
  | alert u =>
    obtain rfl := Option.some.inj hs
    by_cases hu : u = t
    · subst hu
      rw [setThread_self]
      exact ⟨rfl, rfl, rfl, id⟩
    · exact kept_setThread hu _
  | setPower power =>
    obtain rfl := Option.some.inj hs
    exact .refl _
  | setShutdown shutdown =>
    obtain rfl := Option.some.inj hs
    exact .refl _
  | setTarget target =>
    obtain rfl := Option.some.inj hs
    exact .refl _

theorem Kept.looksAgain {thread' : Thread} (h : Kept thread thread') : LooksAgain thread' ↔ LooksAgain thread := by
  rw [LooksAgain, LooksAgain, h.place, h.again]

theorem Ready.others {a : Action} (h : Ready s t) (ha : ¬ Own t s a) (hs : step s a = some s') :
    Ready s' t := by
  have hkept := kept_of_others ha hs
  refine ⟨h.inv.step hs, belongs_step h.belongs hs, hkept.failed.trans h.failed, ?_⟩
  rw [hkept.place]
  exact h.go.imp_left hkept.event

/-! ### Its own steps -/

/-- A thread that can go on has a next step. -/
theorem Ready.can (h : Ready s t) (hnot : ¬ LooksAgain (s.thread t)) :
    ∃ choice s', threadStep s t (s.thread t).place choice = some s' := by
  have hwake := h.not_holds.2
  have hin : ¬ InMutex (s.thread t).place := fun hin => h.not_holds.1 (.inl hin)
  have hbelongs := h.belongs t
  have hgo := h.go
  cases hplace : (s.thread t).place <;> rw [hplace] at hwake hin hbelongs hgo
  case waiting => exact ⟨.go, _, if_pos (.inl (hgo.resolve_right (by decide)))⟩
  case request =>
    cases t
    · exact absurd rfl hbelongs
    · exact ⟨.read false, _, rfl⟩
  case init =>
    cases t
    · exact ⟨.limits none none, _, rfl⟩
    · exact absurd rfl hbelongs.1
  case target =>
    cases t
    · exact ⟨.read false, _, rfl⟩
    · exact absurd rfl hbelongs.2.1
  case compare =>
    cases t
    · exact ⟨.go, _, rfl⟩
    · exact absurd rfl hbelongs.2.2
  case setActive => exact absurd (.inl hplace) hnot
  case exited => exact absurd (.inr (.inr hplace)) hnot
  case wake => exact absurd rfl hwake
  case loop | clear | awake | power => exact ⟨.go, _, rfl⟩
  all_goals exact absurd (by decide) hin

/-- A step of the thread comes nearer to its next try. -/
def Nearer (s s' : State) (t : Owner) : Prop :=
  LooksAgain (s'.thread t) ∨ Ready s' t ∧ (s'.thread t).place.rank < (s.thread t).place.rank

theorem nearer_idle (s : State) (t : Owner) : Nearer s (s.idle t) t :=
  .inl (.inr (.inl (by rw [State.idle, setThread_self])))

theorem Ready.goes {choice : Choice} {place : Place} (h : Ready s t)
    (hs : threadStep s t (s.thread t).place choice = some s')
    (hself : s'.thread t = { s.thread t with place := place })
    (hgo : (s.thread t).Event = true ∨ PastWait place) (hrank : place.rank < (s.thread t).place.rank) :
    Nearer s s' t := by
  refine .inr ⟨⟨h.inv.threadStep hs, belongs_threadStep h.belongs hs, ?_, ?_⟩, ?_⟩
  · rw [hself]
    exact h.failed
  · rw [hself]
    exact hgo
  · rwa [hself]

theorem goTo_self (s : State) (t : Owner) (place : Place) :
    (s.goTo t place).thread t = { s.thread t with place := place } := setThread_self ..

/-- The thread looks for its request: it finds none, or comes nearer to its try. -/
theorem Ready.look {place : Place} {choice : Choice} (h : Ready s t) (hplace : (s.thread t).place = place)
    (hlook : lookStep s t place choice = some s')
    (hs : threadStep s t (s.thread t).place choice = some s') : Nearer s s' t := by
  unfold lookStep at hlook
  split at hlook
  · split_ifs at hlook with hrequest
    all_goals obtain rfl := Option.some.inj hlook
    · exact h.goes hs (goTo_self ..) (.inr (by decide)) (by rw [hplace]; decide)
    · exact nearer_idle s _
  · split_ifs at hlook with hInitialized
    · obtain rfl := Option.some.inj hlook
      exact h.goes hs (goTo_self ..) (.inr (by decide)) (by rw [hplace]; decide)
    · split at hlook <;> obtain rfl := Option.some.inj hlook
      · exact nearer_idle s _
      · exact h.goes hs (goTo_self s .balloon .target) (.inr (by decide)) (by rw [hplace]; decide)
  · split_ifs at hlook
    all_goals obtain rfl := Option.some.inj hlook
    · exact h.goes hs (goTo_self s .balloon .compare) (.inr (by decide)) (by rw [hplace]; decide)
    · exact nearer_idle s _
  · split_ifs at hlook with hsize hActive
    all_goals obtain rfl := Option.some.inj hlook
    · exact nearer_idle s _
    · exact absurd ⟨rfl, hActive⟩ h.not_active
    · exact h.goes hs (goTo_self ..) (.inr (by decide)) (by rw [hplace]; decide)
  · cases hlook

/-- Each step of a thread that can go on comes nearer to its next try. -/
theorem Ready.next {choice : Choice} (h : Ready s t) (hnot : ¬ LooksAgain (s.thread t))
    (hs : threadStep s t (s.thread t).place choice = some s') : Nearer s s' t := by
  have hwake := h.not_holds.2
  have hin : ¬ InMutex (s.thread t).place := fun hin => h.not_holds.1 (.inl hin)
  have hstep := hs
  generalize hplace : (s.thread t).place = place at hstep hwake hin
  unfold threadStep at hstep
  split at hstep
  case h_1 =>
    split_ifs at hstep with hevent
    obtain rfl := Option.some.inj hstep
    exact h.goes hs (goTo_self ..) (.inr (by decide)) (by rw [hplace]; decide)
  case h_2 =>
    obtain rfl := Option.some.inj hstep
    refine .inr ⟨⟨h.inv.threadStep hs, belongs_threadStep h.belongs hs, ?_, ?_⟩, ?_⟩ <;>
      rw [setThread_self]
    · exact h.failed
    · exact .inr (by simp [PastWait])
    · rw [hplace]
      simp [Place.rank]
  case h_3 =>
    obtain rfl := Option.some.inj hstep
    refine h.goes hs (goTo_self ..) (.inr ?_) ?_
    · split_ifs <;> decide
    · rw [hplace]
      split_ifs <;> decide
  case h_4 =>
    split_ifs at hstep with hpower hActive
    · obtain rfl := Option.some.inj hstep
      refine h.goes hs (goTo_self ..) (.inr ?_) ?_
      · cases t <;> decide
      · rw [hplace]
        cases t <;> decide
    · exact absurd hActive h.not_active
    · obtain rfl := Option.some.inj hstep
      exact nearer_idle s t
  case h_5 => exact absurd (.inl hplace) hnot
  case h_10 => exact absurd rfl hwake
  case h_11 =>
    obtain rfl := Option.some.inj hstep
    refine h.goes hs (goTo_self ..) (.inl (h.go.resolve_right fun hpast => hpast.1 hplace)) ?_
    rw [hplace]
    decide
  case h_12 => exact h.look hplace hstep hs
  all_goals exact absurd (by decide) hin

/-- **A thread that can go on looks again**, whatever it meets and however far the others go in between. -/
theorem Ready.looksAgain (h : Ready s t) : Inevitable step (Own t) (fun s => LooksAgain (s.thread t)) s := by
  refine inevitable_of_rank (P := fun s => Ready s t) (fun s => (s.thread t).place.rank) ?_ ?_ ?_ s h
  · intro s a s' h hnot ha hs
    have hkept := kept_of_others ha hs
    exact ⟨h.others ha hs, hkept.looksAgain.not.mpr hnot, by rw [hkept.place]⟩
  · intro s h hnot
    obtain ⟨choice, s', hs⟩ := h.can hnot
    exact ⟨.thread t choice, s', ⟨choice, rfl⟩, hs⟩
  · rintro s a s' h hnot ⟨choice, rfl⟩ hs
    exact h.next hnot hs

/-! ## The result -/

/-- **No request is lost at the hand-over**: a thread that did not get the mutex can rely on the other one,
on its own event, or is past its wait, until it has looked at its request again. So with the mutex
released and the wake executed each of its own steps leads it there, whatever it reads and however far the others
go in between. The threads never hold the mutex together. -/
theorem tried_again_of_reaches {power shutdown : Bool} {target size : ℕ}
    (h : Reaches step Free (init power true shutdown target size) s) (t : Owner) :
    (Missed (s.thread t) → HandedOver s t) ∧
      (Missed (s.thread t) → ¬ Holds s (other t) → (s.thread (other t)).place ≠ .wake →
        Inevitable step (Own t) (fun s => LooksAgain (s.thread t)) s) ∧
      ¬ (Holds s t ∧ Holds s (other t)) := by
  have hinv := inv_of_reaches h
  refine ⟨hinv.handed t, fun hmissed hother hwake => ?_, fun hh => hinv.alone t hh.1 hh.2⟩
  have hbelongs : ∀ u, Belongs u (s.thread u).place :=
    belongs_of_reaches (fun _ => belongs_of_common (by simp [init, newThread])) h
  have hgo : (s.thread t).Event = true ∨ PastWait (s.thread t).place :=
    ((hinv.handed t hmissed).resolve_left hother).resolve_left hwake
  exact Ready.looksAgain ⟨hinv, hbelongs, hmissed.1, hgo⟩

/-! ## Runs -/

/-- The balloon thread acquires the mutex for the first time. -/
def balloonPass : List Action :=
  [.wake .balloon, .thread .balloon .go, .thread .balloon .go, .thread .balloon .go, .thread .balloon .go,
    .thread .balloon (.limits (some 400) none), .thread .balloon (.read true), .thread .balloon .go,
    .thread .balloon .go, .thread .balloon .go]

/-- The suspend thread is woken and reads `control/shutdown`. -/
def suspendPass : List Action :=
  [.thread .suspend .go, .thread .suspend .go, .thread .suspend .go, .thread .suspend .go,
    .thread .suspend (.read true)]

/-- The suspend thread does not get the mutex and goes back to wait. -/
def refused : List Action :=
  balloonPass ++ [.wake .suspend] ++ suspendPass ++ [.thread .suspend .go, .thread .suspend .go]

/-- The balloon thread releases the mutex and wakes the suspend thread. -/
def balloonReleases : List Action :=
  [.thread .balloon (.adjusted true 50), .thread .balloon .go, .thread .balloon .go, .thread .balloon .go]

/-- The suspend thread does not get the mutex, and is woken when the balloon thread has released it. -/
theorem tried_again_run : ∃ s, Reaches step Free (init true true true 200 0) s ∧
    Missed (s.thread .suspend) ∧ (s.thread .suspend).place = .waiting ∧ HandedOver s .suspend ∧
      Inevitable step (Own .suspend) (fun s => LooksAgain (s.thread .suspend)) s ∧
        ∃ s', Reaches step (Own .suspend) s s' ∧ LooksAgain (s'.thread .suspend) := by
  have hrun : (run step (init true true true 200 0) (refused ++ balloonReleases)).any (fun s =>
      decide (Missed (s.thread .suspend) ∧ (s.thread .suspend).place = .waiting ∧ ¬ Holds s .balloon ∧
        (s.thread .balloon).place ≠ .wake)) = true := by
    decide +kernel
  obtain ⟨s, hs, hs'⟩ := Option.any_eq_true .. |>.mp hrun
  obtain ⟨hmissed, hplace, hother, hwake⟩ := of_decide_eq_true hs'
  obtain ⟨hhanded, hlooks, -⟩ := tried_again_of_reaches (reaches_of_run hs) .suspend
  have hinevitable := hlooks hmissed hother hwake
  exact ⟨s, reaches_of_run hs, hmissed, hplace, hhanded hmissed, hinevitable, hinevitable.reaches⟩

/-- **A request that has gone is not tried again**: the toolstack withdraws it before the suspend thread,
which did not get the mutex, looks again. The thread waits without having tried again, its event not
signalled and the mutex free. -/
theorem request_withdrawn : ∃ s, Reaches step Free (init true true true 200 0) s ∧
    (s.thread .suspend).failed = true ∧ ¬ HandedOver s .suspend ∧ s.BalloonSuspendMutex.Event = true := by
  have hrun : (run step (init true true true 200 0) (refused ++ balloonReleases ++ [.setShutdown false] ++
      suspendPass ++ [.thread .suspend .go])).any (fun s => decide ((s.thread .suspend).failed = true ∧
        ¬ HandedOver s .suspend ∧ s.BalloonSuspendMutex.Event = true)) = true := by
    decide +kernel
  obtain ⟨s, hs, hs'⟩ := Option.any_eq_true .. |>.mp hrun
  obtain ⟨hfailed, hnot, hevent⟩ := of_decide_eq_true hs'
  exact ⟨s, reaches_of_run hs, hfailed, hnot, hevent⟩

end XenBus.Fdo.HandOver
