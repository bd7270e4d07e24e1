import XenBus.Foundations.Transition

/-!
# The balloon thread and the suspend thread

`FdoBalloon` and `FdoSuspend` (`fdo.c`). Each does its work with `BalloonSuspendMutex` held, which it
tries to acquire and does not wait for: the balloon thread from the moment it finds the balloon of a wrong
size until `BalloonAdjust` has succeeded, through any number of passes (`Active`).

A pass that finds nothing to do goes back to wait with `Active` as it is. So when the target moves to the
size that the balloon has after a failed adjustment, the thread keeps the mutex and no pass gives it back
(`held_when_idle`). `released_of_reaches` shows that the mutex is kept in three places only. The target may
change at any time, also in a pass, which goes by the one that it has found.
-/

namespace XenBus.Fdo

open Transition

/-! ## Data -/

/-- `BalloonSuspendMutex.Owner`. -/
inductive Owner
  | balloon
  | suspend
  deriving DecidableEq

/-- Where `FdoBalloon` is. -/
inductive Pc
  /-- In `KeWaitForSingleObject`. -/
  | waiting
  /-- Before `__FdoGetDevicePowerState`. -/
  | power
  /-- Before `if (!Initialized)`. -/
  | init
  /-- Before the read of `memory/target`. -/
  | target
  /-- Before `XENBUS_BALLOON(GetSize)`. -/
  | compare
  /-- Before `__FdoBalloonSetActive`. -/
  | setActive
  /-- Before `XENBUS_BALLOON(Adjust)`. -/
  | adjust
  /-- In `__FdoBalloonClearActive`. -/
  | release
  | exited
  deriving DecidableEq

/-- Where `FdoSuspend` is. -/
inductive SuspendPc
  | waiting
  | power
  /-- Before the read of `control/shutdown`. -/
  | read
  /-- Before `__FdoSuspendSetActive`. -/
  | setActive
  /-- Before `XENBUS_SUSPEND(Trigger)`. -/
  | trigger
  /-- In `__FdoSuspendClearActive`. -/
  | release
  | exited
  deriving DecidableEq

/-- The two threads with what they share. `found` is not in the source: `memory/target` when the pass came to
read it, whether the read failed or not, if it has come so far. -/
structure State where
  /-- `memory/target` in the store. -/
  target : ℕ
  found : Option ℕ
  /-- The device is in `PowerDeviceD0`. -/
  power : Bool
  /-- The size of the balloon. -/
  size : ℕ
  Owner : Option Owner
  StaticMax : ℕ
  Initialized : Bool
  Active : Bool
  Size : ℕ
  pc : Pc
  spc : SuspendPc

/-- What a step of `FdoBalloon` depends on. -/
inductive Choice
  | go
  /-- The thread is woken, and may have been alerted. -/
  | wake (alerted : Bool)
  /-- `memory/static-max` and `memory/videoram`, unless the read fails. -/
  | limits (staticMax videoRAM : Option ℕ)
  /-- Whether the read of `memory/target` succeeds. -/
  | read (success : Bool)
  /-- The status of `Adjust`, and the size of the balloon after it. -/
  | adjusted (success : Bool) (size : ℕ)

/-! ## FdoBalloon -/

/-- `Size` for a target. -/
def sizeFor (StaticMax target : ℕ) : ℕ :=
  let Target := target / 4
  let Target := if Target > StaticMax then StaticMax else Target
  StaticMax - Target

/-- The size computed from the target in the store. -/
def State.sizeFor (s : State) : ℕ := Fdo.sizeFor s.StaticMax s.target

/-- `if (!Initialized)`. -/
def limits (s : State) (videoRAM : Option ℕ) : Option ℕ → State
  | none | some 0 => { s with pc := .waiting }
  | some staticMax =>
    if staticMax < videoRAM.getD 0 then { s with pc := .waiting }
    else { s with
      StaticMax := (staticMax - videoRAM.getD 0) / 4
      Initialized := true
      pc := .target }

/-- The next step of `FdoBalloon`. -/
def runStep (s : State) : Pc → Choice → Option State
  | .waiting, .wake alerted =>
    some { s with
      found := none
      pc := if alerted then .exited else .power }
  | .power, .go =>
    some (if s.power then { s with pc := .init }
    else if s.Active then { s with
      Active := false
      pc := .release }
    else { s with pc := .waiting })
  | .init, .limits staticMax videoRAM =>
    if s.Initialized then some { s with pc := .target }
    else if s.Active then none
    else some (limits s videoRAM staticMax)
  | .target, .read success =>
    some (if success then { s with
      found := some s.target
      Size := s.sizeFor
      pc := .compare }
    else { s with
      found := some s.target
      pc := .waiting })
  | .compare, .go =>
    some { s with
      pc := if s.size = s.Size then .waiting else if s.Active then .adjust else .setActive }
  | .setActive, .go =>
    some (if s.Owner = none then { s with
      Owner := some .balloon
      Active := true
      pc := .adjust }
    else { s with pc := .waiting })
  | .adjust, .adjusted success size =>
    if success then
      if size = s.Size ∧ s.Active then
        some { s with
          size := size
          Active := false
          pc := .release }
      else none
    else some { s with
      size := size
      pc := .waiting }
  | .release, .go =>
    if s.Owner = some .balloon then some { s with
      Owner := none
      pc := .waiting }
    else none
  | _, _ => none

/-! ## FdoSuspend -/

/-- The next step of `FdoSuspend`. The choice is whether it has been alerted, or whether the toolstack has
asked for a suspend. -/
def suspendStep (s : State) (choice : Bool) : SuspendPc → Option State
  | .waiting => some { s with spc := if choice then .exited else .power }
  | .power => some { s with spc := if s.power then .read else .waiting }
  | .read => some { s with spc := if choice then .setActive else .waiting }
  | .setActive =>
    some (if s.Owner = none then { s with
      Owner := some .suspend
      spc := .trigger }
    else { s with spc := .waiting })
  | .trigger => some { s with spc := .release }
  | .release =>
    if s.Owner = some .suspend then some { s with
      Owner := none
      spc := .waiting }
    else none
  | .exited => none

/-! ## The system -/

/-- A step. The target and the power state change at any time. -/
inductive Action
  | balloon (choice : Choice)
  | suspend (choice : Bool)
  | setTarget (target : ℕ)
  | setPower (power : Bool)

def step (s : State) : Action → Option State
  | .balloon choice => runStep s s.pc choice
  | .suspend choice => suspendStep s choice s.spc
  | .setTarget target => some { s with target := target }
  | .setPower power => some { s with power := power }

/-- Before the first pass. -/
def init (target size : ℕ) (power : Bool) : State where
  target := target
  found := none
  power := power
  size := size
  Owner := none
  StaticMax := 0
  Initialized := false
  Active := false
  Size := 0
  pc := .waiting
  spc := .waiting

/-- A pass does not go back to wait with `Active` set and the balloon of the right size: the read of the
target does not fail then, there is something to do, and an adjustment that fails has not reached the
size. -/
def Clear (s : State) : Action → Prop
  | .balloon choice => s.Active = true →
    match s.pc, choice with
    | .target, .read false => s.size ≠ s.sizeFor
    | .compare, .go => s.size ≠ s.Size
    | .adjust, .adjusted false size => size ≠ s.Size
    | _, _ => True
  | _ => True

/-! ## The mutex and the flag -/

/-- The invariant. -/
structure Held (s : State) : Prop where
  balloon : s.Owner = some .balloon ↔ s.Active = true ∨ s.pc = .release
  suspend : s.Owner = some .suspend ↔ s.spc = .trigger ∨ s.spc = .release
  initialized : s.Active = true → s.Initialized = true
  size : s.pc = .compare ∨ s.pc = .setActive ∨ s.pc = .adjust →
    ∃ target, s.found = some target ∧ s.Size = Fdo.sizeFor s.StaticMax target
  setActive : s.pc = .setActive ∨ s.pc = .release → s.Active = false
  ready : s.pc = .target ∨ s.pc = .compare ∨ s.pc = .setActive ∨ s.pc = .adjust → s.Initialized = true

/-- The balloon thread does not hold the mutex if the balloon has the size computed from the target that the
pass has found, or if the pass has not come to the target. -/
def Released (s : State) : Prop :=
  (∀ target, s.found = some target → s.size = Fdo.sizeFor s.StaticMax target) → s.Owner ≠ some .balloon

variable {s s' : State}

theorem held_init (target size : ℕ) (power : Bool) : Held (init target size power) where
  balloon := by simp [init]
  suspend := by simp [init]
  initialized := by simp [init]
  size := by simp [init]
  setActive := by simp [init]
  ready := by simp [init]

/-- The mutex is not held where the flag is clear. -/
theorem Held.not_owner (h : Held s) (hActive : s.Active = false) (hpc : s.pc ≠ .release) :
    s.Owner ≠ some .balloon := by
  intro howner
  obtain hActive' | hpc' := h.balloon.mp howner
  · rw [hActive] at hActive'
    cases hActive'
  · exact hpc hpc'

/-- `Size` is that for the target that has been found. -/
theorem Held.size_of_found {target : ℕ} (h : Held s) (hpc : s.pc = .compare ∨ s.pc = .setActive ∨ s.pc = .adjust)
    (hfound : s.found = some target) : s.Size = Fdo.sizeFor s.StaticMax target := by
  obtain ⟨target', hfound', hSize⟩ := h.size hpc
  rw [hfound] at hfound'
  rw [hSize, Option.some.inj hfound']

/-- A step of the balloon thread that leaves the mutex, the flag and what has been computed as they are. -/
theorem Held.goto (h : Held s) (found : Option ℕ) {pc : Pc} (hpc : s.pc ≠ .release)
    (hpc' : pc = .waiting ∨ pc = .power ∨ pc = .init ∨ pc = .exited ∨
      pc = .target ∧ s.Initialized = true) :
    Held { s with
      found := found
      pc := pc } := by
  have hrelease : pc ≠ .release := by
    rintro rfl
    simp at hpc'
  constructor
  case balloon => simpa [hpc, hrelease] using h.balloon
  case suspend => exact h.suspend
  case initialized => exact h.initialized
  case size =>
    obtain rfl | rfl | rfl | rfl | ⟨rfl, -⟩ := hpc' <;> simp
  case setActive =>
    obtain rfl | rfl | rfl | rfl | ⟨rfl, -⟩ := hpc' <;> simp
  case ready =>
    obtain rfl | rfl | rfl | rfl | ⟨rfl, hready⟩ := hpc' <;> simp_all

/-- The limits are read while the flag is clear, so nothing is lost that depends on them. -/
theorem Held.limits (h : Held s) (hpc : s.pc = .init) (hActive : s.Active = false)
    (videoRAM staticMax : Option ℕ) : Held (limits s videoRAM staticMax) := by
  have hback : Held { s with pc := .waiting } := h.goto s.found (by rw [hpc]; decide) (.inl rfl)
  unfold Fdo.limits
  split
  · exact hback
  · exact hback
  · split_ifs
    · exact hback
    · constructor
      case balloon =>
        have hno := h.not_owner hActive (by rw [hpc]; decide)
        simp [hActive, hno]
      case suspend => exact h.suspend
      case initialized => exact fun _ => rfl
      case size => simp
      case setActive => simp
      case ready => exact fun _ => rfl

theorem Held.run {pc : Pc} {choice : Choice} (h : Held s) (hpc : s.pc = pc)
    (hs : runStep s pc choice = some s') : Held s' := by
  cases pc <;> cases choice <;> try cases hs
  case waiting.wake alerted =>
    exact h.goto none (by rw [hpc]; decide) (by cases alerted <;> simp)
  case power.go =>
    split_ifs with hpower hActive
    · exact h.goto s.found (by rw [hpc]; decide) (by simp)
    · constructor
      case balloon => simpa [hActive] using h.balloon
      case suspend => exact h.suspend
      case initialized => simp
      case size => simp
      case setActive => simp
      case ready => simp
    · exact h.goto s.found (by rw [hpc]; decide) (.inl rfl)
  case init.limits staticMax videoRAM =>
    simp only [runStep] at hs
    split_ifs at hs with hInitialized hActive
    · obtain rfl := Option.some.inj hs
      exact h.goto s.found (by rw [hpc]; decide) (by simp [hInitialized])
    · obtain rfl := Option.some.inj hs
      exact h.limits hpc (by simpa using hActive) videoRAM staticMax
  case target.read success =>
    split_ifs
    · constructor
      case balloon => simpa [hpc] using h.balloon
      case suspend => exact h.suspend
      case initialized => exact h.initialized
      case size => exact fun _ => ⟨s.target, rfl, rfl⟩
      case setActive => simp
      case ready => exact fun _ => h.ready (by simp [hpc])
    · exact h.goto (some s.target) (by rw [hpc]; decide) (.inl rfl)
  case compare.go =>
    split_ifs with hsize hActive
    · exact h.goto s.found (by rw [hpc]; decide) (.inl rfl)
    · constructor
      case balloon => simpa [hpc] using h.balloon
      case suspend => exact h.suspend
      case initialized => exact h.initialized
      case size => exact fun _ => h.size (by simp [hpc])
      case setActive => simp
      case ready => exact fun _ => h.ready (by simp [hpc])
    · constructor
      case balloon => simpa [hpc] using h.balloon
      case suspend => exact h.suspend
      case initialized => exact h.initialized
      case size => exact fun _ => h.size (by simp [hpc])
      case setActive => exact fun _ => by simpa using hActive
      case ready => exact fun _ => h.ready (by simp [hpc])
  case setActive.go =>
    have hready := h.ready (by simp [hpc])
    split_ifs with hOwner
    · constructor
      case balloon => simp
      case suspend =>
        have hsuspend := h.suspend
        rw [hOwner] at hsuspend
        simpa using hsuspend
      case initialized => exact fun _ => hready
      case size => exact fun _ => h.size (by simp [hpc])
      case setActive => simp
      case ready => exact fun _ => hready
    · exact h.goto s.found (by rw [hpc]; decide) (.inl rfl)
  case adjust.adjusted success size =>
    simp only [runStep] at hs
    split_ifs at hs with hsuccess hcond
    · obtain rfl := Option.some.inj hs
      constructor
      case balloon => simpa [hcond.2] using h.balloon
      case suspend => exact h.suspend
      case initialized => simp
      case size => simp
      case setActive => simp
      case ready => simp
    · obtain rfl := Option.some.inj hs
      constructor
      case balloon => simpa [hpc] using h.balloon
      case suspend => exact h.suspend
      case initialized => exact h.initialized
      case size => simp
      case setActive => simp
      case ready => simp
  case release.go =>
    simp only [runStep] at hs
    split_ifs at hs with hOwner
    obtain rfl := Option.some.inj hs
    constructor
    case balloon => simpa using h.setActive (.inr hpc)
    case suspend =>
      have hsuspend := h.suspend
      rw [hOwner] at hsuspend
      simpa using hsuspend
    case initialized => exact h.initialized
    case size => simp
    case setActive => simp
    case ready => simp

/-- A step of the suspend thread: the mutex and the place of the thread may change. -/
theorem Held.other (h : Held s) (Owner : Option Owner) (spc : SuspendPc)
    (hballoon : Owner = some .balloon ↔ s.Owner = some .balloon)
    (hsuspend : Owner = some .suspend ↔ spc = .trigger ∨ spc = .release) : Held { s with
      Owner := Owner
      spc := spc } :=
  { h with
    balloon := hballoon.trans h.balloon
    suspend := hsuspend }

theorem Held.suspendStep {choice : Bool} (h : Held s) (hs : suspendStep s choice s.spc = some s') :
    Held s' := by
  have hsuspend := h.suspend
  cases hspc : s.spc <;> rw [hspc] at hs hsuspend <;> simp only [Fdo.suspendStep] at hs
  case exited => cases hs
  case release =>
    split_ifs at hs with hOwner
    obtain rfl := Option.some.inj hs
    exact h.other _ _ (by simp [hOwner]) (by simp)
  case setActive =>
    obtain rfl := Option.some.inj hs
    split_ifs with hOwner
    · exact h.other _ _ (by simp [hOwner]) (by simp)
    · exact h.other s.Owner _ Iff.rfl (by simpa using hsuspend)
  all_goals
    obtain rfl := Option.some.inj hs
    refine h.other s.Owner _ Iff.rfl ?_
    first | split_ifs <;> simpa using hsuspend | simpa using hsuspend

theorem Held.step {a : Action} (h : Held s) (hs : step s a = some s') : Held s' := by
  cases a with
  | balloon choice => exact h.run rfl hs
  | suspend choice => exact h.suspendStep hs
  | setTarget target =>
    obtain rfl := Option.some.inj hs
    exact { h with }
  | setPower power =>
    obtain rfl := Option.some.inj hs
    exact { h with }

/-! ## The result -/

/-- A step that takes the balloon thread back to wait. -/
def Back (s s' : State) : Prop := s.pc ≠ .waiting ∧ s'.pc = .waiting

/-- Where the mutex is released, and where it has not been acquired. -/
theorem Held.released {choice : Choice} (h : Held s) (hclear : Clear s (.balloon choice))
    (hs : runStep s s.pc choice = some s') (hback : Back s s') : Released s' := by
  -- without the flag, there is nothing to release
  have hidle : s.Active = false → s.pc ≠ .release → ∀ u : State, u.Owner = s.Owner → Released u :=
    fun hActive hpc u howner _ => by
      rw [howner]
      exact h.not_owner hActive hpc
  obtain ⟨hpc, hpc'⟩ := hback
  unfold Clear at hclear
  cases hat : s.pc <;> cases choice <;> rw [hat] at hs hclear hidle <;> try cases hs
  case waiting.wake => exact absurd hat hpc
  case power.go =>
    split_ifs at hpc' ⊢ with hpower hActive
    exact hidle (by simpa using hActive) (by decide) _ rfl
  case init.limits staticMax videoRAM =>
    simp only [runStep] at hs
    split_ifs at hs with hInitialized hActive
    · obtain rfl := Option.some.inj hs
      cases hpc'
    · obtain rfl := Option.some.inj hs
      refine hidle (by simpa using hActive) (by decide) _ ?_
      unfold Fdo.limits
      split
      · rfl
      · rfl
      · split_ifs <;> rfl
  case target.read success =>
    cases success with
    | true => cases hpc'
    | false =>
      cases hActive : s.Active with
      | false => exact hidle hActive (by decide) _ rfl
      | true => exact fun hsize => absurd (hsize s.target rfl) (hclear hActive)
  case compare.go =>
    simp only at hpc'
    split_ifs at hpc' with hsize hActive'
    cases hActive : s.Active with
    | false => exact hidle hActive (by decide) _ rfl
    | true => exact absurd hsize (hclear hActive)
  case setActive.go =>
    have hActive := h.setActive (.inl hat)
    split_ifs at hpc' ⊢ with hOwner
    exact hidle hActive (by decide) _ rfl
  case adjust.adjusted success size =>
    simp only [runStep] at hs
    split_ifs at hs with hsuccess hcond
    · obtain rfl := Option.some.inj hs
      cases hpc'
    · obtain rfl := Option.some.inj hs
      cases hActive : s.Active with
      | false => exact hidle hActive (by decide) _ rfl
      | true =>
        intro hsize
        rw [Bool.not_eq_true] at hsuccess
        subst hsuccess
        obtain ⟨target, hfound, hSize⟩ := h.size (by simp [hat])
        exact absurd ((hsize target hfound).trans hSize.symm) (hclear hActive)
  case release.go =>
    simp only [runStep] at hs
    split_ifs at hs
    obtain rfl := Option.some.inj hs
    exact fun _ => by simp

/-- **The balloon thread gives up the mutex when there is nothing to do**: in every run in which no pass
takes one of the three ways back that keep `Active` with the balloon of the right size, the thread does not
hold the mutex whenever it goes back to wait and the balloon has the size computed from the target that the
pass has found. -/
theorem released_of_reaches {target size : ℕ} {power : Bool} {a : Action}
    (h : Reaches step Clear (init target size power) s) (hclear : Clear s a) (hs : step s a = some s')
    (hback : Back s s') : Released s' := by
  have hheld : Held s := h.invariant (held_init target size power) fun _ _ _ h _ hs => h.step hs
  cases a with
  | balloon choice => exact hheld.released hclear hs hback
  | suspend choice =>
    have hpc : s'.pc = s.pc := by
      simp only [step] at hs
      cases hspc : s.spc <;> rw [hspc] at hs <;> simp only [suspendStep] at hs
      case exited => cases hs
      case release =>
        split_ifs at hs
        obtain rfl := Option.some.inj hs
        rfl
      case setActive =>
        obtain rfl := Option.some.inj hs
        split_ifs <;> rfl
      all_goals
        obtain rfl := Option.some.inj hs
        rfl
    exact absurd (hpc ▸ hback.2) hback.1
  | setTarget target =>
    obtain rfl := Option.some.inj hs
    exact absurd hback.2 hback.1
  | setPower power =>
    obtain rfl := Option.some.inj hs
    exact absurd hback.2 hback.1

/-- A step that is not clear takes the thread back with the mutex, and nothing to do. -/
theorem held_of_not_clear {choice : Choice} (h : Held s) (hclear : ¬ Clear s (.balloon choice))
    (hs : step s (.balloon choice) = some s') : Back s s' ∧ ¬ Released s' := by
  simp only [Clear, Classical.not_imp] at hclear
  obtain ⟨hActive, hclear⟩ := hclear
  have howner : s.Owner = some .balloon := h.balloon.mpr (.inl hActive)
  change runStep s s.pc choice = some s' at hs
  split at hclear
  next hpc =>
    rw [hpc] at hs
    cases hs
    refine ⟨⟨by simp [hpc], rfl⟩, fun hreleased => hreleased (fun target hfound => ?_) howner⟩
    obtain rfl := Option.some.inj hfound
    exact not_not.mp hclear
  next hpc =>
    rw [hpc] at hs
    cases hs
    have hsize := not_not.mp hclear
    refine ⟨⟨by simp [hpc], by simp [hsize]⟩, fun hreleased => hreleased (fun target hfound => ?_) howner⟩
    exact hsize.trans (h.size_of_found (.inl hpc) hfound)
  next size hpc =>
    rw [hpc] at hs
    cases hs
    refine ⟨⟨by simp [hpc], rfl⟩, fun hreleased => hreleased (fun target hfound => ?_) howner⟩
    exact (not_not.mp hclear).trans (h.size_of_found (by simp [hpc]) hfound)
  next => exact absurd trivial hclear

/-! ## Runs -/

/-- The first pass, with 100 pages in all, as far as the adjustment. -/
def firstPass : List Action :=
  [.balloon (.wake false), .balloon .go, .balloon (.limits (some 400) none), .balloon (.read true),
    .balloon .go, .balloon .go]

/-- A later pass, as far as the size is looked at. -/
def nextPass : List Action :=
  [.balloon (.wake false), .balloon .go, .balloon (.limits none none), .balloon (.read true)]

/-- A test for `Clear`. -/
def clear (s : State) : Action → Bool
  | .balloon choice => !s.Active ||
    match s.pc, choice with
    | .target, .read false => s.size ≠ s.sizeFor
    | .compare, .go => s.size ≠ s.Size
    | .adjust, .adjusted false size => size ≠ s.Size
    | _, _ => true
  | _ => true

theorem clear_of_clear {s : State} {a : Action} (h : clear s a = true) : Clear s a := by
  cases a with
  | balloon choice =>
    intro hActive
    simp only [clear, hActive, Bool.not_true, Bool.false_or] at h
    split at h
    · simpa using h
    · simpa using h
    · simpa using h
    · trivial
  | _ => trivial

/-- An adjustment fails at first, and succeeds in the next pass. -/
theorem released_run : ∃ s s', Reaches step Clear (init 200 0 true) s ∧
    step s (.balloon .go) = some s' ∧ Back s s' ∧ s'.found = some 200 ∧ s'.size = Fdo.sizeFor s'.StaticMax 200 ∧
      s'.size = 50 ∧ s'.Owner ≠ some .balloon := by
  obtain ⟨s, hs, s', hs', hpc, hpc', hfound, hsize, heq⟩ : ∃ s,
      guardedRun step (fun s a => clear s a = true) (init 200 0 true)
        (firstPass ++ [.balloon (.adjusted false 30)] ++ nextPass ++
          [.balloon .go, .setTarget 280, .balloon (.adjusted true 50)]) = some s ∧
      ∃ s', step s (.balloon .go) = some s' ∧ s.pc ≠ .waiting ∧ s'.pc = .waiting ∧ s'.found = some 200 ∧
        s'.size = Fdo.sizeFor s'.StaticMax 200 ∧ s'.size = 50 :=
    ⟨_, rfl, _, rfl, by decide, rfl, rfl, rfl, rfl⟩
  have h := (reaches_of_guardedRun hs).mono fun _ _ => clear_of_clear
  have hclear : Clear s (.balloon .go) := clear_of_clear (by obtain rfl := Option.some.inj hs; rfl)
  refine ⟨s, s', h, hs', ⟨hpc, hpc'⟩, hfound, hsize, heq, released_of_reaches h hclear hs' ⟨hpc, hpc'⟩ ?_⟩
  intro target htarget
  rw [hfound] at htarget
  rwa [← Option.some.inj htarget]

/-- **The mutex is held with nothing to do**: an adjustment fails with the balloon at 30 pages, and the
target moves there. From then on a pass changes nothing, and the suspend thread does not get the mutex. -/
theorem held_when_idle : ∃ s s', Reaches step Free (init 200 0 true) s ∧
    step s (.balloon .go) = some s' ∧ Back s s' ∧ ¬ Released s' ∧ s'.size = s'.sizeFor ∧
      run step s' (nextPass ++ [.balloon .go]) = some s' ∧
        ∃ u, run step s' [.suspend false, .suspend false, .suspend true, .suspend false] = some u ∧
          u.spc = .waiting := by
  obtain ⟨s, hs, s', hs', hpc, hpc', hfound, hsize, howner, hagain, u, hu, hspc⟩ : ∃ s,
      run step (init 200 0 true) (firstPass ++ [.balloon (.adjusted false 30), .setTarget 280] ++
        nextPass) = some s ∧
      ∃ s', step s (.balloon .go) = some s' ∧ s.pc ≠ .waiting ∧ s'.pc = .waiting ∧ s'.found = some s'.target ∧
        s'.size = s'.sizeFor ∧ s'.Owner = some .balloon ∧
          run step s' (nextPass ++ [.balloon .go]) = some s' ∧
            ∃ u, run step s' [.suspend false, .suspend false, .suspend true, .suspend false] = some u ∧
              u.spc = .waiting := ⟨_, rfl, _, rfl, by decide, rfl, rfl, rfl, rfl, rfl, _, rfl, rfl⟩
  refine ⟨s, s', reaches_of_run hs, hs', ⟨hpc, hpc'⟩, fun hreleased => hreleased (fun target htarget => ?_) howner,
    hsize, hagain, u, hu, hspc⟩
  rw [hfound] at htarget
  rw [← Option.some.inj htarget]
  exact hsize

end XenBus.Fdo
