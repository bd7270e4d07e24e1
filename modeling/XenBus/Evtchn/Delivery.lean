import XenBus.Evtchn.TwoLevel
import XenBus.Foundations.Transition

/-!
# No event is lost, but for a bind

Once a port is pending the hypervisor does not raise its selector again, so a pending port that is not
masked needs someone who will still look at it. `Raised` says that a processor has been told and has not
come to the port yet, `InHand` that a poll or an unmask has met it and will acknowledge it (or have the
hypervisor raise it again), and `Attended` is the disjunction over the processor that `Channel->Cpu`
names, and over the one that an `EvtchnBind` in progress is about to name.

`attended_of_reaches`: the port is attended whenever it is pending and not masked, in every run in which
`EvtchnBind` meets no event that only the old processor has been told of (`Kept`). Without this
condition the event is lost for good (`event_lost`): the old processor takes the selector bit, discards
the event as `Channel->Cpu` is not its own, and nobody raises the new one.
-/

namespace XenBus.Evtchn.TwoLevel

open Transition

variable {ι : Type} {k : Config} {s s' : State ι}

/-! ## Who attends to the port -/

/-- The port is pending and not masked. -/
def Live (k : Config) (s : State ι) : Prop :=
  Bitmap.get s.evtchn_pending k.LocalPort = true ∧ Bitmap.get s.evtchn_mask k.LocalPort = false

/-- The bit of the port's selector. -/
def Config.SelectorBit (k : Config) : ℕ := k.LocalPort / PER_SELECTOR

/-- The bit of the port in its words. -/
def Config.PortBit (k : Config) : ℕ := k.LocalPort % PER_SELECTOR

/-- The port is ahead of the loops of `SharedInfoEvtchnPoll`: its selector is to come or, if it is that
of the current word, the port is to come in it. -/
def Cursor.Ahead (k : Config) (c : Cursor) : Prop :=
  c.SelectorMask.getLsbD k.SelectorBit = true ∧
    (c.SelectorBit = k.SelectorBit → c.PortMask.getLsbD k.PortBit = true)

/-- The poll has taken the port's selector bit and not come to its check of `Channel->Cpu`. -/
def Poll.Ahead (k : Config) : Poll → Prop
  | .selectors SelectorMask _ => SelectorMask.getLsbD k.SelectorBit = true
  | .word c | .ports c => c.Ahead k
  | .found _ => True
  | _ => False

/-- The selector bit is set, and `evtchn_upcall_pending` is or the poll has just taken it. -/
def Signalled (k : Config) (s : State ι) (Cpu : ℕ) : Prop :=
  (s.evtchn_pending_sel Cpu).getLsbD k.SelectorBit = true ∧
    (s.evtchn_upcall_pending Cpu = true ∨ s.poll Cpu = .enter ∧ k.platform.vcpu_id Cpu ≠ none)

/-- The processor has been told of the port, and not come to it yet. -/
def Raised (k : Config) (s : State ι) (Cpu : ℕ) : Prop :=
  Signalled k s Cpu ∨ (s.poll Cpu).Ahead k

/-- The poll has met the channel and will acknowledge the port and call the callback. `Pending` is that
of the channel, and `queued` whether it is on the queue of the processor. -/
def Poll.Takes (Pending queued : Bool) : Poll → Prop
  | .matched _ => Pending = false ∨ queued = true
  | .selectors .. | .word _ | .ports _ | .found _ | .walking => queued = true
  | .inserting _ | .removing | .clearing | .masking | .acking => True
  | .idle | .upcall | .enter | .delivering => False

/-- `EvtchnUnmask` has cleared the mask: it will find the port pending and have the hypervisor raise it
again, or acknowledge it and return `TRUE`. -/
def Thread.Takes : Thread → Prop
  | .testPending .. | .compare _ | .remask _ | .hypercall _ | .maskBack | .ack => True
  | _ => False

/-- A poll or an unmask deals with the port. -/
def InHand (s : State ι) : Prop :=
  (∃ Cpu, (s.poll Cpu).Takes s.Pending (s.queued Cpu)) ∨ ∃ t, (s.thread t).Takes

/-- The processor that the channel records has been told, or the port is in hand, or the processor that
`EvtchnBind` is about to record has been told. -/
def Attended (k : Config) (s : State ι) : Prop :=
  Raised k s s.Cpu ∨ InHand s ∨ ∃ t Cpu, s.thread t = .bindStore Cpu ∧ Raised k s Cpu

/-- The steps that lose no event. `EvtchnBind` records the new processor only if that one has been told
of a live port that nobody has in hand; and a poll on the processor that is about to be recorded does not
discard the event in that case, unless one of the two processors will still be told. -/
def Kept (k : Config) (s : State ι) : Action ι → Prop
  | .run t _ => ∀ Cpu, s.thread t = .bindStore Cpu → Live k s → InHand s ∨ Raised k s Cpu
  | .poll Cpu => ∀ c, s.poll Cpu = .found c → s.Cpu ≠ Cpu → (∃ t, s.thread t = .bindStore Cpu) →
    Live k s → InHand s ∨ Raised k s s.Cpu ∨ Signalled k s Cpu
  | _ => True

/-! ## The loops of SharedInfoEvtchnPoll -/

/-- The port is the one that the loops have come to. -/
def Cursor.At (k : Config) (c : Cursor) : Prop :=
  c.SelectorBit = k.SelectorBit ∧ c.PortBit = k.PortBit

theorem Config.portBit_lt (k : Config) : k.PortBit < PER_SELECTOR := Nat.mod_lt _ (by decide)

theorem Config.selectorBit_lt (k : Config) : k.SelectorBit < PER_SELECTOR :=
  Nat.div_lt_of_lt_mul k.port_lt

theorem Config.port_eq (k : Config) : k.SelectorBit * PER_SELECTOR + k.PortBit = k.LocalPort :=
  Nat.div_add_mod' _ _

namespace Cursor

/-- A word that has just been read has the port, if the port is live. -/
theorem ahead_read {SelectorMask : BitVec PER_SELECTOR} (Port PortBit : ℕ) (hlive : Live k s)
    (h : SelectorMask.getLsbD k.SelectorBit = true) :
    (Cursor.mk SelectorMask Port PortBit (s.evtchn_pending (Port / PER_SELECTOR))).Ahead k := by
  refine ⟨h, fun hsel => ?_⟩
  change Port / PER_SELECTOR = k.SelectorBit at hsel
  rw [hsel]
  exact hlive.1

/-- The mask does not take it out. -/
theorem Ahead.mask {c : Cursor} (h : c.Ahead k) (hlive : Live k s) :
    ({ c with PortMask := c.PortMask &&& ~~~s.evtchn_mask c.SelectorBit } : Cursor).Ahead k := by
  refine ⟨h.1, fun hsel => ?_⟩
  have hmask : (s.evtchn_mask c.SelectorBit).getLsbD k.PortBit = false := by
    rw [show c.SelectorBit = k.SelectorBit from hsel]
    exact hlive.2
  rw [BitVec.getLsbD_and, BitVec.getLsbD_not, h.2 hsel, hmask, decide_eq_true k.portBit_lt]
  rfl

/-- The event of another port leaves it ahead. -/
theorem Ahead.polled {c : Cursor} (h : c.Ahead k)
    (hne : c.SelectorBit * PER_SELECTOR + c.PortBit ≠ k.LocalPort) : c.polled.Ahead k := by
  refine ⟨h.1, fun hsel => ?_⟩
  change c.SelectorBit = k.SelectorBit at hsel
  have hbit : c.PortBit ≠ k.PortBit := by
    intro hbit
    rw [hsel, hbit, k.port_eq] at hne
    exact hne rfl
  change (Bitmap.clearBit c.PortMask c.PortBit).getLsbD k.PortBit = true
  rw [Bitmap.getLsbD_clearBit_of_ne hbit]
  exact h.2 hsel

theorem at_of_port {c : Cursor} (hport : c.SelectorBit * PER_SELECTOR + c.PortBit = k.LocalPort)
    (hbit : c.PortBit < PER_SELECTOR) : c.At k := by
  unfold At Config.SelectorBit Config.PortBit
  unfold PER_SELECTOR at *
  omega

/-- Once its event has been taken it is behind. -/
theorem At.not_ahead {c : Cursor} (h : c.At k) : ¬ c.polled.Ahead k := by
  rintro ⟨_, hport⟩
  have hclear : (Bitmap.clearBit c.PortMask c.PortBit).getLsbD k.PortBit = true := hport h.1
  rw [h.2, Bitmap.getLsbD_clearBit_self] at hclear
  cases hclear

/-- The selector stays to come when the loop over the word ends. -/
theorem Ahead.leave {c : Cursor} (h : c.Ahead k) :
    (if c.PortMask = 0 then Bitmap.clearBit c.SelectorMask c.SelectorBit
      else c.SelectorMask).getLsbD k.SelectorBit = true := by
  split_ifs with hzero
  · have hne : c.SelectorBit ≠ k.SelectorBit := fun hsel =>
      Bitmap.ne_zero_of_getLsbD (h.2 hsel) hzero
    rw [Bitmap.getLsbD_clearBit_of_ne hne]
    exact h.1
  · exact h.1

end Cursor

/-! ## The queue -/

/-- The poll has set `Channel->Pending` and not cleared it. `queued` is whether the channel is on the
queue of the processor. -/
def Poll.Holds (queued : Bool) : Poll → Prop
  | .inserting _ | .removing | .clearing => True
  | .selectors .. | .word _ | .ports _ | .found _ | .matched _ | .walking => queued = true
  | _ => False

/-- The poll has still to come to the end of its loop over the queue. -/
def Poll.Scans : Poll → Prop
  | .selectors .. | .word _ | .ports _ | .found _ | .matched _ | .inserting _ | .walking
  | .removing => True
  | _ => False

theorem Poll.Holds.takes {pc : Poll} {queued : Bool} (h : pc.Holds queued) (Pending : Bool) :
    pc.Takes Pending queued := by
  cases pc <;> first | exact h | exact .inr h | exact trivial

/-- The queues: a channel that is pending is held by a poll, and a channel on a queue will be met. -/
structure Queueing (s : State ι) : Prop where
  held : s.Pending = true → ∃ Cpu, (s.poll Cpu).Holds (s.queued Cpu)
  queued : ∀ Cpu, s.queued Cpu = true → (s.poll Cpu).Scans

theorem Queueing.inHand (h : Queueing s) (hpending : s.Pending = true) : InHand s := by
  obtain ⟨Cpu, hholds⟩ := h.held hpending
  exact .inl ⟨Cpu, hholds.takes s.Pending⟩

/-! ## What a poll can do -/

/-- The accesses of the poll of a processor and its start, from a place to a state. -/
inductive PollAccess (k : Config) (s : State ι) (Cpu : ℕ) : Poll → State ι → Prop
  | started {pc : Poll} {InInterrupt : ℕ → Bool} (hpc : pc = .upcall ∨ pc = .enter) :
      PollAccess k s Cpu .idle ({ s with InInterrupt := InInterrupt }.poller Cpu pc)
  | told (hvcpu : k.platform.vcpu_id Cpu ≠ none) (hupcall : s.evtchn_upcall_pending Cpu = true) :
      PollAccess k s Cpu .upcall ({ s with
        evtchn_upcall_pending := Function.update s.evtchn_upcall_pending Cpu false }.poller Cpu .enter)
  | left : PollAccess k s Cpu .upcall (s.poller Cpu .idle)
  | absent (hvcpu : k.platform.vcpu_id Cpu = none) :
      PollAccess k s Cpu .enter (s.poller Cpu .walking)
  | taken (hvcpu : k.platform.vcpu_id Cpu ≠ none) :
      PollAccess k s Cpu .enter ({ s with
        evtchn_pending_sel := Function.update s.evtchn_pending_sel Cpu 0 }.poller Cpu
          (.selectors (s.evtchn_pending_sel Cpu) (s.Port Cpu)))
  | looped {Port : ℕ} : PollAccess k s Cpu (.selectors 0 Port)
      ({ s with Port := Function.update s.Port Cpu Port }.poller Cpu .walking)
  | read {SelectorMask : BitVec PER_SELECTOR} {Port : ℕ} :
      PollAccess k s Cpu (.selectors SelectorMask Port) (s.poller Cpu (.word ⟨SelectorMask, Port,
        Port % PER_SELECTOR, s.evtchn_pending (Port / PER_SELECTOR)⟩))
  | skipped {SelectorMask : BitVec PER_SELECTOR} {Port : ℕ} :
      PollAccess k s Cpu (.selectors SelectorMask Port)
        (s.poller Cpu (.selectors SelectorMask (nextPort Port)))
  | masked {c : Cursor} : PollAccess k s Cpu (.word c) (s.poller Cpu
      (.ports { c with PortMask := c.PortMask &&& ~~~s.evtchn_mask c.SelectorBit }))
  | met {c : Cursor} (hport : c.At k) :
      PollAccess k s Cpu (.ports c) (s.poller Cpu (.found c))
  | passed {c : Cursor} (hport : c.SelectorBit * PER_SELECTOR + c.PortBit ≠ k.LocalPort) :
      PollAccess k s Cpu (.ports c) (s.poller Cpu (.ports c.polled))
  | next {c : Cursor} : PollAccess k s Cpu (.ports c)
      (s.poller Cpu (.ports { c with PortBit := c.PortBit + 1 }))
  | leave {c : Cursor} : PollAccess k s Cpu (.ports c) (s.poller Cpu (.selectors
      (if c.PortMask = 0 then Bitmap.clearBit c.SelectorMask c.SelectorBit else c.SelectorMask)
      (nextPort c.Port)))
  | discarded {c : Cursor} (hCpu : s.Cpu ≠ Cpu) :
      PollAccess k s Cpu (.found c) (s.poller Cpu (.ports c.polled))
  | matched {c : Cursor} : PollAccess k s Cpu (.found c) (s.poller Cpu (.matched c))
  | pending {c : Cursor} (hpending : s.Pending = true) :
      PollAccess k s Cpu (.matched c) (s.poller Cpu (.ports c.polled))
  | set {c : Cursor} (hpending : s.Pending = false) :
      PollAccess k s Cpu (.matched c) ({ s with Pending := true }.poller Cpu (.inserting c))
  | inserted {c : Cursor} : PollAccess k s Cpu (.inserting c)
      ({ s with queued := Function.update s.queued Cpu true }.poller Cpu (.ports c.polled))
  | reached : PollAccess k s Cpu .walking (s.poller Cpu .removing)
  | walked {pc : Poll} (hqueued : s.queued Cpu = false) (hpc : pc = .upcall ∨ pc = .idle) :
      PollAccess k s Cpu .walking (s.poller Cpu pc)
  | removed : PollAccess k s Cpu .removing
      ({ s with queued := Function.update s.queued Cpu false }.poller Cpu .clearing)
  | cleared {pc : Poll} (hpc : pc = .masking ∨ pc = .acking) :
      PollAccess k s Cpu .clearing ({ s with Pending := false }.poller Cpu pc)
  | hidden : PollAccess k s Cpu .masking
      ({ s with evtchn_mask := Bitmap.set s.evtchn_mask k.LocalPort }.poller Cpu .acking)
  | acked : PollAccess k s Cpu .acking
      ({ s with evtchn_pending := Bitmap.clear s.evtchn_pending k.LocalPort }.poller Cpu .delivering)
  | delivered : PollAccess k s Cpu .delivering ({ s with Count := s.Count + 1 }.poller Cpu .walking)

theorem pollStep_cases {Cpu : ℕ} {pc : Poll} (h : pollStep k s Cpu pc = some s') :
    PollAccess k s Cpu pc s' := by
  cases pc with
  | idle => cases h
  | upcall =>
    simp only [pollStep] at h
    split_ifs at h with hupcall <;> obtain rfl := Option.some.inj h
    · exact .told hupcall.1 hupcall.2
    · exact .left
  | enter =>
    simp only [pollStep] at h
    split_ifs at h with hvcpu <;> obtain rfl := Option.some.inj h
    · exact .absent hvcpu
    · exact .taken hvcpu
  | selectors SelectorMask Port =>
    simp only [pollStep] at h
    split_ifs at h with hzero <;> obtain rfl := Option.some.inj h
    · subst hzero
      exact .looped
    · exact .read
    · exact .skipped
  | word c =>
    obtain rfl := Option.some.inj h
    exact .masked
  | ports c =>
    simp only [pollStep] at h
    split at h
    next hbits =>
      split_ifs at h with _ hport <;> obtain rfl := Option.some.inj h
      · exact .met (Cursor.at_of_port hport hbits.2)
      · exact .passed hport
      · exact .next
    next =>
      obtain rfl := Option.some.inj h
      exact .leave
  | found c =>
    simp only [pollStep] at h
    split_ifs at h with hCpu <;> obtain rfl := Option.some.inj h
    · exact .discarded hCpu
    · exact .matched
  | matched c =>
    simp only [pollStep] at h
    split_ifs at h with hpending <;> obtain rfl := Option.some.inj h
    · exact .pending hpending
    · exact .set (Bool.eq_false_iff.mpr hpending)
  | inserting c =>
    obtain rfl := Option.some.inj h
    exact .inserted
  | walking =>
    simp only [pollStep] at h
    split_ifs at h with hqueued <;> obtain rfl := Option.some.inj h
    · exact .reached
    · exact .walked (Bool.eq_false_iff.mpr hqueued) (.inl rfl)
    · exact .walked (Bool.eq_false_iff.mpr hqueued) (.inr rfl)
  | removing =>
    obtain rfl := Option.some.inj h
    exact .removed
  | clearing =>
    simp only [pollStep] at h
    obtain rfl := Option.some.inj h
    apply PollAccess.cleared
    split
    · exact .inl rfl
    · exact .inr rfl
  | masking =>
    obtain rfl := Option.some.inj h
    exact .hidden
  | acking =>
    obtain rfl := Option.some.inj h
    exact .acked
  | delivering =>
    obtain rfl := Option.some.inj h
    exact .delivered

theorem live_set (h : Bitmap.get (Bitmap.set s.evtchn_mask k.LocalPort) k.LocalPort = false) :
    False := by
  rw [Bitmap.get_set_self _ _ (by decide)] at h
  cases h

theorem live_clear (h : Bitmap.get (Bitmap.clear s.evtchn_pending k.LocalPort) k.LocalPort = true) :
    False := by
  rw [Bitmap.get_clear_self] at h
  cases h

/-- What one access of a poll leaves alone: the other processors, the threads, the channel's record and
its lock. It does not make the port live. -/
structure PollFrame (k : Config) (Cpu : ℕ) (s s' : State ι) : Prop where
  poll : ∀ i, i ≠ Cpu → s'.poll i = s.poll i
  queued : ∀ i, i ≠ Cpu → s'.queued i = s.queued i
  sel : ∀ i, i ≠ Cpu → s'.evtchn_pending_sel i = s.evtchn_pending_sel i
  upcall : ∀ i, i ≠ Cpu → s'.evtchn_upcall_pending i = s.evtchn_upcall_pending i
  live : Live k s' → Live k s
  thread : s'.thread = s.thread
  Cpu : s'.Cpu = s.Cpu
  Route : s'.Route = s.Route
  lock : s'.ChannelLock = s.ChannelLock

theorem PollAccess.frame {Cpu : ℕ} {pc : Poll} (hacc : PollAccess k s Cpu pc s') :
    PollFrame k Cpu s s' := by
  constructor
  case poll =>
    intro i hi
    cases hacc <;> exact Function.update_of_ne hi _ _
  case queued =>
    intro i hi
    cases hacc <;> first | rfl | exact Function.update_of_ne hi _ _
  case sel =>
    intro i hi
    cases hacc <;> first | rfl | exact Function.update_of_ne hi _ _
  case upcall =>
    intro i hi
    cases hacc <;> first | rfl | exact Function.update_of_ne hi _ _
  case live =>
    intro hlive
    cases hacc
    case hidden => exact (live_set hlive.2).elim
    case acked => exact (live_clear hlive.1).elim
    all_goals exact hlive
  all_goals cases hacc <;> rfl

@[simp] theorem poller_poll (s : State ι) (Cpu : ℕ) (pc : Poll) : (s.poller Cpu pc).poll Cpu = pc :=
  Function.update_self ..

/-- A poll that takes the channel goes on to do so, until the acknowledgement. -/
theorem PollAccess.takes {Cpu : ℕ} {pc : Poll} (hacc : PollAccess k s Cpu pc s') (hlive : Live k s')
    (h : pc.Takes s.Pending (s.queued Cpu)) : (s'.poll Cpu).Takes s'.Pending (s'.queued Cpu) := by
  cases hacc
  case hidden => exact (live_set hlive.2).elim
  case acked => exact (live_clear hlive.1).elim
  case pending hpending =>
    obtain hclear | hqueued := h
    · rw [hpending] at hclear
      cases hclear
    · rwa [poller_poll]
  case inserted => rw [poller_poll]; exact Function.update_self ..
  case walked hqueued _ =>
    change s.queued Cpu = true at h
    rw [hqueued] at h
    cases h
  case cleared hpc =>
    rw [poller_poll]
    obtain rfl | rfl := hpc <;> trivial
  case matched => rw [poller_poll]; exact .inr h
  case started | told | left | absent | taken | delivered => exact h.elim
  case set | reached | removed => rw [poller_poll]; trivial
  all_goals rwa [poller_poll]

/-- A poll that holds the channel holds it until it clears `Channel->Pending`. -/
theorem PollAccess.holds {Cpu : ℕ} {pc : Poll} (hacc : PollAccess k s Cpu pc s')
    (hpending : s'.Pending = true) :
    s.Pending = true ∧ (pc.Holds (s.queued Cpu) → (s'.poll Cpu).Holds (s'.queued Cpu)) ∨
      (s'.poll Cpu).Holds (s'.queued Cpu) := by
  cases hacc
  case set | reached | removed => exact .inr (by rw [poller_poll]; trivial)
  case inserted => exact .inr (by rw [poller_poll]; exact Function.update_self ..)
  case cleared => cases hpending
  case walked hqueued _ =>
    refine .inl ⟨hpending, fun h => ?_⟩
    change s.queued Cpu = true at h
    rw [hqueued] at h
    cases h
  all_goals exact .inl ⟨hpending, fun h => by first | exact h.elim | rwa [poller_poll]⟩

/-- The poll does not come to its end with the channel on the queue. -/
theorem PollAccess.scans {Cpu : ℕ} {pc : Poll} (hacc : PollAccess k s Cpu pc s')
    (h : s.queued Cpu = true → pc.Scans) (hqueued : s'.queued Cpu = true) : (s'.poll Cpu).Scans := by
  cases hacc
  case walked hno _ =>
    change s.queued Cpu = true at hqueued
    rw [hno] at hqueued
    cases hqueued
  case removed =>
    change Function.update s.queued Cpu false Cpu = true at hqueued
    rw [Function.update_self] at hqueued
    cases hqueued
  case started | told | left | absent | taken | cleared | hidden | acked | delivered =>
    exact (h hqueued).elim
  all_goals rw [poller_poll]; trivial

/-- A processor that has been told has still been told, or it has met the channel: then it has it in
hand, or it discards the event. -/
theorem PollAccess.raised {Cpu : ℕ} {pc : Poll} (hacc : PollAccess k s Cpu pc s') (hq : Queueing s')
    (hpc : s.poll Cpu = pc) (hlive : Live k s) (h : Raised k s Cpu) :
    Raised k s' Cpu ∨ InHand s' ∨ ∃ c, pc = .found c ∧ s.Cpu ≠ Cpu := by
  rw [Raised, hpc] at h
  obtain ⟨hsel, hupcall⟩ | hahead := h
  · rw [hpc] at hupcall
    cases hacc
    case told hvcpu _ => exact .inl (.inl ⟨hsel, .inr ⟨poller_poll .., hvcpu⟩⟩)
    case absent hvcpu =>
      obtain hupcall | ⟨_, hpresent⟩ := hupcall
      · exact .inl (.inl ⟨hsel, .inl hupcall⟩)
      · exact absurd hvcpu hpresent
    case taken => exact .inl (.inr (by rw [poller_poll]; exact hsel))
    all_goals
      obtain hupcall | ⟨henter, _⟩ := hupcall
      · exact .inl (.inl ⟨hsel, .inl hupcall⟩)
      · cases henter
  · cases hacc
    case looped => exact absurd hahead (by simp [Poll.Ahead])
    case read => exact .inl (.inr (by rw [poller_poll]; exact Cursor.ahead_read _ _ hlive hahead))
    case masked => exact .inl (.inr (by rw [poller_poll]; exact Cursor.Ahead.mask hahead hlive))
    case passed hport => exact .inl (.inr (by rw [poller_poll]; exact Cursor.Ahead.polled hahead hport))
    case leave => exact .inl (.inr (by rw [poller_poll]; exact Cursor.Ahead.leave hahead))
    case discarded c hCpu => exact .inr (.inr ⟨c, rfl, hCpu⟩)
    case matched c =>
      -- whoever has set `Channel->Pending` will acknowledge the port; else this poll sets it
      cases hpending : s.Pending with
      | true => exact .inr (.inl (hq.inHand hpending))
      | false => exact .inr (.inl (.inl ⟨Cpu, by rw [poller_poll]; exact .inl hpending⟩))
    case skipped | next => exact .inl (.inr (by rw [poller_poll]; exact hahead))
    case met => exact .inl (.inr (by rw [poller_poll]; trivial))
    all_goals exact hahead.elim

/-- The channel is found at its port. -/
theorem PollAccess.found {Cpu : ℕ} {pc : Poll} (hacc : PollAccess k s Cpu pc s') {c : Cursor}
    (h : s'.poll Cpu = .found c) : c.At k := by
  cases hacc
  case met hport =>
    rw [poller_poll] at h
    injection h with h
    exact h ▸ hport
  case started hpc | walked hpc | cleared hpc =>
    rw [poller_poll] at h
    subst h
    simp at hpc
  all_goals rw [poller_poll] at h; cases h

theorem PollFrame.raised {Cpu i : ℕ} (hframe : PollFrame k Cpu s s') (hi : i ≠ Cpu)
    (h : Raised k s i) : Raised k s' i := by
  rwa [Raised, Signalled, hframe.sel i hi, hframe.upcall i hi, hframe.poll i hi]

/-- A poll that discards the event does not take the selector bit. -/
theorem PollAccess.signalled {Cpu : ℕ} {c : Cursor} (hacc : PollAccess k s Cpu (.found c) s')
    (hpc : s.poll Cpu = .found c) (h : Signalled k s Cpu) : Signalled k s' Cpu := by
  obtain ⟨hsel, hupcall | ⟨henter, _⟩⟩ := h
  · cases hacc <;> exact ⟨hsel, .inl hupcall⟩
  · rw [hpc] at henter
    cases henter

theorem Poll.Takes.mono {pc : Poll} {Pending queued : Bool} (h : pc.Takes Pending queued) :
    pc.Takes false queued := by
  cases pc <;> first | exact h | exact .inl rfl

theorem Queueing.poll {Cpu : ℕ} {pc : Poll} (h : Queueing s) (hacc : PollAccess k s Cpu pc s')
    (hpc : s.poll Cpu = pc) : Queueing s' := by
  have hframe := hacc.frame
  subst hpc
  constructor
  case held =>
    intro hpending
    obtain ⟨hpending, hholds⟩ | hholds := hacc.holds hpending
    · obtain ⟨i, hi⟩ := h.held hpending
      by_cases hiCpu : i = Cpu
      · subst hiCpu
        exact ⟨i, hholds hi⟩
      · exact ⟨i, by rwa [hframe.poll i hiCpu, hframe.queued i hiCpu]⟩
    · exact ⟨Cpu, hholds⟩
  case queued =>
    intro i hqueued
    by_cases hiCpu : i = Cpu
    · subst hiCpu
      exact hacc.scans (h.queued i) hqueued
    · rw [hframe.poll i hiCpu]
      apply h.queued
      rwa [← hframe.queued i hiCpu]

theorem InHand.poll {Cpu : ℕ} {pc : Poll} (h : InHand s) (hacc : PollAccess k s Cpu pc s')
    (hpc : s.poll Cpu = pc) (hq : Queueing s') (hlive : Live k s') : InHand s' := by
  have hframe := hacc.frame
  subst hpc
  obtain ⟨i, htakes⟩ | ⟨t, htakes⟩ := h
  · by_cases hiCpu : i = Cpu
    · subst hiCpu
      exact .inl ⟨i, hacc.takes hlive htakes⟩
    · cases hpending : s'.Pending with
      | true => exact hq.inHand hpending
      | false =>
        refine .inl ⟨i, ?_⟩
        rw [hframe.poll i hiCpu, hframe.queued i hiCpu, hpending]
        exact htakes.mono
  · exact .inr ⟨t, by rwa [hframe.thread]⟩

/-- **A poll loses no event**, if it keeps to the condition. -/
theorem Attended.poll {Cpu : ℕ} {pc : Poll} (h : Attended k s) (hacc : PollAccess k s Cpu pc s')
    (hpc : s.poll Cpu = pc) (hkept : Kept k s (.poll Cpu)) (hq : Queueing s') (hlive : Live k s') :
    Attended k s' := by
  have hframe := hacc.frame
  obtain hraised | hhand | ⟨t, i, hstore, hraised⟩ := h
  · by_cases hCpu : s.Cpu = Cpu
    · rw [hCpu] at hraised
      obtain hraised | hhand | ⟨_, _, hne⟩ := hacc.raised hq hpc (hframe.live hlive) hraised
      · exact .inl (by rwa [hframe.Cpu, hCpu])
      · exact .inr (.inl hhand)
      · exact absurd hCpu hne
    · exact .inl (by rw [hframe.Cpu]; exact hframe.raised hCpu hraised)
  · exact .inr (.inl (hhand.poll hacc hpc hq hlive))
  · have hstore' : s'.thread t = .bindStore i := by rw [hframe.thread, hstore]
    by_cases hi : i = Cpu
    · subst hi
      obtain hraised' | hhand | ⟨c, rfl, hne⟩ := hacc.raised hq hpc (hframe.live hlive) hraised
      · exact .inr (.inr ⟨t, i, hstore', hraised'⟩)
      · exact .inr (.inl hhand)
      · obtain hhand | hold | hnew := hkept c hpc hne ⟨t, hstore⟩ (hframe.live hlive)
        · exact .inr (.inl (hhand.poll hacc hpc hq hlive))
        · exact .inl (by rw [hframe.Cpu]; exact hframe.raised hne hold)
        · exact .inr (.inr ⟨t, i, hstore', .inl (hacc.signalled hpc hnew)⟩)
    · exact .inr (.inr ⟨t, i, hstore', hframe.raised hi hraised⟩)

/-! ## What a thread can do -/

/-- The thread holds `Channel->Lock`. -/
def Thread.Holding : Thread → Prop
  | .unmask InUpcall .. | .testPending InUpcall .. | .remask InUpcall | .hypercall InUpcall
  | .done InUpcall _ => InUpcall = false
  | .compare _ | .maskBack | .ack | .bindCall _ | .bindStore _ => True
  | _ => False

/-- The lock, and what `EvtchnBind` does under it: the hypervisor's route is what the channel records,
or what it is about to record. -/
structure Binding (s : State ι) : Prop where
  lock : ∀ t, (s.thread t).Holding → s.ChannelLock = some t
  bound : ∀ t Cpu, s.thread t = .bindStore Cpu → s.Route = Cpu
  route : s.Route = s.Cpu ∨ ∃ t, s.thread t = .bindStore s.Route

theorem Binding.poll {Cpu : ℕ} (h : Binding s) (hframe : PollFrame k Cpu s s') : Binding s' where
  lock t := by
    rw [hframe.thread, hframe.lock]
    exact h.lock t
  bound t Cpu' := by
    rw [hframe.thread, hframe.Route]
    exact h.bound t Cpu'
  route := by
    rw [hframe.thread, hframe.Route, hframe.Cpu]
    exact h.route

section Threads

variable [DecidableEq ι]

/-- The accesses of a thread and its calls, from a place to a state. -/
inductive ThreadAccess (k : Config) (s : State ι) (t : ι) : Thread → State ι → Prop
  | started {pc : Thread} (hpc : ¬ pc.Holding) : ThreadAccess k s t .idle (s.goto t pc)
  | locked {Force : Bool} {Cpu : ℕ} (hlock : s.ChannelLock = none) :
      ThreadAccess k s t (.unmaskLock Force Cpu)
        ({ s with ChannelLock := some t }.goto t (.unmask false Force Cpu))
  | unmasked {InUpcall Force : Bool} {Cpu : ℕ} : ThreadAccess k s t (.unmask InUpcall Force Cpu)
      ({ s with evtchn_mask := Bitmap.clear s.evtchn_mask k.LocalPort }.goto t
        (.testPending InUpcall Force Cpu))
  | nothing {InUpcall Force : Bool} {Cpu : ℕ} (hno : ¬ Live k s) :
      ThreadAccess k s t (.testPending InUpcall Force Cpu) (s.goto t (.done InUpcall false))
  | again {InUpcall Force : Bool} {Cpu : ℕ} :
      ThreadAccess k s t (.testPending InUpcall Force Cpu) (s.goto t (.remask InUpcall))
  | asked {Force : Bool} {Cpu : ℕ} :
      ThreadAccess k s t (.testPending false Force Cpu) (s.goto t (.compare Cpu))
  | elsewhere {Cpu : ℕ} : ThreadAccess k s t (.compare Cpu) (s.goto t (.remask false))
  | here {Cpu : ℕ} {pc : Thread} (hpc : pc = .maskBack ∨ pc = .ack) :
      ThreadAccess k s t (.compare Cpu) (s.goto t pc)
  | remasked {InUpcall : Bool} : ThreadAccess k s t (.remask InUpcall)
      ({ s with evtchn_mask := Bitmap.set s.evtchn_mask k.LocalPort }.goto t (.hypercall InUpcall))
  | called {InUpcall : Bool} : ThreadAccess k s t (.hypercall InUpcall)
      ((eventChannelUnmask s k.LocalPort).goto t (.done InUpcall false))
  | hidden : ThreadAccess k s t .maskBack
      ({ s with evtchn_mask := Bitmap.set s.evtchn_mask k.LocalPort }.goto t .ack)
  | acked : ThreadAccess k s t .ack
      ({ s with evtchn_pending := Bitmap.clear s.evtchn_pending k.LocalPort }.goto t (.done false true))
  | returned {Pending : Bool} : ThreadAccess k s t (.done true Pending) (s.goto t .idle)
  | released {Pending : Bool} : ThreadAccess k s t (.done false Pending)
      ({ s with ChannelLock := none }.goto t .idle)
  | refused {Cpu : ℕ} : ThreadAccess k s t (.bindLock Cpu) (s.goto t .idle)
  | bound {Cpu : ℕ} (hlock : s.ChannelLock = none) : ThreadAccess k s t (.bindLock Cpu)
      ({ s with ChannelLock := some t }.goto t (.bindCall Cpu))
  | routed {Cpu : ℕ} : ThreadAccess k s t (.bindCall Cpu)
      ({ s with Route := Cpu }.goto t (.bindStore Cpu))
  | failed {Cpu : ℕ} : ThreadAccess k s t (.bindCall Cpu)
      ({ s with ChannelLock := none }.goto t .idle)
  | stored {Cpu : ℕ} : ThreadAccess k s t (.bindStore Cpu)
      ({ s with Cpu := Cpu, ChannelLock := none }.goto t .idle)

theorem threadStep_cases {t : ι} {bound : Bool} {pc : Thread}
    (h : threadStep k s t bound pc = some s') : ThreadAccess k s t pc s' := by
  cases pc with
  | idle => cases h
  | unmaskLock Force Cpu =>
    simp only [threadStep] at h
    split_ifs at h with hlock
    obtain rfl := Option.some.inj h
    exact .locked hlock
  | unmask InUpcall Force Cpu =>
    obtain rfl := Option.some.inj h
    exact .unmasked
  | testPending InUpcall Force Cpu =>
    simp only [threadStep] at h
    split_ifs at h with hpending hforce <;> obtain rfl := Option.some.inj h
    · refine .nothing fun hlive => ?_
      rw [hlive.1] at hpending
      cases hpending
    · exact .again
    · obtain rfl : InUpcall = false := by
        cases InUpcall
        · rfl
        · exact absurd rfl hforce
      exact .asked
  | compare Cpu =>
    simp only [threadStep] at h
    split at h <;> obtain rfl := Option.some.inj h
    · exact .elsewhere
    · apply ThreadAccess.here
      split
      · exact .inl rfl
      · exact .inr rfl
  | remask InUpcall =>
    obtain rfl := Option.some.inj h
    exact .remasked
  | hypercall InUpcall =>
    obtain rfl := Option.some.inj h
    exact .called
  | maskBack =>
    obtain rfl := Option.some.inj h
    exact .hidden
  | ack =>
    obtain rfl := Option.some.inj h
    exact .acked
  | done InUpcall Pending =>
    obtain rfl := Option.some.inj h
    cases InUpcall
    · exact .released
    · exact .returned
  | bindLock Cpu =>
    simp only [threadStep] at h
    split_ifs at h with _ hlock <;> obtain rfl := Option.some.inj h
    · exact .refused
    · exact .refused
    · exact .bound (not_not.mp hlock)
  | bindCall Cpu =>
    simp only [threadStep] at h
    split at h <;> obtain rfl := Option.some.inj h
    · exact .routed
    · exact .failed
  | bindStore Cpu =>
    obtain rfl := Option.some.inj h
    exact .stored

/-- What the steps of others than polls leave alone: the polls, the queues and `Channel->Pending`. They
take nothing back from a processor that has been told. -/
structure Tells (s s' : State ι) : Prop where
  poll : s'.poll = s.poll
  queued : s'.queued = s.queued
  Pending : s'.Pending = s.Pending
  sel : ∀ i Bit, (s.evtchn_pending_sel i).getLsbD Bit = true →
    (s'.evtchn_pending_sel i).getLsbD Bit = true
  upcall : ∀ i, s.evtchn_upcall_pending i = true → s'.evtchn_upcall_pending i = true

omit [DecidableEq ι] in
theorem Tells.raised (h : Tells s s') {Cpu : ℕ} (hraised : Raised k s Cpu) : Raised k s' Cpu := by
  obtain ⟨hsel, hupcall⟩ | hahead := hraised
  · refine .inl ⟨h.sel _ _ hsel, ?_⟩
    rw [h.poll]
    exact hupcall.imp_left (h.upcall Cpu)
  · exact .inr (by rwa [h.poll])

omit [DecidableEq ι] in
theorem Tells.queueing (h : Tells s s') (hq : Queueing s) : Queueing s' where
  held := by
    rw [h.Pending, h.poll, h.queued]
    exact hq.held
  queued := by
    rw [h.poll, h.queued]
    exact hq.queued

omit [DecidableEq ι] in
theorem raise_tells (s : State ι) (Cpu Port : ℕ) : Tells s (raise s Cpu Port) where
  poll := rfl
  queued := rfl
  Pending := rfl
  sel i Bit h := by
    by_cases hi : i = Cpu
    · subst hi
      change (Function.update s.evtchn_pending_sel i _ i).getLsbD Bit = true
      rw [Function.update_self]
      exact Bitmap.getLsbD_setBit_of_getLsbD h _
    · change (Function.update s.evtchn_pending_sel Cpu _ i).getLsbD Bit = true
      rwa [Function.update_of_ne hi]
  upcall i h := by
    by_cases hi : i = Cpu
    · subst hi
      exact Function.update_self ..
    · change Function.update s.evtchn_upcall_pending Cpu true i = true
      rwa [Function.update_of_ne hi]

omit [DecidableEq ι] in
theorem signalled_raise (s : State ι) (Cpu : ℕ) : Signalled k (raise s Cpu k.LocalPort) Cpu := by
  constructor
  · change (Function.update s.evtchn_pending_sel Cpu _ Cpu).getLsbD k.SelectorBit = true
    rw [Function.update_self]
    exact Bitmap.getLsbD_setBit_self _ k.selectorBit_lt
  · exact .inl (Function.update_self ..)

/-- What one access of a thread leaves alone: the other threads, and what `Tells` says. -/
structure ThreadFrame (t : ι) (s s' : State ι) : Prop extends Tells s s' where
  thread : ∀ j, j ≠ t → s'.thread j = s.thread j

omit [DecidableEq ι] in
theorem eventChannelUnmask_tells (s : State ι) (Port : ℕ) : Tells s (eventChannelUnmask s Port) := by
  unfold eventChannelUnmask
  simp only
  split
  · have h := raise_tells { s with evtchn_mask := Bitmap.clear s.evtchn_mask Port } s.Route Port
    exact ⟨h.poll, h.queued, h.Pending, h.sel, h.upcall⟩
  · exact ⟨rfl, rfl, rfl, fun _ _ h => h, fun _ h => h⟩

/-- The threads, the route and the channel's record and lock are as before. -/
structure Unbound (s s' : State ι) : Prop where
  thread : s'.thread = s.thread
  Route : s'.Route = s.Route
  Cpu : s'.Cpu = s.Cpu
  lock : s'.ChannelLock = s.ChannelLock

omit [DecidableEq ι] in
theorem eventChannelUnmask_unbound (s : State ι) (Port : ℕ) :
    Unbound s (eventChannelUnmask s Port) := by
  unfold eventChannelUnmask
  simp only
  split <;> exact ⟨rfl, rfl, rfl, rfl⟩

theorem ThreadAccess.frame {t : ι} {pc : Thread} (hacc : ThreadAccess k s t pc s') :
    ThreadFrame t s s' := by
  cases hacc
  case called =>
    have h := eventChannelUnmask_tells s k.LocalPort
    refine ⟨⟨h.poll, h.queued, h.Pending, h.sel, h.upcall⟩, fun j hj => ?_⟩
    rw [← (eventChannelUnmask_unbound s k.LocalPort).thread]
    exact Function.update_of_ne hj _ _
  all_goals exact { poll := rfl, queued := rfl, Pending := rfl, sel := fun _ _ h => h
                    upcall := fun _ h => h, thread := fun j hj => Function.update_of_ne hj _ _ }

@[simp] theorem goto_thread (s : State ι) (t : ι) (pc : Thread) : (s.goto t pc).thread t = pc :=
  Function.update_self ..

/-- What an access does to the lock. -/
theorem ThreadAccess.lock {t : ι} {pc : Thread} (hacc : ThreadAccess k s t pc s') :
    s'.ChannelLock = s.ChannelLock ∧ ((s'.thread t).Holding → pc.Holding) ∨
      s.ChannelLock = none ∧ s'.ChannelLock = some t ∨
      pc.Holding ∧ s'.ChannelLock = none ∧ ¬ (s'.thread t).Holding := by
  cases hacc
  case locked hlock | bound hlock => exact .inr (.inl ⟨hlock, rfl⟩)
  case released | failed | stored => exact .inr (.inr ⟨by trivial, rfl, by simp [Thread.Holding]⟩)
  case called =>
    exact .inl ⟨(eventChannelUnmask_unbound s k.LocalPort).lock, by simp [Thread.Holding]⟩
  case started hpc => exact .inl ⟨rfl, by rw [goto_thread]; exact fun h => absurd h hpc⟩
  case here hpc => exact .inl ⟨rfl, fun _ => trivial⟩
  all_goals exact .inl ⟨rfl, by simp [Thread.Holding]⟩

/-- The route changes under the lock only, for the store that comes next. -/
theorem ThreadAccess.route {t : ι} {pc : Thread} (hacc : ThreadAccess k s t pc s') :
    s'.Route = s.Route ∨ pc.Holding ∧ s'.thread t = .bindStore s'.Route := by
  cases hacc
  case called => exact .inl (eventChannelUnmask_unbound s k.LocalPort).Route
  case routed => exact .inr ⟨trivial, goto_thread ..⟩
  all_goals exact .inl rfl

/-- `EvtchnBind` comes to its store with the route of the processor. -/
theorem ThreadAccess.store {t : ι} {pc : Thread} (hacc : ThreadAccess k s t pc s') {Cpu : ℕ}
    (h : s'.thread t = .bindStore Cpu) : s'.Route = Cpu := by
  cases hacc
  case routed =>
    rw [goto_thread] at h
    injection h
  case started hpc =>
    rw [goto_thread] at h
    exact absurd (by rw [h]; trivial) hpc
  case here hpc =>
    rw [goto_thread] at h
    subst h
    simp at hpc
  all_goals rw [goto_thread] at h; cases h

/-- What the channel records changes at the store only. -/
theorem ThreadAccess.Cpu {t : ι} {pc : Thread} (hacc : ThreadAccess k s t pc s') :
    s'.Cpu = s.Cpu ∧ (∀ Cpu, pc ≠ .bindStore Cpu) ∨
      ∃ Cpu, pc = .bindStore Cpu ∧ s'.Cpu = Cpu ∧ s'.Route = s.Route := by
  cases hacc
  case called => exact .inl ⟨(eventChannelUnmask_unbound s k.LocalPort).Cpu, by simp⟩
  case stored Cpu => exact .inr ⟨Cpu, rfl, rfl, rfl⟩
  all_goals exact .inl ⟨rfl, by simp⟩

theorem Binding.thread {t : ι} {pc : Thread} (h : Binding s) (hacc : ThreadAccess k s t pc s')
    (hpc : s.thread t = pc) : Binding s' := by
  have hframe := hacc.frame
  subst hpc
  have hself : ∀ j, (s.thread j).Holding → (s.thread t).Holding → j = t := fun j hj ht =>
    Option.some.inj ((h.lock j hj).symm.trans (h.lock t ht))
  constructor
  case lock =>
    intro j hj
    by_cases hjt : j = t
    · subst hjt
      obtain ⟨hlock, hholding⟩ | ⟨_, hlock⟩ | ⟨_, _, hnot⟩ := hacc.lock
      · rw [hlock]
        exact h.lock j (hholding hj)
      · exact hlock
      · exact absurd hj hnot
    · rw [hframe.thread j hjt] at hj
      obtain ⟨hlock, _⟩ | ⟨hfree, _⟩ | ⟨hholding, _⟩ := hacc.lock
      · rw [hlock]
        exact h.lock j hj
      · exact absurd (h.lock j hj) (by simp [hfree])
      · exact absurd (hself j hj hholding) hjt
  case bound =>
    intro j Cpu hj
    by_cases hjt : j = t
    · subst hjt
      exact hacc.store hj
    · rw [hframe.thread j hjt] at hj
      obtain hroute | ⟨hholding, _⟩ := hacc.route
      · rw [hroute]
        exact h.bound j Cpu hj
      · exact absurd (hself j (by rw [hj]; trivial) hholding) hjt
  case route =>
    obtain ⟨hCpu, hstore⟩ | ⟨Cpu, hstore, hCpu, hroute⟩ := hacc.Cpu
    · obtain hroute | ⟨_, hnext⟩ := hacc.route
      · rw [hroute, hCpu]
        obtain hagree | ⟨j, hj⟩ := h.route
        · exact .inl hagree
        · have hjt : j ≠ t := by
            rintro rfl
            exact hstore _ hj
          exact .inr ⟨j, by rw [hframe.thread j hjt, hj]⟩
      · exact .inr ⟨t, hnext⟩
    · exact .inl (by rw [hroute, hCpu, h.bound t Cpu hstore])

omit [DecidableEq ι] in
/-- What is raised on the route is attended to. -/
theorem Binding.attended (h : Binding s) (hraised : Raised k s s.Route) : Attended k s := by
  obtain hroute | ⟨t, ht⟩ := h.route
  · exact .inl (hroute ▸ hraised)
  · exact .inr (.inr ⟨t, s.Route, ht, hraised⟩)

omit [DecidableEq ι] in
theorem signalled_eventChannelUnmask
    (h : Bitmap.get (eventChannelUnmask s k.LocalPort).evtchn_pending k.LocalPort = true) :
    Signalled k (eventChannelUnmask s k.LocalPort) (eventChannelUnmask s k.LocalPort).Route := by
  unfold eventChannelUnmask at h ⊢
  simp only at h ⊢
  split at h
  next hpending =>
    rw [if_pos hpending]
    exact signalled_raise _ _
  next hpending => exact absurd h hpending

omit [DecidableEq ι] in
theorem InHand.thread {t : ι} (h : InHand s) (hframe : ThreadFrame t s s')
    (ht : ¬ (s.thread t).Takes) : InHand s' := by
  obtain ⟨i, hi⟩ | ⟨j, hj⟩ := h
  · exact .inl ⟨i, by rwa [hframe.poll, hframe.Pending, hframe.queued]⟩
  · have hjt : j ≠ t := by
      rintro rfl
      exact ht hj
    exact .inr ⟨j, by rwa [hframe.thread j hjt]⟩

omit [DecidableEq ι] in
/-- A thread that neither deals with the port nor is about to record a processor. -/
theorem Attended.aside {t : ι} (h : Attended k s) (hframe : ThreadFrame t s s')
    (ht : ¬ (s.thread t).Takes) (hstore : ∀ Cpu, s.thread t ≠ .bindStore Cpu)
    (hCpu : s'.Cpu = s.Cpu) : Attended k s' := by
  obtain hraised | hhand | ⟨j, Cpu, hj, hraised⟩ := h
  · exact .inl (by rw [hCpu]; exact hframe.raised hraised)
  · exact .inr (.inl (hhand.thread hframe ht))
  · have hjt : j ≠ t := by
      rintro rfl
      exact hstore Cpu hj
    exact .inr (.inr ⟨j, Cpu, by rw [hframe.thread j hjt, hj], hframe.raised hraised⟩)

/-- **An unmask loses no event, nor does a bind** that keeps to the condition. -/
theorem ThreadAccess.attended {t : ι} {pc : Thread} (hacc : ThreadAccess k s t pc s')
    (h : Live k s → Attended k s) (hpc : s.thread t = pc)
    (hkept : ∀ Cpu, s.thread t = .bindStore Cpu → Live k s → InHand s ∨ Raised k s Cpu)
    (hb : Binding s') (hlive : Live k s') : Attended k s' := by
  have hframe := hacc.frame
  have haside : Live k s → ¬ (s.thread t).Takes → (∀ Cpu, s.thread t ≠ .bindStore Cpu) →
      s'.Cpu = s.Cpu → Attended k s' := fun hlive ht hstore => (h hlive).aside hframe ht hstore
  subst hpc
  generalize hpc : s.thread t = pc at hacc
  rw [hpc] at haside
  cases hacc
  case unmasked | again | asked | elsewhere =>
    exact .inr (.inl (.inr ⟨t, by rw [goto_thread]; trivial⟩))
  case here hto =>
    refine .inr (.inl (.inr ⟨t, ?_⟩))
    rw [goto_thread]
    obtain rfl | rfl := hto <;> trivial
  case nothing hno => exact absurd hlive hno
  case remasked | hidden => exact (live_set hlive.2).elim
  case acked => exact (live_clear hlive.1).elim
  case called => exact hb.attended (.inl (signalled_eventChannelUnmask hlive.1))
  case stored Cpu =>
    obtain hhand | hraised := hkept Cpu hpc hlive
    · exact .inr (.inl (hhand.thread hframe (by rw [hpc]; exact not_false)))
    · exact .inl (hframe.raised hraised)
  all_goals exact haside hlive not_false (by simp) rfl

end Threads

/-! ## The system -/

/-- The invariant. -/
structure Sound (k : Config) (s : State ι) : Prop where
  attended : Live k s → Attended k s
  queueing : Queueing s
  binding : Binding s
  found : ∀ Cpu c, s.poll Cpu = .found c → c.At k

theorem Opened.sound (h : Opened k s) : Sound k s where
  attended hlive := by
    have hmask := hlive.2
    rw [h.masked] at hmask
    cases hmask
  queueing := ⟨fun hpending => by simp [h.Pending] at hpending, fun Cpu hq => by simp [h.queued] at hq⟩
  binding := ⟨fun t ht => by simp [h.thread, Thread.Holding] at ht, fun t Cpu ht => by
    simp [h.thread] at ht, .inl h.route⟩
  found Cpu c hc := by simp [h.poll] at hc

theorem Sound.poll {Cpu : ℕ} {pc : Poll} (h : Sound k s) (hacc : PollAccess k s Cpu pc s')
    (hpc : s.poll Cpu = pc) (hkept : Kept k s (.poll Cpu)) : Sound k s' := by
  have hqueueing := h.queueing.poll hacc hpc
  refine ⟨fun hlive => (h.attended (hacc.frame.live hlive)).poll hacc hpc hkept hqueueing hlive,
    hqueueing, h.binding.poll hacc.frame, fun i c hc => ?_⟩
  by_cases hi : i = Cpu
  · subst hi
    exact hacc.found hc
  · rw [hacc.frame.poll i hi] at hc
    exact h.found i c hc

theorem Unbound.binding (h : Unbound s s') (hb : Binding s) : Binding s' where
  lock := by
    rw [h.thread, h.lock]
    exact hb.lock
  bound := by
    rw [h.thread, h.Route]
    exact hb.bound
  route := by
    rw [h.thread, h.Route, h.Cpu]
    exact hb.route

theorem Attended.tells (h : Attended k s) (htells : Tells s s') (hunbound : Unbound s s') :
    Attended k s' := by
  obtain hraised | (⟨Cpu, hCpu⟩ | ⟨t, ht⟩) | ⟨t, Cpu, ht, hraised⟩ := h
  · exact .inl (by rw [hunbound.Cpu]; exact htells.raised hraised)
  · exact .inr (.inl (.inl ⟨Cpu, by rwa [htells.poll, htells.Pending, htells.queued]⟩))
  · exact .inr (.inl (.inr ⟨t, by rwa [hunbound.thread]⟩))
  · exact .inr (.inr ⟨t, Cpu, by rw [hunbound.thread, ht], htells.raised hraised⟩)

/-- A step of the hypervisor. If it makes the port live, it raises the port as well. -/
theorem Sound.tells (h : Sound k s) (htells : Tells s s') (hunbound : Unbound s s')
    (hlive : Live k s' → Live k s ∨ Raised k s' s'.Route) : Sound k s' := by
  have hbinding := hunbound.binding h.binding
  refine ⟨fun hlive' => ?_, htells.queueing h.queueing, hbinding, htells.poll ▸ h.found⟩
  obtain hlive | hraised := hlive hlive'
  · exact (h.attended hlive).tells htells hunbound
  · exact hbinding.attended hraised

theorem Sound.send (h : Sound k s) : Sound k (send s k.LocalPort) := by
  unfold TwoLevel.send
  simp only
  split_ifs with hpending hmask
  · exact h
  · refine h.tells ⟨rfl, rfl, rfl, fun _ _ h => h, fun _ h => h⟩ ⟨rfl, rfl, rfl, rfl⟩ fun hlive => ?_
    have hunmasked : Bitmap.get s.evtchn_mask k.LocalPort = false := hlive.2
    rw [hunmasked] at hmask
    cases hmask
  · have htells := raise_tells
      { s with evtchn_pending := Bitmap.set s.evtchn_pending k.LocalPort } s.Route k.LocalPort
    exact h.tells ⟨htells.poll, htells.queued, htells.Pending, htells.sel, htells.upcall⟩
      ⟨rfl, rfl, rfl, rfl⟩ fun _ => .inr (.inl (signalled_raise _ _))

theorem Sound.other (h : Sound k s) {Port : ℕ} (hport : Port ≠ k.LocalPort) (Pending Mask : Bool)
    (raised : Option ℕ) : Sound k (other s Port Pending Mask raised) := by
  have hlive : ∀ u : State ι, u.evtchn_pending = Bitmap.put s.evtchn_pending Port Pending →
      u.evtchn_mask = Bitmap.put s.evtchn_mask Port Mask → Live k u → Live k s := by
    rintro u hpending hmask hlive
    rwa [Live, hpending, hmask, Bitmap.get_put_of_ne _ hport, Bitmap.get_put_of_ne _ hport] at hlive
  unfold TwoLevel.other
  cases raised with
  | none =>
    exact h.tells ⟨rfl, rfl, rfl, fun _ _ h => h, fun _ h => h⟩ ⟨rfl, rfl, rfl, rfl⟩
      fun hlive' => .inl (hlive _ rfl rfl hlive')
  | some Cpu =>
    have htells := raise_tells
      { s with evtchn_pending := Bitmap.put s.evtchn_pending Port Pending
               evtchn_mask := Bitmap.put s.evtchn_mask Port Mask } Cpu Port
    exact h.tells ⟨htells.poll, htells.queued, htells.Pending, htells.sel, htells.upcall⟩
      ⟨rfl, rfl, rfl, rfl⟩ fun hlive' => .inl (hlive _ rfl rfl hlive')

theorem Sound.thread [DecidableEq ι] {t : ι} {pc : Thread} (h : Sound k s)
    (hacc : ThreadAccess k s t pc s') (hpc : s.thread t = pc)
    (hkept : ∀ Cpu, s.thread t = .bindStore Cpu → Live k s → InHand s ∨ Raised k s Cpu) :
    Sound k s' := by
  have hbinding := h.binding.thread hacc hpc
  exact ⟨hacc.attended h.attended hpc hkept hbinding, hacc.frame.queueing h.queueing, hbinding,
    hacc.frame.poll ▸ h.found⟩

/-- **The step lemma.** -/
theorem Sound.step [DecidableEq ι] {a : Action ι} (h : Sound k s) (hkept : Kept k s a)
    (hs : step k s a = some s') : Sound k s' := by
  cases a with
  | send =>
    obtain rfl := Option.some.inj hs
    exact h.send
  | other Port Pending Mask raised =>
    simp only [TwoLevel.step] at hs
    split_ifs at hs with hport
    obtain rfl := Option.some.inj hs
    exact h.other hport Pending Mask raised
  | interrupt Cpu =>
    simp only [TwoLevel.step] at hs
    split_ifs at hs with hidle
    obtain rfl := Option.some.inj hs
    exact h.poll (.started (.inl rfl)) hidle fun c hc => by rw [hidle] at hc; cases hc
  | flush Cpu =>
    simp only [TwoLevel.step] at hs
    split_ifs at hs with hidle
    obtain rfl := Option.some.inj hs
    exact h.poll (.started (.inr rfl)) hidle fun c hc => by rw [hidle] at hc; cases hc
  | poll Cpu => exact h.poll (pollStep_cases hs) rfl hkept
  | unmask t InUpcall Force Cpu =>
    simp only [TwoLevel.step] at hs
    split_ifs at hs with hidle hupcall <;> obtain rfl := Option.some.inj hs
    · exact h.thread (.started (by simp [Thread.Holding])) hidle fun c hc => by rw [hidle] at hc; cases hc
    · exact h.thread (.started (by simp [Thread.Holding])) hidle fun c hc => by rw [hidle] at hc; cases hc
  | bind t Cpu =>
    simp only [TwoLevel.step] at hs
    split_ifs at hs with hidle
    obtain rfl := Option.some.inj hs
    exact h.thread (.started (by simp [Thread.Holding])) hidle fun c hc => by rw [hidle] at hc; cases hc
  | run t bound => exact h.thread (threadStep_cases hs) rfl hkept

/-- What `EvtchnBind` breaks: the port is live, the new processor has not been told, and it is recorded. -/
theorem Sound.store_lost [DecidableEq ι] {t : ι} {Cpu : ℕ} (h : Sound k s)
    (hstore : s.thread t = .bindStore Cpu) (hhand : ¬ InHand s) (hraised : ¬ Raised k s Cpu)
    (hs : threadStep k s t bound (.bindStore Cpu) = some s') : ¬ Attended k s' := by
  obtain rfl := Option.some.inj hs
  have hthread : ∀ j, j ≠ t → ({ s with Cpu := Cpu, ChannelLock := none }.goto t .idle).thread j =
      s.thread j := fun j hj => Function.update_of_ne hj _ _
  rintro (hraised' | (hpoll | ⟨j, hj⟩) | ⟨j, Cpu', hj, _⟩)
  · exact hraised hraised'
  · exact hhand (.inl hpoll)
  · by_cases hjt : j = t
    · subst hjt
      rw [goto_thread] at hj
      exact hj
    · rw [hthread j hjt] at hj
      exact hhand (.inr ⟨j, hj⟩)
  · by_cases hjt : j = t
    · subst hjt
      rw [goto_thread] at hj
      cases hj
    · rw [hthread j hjt] at hj
      have hlock := h.binding.lock j (by rw [hj]; trivial)
      have hlock' := h.binding.lock t (by rw [hstore]; trivial)
      exact hjt (Option.some.inj (hlock.symm.trans hlock'))

/-- What a poll breaks: the processor that is about to be recorded discards the event. -/
theorem Sound.discard_lost {t : ι} {Cpu : ℕ} {c : Cursor} (h : Sound k s)
    (hpc : s.poll Cpu = .found c) (hne : s.Cpu ≠ Cpu) (hstore : s.thread t = .bindStore Cpu)
    (hhand : ¬ InHand s) (hold : ¬ Raised k s s.Cpu) (hnew : ¬ Signalled k s Cpu)
    (hs : pollStep k s Cpu (.found c) = some s') : Live k s' = Live k s ∧ ¬ Attended k s' := by
  rw [pollStep, if_pos hne] at hs
  obtain rfl := Option.some.inj hs
  have hpoll : ∀ i, i ≠ Cpu → (s.poller Cpu (.ports c.polled)).poll i = s.poll i :=
    fun i hi => Function.update_of_ne hi _ _
  have hraised : ∀ i, i ≠ Cpu → Raised k (s.poller Cpu (.ports c.polled)) i → Raised k s i :=
    fun i hi hr => by rwa [Raised, Signalled, hpoll i hi] at hr
  refine ⟨rfl, ?_⟩
  rintro (hraised' | (⟨i, hi⟩ | ht) | ⟨j, i, hj, hraised'⟩)
  · exact hold (hraised _ hne hraised')
  · by_cases hiCpu : i = Cpu
    · subst hiCpu
      rw [poller_poll] at hi
      exact hhand (.inl ⟨i, by rw [hpc]; exact hi⟩)
    · rw [hpoll i hiCpu] at hi
      exact hhand (.inl ⟨i, hi⟩)
  · exact hhand (.inr ht)
  · obtain rfl : i = Cpu := (h.binding.bound j i hj).symm.trans (h.binding.bound t Cpu hstore)
    obtain ⟨hsel, hupcall | ⟨henter, _⟩⟩ | hahead := hraised'
    · exact hnew ⟨hsel, .inl hupcall⟩
    · rw [poller_poll] at henter
      cases henter
    · rw [poller_poll] at hahead
      exact (h.found i c hpc).not_ahead hahead

/-- **The condition is exact**: a step that breaks it leaves the port pending, not masked, and attended to
by nobody. -/
theorem lost_of_not_kept [DecidableEq ι] {a : Action ι} (h : Sound k s) (hkept : ¬ Kept k s a)
    (hs : step k s a = some s') : Live k s' ∧ ¬ Attended k s' := by
  cases a
  case run t bound =>
    simp only [Kept, not_forall, not_or] at hkept
    obtain ⟨Cpu, hstore, hlive, hhand, hraised⟩ := hkept
    change threadStep k s t bound (s.thread t) = some s' at hs
    rw [hstore] at hs
    have hlost := h.store_lost hstore hhand hraised hs
    obtain rfl := Option.some.inj hs
    exact ⟨hlive, hlost⟩
  case poll Cpu =>
    simp only [Kept, not_forall, not_or] at hkept
    obtain ⟨c, hpc, hne, ⟨t, hstore⟩, hlive, hhand, hold, hnew⟩ := hkept
    change pollStep k s Cpu (s.poll Cpu) = some s' at hs
    rw [hpc] at hs
    obtain ⟨hsame, hlost⟩ := h.discard_lost hpc hne hstore hhand hold hnew hs
    exact ⟨hsame ▸ hlive, hlost⟩
  all_goals exact absurd trivial hkept

/-- **Attended.** In every run that keeps to the condition, the port is attended to whenever it is
pending and not masked. -/
theorem attended_of_reaches [DecidableEq ι] {s₀ : State ι} (h₀ : Opened k s₀)
    (h : Reaches (step k) (Kept k) s₀ s) (hlive : Live k s) : Attended k s :=
  (h.invariant h₀.sound fun _ _ _ h hkept hs => h.step hkept hs).attended hlive

/-! ## A bind that loses an event -/

/-- Two processors, and the first port, which is masked when it is polled. -/
def firstPort : Config := ⟨⟨2, fun _ => true, fun Cpu => some Cpu⟩, 0, true, by decide⟩

/-- Its channel, when it has been opened. -/
def opened : State Unit where
  evtchn_pending _ := 0
  evtchn_mask _ := BitVec.allOnes PER_SELECTOR
  evtchn_pending_sel _ := 0
  evtchn_upcall_pending _ := false
  Route := 0
  Cpu := 0
  Pending := false
  Count := 0
  queued _ := false
  ChannelLock := none
  Port _ := 0
  InInterrupt _ := false
  poll _ := .idle
  thread _ := .idle

theorem opened_opened : Opened firstPort opened where
  masked := by decide
  route := rfl
  Pending := rfl
  queued _ := rfl
  lock := rfl
  poll _ := rfl
  thread _ := rfl

/-- The thread unmasks the port, from its call to its return. -/
def unmasking : List (Action Unit) := .unmask () false true 0 :: List.replicate 4 (.run () true)

/-- It binds the channel to the second processor. -/
def binding : List (Action Unit) := .bind () 1 :: List.replicate 3 (.run () true)

/-- The interrupt of a processor, with so many accesses of its poll. -/
def polling (Cpu n : ℕ) : List (Action Unit) := .interrupt Cpu :: List.replicate n (.poll Cpu)

/-- A test for `Kept`: no bind records a processor while the port is live, and no event is discarded. -/
def Calm (k : Config) (s : State ι) : Action ι → Bool
  | .run t _ =>
    match s.thread t with
    | .bindStore _ =>
      !(Bitmap.get s.evtchn_pending k.LocalPort && !Bitmap.get s.evtchn_mask k.LocalPort)
    | _ => true
  | .poll Cpu =>
    match s.poll Cpu with
    | .found _ => decide (s.Cpu = Cpu)
    | _ => true
  | _ => true

theorem kept_of_calm {a : Action ι} (h : Calm k s a = true) : Kept k s a := by
  cases a
  case run t bound =>
    intro Cpu hstore hlive
    simp [Calm, hstore, hlive.1, hlive.2] at h
  case poll Cpu =>
    intro c hpc hne
    simp [Calm, hpc, hne] at h
  all_goals trivial

/-- The channel is bound, the event sent, and the new processor has it in hand. -/
theorem attended_of_reaches_run : ∃ s : State Unit,
    Reaches (step firstPort) (Kept firstPort) opened s ∧ s.Cpu = 1 ∧ s.queued 1 = true ∧
      Live firstPort s ∧ Attended firstPort s := by
  obtain ⟨s, hs, hend⟩ := (Option.any_eq_true (fun s : State Unit =>
      decide (s.Cpu = 1) && s.queued 1 && Bitmap.get s.evtchn_pending 0 && !Bitmap.get s.evtchn_mask 0)
    (guardedRun (step firstPort) (fun s a => Calm firstPort s a = true) opened
      (unmasking ++ binding ++ .send :: polling 1 8))).mp (by decide +kernel)
  simp only [Bool.and_eq_true, decide_eq_true_eq, Bool.not_eq_true'] at hend
  obtain ⟨⟨⟨hCpu, hqueued⟩, hpending⟩, hmask⟩ := hend
  have h := (reaches_of_guardedRun hs).mono fun _ _ => kept_of_calm
  exact ⟨s, h, hCpu, hqueued, ⟨hpending, hmask⟩,
    attended_of_reaches opened_opened h ⟨hpending, hmask⟩⟩

/-- **An event is lost**: it is sent before the bind and polled for after it, on the old processor. Then
the port is pending and not masked, nothing is in progress, and no selector bit and no
`evtchn_upcall_pending` is set. -/
theorem event_lost : ∃ s : State Unit, Opened firstPort opened ∧
    Reaches (step firstPort) Free opened s ∧ Live firstPort s ∧ s.Count = 0 ∧
      (∀ Cpu, s.evtchn_pending_sel Cpu = 0 ∧ s.evtchn_upcall_pending Cpu = false) ∧
        (∀ Cpu, s.poll Cpu = .idle) ∧ (∀ t, s.thread t = .idle) ∧ ¬ Attended firstPort s := by
  obtain ⟨s, hs, hlive, hcount, htold, hpoll, hthread⟩ : ∃ s : State Unit,
      run (step firstPort) opened (unmasking ++ .send :: binding ++ polling 0 10) = some s ∧
        Live firstPort s ∧ s.Count = 0 ∧
          (∀ Cpu, s.evtchn_pending_sel Cpu = 0 ∧ s.evtchn_upcall_pending Cpu = false) ∧
            (∀ Cpu, s.poll Cpu = .idle) ∧ ∀ t, s.thread t = .idle := by
    refine ⟨_, rfl, ⟨rfl, rfl⟩, rfl, fun Cpu => ?_, fun Cpu => ?_, fun _ => rfl⟩
    · rcases Cpu with _ | _ | Cpu <;> exact ⟨rfl, rfl⟩
    · rcases Cpu with _ | _ | Cpu <;> rfl
  refine ⟨s, opened_opened, reaches_of_run hs, hlive, hcount, htold, hpoll, hthread, ?_⟩
  have hraised : ∀ Cpu, ¬ Raised firstPort s Cpu := fun Cpu h => by
    simp [Raised, Signalled, Poll.Ahead, htold, hpoll] at h
  rintro (h | (⟨Cpu, h⟩ | ⟨t, h⟩) | ⟨t, Cpu, h, _⟩)
  · exact hraised _ h
  · simp [hpoll, Poll.Takes] at h
  · simp [hthread, Thread.Takes] at h
  · simp [hthread] at h

end XenBus.Evtchn.TwoLevel
