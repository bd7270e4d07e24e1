import XenBus.Evtchn.Draining

/-!
# The order of the queues

The FIFO ABI has a queue a priority, from 0, the highest, to 15, the lowest. In each round of its loop
`EvtchnFifoPoll` (`evtchn_fifo.c`) looks for the highest bit of `Ready`, so it takes the queue of the lowest
priority that is ready (`lowest_of_reaches`). This is the queue of the highest priority only when no other
queue is ready (`highest_iff`, `served_of_reaches`).
-/

namespace XenBus.Evtchn.Fifo

open Bitmap Transition

variable {ι : Type} {p : Config} {s s' t : State ι} {Ready : ULONG} {Priority : ℕ}

/-! ## The choice -/

/-- The queue is ready, and none that is ready has a higher priority: 0 is the highest. -/
def Highest (Ready : ULONG) (Priority : ℕ) : Prop :=
  Ready.getLsbD Priority = true ∧ ∀ q, Ready.getLsbD q = true → Priority ≤ q

/-- At most one queue is ready. -/
def Single (Ready : ULONG) : Prop :=
  ∀ q < 32, ∀ q' < 32, Ready.getLsbD q = true → Ready.getLsbD q' = true → q = q'

instance (Ready : ULONG) : Decidable (Single Ready) :=
  inferInstanceAs (Decidable (∀ q < 32, ∀ q' < 32, _ → _ → _))

theorem lt_of_getLsbD {q : ℕ} (h : Ready.getLsbD q = true) : q < 32 := by
  by_contra hq
  rw [BitVec.getLsbD_of_ge _ _ (by omega)] at h
  exact Bool.false_ne_true h

/-- `_BitScanReverse` finds the last bit. -/
theorem le_of_bitScanReverse (h : bitScanReverse Ready = some Priority) {q : ℕ}
    (hq : Ready.getLsbD q = true) : q ≤ Priority := by
  obtain ⟨-, as, bs, heq, hfalse⟩ := List.find?_eq_some_iff_append.mp h
  by_contra hlt
  have hmem : q ∈ (List.range 32).reverse := List.mem_reverse.mpr (List.mem_range.mpr (lt_of_getLsbD hq))
  -- what comes before `Priority` in the scan is not set, and what comes after is less
  have hsorted : (List.range 32).reverse.Pairwise (· > ·) := List.pairwise_reverse.mpr List.pairwise_lt_range
  rw [heq] at hmem hsorted
  rcases List.mem_append.mp hmem with hbefore | hafter
  · have hnot := hfalse q hbefore
    rw [hq] at hnot
    cases hnot
  · rcases List.mem_cons.mp hafter with rfl | hafter
    · exact hlt le_rfl
    · exact hlt ((List.rel_of_pairwise_cons (List.pairwise_append.mp hsorted).2.1 hafter).le)

/-- **The choice is the highest priority** if and only if there is no choice. -/
theorem highest_iff (h : bitScanReverse Ready = some Priority) : Highest Ready Priority ↔ Single Ready := by
  constructor
  · rintro ⟨-, hle⟩ q - q' - hq hq'
    have := hle q hq
    have := hle q' hq'
    have := le_of_bitScanReverse h hq
    have := le_of_bitScanReverse h hq'
    omega
  · intro hsingle
    have hset := getLsbD_of_bitScanReverse h
    exact ⟨hset, fun q hq => (hsingle _ (lt_of_getLsbD hset) _ (lt_of_getLsbD hq) hset hq).le⟩

/-! ## Runs -/

/-- What `EvtchnFifoPollPriority` has been called with, until the port is unlinked. -/
def Poll.choice : Poll → Option (ℕ × ULONG)
  | .cached Priority l | .control Priority l | .word Priority _ l | .compare Priority _ _ l =>
    some (Priority, l.Ready)
  | _ => none

/-- The poll is about to read `ready`. -/
def Poll.exchanging : Poll → Option Locals
  | .exchange l => some l
  | _ => none

/-- After `ready` has been read, at most one queue is known to be ready. -/
def OneReady (s : State ι) : Action ι → Prop
  | .run _ => ∀ l ∈ s.poll.exchanging, Single (l.Ready ||| s.ready)
  | _ => True

instance (s : State ι) (a : Action ι) : Decidable (OneReady s a) :=
  match a with
  | .run _ => inferInstanceAs (Decidable (∀ l ∈ s.poll.exchanging, Single (l.Ready ||| s.ready)))
  | .event _ _ | .enqueue _ | .poll | .ack _ | .mask _ | .unmask _ => isTrue trivial

/-- The queue that is served is that of the highest priority, and the port is one of this queue. -/
structure Served (p : Config) (s : State ι) : Prop where
  highest : ∀ Priority Ready, s.poll.choice = some (Priority, Ready) → Highest Ready Priority
  port : ∀ Priority Port Old l, s.poll = .compare Priority Port Old l → p.priority Port = Priority

/-- What holds of every word that `_BitScanReverse` is called with holds of the one of the choice. -/
def Chosen (P : ULONG → Prop) (s : State ι) : Prop :=
  ∀ Priority Ready, s.poll.choice = some (Priority, Ready) →
    bitScanReverse Ready = some Priority ∧ P Ready

theorem choice_scan {l : Locals} (h : (scan l).choice = some (Priority, Ready)) :
    bitScanReverse l.Ready = some Priority ∧ l.Ready = Ready := by
  unfold scan at h
  cases hb : bitScanReverse l.Ready with
  | none =>
    rw [hb] at h
    cases h
  | some q =>
    rw [hb] at h
    obtain ⟨rfl, rfl⟩ := Prod.mk.inj (Option.some.inj h)
    exact ⟨rfl, rfl⟩

/-- **A choice is made when `ready` has been read**, and is kept until the port is unlinked. -/
theorem choice_pollStep {answer : Bool} (hs : pollStep s answer s.poll = some s')
    (h : s'.poll.choice = some (Priority, Ready)) :
    (∃ l, s.poll = .exchange l ∧ Ready = l.Ready ||| s.ready ∧ bitScanReverse Ready = some Priority) ∨
      s.poll.choice = some (Priority, Ready) := by
  cases hp : s.poll <;> rw [hp] at hs <;> simp only [pollStep] at hs
  case returned => cases hs
  case exchange l =>
    obtain rfl := Option.some.inj hs
    obtain ⟨hscan, rfl⟩ := choice_scan h
    exact .inl ⟨l, rfl, rfl, hscan⟩
  case cached q l =>
    obtain rfl := Option.some.inj hs
    right
    rw [← h]
    change _ = Poll.choice (if _ then _ else _)
    split_ifs <;> rfl
  case control q l =>
    obtain rfl := Option.some.inj hs
    exact .inr h
  case word q Port l =>
    obtain rfl := Option.some.inj hs
    exact .inr h
  case compare q Port Old l =>
    by_cases hw : s.EventWord Port = Old
    · rw [if_pos hw] at hs
      obtain rfl := Option.some.inj hs
      cases h
    · rw [if_neg hw] at hs
      obtain rfl := Option.some.inj hs
      exact .inr h
  case testMasked q Port Head l =>
    obtain rfl := Option.some.inj hs
    simp only at h
    split_ifs at h <;> cases h
  case testPending q Port Head l =>
    obtain rfl := Option.some.inj hs
    simp only at h
    split_ifs at h <;> cases h
  case event q Port Head l =>
    obtain rfl := Option.some.inj hs
    cases h
  case store q Head l =>
    obtain rfl := Option.some.inj hs
    cases h

/-- **Reading `ready` leads to a choice of the highest priority**, or to none, if and only if at most one
queue is ready then. -/
theorem served_exchange_iff {l : Locals} {answer : Bool} (hp : s.poll = .exchange l)
    (hs : pollStep s answer s.poll = some s') :
    (∀ Priority Ready, s'.poll.choice = some (Priority, Ready) → Highest Ready Priority) ↔
      Single (l.Ready ||| s.ready) := by
  rw [hp] at hs
  obtain rfl := Option.some.inj hs
  constructor
  · intro h
    cases hb : bitScanReverse (l.Ready ||| s.ready) with
    | none =>
      intro q _ _ _ hq
      rw [getLsbD_of_bitScanReverse_eq_none hb] at hq
      cases hq
    | some Priority =>
      refine (highest_iff hb).mp (h Priority _ ?_)
      simp only [scan, hb, Poll.choice]
  · intro hsingle Priority Ready hchoice
    obtain ⟨hscan, rfl⟩ := choice_scan hchoice
    exact (highest_iff hscan).mpr hsingle

theorem chosen_of_not_running {P : ULONG → Prop} (h : s.poll.running = false) : Chosen P s := by
  intro Priority Ready hchoice
  cases hp : s.poll with
  | returned DoneSomething =>
    rw [hp] at hchoice
    cases hchoice
  | _ =>
    rw [hp] at h
    cases h

variable [DecidableEq ι]

/-- A step that is not one of the poll leaves the choice. -/
theorem enqueueStep_poll {i : ι} {e : Enqueue} (hs : enqueueStep p s i e = some s') : s'.poll = s.poll := by
  cases e <;> simp only [enqueueStep] at hs
  case idle => cases hs
  case setLinked Port =>
    split_ifs at hs <;> obtain rfl := Option.some.inj hs <;> rfl
  case tailLink Port Tail Old =>
    split_ifs at hs <;> obtain rfl := Option.some.inj hs <;> rfl
  all_goals
    obtain rfl := Option.some.inj hs
    rfl

theorem Chosen.step {P : ULONG → Prop} {a : Action ι} (h : Chosen P s)
    (hP : ∀ answer, a = .run answer → ∀ l, s.poll = .exchange l → P (l.Ready ||| s.ready))
    (hs : Fifo.step p s a = some s') : Chosen P s' := by
  intro Priority Ready hchoice
  cases a <;> simp only [Fifo.step] at hs
  case event i Port =>
    split_ifs at hs
    obtain rfl := Option.some.inj hs
    exact h _ _ hchoice
  case enqueue i => exact h _ _ (enqueueStep_poll hs ▸ hchoice)
  case poll =>
    split_ifs at hs
    obtain rfl := Option.some.inj hs
    cases hchoice
  case run answer =>
    rcases choice_pollStep hs hchoice with ⟨l, hp, rfl, hscan⟩ | hold
    · exact ⟨hscan, hP answer rfl l hp⟩
    · exact h _ _ hold
  case ack Port =>
    obtain rfl := Option.some.inj hs
    exact h _ _ hchoice
  case mask Port =>
    obtain rfl := Option.some.inj hs
    exact h _ _ hchoice
  case unmask Port =>
    obtain rfl := Option.some.inj hs
    exact h _ _ hchoice

/-- **The queue that is served is that of the lowest priority** of those that are ready, in every run. -/
theorem lowest_of_reaches (h0 : s.poll.running = false) (h : Reaches (step p) Free s t)
    (hchoice : t.poll.choice = some (Priority, Ready)) :
    Ready.getLsbD Priority = true ∧ ∀ q, Ready.getLsbD q = true → q ≤ Priority := by
  have hchosen : Chosen (fun _ => True) t :=
    h.invariant (chosen_of_not_running h0) fun _ _ _ hc _ hs =>
      hc.step (fun _ _ _ _ => trivial) hs
  obtain ⟨hscan, -⟩ := hchosen _ _ hchoice
  exact ⟨getLsbD_of_bitScanReverse hscan, fun q => le_of_bitScanReverse hscan⟩

/-- **Served in the order of priority**: in every run in which at most one queue is ready whenever `ready` has
been read, from any state in which the queues are in order and no poll runs. -/
theorem served_of_reaches {o : ℕ → Option ι} (h0 : Inv p s o) (hidle : s.poll.running = false)
    (h : Reaches (step p) (fun s a => Within p s a ∧ OneReady s a) s t) : Served p t := by
  have hchosen : Chosen Single t :=
    h.invariant (chosen_of_not_running hidle) fun _ _ _ hc hG hs =>
      hc.step (fun _ ha l hp => by
        subst ha
        exact hG.2 l (by rw [hp]; rfl)) hs
  obtain ⟨o', hinv⟩ := h.invariant (P := fun s => ∃ o, Inv p s o) ⟨o, h0⟩ fun _ _ _ hi hG hs =>
    hi.elim fun _ hi => hi.step hG.1 hs
  refine ⟨fun Priority Ready hchoice => ?_, fun Priority Port Old l hp => ?_⟩
  · obtain ⟨hscan, hsingle⟩ := hchosen _ _ hchoice
    exact (highest_iff hscan).mpr hsingle
  · have hpoll := hinv.poll
    rw [hp] at hpoll
    exact (hinv.at_cursor (by rw [hp]; exact if_pos rfl) hpoll).2.1

/-- An event of a queue, and a poll up to where the port is unlinked. -/
def oneServed : List (Action Unit) :=
  [.unmask 5, .event () 5] ++ List.replicate 7 (.enqueue ()) ++ [.poll] ++ List.replicate 4 (.run true)

theorem served_of_one : ∃ s : State Unit,
    Reaches (step config) (fun s a => Within config s a ∧ OneReady s a) init s ∧
      s.poll.choice = some (7, setBit 0 7) ∧ Served config s := by
  have hrun : (guardedRun (step config) (fun s a => Within config s a ∧ OneReady s a) (init : State Unit)
      oneServed).map (fun s => s.poll.choice) = some (some (7, setBit 0 7)) := by decide +kernel
  obtain ⟨s, hs, hchoice⟩ := Option.map_eq_some_iff.mp hrun
  have h := reaches_of_guardedRun hs
  exact ⟨s, h, hchoice, served_of_reaches inv_init rfl h⟩

/-- The port 5 has the highest priority, and the others the lowest. -/
def highAndLow : Config :=
  ⟨fun Port => if Port = 5 then 0 else 15, fun Port => by split_ifs <;> decide⟩

/-- An event of each queue, one after the other, and a poll up to where a port is unlinked. -/
def twoServed : List (Action Unit) :=
  [.unmask 5, .unmask 6, .event () 5] ++ List.replicate 7 (.enqueue ()) ++ [.event () 6] ++
    List.replicate 7 (.enqueue ()) ++ [.poll] ++ List.replicate 4 (.run true)

/-- With an event of priority 0 and one of priority 15, the one of priority 15 is served first. -/
theorem not_served_of_two : ∃ s : State Unit, Reaches (step highAndLow) (Within highAndLow) init s ∧
    (∃ Old l, s.poll = .compare 15 6 Old l ∧ l.Ready.getLsbD 0 = true) ∧ ¬ Served highAndLow s := by
  have hrun : (guardedRun (step highAndLow) (Within highAndLow) (init : State Unit) twoServed).map
      (fun s => s.poll) = some (.compare 15 6 (setBit (setBit 0 31) 29) ⟨setBit (setBit 0 0) 15, false⟩) := by
    decide +kernel
  obtain ⟨s, hs, hpoll⟩ := Option.map_eq_some_iff.mp hrun
  refine ⟨s, reaches_of_guardedRun hs, ⟨_, _, hpoll, by decide⟩, fun hserved => ?_⟩
  have hle := (hserved.highest 15 _ (by rw [hpoll]; rfl)).2 0 (by decide)
  omega

end XenBus.Evtchn.Fifo
