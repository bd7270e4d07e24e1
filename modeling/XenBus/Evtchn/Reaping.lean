import XenBus.Evtchn.Pending

/-!
# Closed channels are reaped

`EvtchnClose` marks an active channel as closed and relies on its `EvtchnTrigger` for the rest: that
one queues the channel and the DPC, and the DPC reaps it. But `EvtchnTrigger` returns without a DPC if
`Pending` is set already, and an `EvtchnPoll` from the interrupt leaves a closed channel on the queue:
if the interrupt has queued the channel, no DPC ever sees it (`closed_leaked`).

`reaped_of_reaches`: in every run in which the close does not meet that, and in which nobody sets
`Pending` again between the clearing of it in `EvtchnFlush` and `EvtchnReap`, a closed channel on a
queue has a DPC that is still to examine it, and no closed channel is left when nothing is going on.
-/

namespace XenBus.Evtchn.Concurrent

open Transition Placement

variable {ι : Type} {p : Platform} {s t : State ι} {a : Agent ι} {pc pc' : Pc} {id Cpu : ℕ}

/-! ## On the way to a DPC -/

/-- The channel is not behind the poll in the queue. -/
def Poll.ahead (id : ℕ) : Poll → Prop
  | .walking rest | .removing _ rest | .clearing _ rest | .delivering _ rest => id ∈ rest
  | _ => True

/-- A DPC that has not examined the channel yet. -/
def Pc.ahead (id : ℕ) : Pc → Prop
  | .dpcLock _ | .flushLock _ => True
  | .polling _ _ _ poll => poll.ahead id
  | _ => False

/-- `EvtchnTrigger` on its way to `KeInsertQueueDpc`. -/
def Pc.queues (Cpu : ℕ) : Pc → Prop
  | .triggerRelease _ Cpu' true | .triggerDpc _ Cpu' => Cpu' = Cpu
  | _ => False

/-- `EvtchnClose` has marked the channel, and its `EvtchnTrigger` has yet to test `Pending`. -/
def Pc.closes (id : ℕ) : Pc → Prop
  | .triggerRead .close id' | .triggerLock .close id' _ | .triggerSet .close id' _ => id' = id
  | _ => False

/-- `EvtchnTrigger` has set `Pending`, and is about to queue the channel. -/
def Pc.inserts (id : ℕ) : Pc → Prop
  | .triggerInsert _ id' _ => id' = id
  | _ => False

/-- `EvtchnPoll` has found the channel open, on the queue of the processor. -/
def Pc.removes (Cpu id : ℕ) : Pc → Prop
  | .polling Cpu' _ _ (.removing id' _) => Cpu' = Cpu ∧ id' = id
  | _ => False

/-- The channels on the list of `EvtchnFlush`, and the one it is reaping. -/
def Pc.spliced : Pc → List ℕ
  | .polling _ _ flush _ | .polled _ _ flush => flush.getD []
  | .flushing _ List => List
  | .taken _ id List | .reaping _ id List => id :: List
  | _ => []

/-- The channel that `EvtchnFlush` is about to free. -/
def Pc.reaps : Pc → Option ℕ
  | .reaping _ id _ => some id
  | _ => none

/-- The DPC of the processor is queued, about to be queued, or has yet to examine the channel. -/
def Due (s : State ι) (Cpu id : ℕ) : Prop :=
  s.Dpc Cpu = true ∨ (∃ τ, (s.pc (.thread τ)).queues Cpu) ∨ (s.pc (.dpc Cpu)).ahead id

/-- A DPC is going to examine the channel, or has it on its list. -/
def OnItsWay (s : State ι) (id : ℕ) : Prop :=
  (∃ Cpu, id ∈ s.ctx.PendingList Cpu ∧ Due s Cpu id ∧ ∀ a, ¬ (s.pc a).removes Cpu id) ∨
    (∃ τ, (s.pc (.thread τ)).inserts id) ∨ ∃ Cpu, id ∈ (s.pc (.dpc Cpu)).spliced

/-- Nothing is going on. -/
def State.Quiescent (p : Platform) (s : State ι) : Prop :=
  (∀ Cpu < p.ProcessorCount,
      s.Dpc Cpu = false ∧ s.pc (.interrupt Cpu) = .idle ∧ s.pc (.dpc Cpu) = .idle) ∧
    (∀ τ, s.pc (.thread τ) = .idle) ∧ s.pc .late = .idle

instance [Fintype ι] (p : Platform) (s : State ι) : Decidable (s.Quiescent p) :=
  inferInstanceAs (Decidable (_ ∧ _))

/-- **What is promised of closed channels**: while one is on a queue, the DPC of its processor has
yet to examine it, or `EvtchnClose` has yet to see to that; and when nothing is going on, there are
none. -/
def Reaped (p : Platform) (s : State ι) : Prop :=
  (∀ id channel Cpu, s.ctx.Channels id = some channel → channel.Closed = true →
      id ∈ s.ctx.PendingList Cpu → Due s Cpu id ∨ ∃ τ, (s.pc (.thread τ)).closes id) ∧
    (s.Quiescent p → ∀ id channel, s.ctx.Channels id = some channel → channel.Closed = false)

/-- The steps that keep the promise, in a run without a suspend: nobody tests `Pending` of a channel
that `EvtchnFlush` is about to free, and if `EvtchnClose` finds `Pending` set, the channel is on its
way to a DPC. -/
def Heeded (p : Platform) (s : State ι) : Action ι → Prop
  | .early | .late => False
  | .run a _ =>
    (∀ id, (s.pc a).testing = some id →
        ∀ Cpu < p.ProcessorCount, (s.pc (.dpc Cpu)).reaps ≠ some id) ∧
      ∀ id Cpu channel, s.pc a = .triggerSet .close id Cpu → s.ctx.Channels id = some channel →
        channel.Pending = true → OnItsWay s id
  | _ => True

/-- The invariant. -/
structure Heading (p : Platform) (s : State ι) : Prop where
  sound : Sound p s
  late : s.pc .late = .idle ∧ s.captured = false
  closed : ∀ id channel, s.ctx.Channels id = some channel → channel.Closed = true →
    (∃ τ, (s.pc (.thread τ)).closes id) ∨ OnItsWay s id
  reaping : ∀ Cpu id channel, (s.pc (.dpc Cpu)).reaps = some id →
    s.ctx.Channels id = some channel → channel.Pending = false

/-! ## The invariant gives the promise -/

theorem Pc.inserts.holding (h : pc.inserts id) : id ∈ pc.holding := by
  cases pc with
  | triggerInsert caller id' Cpu => exact List.mem_singleton.mpr h.symm
  | _ => exact h.elim

theorem mem_spliced (h : id ∈ pc.spliced) : id ∈ pc.holding ∨ pc.reaps = some id := by
  cases pc with
  | polling Cpu lock flush poll => exact .inl (List.mem_append_right _ h)
  | polled Cpu lock flush => exact .inl h
  | flushing Cpu List => exact .inl h
  | taken Cpu id' List => exact .inl h
  | reaping Cpu id' List =>
    obtain rfl | h := List.mem_cons.mp h
    · exact .inr rfl
    · exact .inl h
  | _ => exact absurd h List.not_mem_nil

/-- The interrupt of a processor that does not exist is idle. -/
theorem fits_interrupt {Cpu : ℕ} (h : (Agent.interrupt Cpu : Agent ι).Fits p pc)
    (hCpu : ¬ Cpu < p.ProcessorCount) : pc = .idle := by
  cases pc with
  | idle => rfl
  | polling | polled => exact absurd h.2.1 hCpu
  | _ => exact h.elim

/-- The DPC of a processor that does not exist is idle. -/
theorem fits_dpc {Cpu : ℕ} (h : (Agent.dpc Cpu : Agent ι).Fits p pc)
    (hCpu : ¬ Cpu < p.ProcessorCount) : pc = .idle := by
  cases pc with
  | idle => rfl
  | polling | polled => exact absurd h.2.1 hCpu
  | dpcLock | flushLock | flushing | taken | reaping => exact absurd h.2 hCpu
  | _ => exact h.elim

/-- A DPC that runs is that of a processor that exists. -/
theorem Sound.dpc_idle (h : Sound p s) (hidle : ∀ Cpu < p.ProcessorCount, s.pc (.dpc Cpu) = .idle)
    (Cpu : ℕ) : s.pc (.dpc Cpu) = .idle := by
  by_cases hCpu : Cpu < p.ProcessorCount
  · exact hidle Cpu hCpu
  · exact fits_dpc (h.fits (.dpc Cpu)) hCpu

theorem Heading.reaped (h : Heading p s) : Reaped p s := by
  constructor
  · intro id channel Cpu hid hclosed hmem
    obtain hclosing | ⟨Cpu', hmem', hdue, -⟩ | ⟨τ, hτ⟩ | ⟨Cpu', hsp⟩ := h.closed id channel hid hclosed
    · exact .inr hclosing
    · obtain rfl := Sum.inl.inj (h.sound.tracked.apart (.inl Cpu) (.inl Cpu') id hmem hmem')
      exact .inl hdue
    · exact absurd (h.sound.tracked.apart (.inl Cpu) (.inr (.thread τ)) id hmem hτ.holding) (by simp)
    · obtain hhold | hreap := mem_spliced hsp
      · exact absurd (h.sound.tracked.apart (.inl Cpu) (.inr (.dpc Cpu')) id hmem hhold) (by simp)
      · -- `Pending` has been cleared, so the channel is on no queue
        have hpending := (h.sound.tracked.mark (.inl Cpu) id hmem).2 channel hid
        simp [h.reaping Cpu' id channel hreap hid] at hpending
  · rintro ⟨hcpus, hthreads, -⟩ id channel hid
    have hdpc := h.sound.dpc_idle fun Cpu hCpu => (hcpus Cpu hCpu).2.2
    by_contra hclosed
    rw [Bool.not_eq_false] at hclosed
    obtain ⟨τ, hτ⟩ | ⟨Cpu, -, hdue | ⟨τ, hτ⟩ | hahead, -⟩ | ⟨τ, hτ⟩ | ⟨Cpu, hsp⟩ :=
      h.closed id channel hid hclosed
    · rw [hthreads τ] at hτ
      exact hτ
    · exact absurd ((hcpus Cpu (h.sound.dpcs Cpu hdue)).1.symm.trans hdue) (by simp)
    · rw [hthreads τ] at hτ
      exact hτ
    · rw [hdpc Cpu] at hahead
      exact hahead
    · rw [hthreads τ] at hτ
      exact hτ
    · rw [hdpc Cpu] at hsp
      exact List.not_mem_nil hsp

/-! ## A channel stays on its way -/

section Access

variable [DecidableEq ι] {channel : Channel} (h : Sound p s) (hlate : s.pc .late = .idle)
  (hid : s.ctx.Channels id = some channel) (hclosed : channel.Closed = true)
  (hacc : Access p s a (s.pc a) t)
include hacc

/-- An access leaves the channel on its queue, or the DPC takes it. -/
theorem mem_queue_access (hfits : a.Fits p (s.pc a)) (hmem : id ∈ s.ctx.PendingList Cpu)
    (hkeep : ∀ b, ¬ (s.pc b).removes Cpu id) :
    id ∈ t.ctx.PendingList Cpu ∨ ∃ Cpu', id ∈ (t.pc (.dpc Cpu')).spliced := by
  have hother : ∀ {Cpu' id'}, (Cpu' = Cpu → id' ≠ id) →
      id ∈ (removeEntry s.ctx Cpu' id').PendingList Cpu := by
    intro Cpu' id' hne
    change id ∈ Function.update s.ctx.PendingList Cpu' _ Cpu
    by_cases hCpu : Cpu = Cpu'
    · subst hCpu
      rw [Function.update_self]
      exact (List.mem_erase_of_ne (hne rfl).symm).mpr hmem
    · rwa [Function.update_of_ne hCpu]
  have hinsert : ∀ {Cpu' id'}, id ∈ (insertTail s.ctx Cpu' id').PendingList Cpu := by
    intro Cpu' id'
    change id ∈ Function.update s.ctx.PendingList Cpu' _ Cpu
    by_cases hCpu : Cpu = Cpu'
    · subst hCpu
      rw [Function.update_self]
      exact List.mem_append_left _ hmem
    · rwa [Function.update_of_ne hCpu]
  generalize hpc : s.pc a = pc at hacc hfits
  cases hacc with
  | inserted => exact .inl hinsert
  | queued => exact .inl hinsert
  | @tookClosed Cpu' lock taken id' =>
    by_cases hne : id' = id
    · rcases a with _ | Cpu'' | _ | _
      case dpc =>
        refine .inr ⟨Cpu'', ?_⟩
        rw [State.goto_pc, Function.update_self]
        exact List.mem_append_right _ (List.mem_singleton.mpr hne.symm)
      all_goals simp [Agent.Fits] at hfits
    · exact .inl (hother fun _ => hne)
  | removed =>
    refine .inl (hother fun hCpu hne => hkeep a ?_)
    rw [hpc]
    exact ⟨hCpu, hne⟩
  | reaped =>
    left
    rwa [State.goto_ctx, State.put_ctx, evtchnReap_PendingList]
  | closeReaped =>
    left
    rwa [State.goto_ctx, State.put_ctx, evtchnReap_PendingList]
  | _ => exact .inl hmem

include hid hclosed

/-- No poll finds a closed channel open. -/
theorem removes_access (hkeep : ∀ b, ¬ (s.pc b).removes Cpu id) (b : Agent ι) : ¬ (t.pc b).removes Cpu id := by
  obtain ⟨⟨pc', hpc'⟩, -⟩ := frame_access hacc
  by_cases hb : b = a
  · subst hb
    generalize s.pc b = pc at hacc
    cases hacc with
    | foundOpen hid' hmem hopen =>
      rw [State.goto_pc, Function.update_self]
      rintro ⟨-, rfl⟩
      obtain rfl := Option.some.inj (hid.symm.trans hid')
      exact absurd (hclosed.symm.trans hopen) (by simp)
    | @released caller Cpu Queued =>
      rw [State.goto_pc, Function.update_self]
      cases Queued <;> exact fun hr => hr
    | _ =>
      rw [State.goto_pc, Function.update_self]
      exact fun hr => hr
  · rw [hpc', Function.update_of_ne hb]
    exact hkeep b

/-- A DPC that has yet to examine the channel comes to it, and takes it. -/
theorem ahead_access (hfits : (Agent.dpc Cpu : Agent ι).Fits p (s.pc a)) (ha : a = .dpc Cpu)
    (hmem : id ∈ s.ctx.PendingList Cpu) (hahead : (s.pc a).ahead id) :
    (t.pc a).ahead id ∨ id ∈ (t.pc a).spliced := by
  generalize hpc : s.pc a = pc at hacc hfits hahead
  cases hacc with
  | scanned =>
    obtain ⟨rfl, -⟩ := hfits
    left
    rw [State.goto_pc, Function.update_self]
    exact hmem
  | walked => exact absurd hahead List.not_mem_nil
  | skipped hnot =>
    obtain ⟨rfl, -⟩ := hfits
    left
    rw [State.goto_pc, Function.update_self]
    exact (List.mem_cons.mp hahead).resolve_left fun he => hnot (he ▸ hmem)
  | foundOpen hid' _ hopen =>
    left
    rw [State.goto_pc, Function.update_self]
    refine (List.mem_cons.mp hahead).resolve_left ?_
    rintro rfl
    obtain rfl := Option.some.inj (hid.symm.trans hid')
    exact absurd (hclosed.symm.trans hopen) (by simp)
  | leftClosed => exact absurd rfl hfits.2.2.2
  | tookClosed =>
    rw [State.goto_pc, Function.update_self]
    obtain rfl | hrest := List.mem_cons.mp hahead
    · exact .inr (List.mem_append_right _ (List.mem_singleton_self _))
    · exact .inl hrest
  | dpcLocked | flushLocked | unknown | lookedUp | wasSet | wasClear | inserted | sameCpu =>
    left
    rw [State.goto_pc, Function.update_self]
    trivial
  | otherCpu =>
    left
    rw [State.goto_pc, Function.update_self]
    trivial
  | removed | cleared | delivered =>
    left
    rw [State.goto_pc, Function.update_self]
    exact hahead
  | _ => exact hahead.elim

/-- The DPC stays due until it takes the channel. -/
theorem due_access (h : Sound p s) (hmem : id ∈ s.ctx.PendingList Cpu) (hdue : Due s Cpu id) :
    Due t Cpu id ∨ ∃ Cpu', id ∈ (t.pc (.dpc Cpu')).spliced := by
  obtain ⟨⟨pc', hpc'⟩, -⟩ := frame_access hacc
  obtain hqueued | ⟨τ, hτ⟩ | hahead := hdue
  · refine .inl (.inl ?_)
    generalize s.pc a = pc at hacc
    cases hacc with
    | @insertedDpc caller Cpu' =>
      change Function.update s.Dpc Cpu' true Cpu = true
      by_cases hCpu : Cpu = Cpu'
      · rw [hCpu, Function.update_self]
      · rwa [Function.update_of_ne hCpu]
    | _ => exact hqueued
  · left
    by_cases ha : .thread τ = a
    · subst ha
      generalize s.pc (.thread τ) = pc at hacc hτ
      cases hacc with
      | @released caller Cpu' Queued =>
        cases Queued with
        | false => exact hτ.elim
        | true =>
          refine .inr (.inl ⟨τ, ?_⟩)
          rw [State.goto_pc, Function.update_self]
          exact hτ
      | @insertedDpc caller Cpu' =>
        obtain rfl : Cpu' = Cpu := hτ
        exact .inl (Function.update_self ..)
      | _ => exact hτ.elim
    · refine .inr (.inl ⟨τ, ?_⟩)
      rwa [hpc', Function.update_of_ne ha]
  · by_cases ha : .dpc Cpu = a
    · subst ha
      obtain hahead | hsp := ahead_access hid hclosed hacc (h.fits _) rfl hmem hahead
      · exact .inl (.inr (.inr hahead))
      · exact .inr ⟨Cpu, hsp⟩
    · refine .inl (.inr (.inr ?_))
      rwa [hpc', Function.update_of_ne ha]

omit hid hclosed hacc in
/-- While `EvtchnTrigger` is in the queue of a processor, no poll is. -/
theorem insert_not_removes (h : Sound p s) (hlate : s.pc .late = .idle) {τ : ι} {caller : Caller}
    {id' : ℕ} (hpc : s.pc (.thread τ) = .triggerInsert caller id' Cpu) (b : Agent ι)
    (hb : ((s.goto (.thread τ) (.triggerRelease caller Cpu true)).pc b).removes Cpu id) : False := by
  by_cases hbτ : b = .thread τ
  · rw [State.goto_pc, hbτ, Function.update_self] at hb
    exact hb
  · rw [State.goto_pc, Function.update_of_ne hbτ] at hb
    have hlock : (s.pc (.thread τ)).lock p = some (interrupt p Cpu) := by rw [hpc]; rfl
    have hfits := h.fits b
    cases hpcb : s.pc b with
    | polling Cpu' lock flush poll =>
      rw [hpcb] at hb hfits
      cases poll with
      | removing id'' rest =>
        obtain ⟨rfl, -⟩ := hb
        -- the poll holds the lock of the processor as well
        refine hbτ (h.owned.unique ?_ hlock)
        rw [hpcb]
        rcases b with _ | _ | _ | _
        · exact congrArg some (hfits.1 ▸ hfits.2.2.1)
        · exact congrArg some (hfits.1 ▸ hfits.2.2.1)
        · exact hfits.elim
        · exact absurd (hpcb.symm.trans hlate) (by simp)
      | _ => exact hb
    | _ =>
      rw [hpcb] at hb
      exact hb

omit hid hclosed in
/-- What a DPC has taken, it keeps until it frees it. -/
theorem spliced_access (hfits : a.Fits p (s.pc a)) (hid : t.ctx.Channels id ≠ none)
    (hsp : id ∈ (s.pc (.dpc Cpu)).spliced) : id ∈ (t.pc (.dpc Cpu)).spliced := by
  obtain ⟨⟨pc', hpc'⟩, -⟩ := frame_access hacc
  by_cases ha : .dpc Cpu = a
  · subst ha
    generalize s.pc (.dpc Cpu) = pc at hacc hfits hsp
    cases hacc with
    | tookClosed =>
      rw [State.goto_pc, Function.update_self]
      exact List.mem_append_left _ hsp
    | @reaped Cpu' id' rest channel hid' =>
      rw [State.goto_pc, Function.update_self]
      refine (List.mem_cons.mp hsp).resolve_left ?_
      rintro rfl
      apply hid
      rw [State.goto_ctx, State.put_ctx, evtchnReap_Channels, Function.update_self]
    | flushed | dpcLocked | flushLocked | returned | again => exact absurd hsp List.not_mem_nil
    | scanned | unknown | lookedUp | otherCpu | sameCpu | wasSet | wasClear | inserted | walked
    | skipped | foundOpen | leftClosed | removed | cleared | delivered | spliced | took | tookClear =>
      rw [State.goto_pc, Function.update_self]
      exact hsp
    | _ => exact hfits.elim
  · rwa [hpc', Function.update_of_ne ha]

/-- **A closed channel stays on its way** until it is freed. -/
theorem onItsWay_access (h : Sound p s) (hlate : s.pc .late = .idle) (hid' : t.ctx.Channels id ≠ none)
    (hway : OnItsWay s id) : OnItsWay t id := by
  obtain ⟨Cpu, hmem, hdue, hkeep⟩ | ⟨τ, hτ⟩ | ⟨Cpu, hsp⟩ := hway
  · obtain hmem' | hsp := mem_queue_access hacc (h.fits a) hmem hkeep
    · obtain hdue' | hsp := due_access hid hclosed hacc h hmem hdue
      · exact .inl ⟨Cpu, hmem', hdue', removes_access hid hclosed hacc hkeep⟩
      · exact .inr (.inr hsp)
    · exact .inr (.inr hsp)
  · obtain ⟨⟨pc', hpc'⟩, -⟩ := frame_access hacc
    by_cases ha : .thread τ = a
    · subst ha
      generalize hpc : s.pc (.thread τ) = pc at hacc hτ
      cases hacc with
      | @queued caller id' Cpu =>
        obtain rfl : id' = id := hτ
        refine .inl ⟨Cpu, ?_, .inr (.inl ⟨τ, ?_⟩), fun b hb => ?_⟩
        · change id' ∈ Function.update s.ctx.PendingList Cpu _ Cpu
          rw [Function.update_self]
          exact List.mem_append_right _ (List.mem_singleton_self _)
        · rw [State.goto_pc, Function.update_self]
          rfl
        · exact insert_not_removes h hlate hpc b hb
      | _ => exact hτ.elim
    · refine .inr (.inl ⟨τ, ?_⟩)
      rwa [hpc', Function.update_of_ne ha]
  · exact .inr (.inr ⟨Cpu, spliced_access hacc (h.fits a) hid' hsp⟩)

end Access

/-! ## Each step keeps the invariant -/

section Step

variable [DecidableEq ι]

/-- `EvtchnClose` that has marked a channel comes to the test of `Pending`: it sets it, or the channel
is on its way. -/
theorem closes_access (hacc : Access p s a (s.pc a) t)
    (hheed : ∀ id Cpu channel, s.pc a = .triggerSet .close id Cpu → s.ctx.Channels id = some channel →
      channel.Pending = true → OnItsWay s id) {τ : ι} (hτ : (s.pc (.thread τ)).closes id) :
    (t.pc (.thread τ)).closes id ∨ (t.pc (.thread τ)).inserts id ∨ OnItsWay s id := by
  obtain ⟨⟨pc', hpc'⟩, -⟩ := frame_access hacc
  by_cases ha : .thread τ = a
  · subst ha
    generalize hpc : s.pc (.thread τ) = pc at hacc hτ
    cases hacc with
    | @readCpu caller =>
      cases caller with
      | client => exact hτ.elim
      | close =>
        left
        rw [State.goto_pc, Function.update_self]
        exact hτ
    | @locked caller =>
      cases caller with
      | client => exact hτ.elim
      | close =>
        left
        rw [State.goto_pc, Function.update_self]
        exact hτ
    | @already caller id' Cpu channel hid hpending =>
      cases caller with
      | client => exact hτ.elim
      | close =>
        obtain rfl : id' = id := hτ
        exact .inr (.inr (hheed id' Cpu channel hpc hid hpending))
    | @triggered caller =>
      cases caller with
      | client => exact hτ.elim
      | close =>
        refine .inr (.inl ?_)
        rw [State.goto_pc, Function.update_self]
        exact hτ
    | _ => exact hτ.elim
  · left
    rwa [hpc', Function.update_of_ne ha]

/-- A channel that a DPC is about to free: the DPC has just cleared its `Pending`, or was about to
free it before. -/
theorem reaps_access (hacc : Access p s a (s.pc a) t) (hreap : (t.pc (.dpc Cpu)).reaps = some id) :
    (s.pc (.dpc Cpu)).reaps = some id ∨
      ∀ channel, t.ctx.Channels id = some channel → channel.Pending = false := by
  obtain ⟨⟨pc', hpc'⟩, -⟩ := frame_access hacc
  by_cases ha : .dpc Cpu = a
  · subst ha
    generalize s.pc (.dpc Cpu) = pc at hacc
    cases hacc with
    | tookClear hid =>
      rw [State.goto_pc, Function.update_self] at hreap
      obtain rfl := Option.some.inj hreap
      right
      intro channel hchannel
      change Function.update _ _ _ _ = _ at hchannel
      rw [Function.update_self] at hchannel
      obtain rfl := Option.some.inj hchannel
      rfl
    | @released caller Cpu Queued =>
      rw [State.goto_pc, Function.update_self] at hreap
      cases Queued <;> cases hreap
    | _ =>
      rw [State.goto_pc, Function.update_self] at hreap
      cases hreap
  · rw [hpc', Function.update_of_ne ha] at hreap
    exact .inl hreap

theorem Heading.access (h : Heading p s) (hacc : Access p s a (s.pc a) t)
    (hheed : Heeded p s (.run a none)) : Heading p t := by
  obtain ⟨⟨pc', hpc'⟩, -, hnone, -, hcaptured⟩ := frame_access hacc
  have ha : .late ≠ a := by
    rintro rfl
    rw [h.late.1] at hacc
    cases hacc
  have hbefore : ∀ {id new}, t.ctx.Channels id = some new →
      ∃ channel, s.ctx.Channels id = some channel ∧ Follows (s.pc a) id channel new := by
    intro id new hnew
    cases hid : s.ctx.Channels id with
    | none => exact absurd (hnew.symm.trans (hnone id hid)) (Option.some_ne_none _)
    | some channel => exact ⟨channel, rfl, channels_access hacc hid hnew⟩
  refine ⟨h.sound.access hacc, ⟨?_, hcaptured.trans h.late.2⟩, fun id new hnew hclosed => ?_,
    fun Cpu id new hreap hnew => ?_⟩
  · rw [hpc', Function.update_of_ne ha]
    exact h.late.1
  · obtain ⟨channel, hid, hfollows⟩ := hbefore hnew
    obtain hclosed | hmark := hfollows.closed.mp hclosed
    · have hway : OnItsWay s id → OnItsWay t id :=
        onItsWay_access hid hclosed hacc h.sound h.late.1 (hnew ▸ Option.some_ne_none _)
      obtain ⟨τ, hτ⟩ | hs := h.closed id channel hid hclosed
      · obtain hτ' | hτ' | hs := closes_access hacc hheed.2 hτ
        · exact .inl ⟨τ, hτ'⟩
        · exact .inr (.inr (.inl ⟨τ, hτ'⟩))
        · exact .inr (hway hs)
      · exact .inr (hway hs)
    · -- `EvtchnClose` marks it now
      have hfits := h.sound.fits a
      rw [hmark] at hfits hacc
      rcases a with _ | _ | τ | _
      case thread =>
        refine .inl ⟨τ, ?_⟩
        cases hacc
        rw [State.goto_pc, Function.update_self]
        rfl
      all_goals exact hfits.elim
  · obtain hreap' | hclear := reaps_access hacc hreap
    · obtain ⟨channel, hid, hfollows⟩ := hbefore hnew
      by_contra hpending
      obtain hpending | htest := hfollows.pending (Bool.not_eq_false _ ▸ hpending)
      · simp [h.reaping Cpu id channel hreap' hid] at hpending
      · refine hheed.1 id htest Cpu ?_ hreap'
        have hfits := h.sound.fits (.dpc Cpu)
        cases hpc : s.pc (.dpc Cpu) <;> simp_all [Agent.Fits, Pc.reaps]
    · exact hclear new hnew

/-- A step that starts an agent. -/
theorem Heading.start (h : Heading p s) (hsound : Sound p t) (hctx : t.ctx = s.ctx)
    (hcaptured : t.captured = s.captured) (ha : a ≠ .late)
    (hpc : t.pc = Function.update s.pc a pc') (hidle : s.pc a = .idle)
    (hdpcs : ∀ Cpu, s.Dpc Cpu = true → t.Dpc Cpu = true ∨ a = .dpc Cpu ∧ pc' = .dpcLock Cpu)
    (hremoves : ∀ Cpu id, ¬ pc'.removes Cpu id) (hreaps : pc'.reaps = none) : Heading p t := by
  -- what another program counter says, it says of an agent that has not moved
  have hkeep : ∀ {P : Pc → Prop} {b}, P (s.pc b) → ¬ P .idle → P (t.pc b) := by
    intro P b hP hnot
    rw [hpc, Function.update_of_ne]
    · exact hP
    · rintro rfl
      exact hnot (hidle ▸ hP)
  have hdue : ∀ {Cpu id}, Due s Cpu id → Due t Cpu id := by
    intro Cpu id hdue
    obtain hqueued | ⟨τ, hτ⟩ | hahead := hdue
    · obtain hqueued | ⟨rfl, rfl⟩ := hdpcs Cpu hqueued
      · exact .inl hqueued
      · refine .inr (.inr ?_)
        rw [hpc, Function.update_self]
        trivial
    · exact .inr (.inl ⟨τ, hkeep (P := Pc.queues Cpu) hτ fun hf => hf⟩)
    · exact .inr (.inr (hkeep (P := Pc.ahead id) hahead fun hf => hf))
  refine ⟨hsound, ⟨?_, hcaptured.trans h.late.2⟩, fun id channel hid hclosed => ?_,
    fun Cpu id channel hreap hid => ?_⟩
  · rw [hpc, Function.update_of_ne ha.symm]
    exact h.late.1
  · rw [hctx] at hid
    obtain ⟨τ, hτ⟩ | ⟨Cpu, hmem, hd, hopen⟩ | ⟨τ, hτ⟩ | ⟨Cpu, hsp⟩ := h.closed id channel hid hclosed
    · exact .inl ⟨τ, hkeep (P := Pc.closes id) hτ fun hf => hf⟩
    · refine .inr (.inl ⟨Cpu, hctx ▸ hmem, hdue hd, fun b => ?_⟩)
      rw [hpc]
      by_cases hb : b = a
      · rw [hb, Function.update_self]
        exact hremoves Cpu id
      · rw [Function.update_of_ne hb]
        exact hopen b
    · exact .inr (.inr (.inl ⟨τ, hkeep (P := Pc.inserts id) hτ fun hf => hf⟩))
    · exact .inr (.inr (.inr ⟨Cpu, hkeep (P := fun pc => id ∈ pc.spliced) hsp List.not_mem_nil⟩))
  · rw [hctx] at hid
    by_cases hb : .dpc Cpu = a
    · rw [hpc, hb, Function.update_self, hreaps] at hreap
      cases hreap
    · rw [hpc, Function.update_of_ne hb] at hreap
      exact h.reaping Cpu id channel hreap hid

omit [DecidableEq ι] in
theorem Heading.opened (h : Heading p s) {args : Arguments} {answers : Answers}
    (hsound : Sound p (s.put (evtchnOpen p s.ctx args answers).2)) :
    Heading p (s.put (evtchnOpen p s.ctx args answers).2) := by
  obtain ⟨hlist, hch⟩ := evtchnOpen_cases (p := p) s.ctx args answers
  have hold : ∀ {id channel}, (evtchnOpen p s.ctx args answers).2.Channels id = some channel →
      s.ctx.Channels id = some channel ∨ channel.Pending = false ∧ channel.Closed = false := by
    intro id channel hid
    obtain ⟨hch, -⟩ | ⟨r, -, hch, -⟩ := hch
    · exact .inl (hch ▸ hid)
    · rw [hch] at hid
      by_cases hne : id = s.ctx.next
      · rw [hne, Function.update_self] at hid
        obtain rfl := Option.some.inj hid
        exact .inr ⟨rfl, rfl⟩
      · rw [Function.update_of_ne hne] at hid
        exact .inl hid
  refine ⟨hsound, h.late, fun id channel hid hclosed => ?_, fun Cpu id channel hreap hid => ?_⟩
  · obtain hid | ⟨-, hopen⟩ := hold hid
    · obtain hτ | ⟨Cpu, hmem, hrest⟩ | hrest := h.closed id channel hid hclosed
      · exact .inl hτ
      · refine .inr (.inl ⟨Cpu, ?_, hrest⟩)
        rwa [State.put_ctx, hlist]
      · exact .inr (.inr hrest)
    · exact absurd (hclosed.symm.trans hopen) (by simp)
  · obtain hid | ⟨hpending, -⟩ := hold hid
    · exact h.reaping Cpu id channel hreap hid
    · exact hpending

variable [Fintype ι] {act : Action ι}

theorem Heading.step (h : Heading p s) (hheed : Heeded p s act) (hs : step p s act = some t) :
    Heading p t := by
  have hsound := h.sound.step hs
  cases act with
  | opened args answers =>
    simp only [Concurrent.step] at hs
    split_ifs at hs
    obtain rfl := Option.some.inj hs
    exact h.opened hsound
  | call τ id call =>
    simp only [Concurrent.step] at hs
    split_ifs at hs with hcall
    cases call with
    | trigger =>
      obtain rfl := Option.some.inj hs
      exact h.start hsound rfl rfl (by simp) rfl hcall.2.1 (fun _ => .inl) (fun _ _ hr => hr) rfl
    | close =>
      obtain rfl := Option.some.inj hs
      exact h.start hsound rfl rfl (by simp) rfl hcall.2.1 (fun _ => .inl) (fun _ _ hr => hr) rfl
    | bind Cpu =>
      dsimp only at hs
      split_ifs at hs
      obtain rfl := Option.some.inj hs
      exact h.start hsound rfl rfl (by simp) rfl hcall.2.1 (fun _ => .inl) (fun _ _ hr => hr) rfl
  | upcall Cpu =>
    simp only [Concurrent.step] at hs
    split_ifs at hs with hidle
    obtain ⟨u, hu, rfl⟩ := Option.map_eq_some_iff.mp hs
    obtain ⟨-, rfl⟩ := acquire_eq_some hu
    exact h.start hsound rfl rfl (by simp) rfl hidle.2 (fun _ => .inl) (fun _ _ hr => hr) rfl
  | dispatch Cpu =>
    simp only [Concurrent.step] at hs
    split_ifs at hs with hdpc
    obtain rfl := Option.some.inj hs
    refine h.start hsound rfl rfl (by simp) rfl hdpc.2.2.2 (fun Cpu' hd => ?_) (fun _ _ hr => hr) rfl
    by_cases hne : Cpu' = Cpu
    · exact .inr ⟨by rw [hne], by rw [hne]⟩
    · left
      change Function.update s.Dpc Cpu false Cpu' = true
      rwa [Function.update_of_ne hne]
  | run a choice =>
    simp only [Concurrent.step] at hs
    split_ifs at hs
    exact h.access (access_of_runStep hs) hheed
  | early => exact hheed.elim
  | late => exact hheed.elim

omit [DecidableEq ι] [Fintype ι] in
theorem heading_init (Route : ℕ → Option ℕ) : Heading p (init Route : State ι) where
  sound := sound_init Route
  late := ⟨rfl, rfl⟩
  closed _ _ h := by cases h
  reaping _ _ _ _ h := by cases h

/-- The steps at which whoever tests `Pending` finds it clear, of a channel that is not being freed. -/
def calm (p : Platform) (s : State ι) : Action ι → Bool
  | .early | .late => false
  | .run a _ => (s.pc a).testing.all fun id =>
    (s.ctx.Channels id).all (fun channel => !channel.Pending) &&
      decide (∀ Cpu < p.ProcessorCount, (s.pc (.dpc Cpu)).reaps ≠ some id)
  | _ => true

omit [DecidableEq ι] [Fintype ι] in
theorem heeded_of_calm (h : calm p s act = true) : Heeded p s act := by
  cases act with
  | early => cases h
  | late => cases h
  | run a choice =>
    have hall : ∀ id, (s.pc a).testing = some id →
        (∀ channel, s.ctx.Channels id = some channel → channel.Pending = false) ∧
          ∀ Cpu < p.ProcessorCount, (s.pc (.dpc Cpu)).reaps ≠ some id := by
      intro id hid
      simpa [calm, hid, Option.all_eq_true] using h
    refine ⟨fun id hid => (hall id hid).2, fun id Cpu channel hpc hid hpending => ?_⟩
    have hclear := (hall id (by rw [hpc]; rfl)).1 channel hid
    exact absurd (hpending.symm.trans hclear) (by simp)
  | _ => trivial

/-- **Closed channels are reaped**, in every run whose steps all are heeded. -/
theorem reaped_of_reaches (Route : ℕ → Option ℕ)
    (h : Reaches (Concurrent.step p) (Heeded p) (init Route : State ι) s) : Reaped p s :=
  (h.invariant (P := Heading p) (heading_init Route) fun _ _ _ hs hG ht => hs.step hG ht).reaped

end Step

/-! ## A channel that is reaped, and one that is not -/

/-- Two processors, each with an interrupt of its own. -/
def twoCpus : Platform := ⟨2, fun _ => true, some⟩

/-- Accesses of an agent, in a row. -/
def runs (a : Agent ι) (n : ℕ) : List (Action ι) := List.replicate n (.run a none)

/-- A port is opened, as channel 0. -/
def openZero : Action ι := .opened (.unbound 0) ⟨true, some 5, true, true⟩

/-- The channel is closed, queued by `EvtchnTrigger` and reaped by the DPC. -/
def reapActions : List (Action (Fin 1)) :=
  [openZero, .call 0 0 .close] ++ runs (.thread 0) 9 ++ [.dispatch 0] ++ runs (.dpc 0) 10

theorem reaped_of_reaches_run : ∃ s : State (Fin 1), s.Quiescent twoCpus ∧ s.ctx.next = 1 ∧
    s.ctx.Channels 0 = none ∧ Reaped twoCpus s := by
  obtain ⟨s, hs, hp⟩ := (Option.any_eq_true (fun s : State (Fin 1) =>
    decide (s.Quiescent twoCpus ∧ s.ctx.next = 1 ∧ s.ctx.Channels 0 = none))
    (guardedRun (step twoCpus) (fun s act => calm twoCpus s act = true)
      (init fun _ => none) reapActions)).mp (by decide +kernel)
  obtain ⟨hquiet, hnext, hnone⟩ := of_decide_eq_true hp
  exact ⟨s, hquiet, hnext, hnone, reaped_of_reaches (fun _ => none)
    ((reaches_of_guardedRun hs).mono fun _ _ => heeded_of_calm)⟩

/-- The interrupt has queued the channel when it is closed, and leaves it on the queue as it is closed;
`EvtchnTrigger` finds `Pending` set. -/
def leakActions : List (Action (Fin 1)) :=
  [openZero, .upcall 0, .run (.interrupt 0) (some 0), .run (.interrupt 0) (some 5)] ++
    runs (.interrupt 0) 3 ++ [.call 0 0 .close] ++ runs (.thread 0) 4 ++ runs (.interrupt 0) 4 ++
    runs (.thread 0) 3

/-- The steps that are no suspend. -/
def Action.awake : Action ι → Bool
  | .early | .late => false
  | _ => true

/-- **A closed channel is left**, on a queue, when nothing is going on any more. -/
theorem closed_leaked : ∃ s, Reaches (step twoCpus) (fun _ act => act.awake = true)
    (init fun _ => none : State (Fin 1)) s ∧ s.Quiescent twoCpus ∧ ¬ Reaped twoCpus s := by
  obtain ⟨s, hs, hquiet, hclosed⟩ : ∃ s ∈ guardedRun (step twoCpus) (fun _ act => act.awake = true)
      (init fun _ => none : State (Fin 1)) leakActions,
      s.Quiescent twoCpus ∧ ∃ channel ∈ s.ctx.Channels 0, channel.Closed = true := by
    have hrun := (Option.any_eq_true (fun s : State (Fin 1) => decide (s.Quiescent twoCpus) &&
      (s.ctx.Channels 0).any (·.Closed)) (guardedRun (step twoCpus) (fun _ act => act.awake = true)
      (init fun _ => none) leakActions)).mp (by decide +kernel)
    obtain ⟨s, hs, hp⟩ := hrun
    rw [Bool.and_eq_true, decide_eq_true_eq, Option.any_eq_true] at hp
    exact ⟨s, hs, hp⟩
  refine ⟨s, reaches_of_guardedRun hs, hquiet, fun hreaped => ?_⟩
  obtain ⟨channel, hid, hclosed⟩ := hclosed
  exact absurd ((hreaped.2 hquiet 0 channel hid).symm.trans hclosed) (by simp)

end XenBus.Evtchn.Concurrent
