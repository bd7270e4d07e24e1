import XenBus.Evtchn.Freeing
import XenBus.Evtchn.Queueing

/-!
# Ports after a suspend

The early callback of a suspend makes every channel inactive and takes it out of the table, but leaves
it on the queue of its processor, and the late callback releases the ABI: the FIFO one frees its pages
of event words, and gets new ones as ports are enabled. An `EvtchnPoll` that finds such a channel on
the queue masks and acks a port that is not the channel's any more, and has no event word, and makes
the callback. So does an `EvtchnTrigger` of the channel after the suspend, and an `EvtchnPoll` between
the two stores of an `EvtchnClose` (`stale_touched`).

`onlyActive_of_reaches`: in every run without these, `EvtchnPoll` calls the ABI and the callback for
channels that are active, and each port that it asks for has an event word.
-/

namespace XenBus.Evtchn.Concurrent

open Transition Placement

variable {ι : Type} {p : Platform} {s t : State ι} {a : Agent ι} {pc pc' : Pc} {id Cpu : ℕ}

/-! ## The ABI -/

/-- The event words on a page: `PAGE_SIZE / sizeof (event_word_t)`. -/
def EVENT_WORDS_PER_PAGE : ℕ := 4096 / 4

/-- `Context->EvtchnAbi`: which one it is, with the `EventPageCount` of the FIFO one. -/
inductive Abi
  | twoLevel
  | fifo (EventPageCount : ℕ)
  deriving DecidableEq

namespace Abi

/-- The assertion of `EvtchnFifoEventWord`, which is behind `PortMask`, `PortAck` and `PortDisable`. -/
def HasEventWord (Port : ℕ) : Abi → Prop
  | .twoLevel => True
  | .fifo EventPageCount => Port / EVENT_WORDS_PER_PAGE < EventPageCount

instance (Port : ℕ) : DecidablePred (HasEventWord Port)
  | .twoLevel => inferInstanceAs (Decidable True)
  | .fifo _ => inferInstanceAs (Decidable (_ < _))

/-- `PortEnable`, and whether it succeeds. `expanded` is the outcome of the allocations and hypercalls
in `EvtchnFifoExpand`. -/
def portEnable (Port : ℕ) (expanded : Bool) : Abi → Bool × Abi
  | .twoLevel => (true, .twoLevel)
  | .fifo EventPageCount =>
    if Port / EVENT_WORDS_PER_PAGE < EventPageCount then (true, .fifo EventPageCount)
    else if expanded then (true, .fifo (Port / EVENT_WORDS_PER_PAGE + 1))
    else (false, .fifo EventPageCount)

/-- `EvtchnAbiAcquire`. `fifo` says that the driver uses the FIFO ABI and `EvtchnFifoAcquire` succeeds;
that has no pages yet. -/
def acquire (fifo : Bool) : Abi := if fifo then .fifo 0 else .twoLevel

end Abi

/-- The state of the driver, with its ABI. -/
structure AbiState (ι : Type) where
  state : State ι
  EvtchnAbi : Abi

/-- What an `EvtchnOpen` gets from `PortEnable`, and the ABI after it. -/
def enableOpened (p : Platform) (ctx : Context) (EvtchnAbi : Abi) (args : Arguments)
    (answers : Answers) : Bool × Abi :=
  match openPort p ctx args answers.port with
  | some (LocalPort, _) =>
    if answers.allocate then EvtchnAbi.portEnable LocalPort answers.portEnable
    else (answers.portEnable, EvtchnAbi)
  | none => (answers.portEnable, EvtchnAbi)

/-- The ABI after a step. The late callback releases it, which frees the pages, and acquires it again,
before it makes its first poll. -/
def abiAfter (p : Platform) (s : AbiState ι) (fifo : Bool) : Action ι → Abi
  | .opened args answers => (enableOpened p s.state.ctx s.EvtchnAbi args answers).2
  | .late => if s.state.polls = latePolls p then .acquire fifo else s.EvtchnAbi
  | _ => s.EvtchnAbi

/-- An action, with the answer of the ABI that the driver has. -/
def answered (p : Platform) (s : AbiState ι) : Action ι → Action ι
  | .opened args answers =>
    .opened args { answers with portEnable := (enableOpened p s.state.ctx s.EvtchnAbi args answers).1 }
  | act => act

/-- One step of the driver with its ABI. The `Bool` is the outcome of `EvtchnAbiAcquire`. -/
def abiStep [DecidableEq ι] [Fintype ι] (p : Platform) (s : AbiState ι) (act : Action ι × Bool) :
    Option (AbiState ι) :=
  (step p s.state (answered p s act.1)).map fun t => ⟨t, abiAfter p s act.2 act.1⟩

/-- Before any channel is opened, with the ABI that the driver has acquired. -/
def abiInit (Route : ℕ → Option ℕ) (fifo : Bool) : AbiState ι := ⟨init Route, .acquire fifo⟩

/-! ## What is promised -/

/-- The channel that `EvtchnPoll` has found open on the queue, until it has made the callback. -/
def Pc.delivers : Pc → Option ℕ
  | .polling _ _ _ (.removing id _) | .polling _ _ _ (.clearing id _)
  | .polling _ _ _ (.delivering id _) => some id
  | _ => none

/-- **Only active channels are touched**: when `EvtchnPoll` calls `PortMask`, `PortAck` and the
callback of a channel, it is active, and its port has an event word; and so has the port that
`EvtchnClose` calls `PortDisable` for. -/
def OnlyActive (s : AbiState ι) : Prop :=
  (∀ a Cpu lock flush id rest, s.state.pc a = .polling Cpu lock flush (.delivering id rest) →
      ∃ channel, s.state.ctx.Channels id = some channel ∧ channel.Active = true ∧
        s.EvtchnAbi.HasEventWord channel.LocalPort) ∧
    ∀ τ id channel, s.state.pc (.thread τ) = .closeTable id →
      s.state.ctx.Channels id = some channel → s.EvtchnAbi.HasEventWord channel.LocalPort

/-- The steps that keep the promise: when the machine is suspended, no open channel is on a queue;
`EvtchnTrigger` does not queue an open channel that a suspend has made inactive; `EvtchnPoll` does not
test `Closed` of a channel while `EvtchnClose` is between its stores to `Active` and `Closed`; and
`EvtchnClose` does not make a channel inactive that a poll has found open, until that has made the
callback. -/
def Settled (p : Platform) (s : State ι) : Action ι → Prop
  | .early => ∀ Cpu < p.ProcessorCount, ∀ id ∈ s.ctx.PendingList Cpu, ∀ channel,
      s.ctx.Channels id = some channel → channel.Closed = true
  | .run a _ =>
    (∀ caller id Cpu channel, s.pc a = .triggerSet caller id Cpu → s.ctx.Channels id = some channel →
        channel.Pending = false → Engaged s id channel) ∧
      (∀ Cpu lock flush id rest, s.pc a = .polling Cpu lock flush (.walking (id :: rest)) →
        id ∈ s.ctx.PendingList Cpu → ∀ τ, (s.pc (.thread τ)).shuts ≠ some id) ∧
      ∀ id channel, s.pc a = .closeTest id → s.ctx.Channels id = some channel →
        channel.Active = true → ∀ Cpu < p.ProcessorCount,
          (s.pc (.interrupt Cpu)).delivers ≠ some id ∧ (s.pc (.dpc Cpu)).delivers ≠ some id
  | _ => True

/-! ## The invariant -/

/-- The invariant. -/
structure Lively (p : Platform) (s : State ι) : Prop where
  sound : Sound p s
  fresh : ∀ a id, (s.pc a).closing = some id ∨ id ∈ (s.pc a).spliced → id < s.ctx.next
  /-- A queue with a channel is that of a processor that exists. -/
  aims : ∀ a Cpu id, (s.pc a).aims = some (Cpu, id) → Cpu < p.ProcessorCount
  queue : ∀ Cpu id, id ∈ s.ctx.PendingList Cpu → Cpu < p.ProcessorCount
  late : s.pc .late ≠ .idle → s.captured = true
  /-- During a suspend, no thread is in `EvtchnClose`, and no channel is active. -/
  captured : s.captured = true → (∀ τ, (s.pc (.thread τ)).belowDispatch = true) ∧
    ∀ id channel, s.ctx.Channels id = some channel → channel.Active = false
  closed : ∀ id channel, s.ctx.Channels id = some channel → channel.Closed = true →
    channel.Active = false
  /-- A channel that `EvtchnClose` is past its test of `Active` with is inactive. -/
  inactive : ∀ a id channel, (s.pc a).shuts = some id ∨ (s.pc a).leaves = some id →
    s.ctx.Channels id = some channel → channel.Active = false
  spliced : ∀ a id channel, id ∈ (s.pc a).spliced → s.ctx.Channels id = some channel →
    channel.Closed = true
  table : ∀ port id, (port, id) ∈ s.ctx.Table → id < s.ctx.next ∧
    ∀ channel, s.ctx.Channels id = some channel → channel.LocalPort = port ∧
      (channel.Active = true ∨ ∃ τ, s.pc (.thread τ) = .closeTable id)
  keys : (s.ctx.Table.map Prod.fst).Nodup
  /-- What is on a queue, or in the charge of an agent, is engaged. -/
  placed : ∀ k id channel, id ∈ place s k → s.ctx.Channels id = some channel → Engaged s id channel
  referred : ∀ a Cpu id channel, (s.pc a).refs = some (Cpu, id) → s.ctx.Channels id = some channel →
    Engaged s id channel
  delivers : ∀ a id, (s.pc a).delivers = some id →
    ∃ channel, s.ctx.Channels id = some channel ∧ channel.Active = true

section Access

variable [DecidableEq ι]

/-- What an agent has charge of, it had before, or took off a queue, or has just set `Pending` of. -/
theorem holding_access (hacc : Access p s a pc t) (h : id ∈ (t.pc a).holding) :
    id ∈ pc.holding ∨ (∃ Cpu, id ∈ s.ctx.PendingList Cpu) ∨ pc.testing = some id ∧
      ∃ channel, s.ctx.Channels id = some channel ∧ channel.Pending = false := by
  cases hacc with
  | wasClear hid hpending =>
    rw [State.goto_pc, Function.update_self] at h
    obtain rfl | h := List.mem_cons.mp h
    · exact .inr (.inr ⟨rfl, _, hid, hpending⟩)
    · exact .inl h
  | triggered hid hpending =>
    rw [State.goto_pc, Function.update_self] at h
    obtain rfl := List.mem_singleton.mp h
    exact .inr (.inr ⟨rfl, _, hid, hpending⟩)
  | removed hid hmem =>
    rw [State.goto_pc, Function.update_self] at h
    obtain rfl | h := List.mem_cons.mp h
    · exact .inr (.inl ⟨_, hmem⟩)
    · exact .inl h
  | @tookClosed Cpu lock taken id' rest channel hid hmem =>
    rw [State.goto_pc, Function.update_self] at h
    change id ∈ taken ++ [id'] at h
    obtain h | h := List.mem_append.mp h
    · exact .inl h
    · obtain rfl := List.mem_singleton.mp h
      exact .inr (.inl ⟨_, hmem⟩)
  | inserted | cleared | tookClear =>
    rw [State.goto_pc, Function.update_self] at h
    exact .inl (List.mem_cons_of_mem _ h)
  | @released _ _ Queued =>
    rw [State.goto_pc, Function.update_self] at h
    cases Queued <;> exact absurd h List.not_mem_nil
  | queued | flushLocked =>
    rw [State.goto_pc, Function.update_self] at h
    exact absurd h List.not_mem_nil
  | _ =>
    rw [State.goto_pc, Function.update_self] at h
    exact .inl h

/-- Where a channel in a place comes from: another place, or `Pending` has just been set. -/
theorem place_access (hacc : Access p s a (s.pc a) t) {k : ℕ ⊕ Agent ι} (h : id ∈ place t k) :
    (∃ k', id ∈ place s k') ∨ (s.pc a).testing = some id ∧
      ∃ channel, s.ctx.Channels id = some channel ∧ channel.Pending = false := by
  obtain ⟨⟨pc', hpc'⟩, -⟩ := frame_access hacc
  rcases k with Cpu | b
  · obtain hmem | ⟨-, hmem⟩ := mem_queue_of_access hacc h
    · exact .inl ⟨.inl Cpu, hmem⟩
    · exact .inl ⟨.inr a, hmem⟩
  · by_cases hb : b = a
    · subst hb
      obtain hmem | ⟨Cpu, hmem⟩ | htesting := holding_access hacc h
      · exact .inl ⟨.inr b, hmem⟩
      · exact .inl ⟨.inl Cpu, hmem⟩
      · exact .inr htesting
    · rw [place_other hpc' hb] at h
      exact .inl ⟨.inr b, h⟩

/-- A poll comes to deliver a channel that it has found open on the queue. -/
theorem delivers_access (hacc : Access p s a pc t) (h : (t.pc a).delivers = some id) :
    pc.delivers = some id ∨ ∃ Cpu lock flush rest channel,
      pc = .polling Cpu lock flush (.walking (id :: rest)) ∧ id ∈ s.ctx.PendingList Cpu ∧
        s.ctx.Channels id = some channel ∧ channel.Closed = false := by
  cases hacc with
  | foundOpen hid hmem hopen =>
    rw [State.goto_pc, Function.update_self] at h
    obtain rfl := Option.some.inj h
    exact .inr ⟨_, _, _, _, _, rfl, hmem, hid, hopen⟩
  | removed | cleared =>
    rw [State.goto_pc, Function.update_self] at h
    exact .inl h
  | @released _ _ Queued =>
    rw [State.goto_pc, Function.update_self] at h
    cases Queued <;> cases h
  | _ =>
    rw [State.goto_pc, Function.update_self] at h
    cases h

end Access

/-! ## Each access keeps the invariant -/

section Kept

variable [DecidableEq ι] {new channel : Channel} (h : Lively p s) (hacc : Access p s a (s.pc a) t)
include h hacc

/-- An active channel is not freed. -/
theorem Lively.not_freed (hid : s.ctx.Channels id = some channel) (hactive : channel.Active = true) :
    ∃ new, t.ctx.Channels id = some new := by
  refine Option.ne_none_iff_exists'.mp fun hfree => ?_
  have hinactive : channel.Active = false := by
    obtain hreaps | hleaves := free_access hacc hid hfree
    · exact h.closed id channel hid (h.spliced a id channel (spliced_of_reaps hreaps) hid)
    · exact h.inactive a id channel (.inr hleaves) hid
  exact absurd (hactive.symm.trans hinactive) (by simp)

/-- What is found in a place, or in the table, is engaged after the access as well. -/
theorem Lively.placed_access (hG : Settled p s (.run a none)) {k : ℕ ⊕ Agent ι} (hmem : id ∈ place t k)
    (hnew : t.ctx.Channels id = some new) : Engaged t id new := by
  obtain ⟨channel, hid, -⟩ := before_access hacc hnew
  refine h.sound.engaged_access hacc hid hnew ?_
  obtain ⟨k', hmem⟩ | ⟨htesting, c, hc, hpending⟩ := place_access hacc hmem
  · exact h.placed k' id channel hmem hid
  · obtain rfl := Option.some.inj (hid.symm.trans hc)
    cases hpc : s.pc a with
    | polling Cpu lock flush poll =>
      cases poll with
      | matched id' =>
        obtain rfl : id' = id := by simpa [hpc, Pc.testing] using htesting
        exact h.referred a Cpu id' channel (by rw [hpc]; rfl) hid
      | _ => simp [hpc, Pc.testing] at htesting
    | triggerSet caller id' Cpu =>
      obtain rfl : id' = id := by simpa [hpc, Pc.testing] using htesting
      exact hG.1 caller id' Cpu channel hpc hid hpending
    | _ => simp [hpc, Pc.testing] at htesting

theorem Lively.referred_access {b : Agent ι} (hb : (t.pc b).refs = some (Cpu, id))
    (hnew : t.ctx.Channels id = some new) : Engaged t id new := by
  obtain ⟨channel, hid, -⟩ := before_access hacc hnew
  refine h.sound.engaged_access hacc hid hnew ?_
  obtain hrefs | ⟨⟨port, hmem⟩, -⟩ := refs_before hacc hb
  · exact h.referred b Cpu id channel hrefs hid
  · obtain ⟨-, hactive | ⟨τ, hτ⟩⟩ := (h.table port id hmem).2 channel hid
    · exact .inl hactive
    · exact .inr (.inr ⟨τ, by rw [hτ]; rfl⟩)

omit [DecidableEq ι] hacc in
/-- No poll has a channel that is active, and about to be closed. -/
theorem Lively.not_delivers (hG : Settled p s (.run a none)) (hheld : s.captured = true → a.held = false)
    (htest : s.pc a = .closeTest id) (hid : s.ctx.Channels id = some channel)
    (hactive : channel.Active = true) (b : Agent ι) : (s.pc b).delivers ≠ some id := by
  have hpolls := hG.2.2 id channel htest hid hactive
  have hfits := h.sound.fits b
  intro hdelivers
  rcases b with Cpu | Cpu | τ | _
  · by_cases hCpu : Cpu < p.ProcessorCount
    · exact (hpolls Cpu hCpu).1 hdelivers
    · rw [fits_interrupt hfits hCpu] at hdelivers
      cases hdelivers
  · by_cases hCpu : Cpu < p.ProcessorCount
    · exact (hpolls Cpu hCpu).2 hdelivers
    · rw [fits_dpc hfits hCpu] at hdelivers
      cases hdelivers
  · generalize s.pc (.thread τ) = pc at hfits hdelivers
    cases pc with
    | polling => exact hfits
    | _ => cases hdelivers
  · -- the late callback polls while the threads are captured
    have hcaptured := h.late fun hidle => by simp [hidle, Pc.delivers] at hdelivers
    have hclosing : (s.pc a).closing = some id := by
      rw [htest]
      rfl
    obtain ⟨τ, rfl⟩ := h.sound.thread_of_closing hclosing
    exact absurd (hheld hcaptured) (by simp [Agent.held])

/-- The channel that a poll delivers stays active. -/
theorem Lively.delivers_access (hG : Settled p s (.run a none))
    (hheld : s.captured = true → a.held = false) {b : Agent ι} (hb : (t.pc b).delivers = some id) :
    ∃ new, t.ctx.Channels id = some new ∧ new.Active = true := by
  obtain ⟨⟨pc', hpc'⟩, -⟩ := frame_access hacc
  have hbefore : ∃ channel, s.ctx.Channels id = some channel ∧ channel.Active = true ∧
      s.pc a ≠ .closeTest id := by
    have hkept : (s.pc b).delivers = some id → ∃ channel, s.ctx.Channels id = some channel ∧
        channel.Active = true ∧ s.pc a ≠ .closeTest id := by
      intro hdelivers
      obtain ⟨channel, hid, hactive⟩ := h.delivers b id hdelivers
      exact ⟨channel, hid, hactive, fun htest =>
        h.not_delivers hG hheld htest hid hactive b hdelivers⟩
    by_cases hba : b = a
    · subst hba
      obtain hdelivers | ⟨Cpu, lock, flush, rest, channel, hpc, hmem, hid, hopen⟩ :=
        Concurrent.delivers_access hacc hb
      · exact hkept hdelivers
      · refine ⟨channel, hid, ?_, by rw [hpc]; exact Pc.noConfusion⟩
        obtain hactive | hclosed | ⟨τ, hτ⟩ := h.placed (.inl Cpu) id channel hmem hid
        · exact hactive
        · exact absurd (hclosed.symm.trans hopen) (by simp)
        · exact absurd hτ (hG.2.1 Cpu lock flush id rest hpc hmem τ)
    · rw [hpc', Function.update_of_ne hba] at hb
      exact hkept hb
  obtain ⟨channel, hid, hactive, htest⟩ := hbefore
  obtain ⟨new, hnew⟩ := h.not_freed hacc hid hactive
  exact ⟨new, hnew, (channels_access hacc hid hnew).active.mpr ⟨hactive, htest⟩⟩

theorem Lively.table_access {port : ℕ} (hmem : (port, id) ∈ t.ctx.Table) : id < t.ctx.next ∧
    ∀ new, t.ctx.Channels id = some new → new.LocalPort = port ∧
      (new.Active = true ∨ ∃ τ, t.pc (.thread τ) = .closeTable id) := by
  obtain ⟨hmem, hnot⟩ := mem_table_access hacc h.keys
    (fun channel hmem hid => ((h.table port id hmem).2 channel hid).1) hmem
  obtain ⟨hlt, hentry⟩ := h.table port id hmem
  obtain ⟨⟨pc', hpc'⟩, hnext, -⟩ := frame_access hacc
  refine ⟨hnext ▸ hlt, fun new hnew => ?_⟩
  obtain ⟨channel, hid, hfollows⟩ := before_access hacc hnew
  obtain ⟨hport, hactive | ⟨τ, hτ⟩⟩ := hentry channel hid
  · exact ⟨hfollows.port.trans hport, h.sound.active_access hacc hid hnew hactive⟩
  · refine ⟨hfollows.port.trans hport, .inr ⟨τ, ?_⟩⟩
    rw [hpc', Function.update_of_ne]
    · exact hτ
    · rintro rfl
      exact hnot channel hid hτ

theorem Lively.inactive_access {b : Agent ι} (hb : (t.pc b).shuts = some id ∨ (t.pc b).leaves = some id)
    (hnew : t.ctx.Channels id = some new) : new.Active = false := by
  obtain ⟨channel, hid, hfollows⟩ := before_access hacc hnew
  obtain ⟨⟨pc', hpc'⟩, -⟩ := frame_access hacc
  by_cases hba : b = a
  · subst hba
    obtain hshuts | hleaves := hb
    · obtain hshuts | hinactive := shuts_of_access hacc hshuts
      · exact hfollows.inactive (h.inactive b id channel (.inl hshuts) hid)
      · exact hinactive new hnew
    · obtain ⟨-, hleaves | ⟨-, c, hc, hinactive⟩⟩ := leaves_access hacc hleaves
      · exact hfollows.inactive (h.inactive b id channel (.inr hleaves) hid)
      · obtain rfl := Option.some.inj (hid.symm.trans hc)
        exact hfollows.inactive hinactive
  · rw [hpc', Function.update_of_ne hba] at hb
    exact hfollows.inactive (h.inactive b id channel hb hid)

omit h in
/-- What an agent has on the list of a flush after an access, it had before, or it took it off a queue,
closed. -/
theorem spliced_before {b : Agent ι} (hb : id ∈ (t.pc b).spliced) :
    id ∈ (s.pc b).spliced ∨ ∃ channel, s.ctx.Channels id = some channel ∧ channel.Closed = true := by
  obtain ⟨⟨pc', hpc'⟩, -⟩ := frame_access hacc
  by_cases hba : b = a
  · subst hba
    obtain hsp | ⟨_, _, _, _, channel, -, -, hid, hclosed⟩ := spliced_of_access hacc hb
    · exact .inl hsp
    · exact .inr ⟨channel, hid, hclosed⟩
  · rw [hpc', Function.update_of_ne hba] at hb
    exact .inl hb

/-- **Each access keeps the invariant.** -/
theorem Lively.access (hG : Settled p s (.run a none)) (hheld : s.captured = true → a.held = false) :
    Lively p t := by
  obtain ⟨⟨pc', hpc'⟩, hnext, -, -, hcaptured⟩ := frame_access hacc
  have hother : ∀ {b}, b ≠ a → t.pc b = s.pc b := fun hb => by rw [hpc', Function.update_of_ne hb]
  refine ⟨h.sound.access hacc, fun b id hb => ?_, fun b Cpu id hb => ?_, fun Cpu id hmem => ?_,
    fun hlate => ?_, fun hc => ?_, fun id new hnew hclosed => ?_, fun _ _ _ => h.inactive_access hacc,
    fun b id new hb hnew => ?_, fun _ _ => h.table_access hacc, keys_access hacc h.keys,
    fun _ _ _ => h.placed_access hacc hG, fun _ _ _ _ => h.referred_access hacc,
    fun _ _ => h.delivers_access hacc hG hheld⟩
  · rw [hnext]
    obtain hb | hb := hb
    · exact h.fresh b id (.inl (closing_before hacc hb))
    · obtain hb | ⟨channel, hid, -⟩ := spliced_before hacc hb
      · exact h.fresh b id (.inr hb)
      · exact h.sound.fresh id channel hid
  · by_cases hba : b = a
    · subst hba
      obtain haims | ⟨channel, hid, rfl⟩ := aims_access hacc hb
      · exact h.aims b Cpu id haims
      · exact h.sound.range id channel hid
    · exact h.aims b Cpu id (hother hba ▸ hb)
  · obtain hmem | ⟨haims, -⟩ := mem_queue_of_access hacc hmem
    · exact h.queue Cpu id hmem
    · exact h.aims a Cpu id haims
  · rw [hcaptured]
    by_cases ha : a = .late
    · subst ha
      apply h.late
      intro hidle
      rw [hidle] at hacc
      cases hacc
    · rw [hother (Ne.symm ha)] at hlate
      exact h.late hlate
  · rw [hcaptured] at hc
    obtain ⟨hthreads, hinactive⟩ := h.captured hc
    have hnot := hheld hc
    refine ⟨fun τ => ?_, fun id new hnew => ?_⟩
    · rw [hother, hthreads]
      rintro rfl
      cases hnot
    · obtain ⟨channel, hid, hfollows⟩ := before_access hacc hnew
      exact hfollows.inactive (hinactive id channel hid)
  · obtain ⟨channel, hid, hfollows⟩ := before_access hacc hnew
    obtain hclosed | hmark := hfollows.closed.mp hclosed
    · exact hfollows.inactive (h.closed id channel hid hclosed)
    · exact hfollows.inactive (h.inactive a id channel (.inl (by rw [hmark]; rfl)) hid)
  · obtain ⟨channel, hid, hfollows⟩ := before_access hacc hnew
    refine hfollows.closed.mpr (.inl ?_)
    obtain hb | ⟨c, hc, hclosed⟩ := spliced_before hacc hb
    · exact h.spliced b id channel hb hid
    · obtain rfl := Option.some.inj (hid.symm.trans hc)
      exact hclosed

end Kept

/-! ## Every other step keeps the invariant -/

theorem begins_delivers (h : pc.begins = true) : pc.delivers = none := by
  cases pc with
  | triggerRead | closeTest | bindLock | dpcLock => rfl
  | polled Cpu lock flush =>
    cases flush with
    | none => rfl
    | some List => cases h
  | _ => cases h

section Start

variable [DecidableEq ι] {act : Action ι} (hstart : Start s act a pc' t)
include hstart

/-- What another program counter says, it says of an agent that has not moved. -/
theorem Start.keep {P : Pc → Prop} {b : Agent ι} (hb : P (s.pc b)) (hnot : ¬ P .idle) : P (t.pc b) := by
  rw [hstart.pc, Function.update_of_ne]
  · exact hb
  · rintro rfl
    exact hnot (hstart.idle ▸ hb)

/-- What does not hold of the agent that has started, it says of one that has not moved. -/
theorem Start.back {P : Pc → Prop} {b : Agent ι} (hb : P (t.pc b)) (hnot : ¬ P pc') : P (s.pc b) := by
  rw [hstart.pc] at hb
  rwa [Function.update_of_ne] at hb
  rintro rfl
  rw [Function.update_self] at hb
  exact hnot hb

theorem Start.engaged {channel : Channel} (h : Engaged s id channel) : Engaged t id channel := by
  obtain hactive | hclosed | ⟨τ, hτ⟩ := h
  · exact .inl hactive
  · exact .inr (.inl hclosed)
  · exact .inr (.inr ⟨τ, hstart.keep (P := fun pc => pc.shuts = some id) hτ (by simp [Pc.shuts])⟩)

/-- A step that starts an agent. -/
theorem Lively.start (h : Lively p s) (hsound : Sound p t) : Lively p t := by
  obtain ⟨hhold, hspliced, hrefs, haims, hshuts, hleaves, htable⟩ := begins_empty hstart.begins
  have hdelivers := begins_delivers hstart.begins
  have hctx := hstart.ctx
  refine ⟨hsound, fun b id hb => ?_, fun b Cpu id hb => h.aims b Cpu id ?_, hctx ▸ h.queue,
    fun hl => ?_, fun hc => ?_, hctx ▸ h.closed, fun b id channel hb hid => ?_,
    fun b id channel hb hid => ?_, fun port id hmem => ?_, hctx ▸ h.keys,
    fun k id channel hk hid => ?_, fun b Cpu id channel hb hid => ?_, fun b id hb => ?_⟩
  · rw [hctx]
    by_cases hba : b = a
    · subst hba
      rw [hstart.pc, Function.update_self] at hb
      obtain hb | hb := hb
      · obtain ⟨channel, hid⟩ := hstart.allocated id (mentions_of_closing hb)
        exact h.sound.fresh id channel hid
      · rw [hspliced] at hb
        exact absurd hb List.not_mem_nil
    · rw [hstart.pc, Function.update_of_ne hba] at hb
      exact h.fresh b id hb
  · exact hstart.back (P := fun pc => pc.aims = some (Cpu, id)) hb (by simp [haims])
  · rw [hstart.captured]
    by_cases ha : a = .late
    · exact hstart.late ha
    · rw [hstart.pc, Function.update_of_ne (Ne.symm ha)] at hl
      exact h.late hl
  · rw [hstart.captured] at hc
    obtain ⟨hthreads, hinactive⟩ := h.captured hc
    refine ⟨fun τ => ?_, hctx ▸ hinactive⟩
    rw [hstart.pc, Function.update_of_ne, hthreads]
    rintro rfl
    exact absurd (hstart.held hc) (by simp [Agent.held])
  · rw [hctx] at hid
    have hb := hstart.back (P := fun pc => pc.shuts = some id ∨ pc.leaves = some id) hb
      (by simp [hshuts, hleaves])
    exact h.inactive b id channel hb hid
  · rw [hctx] at hid
    have hb := hstart.back (P := fun pc => id ∈ pc.spliced) hb (by simp [hspliced])
    exact h.spliced b id channel hb hid
  · rw [hctx] at hmem ⊢
    obtain ⟨hlt, hentry⟩ := h.table port id hmem
    refine ⟨hlt, fun channel hid => ?_⟩
    obtain ⟨hport, hactive | ⟨τ, hτ⟩⟩ := hentry channel hid
    · exact ⟨hport, .inl hactive⟩
    · exact ⟨hport, .inr ⟨τ, hstart.keep (P := (· = .closeTable id)) hτ (by simp)⟩⟩
  · rw [place_start hctx hstart.pc hstart.idle hhold] at hk
    rw [hctx] at hid
    exact hstart.engaged (h.placed k id channel hk hid)
  · rw [hctx] at hid
    have hb := hstart.back (P := fun pc => pc.refs = some (Cpu, id)) hb (by simp [hrefs])
    exact hstart.engaged (h.referred b Cpu id channel hb hid)
  · rw [hctx]
    exact h.delivers b id (hstart.back (P := fun pc => pc.delivers = some id) hb (by simp [hdelivers]))

end Start

/-- A step that opens a channel, or none. -/
theorem Lively.opened (h : Lively p s) {args : Arguments} {answers : Answers}
    (hsound : Sound p (s.put (evtchnOpen p s.ctx args answers).2)) (hcaptured : s.captured = false)
    (hport : ∀ r, openPort p s.ctx args answers.port = some r →
      hashTableLookup s.ctx.Table r.1 = none) :
    Lively p (s.put (evtchnOpen p s.ctx args answers).2) := by
  have hle := next_le_opened (p := p) s.ctx args answers
  -- what is said of a channel that was there before holds of it still
  have hold : ∀ {id channel}, id < s.ctx.next →
      (evtchnOpen p s.ctx args answers).2.Channels id = some channel →
        s.ctx.Channels id = some channel := by
    intro id channel hlt hid
    exact (channel_opened hid).resolve_right fun hnew => by omega
  have hplaced : ∀ {k id}, id ∈ place s k → id < s.ctx.next :=
    fun {k id} hk => (h.sound.tracked.mark k id hk).1
  obtain ⟨hlist, hcases⟩ := evtchnOpen_cases (p := p) s.ctx args answers
  refine ⟨hsound, fun b id hb => (h.fresh b id hb).trans_le hle, h.aims,
    fun Cpu id hmem => h.queue Cpu id (congrFun hlist Cpu ▸ hmem), h.late, fun hc => ?_,
    fun id channel hid hclosed => ?_, fun b id channel hb hid => ?_, fun b id channel hb hid => ?_,
    fun port id hmem => ?_, keys_opened h.keys hport, fun k id channel hk hid => ?_,
    fun b Cpu id channel hb hid => ?_, fun b id hb => ?_⟩
  · exact absurd (hc.symm.trans hcaptured) (by simp)
  · obtain hid | ⟨-, -, hopen⟩ := channel_opened hid
    · exact h.closed id channel hid hclosed
    · exact absurd (hclosed.symm.trans hopen) (by simp)
  · have hclosing : (s.pc b).closing = some id :=
      hb.elim closing_of_shuts closing_of_leaves
    exact h.inactive b id channel hb (hold (h.fresh b id (.inl hclosing)) hid)
  · exact h.spliced b id channel hb (hold (h.fresh b id (.inr hb)) hid)
  · have hentry : (port, id) ∈ s.ctx.Table → id < (evtchnOpen p s.ctx args answers).2.next ∧
        ∀ channel, (evtchnOpen p s.ctx args answers).2.Channels id = some channel →
          channel.LocalPort = port ∧
            (channel.Active = true ∨ ∃ τ, s.pc (.thread τ) = .closeTable id) := by
      intro hmem
      obtain ⟨hlt, hentry⟩ := h.table port id hmem
      exact ⟨hlt.trans_le hle, fun channel hid => hentry channel (hold hlt hid)⟩
    obtain ⟨-, -, htable⟩ | ⟨r, -, hch, hnext, htable⟩ := hcases
    · exact hentry (htable ▸ hmem)
    · rw [State.put_ctx, htable] at hmem
      obtain hmem | hmem := List.mem_append.mp hmem
      · exact hentry hmem
      · obtain ⟨rfl, rfl⟩ := Prod.ext_iff.mp (List.mem_singleton.mp hmem)
        refine ⟨by rw [State.put_ctx, hnext]; omega, fun channel hid => ?_⟩
        rw [State.put_ctx, hch, Function.update_self] at hid
        obtain rfl := Option.some.inj hid
        exact ⟨rfl, .inl rfl⟩
  · have hk : id ∈ place s k := by
      rcases k with Cpu | b
      · rw [place, State.put_ctx, hlist] at hk
        exact hk
      · exact hk
    exact h.placed k id channel hk (hold (hplaced hk) hid)
  · obtain hid | ⟨-, hactive, -⟩ := channel_opened hid
    · exact h.referred b Cpu id channel hb hid
    · exact .inl hactive
  · obtain ⟨channel, hid, hactive⟩ := h.delivers b id hb
    exact ⟨channel, channel_open args answers h.sound.fresh hid, hactive⟩

/-! ## The suspend -/

/-- An entry of the table, if its channel is allocated, is that of an active one with the port. -/
def Entered (ctx : Context) (port id : ℕ) : Prop :=
  (port, id) ∈ ctx.Table → ∀ channel, ctx.Channels id = some channel →
    channel.LocalPort = port ∧ channel.Active = true

theorem Entered.suspendOne {ctx : Context} {port : ℕ} (h : Entered ctx port id)
    (hkeys : (ctx.Table.map Prod.fst).Nodup) (id' : ℕ) : Entered (suspendOne ctx id') port id ∧
      ((Concurrent.suspendOne ctx id').Table.map Prod.fst).Nodup := by
  unfold Concurrent.suspendOne
  split
  · exact ⟨h, hkeys⟩
  · next channel hid =>
    split_ifs with hactive
    · refine ⟨fun hmem c hc => ?_, hkeys.sublist ((List.eraseP_sublist).map _)⟩
      obtain ⟨hold, hne⟩ := (mem_hashTableRemove hkeys).mp hmem
      have hid' : id ≠ id' := by
        rintro rfl
        exact hne (h hold channel hid).1.symm
      change Function.update _ _ _ _ = _ at hc
      rw [Function.update_of_ne hid'] at hc
      exact h hold c hc
    · exact ⟨h, hkeys⟩

theorem Entered.suspendEarly {ctx : Context} {port : ℕ} (h : Entered ctx port id)
    (hkeys : (ctx.Table.map Prod.fst).Nodup) : Entered (suspendEarly ctx) port id ∧
      ((Concurrent.suspendEarly ctx).Table.map Prod.fst).Nodup := by
  unfold Concurrent.suspendEarly
  induction List.range ctx.next generalizing ctx with
  | nil => exact ⟨h, hkeys⟩
  | cons id' ids ih =>
    obtain ⟨hone, hkeys⟩ := h.suspendOne hkeys id'
    exact ih hone hkeys

theorem belowDispatch_empty (h : pc.belowDispatch = true) : pc.holding = [] ∧ pc.spliced = [] ∧
    pc.delivers = none ∧ ∀ id, pc ≠ .closeTable id := by
  cases pc with
  | idle | triggerRead | triggerLock | triggerDpc | bindLock => exact ⟨rfl, rfl, rfl, by simp⟩
  | _ => cases h

theorem suspendEarly_subset (ctx : Context) : (suspendEarly ctx).Table ⊆ ctx.Table := by
  unfold suspendEarly
  induction List.range ctx.next generalizing ctx with
  | nil => exact List.Subset.refl _
  | cons id ids ih =>
    refine List.Subset.trans (ih _) ?_
    unfold suspendOne
    split
    · exact List.Subset.refl _
    · split_ifs
      · exact List.eraseP_subset
      · exact List.Subset.refl _

/-- **A suspend keeps the invariant**, if no open channel is on a queue. -/
theorem Lively.early [DecidableEq ι] [Fintype ι] (h : Lively p s) (hG : Settled p s .early)
    (hsound : Sound p t) (hpassive : s.Passive p) (hcaptured : s.captured = false)
    (hctx : t.ctx = suspendEarly s.ctx) (hpc : t.pc = s.pc) (hcaptured' : t.captured = true) :
    Lively p t := by
  obtain ⟨hnext, hlist, -⟩ := foldl_suspendOne (List.range s.ctx.next) s.ctx
  have hlate : s.pc .late = .idle := by
    by_contra hlate
    exact absurd ((h.late hlate).symm.trans hcaptured) (by simp)
  have hbelow := h.sound.belowDispatch hpassive hlate
  have hold : ∀ {id new}, t.ctx.Channels id = some new →
      ∃ channel, s.ctx.Channels id = some channel ∧ new = deactivate channel := by
    intro id new hnew
    rw [hctx, suspendEarly_Channels h.sound.fresh] at hnew
    obtain ⟨channel, hid, hdeactivate⟩ := Option.map_eq_some_iff.mp hnew
    exact ⟨channel, hid, hdeactivate.symm⟩
  have hinactive : ∀ id new, t.ctx.Channels id = some new → new.Active = false := by
    intro id new hnew
    obtain ⟨channel, -, rfl⟩ := hold hnew
    rfl
  have hentered : ∀ port id, Entered s.ctx port id := by
    intro port id hmem channel hid
    obtain ⟨hport, hactive | ⟨τ, hτ⟩⟩ := (h.table port id hmem).2 channel hid
    · exact ⟨hport, hactive⟩
    · exact absurd hτ ((belowDispatch_empty (hbelow (.thread τ))).2.2.2 id)
  refine ⟨hsound, fun b id hb => ?_, hpc ▸ h.aims, fun Cpu id hmem => ?_, fun _ => hcaptured',
    fun _ => ⟨fun τ => hpc ▸ hbelow _, hinactive⟩,
    fun id new hnew _ => hinactive id new hnew, fun _ id new _ hnew => hinactive id new hnew,
    fun b id new hb _ => ?_, fun port id hmem => ⟨?_, fun new hnew => ?_⟩, ?_,
    fun k id new hk hnew => ?_, fun b Cpu id new hb _ => ?_, fun b id hb => ?_⟩
  · rw [hpc] at hb
    rw [hctx]
    exact (h.fresh b id hb).trans_eq hnext.symm
  · rw [hctx] at hmem
    exact h.queue Cpu id (congrFun hlist Cpu ▸ hmem)
  · rw [hpc, (belowDispatch_empty (hbelow b)).2.1] at hb
    exact absurd hb List.not_mem_nil
  · rw [hctx] at hmem ⊢
    exact ((h.table port id (suspendEarly_subset s.ctx hmem)).1).trans_eq hnext.symm
  · -- an entry that is left would be that of an active channel
    have hnew' := hnew
    rw [hctx] at hmem hnew'
    have hactive := (((hentered port id).suspendEarly h.keys).1 hmem new hnew').2
    exact absurd (hactive.symm.trans (hinactive id new hnew)) (by simp)
  · rw [hctx]
    exact ((hentered 0 0).suspendEarly h.keys).2
  · obtain ⟨channel, hid, rfl⟩ := hold hnew
    rcases k with Cpu | b
    · rw [place, hctx] at hk
      have hk : id ∈ s.ctx.PendingList Cpu := congrFun hlist Cpu ▸ hk
      exact .inr (.inl (hG Cpu (h.queue Cpu id hk) id hk channel hid))
    · rw [place, hpc, (belowDispatch_empty (hbelow b)).1] at hk
      exact absurd hk List.not_mem_nil
  · rw [hpc, refs_belowDispatch (hbelow b)] at hb
    cases hb
  · rw [hpc, (belowDispatch_empty (hbelow b)).2.2.1] at hb
    cases hb

/-! ## Runs -/

section Runs

variable [DecidableEq ι] [Fintype ι] {act : Action ι}

/-- **Each step keeps the invariant.** -/
theorem Lively.step (h : Lively p s) (hG : Settled p s act) (hs : step p s act = some t) :
    Lively p t := by
  have hsound := h.sound.step hs
  cases stepped_of_step hs with
  | opened hcaptured hport => exact h.opened hsound hcaptured hport
  | started hstart => exact h.start hstart hsound
  | accessed hheld hacc => exact h.access hacc hG hheld
  | suspended hpassive hcaptured hctx hpc _ hcaptured' =>
    exact h.early hG hsound hpassive hcaptured hctx hpc hcaptured'
  | resumed hlate =>
    exact { h with
      sound := hsound
      captured := by simp
      late := fun hl => absurd hlate hl }

omit [DecidableEq ι] [Fintype ι] in
theorem lively_init (Route : ℕ → Option ℕ) : Lively p (init Route : State ι) where
  sound := sound_init Route
  fresh _ _ h := by
    obtain h | h := h
    · cases h
    · exact absurd h List.not_mem_nil
  aims _ _ _ h := by cases h
  queue _ _ h := absurd h List.not_mem_nil
  late h := absurd rfl h
  captured h := by cases h
  closed _ _ h := by cases h
  inactive _ _ _ _ h := by cases h
  spliced _ _ _ _ h := by cases h
  table _ _ h := absurd h List.not_mem_nil
  keys := List.nodup_nil
  placed _ _ _ _ h := by cases h
  referred _ _ _ _ _ h := by cases h
  delivers _ _ h := by cases h

/-! ## The event words -/

/-- `EvtchnPoll` or `EvtchnClose` can ask for the event word of the channel's port. -/
def Worded (s : State ι) (id : ℕ) (channel : Channel) : Prop :=
  channel.Active = true ∨ ∃ τ, s.pc (.thread τ) = .closeTable id

/-- The invariant, with the ABI. -/
structure Paged (p : Platform) (s : AbiState ι) : Prop where
  lively : Lively p s.state
  words : ∀ id channel, s.state.ctx.Channels id = some channel → Worded s.state id channel →
    s.EvtchnAbi.HasEventWord channel.LocalPort

omit [DecidableEq ι] [Fintype ι] in
theorem Paged.onlyActive {s : AbiState ι} (h : Paged p s) : OnlyActive s := by
  constructor
  · intro a Cpu lock flush id rest hpc
    obtain ⟨channel, hid, hactive⟩ := h.lively.delivers a id (by rw [hpc]; rfl)
    exact ⟨channel, hid, hactive, h.words id channel hid (.inl hactive)⟩
  · intro τ id channel hpc hid
    exact h.words id channel hid (.inr ⟨τ, hpc⟩)

omit [Fintype ι] in
theorem closeTable_access (hacc : Access p s a pc t) (h : t.pc a = .closeTable id) :
    ∃ channel, s.ctx.Channels id = some channel ∧ channel.Active = true := by
  cases hacc with
  | wasActive hid hactive =>
    rw [State.goto_pc, Function.update_self] at h
    obtain rfl := Pc.closeTable.inj h
    exact ⟨_, hid, hactive⟩
  | @released _ _ Queued =>
    rw [State.goto_pc, Function.update_self] at h
    cases Queued <;> cases h
  | _ =>
    rw [State.goto_pc, Function.update_self] at h
    cases h

/-- A port that is asked for after a step, other than `EvtchnOpen`, could be before. -/
theorem worded_before (hst : Stepped p s act t) (hopen : ∀ args answers, act ≠ .opened args answers)
    {new : Channel} (hnew : t.ctx.Channels id = some new) (hworded : Worded t id new)
    (hfresh : ∀ id channel, s.ctx.Channels id = some channel → id < s.ctx.next) :
    ∃ channel, s.ctx.Channels id = some channel ∧ new.LocalPort = channel.LocalPort ∧
      Worded s id channel := by
  cases hst with
  | opened => exact absurd rfl (hopen _ _)
  | started hstart =>
    refine ⟨new, hstart.ctx ▸ hnew, rfl, ?_⟩
    obtain hactive | ⟨τ, hτ⟩ := hworded
    · exact .inl hactive
    · exact .inr ⟨τ, hstart.back (P := (· = .closeTable id)) hτ
        ((begins_empty hstart.begins).2.2.2.2.2.2 id)⟩
  | @accessed a _ _ _ hacc =>
    obtain ⟨channel, hid, hfollows⟩ := before_access hacc hnew
    refine ⟨channel, hid, hfollows.port, ?_⟩
    obtain hactive | ⟨τ, hτ⟩ := hworded
    · exact .inl (hfollows.active.mp hactive).1
    · by_cases hτa : .thread τ = a
      · obtain ⟨c, hc, hactive⟩ := closeTable_access hacc (hτa ▸ hτ)
        obtain rfl := Option.some.inj (hid.symm.trans hc)
        exact .inl hactive
      · obtain ⟨⟨pc', hpc'⟩, -⟩ := frame_access hacc
        refine .inr ⟨τ, ?_⟩
        rwa [hpc', Function.update_of_ne hτa] at hτ
  | suspended _ _ hctx hpc =>
    rw [hctx, suspendEarly_Channels hfresh] at hnew
    obtain ⟨channel, hid, rfl⟩ := Option.map_eq_some_iff.mp hnew
    obtain hactive | ⟨τ, hτ⟩ := hworded
    · cases hactive
    · exact ⟨channel, hid, rfl, .inr ⟨τ, hpc ▸ hτ⟩⟩
  | resumed => exact ⟨new, hnew, rfl, hworded⟩

omit [DecidableEq ι] [Fintype ι] in
/-- While the machine is suspended, no port is asked for. -/
theorem Lively.not_worded (h : Lively p s) (hcaptured : s.captured = true) {channel : Channel}
    (hid : s.ctx.Channels id = some channel) : ¬ Worded s id channel := by
  obtain ⟨hthreads, hinactive⟩ := h.captured hcaptured
  rintro (hactive | ⟨τ, hτ⟩)
  · exact absurd (hactive.symm.trans (hinactive id channel hid)) (by simp)
  · exact (belowDispatch_empty (hthreads τ)).2.2.2 id hτ

theorem captured_of_late (hs : step p s .late = some t) : s.captured = true := by
  simp only [Concurrent.step] at hs
  split_ifs at hs with hlate
  exact hlate.1

/-- `PortEnable` gives the port an event word, and takes none away. -/
theorem hasEventWord_portEnable (Port : ℕ) (expanded : Bool) (abi : Abi) :
    ((abi.portEnable Port expanded).1 = true → (abi.portEnable Port expanded).2.HasEventWord Port) ∧
      ∀ Port', abi.HasEventWord Port' → (abi.portEnable Port expanded).2.HasEventWord Port' := by
  cases abi with
  | twoLevel => exact ⟨fun _ => trivial, fun _ _ => trivial⟩
  | fifo EventPageCount =>
    unfold Abi.portEnable
    dsimp only
    by_cases hlt : Port / EVENT_WORDS_PER_PAGE < EventPageCount
    · rw [if_pos hlt]
      exact ⟨fun _ => hlt, fun _ h => h⟩
    · rw [if_neg hlt]
      cases expanded with
      | true =>
        refine ⟨fun _ => Nat.lt_succ_self _, fun Port' h => ?_⟩
        change _ < _ at h
        change _ < Port / EVENT_WORDS_PER_PAGE + 1
        omega
      | false => exact ⟨nofun, fun _ h => h⟩

theorem hasEventWord_enableOpened (ctx : Context) (abi : Abi) (args : Arguments) (answers : Answers)
    {Port : ℕ} (h : abi.HasEventWord Port) :
    (enableOpened p ctx abi args answers).2.HasEventWord Port := by
  unfold enableOpened
  split
  · split_ifs
    · exact (hasEventWord_portEnable _ _ abi).2 Port h
    · exact h
  · exact h

omit [DecidableEq ι] [Fintype ι] in
/-- Without memory for the channel, or without its port enabled, no channel is opened. -/
theorem channels_of_failed {ctx : Context} {args : Arguments} {answers : Answers}
    (h : answers.allocate = false ∨ answers.portEnable = false) :
    (evtchnOpen p ctx args answers).2.Channels = ctx.Channels := by
  unfold evtchnOpen
  split_ifs with hallocate
  · rfl
  · have hfailed : answers.portEnable = false := h.resolve_left (by simpa using hallocate)
    cases hport : openPort p ctx args answers.port with
    | none => rfl
    | some r =>
      have hctx := openPort_route hport
      simp only [openChannel, hfailed, Bool.not_false, true_or, if_true]
      split_ifs
      · exact (congrArg Context.Channels hctx :)
      · exact (congrArg Context.Channels hctx :)

omit [DecidableEq ι] [Fintype ι] in
/-- A channel that is opened has an event word. -/
theorem hasEventWord_opened {ctx : Context} {abi : Abi} {args : Arguments} {answers : Answers}
    {channel : Channel} (hid : (evtchnOpen p ctx args { answers with
      portEnable := (enableOpened p ctx abi args answers).1 }).2.Channels id = some channel) :
    ctx.Channels id = some channel ∨
      (enableOpened p ctx abi args answers).2.HasEventWord channel.LocalPort := by
  by_cases hfailed : answers.allocate = false ∨ (enableOpened p ctx abi args answers).1 = false
  · left
    rwa [channels_of_failed hfailed] at hid
  · rw [not_or, Bool.not_eq_false, Bool.not_eq_false] at hfailed
    obtain ⟨hallocate, henabled⟩ := hfailed
    obtain ⟨-, ⟨hch, -⟩ | ⟨⟨LocalPort, ctx'⟩, hport, hch, -⟩⟩ := evtchnOpen_cases (p := p) ctx args
      { answers with portEnable := (enableOpened p ctx abi args answers).1 }
    · exact .inl (hch ▸ hid)
    · rw [hch] at hid
      by_cases hne : id = ctx.next
      · rw [hne, Function.update_self] at hid
        obtain rfl := Option.some.inj hid
        right
        have henable : enableOpened p ctx abi args answers =
            abi.portEnable LocalPort answers.portEnable := by
          unfold enableOpened
          rw [hport]
          exact if_pos hallocate
        rw [henable] at henabled ⊢
        exact (hasEventWord_portEnable LocalPort answers.portEnable abi).1 henabled
      · rw [Function.update_of_ne hne] at hid
        exact .inl hid

/-- **Each step keeps the invariant**, with the ABI. -/
theorem Paged.step {s t : AbiState ι} {act : Action ι × Bool} (h : Paged p s)
    (hG : Settled p s.state act.1) (hs : abiStep p s act = some t) : Paged p t := by
  obtain ⟨act, fifo⟩ := act
  obtain ⟨u, hu, rfl⟩ := Option.map_eq_some_iff.mp hs
  cases act with
  | opened args answers =>
    refine ⟨h.lively.step ?_ hu, fun id channel hid hworded => ?_⟩
    · trivial
    cases stepped_of_step hu with
    | opened =>
      obtain hid | hword := hasEventWord_opened hid
      · exact hasEventWord_enableOpened _ _ _ _ (h.words id channel hid hworded)
      · exact hword
    | started hstart => exact absurd rfl (hstart.unopened _ _)
  | late =>
    refine ⟨h.lively.step hG hu, fun id channel hid hworded => ?_⟩
    obtain ⟨c, hc, -, hc'⟩ := worded_before (stepped_of_step hu) (by simp [answered]) hid hworded
      h.lively.sound.fresh
    exact absurd hc' (h.lively.not_worded (captured_of_late hu) hc)
  | call | upcall | dispatch | run | early =>
    refine ⟨h.lively.step hG hu, fun id new hid hworded => ?_⟩
    obtain ⟨channel, hc, hport, hc'⟩ := worded_before (stepped_of_step hu) (by simp [answered]) hid
      hworded h.lively.sound.fresh
    change s.EvtchnAbi.HasEventWord new.LocalPort
    rw [hport]
    exact h.words id channel hc hc'

omit [DecidableEq ι] [Fintype ι] in
theorem paged_init (Route : ℕ → Option ℕ) (fifo : Bool) :
    Paged p (abiInit Route fifo : AbiState ι) where
  lively := lively_init Route
  words _ _ h := by cases h

/-- The steps that keep the promise, as a test. -/
def settled (p : Platform) (s : State ι) : Action ι → Bool
  | .early => decide (∀ Cpu < p.ProcessorCount, ∀ id ∈ s.ctx.PendingList Cpu,
      (s.ctx.Channels id).all (·.Closed))
  | .run a _ =>
    match s.pc a with
    | .triggerSet _ id _ => (s.ctx.Channels id).all fun channel => channel.Pending || channel.Active
    | .polling _ _ _ (.walking (id :: _)) => decide (∀ τ, (s.pc (.thread τ)).shuts ≠ some id)
    | .closeTest id => decide (∀ Cpu < p.ProcessorCount,
        (s.pc (.interrupt Cpu)).delivers ≠ some id ∧ (s.pc (.dpc Cpu)).delivers ≠ some id)
    | _ => true
  | _ => true

omit [DecidableEq ι] in
theorem settled_of_test (h : settled p s act = true) : Settled p s act := by
  cases act with
  | early =>
    intro Cpu hCpu id hmem channel hid
    have := of_decide_eq_true h Cpu hCpu id hmem
    simpa [hid] using this
  | run a choice =>
    refine ⟨fun caller id Cpu channel hpc hid hpending => ?_,
      fun Cpu lock flush id rest hpc _ => ?_, fun id channel hpc _ _ => ?_⟩
    · simp only [settled, hpc, hid, Option.all_some, hpending, Bool.false_or] at h
      exact .inl h
    · simpa [settled, hpc] using h
    · simpa [settled, hpc] using h
  | _ => trivial

end Runs

/-! ## Channels that are touched after a suspend -/

/-- The DPC of processor 0 is about to mask and ack the port of the channel. -/
def Touches (s : AbiState (Fin 1)) (id : ℕ) : Prop :=
  s.state.pc (.dpc 0) = .polling 0 (.processor 0) (some []) (.delivering id [])

instance (s : AbiState (Fin 1)) (id : ℕ) : Decidable (Touches s id) :=
  inferInstanceAs (Decidable (_ = _))

/-- The machine is suspended and resumed; the polls of the late callback find `UpcallPending` clear. -/
def resumeActions : List (Action ι) :=
  [.early, .late, .run .late none, .late, .run .late none, .late, .run .late none, .late]

/-- The channel is triggered, and the DPC gets as far as the callback of it. -/
def touchActions [Zero ι] (id : ℕ) (between : List (Action ι)) : List (Action ι) :=
  [.call 0 id .trigger] ++ runs (.thread 0) 6 ++ between ++ [.dispatch 0] ++ runs (.dpc 0) 6

/-- A poll that touches an inactive channel. -/
theorem not_onlyActive {s : AbiState (Fin 1)}
    (h : Touches s 0 ∧ (s.state.ctx.Channels 0).all fun channel => !channel.Active) :
    ¬ OnlyActive s := by
  rintro ⟨hpolls, -⟩
  obtain ⟨channel, hid, hactive, -⟩ := hpolls _ _ _ _ _ _ h.1
  have := h.2
  simp [hid, hactive] at this

end XenBus.Evtchn.Concurrent
