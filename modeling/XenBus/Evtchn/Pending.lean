import XenBus.Evtchn.Concurrent
import XenBus.Foundations.Placement
import XenBus.Foundations.Transition

/-!
# What holds at every access

Three facts about the queues, in every run. A channel that an agent has taken charge of, by setting
`Pending` or by taking it off a queue, is in one place: on the queue of one processor, or in the hands
of one agent (`Sound.tracked`). An agent between the acquisition and the release of an interrupt lock
is its holder (`Sound.owned`). And the program counter of an agent is one of the function that it runs
(`Sound.fits`).
-/

namespace XenBus.Evtchn.Concurrent

open Transition Placement

section Fields

variable {ι : Type} (s : State ι) (pc : Pc) (ctx : Context) (lock : Interrupt)

@[simp] theorem State.put_ctx : (s.put ctx).ctx = ctx := rfl
@[simp] theorem State.put_pc : (s.put ctx).pc = s.pc := rfl
@[simp] theorem State.put_Dpc : (s.put ctx).Dpc = s.Dpc := rfl
@[simp] theorem State.put_InterruptLock : (s.put ctx).InterruptLock = s.InterruptLock := rfl
@[simp] theorem State.release_ctx : (s.release lock).ctx = s.ctx := rfl
@[simp] theorem State.release_pc : (s.release lock).pc = s.pc := rfl
@[simp] theorem State.release_Dpc : (s.release lock).Dpc = s.Dpc := rfl

variable [DecidableEq ι] (a : Agent ι)

@[simp] theorem State.goto_ctx : (s.goto a pc).ctx = s.ctx := rfl
@[simp] theorem State.goto_pc : (s.goto a pc).pc = Function.update s.pc a pc := rfl
@[simp] theorem State.goto_Dpc : (s.goto a pc).Dpc = s.Dpc := rfl
@[simp] theorem State.goto_InterruptLock : (s.goto a pc).InterruptLock = s.InterruptLock := rfl

end Fields

variable {ι : Type} {p : Platform} {s t : State ι} {a : Agent ι} {pc pc' : Pc}
  {choice : Option ℕ}

/-! ## Reading a program counter -/

/-- The channel that a poll has charge of. -/
def Poll.holding : Poll → List ℕ
  | .inserting id | .clearing id _ => [id]
  | _ => []

/-- The channels that an agent has charge of: their `Pending` is set, and they are on no queue. -/
def Pc.holding : Pc → List ℕ
  | .polling _ _ flush poll => poll.holding ++ flush.getD []
  | .polled _ _ flush => flush.getD []
  | .flushing _ List => List
  | .taken _ id List => id :: List
  | .reaping _ _ List => List
  | .triggerInsert _ id _ => [id]
  | _ => []

/-- The channel whose `Pending` is about to be tested and set. -/
def Pc.testing : Pc → Option ℕ
  | .polling _ _ _ (.matched id) | .triggerSet _ id _ => some id
  | _ => none

/-- The interrupt lock that an agent holds. -/
def Pc.lock (p : Platform) : Pc → Option Interrupt
  | .polling _ lock _ _ | .polled _ lock _ => some lock
  | .triggerSet _ _ Cpu | .triggerInsert _ _ Cpu | .triggerRelease _ Cpu _ => some (interrupt p Cpu)
  | _ => none

/-- The program counters of an agent, and the processors in them, which exist. -/
def Agent.Fits (p : Platform) : Agent ι → Pc → Prop
  | _, .idle => True
  | .interrupt Cpu, .polling Cpu' lock flush _ | .interrupt Cpu, .polled Cpu' lock flush =>
    Cpu' = Cpu ∧ Cpu < p.ProcessorCount ∧ lock = Concurrent.interrupt p Cpu ∧ flush = none
  | .dpc Cpu, .polling Cpu' lock flush _ | .dpc Cpu, .polled Cpu' lock flush =>
    Cpu' = Cpu ∧ Cpu < p.ProcessorCount ∧ lock = Concurrent.interrupt p Cpu ∧ flush ≠ none
  | .dpc Cpu, .dpcLock Cpu' | .dpc Cpu, .flushLock Cpu' | .dpc Cpu, .flushing Cpu' _
  | .dpc Cpu, .taken Cpu' _ _ | .dpc Cpu, .reaping Cpu' _ _ => Cpu' = Cpu ∧ Cpu < p.ProcessorCount
  | .thread _, .triggerRead _ _ | .thread _, .closeTest _ | .thread _, .closeTable _
  | .thread _, .closeMark _ | .thread _, .closeLock _ | .thread _, .closeReap _ => True
  | .thread _, .triggerLock _ _ Cpu | .thread _, .triggerSet _ _ Cpu
  | .thread _, .triggerInsert _ _ Cpu | .thread _, .triggerRelease _ Cpu _
  | .thread _, .triggerDpc _ Cpu | .thread _, .bindLock _ Cpu | .thread _, .bindCall _ Cpu
  | .thread _, .bindStore _ Cpu => Cpu < p.ProcessorCount
  | .late, .polling _ _ flush _ | .late, .polled _ _ flush => flush = none
  | _, _ => False

/-- The places of a channel: the queues of the processors, and the agents. -/
def place (s : State ι) : ℕ ⊕ Agent ι → List ℕ
  | .inl Cpu => s.ctx.PendingList Cpu
  | .inr a => (s.pc a).holding

/-- The channel has been opened, and its `Pending` is set as long as it is allocated. -/
def Marked (ctx : Context) (id : ℕ) : Prop :=
  id < ctx.next ∧ ∀ channel, ctx.Channels id = some channel → channel.Pending = true

/-- An agent between the acquisition and the release of an interrupt lock is its holder. -/
def Owned (p : Platform) (s : State ι) : Prop :=
  ∀ a lock, (s.pc a).lock p = some lock → s.InterruptLock lock = some a

/-- Two agents that hold a lock are one. -/
theorem Owned.unique (h : Owned p s) {a b : Agent ι} {lock : Interrupt}
    (ha : (s.pc a).lock p = some lock) (hb : (s.pc b).lock p = some lock) : a = b :=
  Option.some.inj ((h a lock ha).symm.trans (h b lock hb))

/-- Every channel is on a processor that exists. -/
def InRange (p : Platform) (ctx : Context) : Prop :=
  ∀ id channel, ctx.Channels id = some channel → channel.Cpu < p.ProcessorCount

/-- The general invariant. -/
structure Sound (p : Platform) (s : State ι) : Prop where
  tracked : Tracked (place s) (Marked s.ctx)
  owned : Owned p s
  fits : ∀ a : Agent ι, a.Fits p (s.pc a)
  fresh : ∀ id channel, s.ctx.Channels id = some channel → id < s.ctx.next
  /-- The assertions on `Channel->Cpu` hold. -/
  range : InRange p s.ctx
  dpcs : ∀ Cpu, s.Dpc Cpu = true → Cpu < p.ProcessorCount

/-! ## What an access does -/

theorem acquire_eq_some {lock : Interrupt} (h : s.acquire lock a = some t) :
    s.InterruptLock lock = none ∧
      t = { s with InterruptLock := Function.update s.InterruptLock lock (some a) } := by
  unfold State.acquire at h
  split_ifs at h with hfree
  exact ⟨hfree, (Option.some.inj h).symm⟩

variable [DecidableEq ι]

/-- The access of an agent at a program counter, case by case: what it has read, and the state after
it. -/
inductive Access (p : Platform) (s : State ι) (a : Agent ι) : Pc → State ι → Prop
  -- EvtchnPoll
  | scanned {Cpu lock flush} : Access p s a (.polling Cpu lock flush .ports)
      (s.goto a (.polling Cpu lock flush (.walking (s.ctx.PendingList Cpu))))
  | unknown {Cpu lock flush} : Access p s a (.polling Cpu lock flush .ports)
      (s.goto a (.polling Cpu lock flush .ports))
  | lookedUp {Cpu lock flush LocalPort id} (h : hashTableLookup s.ctx.Table LocalPort = some id) :
      Access p s a (.polling Cpu lock flush .ports) (s.goto a (.polling Cpu lock flush (.found id)))
  | otherCpu {Cpu lock flush id channel} (hid : s.ctx.Channels id = some channel) :
      Access p s a (.polling Cpu lock flush (.found id)) (s.goto a (.polling Cpu lock flush .ports))
  | sameCpu {Cpu lock flush id channel} (hid : s.ctx.Channels id = some channel)
      (hcpu : channel.Cpu = Cpu) : Access p s a (.polling Cpu lock flush (.found id))
      (s.goto a (.polling Cpu lock flush (.matched id)))
  | wasSet {Cpu lock flush id channel} (hid : s.ctx.Channels id = some channel)
      (hpending : channel.Pending = true) : Access p s a (.polling Cpu lock flush (.matched id))
      (s.goto a (.polling Cpu lock flush .ports))
  | wasClear {Cpu lock flush id channel} (hid : s.ctx.Channels id = some channel)
      (hpending : channel.Pending = false) : Access p s a (.polling Cpu lock flush (.matched id))
      ((s.put (s.ctx.set id { channel with Pending := true })).goto a
        (.polling Cpu lock flush (.inserting id)))
  | inserted {Cpu lock flush id channel} (hid : s.ctx.Channels id = some channel) :
      Access p s a (.polling Cpu lock flush (.inserting id))
      ((s.put (insertTail s.ctx Cpu id)).goto a (.polling Cpu lock flush .ports))
  | walked {Cpu lock flush} : Access p s a (.polling Cpu lock flush (.walking []))
      (s.goto a (.polled Cpu lock flush))
  | skipped {Cpu lock flush id rest} (hmem : id ∉ s.ctx.PendingList Cpu) :
      Access p s a (.polling Cpu lock flush (.walking (id :: rest)))
      (s.goto a (.polling Cpu lock flush (.walking rest)))
  | foundOpen {Cpu lock flush id rest channel} (hid : s.ctx.Channels id = some channel)
      (hmem : id ∈ s.ctx.PendingList Cpu) (hclosed : channel.Closed = false) :
      Access p s a (.polling Cpu lock flush (.walking (id :: rest)))
      (s.goto a (.polling Cpu lock flush (.removing id rest)))
  | leftClosed {Cpu lock id rest channel} (hid : s.ctx.Channels id = some channel)
      (hmem : id ∈ s.ctx.PendingList Cpu) (hclosed : channel.Closed = true) :
      Access p s a (.polling Cpu lock none (.walking (id :: rest)))
      (s.goto a (.polling Cpu lock none (.walking rest)))
  | tookClosed {Cpu lock List id rest channel} (hid : s.ctx.Channels id = some channel)
      (hmem : id ∈ s.ctx.PendingList Cpu) (hclosed : channel.Closed = true) :
      Access p s a (.polling Cpu lock (some List) (.walking (id :: rest)))
      ((s.put (removeEntry s.ctx Cpu id)).goto a
        (.polling Cpu lock (some (List ++ [id])) (.walking rest)))
  | removed {Cpu lock flush id rest channel} (hid : s.ctx.Channels id = some channel)
      (hmem : id ∈ s.ctx.PendingList Cpu) : Access p s a (.polling Cpu lock flush (.removing id rest))
      ((s.put (removeEntry s.ctx Cpu id)).goto a (.polling Cpu lock flush (.clearing id rest)))
  | cleared {Cpu lock flush id rest channel} (hid : s.ctx.Channels id = some channel) :
      Access p s a (.polling Cpu lock flush (.clearing id rest))
      ((s.put (s.ctx.set id { channel with Pending := false })).goto a
        (.polling Cpu lock flush (.delivering id rest)))
  | delivered {Cpu lock flush id rest channel} (hid : s.ctx.Channels id = some channel) :
      Access p s a (.polling Cpu lock flush (.delivering id rest))
      (s.goto a (.polling Cpu lock flush (.walking rest)))
  | again {Cpu lock} : Access p s a (.polled Cpu lock none)
      (s.goto a (.polling Cpu lock none .ports))
  | returned {Cpu lock} : Access p s a (.polled Cpu lock none) ((s.release lock).goto a .idle)
  -- EvtchnFlush
  | spliced {Cpu lock List} : Access p s a (.polled Cpu lock (some List))
      ((s.release lock).goto a (.flushing Cpu List))
  | dpcLocked {Cpu} : Access p s a (.dpcLock Cpu) ({ s with Lock := true }.goto a (.flushLock Cpu))
  | flushLocked {Cpu} (hfree : s.InterruptLock (interrupt p Cpu) = none) :
      Access p s a (.flushLock Cpu)
      ({ s with InterruptLock := Function.update s.InterruptLock (interrupt p Cpu) (some a) }.goto a
        (.polling Cpu (interrupt p Cpu) (some []) .ports))
  | flushed {Cpu} : Access p s a (.flushing Cpu []) ({ s with Lock := false }.goto a .idle)
  | took {Cpu id List} : Access p s a (.flushing Cpu (id :: List)) (s.goto a (.taken Cpu id List))
  | tookClear {Cpu id List channel} (hid : s.ctx.Channels id = some channel) :
      Access p s a (.taken Cpu id List)
      ((s.put (s.ctx.set id { channel with Pending := false })).goto a (.reaping Cpu id List))
  | reaped {Cpu id List channel} (hid : s.ctx.Channels id = some channel) :
      Access p s a (.reaping Cpu id List)
      ((s.put (evtchnReap s.ctx id channel true)).goto a (.flushing Cpu List))
  -- EvtchnTrigger
  | readCpu {caller id channel} (hid : s.ctx.Channels id = some channel) :
      Access p s a (.triggerRead caller id) (s.goto a (.triggerLock caller id channel.Cpu))
  | locked {caller id Cpu} (hfree : s.InterruptLock (interrupt p Cpu) = none) :
      Access p s a (.triggerLock caller id Cpu)
      ({ s with InterruptLock := Function.update s.InterruptLock (interrupt p Cpu) (some a) }.goto a
        (.triggerSet caller id Cpu))
  | already {caller id Cpu channel} (hid : s.ctx.Channels id = some channel)
      (hpending : channel.Pending = true) : Access p s a (.triggerSet caller id Cpu)
      (s.goto a (.triggerRelease caller Cpu false))
  | triggered {caller id Cpu channel} (hid : s.ctx.Channels id = some channel)
      (hpending : channel.Pending = false) : Access p s a (.triggerSet caller id Cpu)
      ((s.put (s.ctx.set id { channel with Pending := true })).goto a (.triggerInsert caller id Cpu))
  | queued {caller id Cpu channel} (hid : s.ctx.Channels id = some channel) :
      Access p s a (.triggerInsert caller id Cpu)
      ((s.put (insertTail s.ctx Cpu id)).goto a (.triggerRelease caller Cpu true))
  | released {caller Cpu Queued} : Access p s a (.triggerRelease caller Cpu Queued)
      ((s.release (interrupt p Cpu)).goto a (if Queued then .triggerDpc caller Cpu else .idle))
  | insertedDpc {caller Cpu} : Access p s a (.triggerDpc caller Cpu)
      ({ s with Dpc := Function.update s.Dpc Cpu true }.goto a .idle)
  -- EvtchnClose
  | wasActive {id channel} (hid : s.ctx.Channels id = some channel) (hactive : channel.Active = true) :
      Access p s a (.closeTest id)
      ((s.put (s.ctx.set id { channel with Active := false })).goto a (.closeTable id))
  | wasInactive {id channel} (hid : s.ctx.Channels id = some channel)
      (hactive : channel.Active = false) : Access p s a (.closeTest id) (s.goto a (.closeLock id))
  | unlisted {id channel} (hid : s.ctx.Channels id = some channel) : Access p s a (.closeTable id)
      ((s.put { s.ctx with Table := hashTableRemove s.ctx.Table channel.LocalPort }).goto a
        (.closeMark id))
  | markedClosed {id channel} (hid : s.ctx.Channels id = some channel) : Access p s a (.closeMark id)
      ((s.put (s.ctx.set id { channel with Closed := true })).goto a (.triggerRead .close id))
  | closeLocked {id} : Access p s a (.closeLock id) ({ s with Lock := true }.goto a (.closeReap id))
  | closeReaped {id channel} (hid : s.ctx.Channels id = some channel) : Access p s a (.closeReap id)
      (({ s with Lock := false }.put
        (evtchnReap s.ctx id { channel with Closed := true } false)).goto a .idle)
  -- EvtchnBind
  | notBound {id Cpu} : Access p s a (.bindLock id Cpu) (s.goto a .idle)
  | bindLocked {id Cpu channel} (hid : s.ctx.Channels id = some channel) :
      Access p s a (.bindLock id Cpu)
      ({ s with ChannelLock := Function.update s.ChannelLock id true }.goto a (.bindCall id Cpu))
  | bound {id Cpu vcpu_id channel} (hid : s.ctx.Channels id = some channel) :
      Access p s a (.bindCall id Cpu)
      ((s.put (s.ctx.route channel.LocalPort (some vcpu_id))).goto a (.bindStore id Cpu))
  | bindFailed {id Cpu} : Access p s a (.bindCall id Cpu)
      ({ s with ChannelLock := Function.update s.ChannelLock id false }.goto a .idle)
  | bindStored {id Cpu channel} (hid : s.ctx.Channels id = some channel) :
      Access p s a (.bindStore id Cpu)
      (({ s with ChannelLock := Function.update s.ChannelLock id false }.put
        (s.ctx.set id { channel with Cpu := Cpu })).goto a .idle)

/-- **Inversion of an access of `EvtchnPoll`.** -/
theorem access_of_pollStep {Cpu : ℕ} {lock : Interrupt} {flush : Option (List ℕ)} {poll : Poll}
    {r : Context × Pc} (h : pollStep s.ctx Cpu lock flush choice poll = some r) :
    Access p s a (.polling Cpu lock flush poll) ((s.put r.1).goto a r.2) := by
  cases poll with
  | ports =>
    simp only [pollStep] at h
    split at h
    · obtain rfl := Option.some.inj h
      exact .scanned
    · split at h <;> obtain rfl := Option.some.inj h
      · exact .unknown
      · exact .lookedUp ‹_›
  | found id =>
    obtain ⟨channel, hid, rfl⟩ := Option.map_eq_some_iff.mp h
    split_ifs with hcpu
    · exact .otherCpu hid
    · exact .sameCpu hid (not_not.mp hcpu)
  | matched id =>
    obtain ⟨channel, hid, rfl⟩ := Option.map_eq_some_iff.mp h
    split_ifs with hpending
    · exact .wasSet hid hpending
    · exact .wasClear hid (by simpa using hpending)
  | inserting id =>
    obtain ⟨channel, hid, rfl⟩ := Option.map_eq_some_iff.mp h
    exact .inserted hid
  | walking rest =>
    cases rest with
    | nil =>
      obtain rfl := Option.some.inj h
      exact .walked
    | cons id rest =>
      simp only [pollStep] at h
      split_ifs at h with hmem
      · obtain ⟨channel, hid, rfl⟩ := Option.map_eq_some_iff.mp h
        split_ifs with hclosed
        · exact .foundOpen hid hmem (by simpa using hclosed)
        · cases flush with
          | none => exact .leftClosed hid hmem (by simpa using hclosed)
          | some List => exact .tookClosed hid hmem (by simpa using hclosed)
      · obtain rfl := Option.some.inj h
        exact .skipped hmem
  | removing id rest =>
    obtain ⟨channel, hid, h⟩ := Option.bind_eq_some_iff.mp h
    split_ifs at h with hmem
    obtain rfl := Option.some.inj h
    exact .removed hid hmem
  | clearing id rest =>
    obtain ⟨channel, hid, rfl⟩ := Option.map_eq_some_iff.mp h
    exact .cleared hid
  | delivering id rest =>
    obtain ⟨channel, hid, rfl⟩ := Option.map_eq_some_iff.mp h
    exact .delivered hid

/-- **Inversion of an access.** -/
theorem access_of_runStep (h : runStep p s a choice pc = some t) : Access p s a pc t := by
  cases pc with
  | idle => cases h
  | polling Cpu lock flush poll =>
    obtain ⟨r, hr, rfl⟩ := Option.map_eq_some_iff.mp h
    exact access_of_pollStep hr
  | polled Cpu lock flush =>
    cases flush with
    | none =>
      simp only [runStep] at h
      split at h <;> obtain rfl := Option.some.inj h
      · exact .again
      · exact .returned
    | some List =>
      obtain rfl := Option.some.inj h
      exact .spliced
  | dpcLock Cpu =>
    simp only [runStep] at h
    split_ifs at h
    obtain rfl := Option.some.inj h
    exact .dpcLocked
  | flushLock Cpu =>
    obtain ⟨u, hu, rfl⟩ := Option.map_eq_some_iff.mp h
    obtain ⟨hfree, rfl⟩ := acquire_eq_some hu
    exact .flushLocked hfree
  | flushing Cpu List =>
    cases List with
    | nil =>
      obtain rfl := Option.some.inj h
      exact .flushed
    | cons id List =>
      obtain rfl := Option.some.inj h
      exact .took
  | taken Cpu id List =>
    obtain ⟨channel, hid, rfl⟩ := Option.map_eq_some_iff.mp h
    exact .tookClear hid
  | reaping Cpu id List =>
    obtain ⟨channel, hid, rfl⟩ := Option.map_eq_some_iff.mp h
    exact .reaped hid
  | triggerRead caller id =>
    simp only [runStep] at h
    split_ifs at h
    obtain ⟨channel, hid, rfl⟩ := Option.map_eq_some_iff.mp h
    exact .readCpu hid
  | triggerLock caller id Cpu =>
    obtain ⟨u, hu, rfl⟩ := Option.map_eq_some_iff.mp h
    obtain ⟨hfree, rfl⟩ := acquire_eq_some hu
    exact .locked hfree
  | triggerSet caller id Cpu =>
    obtain ⟨channel, hid, rfl⟩ := Option.map_eq_some_iff.mp h
    split_ifs with hpending
    · exact .already hid hpending
    · exact .triggered hid (by simpa using hpending)
  | triggerInsert caller id Cpu =>
    obtain ⟨channel, hid, rfl⟩ := Option.map_eq_some_iff.mp h
    exact .queued hid
  | triggerRelease caller Cpu Queued =>
    obtain rfl := Option.some.inj h
    exact .released
  | triggerDpc caller Cpu =>
    obtain rfl := Option.some.inj h
    exact .insertedDpc
  | closeTest id =>
    obtain ⟨channel, hid, rfl⟩ := Option.map_eq_some_iff.mp h
    split_ifs with hactive
    · exact .wasActive hid hactive
    · exact .wasInactive hid (by simpa using hactive)
  | closeTable id =>
    obtain ⟨channel, hid, rfl⟩ := Option.map_eq_some_iff.mp h
    exact .unlisted hid
  | closeMark id =>
    obtain ⟨channel, hid, rfl⟩ := Option.map_eq_some_iff.mp h
    exact .markedClosed hid
  | closeLock id =>
    simp only [runStep] at h
    split_ifs at h
    obtain rfl := Option.some.inj h
    exact .closeLocked
  | closeReap id =>
    obtain ⟨channel, hid, rfl⟩ := Option.map_eq_some_iff.mp h
    exact .closeReaped hid
  | bindLock id Cpu =>
    simp only [runStep] at h
    split_ifs at h
    · obtain rfl := Option.some.inj h
      exact .notBound
    · obtain ⟨channel, hid, rfl⟩ := Option.map_eq_some_iff.mp h
      split_ifs
      · exact .notBound
      · exact .bindLocked hid
  | bindCall id Cpu =>
    obtain ⟨channel, hid, rfl⟩ := Option.map_eq_some_iff.mp h
    split
    · exact .bound hid
    · exact .bindFailed
  | bindStore id Cpu =>
    obtain ⟨channel, hid, rfl⟩ := Option.map_eq_some_iff.mp h
    exact .bindStored hid

/-! ## Where the channels are -/

theorem evtchnReap_Channels (ctx : Context) (id : ℕ) (channel : Channel) (Close : Bool) :
    (evtchnReap ctx id channel Close).Channels = Function.update ctx.Channels id none := by
  unfold evtchnReap
  dsimp only
  split_ifs <;> rfl

theorem evtchnReap_PendingList (ctx : Context) (id : ℕ) (channel : Channel) (Close : Bool) :
    (evtchnReap ctx id channel Close).PendingList = ctx.PendingList := by
  unfold evtchnReap
  dsimp only
  split_ifs <;> rfl

theorem evtchnReap_Table (ctx : Context) (id : ℕ) (channel : Channel) (Close : Bool) :
    (evtchnReap ctx id channel Close).Table = ctx.Table := by
  unfold evtchnReap
  dsimp only
  split_ifs <;> rfl

theorem evtchnReap_next (ctx : Context) (id : ℕ) (channel : Channel) (Close : Bool) :
    (evtchnReap ctx id channel Close).next = ctx.next := by
  unfold evtchnReap
  dsimp only
  split_ifs <;> rfl

section Marked

variable {ctx ctx' : Context} {id : ℕ} {o : Option Channel}
  (hch : ctx'.Channels = Function.update ctx.Channels id o) (hnext : ctx'.next = ctx.next)
include hch hnext

theorem Marked.update (ho : ∀ new, o = some new → Marked ctx id → new.Pending = true) (y : ℕ)
    (hy : Marked ctx y) : Marked ctx' y := by
  refine ⟨hnext ▸ hy.1, fun channel hchannel => ?_⟩
  rw [hch] at hchannel
  by_cases hyid : y = id
  · subst hyid
    rw [Function.update_self] at hchannel
    exact ho channel hchannel hy
  · rw [Function.update_of_ne hyid] at hchannel
    exact hy.2 channel hchannel

theorem Marked.update_of_ne (y : ℕ) (hyid : y ≠ id) (hy : Marked ctx y) : Marked ctx' y := by
  refine ⟨hnext ▸ hy.1, fun channel hchannel => ?_⟩
  rw [hch, Function.update_of_ne hyid] at hchannel
  exact hy.2 channel hchannel

end Marked

theorem Marked.touch {ctx ctx' : Context} {id : ℕ} {channel new : Channel}
    (hid : ctx.Channels id = some channel)
    (hch : ctx'.Channels = Function.update ctx.Channels id (some new)) (hnext : ctx'.next = ctx.next)
    (hnew : new.Pending = channel.Pending) (y : ℕ) (hy : Marked ctx y) : Marked ctx' y := by
  apply Marked.update hch hnext _ y hy
  intro new' hnew' hm
  obtain rfl := Option.some.inj hnew'
  exact hnew.trans (hm.2 channel hid)

theorem place_agent (hpc : t.pc = Function.update s.pc a pc') : place t (.inr a) = pc'.holding := by
  rw [place, hpc, Function.update_self]

theorem place_other (hpc : t.pc = Function.update s.pc a pc') {b : Agent ι} (hb : b ≠ a) :
    place t (.inr b) = place s (.inr b) := by
  rw [place, place, hpc, Function.update_of_ne hb]

section Tracked

variable (h : Tracked (place s) (Marked s.ctx)) (hpc : t.pc = Function.update s.pc a pc')
include h hpc

/-- The agent keeps what it has charge of. -/
theorem tracked_quiet (hlist : t.ctx.PendingList = s.ctx.PendingList)
    (hhold : pc'.holding = (s.pc a).holding) (hmark : ∀ y, Marked s.ctx y → Marked t.ctx y) :
    Tracked (place t) (Marked t.ctx) := by
  apply h.congr
  · rintro (Cpu | b)
    · rw [place, place, hlist]
    · by_cases hb : b = a
      · rw [hb, place_agent hpc, hhold]
        rfl
      · rw [place_other hpc hb]
  · exact fun _ y _ => hmark y

/-- The agent sets `Pending`. -/
theorem tracked_take {id : ℕ} {channel : Channel} (hid : s.ctx.Channels id = some channel)
    (hpending : channel.Pending = false) (hlist : t.ctx.PendingList = s.ctx.PendingList)
    (hhold : pc'.holding.Perm (id :: (s.pc a).holding)) {new : Channel} (hnew : new.Pending = true)
    (hch : t.ctx.Channels = Function.update s.ctx.Channels id (some new))
    (hnext : t.ctx.next = s.ctx.next) (hlt : id < s.ctx.next) : Tracked (place t) (Marked t.ctx) := by
  have hclear : ¬ Marked s.ctx id := fun hm => by simpa [hpending] using hm.2 channel hid
  apply h.add (h.not_mem hclear) (j := .inr a)
  · rw [place_agent hpc]
    exact hhold
  · rintro (Cpu | b) hb
    · rw [place, place, hlist]
    · exact place_other hpc fun hba => hb (congrArg _ hba)
  · refine ⟨hnext ▸ hlt, fun c hc => ?_⟩
    rw [hch, Function.update_self] at hc
    obtain rfl := Option.some.inj hc
    exact hnew
  · exact Marked.update_of_ne hch hnext

/-- The agent clears `Pending`: the channel is nowhere. -/
theorem tracked_drop {id : ℕ} {o : Option Channel} (hlist : t.ctx.PendingList = s.ctx.PendingList)
    (hhold : (s.pc a).holding.Perm (id :: pc'.holding))
    (hch : t.ctx.Channels = Function.update s.ctx.Channels id o) (hnext : t.ctx.next = s.ctx.next) :
    Tracked (place t) (Marked t.ctx) := by
  refine (h.drop (i := .inr a) (x := id) ?_ ?_ (Marked.update_of_ne hch hnext)).1
  · rw [place_agent hpc]
    exact hhold
  · rintro (Cpu | b) hb
    · rw [place, place, hlist]
    · exact place_other hpc fun hba => hb (congrArg _ hba)

/-- The agent puts a channel on a queue. -/
theorem tracked_insert {id Cpu : ℕ} (hhold : (s.pc a).holding.Perm (id :: pc'.holding))
    (hlist : t.ctx.PendingList =
      Function.update s.ctx.PendingList Cpu (s.ctx.PendingList Cpu ++ [id]))
    (hch : t.ctx.Channels = s.ctx.Channels) (hnext : t.ctx.next = s.ctx.next) :
    Tracked (place t) (Marked t.ctx) := by
  apply h.move (i := .inr a) (j := .inl Cpu) (x := id) (by simp)
  · rw [place_agent hpc]
    exact hhold
  · rw [place, place, hlist, Function.update_self]
    exact List.perm_append_singleton _ _
  · rintro (Cpu' | b) hb hb'
    · rw [place, place, hlist, Function.update_of_ne fun he => hb' (congrArg _ he)]
    · exact place_other hpc fun hba => hb (congrArg _ hba)
  · refine fun y hy => ⟨hnext ▸ hy.1, fun channel hchannel => ?_⟩
    rw [hch] at hchannel
    exact hy.2 channel hchannel

/-- The agent takes a channel off a queue. -/
theorem tracked_remove {id Cpu : ℕ} (hmem : id ∈ s.ctx.PendingList Cpu)
    (hhold : pc'.holding.Perm (id :: (s.pc a).holding))
    (hlist : t.ctx.PendingList =
      Function.update s.ctx.PendingList Cpu ((s.ctx.PendingList Cpu).erase id))
    (hch : t.ctx.Channels = s.ctx.Channels) (hnext : t.ctx.next = s.ctx.next) :
    Tracked (place t) (Marked t.ctx) := by
  apply h.move (i := .inl Cpu) (j := .inr a) (x := id) (by simp)
  · rw [place, place, hlist, Function.update_self]
    exact List.perm_cons_erase hmem
  · rw [place_agent hpc]
    exact hhold
  · rintro (Cpu' | b) hb hb'
    · rw [place, place, hlist, Function.update_of_ne fun he => hb (congrArg _ he)]
    · exact place_other hpc fun hba => hb' (congrArg _ hba)
  · refine fun y hy => ⟨hnext ▸ hy.1, fun channel hchannel => ?_⟩
    rw [hch] at hchannel
    exact hy.2 channel hchannel

end Tracked

/-- **Each access keeps every channel in one place**, with its `Pending` set. -/
theorem tracked_access (h : Tracked (place s) (Marked s.ctx))
    (hfresh : ∀ id channel, s.ctx.Channels id = some channel → id < s.ctx.next) (hpc : s.pc a = pc)
    (hacc : Access p s a pc t) : Tracked (place t) (Marked t.ctx) := by
  cases hacc with
  -- `Pending` is set
  | wasClear hid hpending =>
    exact tracked_take h rfl hid hpending rfl (by rw [hpc]; rfl) rfl rfl rfl (hfresh _ _ hid)
  | triggered hid hpending =>
    exact tracked_take h rfl hid hpending rfl (by rw [hpc]; rfl) rfl rfl rfl (hfresh _ _ hid)
  -- the channel goes on a queue, or comes off one
  | inserted hid => exact tracked_insert h rfl (by rw [hpc]; rfl) rfl rfl rfl
  | queued hid => exact tracked_insert h rfl (by rw [hpc]; rfl) rfl rfl rfl
  | tookClosed hid hmem _ =>
    exact tracked_remove h rfl hmem (by rw [hpc]; exact List.perm_append_singleton _ _) rfl rfl rfl
  | removed hid hmem => exact tracked_remove h rfl hmem (by rw [hpc]; rfl) rfl rfl rfl
  -- `Pending` is cleared
  | cleared hid => exact tracked_drop h rfl rfl (by rw [hpc]; rfl) rfl rfl
  | tookClear hid => exact tracked_drop h rfl rfl (by rw [hpc]; rfl) rfl rfl
  -- other fields of a channel
  | reaped hid =>
    exact tracked_quiet h rfl (evtchnReap_PendingList ..) (congrArg Pc.holding hpc).symm
      (Marked.update (evtchnReap_Channels ..) (evtchnReap_next ..) (by simp))
  | closeReaped hid =>
    exact tracked_quiet h rfl (evtchnReap_PendingList ..) (congrArg Pc.holding hpc).symm
      (Marked.update (evtchnReap_Channels ..) (evtchnReap_next ..) (by simp))
  | wasActive hid _ =>
    exact tracked_quiet h rfl rfl (congrArg Pc.holding hpc).symm (Marked.touch hid rfl rfl rfl)
  | markedClosed hid =>
    exact tracked_quiet h rfl rfl (congrArg Pc.holding hpc).symm (Marked.touch hid rfl rfl rfl)
  | bindStored hid =>
    exact tracked_quiet h rfl rfl (congrArg Pc.holding hpc).symm (Marked.touch hid rfl rfl rfl)
  | @released caller Cpu Queued =>
    refine tracked_quiet h rfl rfl ?_ fun _ hy => hy
    rw [hpc]
    cases Queued <;> rfl
  | _ => exact tracked_quiet h rfl rfl (congrArg Pc.holding hpc).symm fun _ hy => hy

/-! ## Who holds the locks -/

section Owned

variable (h : Owned p s) (hpc : t.pc = Function.update s.pc a pc')
include h hpc

theorem owned_keep (hlock : t.InterruptLock = s.InterruptLock)
    (hpc' : pc'.lock p = (s.pc a).lock p) : Owned p t := by
  intro b lock hb
  rw [hlock]
  by_cases hba : b = a
  · rw [hpc, hba, Function.update_self, hpc'] at hb
    exact hba ▸ h a lock hb
  · rw [hpc, Function.update_of_ne hba] at hb
    exact h b lock hb

theorem owned_acquire {lock : Interrupt} (hfree : s.InterruptLock lock = none)
    (hlock : t.InterruptLock = Function.update s.InterruptLock lock (some a))
    (hpc' : pc'.lock p = some lock) : Owned p t := by
  intro b lock' hb
  rw [hlock]
  by_cases hba : b = a
  · rw [hpc, hba, Function.update_self, hpc'] at hb
    rw [Option.some.inj hb, hba, Function.update_self]
  · rw [hpc, Function.update_of_ne hba] at hb
    have hb := h b lock' hb
    rwa [Function.update_of_ne fun he => by simp [he, hfree] at hb]

theorem owned_release {lock : Interrupt} (hheld : (s.pc a).lock p = some lock)
    (hlock : t.InterruptLock = Function.update s.InterruptLock lock none)
    (hpc' : pc'.lock p = none) : Owned p t := by
  intro b lock' hb
  rw [hlock]
  by_cases hba : b = a
  · simp [hpc, hba, hpc'] at hb
  · rw [hpc, Function.update_of_ne hba] at hb
    have hb := h b lock' hb
    rwa [Function.update_of_ne]
    rintro rfl
    exact hba (Option.some.inj (hb.symm.trans (h a _ hheld)))

end Owned

theorem owned_access (h : Owned p s) (hpc : s.pc a = pc) (hacc : Access p s a pc t) : Owned p t := by
  cases hacc with
  | flushLocked hfree => exact owned_acquire h rfl hfree rfl rfl
  | locked hfree => exact owned_acquire h rfl hfree rfl rfl
  | returned => exact owned_release h rfl (by rw [hpc]; rfl) rfl rfl
  | spliced => exact owned_release h rfl (by rw [hpc]; rfl) rfl rfl
  | @released caller Cpu Queued =>
    have hlock : (s.pc a).lock p = some (interrupt p Cpu) := by rw [hpc]; rfl
    refine owned_release h rfl hlock rfl ?_
    cases Queued <;> rfl
  | _ => exact owned_keep h rfl rfl (congrArg (Pc.lock p) hpc).symm

/-! ## Every step -/

theorem fits_access (h : a.Fits p pc) (hrange : InRange p s.ctx) (hacc : Access p s a pc t) :
    a.Fits p (t.pc a) := by
  cases hacc with
  | readCpu hid =>
    have hcpu := hrange _ _ hid
    rcases a with _ | _ | _ | _ <;> simp_all [Agent.Fits]
  | @released caller Cpu Queued =>
    rcases a with _ | _ | _ | _ <;> cases Queued <;> simp_all [Agent.Fits]
  | _ => rcases a with _ | _ | _ | _ <;> simp_all [Agent.Fits]

theorem update_eq_none {f : ℕ → Option Channel} {id : ℕ} {channel : Channel}
    (hid : f id = some channel) (o : Option Channel) (y : ℕ) (hy : f y = none) :
    Function.update f id o y = none := by
  rw [Function.update_of_ne, hy]
  rintro rfl
  exact Option.some_ne_none _ (hid.symm.trans hy)

/-- An access moves one agent, and opens no channel. -/
theorem frame_access (hacc : Access p s a pc t) :
    (∃ pc', t.pc = Function.update s.pc a pc') ∧ t.ctx.next = s.ctx.next ∧
      (∀ id, s.ctx.Channels id = none → t.ctx.Channels id = none) ∧ t.Closing = s.Closing ∧
      t.captured = s.captured := by
  cases hacc with
  | wasClear hid => exact ⟨⟨_, rfl⟩, rfl, update_eq_none hid _, rfl, rfl⟩
  | triggered hid => exact ⟨⟨_, rfl⟩, rfl, update_eq_none hid _, rfl, rfl⟩
  | cleared hid => exact ⟨⟨_, rfl⟩, rfl, update_eq_none hid _, rfl, rfl⟩
  | tookClear hid => exact ⟨⟨_, rfl⟩, rfl, update_eq_none hid _, rfl, rfl⟩
  | wasActive hid => exact ⟨⟨_, rfl⟩, rfl, update_eq_none hid _, rfl, rfl⟩
  | markedClosed hid => exact ⟨⟨_, rfl⟩, rfl, update_eq_none hid _, rfl, rfl⟩
  | bindStored hid => exact ⟨⟨_, rfl⟩, rfl, update_eq_none hid _, rfl, rfl⟩
  | reaped hid =>
    refine ⟨⟨_, rfl⟩, evtchnReap_next .., fun y hy => ?_, rfl, rfl⟩
    exact (congrFun (evtchnReap_Channels ..) y).trans (update_eq_none hid _ y hy)
  | @closeReaped id channel hid =>
    refine ⟨⟨_, rfl⟩, evtchnReap_next .., fun y hy => ?_, rfl, rfl⟩
    exact (congrFun (evtchnReap_Channels s.ctx id { channel with Closed := true } false) y).trans
      (update_eq_none hid _ y hy)
  | _ => exact ⟨⟨_, rfl⟩, rfl, fun _ hy => hy, rfl, rfl⟩

theorem InRange.update {ctx ctx' : Context} (h : InRange p ctx) {id : ℕ} {o : Option Channel}
    (hch : ctx'.Channels = Function.update ctx.Channels id o)
    (ho : ∀ new, o = some new → new.Cpu < p.ProcessorCount) : InRange p ctx' := by
  intro y c hc
  rw [hch] at hc
  by_cases hy : y = id
  · subst hy
    rw [Function.update_self] at hc
    exact ho c hc
  · rw [Function.update_of_ne hy] at hc
    exact h y c hc

/-- A change of a channel that keeps its processor. -/
theorem InRange.touch {ctx ctx' : Context} (h : InRange p ctx) {id : ℕ} {channel new : Channel}
    (hid : ctx.Channels id = some channel)
    (hch : ctx'.Channels = Function.update ctx.Channels id (some new))
    (hcpu : new.Cpu = channel.Cpu) : InRange p ctx' := by
  apply h.update hch
  rintro _ ⟨⟩
  exact hcpu.trans_lt (h id channel hid)

theorem range_access (h : InRange p s.ctx) (hfits : a.Fits p pc) (hacc : Access p s a pc t) :
    InRange p t.ctx := by
  cases hacc with
  | wasClear hid => exact h.touch hid rfl rfl
  | triggered hid => exact h.touch hid rfl rfl
  | cleared hid => exact h.touch hid rfl rfl
  | tookClear hid => exact h.touch hid rfl rfl
  | wasActive hid => exact h.touch hid rfl rfl
  | markedClosed hid => exact h.touch hid rfl rfl
  | reaped hid => exact h.update (evtchnReap_Channels ..) (by simp)
  | closeReaped hid => exact h.update (evtchnReap_Channels ..) (by simp)
  | bindStored hid =>
    apply h.update rfl
    rintro _ ⟨⟩
    rcases a with _ | _ | _ | _
    case thread => exact hfits
    all_goals exact hfits.elim
  | _ => exact h

theorem dpcs_access (h : ∀ Cpu, s.Dpc Cpu = true → Cpu < p.ProcessorCount) (hfits : a.Fits p pc)
    (hacc : Access p s a pc t) : ∀ Cpu, t.Dpc Cpu = true → Cpu < p.ProcessorCount := by
  cases hacc with
  | @insertedDpc caller Cpu =>
    intro Cpu' hCpu'
    by_cases hne : Cpu' = Cpu
    · rcases a with _ | _ | _ | _
      case thread => exact hne ▸ hfits
      all_goals exact hfits.elim
    · change Function.update s.Dpc Cpu true Cpu' = true at hCpu'
      rw [Function.update_of_ne hne] at hCpu'
      exact h Cpu' hCpu'
  | _ => exact h

/-- What an access at a program counter may do to a channel. -/
structure Follows (pc : Pc) (id : ℕ) (channel new : Channel) : Prop where
  pending : new.Pending = true → channel.Pending = true ∨ pc.testing = some id
  closed : new.Closed = true ↔ channel.Closed = true ∨ pc = .closeMark id
  active : new.Active = true ↔ channel.Active = true ∧ pc ≠ .closeTest id
  cpu : new.Cpu = channel.Cpu ∨ ∃ Cpu, pc = .bindStore id Cpu
  port : new.LocalPort = channel.LocalPort

theorem channels_access {channel new : Channel} (hacc : Access p s a pc t) {id : ℕ}
    (hid : s.ctx.Channels id = some channel) (hnew : t.ctx.Channels id = some new) :
    Follows pc id channel new := by
  have hset : ∀ {id' c o}, s.ctx.Channels id' = some c →
      Function.update s.ctx.Channels id' o id = some new →
        id' = id ∧ c = channel ∧ o = some new ∨ id' ≠ id ∧ channel = new := by
    intro id' c o hc hu
    by_cases hne : id = id'
    · subst hne
      rw [Function.update_self] at hu
      exact .inl ⟨rfl, Option.some.inj (hc.symm.trans hid), hu⟩
    · rw [Function.update_of_ne hne, hid] at hu
      exact .inr ⟨Ne.symm hne, Option.some.inj hu⟩
  cases hacc with
  | wasClear hc | triggered hc =>
    obtain ⟨rfl, rfl, ho⟩ | ⟨hne, rfl⟩ := hset hc hnew
    · obtain rfl := Option.some.inj ho
      exact ⟨fun _ => .inr rfl, by simp, by simp, .inl rfl, rfl⟩
    · exact ⟨.inl, by simp, by simp, .inl rfl, rfl⟩
  | cleared hc | tookClear hc =>
    obtain ⟨rfl, rfl, ho⟩ | ⟨hne, rfl⟩ := hset hc hnew
    · obtain rfl := Option.some.inj ho
      exact ⟨by simp, by simp, by simp, .inl rfl, rfl⟩
    · exact ⟨.inl, by simp, by simp, .inl rfl, rfl⟩
  | @bindStored _ Cpu _ hc =>
    obtain ⟨rfl, rfl, ho⟩ | ⟨hne, rfl⟩ := hset hc hnew
    · obtain rfl := Option.some.inj ho
      exact ⟨.inl, by simp, by simp, .inr ⟨Cpu, rfl⟩, rfl⟩
    · exact ⟨.inl, by simp, by simp, .inl rfl, rfl⟩
  | wasActive hc | markedClosed hc =>
    obtain ⟨rfl, rfl, ho⟩ | ⟨hne, rfl⟩ := hset hc hnew
    · obtain rfl := Option.some.inj ho
      exact ⟨.inl, by simp, by simp, .inl rfl, rfl⟩
    · exact ⟨.inl, by simp [hne], by simp [hne], .inl rfl, rfl⟩
  | reaped hc | closeReaped hc =>
    rw [State.goto_ctx, State.put_ctx, evtchnReap_Channels] at hnew
    obtain ⟨-, -, ho⟩ | ⟨-, rfl⟩ := hset hc hnew
    · cases ho
    · exact ⟨.inl, by simp, by simp, .inl rfl, rfl⟩
  | wasInactive hc hactive =>
    obtain rfl := Option.some.inj (hid.symm.trans hnew)
    refine ⟨.inl, by simp, ⟨fun ha => ⟨ha, ?_⟩, fun ha => ha.1⟩, .inl rfl, rfl⟩
    rintro ⟨⟩
    obtain rfl := Option.some.inj (hid.symm.trans hc)
    exact absurd (ha.symm.trans hactive) (by simp)
  | _ =>
    obtain rfl := Option.some.inj (hid.symm.trans hnew)
    exact ⟨.inl, by simp, by simp, .inl rfl, rfl⟩

theorem Sound.access (h : Sound p s) (hacc : Access p s a (s.pc a) t) : Sound p t := by
  obtain ⟨⟨pc', hpc⟩, hnext, hchannels, -, -⟩ := frame_access hacc
  refine ⟨tracked_access h.tracked h.fresh rfl hacc, owned_access h.owned rfl hacc, fun b => ?_,
    fun id channel hid => ?_, range_access h.range (h.fits a) hacc,
    dpcs_access h.dpcs (h.fits a) hacc⟩
  · by_cases hb : b = a
    · exact hb ▸ fits_access (h.fits a) h.range hacc
    · rw [hpc, Function.update_of_ne hb]
      exact h.fits b
  · cases hs : s.ctx.Channels id with
    | none => exact absurd (hid.symm.trans (hchannels id hs)) (Option.some_ne_none _)
    | some c => exact hnext ▸ h.fresh id c hs

/-- Opening a port changes nothing but a route. -/
theorem openPort_route {ctx : Context} {args : Arguments} {port : Option ℕ} {r : ℕ × Context}
    (h : openPort p ctx args port = some r) : r.2 = { ctx with Route := r.2.Route } := by
  cases args with
  | fixed LocalPort =>
    obtain rfl := Option.some.inj h
    rfl
  | unbound _ =>
    obtain ⟨LocalPort, -, rfl⟩ := Option.map_eq_some_iff.mp h
    rfl
  | interDomain _ _ =>
    obtain ⟨LocalPort, -, rfl⟩ := Option.map_eq_some_iff.mp h
    rfl
  | virq _ Cpu =>
    simp only [openPort] at h
    split_ifs at h
    obtain ⟨vcpu_id, -, h⟩ := Option.bind_eq_some_iff.mp h
    obtain ⟨LocalPort, -, rfl⟩ := Option.map_eq_some_iff.mp h
    rfl

/-- What `EvtchnOpen` changes: nothing but routes, or there is a new channel. -/
theorem evtchnOpen_cases (ctx : Context) (args : Arguments) (answers : Answers) :
    (evtchnOpen p ctx args answers).2.PendingList = ctx.PendingList ∧
      ((evtchnOpen p ctx args answers).2.Channels = ctx.Channels ∧
          (evtchnOpen p ctx args answers).2.next = ctx.next ∧
          (evtchnOpen p ctx args answers).2.Table = ctx.Table ∨
        ∃ r, openPort p ctx args answers.port = some r ∧
          (evtchnOpen p ctx args answers).2.Channels = Function.update ctx.Channels ctx.next
            (some ⟨false, true, args.type, r.1, 0, false⟩) ∧
          (evtchnOpen p ctx args answers).2.next = ctx.next + 1 ∧
          (evtchnOpen p ctx args answers).2.Table = ctx.Table ++ [(r.1, ctx.next)]) := by
  unfold evtchnOpen
  split_ifs
  · exact ⟨rfl, .inl ⟨rfl, rfl, rfl⟩⟩
  · cases hport : openPort p ctx args answers.port with
    | none => exact ⟨rfl, .inl ⟨rfl, rfl, rfl⟩⟩
    | some r =>
      obtain ⟨LocalPort, ctx'⟩ := r
      have hctx : ctx' = { ctx with Route := ctx'.Route } := openPort_route hport
      rw [hctx]
      dsimp only
      unfold openChannel
      split_ifs
      · exact ⟨rfl, .inl ⟨rfl, rfl, rfl⟩⟩
      · exact ⟨rfl, .inl ⟨rfl, rfl, rfl⟩⟩
      · exact ⟨rfl, .inr ⟨_, rfl, rfl, rfl, rfl⟩⟩

/-- `Channel->Active = FALSE`. -/
def deactivate (channel : Channel) : Channel := { channel with Active := false }

theorem suspendOne_Channels (ctx : Context) (id : ℕ) :
    (suspendOne ctx id).Channels =
      Function.update ctx.Channels id ((ctx.Channels id).map deactivate) := by
  unfold suspendOne
  split
  case h_1 hid => rw [hid, Option.map_none, ← hid, Function.update_eq_self]
  case h_2 channel hid =>
    rw [hid, Option.map_some]
    split_ifs with hactive
    · rfl
    · have hsame : deactivate channel = channel := by
        rw [deactivate, ← Bool.not_eq_true _ |>.mp hactive]
      rw [hsame, ← hid, Function.update_eq_self]

theorem suspendOne_frame (ctx : Context) (id : ℕ) :
    (suspendOne ctx id).next = ctx.next ∧ (suspendOne ctx id).PendingList = ctx.PendingList := by
  unfold suspendOne
  split
  · exact ⟨rfl, rfl⟩
  · split_ifs <;> exact ⟨rfl, rfl⟩

theorem foldl_suspendOne (ids : List ℕ) (ctx : Context) :
    (ids.foldl suspendOne ctx).next = ctx.next ∧
      (ids.foldl suspendOne ctx).PendingList = ctx.PendingList ∧
      ∀ y, (ids.foldl suspendOne ctx).Channels y =
        if y ∈ ids then (ctx.Channels y).map deactivate else ctx.Channels y := by
  induction ids generalizing ctx with
  | nil => exact ⟨rfl, rfl, fun _ => by simp⟩
  | cons id ids ih =>
    obtain ⟨hnext, hlist, hch⟩ := ih (suspendOne ctx id)
    obtain ⟨hnext', hlist'⟩ := suspendOne_frame ctx id
    refine ⟨hnext.trans hnext', hlist.trans hlist', fun y => ?_⟩
    rw [List.foldl_cons, hch, suspendOne_Channels]
    by_cases hy : y = id
    · subst hy
      rw [Function.update_self]
      cases ctx.Channels y <;> simp [deactivate]
    · rw [Function.update_of_ne hy]
      simp [hy]

/-- **The early callback** makes every channel inactive. -/
theorem suspendEarly_Channels {ctx : Context}
    (h : ∀ id channel, ctx.Channels id = some channel → id < ctx.next) (y : ℕ) :
    (suspendEarly ctx).Channels y = (ctx.Channels y).map deactivate := by
  rw [suspendEarly, (foldl_suspendOne _ _).2.2]
  split_ifs with hy
  · rfl
  · cases hch : ctx.Channels y with
    | none => rfl
    | some channel => exact absurd (List.mem_range.mpr (h y channel hch)) hy

/-- A step that starts an agent, without a lock. -/
theorem Sound.start (h : Sound p s) (hctx : t.ctx = s.ctx) (hlock : t.InterruptLock = s.InterruptLock)
    (hdpcs : ∀ Cpu, t.Dpc Cpu = true → s.Dpc Cpu = true)
    (hpc : t.pc = Function.update s.pc a pc') (hidle : s.pc a = .idle) (hhold : pc'.holding = [])
    (hnolock : pc'.lock p = none) (hfits : a.Fits p pc') : Sound p t := by
  refine ⟨?_, ?_, fun b => ?_, hctx ▸ h.fresh, hctx ▸ h.range, fun Cpu hCpu =>
    h.dpcs Cpu (hdpcs Cpu hCpu)⟩
  · apply tracked_quiet h.tracked hpc (by rw [hctx]) (by rw [hhold, hidle]; rfl)
    rw [hctx]
    exact fun _ hy => hy
  · exact owned_keep h.owned hpc hlock (by rw [hnolock, hidle]; rfl)
  · by_cases hb : b = a
    · rw [hb, hpc, Function.update_self]
      exact hfits
    · rw [hpc, Function.update_of_ne hb]
      exact h.fits b

/-- A step that starts an agent with a lock, which it takes. -/
theorem Sound.start_locked (h : Sound p s) {Cpu : ℕ} {lock : Interrupt} (hctx : t.ctx = s.ctx)
    (hfree : s.InterruptLock lock = none)
    (hlock : t.InterruptLock = Function.update s.InterruptLock lock (some a)) (hdpcs : t.Dpc = s.Dpc)
    (hpc : t.pc = Function.update s.pc a (.polled Cpu lock none)) (hidle : s.pc a = .idle)
    (hfits : a.Fits p (.polled Cpu lock none)) : Sound p t := by
  refine ⟨?_, owned_acquire h.owned hpc hfree hlock rfl, fun b => ?_, hctx ▸ h.fresh, hctx ▸ h.range,
    hdpcs ▸ h.dpcs⟩
  · apply tracked_quiet h.tracked hpc (by rw [hctx]) (by rw [hidle]; rfl)
    rw [hctx]
    exact fun _ hy => hy
  · by_cases hb : b = a
    · rw [hb, hpc, Function.update_self]
      exact hfits
    · rw [hpc, Function.update_of_ne hb]
      exact h.fits b

omit [DecidableEq ι] in
/-- A step that changes fields of channels, other than `Pending`, or opens one. -/
theorem Sound.silent (h : Sound p s) (hpc : t.pc = s.pc) (hlock : t.InterruptLock = s.InterruptLock)
    (hdpcs : t.Dpc = s.Dpc) (hlist : t.ctx.PendingList = s.ctx.PendingList)
    (hmark : ∀ y, Marked s.ctx y → Marked t.ctx y)
    (hfresh : ∀ id channel, t.ctx.Channels id = some channel → id < t.ctx.next)
    (hrange : InRange p t.ctx) : Sound p t := by
  refine ⟨h.tracked.congr ?_ fun _ y _ => hmark y, fun b lock hb => ?_, fun b => ?_, hfresh, hrange,
    hdpcs ▸ h.dpcs⟩
  · rintro (Cpu | b)
    · rw [place, place, hlist]
    · rw [place, place, hpc]
  · rw [hlock]
    exact h.owned b lock (hpc ▸ hb)
  · rw [hpc]
    exact h.fits b

omit [DecidableEq ι] in
theorem Sound.opened (h : Sound p s) {args : Arguments} (answers : Answers)
    (hcount : args.Cpu < p.ProcessorCount) : Sound p (s.put (evtchnOpen p s.ctx args answers).2) := by
  obtain ⟨hlist, ⟨hch, hnext, -⟩ | ⟨r, -, hch, hnext, -⟩⟩ := evtchnOpen_cases (p := p) s.ctx args answers
  · apply h.silent
    · rfl
    · rfl
    · rfl
    · exact hlist
    · refine fun y hy => ⟨hnext ▸ hy.1, fun channel hc => hy.2 channel ?_⟩
      rwa [State.put_ctx, hch] at hc
    · intro id channel hid
      rw [State.put_ctx, hch] at hid
      exact hnext ▸ h.fresh id channel hid
    · intro id channel hid
      rw [State.put_ctx, hch] at hid
      exact h.range id channel hid
  · apply h.silent
    · rfl
    · rfl
    · rfl
    · exact hlist
    · refine fun y hy => ⟨?_, fun channel hc => ?_⟩
      · rw [State.put_ctx, hnext]
        exact Nat.lt_succ_of_lt hy.1
      · rw [State.put_ctx, hch, Function.update_of_ne hy.1.ne] at hc
        exact hy.2 channel hc
    · intro id channel hid
      rw [State.put_ctx, hch] at hid
      rw [State.put_ctx, hnext]
      by_cases hne : id = s.ctx.next
      · omega
      · rw [Function.update_of_ne hne] at hid
        have := h.fresh id channel hid
        omega
    · apply h.range.update hch
      rintro _ ⟨⟩
      exact Nat.zero_lt_of_lt hcount

variable [Fintype ι] {act : Action ι}

/-- **Each step keeps the general invariant.** -/
theorem Sound.step (h : Sound p s) (hs : step p s act = some t) : Sound p t := by
  cases act with
  | opened args answers =>
    simp only [Concurrent.step] at hs
    split_ifs at hs with hopen
    obtain rfl := Option.some.inj hs
    exact h.opened answers hopen.2.1
  | call τ id call =>
    simp only [Concurrent.step] at hs
    split_ifs at hs with hcall
    cases call with
    | trigger =>
      obtain rfl := Option.some.inj hs
      exact h.start rfl rfl (fun _ hd => hd) rfl hcall.2.1 rfl rfl trivial
    | close =>
      obtain rfl := Option.some.inj hs
      exact h.start rfl rfl (fun _ hd => hd) rfl hcall.2.1 rfl rfl trivial
    | bind Cpu =>
      dsimp only at hs
      split_ifs at hs with hCpu
      obtain rfl := Option.some.inj hs
      exact h.start rfl rfl (fun _ hd => hd) rfl hcall.2.1 rfl rfl hCpu
  | upcall Cpu =>
    simp only [Concurrent.step] at hs
    split_ifs at hs with hidle
    obtain ⟨u, hu, rfl⟩ := Option.map_eq_some_iff.mp hs
    obtain ⟨hfree, rfl⟩ := acquire_eq_some hu
    exact h.start_locked rfl hfree rfl rfl rfl hidle.2 ⟨rfl, hidle.1, rfl, rfl⟩
  | dispatch Cpu =>
    simp only [Concurrent.step] at hs
    split_ifs at hs with hdpc
    obtain rfl := Option.some.inj hs
    refine h.start rfl rfl (fun Cpu' hd => ?_) rfl hdpc.2.2.2 rfl rfl ⟨rfl, hdpc.2.2.1⟩
    by_cases hne : Cpu' = Cpu
    · rw [hne]
      exact hdpc.2.1
    · change Function.update s.Dpc Cpu false Cpu' = true at hd
      rwa [Function.update_of_ne hne] at hd
  | run a choice =>
    simp only [Concurrent.step] at hs
    split_ifs at hs
    exact h.access (access_of_runStep hs)
  | early =>
    simp only [Concurrent.step] at hs
    split_ifs at hs
    obtain rfl := Option.some.inj hs
    obtain ⟨hnext, hlist, -⟩ := foldl_suspendOne (List.range s.ctx.next) s.ctx
    have hch := suspendEarly_Channels h.fresh
    apply h.silent
    · rfl
    · rfl
    · rfl
    · exact hlist
    · refine fun y hy => ⟨hy.1.trans_eq hnext.symm, fun channel hc => ?_⟩
      obtain ⟨c, hc', rfl⟩ := Option.map_eq_some_iff.mp ((hch y).symm.trans hc)
      exact hy.2 c hc'
    · intro id channel hid
      obtain ⟨c, hc, -⟩ := Option.map_eq_some_iff.mp ((hch id).symm.trans hid)
      exact (h.fresh id c hc).trans_eq hnext.symm
    · intro id channel hid
      obtain ⟨c, hc, rfl⟩ := Option.map_eq_some_iff.mp ((hch id).symm.trans hid)
      exact h.range id c hc
  | late =>
    simp only [Concurrent.step] at hs
    split_ifs at hs with hidle
    split at hs
    · obtain rfl := Option.some.inj hs
      exact h.silent rfl rfl rfl rfl (fun _ hy => hy) h.fresh h.range
    · obtain ⟨u, hu, rfl⟩ := Option.map_eq_some_iff.mp hs
      obtain ⟨hfree, rfl⟩ := acquire_eq_some hu
      exact h.start_locked rfl hfree rfl rfl rfl hidle.2 rfl

omit [DecidableEq ι] [Fintype ι] in
theorem sound_init (Route : ℕ → Option ℕ) : Sound p (init Route : State ι) where
  tracked :=
    ⟨by rintro (_ | _) <;> exact List.nodup_nil,
      by rintro (_ | _) _ _ hx <;> exact absurd hx List.not_mem_nil,
      by rintro (_ | _) _ hx <;> exact absurd hx List.not_mem_nil⟩
  owned _ _ h := by cases h
  fits a := by cases a <;> trivial
  fresh _ _ h := by cases h
  range _ _ h := by cases h
  dpcs _ h := by cases h

end XenBus.Evtchn.Concurrent
