import XenBus.Evtchn.Reaping
import XenBus.Evtchn.Routing

/-!
# Who can reach a channel

The invariant behind the freeing of channels, and that each access of an agent keeps it. A poll that
has a channel from the table, a DPC that has taken a closed one off its queue, a thread that closes one
and the table itself are kept apart: a poll of the channel's processor holds the lock that the DPC
needs to take the channel, a closed channel is not in the table any more, and a channel that a suspend
has made inactive is in no poll's hands (`Apart`).
-/

namespace XenBus.Evtchn.Concurrent

open Transition Placement

variable {ι : Type} {p : Platform} {s t : State ι} {a : Agent ι} {pc pc' : Pc} {id Cpu : ℕ}

/-! ## Reading a program counter -/

/-- The list of `EvtchnFlush`. -/
def Pc.flushList : Pc → List ℕ
  | .polling _ _ flush _ | .polled _ _ flush => flush.getD []
  | .flushing _ List | .taken _ _ List | .reaping _ _ List => List
  | _ => []

/-- `EvtchnPollCallback`, for the processor, has the channel from the table. -/
def Pc.refs : Pc → Option (ℕ × ℕ)
  | .polling Cpu _ _ (.found id) | .polling Cpu _ _ (.matched id)
  | .polling Cpu _ _ (.inserting id) => some (Cpu, id)
  | _ => none

/-- The agent has read that the channel is on the processor. -/
def Pc.aims : Pc → Option (ℕ × ℕ)
  | .polling Cpu _ _ (.matched id) | .polling Cpu _ _ (.inserting id) | .triggerLock _ id Cpu
  | .triggerSet _ id Cpu | .triggerInsert _ id Cpu => some (Cpu, id)
  | _ => none

/-- The channel of an `EvtchnClose` that has not got as far as its `EvtchnTrigger`. -/
def Pc.closing : Pc → Option ℕ
  | .closeTest id | .closeTable id | .closeMark id | .closeLock id | .closeReap id => some id
  | _ => none

/-- `EvtchnClose` has made the channel inactive, and has yet to mark it. -/
def Pc.shuts : Pc → Option ℕ
  | .closeTable id | .closeMark id => some id
  | _ => none

/-- `EvtchnClose` has found the channel inactive, and is about to free it. -/
def Pc.leaves : Pc → Option ℕ
  | .closeLock id | .closeReap id => some id
  | _ => none

/-- The channels that an agent has been given, or has found. -/
def Pc.mentions : Pc → List ℕ
  | .polling _ _ flush (.found id) | .polling _ _ flush (.matched id)
  | .polling _ _ flush (.inserting id) => id :: flush.getD []
  | .polling _ _ flush _ | .polled _ _ flush => flush.getD []
  | .flushing _ List => List
  | .taken _ id List | .reaping _ id List => id :: List
  | .triggerRead _ id | .triggerLock _ id _ | .triggerSet _ id _ | .triggerInsert _ id _ => [id]
  | .closeTest id | .closeTable id | .closeMark id | .closeLock id | .closeReap id => [id]
  | _ => []

/-- `EvtchnBind`. -/
def Pc.binds : Pc → Bool
  | .bindLock _ _ | .bindCall _ _ | .bindStore _ _ => true
  | _ => false

/-! ## What is promised -/

/-- **Nothing reaches a channel that is freed**: `Pending` is clear, no queue and no list of a flush
has the channel, and the table does not. -/
def Unreachable (s : State ι) (id : ℕ) (channel : Channel) : Prop :=
  channel.Pending = false ∧ (∀ Cpu, id ∉ s.ctx.PendingList Cpu) ∧
    (∀ a, id ∉ (s.pc a).flushList) ∧ ∀ port, (port, id) ∉ s.ctx.Table

/-- The steps that keep the promise, in a run without `EvtchnBind`: an `EvtchnClose` that finds its
channel inactive finds its `Pending` clear, and no `EvtchnTrigger` tests `Pending` of a channel between
that, or the clearing of it in `EvtchnFlush`, and `EvtchnReap`. -/
def Parted (p : Platform) (s : State ι) : Action ι → Prop
  | .call _ _ (.bind _) => False
  | .run a _ =>
    (∀ id channel, s.pc a = .closeTest id → s.ctx.Channels id = some channel →
        channel.Active = false → channel.Pending = false) ∧
      ∀ caller id Cpu, s.pc a = .triggerSet caller id Cpu →
        (∀ Cpu < p.ProcessorCount, (s.pc (.dpc Cpu)).reaps ≠ some id) ∧
          ∀ τ, (s.pc (.thread τ)).leaves ≠ some id
  | _ => True

/-- The channel is active, or it has been closed, or `EvtchnClose` is about to mark it: no suspend has
made it inactive while it was open. -/
def Engaged (s : State ι) (id : ℕ) (channel : Channel) : Prop :=
  channel.Active = true ∨ channel.Closed = true ∨ ∃ τ, (s.pc (.thread τ)).shuts = some id

/-! ## The invariant -/

/-- What an agent relies on at a program counter. -/
structure Relies (s : State ι) (pc : Pc) : Prop where
  aims : ∀ Cpu id channel, pc.aims = some (Cpu, id) → s.ctx.Channels id = some channel →
    channel.Cpu = Cpu
  spliced : ∀ id channel, id ∈ pc.spliced → s.ctx.Channels id = some channel → channel.Closed = true
  reaps : ∀ id channel, pc.reaps = some id → s.ctx.Channels id = some channel →
    channel.Pending = false
  leaves : ∀ id channel, pc.leaves = some id → s.ctx.Channels id = some channel →
    channel.Pending = false ∧ channel.Active = false
  shuts : ∀ id channel, pc.shuts = some id → s.ctx.Channels id = some channel →
    channel.Active = false
  closing : ∀ id channel, pc.closing = some id → s.ctx.Channels id = some channel →
    channel.Closed = false
  binds : pc.binds = false

/-- The invariant. -/
structure Apart (p : Platform) (s : State ι) : Prop where
  sound : Sound p s
  fresh : ∀ a id, id ∈ (s.pc a).mentions → id < s.ctx.next
  relies : ∀ a, Relies s (s.pc a)
  /-- During a suspend, no thread and no DPC is anywhere, and no channel is active. -/
  captured : s.captured = true → (∀ Cpu, s.pc (.dpc Cpu) = .idle) ∧
    (∀ τ, (s.pc (.thread τ)).belowDispatch = true) ∧
    ∀ id channel, s.ctx.Channels id = some channel → channel.Active = false
  late : s.pc .late ≠ .idle → s.captured = true
  queue : ∀ Cpu id channel, id ∈ s.ctx.PendingList Cpu → s.ctx.Channels id = some channel →
    channel.Cpu = Cpu
  table : ∀ port id, (port, id) ∈ s.ctx.Table → ∃ channel, s.ctx.Channels id = some channel ∧
    channel.LocalPort = port ∧ channel.Closed = false ∧
      (channel.Active = true ∨ ∃ τ, s.pc (.thread τ) = .closeTable id)
  keys : (s.ctx.Table.map Prod.fst).Nodup
  /-- One thread closes a channel, once. -/
  closer : ∀ τ τ' id, (s.pc (.thread τ)).closing = some id → (s.pc (.thread τ')).closing = some id →
    τ = τ'
  closing : ∀ id, (∃ τ, (s.pc (.thread τ)).closing = some id) ∨
    (∃ channel, s.ctx.Channels id = some channel ∧ channel.Closed = true) → s.Closing id = true
  /-- A channel in the hands of a poll is active, or it is being closed, or it has been. -/
  referred : ∀ a Cpu id channel, (s.pc a).refs = some (Cpu, id) → s.ctx.Channels id = some channel →
    channel.Active = true ∨ channel.Closed = true ∨ ∃ τ, (s.pc (.thread τ)).shuts = some id
  /-- A poll of the channel's processor does not have a channel that is about to be freed. -/
  apart : ∀ a id channel, (s.pc a).refs = some (channel.Cpu, id) →
    s.ctx.Channels id = some channel → (∀ Cpu, id ∉ (s.pc (.dpc Cpu)).spliced) ∧
      ∀ τ, (s.pc (.thread τ)).leaves ≠ some id

/-! ## The invariant gives the promise -/

theorem mem_flushList (h : id ∈ pc.flushList) : id ∈ pc.holding := by
  cases pc with
  | polling Cpu lock flush poll => exact List.mem_append_right _ h
  | taken Cpu id' List => exact List.mem_cons_of_mem _ h
  | polled | flushing | reaping => exact h
  | _ => exact absurd h List.not_mem_nil

/-- A channel whose `Pending` is clear is on no queue and on no list. -/
theorem Sound.unplaced (h : Sound p s) {channel : Channel} (hid : s.ctx.Channels id = some channel)
    (hpending : channel.Pending = false) :
    (∀ Cpu, id ∉ s.ctx.PendingList Cpu) ∧ ∀ a, id ∉ (s.pc a).flushList := by
  have hnone : ∀ k, id ∉ place s k :=
    h.tracked.not_mem fun hm => by simpa [hpending] using hm.2 channel hid
  exact ⟨fun Cpu => hnone (.inl Cpu), fun a hmem => hnone (.inr a) (mem_flushList hmem)⟩

/-- A thread, at a program counter of `EvtchnClose`. -/
theorem Sound.thread_of_closing (h : Sound p s) (hclosing : (s.pc a).closing = some id) :
    ∃ τ, a = .thread τ := by
  have hfits := h.fits a
  generalize s.pc a = pc at hfits hclosing
  rcases a with _ | _ | τ | _
  case thread => exact ⟨τ, rfl⟩
  all_goals cases pc <;> first | exact hfits.elim | cases hclosing

/-- A DPC, between the clearing of `Pending` and `EvtchnReap`. -/
theorem Sound.dpc_of_reaps (h : Sound p s) (hreaps : (s.pc a).reaps = some id) :
    ∃ Cpu < p.ProcessorCount, a = .dpc Cpu := by
  have hfits := h.fits a
  generalize s.pc a = pc at hfits hreaps
  rcases a with _ | Cpu | _ | _
  case dpc =>
    cases pc with
    | reaping => exact ⟨Cpu, hfits.2, rfl⟩
    | _ => cases hreaps
  all_goals cases pc <;> first | exact hfits.elim | cases hreaps

theorem spliced_of_reaps (h : pc.reaps = some id) : id ∈ pc.spliced := by
  cases pc with
  | reaping Cpu id' List =>
    obtain rfl := Option.some.inj h
    exact List.mem_cons_self
  | _ => cases h

theorem mentions_of_spliced (h : id ∈ pc.spliced) : id ∈ pc.mentions := by
  cases pc with
  | polling Cpu lock flush poll =>
    cases poll with
    | found | matched | inserting => exact List.mem_cons_of_mem _ h
    | _ => exact h
  | polled | flushing | taken | reaping => exact h
  | _ => exact absurd h List.not_mem_nil

theorem mentions_of_aims (h : pc.aims = some (Cpu, id)) : id ∈ pc.mentions := by
  cases pc with
  | polling Cpu lock flush poll =>
    cases poll with
    | matched | inserting => exact List.mem_cons.mpr (.inl (Prod.ext_iff.mp (Option.some.inj h)).2.symm)
    | _ => cases h
  | triggerLock | triggerSet | triggerInsert =>
    exact List.mem_singleton.mpr (Prod.ext_iff.mp (Option.some.inj h)).2.symm
  | _ => cases h

theorem mentions_of_refs (h : pc.refs = some (Cpu, id)) : id ∈ pc.mentions := by
  cases pc with
  | polling Cpu lock flush poll =>
    cases poll with
    | found | matched | inserting =>
      exact List.mem_cons.mpr (.inl (Prod.ext_iff.mp (Option.some.inj h)).2.symm)
    | _ => cases h
  | _ => cases h

theorem mentions_of_closing (h : pc.closing = some id) : id ∈ pc.mentions := by
  cases pc with
  | closeTest | closeTable | closeMark | closeLock | closeReap =>
    exact List.mem_singleton.mpr (Option.some.inj h).symm
  | _ => cases h

theorem closing_of_leaves (h : pc.leaves = some id) : pc.closing = some id := by
  cases pc <;> first | exact h | cases h

theorem closing_of_shuts (h : pc.shuts = some id) : pc.closing = some id := by
  cases pc <;> first | exact h | cases h

/-- The channels that are in the table are not about to be freed. -/
theorem Apart.not_mem_table (h : Apart p s) {channel : Channel}
    (hid : s.ctx.Channels id = some channel)
    (hfree : channel.Closed = true ∨ ∃ τ, (s.pc (.thread τ)).leaves = some id) (port : ℕ) :
    (port, id) ∉ s.ctx.Table := by
  intro hmem
  obtain ⟨c, hc, -, hopen, hactive⟩ := h.table port id hmem
  obtain rfl := Option.some.inj (hid.symm.trans hc)
  obtain hclosed | ⟨τ, hτ⟩ := hfree
  · exact absurd (hclosed.symm.trans hopen) (by simp)
  · obtain hactive | ⟨τ', hτ'⟩ := hactive
    · exact absurd (((h.relies _).leaves id channel hτ hid).2.symm.trans hactive) (by simp)
    · obtain rfl := h.closer τ τ' id (closing_of_leaves hτ) (by rw [hτ']; rfl)
      rw [hτ'] at hτ
      cases hτ

section Access

variable [DecidableEq ι]

/-- An access that frees a channel. -/
theorem free_access (hacc : Access p s a pc t) {channel : Channel}
    (hid : s.ctx.Channels id = some channel) (hfree : t.ctx.Channels id = none) :
    pc.reaps = some id ∨ pc.leaves = some id := by
  have hset : ∀ {id' new}, Function.update s.ctx.Channels id' (some new) id ≠ none := by
    intro id' new hu
    by_cases hne : id = id'
    · rw [hne, Function.update_self] at hu
      cases hu
    · rw [Function.update_of_ne hne, hid] at hu
      cases hu
  cases hacc with
  | wasClear | triggered | cleared | tookClear | wasActive | markedClosed | bindStored =>
    exact absurd hfree hset
  | @reaped Cpu id' List | @closeReaped id' =>
    rw [State.goto_ctx, State.put_ctx, evtchnReap_Channels] at hfree
    by_cases hne : id = id'
    · subst hne
      first | exact .inl rfl | exact .inr rfl
    · rw [Function.update_of_ne hne, hid] at hfree
      cases hfree
  | _ => exact absurd (hid.symm.trans hfree) (Option.some_ne_none _)

theorem Apart.unreachable (h : Apart p s) (hacc : Access p s a (s.pc a) t) {channel : Channel}
    (hid : s.ctx.Channels id = some channel) (hfree : t.ctx.Channels id = none) :
    Unreachable s id channel := by
  obtain hreaps | hleaves := free_access hacc hid hfree
  · have hpending := (h.relies a).reaps id channel hreaps hid
    obtain ⟨hqueue, hlist⟩ := h.sound.unplaced hid hpending
    refine ⟨hpending, hqueue, hlist, h.not_mem_table hid (.inl ?_)⟩
    exact (h.relies a).spliced id channel (spliced_of_reaps hreaps) hid
  · have hpending := ((h.relies a).leaves id channel hleaves hid).1
    obtain ⟨hqueue, hlist⟩ := h.sound.unplaced hid hpending
    obtain ⟨τ, rfl⟩ := h.sound.thread_of_closing (closing_of_leaves hleaves)
    exact ⟨hpending, hqueue, hlist, h.not_mem_table hid (.inr ⟨τ, hleaves⟩)⟩

/-! ## How an access changes a program counter -/

theorem aims_access (hacc : Access p s a pc t) (h : (t.pc a).aims = some (Cpu, id)) :
    pc.aims = some (Cpu, id) ∨ ∃ channel, s.ctx.Channels id = some channel ∧ channel.Cpu = Cpu := by
  cases hacc with
  | sameCpu hid hcpu =>
    rw [State.goto_pc, Function.update_self] at h
    obtain ⟨rfl, rfl⟩ := Prod.ext_iff.mp (Option.some.inj h)
    exact .inr ⟨_, hid, hcpu⟩
  | readCpu hid =>
    rw [State.goto_pc, Function.update_self] at h
    obtain ⟨rfl, rfl⟩ := Prod.ext_iff.mp (Option.some.inj h)
    exact .inr ⟨_, hid, rfl⟩
  | wasClear | locked | triggered =>
    rw [State.goto_pc, Function.update_self] at h
    exact .inl h
  | @released _ _ Queued =>
    rw [State.goto_pc, Function.update_self] at h
    cases Queued <;> cases h
  | _ =>
    rw [State.goto_pc, Function.update_self] at h
    cases h

/-- A channel that an agent finds is in the table, or on a queue. -/
theorem mentions_access (hacc : Access p s a pc t) (h : id ∈ (t.pc a).mentions) :
    id ∈ pc.mentions ∨ (∃ LocalPort, hashTableLookup s.ctx.Table LocalPort = some id) ∨
      ∃ Cpu, id ∈ s.ctx.PendingList Cpu := by
  cases hacc with
  | lookedUp hlookup =>
    rw [State.goto_pc, Function.update_self] at h
    obtain rfl | h := List.mem_cons.mp h
    · exact .inr (.inl ⟨_, hlookup⟩)
    · exact .inl h
  | tookClosed hid hmem =>
    rw [State.goto_pc, Function.update_self] at h
    obtain h | h := List.mem_append.mp h
    · exact .inl h
    · obtain rfl := List.mem_singleton.mp h
      exact .inr (.inr ⟨_, hmem⟩)
  | reaped | otherCpu | wasSet | inserted =>
    rw [State.goto_pc, Function.update_self] at h
    exact .inl (List.mem_cons_of_mem _ h)
  | flushed | returned | again | dpcLocked | flushLocked | insertedDpc | closeReaped | notBound
  | bindLocked | bound | bindFailed | bindStored | already | queued =>
    rw [State.goto_pc, Function.update_self] at h
    exact absurd h List.not_mem_nil
  | @released _ _ Queued =>
    rw [State.goto_pc, Function.update_self] at h
    cases Queued <;> exact absurd h List.not_mem_nil
  | _ =>
    rw [State.goto_pc, Function.update_self] at h
    exact .inl h

theorem refs_access (hacc : Access p s a pc t) (h : (t.pc a).refs = some (Cpu, id)) :
    pc.refs = some (Cpu, id) ∨ ∃ LocalPort, hashTableLookup s.ctx.Table LocalPort = some id ∧
      pc.closing = none ∧ pc.spliced = (t.pc a).spliced := by
  cases hacc with
  | lookedUp hlookup =>
    rw [State.goto_pc, Function.update_self] at h ⊢
    obtain ⟨rfl, rfl⟩ := Prod.ext_iff.mp (Option.some.inj h)
    exact .inr ⟨_, hlookup, rfl, rfl⟩
  | wasClear | sameCpu =>
    rw [State.goto_pc, Function.update_self] at h
    exact .inl h
  | @released _ _ Queued =>
    rw [State.goto_pc, Function.update_self] at h
    cases Queued <;> cases h
  | _ =>
    rw [State.goto_pc, Function.update_self] at h
    cases h

/-- A channel comes on the list of `EvtchnFlush` from the queue of its processor. -/
theorem spliced_of_access (hacc : Access p s a pc t) (h : id ∈ (t.pc a).spliced) :
    id ∈ pc.spliced ∨ ∃ Cpu lock List rest channel,
      pc = .polling Cpu lock (some List) (.walking (id :: rest)) ∧ id ∈ s.ctx.PendingList Cpu ∧
        s.ctx.Channels id = some channel ∧ channel.Closed = true := by
  cases hacc with
  | tookClosed hid hmem hclosed =>
    rw [State.goto_pc, Function.update_self] at h
    obtain h | h := List.mem_append.mp h
    · exact .inl h
    · obtain rfl := List.mem_singleton.mp h
      exact .inr ⟨_, _, _, _, _, rfl, hmem, hid, hclosed⟩
  | reaped =>
    rw [State.goto_pc, Function.update_self] at h
    exact .inl (List.mem_cons_of_mem _ h)
  | @released _ _ Queued =>
    rw [State.goto_pc, Function.update_self] at h
    cases Queued <;> exact absurd h List.not_mem_nil
  | flushLocked =>
    rw [State.goto_pc, Function.update_self] at h
    exact absurd h List.not_mem_nil
  | _ =>
    rw [State.goto_pc, Function.update_self] at h
    exact .inl h

theorem closing_access (hacc : Access p s a pc t) (h : (t.pc a).closing = some id) :
    pc.closing = some id ∧ pc ≠ .closeMark id := by
  cases hacc with
  | wasActive | unlisted | closeLocked | wasInactive =>
    rw [State.goto_pc, Function.update_self] at h
    exact ⟨h, by simp⟩
  | @released _ _ Queued =>
    rw [State.goto_pc, Function.update_self] at h
    cases Queued <;> cases h
  | _ =>
    rw [State.goto_pc, Function.update_self] at h
    cases h

theorem leaves_access (hacc : Access p s a pc t) (h : (t.pc a).leaves = some id) :
    t.ctx = s.ctx ∧ (pc.leaves = some id ∨ pc = .closeTest id ∧
      ∃ channel, s.ctx.Channels id = some channel ∧ channel.Active = false) := by
  cases hacc with
  | closeLocked =>
    rw [State.goto_pc, Function.update_self] at h
    exact ⟨rfl, .inl h⟩
  | wasInactive hid hactive =>
    rw [State.goto_pc, Function.update_self] at h
    obtain rfl := Option.some.inj h
    exact ⟨rfl, .inr ⟨rfl, _, hid, hactive⟩⟩
  | @released _ _ Queued =>
    rw [State.goto_pc, Function.update_self] at h
    cases Queued <;> cases h
  | _ =>
    rw [State.goto_pc, Function.update_self] at h
    cases h

/-- `EvtchnClose` is about to mark a channel: it has just made it inactive, or it had before. -/
theorem shuts_of_access (hacc : Access p s a pc t) (h : (t.pc a).shuts = some id) :
    pc.shuts = some id ∨ ∀ new, t.ctx.Channels id = some new → new.Active = false := by
  cases hacc with
  | unlisted =>
    rw [State.goto_pc, Function.update_self] at h
    exact .inl h
  | wasActive =>
    rw [State.goto_pc, Function.update_self] at h
    obtain rfl := Option.some.inj h
    right
    intro new hnew
    change Function.update _ _ _ _ = _ at hnew
    rw [Function.update_self] at hnew
    obtain rfl := Option.some.inj hnew
    rfl
  | @released _ _ Queued =>
    rw [State.goto_pc, Function.update_self] at h
    cases Queued <;> cases h
  | _ =>
    rw [State.goto_pc, Function.update_self] at h
    cases h

/-- It stays so until it has marked it. -/
theorem shuts_access (hacc : Access p s a pc t) (h : pc.shuts = some id) :
    (t.pc a).shuts = some id ∨ pc = .closeMark id := by
  cases hacc with
  | unlisted =>
    left
    rw [State.goto_pc, Function.update_self]
    exact h
  | markedClosed => exact .inr (congrArg Pc.closeMark (Option.some.inj h))
  | _ => cases h

theorem reaps_of_access (hacc : Access p s a pc t) (h : (t.pc a).reaps = some id) {new : Channel}
    (hnew : t.ctx.Channels id = some new) : new.Pending = false := by
  cases hacc with
  | tookClear =>
    rw [State.goto_pc, Function.update_self] at h
    obtain rfl := Option.some.inj h
    change Function.update _ _ _ _ = _ at hnew
    rw [Function.update_self] at hnew
    obtain rfl := Option.some.inj hnew
    rfl
  | @released _ _ Queued =>
    rw [State.goto_pc, Function.update_self] at h
    cases Queued <;> cases h
  | _ =>
    rw [State.goto_pc, Function.update_self] at h
    cases h

/-- A channel after an access was there before. -/
theorem before_access (hacc : Access p s a pc t) {new : Channel}
    (hnew : t.ctx.Channels id = some new) :
    ∃ channel, s.ctx.Channels id = some channel ∧ Follows pc id channel new := by
  obtain ⟨-, -, hnone, -⟩ := frame_access hacc
  cases hid : s.ctx.Channels id with
  | none => exact absurd (hnew.symm.trans (hnone id hid)) (Option.some_ne_none _)
  | some channel => exact ⟨channel, rfl, channels_access hacc hid hnew⟩

omit [DecidableEq ι] in
/-- No access makes a channel active. -/
theorem Follows.inactive {channel new : Channel} (h : Follows pc id channel new)
    (hinactive : channel.Active = false) : new.Active = false := by
  rw [← Bool.not_eq_true, h.active, hinactive]
  simp

/-- The entries of the table after an access. -/
theorem mem_table_access (hacc : Access p s a pc t) (hkeys : (s.ctx.Table.map Prod.fst).Nodup)
    {port : ℕ} (hport : ∀ channel, (port, id) ∈ s.ctx.Table → s.ctx.Channels id = some channel →
      channel.LocalPort = port) (hmem : (port, id) ∈ t.ctx.Table) :
    (port, id) ∈ s.ctx.Table ∧ ∀ channel, s.ctx.Channels id = some channel → pc ≠ .closeTable id := by
  cases hacc with
  | @unlisted id' c hc =>
    obtain ⟨hmem', hne⟩ := (mem_hashTableRemove hkeys).mp hmem
    refine ⟨hmem', ?_⟩
    rintro channel hid ⟨⟩
    exact hne (hport c hmem' hc).symm
  | reaped | closeReaped =>
    rw [State.goto_ctx, State.put_ctx, evtchnReap_Table] at hmem
    exact ⟨hmem, fun _ _ => by simp⟩
  | _ => exact ⟨hmem, fun _ _ => by simp⟩

theorem keys_access (hacc : Access p s a pc t) (hkeys : (s.ctx.Table.map Prod.fst).Nodup) :
    (t.ctx.Table.map Prod.fst).Nodup := by
  cases hacc with
  | unlisted => exact hkeys.sublist ((List.eraseP_sublist).map _)
  | reaped | closeReaped =>
    rw [State.goto_ctx, State.put_ctx, evtchnReap_Table]
    exact hkeys
  | _ => exact hkeys

/-- An active channel stays so, or it is `EvtchnClose` that makes it inactive. -/
theorem Sound.active_access (h : Sound p s) (hacc : Access p s a (s.pc a) t) {channel new : Channel}
    (hid : s.ctx.Channels id = some channel) (hnew : t.ctx.Channels id = some new)
    (hactive : channel.Active = true) :
    new.Active = true ∨ ∃ τ, t.pc (.thread τ) = .closeTable id := by
  by_cases htest : s.pc a = .closeTest id
  · have hclosing : (s.pc a).closing = some id := by rw [htest]; rfl
    obtain ⟨τ, rfl⟩ := h.thread_of_closing hclosing
    refine .inr ⟨τ, ?_⟩
    rw [htest] at hacc
    cases hacc with
    | wasActive => rw [State.goto_pc, Function.update_self]
    | wasInactive hid' hinactive =>
      obtain rfl := Option.some.inj (hid.symm.trans hid')
      exact absurd (hactive.symm.trans hinactive) (by simp)
  · exact .inl ((channels_access hacc hid hnew).active.mpr ⟨hactive, htest⟩)

/-- A channel that is engaged stays so: `EvtchnClose` makes it inactive, and then marks it. -/
theorem Sound.engaged_access (h : Sound p s) (hacc : Access p s a (s.pc a) t) {channel new : Channel}
    (hid : s.ctx.Channels id = some channel) (hnew : t.ctx.Channels id = some new)
    (hengaged : Engaged s id channel) : Engaged t id new := by
  have hfollows := channels_access hacc hid hnew
  obtain ⟨⟨pc', hpc'⟩, -⟩ := frame_access hacc
  obtain hactive | hclosed | ⟨τ, hτ⟩ := hengaged
  · obtain hactive | ⟨τ, hτ⟩ := h.active_access hacc hid hnew hactive
    · exact .inl hactive
    · exact .inr (.inr ⟨τ, by rw [hτ]; rfl⟩)
  · exact .inr (.inl (hfollows.closed.mpr (.inl hclosed)))
  · by_cases hτa : .thread τ = a
    · obtain hshuts | hmark := shuts_access hacc (hτa ▸ hτ)
      · exact .inr (.inr ⟨τ, hτa ▸ hshuts⟩)
      · exact .inr (.inl (hfollows.closed.mpr (.inr hmark)))
    · refine .inr (.inr ⟨τ, ?_⟩)
      rwa [hpc', Function.update_of_ne hτa]

theorem binds_access (hacc : Access p s a pc t) (h : pc.binds = false) : (t.pc a).binds = false := by
  cases hacc with
  | notBound | bindLocked | bound | bindFailed | bindStored => cases h
  | @released _ _ Queued =>
    rw [State.goto_pc, Function.update_self]
    cases Queued <;> rfl
  | _ =>
    rw [State.goto_pc, Function.update_self]
    rfl

end Access

/-- A channel comes on the queue of the processor that the agent has read, from the agent's charge. -/
theorem mem_queue_of_access [DecidableEq ι] (hacc : Access p s a pc t)
    (hmem : id ∈ t.ctx.PendingList Cpu) :
    id ∈ s.ctx.PendingList Cpu ∨ pc.aims = some (Cpu, id) ∧ id ∈ pc.holding := by
  have hinsert : ∀ {Cpu' id'}, id ∈ (insertTail s.ctx Cpu' id').PendingList Cpu →
      id ∈ s.ctx.PendingList Cpu ∨ some (Cpu', id') = some (Cpu, id) ∧ id ∈ [id'] := by
    intro Cpu' id' hmem
    change id ∈ Function.update s.ctx.PendingList Cpu' _ Cpu at hmem
    by_cases hCpu : Cpu = Cpu'
    · subst hCpu
      rw [Function.update_self] at hmem
      obtain hmem | hmem := List.mem_append.mp hmem
      · exact .inl hmem
      · exact .inr ⟨by rw [List.mem_singleton.mp hmem], hmem⟩
    · rw [Function.update_of_ne hCpu] at hmem
      exact .inl hmem
  have hremove : ∀ {Cpu' id'}, id ∈ (removeEntry s.ctx Cpu' id').PendingList Cpu →
      id ∈ s.ctx.PendingList Cpu := by
    intro Cpu' id' hmem
    change id ∈ Function.update s.ctx.PendingList Cpu' _ Cpu at hmem
    by_cases hCpu : Cpu = Cpu'
    · subst hCpu
      rw [Function.update_self] at hmem
      exact List.mem_of_mem_erase hmem
    · rwa [Function.update_of_ne hCpu] at hmem
  cases hacc with
  | inserted => exact (hinsert hmem).imp_right fun ⟨haims, hid⟩ => ⟨haims, List.mem_append_left _ hid⟩
  | queued => exact hinsert hmem
  | tookClosed => exact .inl (hremove hmem)
  | removed => exact .inl (hremove hmem)
  | reaped | closeReaped =>
    rw [State.goto_ctx, State.put_ctx, evtchnReap_PendingList] at hmem
    exact .inl hmem
  | _ => exact .inl hmem

/-! ## Each access keeps the invariant -/

section Kept

variable [DecidableEq ι] {new channel : Channel} (h : Apart p s)
  (hacc : Access p s a (s.pc a) t) (hpart : Parted p s (.run a none))
include h hacc

/-- Where a channel comes from. -/
theorem Apart.before (hnew : t.ctx.Channels id = some new) :
    ∃ channel, s.ctx.Channels id = some channel ∧ Follows (s.pc a) id channel new ∧
      new.Cpu = channel.Cpu := by
  obtain ⟨channel, hid, hfollows⟩ := before_access hacc hnew
  refine ⟨channel, hid, hfollows, hfollows.cpu.resolve_right ?_⟩
  rintro ⟨Cpu, hbind⟩
  have := (h.relies a).binds
  rw [hbind] at this
  cases this

/-- A thread that closes a channel is the one that marks it. -/
theorem Apart.closer_eq {b : Agent ι} (ha : (s.pc a).closing = some id)
    (hb : (s.pc b).closing = some id) : b = a := by
  obtain ⟨τ, rfl⟩ := h.sound.thread_of_closing ha
  obtain ⟨τ', rfl⟩ := h.sound.thread_of_closing hb
  rw [h.closer τ' τ id hb ha]

include hpart

/-- `Pending` of a channel that is about to be freed stays clear. -/
theorem Apart.pending_kept {b : Agent ι} (hb : (s.pc b).reaps = some id ∨ (s.pc b).leaves = some id)
    (hid : s.ctx.Channels id = some channel) (hclear : channel.Pending = false)
    (hnew : t.ctx.Channels id = some new) : new.Pending = false := by
  by_contra hpending
  obtain hpending | htest := (channels_access hacc hid hnew).pending (Bool.not_eq_false _ ▸ hpending)
  · simp [hclear] at hpending
  cases hpc : s.pc a with
  | polling Cpu lock flush poll =>
    cases poll with
    | matched id' =>
      obtain rfl : id' = id := by simpa [hpc, Pc.testing] using htest
      have hcpu : channel.Cpu = Cpu := (h.relies a).aims Cpu id' channel (by rw [hpc]; rfl) hid
      obtain ⟨hspliced, hleaves⟩ := h.apart a id' channel (by rw [hpc, hcpu]; rfl) hid
      obtain hb | hb := hb
      · obtain ⟨Cpu', -, rfl⟩ := h.sound.dpc_of_reaps hb
        exact hspliced Cpu' (spliced_of_reaps hb)
      · obtain ⟨τ, rfl⟩ := h.sound.thread_of_closing (closing_of_leaves hb)
        exact hleaves τ hb
    | _ => simp [hpc, Pc.testing] at htest
  | triggerSet caller id' Cpu =>
    obtain rfl : id' = id := by simpa [hpc, Pc.testing] using htest
    obtain ⟨hreaps, hleaves⟩ := hpart.2 caller id' Cpu hpc
    obtain hb | hb := hb
    · obtain ⟨Cpu', hCpu', rfl⟩ := h.sound.dpc_of_reaps hb
      exact hreaps Cpu' hCpu' hb
    · obtain ⟨τ, rfl⟩ := h.sound.thread_of_closing (closing_of_leaves hb)
      exact hleaves τ hb
  | _ => simp [hpc, Pc.testing] at htest

theorem Apart.relies_other {b : Agent ι} (hb : b ≠ a) : Relies t (s.pc b) := by
  have hr := h.relies b
  refine ⟨fun Cpu id new haims hnew => ?_, fun id new hsp hnew => ?_, fun id new hreaps hnew => ?_,
    fun id new hleaves hnew => ?_, fun id new hshuts hnew => ?_, fun id new hclosing hnew => ?_,
    hr.binds⟩
  · obtain ⟨channel, hid, -, hcpu⟩ := h.before hacc hnew
    exact hcpu.trans (hr.aims Cpu id channel haims hid)
  · obtain ⟨channel, hid, hfollows, -⟩ := h.before hacc hnew
    exact hfollows.closed.mpr (.inl (hr.spliced id channel hsp hid))
  · obtain ⟨channel, hid, -⟩ := h.before hacc hnew
    exact h.pending_kept hacc hpart (.inl hreaps) hid (hr.reaps id channel hreaps hid) hnew
  · obtain ⟨channel, hid, hfollows, -⟩ := h.before hacc hnew
    obtain ⟨hclear, hactive⟩ := hr.leaves id channel hleaves hid
    exact ⟨h.pending_kept hacc hpart (.inr hleaves) hid hclear hnew, hfollows.inactive hactive⟩
  · obtain ⟨channel, hid, hfollows, -⟩ := h.before hacc hnew
    exact hfollows.inactive (hr.shuts id channel hshuts hid)
  · obtain ⟨channel, hid, hfollows, -⟩ := h.before hacc hnew
    rw [← Bool.not_eq_true, hfollows.closed, hr.closing id channel hclosing hid]
    rintro (hf | hmark)
    · cases hf
    · exact hb (h.closer_eq hacc (by rw [hmark]; rfl) hclosing)

theorem Apart.relies_self : Relies t (t.pc a) := by
  have hr := h.relies a
  refine ⟨fun Cpu id new haims hnew => ?_, fun id new hsp hnew => ?_, fun id new hreaps hnew =>
    reaps_of_access hacc hreaps hnew, fun id new hleaves hnew => ?_, fun id new hshuts hnew => ?_,
    fun id new hclosing hnew => ?_, binds_access hacc hr.binds⟩
  · obtain ⟨channel, hid, -, hcpu⟩ := h.before hacc hnew
    obtain haims | ⟨c, hc, hcCpu⟩ := aims_access hacc haims
    · exact hcpu.trans (hr.aims Cpu id channel haims hid)
    · obtain rfl := Option.some.inj (hid.symm.trans hc)
      exact hcpu.trans hcCpu
  · obtain ⟨channel, hid, hfollows, -⟩ := h.before hacc hnew
    refine hfollows.closed.mpr (.inl ?_)
    obtain hsp | ⟨_, _, _, _, c, -, -, hc, hclosed⟩ := spliced_of_access hacc hsp
    · exact hr.spliced id channel hsp hid
    · obtain rfl := Option.some.inj (hid.symm.trans hc)
      exact hclosed
  · obtain ⟨hctx, hleaves | ⟨htest, c, hc, hinactive⟩⟩ := leaves_access hacc hleaves
    · rw [hctx] at hnew
      exact hr.leaves id new hleaves hnew
    · rw [hctx] at hnew
      obtain rfl := Option.some.inj (hnew.symm.trans hc)
      exact ⟨hpart.1 id new htest hnew hinactive, hinactive⟩
  · obtain hshuts | hinactive := shuts_of_access hacc hshuts
    · obtain ⟨channel, hid, hfollows, -⟩ := h.before hacc hnew
      exact hfollows.inactive (hr.shuts id channel hshuts hid)
    · exact hinactive new hnew
  · obtain ⟨hclosing, hmark⟩ := closing_access hacc hclosing
    obtain ⟨channel, hid, hfollows, -⟩ := h.before hacc hnew
    rw [← Bool.not_eq_true, hfollows.closed, hr.closing id channel hclosing hid]
    rintro (hf | hm)
    · cases hf
    · exact hmark hm

omit hpart

/-- The queue of a processor has channels of the processor. -/
theorem Apart.queue_access (hmem : id ∈ t.ctx.PendingList Cpu)
    (hnew : t.ctx.Channels id = some new) : new.Cpu = Cpu := by
  obtain ⟨channel, hid, -, hcpu⟩ := h.before hacc hnew
  rw [hcpu]
  obtain hmem | ⟨haims, -⟩ := mem_queue_of_access hacc hmem
  · exact h.queue Cpu id channel hmem hid
  · exact (h.relies a).aims Cpu id channel haims hid

theorem Apart.table_access {port : ℕ} (hmem : (port, id) ∈ t.ctx.Table) :
    ∃ new, t.ctx.Channels id = some new ∧ new.LocalPort = port ∧ new.Closed = false ∧
      (new.Active = true ∨ ∃ τ, t.pc (.thread τ) = .closeTable id) := by
  obtain ⟨hmem, hnot⟩ := mem_table_access hacc h.keys (fun channel hmem hid => by
    obtain ⟨c, hc, hport, -⟩ := h.table port id hmem
    obtain rfl := Option.some.inj (hid.symm.trans hc)
    exact hport) hmem
  obtain ⟨channel, hid, hport, hopen, hactive⟩ := h.table port id hmem
  obtain ⟨⟨pc', hpc'⟩, -⟩ := frame_access hacc
  cases hnew : t.ctx.Channels id with
  | none => exact absurd hmem ((h.unreachable hacc hid hnew).2.2.2 port)
  | some new =>
    have hfollows := channels_access hacc hid hnew
    refine ⟨new, rfl, hfollows.port.trans hport, ?_, ?_⟩
    · rw [← Bool.not_eq_true, hfollows.closed, hopen]
      rintro (hf | hmark)
      · cases hf
      · -- the channel that is marked is not in the table any more
        obtain hactive | ⟨τ, hτ⟩ := hactive
        · have := (h.relies a).shuts id channel (by rw [hmark]; rfl) hid
          exact absurd (this.symm.trans hactive) (by simp)
        · have := h.closer_eq hacc (b := .thread τ) (by rw [hmark]; rfl) (by rw [hτ]; rfl)
          rw [← this, hτ] at hmark
          cases hmark
    · obtain hactive | ⟨τ, hτ⟩ := hactive
      · exact h.sound.active_access hacc hid hnew hactive
      · refine .inr ⟨τ, ?_⟩
        rw [hpc', Function.update_of_ne]
        · exact hτ
        · rintro rfl
          exact hnot channel hid hτ

omit h in
/-- What a thread closes after an access, it was closing before. -/
theorem closing_before {b : Agent ι} (hb : (t.pc b).closing = some id) :
    (s.pc b).closing = some id := by
  obtain ⟨⟨pc', hpc'⟩, -⟩ := frame_access hacc
  by_cases hba : b = a
  · exact hba ▸ (closing_access hacc (hba ▸ hb)).1
  · rwa [hpc', Function.update_of_ne hba] at hb

theorem Apart.closing_after
    (hclosing : (∃ τ, (t.pc (.thread τ)).closing = some id) ∨
      ∃ new, t.ctx.Channels id = some new ∧ new.Closed = true) : t.Closing id = true := by
  obtain ⟨-, -, -, hsame, -⟩ := frame_access hacc
  rw [hsame]
  apply h.closing id
  obtain ⟨τ, hτ⟩ | ⟨new, hnew, hclosed⟩ := hclosing
  · exact .inl ⟨τ, closing_before hacc hτ⟩
  · obtain ⟨channel, hid, hfollows, -⟩ := h.before hacc hnew
    obtain hclosed | hmark := hfollows.closed.mp hclosed
    · exact .inr ⟨channel, hid, hclosed⟩
    · have hclosing : (s.pc a).closing = some id := by rw [hmark]; rfl
      obtain ⟨τ, rfl⟩ := h.sound.thread_of_closing hclosing
      exact .inl ⟨τ, hclosing⟩

omit h in
/-- The references of a poll after an access: it had them before, or it has just looked the channel
up. -/
theorem refs_before {b : Agent ι} (hb : (t.pc b).refs = some (Cpu, id)) :
    (s.pc b).refs = some (Cpu, id) ∨ (∃ port, (port, id) ∈ s.ctx.Table) ∧ b = a ∧
      (s.pc a).closing = none ∧ (s.pc a).spliced = (t.pc a).spliced := by
  obtain ⟨⟨pc', hpc'⟩, -⟩ := frame_access hacc
  by_cases hba : b = a
  · obtain hrefs | ⟨LocalPort, hlookup, hnone, hsame⟩ := refs_access hacc (hba ▸ hb)
    · exact .inl (hba ▸ hrefs)
    · refine .inr ⟨?_, hba, hnone, hsame⟩
      obtain ⟨⟨port, id'⟩, hfind, rfl⟩ := Option.map_eq_some_iff.mp hlookup
      exact ⟨port, List.mem_of_find?_eq_some hfind⟩
  · rw [hpc', Function.update_of_ne hba] at hb
    exact .inl hb

theorem Apart.referred_access {b : Agent ι} (hb : (t.pc b).refs = some (Cpu, id))
    (hnew : t.ctx.Channels id = some new) : Engaged t id new := by
  obtain ⟨channel, hid, -⟩ := h.before hacc hnew
  refine h.sound.engaged_access hacc hid hnew ?_
  obtain hrefs | ⟨⟨port, hmem⟩, -⟩ := refs_before hacc hb
  · exact h.referred b Cpu id channel hrefs hid
  · obtain ⟨c, hc, -, -, hactive | ⟨τ, hτ⟩⟩ := h.table port id hmem
    · obtain rfl := Option.some.inj (hid.symm.trans hc)
      exact .inl hactive
    · exact .inr (.inr ⟨τ, by rw [hτ]; rfl⟩)

/-- A poll of the channel's processor, and the DPC that takes the channel, would both hold the lock. -/
theorem Apart.refs_not_taken {b : Agent ι} (hheld : s.captured = true → a.held = false)
    (hrefs : (s.pc b).refs = some (channel.Cpu, id)) (hid : s.ctx.Channels id = some channel)
    {lock : Interrupt} {taken rest : List ℕ}
    (hpc : s.pc a = .polling Cpu lock (some taken) (.walking (id :: rest)))
    (hmem : id ∈ s.ctx.PendingList Cpu) : False := by
  have hcpu := h.queue Cpu id channel hmem hid
  have hfits := h.sound.fits a
  rw [hpc] at hfits
  rcases a with Cpu' | Cpu' | τ | _
  case dpc =>
    obtain ⟨rfl, -, hlock, -⟩ := hfits
    have hfitsb := h.sound.fits b
    have hlocka : (s.pc (.dpc Cpu)).lock p = some (interrupt p Cpu) := by rw [hpc, hlock]; rfl
    cases hpcb : s.pc b with
    | polling Cpu' lock' flush' poll =>
      rw [hpcb] at hfitsb hrefs
      have hCpu' : Cpu' = channel.Cpu := by
        cases poll with
        | found | matched | inserting => exact congrArg Prod.fst (Option.some.inj hrefs)
        | _ => cases hrefs
      have hlockb : b ≠ .late → (s.pc b).lock p = some (interrupt p Cpu) := by
        intro hlate
        rw [hpcb]
        rcases b with _ | _ | _ | _
        · exact congrArg some (hcpu ▸ hCpu' ▸ hfitsb.1 ▸ hfitsb.2.2.1)
        · exact congrArg some (hcpu ▸ hCpu' ▸ hfitsb.1 ▸ hfitsb.2.2.1)
        · exact hfitsb.elim
        · exact absurd rfl hlate
      by_cases hlate : b = .late
      · -- during a suspend no DPC runs
        subst hlate
        have hcaptured := h.late (by rw [hpcb]; simp)
        exact absurd (hheld hcaptured) (by simp [Agent.held])
      · obtain rfl := h.sound.owned.unique (hlockb hlate) hlocka
        rw [hpc] at hpcb
        cases hpcb
        cases hrefs
    | _ =>
      rw [hpcb] at hrefs
      cases hrefs
  · exact absurd hfits.2.2.2 (by simp)
  · exact hfits.elim
  · exact absurd hfits (by simp [Agent.Fits])

theorem Apart.apart_access {b : Agent ι} (hheld : s.captured = true → a.held = false)
    (hb : (t.pc b).refs = some (new.Cpu, id)) (hnew : t.ctx.Channels id = some new) :
    (∀ Cpu, id ∉ (t.pc (.dpc Cpu)).spliced) ∧ ∀ τ, (t.pc (.thread τ)).leaves ≠ some id := by
  obtain ⟨channel, hid, -, hcpu⟩ := h.before hacc hnew
  obtain ⟨⟨pc', hpc'⟩, -⟩ := frame_access hacc
  rw [hcpu] at hb
  -- nothing was about to free the channel before
  have hbefore : (∀ Cpu, id ∉ (s.pc (.dpc Cpu)).spliced) ∧
      ∀ τ, (s.pc (.thread τ)).leaves ≠ some id := by
    obtain hrefs | ⟨⟨port, hmem⟩, -⟩ := refs_before hacc hb
    · exact h.apart b id channel hrefs hid
    · constructor
      · intro Cpu hsp
        exact h.not_mem_table hid (.inl ((h.relies _).spliced id channel hsp hid)) port hmem
      · intro τ hτ
        exact h.not_mem_table hid (.inr ⟨τ, hτ⟩) port hmem
  constructor
  · intro Cpu hsp
    by_cases ha : .dpc Cpu = a
    · subst ha
      obtain hsp | ⟨Cpu', lock, taken, rest, c, hpc, hmem, -⟩ := spliced_of_access hacc hsp
      · exact hbefore.1 Cpu hsp
      · obtain hrefs | ⟨-, -, -, hsame⟩ := refs_before hacc hb
        · exact h.refs_not_taken hacc hheld hrefs hid hpc hmem
        · rw [← hsame] at hsp
          exact hbefore.1 Cpu hsp
    · rw [hpc', Function.update_of_ne ha] at hsp
      exact hbefore.1 Cpu hsp
  · intro τ hτ
    by_cases ha : .thread τ = a
    · subst ha
      obtain ⟨-, hleaves | ⟨htest, c, hc, hinactive⟩⟩ := leaves_access hacc hτ
      · exact hbefore.2 τ hleaves
      · -- the channel was made inactive by a suspend, and no poll has it
        obtain rfl := Option.some.inj (hid.symm.trans hc)
        have hclosing : (s.pc (.thread τ)).closing = some id := by rw [htest]; rfl
        obtain hrefs | ⟨-, -, hnone, -⟩ := refs_before hacc hb
        · obtain hactive | hclosed | ⟨τ', hτ'⟩ := h.referred b _ id channel hrefs hid
          · exact absurd (hactive.symm.trans hinactive) (by simp)
          · have := (h.relies _).closing id channel hclosing hid
            exact absurd (hclosed.symm.trans this) (by simp)
          · obtain rfl := h.closer τ' τ id (closing_of_shuts hτ') hclosing
            rw [htest] at hτ'
            cases hτ'
        · exact absurd (hclosing.symm.trans hnone) (by simp)
    · rw [hpc', Function.update_of_ne ha] at hτ
      exact hbefore.2 τ hτ

/-- **Each access keeps the invariant.** -/
theorem Apart.access (hpart : Parted p s (.run a none)) (hheld : s.captured = true → a.held = false) :
    Apart p t := by
  obtain ⟨⟨pc', hpc'⟩, hnext, -, -, hcaptured⟩ := frame_access hacc
  have hother : ∀ {b}, b ≠ a → t.pc b = s.pc b := fun hb => by rw [hpc', Function.update_of_ne hb]
  refine ⟨h.sound.access hacc, fun b id hmem => ?_, fun b => ?_, fun hc => ?_, fun hlate => ?_,
    fun _ _ _ => h.queue_access hacc, fun _ _ => h.table_access hacc, keys_access hacc h.keys,
    fun τ τ' id hτ hτ' => h.closer τ τ' id (closing_before hacc hτ) (closing_before hacc hτ'),
    fun _ => h.closing_after hacc, fun _ _ _ _ => h.referred_access hacc,
    fun _ _ _ => h.apart_access hacc hheld⟩
  · rw [hnext]
    by_cases hb : b = a
    · subst hb
      obtain hmem | ⟨LocalPort, hlookup⟩ | ⟨Cpu, hqueue⟩ := mentions_access hacc hmem
      · exact h.fresh b id hmem
      · obtain ⟨entry, hfind, rfl⟩ := Option.map_eq_some_iff.mp hlookup
        obtain ⟨channel, hid, -⟩ := h.table entry.1 entry.2 (List.mem_of_find?_eq_some hfind)
        exact h.sound.fresh entry.2 channel hid
      · exact (h.sound.tracked.mark (.inl Cpu) id hqueue).1
    · exact h.fresh b id (hother hb ▸ hmem)
  · by_cases hb : b = a
    · exact hb ▸ h.relies_self hacc hpart
    · rw [hother hb]
      exact h.relies_other hacc hpart hb
  · rw [hcaptured] at hc
    obtain ⟨hdpcs, hthreads, hinactive⟩ := h.captured hc
    have hnot := hheld hc
    refine ⟨fun Cpu => ?_, fun τ => ?_, fun id new hnew => ?_⟩
    · rw [hother, hdpcs]
      rintro rfl
      cases hnot
    · rw [hother, hthreads]
      rintro rfl
      cases hnot
    · obtain ⟨channel, hid, hfollows, -⟩ := h.before hacc hnew
      exact hfollows.inactive (hinactive id channel hid)
  · rw [hcaptured]
    by_cases ha : a = .late
    · subst ha
      apply h.late
      intro hidle
      rw [hidle] at hacc
      cases hacc
    · rw [hother (Ne.symm ha)] at hlate
      exact h.late hlate

end Kept

/-! ## What a step does -/

/-- Where an agent starts. -/
def Pc.begins : Pc → Bool
  | .triggerRead .client _ | .closeTest _ | .bindLock _ _ | .polled _ _ none | .dpcLock _ => true
  | _ => false

/-- An agent that starts has charge of nothing. -/
theorem begins_empty (h : pc.begins = true) : pc.holding = [] ∧ pc.spliced = [] ∧ pc.refs = none ∧
    pc.aims = none ∧ pc.shuts = none ∧ pc.leaves = none ∧ ∀ id, pc ≠ .closeTable id := by
  cases pc with
  | triggerRead | closeTest | bindLock | dpcLock => exact ⟨rfl, rfl, rfl, rfl, rfl, rfl, by simp⟩
  | polled Cpu lock flush =>
    cases flush with
    | none => exact ⟨rfl, rfl, rfl, rfl, rfl, rfl, by simp⟩
    | some List => cases h
  | _ => cases h

section Step

variable [DecidableEq ι]

/-- An agent starts, with an action. -/
structure Start (s : State ι) (act : Action ι) (a : Agent ι) (pc' : Pc) (t : State ι) : Prop where
  idle : s.pc a = .idle
  unopened : ∀ args answers, act ≠ .opened args answers
  begins : pc'.begins = true
  binds : pc'.binds = true → ∃ τ id Cpu, act = .call τ id (.bind Cpu)
  allocated : ∀ id ∈ pc'.mentions, ∃ channel, s.ctx.Channels id = some channel
  /-- `EvtchnClose` is called once. -/
  unclosed : ∀ id, pc'.closing = some id → s.Closing id = false
  held : s.captured = true → a.held = false
  late : a = .late → s.captured = true
  ctx : t.ctx = s.ctx
  pc : t.pc = Function.update s.pc a pc'
  captured : t.captured = s.captured
  closing : ∀ id, t.Closing id = true ↔ s.Closing id = true ∨ pc'.closing = some id

variable [Fintype ι] {act : Action ι}

/-- A step, case by case. -/
inductive Stepped (p : Platform) (s : State ι) : Action ι → State ι → Prop
  | opened {args answers} (hcaptured : s.captured = false)
      (hport : ∀ r, openPort p s.ctx args answers.port = some r →
        hashTableLookup s.ctx.Table r.1 = none) :
      Stepped p s (.opened args answers) (s.put (evtchnOpen p s.ctx args answers).2)
  | started {act : Action ι} {a : Agent ι} {pc' : Pc} {t : State ι} (hstart : Start s act a pc' t) :
      Stepped p s act t
  | accessed {a : Agent ι} {choice : Option ℕ} {t : State ι}
      (hheld : s.captured = true → a.held = false) (hacc : Access p s a (s.pc a) t) :
      Stepped p s (.run a choice) t
  | suspended {t : State ι} (hpassive : s.Passive p) (hcaptured : s.captured = false)
      (hctx : t.ctx = suspendEarly s.ctx) (hpc : t.pc = s.pc) (hclosing : t.Closing = s.Closing)
      (hcaptured' : t.captured = true) : Stepped p s .early t
  | resumed (hlate : s.pc .late = .idle) : Stepped p s .late { s with captured := false }

/-- **Inversion of a step.** -/
theorem stepped_of_step (hs : step p s act = some t) : Stepped p s act t := by
  cases act with
  | opened args answers =>
    simp only [step] at hs
    split_ifs at hs with hopen
    obtain rfl := Option.some.inj hs
    refine .opened (by simpa using hopen.1) fun r hr => ?_
    simpa [hr] using hopen.2.2
  | call τ id call =>
    simp only [step] at hs
    split_ifs at hs with hcall
    obtain ⟨hcaptured, hidle, hid, hclosing⟩ := hcall
    obtain ⟨channel, hid⟩ := Option.ne_none_iff_exists'.mp hid
    have hheld : s.captured = true → (Agent.thread τ).held = false := fun hc => by
      simp [hc] at hcaptured
    cases call with
    | trigger =>
      obtain rfl := Option.some.inj hs
      refine .started ⟨hidle, by simp, rfl, by simp [Pc.binds], fun id' hid' => ?_,
        by simp [Pc.closing], hheld, by simp, rfl, rfl, rfl, by simp [Pc.closing, State.goto]⟩
      exact ⟨channel, List.mem_singleton.mp hid' ▸ hid⟩
    | close =>
      obtain rfl := Option.some.inj hs
      refine .started (a := .thread τ) ⟨hidle, by simp, rfl, by simp [Pc.binds], fun id' hid' => ?_,
        fun id' hid' => ?_, hheld, by simp, rfl, rfl, rfl, fun id' => ?_⟩
      · exact ⟨channel, List.mem_singleton.mp hid' ▸ hid⟩
      · obtain rfl := Option.some.inj hid'
        simpa using hclosing
      · change Function.update s.Closing id true id' = true ↔ _ ∨ some id = some id'
        by_cases hne : id' = id
        · rw [hne, Function.update_self]
          simp
        · rw [Function.update_of_ne hne]
          simp [Ne.symm hne]
    | bind Cpu =>
      dsimp only at hs
      split_ifs at hs
      obtain rfl := Option.some.inj hs
      exact .started (a := .thread τ) ⟨hidle, by simp, rfl, fun _ => ⟨τ, id, Cpu, rfl⟩,
        by simp [Pc.mentions], by simp [Pc.closing], hheld, by simp, rfl, rfl, rfl,
        by simp [Pc.closing, State.goto]⟩
  | upcall Cpu =>
    simp only [step] at hs
    split_ifs at hs with hidle
    obtain ⟨u, hu, rfl⟩ := Option.map_eq_some_iff.mp hs
    obtain ⟨-, rfl⟩ := acquire_eq_some hu
    exact .started (a := .interrupt Cpu) ⟨hidle.2, by simp, rfl, by simp [Pc.binds], by simp [Pc.mentions],
      by simp [Pc.closing], fun _ => rfl, by simp, rfl, rfl, rfl, by simp [Pc.closing, State.goto]⟩
  | dispatch Cpu =>
    simp only [step] at hs
    split_ifs at hs with hdpc
    obtain rfl := Option.some.inj hs
    exact .started (a := .dpc Cpu) ⟨hdpc.2.2.2, by simp, rfl, by simp [Pc.binds], by simp [Pc.mentions],
      by simp [Pc.closing], fun hc => by simp [hc] at hdpc, by simp, rfl, rfl, rfl,
      by simp [Pc.closing, State.goto]⟩
  | run a choice =>
    simp only [step] at hs
    split_ifs at hs with hheld
    exact .accessed (fun hc => by simpa [hc] using hheld) (access_of_runStep hs)
  | early =>
    simp only [step] at hs
    split_ifs at hs with hpassive
    obtain rfl := Option.some.inj hs
    exact .suspended hpassive.2 (by simpa using hpassive.1) rfl rfl rfl rfl
  | late =>
    simp only [step] at hs
    split_ifs at hs with hlate
    split at hs
    · obtain rfl := Option.some.inj hs
      exact .resumed hlate.2
    · obtain ⟨u, hu, rfl⟩ := Option.map_eq_some_iff.mp hs
      obtain ⟨-, rfl⟩ := acquire_eq_some hu
      exact .started (a := .late) ⟨hlate.2, by simp, rfl, by simp [Pc.binds], by simp [Pc.mentions],
        by simp [Pc.closing], fun _ => rfl, fun _ => hlate.1, rfl, rfl, rfl,
        by simp [Pc.closing, State.goto]⟩

end Step

end XenBus.Evtchn.Concurrent
