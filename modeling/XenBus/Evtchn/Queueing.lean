import XenBus.Evtchn.Apart

/-!
# A channel is queued at most once

`Channel->Pending` guards `PendingListEntry`: whoever changes it from 0 to 1 may link the entry, and it
goes back to 0 after the entry has been unlinked. The general invariant says that an entry is in one
place, with `Pending` set; here it also holds that a channel with `Pending` set is somewhere (`Placed`).
So outside the accesses between the bit and the list, `Pending` is set exactly if the entry is linked,
and then it is on one list: the queue of one processor, or the list of one flush.
-/

namespace XenBus.Evtchn.Concurrent

open Transition Placement

variable {ι : Type} {p : Platform} {s t : State ι} {a : Agent ι} {pc pc' : Pc} {id y : ℕ}
  {k : ℕ ⊕ Agent ι}

/-! ## Lists -/

/-- The lists that a `PendingListEntry` can be on: the queues of the processors, and the lists of
`EvtchnFlush`. -/
def lists (s : State ι) : ℕ ⊕ Agent ι → List ℕ
  | .inl Cpu => s.ctx.PendingList Cpu
  | .inr a => (s.pc a).flushList

/-- The channel that an agent is enqueuing, having set `Pending`, or dequeuing, about to clear it. -/
def Pc.window : Pc → List ℕ
  | .polling _ _ _ (.inserting id) | .polling _ _ _ (.clearing id _) | .taken _ id _
  | .triggerInsert _ id _ => [id]
  | _ => []

/-- The entry is linked, on one list and there once. -/
def LinkedOnce (s : State ι) (id : ℕ) : Prop :=
  ∃ k, (lists s k).count id = 1 ∧ ∀ k', k' ≠ k → id ∉ lists s k'

/-- **What is promised**: outside the windows, the bit says whether the entry is linked. -/
structure Queued (s : State ι) (id : ℕ) (channel : Channel) : Prop where
  set : channel.Pending = true ↔ LinkedOnce s id
  clear : channel.Pending = false ↔ ∀ k, id ∉ lists s k

/-- The steps of a run without a suspend: the lock that guards the queue of a processor stays the
same. -/
def Unsuspended (_ : State ι) : Action ι → Prop
  | .early | .late => False
  | _ => True

instance (s : State ι) : (act : Action ι) → Decidable (Unsuspended s act)
  | .early | .late => isFalse fun h => h
  | .opened _ _ | .call _ _ _ | .upcall _ | .dispatch _ | .run _ _ => isTrue trivial

/-! ## The invariant -/

/-- A channel whose `Pending` is set is on a queue, or an agent has charge of it. -/
def Placed (s : State ι) : Prop :=
  ∀ id channel, s.ctx.Channels id = some channel → channel.Pending = true → ∃ k, id ∈ place s k

theorem holding_perm (pc : Pc) : pc.holding.Perm (pc.window ++ pc.flushList) := by
  cases pc with
  | polling Cpu lock flush poll => cases poll <;> exact List.Perm.refl _
  | _ => exact List.Perm.refl _

/-- The list of `EvtchnFlush`, and the channel in the window, are what an agent has charge of. -/
theorem mem_place (hwindow : ∀ a, id ∉ (s.pc a).window) : id ∈ place s k ↔ id ∈ lists s k := by
  rcases k with Cpu | a
  · exact Iff.rfl
  · refine (holding_perm (s.pc a)).mem_iff.trans ?_
    rw [List.mem_append, or_iff_right (hwindow a)]
    exact Iff.rfl

theorem nodup_lists (h : Tracked (place s) (Marked s.ctx)) (k : ℕ ⊕ Agent ι) : (lists s k).Nodup := by
  rcases k with Cpu | a
  · exact h.nodup (.inl Cpu)
  · have hnodup := (holding_perm (s.pc a)).nodup_iff.mp (h.nodup (.inr a))
    exact (List.nodup_append.mp hnodup).2.1

/-- The invariants give the promise. -/
theorem Placed.queued (h : Placed s) (htracked : Tracked (place s) (Marked s.ctx)) {channel : Channel}
    (hid : s.ctx.Channels id = some channel) (hwindow : ∀ a, id ∉ (s.pc a).window) :
    Queued s id channel := by
  have hset : ∀ {k}, id ∈ lists s k → channel.Pending = true := fun hmem =>
    (htracked.mark _ id ((mem_place hwindow).mpr hmem)).2 channel hid
  have hplaced : channel.Pending = true → ∃ k, id ∈ lists s k := fun hpending => by
    obtain ⟨k, hk⟩ := h id channel hid hpending
    exact ⟨k, (mem_place hwindow).mp hk⟩
  refine ⟨⟨fun hpending => ?_, ?_⟩, ⟨fun hpending k hmem => ?_, fun hnone => ?_⟩⟩
  · obtain ⟨k, hk⟩ := hplaced hpending
    refine ⟨k, List.count_eq_one_of_mem (nodup_lists htracked k) hk, fun k' hne hk' => hne ?_⟩
    exact htracked.apart k' k id ((mem_place hwindow).mpr hk') ((mem_place hwindow).mpr hk)
  · rintro ⟨k, hcount, -⟩
    exact hset (List.count_pos_iff.mp (hcount ▸ Nat.one_pos))
  · exact absurd ((hset hmem).symm.trans hpending) (by simp)
  · by_contra hpending
    obtain ⟨k, hk⟩ := hplaced (Bool.not_eq_false _ ▸ hpending)
    exact hnone k hk

/-! ## Accesses -/

section Kept

variable [DecidableEq ι] (hpc : t.pc = Function.update s.pc a pc')
include hpc

/-- The agent keeps what it has charge of, or gets more. -/
theorem kept_of_subset (hlist : t.ctx.PendingList = s.ctx.PendingList)
    (hhold : (s.pc a).holding ⊆ pc'.holding) (hy : y ∈ place s k) : ∃ k', y ∈ place t k' := by
  refine ⟨k, ?_⟩
  rcases k with Cpu | b
  · rwa [place, hlist]
  · by_cases hb : b = a
    · subst hb
      rw [place_agent hpc]
      exact hhold hy
    · rwa [place_other hpc hb]

/-- The agent puts a channel on a queue. -/
theorem kept_insert {Cpu : ℕ} (hhold : (s.pc a).holding.Perm (id :: pc'.holding))
    (hlist : t.ctx.PendingList =
      Function.update s.ctx.PendingList Cpu (s.ctx.PendingList Cpu ++ [id]))
    (hy : y ∈ place s k) : ∃ k', y ∈ place t k' := by
  have hqueue : id ∈ place t (.inl Cpu) := by
    rw [place, hlist, Function.update_self]
    exact List.mem_append_right _ (List.mem_singleton.mpr rfl)
  rcases k with Cpu' | b
  · refine ⟨.inl Cpu', ?_⟩
    rw [place, hlist]
    by_cases hne : Cpu' = Cpu
    · subst hne
      rw [Function.update_self]
      exact List.mem_append_left _ hy
    · rwa [Function.update_of_ne hne]
  · by_cases hb : b = a
    · subst hb
      obtain rfl | hy := List.mem_cons.mp (hhold.mem_iff.mp hy)
      · exact ⟨.inl Cpu, hqueue⟩
      · exact ⟨.inr b, by rwa [place_agent hpc]⟩
    · exact ⟨.inr b, by rwa [place_other hpc hb]⟩

/-- The agent takes a channel off a queue. -/
theorem kept_remove {Cpu : ℕ} (hhold : pc'.holding.Perm (id :: (s.pc a).holding))
    (hlist : t.ctx.PendingList =
      Function.update s.ctx.PendingList Cpu ((s.ctx.PendingList Cpu).erase id))
    (hy : y ∈ place s k) : ∃ k', y ∈ place t k' := by
  have hagent : ∀ {x}, x ∈ id :: (s.pc a).holding → x ∈ place t (.inr a) := fun hx => by
    rw [place_agent hpc]
    exact hhold.mem_iff.mpr hx
  rcases k with Cpu' | b
  · by_cases hyid : y = id
    · exact ⟨.inr a, hagent (hyid ▸ List.mem_cons_self)⟩
    · refine ⟨.inl Cpu', ?_⟩
      rw [place, hlist]
      by_cases hne : Cpu' = Cpu
      · subst hne
        rw [Function.update_self]
        exact (List.mem_erase_of_ne hyid).mpr hy
      · rwa [Function.update_of_ne hne]
  · by_cases hb : b = a
    · subst hb
      exact ⟨.inr b, hagent (List.mem_cons_of_mem _ hy)⟩
    · exact ⟨.inr b, by rwa [place_other hpc hb]⟩

/-- The agent lets a channel go. -/
theorem kept_drop (hlist : t.ctx.PendingList = s.ctx.PendingList)
    (hhold : (s.pc a).holding.Perm (id :: pc'.holding)) (hyid : y ≠ id) (hy : y ∈ place s k) :
    ∃ k', y ∈ place t k' := by
  refine ⟨k, ?_⟩
  rcases k with Cpu | b
  · rwa [place, hlist]
  · by_cases hb : b = a
    · subst hb
      rw [place_agent hpc]
      exact (List.mem_cons.mp (hhold.mem_iff.mp hy)).resolve_left hyid
    · rwa [place_other hpc hb]

end Kept

section Access

variable [DecidableEq ι]

/-- A channel stays somewhere, unless its `Pending` is cleared. -/
theorem kept_access (hacc : Access p s a (s.pc a) t) (hy : y ∈ place s k) {new : Channel}
    (hnew : t.ctx.Channels y = some new) (hpending : new.Pending = true) : ∃ k', y ∈ place t k' := by
  -- the channel whose `Pending` is cleared is another one
  have hother : ∀ {id : ℕ} {channel : Channel}, Function.update s.ctx.Channels id
      (some { channel with Pending := false }) y = some new → y ≠ id := by
    rintro id channel hch rfl
    rw [Function.update_self] at hch
    obtain rfl := Option.some.inj hch
    exact absurd hpending (by simp)
  generalize hpc : s.pc a = pc at hacc
  have hsame : ∀ {l}, pc.holding = l → (s.pc a).holding ⊆ l := fun h => by
    rw [hpc, h]
    exact List.Subset.refl _
  cases hacc with
  | wasClear | triggered =>
    refine kept_of_subset (s := s) rfl rfl ?_ hy
    rw [hpc]
    exact List.subset_cons_self _ _
  | inserted => exact kept_insert (s := s) rfl (by rw [hpc]; rfl) rfl hy
  | queued => exact kept_insert (s := s) rfl (by rw [hpc]; rfl) rfl hy
  | tookClosed =>
    exact kept_remove (s := s) rfl (by rw [hpc]; exact List.perm_append_singleton _ _) rfl hy
  | removed => exact kept_remove (s := s) rfl (by rw [hpc]; rfl) rfl hy
  | cleared => exact kept_drop (s := s) rfl rfl (by rw [hpc]; rfl) (hother hnew) hy
  | tookClear => exact kept_drop (s := s) rfl rfl (by rw [hpc]; rfl) (hother hnew) hy
  | reaped | closeReaped =>
    exact kept_of_subset (s := s) rfl (evtchnReap_PendingList ..) (hsame rfl) hy
  | @released caller Cpu Queued =>
    refine kept_of_subset (s := s) rfl rfl ?_ hy
    rw [hpc]
    exact List.nil_subset _
  | _ => exact kept_of_subset (s := s) rfl rfl (hsame rfl) hy

/-- The agent has the channel whose `Pending` it has set. -/
theorem placed_of_testing (hacc : Access p s a pc t) (htesting : pc.testing = some id)
    {channel : Channel} (hid : s.ctx.Channels id = some channel) (hclear : channel.Pending = false) :
    id ∈ place t (.inr a) := by
  show id ∈ (t.pc a).holding
  cases hacc with
  | wasClear =>
    obtain rfl := Option.some.inj htesting
    rw [State.goto_pc, Function.update_self]
    exact List.mem_cons_self
  | triggered =>
    obtain rfl := Option.some.inj htesting
    rw [State.goto_pc, Function.update_self]
    exact List.mem_cons_self
  | wasSet hid' hset | already hid' hset =>
    obtain rfl := Option.some.inj htesting
    obtain rfl := Option.some.inj (hid.symm.trans hid')
    exact absurd (hset.symm.trans hclear) (by simp)
  | _ => cases htesting

theorem Placed.access (h : Placed s) (hacc : Access p s a (s.pc a) t) : Placed t := by
  intro id new hnew hpending
  obtain ⟨-, -, hchannels, -, -⟩ := frame_access hacc
  cases hid : s.ctx.Channels id with
  | none => exact absurd (hnew.symm.trans (hchannels id hid)) (Option.some_ne_none _)
  | some channel =>
    cases hold : channel.Pending with
    | true =>
      obtain ⟨k, hk⟩ := h id channel hid hold
      exact kept_access hacc hk hnew hpending
    | false =>
      obtain hset | htesting := (channels_access hacc hid hnew).pending hpending
      · exact absurd (hset.symm.trans hold) (by simp)
      · exact ⟨.inr a, placed_of_testing hacc htesting hid hold⟩

end Access

/-! ## Runs -/

variable [DecidableEq ι] [Fintype ι] {act : Action ι}

omit [DecidableEq ι] [Fintype ι] in
/-- Agents start with nothing, and no channel is opened with its `Pending` set. -/
theorem Placed.start (h : Placed s) (hplace : ∀ k, place t k = place s k)
    (hch : ∀ id new, t.ctx.Channels id = some new → new.Pending = true →
      ∃ channel, s.ctx.Channels id = some channel ∧ channel.Pending = true) : Placed t := by
  intro id new hnew hpending
  obtain ⟨channel, hid, hset⟩ := hch id new hnew hpending
  obtain ⟨k, hk⟩ := h id channel hid hset
  exact ⟨k, hplace k ▸ hk⟩

omit [Fintype ι] in
/-- An agent that starts has charge of no channel. -/
theorem place_start (hctx : t.ctx = s.ctx) (hpc : t.pc = Function.update s.pc a pc')
    (hidle : s.pc a = .idle) (hhold : pc'.holding = []) (k : ℕ ⊕ Agent ι) : place t k = place s k := by
  rcases k with Cpu | b
  · rw [place, place, hctx]
  · by_cases hb : b = a
    · subst hb
      rw [place_agent hpc, hhold, place, hidle]
      rfl
    · exact place_other hpc hb

omit [DecidableEq ι] [Fintype ι] in
/-- A new channel does not have its `Pending` set. -/
theorem Placed.opened (h : Placed s) (args : Arguments) (answers : Answers) :
    Placed (s.put (evtchnOpen p s.ctx args answers).2) := by
  obtain ⟨hlist, hch⟩ := evtchnOpen_cases (p := p) s.ctx args answers
  refine h.start ?_ fun id new hnew hpending => ?_
  · rintro (Cpu | b)
    · exact congrFun hlist Cpu
    · rfl
  · rw [State.put_ctx] at hnew
    obtain ⟨hch, -⟩ | ⟨r, -, hch, -⟩ := hch
    · rw [hch] at hnew
      exact ⟨new, hnew, hpending⟩
    · rw [hch] at hnew
      by_cases hne : id = s.ctx.next
      · rw [hne, Function.update_self] at hnew
        obtain rfl := Option.some.inj hnew
        exact absurd hpending (by simp)
      · rw [Function.update_of_ne hne] at hnew
        exact ⟨new, hnew, hpending⟩

/-- **Each step keeps the channels placed.** -/
theorem Placed.step (h : Placed s) (hG : Unsuspended s act) (hs : step p s act = some t) : Placed t := by
  cases stepped_of_step hs with
  | opened hcaptured hport => exact h.opened _ _
  | started hstart =>
    have hhold := (begins_empty hstart.begins).1
    refine h.start (place_start hstart.ctx hstart.pc hstart.idle hhold) fun id new hnew hpending => ?_
    rw [hstart.ctx] at hnew
    exact ⟨new, hnew, hpending⟩
  | accessed hheld hacc => exact h.access hacc
  | suspended => exact hG.elim
  | resumed => exact hG.elim

omit [DecidableEq ι] [Fintype ι] in
theorem placed_init (Route : ℕ → Option ℕ) : Placed (init Route : State ι) :=
  fun _ _ hid => by cases hid

/-- **A channel is queued at most once**, and exactly while its `Pending` is set, whenever no agent is
enqueuing or dequeuing it. -/
theorem queued_of_reaches {Route : ℕ → Option ℕ} (h : Reaches (step p) Unsuspended (init Route) s)
    {channel : Channel} (hid : s.ctx.Channels id = some channel)
    (hwindow : ∀ a, id ∉ (s.pc a).window) : Queued s id channel := by
  have hinv : Sound p s ∧ Placed s :=
    h.invariant (P := fun s => Sound p s ∧ Placed s) ⟨sound_init Route, placed_init Route⟩
      fun _ _ _ hP hG hs => ⟨hP.1.step hs, hP.2.step hG hs⟩
  exact hinv.2.queued hinv.1.tracked hid hwindow

/-- No agent is in a window. -/
def State.Clear (p : Platform) (s : State ι) : Prop :=
  (∀ Cpu < p.ProcessorCount,
      (s.pc (.interrupt Cpu)).window = [] ∧ (s.pc (.dpc Cpu)).window = []) ∧
    (∀ τ, (s.pc (.thread τ)).window = []) ∧ (s.pc .late).window = []

instance (p : Platform) (s : State ι) : Decidable (s.Clear p) := inferInstanceAs (Decidable (_ ∧ _))

omit [DecidableEq ι] [Fintype ι] in
/-- Agents of processors that do not exist are idle. -/
theorem Sound.window (h : Sound p s) (hclear : s.Clear p) (a : Agent ι) : id ∉ (s.pc a).window := by
  obtain ⟨hcpus, hthreads, hlate⟩ := hclear
  have hfits := h.fits a
  suffices hnil : (s.pc a).window = [] by simp [hnil]
  rcases a with Cpu | Cpu | τ | _
  · by_cases hCpu : Cpu < p.ProcessorCount
    · exact (hcpus Cpu hCpu).1
    · rw [fits_interrupt hfits hCpu]
      rfl
  · by_cases hCpu : Cpu < p.ProcessorCount
    · exact (hcpus Cpu hCpu).2
    · rw [fits_dpc hfits hCpu]
      rfl
  · exact hthreads τ
  · exact hlate

/-- A channel is triggered, and closed before the DPC runs, which puts it on its list. -/
def closeQueuedActions [Zero ι] : List (Action ι) :=
  [openZero, .call 0 0 .trigger] ++ runs (.thread 0) 6 ++ [.call 0 0 .close] ++ runs (.thread 0) 4 ++
    [.dispatch 0] ++ runs (.dpc 0) 4

theorem queued_of_reaches_run : ∃ s : State (Fin 1), ∃ channel, s.ctx.Channels 0 = some channel ∧
    Reaches (step twoCpus) Unsuspended (init fun _ => none) s ∧ (s.pc (.dpc 0)).flushList = [0] ∧
      Queued s 0 channel := by
  obtain ⟨s, hs, hp⟩ := (Option.any_eq_true (fun s : State (Fin 1) =>
    decide ((s.ctx.Channels 0).isSome ∧ (s.pc (.dpc 0)).flushList = [0] ∧ s.Clear twoCpus))
    (guardedRun (step twoCpus) Unsuspended (init fun _ => none) closeQueuedActions)).mp (by decide +kernel)
  obtain ⟨hsome, hflush, hclear⟩ := of_decide_eq_true hp
  obtain ⟨channel, hid⟩ := Option.isSome_iff_exists.mp hsome
  have h : Reaches (step twoCpus) Unsuspended (init fun _ => none) s := reaches_of_guardedRun hs
  have hsound : Sound twoCpus s :=
    h.invariant (P := Sound twoCpus) (sound_init _) fun _ _ _ hP _ hs => hP.step hs
  exact ⟨s, channel, hid, h, hflush, queued_of_reaches h hid (hsound.window hclear)⟩

end XenBus.Evtchn.Concurrent
