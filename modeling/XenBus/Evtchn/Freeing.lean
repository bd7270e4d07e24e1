import XenBus.Evtchn.Apart

/-!
# Channels are freed when nothing holds them

`EvtchnReap` frees a channel, from `EvtchnFlush` for one that was closed while it was active, and from
`EvtchnClose` itself for one that a suspend had made inactive. The latter does not look at `Pending`:
a channel that was triggered before the suspend is freed while it is on a queue. And the
`EvtchnTrigger` of a close may come after the DPC of an earlier trigger has taken the closed channel
off the queue, and queue it again before it is freed (`freed_on_queue`).

`freed_of_reaches`: in every run without these, a channel that is freed is on no queue and on no list,
its `Pending` is clear, and it is not in the table.
-/

namespace XenBus.Evtchn.Concurrent

open Transition Placement

variable {ι : Type} {p : Platform} {s t : State ι} {a : Agent ι} {pc pc' : Pc} {id Cpu : ℕ}

/-! ## Every other step keeps the invariant -/

/-- Where an agent starts. -/
def Pc.plain : Pc → Bool
  | .triggerRead .client _ | .closeTest _ | .polled _ _ none | .dpcLock _ => true
  | _ => false

theorem relies_plain (h : pc.plain = true)
    (hclosing : ∀ id channel, pc.closing = some id → s.ctx.Channels id = some channel →
      channel.Closed = false) : Relies s pc := by
  cases pc with
  | triggerRead | closeTest | dpcLock =>
    exact ⟨by simp [Pc.aims], by simp [Pc.spliced], by simp [Pc.reaps], by simp [Pc.leaves],
      by simp [Pc.shuts], hclosing, rfl⟩
  | polled Cpu lock flush =>
    cases flush with
    | none =>
      exact ⟨by simp [Pc.aims], by simp [Pc.spliced], by simp [Pc.reaps], by simp [Pc.leaves],
        by simp [Pc.shuts], hclosing, rfl⟩
    | some List => cases h
  | _ => cases h

theorem refs_plain (h : pc.plain = true) : pc.refs = none ∧ pc.spliced = [] ∧ pc.leaves = none ∧
    pc.shuts = none ∧ ∀ id, pc ≠ .closeTable id := by
  cases pc with
  | triggerRead | closeTest | dpcLock => exact ⟨rfl, rfl, rfl, rfl, by simp⟩
  | polled Cpu lock flush =>
    cases flush with
    | none => exact ⟨rfl, rfl, rfl, rfl, by simp⟩
    | some List => cases h
  | _ => cases h

/-- A channel after `EvtchnOpen` was there before, or it is the new one. -/
theorem channel_opened {ctx : Context} {args : Arguments} {answers : Answers} {channel : Channel}
    (h : (evtchnOpen p ctx args answers).2.Channels id = some channel) :
    ctx.Channels id = some channel ∨ id = ctx.next ∧ channel.Active = true ∧ channel.Closed = false := by
  obtain ⟨-, ⟨hch, -⟩ | ⟨r, -, hch, -⟩⟩ := evtchnOpen_cases (p := p) ctx args answers
  · exact .inl (hch ▸ h)
  · rw [hch] at h
    by_cases hne : id = ctx.next
    · rw [hne, Function.update_self] at h
      obtain rfl := Option.some.inj h
      exact .inr ⟨hne, rfl, rfl⟩
    · rw [Function.update_of_ne hne] at h
      exact .inl h

/-- A channel that is there stays as it is. -/
theorem channel_open {ctx : Context} (args : Arguments) (answers : Answers) {channel : Channel}
    (hfresh : ∀ id channel, ctx.Channels id = some channel → id < ctx.next)
    (hid : ctx.Channels id = some channel) :
    (evtchnOpen p ctx args answers).2.Channels id = some channel := by
  obtain ⟨-, ⟨hch, -⟩ | ⟨r, -, hch, -⟩⟩ := evtchnOpen_cases (p := p) ctx args answers
  · exact hch ▸ hid
  · rw [hch, Function.update_of_ne (hfresh id channel hid).ne]
    exact hid

theorem next_le_opened (ctx : Context) (args : Arguments) (answers : Answers) :
    ctx.next ≤ (evtchnOpen p ctx args answers).2.next := by
  obtain ⟨-, ⟨-, hnext, -⟩ | ⟨r, -, -, hnext, -⟩⟩ := evtchnOpen_cases (p := p) ctx args answers <;> omega

/-- The new entry of the table is the only one of its port. -/
theorem keys_opened {ctx : Context} {args : Arguments} {answers : Answers}
    (hkeys : (ctx.Table.map Prod.fst).Nodup)
    (hport : ∀ r, openPort p ctx args answers.port = some r → hashTableLookup ctx.Table r.1 = none) :
    ((evtchnOpen p ctx args answers).2.Table.map Prod.fst).Nodup := by
  obtain ⟨-, ⟨-, -, htable⟩ | ⟨r, hr, -, -, htable⟩⟩ := evtchnOpen_cases (p := p) ctx args answers
  · rw [htable]
    exact hkeys
  · rw [htable, List.map_append, List.nodup_append]
    refine ⟨hkeys, List.nodup_singleton _, ?_⟩
    rintro key hkey _ hkey' rfl
    obtain ⟨entry, hentry, rfl⟩ := List.mem_map.mp hkey
    have := List.find?_eq_none.mp (Option.map_eq_none_iff.mp (hport r hr)) entry hentry
    exact this (by simpa using hkey')

section Start

variable [DecidableEq ι]

/-- A step that starts an agent. -/
theorem Apart.start (h : Apart p s) (hsound : Sound p t) (hctx : t.ctx = s.ctx)
    (hpc : t.pc = Function.update s.pc a pc') (hidle : s.pc a = .idle) (hplain : pc'.plain = true)
    (hmentions : ∀ id ∈ pc'.mentions, id < s.ctx.next)
    (hcaptured : t.captured = s.captured) (hheld : s.captured = true → a.held = false)
    (hlate : a = .late → s.captured = true) (hmono : ∀ id, s.Closing id = true → t.Closing id = true)
    (hclosing : ∀ id, pc'.closing = some id → s.Closing id = false ∧ t.Closing id = true) :
    Apart p t := by
  obtain ⟨hrefs, hspliced, hleaves, hshuts, htable⟩ := refs_plain hplain
  have hother : ∀ {b}, b ≠ a → t.pc b = s.pc b := fun hb => by rw [hpc, Function.update_of_ne hb]
  have hself : t.pc a = pc' := by rw [hpc, Function.update_self]
  -- what another program counter says, it says of an agent that has not moved
  have hkeep : ∀ {P : Pc → Prop} {b}, P (s.pc b) → ¬ P .idle → P (t.pc b) := by
    intro P b hP hnot
    rw [hother]
    · exact hP
    · rintro rfl
      exact hnot (hidle ▸ hP)
  have hback : ∀ {P : Pc → Prop} {b}, P (t.pc b) → ¬ P pc' → P (s.pc b) := by
    intro P b hP hnot
    rw [← hother]
    · exact hP
    · rintro rfl
      exact hnot (hself ▸ hP)
  refine ⟨hsound, fun b id hmem => ?_, fun b => ?_, fun hc => ?_, fun hl => ?_, hctx ▸ h.queue, ?_,
    hctx ▸ h.keys, fun τ τ' id hτ hτ' => ?_, fun id hid => ?_, fun b Cpu id channel hb hid => ?_,
    fun b id channel hb hid => ?_⟩
  · rw [hctx]
    by_cases hb : b = a
    · rw [hb, hself] at hmem
      exact hmentions id hmem
    · exact h.fresh b id (hother hb ▸ hmem)
  · by_cases hb : b = a
    · rw [hb, hself]
      apply relies_plain hplain
      intro id channel hc hid
      rw [hctx] at hid
      rw [← Bool.not_eq_true]
      intro hclosed
      have := h.closing id (.inr ⟨channel, hid, hclosed⟩)
      exact absurd (this.symm.trans (hclosing id hc).1) (by simp)
    · rw [hother hb]
      have hr := h.relies b
      exact ⟨hctx ▸ hr.aims, hctx ▸ hr.spliced, hctx ▸ hr.reaps, hctx ▸ hr.leaves, hctx ▸ hr.shuts,
        hctx ▸ hr.closing, hr.binds⟩
  · rw [hcaptured] at hc
    obtain ⟨hdpcs, hthreads, hinactive⟩ := h.captured hc
    have hnot := hheld hc
    refine ⟨fun Cpu => ?_, fun τ => ?_, hctx ▸ hinactive⟩
    · rw [hother, hdpcs]
      rintro rfl
      cases hnot
    · rw [hother, hthreads]
      rintro rfl
      cases hnot
  · rw [hcaptured]
    by_cases ha : a = .late
    · exact hlate ha
    · rw [hother (Ne.symm ha)] at hl
      exact h.late hl
  · intro port id hmem
    rw [hctx] at hmem ⊢
    obtain ⟨channel, hid, hport, hopen, hactive | ⟨τ, hτ⟩⟩ := h.table port id hmem
    · exact ⟨channel, hid, hport, hopen, .inl hactive⟩
    · exact ⟨channel, hid, hport, hopen, .inr ⟨τ, hkeep (P := (· = .closeTable id)) hτ (by simp)⟩⟩
  · -- the channel that is closed now was not being closed before
    have hnew : ∀ {τ}, (t.pc (.thread τ)).closing = some id → .thread τ ≠ a →
        s.Closing id = true := by
      intro τ hτ hne
      rw [hother hne] at hτ
      exact h.closing id (.inl ⟨τ, hτ⟩)
    by_cases hτa : .thread τ = a <;> by_cases hτa' : .thread τ' = a
    · exact Agent.thread.inj (hτa.trans hτa'.symm)
    · rw [hτa, hself] at hτ
      exact absurd ((hnew hτ' hτa').symm.trans (hclosing id hτ).1) (by simp)
    · rw [hτa', hself] at hτ'
      exact absurd ((hnew hτ hτa).symm.trans (hclosing id hτ').1) (by simp)
    · rw [hother hτa] at hτ
      rw [hother hτa'] at hτ'
      exact h.closer τ τ' id hτ hτ'
  · obtain ⟨τ, hτ⟩ | hclosed := hid
    · by_cases hτa : .thread τ = a
      · rw [hτa, hself] at hτ
        exact (hclosing id hτ).2
      · rw [hother hτa] at hτ
        exact hmono id (h.closing id (.inl ⟨τ, hτ⟩))
    · rw [hctx] at hclosed
      exact hmono id (h.closing id (.inr hclosed))
  · rw [hctx] at hid
    have hb := hback (P := fun pc => pc.refs = some (Cpu, id)) hb (by simp [hrefs])
    obtain hactive | hclosed | ⟨τ, hτ⟩ := h.referred b Cpu id channel hb hid
    · exact .inl hactive
    · exact .inr (.inl hclosed)
    · exact .inr (.inr ⟨τ, hkeep (P := fun pc => pc.shuts = some id) hτ (by simp [Pc.shuts])⟩)
  · rw [hctx] at hid
    have hb := hback (P := fun pc => pc.refs = some (channel.Cpu, id)) hb (by simp [hrefs])
    obtain ⟨hsp, hl⟩ := h.apart b id channel hb hid
    refine ⟨fun Cpu hmem => hsp Cpu ?_, fun τ hτ => hl τ ?_⟩
    · exact hback (P := fun pc => id ∈ pc.spliced) hmem (by simp [hspliced])
    · exact hback (P := fun pc => pc.leaves = some id) hτ (by simp [hleaves])

omit [DecidableEq ι] in
/-- A step that opens a channel, or none. -/
theorem Apart.opened (h : Apart p s) {args : Arguments} {answers : Answers}
    (hsound : Sound p (s.put (evtchnOpen p s.ctx args answers).2)) (hcaptured : s.captured = false)
    (hport : ∀ r, openPort p s.ctx args answers.port = some r →
      hashTableLookup s.ctx.Table r.1 = none) :
    Apart p (s.put (evtchnOpen p s.ctx args answers).2) := by
  have hsame : ∀ {id channel}, s.ctx.Channels id = some channel →
      (evtchnOpen p s.ctx args answers).2.Channels id = some channel :=
    channel_open args answers h.sound.fresh
  have hmention : ∀ {b id channel}, id ∈ (s.pc b).mentions →
      (evtchnOpen p s.ctx args answers).2.Channels id = some channel →
        s.ctx.Channels id = some channel := by
    intro b id channel hmem hid
    obtain hid | ⟨rfl, -⟩ := channel_opened hid
    · exact hid
    · exact absurd (h.fresh b _ hmem) (lt_irrefl _)
  obtain ⟨hlist, hcases⟩ := evtchnOpen_cases (p := p) s.ctx args answers
  refine ⟨hsound, fun b id hmem => (h.fresh b id hmem).trans_le (next_le_opened ..), fun b => ?_,
    fun hc => ?_, h.late, fun Cpu id channel hmem hid => ?_, fun port id hmem => ?_,
    keys_opened h.keys hport, h.closer, fun id hid => ?_, fun b Cpu id channel hb hid => ?_,
    fun b id channel hb hid => ?_⟩
  · have hr := h.relies b
    exact ⟨fun Cpu id channel hpc hid => hr.aims Cpu id channel hpc
        (hmention (mentions_of_aims hpc) hid),
      fun id channel hpc hid => hr.spliced id channel hpc (hmention (mentions_of_spliced hpc) hid),
      fun id channel hpc hid => hr.reaps id channel hpc
        (hmention (mentions_of_spliced (spliced_of_reaps hpc)) hid),
      fun id channel hpc hid => hr.leaves id channel hpc
        (hmention (mentions_of_closing (closing_of_leaves hpc)) hid),
      fun id channel hpc hid => hr.shuts id channel hpc
        (hmention (mentions_of_closing (closing_of_shuts hpc)) hid),
      fun id channel hpc hid => hr.closing id channel hpc (hmention (mentions_of_closing hpc) hid),
      hr.binds⟩
  · exact absurd (hc.symm.trans hcaptured) (by simp)
  · rw [State.put_ctx, hlist] at hmem
    obtain hid | ⟨rfl, -⟩ := channel_opened hid
    · exact h.queue Cpu id channel hmem hid
    · exact absurd (h.sound.tracked.mark (.inl Cpu) _ hmem).1 (lt_irrefl _)
  · have holdEntry : (port, id) ∈ s.ctx.Table →
        ∃ channel, (evtchnOpen p s.ctx args answers).2.Channels id = some channel ∧
          channel.LocalPort = port ∧ channel.Closed = false ∧
            (channel.Active = true ∨ ∃ τ, s.pc (.thread τ) = .closeTable id) := by
      intro hmem
      obtain ⟨channel, hid, hrest⟩ := h.table port id hmem
      exact ⟨channel, hsame hid, hrest⟩
    obtain ⟨-, -, htable⟩ | ⟨r, -, hch, -, htable⟩ := hcases
    · exact holdEntry (htable ▸ hmem)
    · rw [State.put_ctx, htable] at hmem
      obtain hmem | hmem := List.mem_append.mp hmem
      · exact holdEntry hmem
      · obtain ⟨rfl, rfl⟩ := Prod.ext_iff.mp (List.mem_singleton.mp hmem)
        refine ⟨⟨false, true, args.type, r.1, 0, false⟩, ?_, rfl, rfl, .inl rfl⟩
        rw [State.put_ctx, hch, Function.update_self]
  · apply h.closing id
    obtain hτ | ⟨channel, hid, hclosed⟩ := hid
    · exact .inl hτ
    · obtain hid | ⟨-, -, hopen⟩ := channel_opened hid
      · exact .inr ⟨channel, hid, hclosed⟩
      · exact absurd (hclosed.symm.trans hopen) (by simp)
  · exact h.referred b Cpu id channel hb (hmention (mentions_of_refs hb) hid)
  · exact h.apart b id channel hb (hmention (mentions_of_refs hb) hid)

end Start

/-! ## The suspend -/

/-- Every entry of the table is that of an active channel. -/
def Listed (ctx : Context) : Prop :=
  (∀ port id, (port, id) ∈ ctx.Table → ∃ channel, ctx.Channels id = some channel ∧
      channel.LocalPort = port ∧ channel.Active = true) ∧ (ctx.Table.map Prod.fst).Nodup

theorem Listed.suspendOne {ctx : Context} (h : Listed ctx) (id : ℕ) : Listed (suspendOne ctx id) := by
  obtain ⟨htable, hkeys⟩ := h
  unfold Concurrent.suspendOne
  split
  · exact ⟨htable, hkeys⟩
  · split_ifs with hactive
    · refine ⟨fun port id' hmem => ?_, hkeys.sublist ((List.eraseP_sublist).map _)⟩
      obtain ⟨hmem, hne⟩ := (mem_hashTableRemove hkeys).mp hmem
      obtain ⟨channel, hid, hport, hactive'⟩ := htable port id' hmem
      refine ⟨channel, ?_, hport, hactive'⟩
      change Function.update _ _ _ _ = _
      rw [Function.update_of_ne, hid]
      rintro rfl
      simp_all
    · exact ⟨htable, hkeys⟩

theorem Listed.suspendEarly {ctx : Context} (h : Listed ctx) : Listed (suspendEarly ctx) := by
  unfold Concurrent.suspendEarly
  induction List.range ctx.next generalizing ctx with
  | nil => exact h
  | cons id ids ih => exact ih (h.suspendOne id)

/-- After the early callback the table is empty. -/
theorem Apart.table_early (h : Apart p s) (hthreads : ∀ τ, (s.pc (.thread τ)).belowDispatch = true)
    (port id : ℕ) : (port, id) ∉ (suspendEarly s.ctx).Table := by
  have hlisted : Listed s.ctx := by
    refine ⟨fun port id hmem => ?_, h.keys⟩
    obtain ⟨channel, hid, hport, -, hactive | ⟨τ, hτ⟩⟩ := h.table port id hmem
    · exact ⟨channel, hid, hport, hactive⟩
    · have := hthreads τ
      rw [hτ] at this
      cases this
  intro hmem
  obtain ⟨channel, hid, -, hactive⟩ := hlisted.suspendEarly.1 port id hmem
  obtain ⟨c, -, rfl⟩ := Option.map_eq_some_iff.mp ((suspendEarly_Channels h.sound.fresh id).symm.trans hid)
  cases hactive

theorem refs_belowDispatch (h : pc.belowDispatch = true) : pc.refs = none := by
  cases pc with
  | polling => cases h
  | _ => rfl

/-- When the processors are passive, a suspend can interrupt every agent. -/
theorem Sound.belowDispatch [Fintype ι] (h : Sound p s) (hpassive : s.Passive p)
    (hlate : s.pc .late = .idle) (b : Agent ι) : (s.pc b).belowDispatch = true := by
  rcases b with Cpu | Cpu | τ | _
  · by_cases hCpu : Cpu < p.ProcessorCount
    · rw [(hpassive.1 Cpu hCpu).1]
      rfl
    · have hfits := h.fits (.interrupt Cpu)
      generalize s.pc (.interrupt Cpu) = pc at hfits
      cases pc with
      | polling | polled => exact absurd hfits.2.1 hCpu
      | idle => rfl
      | _ => exact hfits.elim
  · rw [h.dpc_idle (fun Cpu hCpu => (hpassive.1 Cpu hCpu).2) Cpu]
    rfl
  · exact hpassive.2 τ
  · rw [hlate]
    rfl

theorem Apart.late_idle (h : Apart p s) (hcaptured : s.captured = false) : s.pc .late = .idle := by
  by_contra hlate
  exact absurd ((h.late hlate).symm.trans hcaptured) (by simp)

theorem Apart.early [Fintype ι] (h : Apart p s) (hsound : Sound p t) (hpassive : s.Passive p)
    (hcaptured : s.captured = false) (hctx : t.ctx = suspendEarly s.ctx) (hpc : t.pc = s.pc)
    (hcaptured' : t.captured = true) (hclosing : t.Closing = s.Closing) : Apart p t := by
  obtain ⟨hnext, hlist, -⟩ := foldl_suspendOne (List.range s.ctx.next) s.ctx
  have hold : ∀ {id new}, t.ctx.Channels id = some new →
      ∃ channel, s.ctx.Channels id = some channel ∧ new = deactivate channel := by
    intro id new hnew
    rw [hctx, suspendEarly_Channels h.sound.fresh] at hnew
    obtain ⟨channel, hid, hdeactivate⟩ := Option.map_eq_some_iff.mp hnew
    exact ⟨channel, hid, hdeactivate.symm⟩
  have hempty := h.table_early hpassive.2
  refine ⟨hsound, fun b id hmem => ?_, fun b => ?_, fun _ => ⟨fun Cpu => ?_, fun τ => ?_, ?_⟩,
    fun _ => hcaptured', fun Cpu id new hmem hnew => ?_, fun port id hmem => ?_, ?_, ?_,
    fun id hid => ?_, fun b Cpu id new hb hnew => ?_, fun b id new hb hnew => ?_⟩
  · rw [hctx]
    exact (h.fresh b id (hpc ▸ hmem)).trans_eq hnext.symm
  · rw [hpc]
    have hr := h.relies b
    refine ⟨fun Cpu id new hat hnew => ?_, fun id new hat hnew => ?_, fun id new hat hnew => ?_,
      fun id new hat hnew => ?_, fun id new hat hnew => ?_, fun id new hat hnew => ?_, hr.binds⟩
    all_goals obtain ⟨channel, hid, rfl⟩ := hold hnew
    · exact hr.aims Cpu id channel hat hid
    · exact hr.spliced id channel hat hid
    · exact hr.reaps id channel hat hid
    · exact ⟨(hr.leaves id channel hat hid).1, rfl⟩
    · rfl
    · exact hr.closing id channel hat hid
  · rw [hpc]
    exact h.sound.dpc_idle (fun Cpu hCpu => (hpassive.1 Cpu hCpu).2) Cpu
  · rw [hpc]
    exact hpassive.2 τ
  · intro id new hnew
    obtain ⟨channel, -, rfl⟩ := hold hnew
    rfl
  · obtain ⟨channel, hid, rfl⟩ := hold hnew
    rw [hctx] at hmem
    exact h.queue Cpu id channel (congrFun hlist Cpu ▸ hmem) hid
  · rw [hctx] at hmem
    exact absurd hmem (hempty port id)
  · rw [hctx]
    have hnil : (suspendEarly s.ctx).Table = [] :=
      List.eq_nil_iff_forall_not_mem.mpr fun entry => hempty entry.1 entry.2
    rw [hnil]
    exact List.nodup_nil
  · rw [hpc]
    exact h.closer
  · rw [hclosing]
    apply h.closing id
    obtain hτ | ⟨new, hnew, hclosed⟩ := hid
    · exact .inl (hpc ▸ hτ)
    · obtain ⟨channel, hid, rfl⟩ := hold hnew
      exact .inr ⟨channel, hid, hclosed⟩
  · rw [hpc, refs_belowDispatch (h.sound.belowDispatch hpassive (h.late_idle hcaptured) b)] at hb
    cases hb
  · rw [hpc, refs_belowDispatch (h.sound.belowDispatch hpassive (h.late_idle hcaptured) b)] at hb
    cases hb

/-! ## Runs -/

section Runs

variable [DecidableEq ι] [Fintype ι] {act : Action ι}

theorem plain_of_begins (hbegins : pc'.begins = true) (hbinds : pc'.binds = false) : pc'.plain = true := by
  cases pc' with
  | triggerRead caller id =>
    cases caller with
    | client => rfl
    | close => cases hbegins
  | closeTest id => rfl
  | bindLock id Cpu => cases hbinds
  | polled caller Cpu flush =>
    cases flush with
    | none => rfl
    | some List => cases hbegins
  | dpcLock Cpu => rfl
  | _ => cases hbegins

omit [Fintype ι] in
/-- An agent starts. -/
theorem Apart.started (h : Apart p s) (hpart : Parted p s act) (hsound : Sound p t)
    (hstart : Concurrent.Start s act a pc' t) : Apart p t := by
  have hbinds : pc'.binds = false := by
    rw [← Bool.not_eq_true]
    intro hb
    obtain ⟨τ, id, Cpu, rfl⟩ := hstart.binds hb
    exact hpart
  refine h.start hsound hstart.ctx hstart.pc hstart.idle (plain_of_begins hstart.begins hbinds)
    (fun id hid => ?_) hstart.captured hstart.held hstart.late (fun id hc => (hstart.closing id).mpr (.inl hc))
    fun id hid => ⟨hstart.unclosed id hid, (hstart.closing id).mpr (.inr hid)⟩
  obtain ⟨channel, hchannel⟩ := hstart.allocated id hid
  exact h.sound.fresh id channel hchannel

/-- **Each step keeps the invariant.** -/
theorem Apart.step (h : Apart p s) (hpart : Parted p s act) (hs : step p s act = some t) :
    Apart p t := by
  have hsound := h.sound.step hs
  cases stepped_of_step hs with
  | opened hcaptured hport => exact h.opened hsound hcaptured hport
  | started hstart => exact h.started hpart hsound hstart
  | accessed hheld hacc => exact h.access hacc hpart hheld
  | suspended hpassive hcaptured hctx hpc hclosing hcaptured' =>
    exact h.early hsound hpassive hcaptured hctx hpc hcaptured' hclosing
  | resumed hlate =>
    exact { h with
      sound := hsound
      relies := fun b => { h.relies b with }
      captured := by simp
      late := fun hl => absurd hlate hl }

omit [DecidableEq ι] [Fintype ι] in
theorem apart_init (Route : ℕ → Option ℕ) : Apart p (init Route : State ι) where
  sound := sound_init Route
  fresh _ _ h := absurd h List.not_mem_nil
  relies _ := ⟨by simp [init, Pc.aims], by simp [init, Pc.spliced], by simp [init, Pc.reaps],
    by simp [init, Pc.leaves], by simp [init, Pc.shuts], by simp [init, Pc.closing], rfl⟩
  captured h := by cases h
  late h := absurd rfl h
  queue _ _ _ h := absurd h List.not_mem_nil
  table _ _ h := absurd h List.not_mem_nil
  keys := List.nodup_nil
  closer _ _ _ h := by cases h
  closing id h := by
    obtain ⟨τ, hτ⟩ | ⟨channel, hid, -⟩ := h
    · cases hτ
    · cases hid
  referred _ _ _ _ h := by cases h
  apart _ _ _ h := by cases h

/-- **A channel is freed only when nothing can reach it**, at every step. -/
def FreesUnreachable (p : Platform) (s : State ι) : Prop :=
  ∀ act t id channel, step p s act = some t → s.ctx.Channels id = some channel →
    t.ctx.Channels id = none → Unreachable s id channel

theorem Apart.freesUnreachable (h : Apart p s) : FreesUnreachable p s := by
  intro act t id channel hs hid hfree
  cases stepped_of_step hs with
  | opened =>
    rw [State.put_ctx] at hfree
    obtain ⟨-, ⟨hch, -⟩ | ⟨r, -, hch, -⟩⟩ := evtchnOpen_cases (p := p) s.ctx _ _
    · rw [hch, hid] at hfree
      cases hfree
    · rw [hch, Function.update_of_ne (h.sound.fresh id channel hid).ne, hid] at hfree
      cases hfree
  | started hstart =>
    rw [hstart.ctx, hid] at hfree
    cases hfree
  | accessed hheld hacc => exact h.unreachable hacc hid hfree
  | suspended hpassive hcaptured hctx =>
    rw [hctx, suspendEarly_Channels h.sound.fresh, hid] at hfree
    cases hfree
  | resumed =>
    have hsame : s.ctx.Channels id = none := hfree
    rw [hid] at hsame
    cases hsame

/-- The steps that keep the channels apart, as a test. -/
def parted (p : Platform) (s : State ι) : Action ι → Bool
  | .call _ _ (.bind _) => false
  | .run a _ =>
    match s.pc a with
    | .closeTest id => (s.ctx.Channels id).all fun channel => channel.Active || !channel.Pending
    | .triggerSet _ id _ => decide ((∀ Cpu < p.ProcessorCount, (s.pc (.dpc Cpu)).reaps ≠ some id) ∧
        ∀ τ, (s.pc (.thread τ)).leaves ≠ some id)
    | _ => true
  | _ => true

omit [DecidableEq ι] in
theorem parted_of_test (h : parted p s act = true) : Parted p s act := by
  cases act with
  | call τ id call =>
    cases call with
    | bind => cases h
    | _ => trivial
  | run a choice =>
    constructor
    · intro id channel hpc hid hinactive
      simpa [parted, hpc, hid, hinactive] using h
    · intro caller id Cpu hpc
      simpa [parted, hpc] using h
  | _ => trivial

/-- **Channels are freed only when nothing can reach them**, in every run whose steps keep the
channels apart. -/
theorem freed_of_reaches (Route : ℕ → Option ℕ)
    (h : Reaches (Concurrent.step p) (Parted p) (init Route : State ι) s) : FreesUnreachable p s :=
  (h.invariant (P := Apart p) (apart_init Route) fun _ _ _ hs hG ht => hs.step hG ht).freesUnreachable

end Runs

/-! ## Channels that are freed -/

/-- A channel is triggered, suspended, delivered by the DPC and then closed. -/
def suspendActions [Zero ι] (deliver : List (Action ι)) : List (Action ι) :=
  [openZero, .call 0 0 .trigger] ++ runs (.thread 0) 6 ++
    [.early, .late, .run .late none, .late, .run .late none, .late, .run .late none, .late] ++
    deliver ++ [.call 0 0 .close] ++ runs (.thread 0) 2

/-- The DPC delivers the event of an open channel. -/
def deliverActions : List (Action ι) := [.dispatch 0] ++ runs (.dpc 0) 10

theorem freed_of_reaches_run : ∃ s t : State (Fin 1), ∃ channel, s.ctx.Channels 0 = some channel ∧
    step twoCpus s (.run (.thread 0) none) = some t ∧ t.ctx.Channels 0 = none ∧
      FreesUnreachable twoCpus s ∧ Unreachable s 0 channel := by
  obtain ⟨s, hs, hp⟩ := (Option.any_eq_true (fun s : State (Fin 1) =>
    (step twoCpus s (.run (.thread 0) none)).any fun t : State (Fin 1) =>
      decide (s.ctx.Channels 0 ≠ none ∧ t.ctx.Channels 0 = none))
    (guardedRun (step twoCpus) (fun s act => parted twoCpus s act = true)
      (init fun _ => none) (suspendActions deliverActions))).mp (by decide +kernel)
  obtain ⟨t, ht, hp⟩ := (Option.any_eq_true _ _).mp hp
  obtain ⟨hsome, hnone⟩ := of_decide_eq_true hp
  obtain ⟨channel, hid⟩ := Option.ne_none_iff_exists'.mp hsome
  have hfrees : FreesUnreachable twoCpus s := freed_of_reaches (fun _ => none)
    ((reaches_of_guardedRun hs).mono fun _ _ => parted_of_test)
  exact ⟨s, t, channel, hid, ht, hnone, hfrees, hfrees _ t 0 channel ht hid hnone⟩

/-- A channel is triggered and closed; the DPC of the trigger takes it off the queue, and clears its
`Pending`, before the `EvtchnTrigger` of the close tests that. -/
def requeueActions [Zero ι] : List (Action ι) :=
  [openZero, .call 0 0 .trigger] ++ runs (.thread 0) 6 ++ [.call 0 0 .close] ++ runs (.thread 0) 4 ++
    [.dispatch 0] ++ runs (.dpc 0) 8 ++ runs (.thread 0) 4

/-- The calls that are not `EvtchnBind`. -/
def Action.unbound : Action ι → Bool
  | .call _ _ (.bind _) => false
  | _ => true

theorem not_frees {s : State (Fin 1)} {act : Action (Fin 1)}
    (h : (step twoCpus s act).any fun t => (s.ctx.Channels 0).any (·.Pending) &&
      (t.ctx.Channels 0).isNone) : ¬ FreesUnreachable twoCpus s := by
  intro hfrees
  obtain ⟨t, ht, hp⟩ := (Option.any_eq_true _ _).mp h
  rw [Bool.and_eq_true, Option.any_eq_true, Option.isNone_iff_eq_none] at hp
  obtain ⟨⟨channel, hid, hpending⟩, hnone⟩ := hp
  exact absurd ((hfrees act t 0 channel ht hid hnone).1.symm.trans hpending) (by simp)

/-- **A channel is freed while it is on a queue**: one that was triggered before a suspend, by its
close; and one that is closed while it is queued, by a DPC. -/
theorem freed_on_queue :
    (∃ s, Reaches (step twoCpus) (fun _ act => act.unbound = true)
        (init fun _ => none : State (Fin 1)) s ∧ ¬ FreesUnreachable twoCpus s) ∧
      ∃ s, Reaches (step twoCpus) (fun _ act => act.unbound = true ∧ act.awake = true)
        (init fun _ => none : State (Fin 1)) s ∧ ¬ FreesUnreachable twoCpus s := by
  constructor
  · obtain ⟨s, hs, hp⟩ := (Option.any_eq_true (fun s : State (Fin 1) =>
      (step twoCpus s (.run (.thread 0) none)).any fun t => (s.ctx.Channels 0).any (·.Pending) &&
        (t.ctx.Channels 0).isNone) (guardedRun (step twoCpus) (fun _ act => act.unbound = true)
        (init fun _ => none) (suspendActions []))).mp (by decide +kernel)
    exact ⟨s, reaches_of_guardedRun hs, not_frees hp⟩
  · obtain ⟨s, hs, hp⟩ := (Option.any_eq_true (fun s : State (Fin 1) =>
      (step twoCpus s (.run (.dpc 0) none)).any fun t => (s.ctx.Channels 0).any (·.Pending) &&
        (t.ctx.Channels 0).isNone) (guardedRun (step twoCpus)
        (fun _ act => act.unbound = true ∧ act.awake = true)
        (init fun _ => none) requeueActions)).mp (by decide +kernel)
    exact ⟨s, reaches_of_guardedRun hs, not_frees hp⟩

end XenBus.Evtchn.Concurrent
