import XenBus.Evtchn.Model
import XenBus.Foundations.Transition

/-!
# Where events are delivered

`Channel->Cpu` is the driver's record of the processor that the hypervisor delivers a channel's
events to: `EvtchnPollCallback` discards an event that it meets on another one. `EvtchnBind` keeps the
two sides together, but `EvtchnOpen` always records processor 0. That is right for a new unbound or
interdomain port; it is wrong for a VIRQ opened for another processor
(`discards_of_virq_on_other_cpu`), and for a fixed port that an earlier channel has bound elsewhere.

`agree_of_well_opened`: in every run whose opens avoid these cases, the record of every active
channel agrees with the hypervisor, and no event of an active channel is discarded. The invariant
(`Sound`) also says who uses a port: at most one channel, apart from fixed ones that are closed and
wait to be reaped, and that the table has exactly the active channels.
-/

namespace XenBus.Evtchn

open Transition

variable {p : Platform} {ctx ctx' : Context}

/-- The hypervisor delivers the channel's port to the vCPU of the processor that it records. -/
def Agrees (p : Platform) (Route : ℕ → Option ℕ) (channel : Channel) : Prop :=
  ∃ vcpu_id, p.vcpu_id channel.Cpu = some vcpu_id ∧ Route channel.LocalPort = some vcpu_id

/-- **Agreement**: every active channel records the processor that its events are delivered to. -/
def Agreement (p : Platform) (ctx : Context) : Prop :=
  ∀ id channel, ctx.Channels id = some channel → channel.Active = true → Agrees p ctx.Route channel

/-- No event of an active channel is discarded on the processor that takes it. -/
def Delivers (p : Platform) (ctx : Context) : Prop :=
  ∀ id channel, ctx.Channels id = some channel → channel.Active = true →
    ∀ Cpu vcpu_id, p.vcpu_id Cpu = some vcpu_id → ctx.Route channel.LocalPort = some vcpu_id →
      ∃ ctx', evtchnPollCallback ctx Cpu channel.LocalPort = some (.queued id, ctx')

/-- The opens that record the right processor: a VIRQ that is opened is for processor 0 (or the call
does not get as far as the hypercall), and a fixed port is delivered to vCPU 0 and used by no other
channel, except for fixed ones that have been closed. -/
def WellOpened (p : Platform) (ctx : Context) : Action → Prop
  | .opened (.virq Index Cpu) answers => answers.Succeed (.virq Index Cpu) →
    Cpu = 0 ∨ p.UpcallEnabled Cpu = false ∨ p.vcpu_id Cpu = none
  | .opened (.fixed LocalPort) answers => answers.Succeed (.fixed LocalPort) →
    ctx.Route LocalPort = some 0 ∧
      ∀ id channel, ctx.Channels id = some channel → channel.LocalPort = LocalPort →
        channel.type = .fixed ∧ channel.Active = false
  | _ => True

/-! ## The invariant -/

/-- A fixed channel that has been closed: its port is not its own any more. -/
def Channel.Parked (channel : Channel) : Prop := channel.type = .fixed ∧ channel.Active = false

/-- The invariant of a channel on its own. -/
structure Good (p : Platform) (Route : ℕ → Option ℕ) (channel : Channel) : Prop where
  closed : channel.Closed = !channel.Active
  agrees : channel.Active = true → Agrees p Route channel
  open_ : channel.type ≠ .fixed → Route channel.LocalPort ≠ none

/-- The invariant. -/
structure Sound (p : Platform) (ctx : Context) : Prop where
  fresh : ∀ id channel, ctx.Channels id = some channel → id < ctx.next
  good : ∀ id channel, ctx.Channels id = some channel → Good p ctx.Route channel
  apart : ∀ id id' channel channel', id ≠ id' → ctx.Channels id = some channel →
    ctx.Channels id' = some channel' → channel.LocalPort = channel'.LocalPort →
      channel.Parked ∨ channel'.Parked
  table : ∀ port id, (port, id) ∈ ctx.Table ↔
    ∃ channel, ctx.Channels id = some channel ∧ channel.Active = true ∧ channel.LocalPort = port
  keys : (ctx.Table.map Prod.fst).Nodup

theorem sound_init (Route : ℕ → Option ℕ) : Sound p (init Route) where
  fresh _ _ h := by simp [init] at h
  good _ _ h := by simp [init] at h
  apart _ _ _ _ _ h := by simp [init] at h
  table _ _ := by simp [init]
  keys := List.nodup_nil

theorem Good.of_route {Route Route' : ℕ → Option ℕ} {channel : Channel} (h : Good p Route channel)
    (hr : Route' channel.LocalPort = Route channel.LocalPort ∨ channel.Parked) :
    Good p Route' channel := by
  obtain hr | ⟨hfixed, hinactive⟩ := hr
  · refine ⟨h.closed, fun ha => ?_, fun ht => ?_⟩
    · rw [Agrees, hr]
      exact h.agrees ha
    · rw [hr]
      exact h.open_ ht
  · exact ⟨h.closed, fun ha => by simp [hinactive] at ha, fun ht => absurd hfixed ht⟩

/-- **One change of one channel.** The invariant survives a change of the channel at `id` that keeps
it for this channel, changes only routes that no other channel depends on, and keeps the table to the
active channels. -/
theorem Sound.update (h : Sound p ctx) (id : ℕ) (o : Option Channel)
    (hch : ctx'.Channels = Function.update ctx.Channels id o) (hnext : ctx.next ≤ ctx'.next)
    (hroute : ∀ j channel, j ≠ id → ctx.Channels j = some channel →
      ctx'.Route channel.LocalPort = ctx.Route channel.LocalPort ∨ channel.Parked)
    (hnew : ∀ new, o = some new → id < ctx'.next ∧ Good p ctx'.Route new ∧
      ∀ j channel, j ≠ id → ctx.Channels j = some channel → channel.LocalPort = new.LocalPort →
        channel.Parked ∨ new.Parked)
    (htable : ∀ port j, (port, j) ∈ ctx'.Table ↔
      if j = id then ∃ new, o = some new ∧ new.Active = true ∧ new.LocalPort = port
      else (port, j) ∈ ctx.Table)
    (hkeys : (ctx'.Table.map Prod.fst).Nodup) : Sound p ctx' := by
  have hself : ctx'.Channels id = o := by rw [hch, Function.update_self]
  have hother : ∀ j, j ≠ id → ctx'.Channels j = ctx.Channels j := fun j hj => by
    rw [hch, Function.update_of_ne hj]
  refine ⟨fun j channel hj => ?_, fun j channel hj => ?_, fun j j' channel channel' hne hj hj' hp =>
    ?_, fun port j => ?_, hkeys⟩
  · by_cases hji : j = id
    · subst hji
      exact (hnew channel (hself ▸ hj)).1
    · rw [hother j hji] at hj
      have := h.fresh j channel hj
      omega
  · by_cases hji : j = id
    · subst hji
      exact (hnew channel (hself ▸ hj)).2.1
    · rw [hother j hji] at hj
      exact (h.good j channel hj).of_route (hroute j channel hji hj)
  · by_cases hji : j = id
    · subst hji
      rw [hother j' hne.symm] at hj'
      exact ((hnew channel (hself ▸ hj)).2.2 j' channel' hne.symm hj' hp.symm).symm
    · rw [hother j hji] at hj
      by_cases hji' : j' = id
      · subst hji'
        exact (hnew channel' (hself ▸ hj')).2.2 j channel hji hj hp
      · rw [hother j' hji'] at hj'
        exact h.apart j j' channel channel' hne hj hj' hp
  · rw [htable]
    by_cases hji : j = id
    · rw [if_pos hji, hji, hself]
    · rw [if_neg hji, h.table, hother j hji]

/-- A change of a channel that keeps its port and whether it is active, closed and fixed. -/
theorem Sound.touch (h : Sound p ctx) {id : ℕ} {channel : Channel} (new : Channel)
    (hid : ctx.Channels id = some channel) (hport : new.LocalPort = channel.LocalPort)
    (hactive : new.Active = channel.Active) (htype : new.type = channel.type)
    (hch : ctx'.Channels = Function.update ctx.Channels id (some new)) (hnext : ctx'.next = ctx.next)
    (htable : ctx'.Table = ctx.Table)
    (hroute : ∀ j c, j ≠ id → ctx.Channels j = some c →
      ctx'.Route c.LocalPort = ctx.Route c.LocalPort ∨ c.Parked)
    (hgood : Good p ctx'.Route new) : Sound p ctx' := by
  apply h.update id (some new) hch hnext.ge hroute
  · intro new' hnew
    obtain rfl := Option.some.inj hnew
    refine ⟨hnext ▸ h.fresh id channel hid, hgood, fun j c hj hc hp => ?_⟩
    obtain hparked | hparked := h.apart j id c channel hj hc hid (hp.trans hport)
    · exact .inl hparked
    · exact .inr ⟨htype.trans hparked.1, hactive.trans hparked.2⟩
  · intro port j
    rw [htable]
    by_cases hji : j = id
    · rw [if_pos hji, hji, h.table]
      constructor
      · rintro ⟨c, hc, ha, hp⟩
        obtain rfl := Option.some.inj (hid.symm.trans hc)
        exact ⟨new, rfl, hactive.trans ha, hport.trans hp⟩
      · rintro ⟨c, hc, ha, hp⟩
        obtain rfl := Option.some.inj hc
        exact ⟨channel, hid, hactive.symm.trans ha, hport.symm.trans hp⟩
    · rw [if_neg hji]
  · rw [htable]
    exact h.keys

/-! ## The operations keep the invariant -/

theorem Sound.queue (h : Sound p ctx) {id : ℕ} {channel : Channel}
    (hid : ctx.Channels id = some channel) (Cpu : ℕ) : Sound p (queue ctx id channel Cpu) := by
  unfold Evtchn.queue
  split
  · exact h
  · have hgood := h.good id channel hid
    exact h.touch { channel with Pending := true } hid rfl rfl rfl rfl rfl rfl
      (fun _ _ _ _ => .inl rfl)
      ⟨hgood.closed, hgood.agrees, hgood.open_⟩

theorem Sound.bind (h : Sound p ctx) {id : ℕ} {channel : Channel}
    (hid : ctx.Channels id = some channel) (Cpu : ℕ) (bound : Bool) :
    Sound p (evtchnBind p ctx id channel Cpu bound).2 := by
  unfold evtchnBind
  cases hv : p.vcpu_id Cpu with
  | none => split_ifs <;> exact h
  | some vcpu_id =>
    dsimp only
    split_ifs with h1 h2 h3 h4
    · exact h
    · exact h
    · exact h
    · exact h
    · have hactive : channel.Active = true := by simpa using h2
      refine h.touch { channel with Cpu := Cpu } hid rfl rfl rfl rfl rfl rfl (fun j c hj hc => ?_) ?_
      · -- another channel of this port is parked, as this one is active
        by_cases hp : c.LocalPort = channel.LocalPort
        · obtain hparked | hparked := h.apart j id c channel hj hc hid hp
          · exact .inr hparked
          · exact absurd hparked.2 (by simp [hactive])
        · exact .inl (Function.update_of_ne hp _ _)
      · have hroute : Function.update ctx.Route channel.LocalPort (some vcpu_id)
            channel.LocalPort = some vcpu_id := Function.update_self _ _ _
        exact ⟨(h.good id channel hid).closed, fun _ => ⟨vcpu_id, hv, hroute⟩,
          fun _ hnone => Option.some_ne_none _ (hroute.symm.trans hnone)⟩

/-- The channel of an entry is the only one with an entry for its port. -/
theorem Sound.lookup (h : Sound p ctx) {id : ℕ} {channel : Channel}
    (hid : ctx.Channels id = some channel) (hactive : channel.Active = true) :
    hashTableLookup ctx.Table channel.LocalPort = some id := by
  have hmem : (channel.LocalPort, id) ∈ ctx.Table := (h.table _ _).mpr ⟨channel, hid, hactive, rfl⟩
  cases hfind : ctx.Table.find? (·.1 = channel.LocalPort) with
  | none =>
    have := List.find?_eq_none.mp hfind _ hmem
    simp at this
  | some entry =>
    have hkey : entry.1 = channel.LocalPort := by simpa using List.find?_some hfind
    have heq := List.inj_on_of_nodup_map h.keys (List.mem_of_find?_eq_some hfind) hmem hkey
    rw [hashTableLookup, hfind, heq]
    rfl

/-- With one entry for a port, removing the port removes exactly its entry. -/
theorem mem_hashTableRemove {Table : List (ℕ × ℕ)} (hkeys : (Table.map Prod.fst).Nodup) {Key : ℕ}
    {entry : ℕ × ℕ} : entry ∈ hashTableRemove Table Key ↔ entry ∈ Table ∧ entry.1 ≠ Key := by
  unfold hashTableRemove
  induction Table with
  | nil => simp
  | cons e Table ih =>
    rw [List.map_cons, List.nodup_cons] at hkeys
    obtain ⟨he, hkeys⟩ := hkeys
    by_cases hk : e.1 = Key
    · rw [List.eraseP_cons_of_pos (by simpa using hk)]
      have hne : ∀ e' ∈ Table, e'.1 ≠ Key := fun e' he' hk' =>
        he (List.mem_map.mpr ⟨e', he', hk'.trans hk.symm⟩)
      constructor
      · exact fun hmem => ⟨List.mem_cons_of_mem _ hmem, hne entry hmem⟩
      · rintro ⟨hmem, hne'⟩
        obtain rfl | hmem := List.mem_cons.mp hmem
        · exact absurd hk hne'
        · exact hmem
    · rw [List.eraseP_cons_of_neg (by simpa using hk), List.mem_cons, ih hkeys, List.mem_cons]
      constructor
      · rintro (rfl | ⟨hmem, hne⟩)
        · exact ⟨.inl rfl, hk⟩
        · exact ⟨.inr hmem, hne⟩
      · rintro ⟨rfl | hmem, hne⟩
        · exact .inl rfl
        · exact .inr ⟨hmem, hne⟩

theorem Sound.close (h : Sound p ctx) {id : ℕ} {channel : Channel}
    (hid : ctx.Channels id = some channel) (hclosed : channel.Closed = false) :
    Sound p (evtchnClose ctx id channel) := by
  have hgood := h.good id channel hid
  have hactive : channel.Active = true := by simpa [hclosed] using hgood.closed
  have hentry : (channel.LocalPort, id) ∈ ctx.Table := (h.table _ _).mpr ⟨channel, hid, hactive, rfl⟩
  have hs : Sound p ({ ctx with Table := hashTableRemove ctx.Table channel.LocalPort }.set id
      { channel with Active := false, Closed := true }) := by
    refine h.update id (some { channel with Active := false, Closed := true }) rfl le_rfl
      (fun _ _ _ _ => .inl rfl) ?_ ?_ ?_
    · intro new hnew
      obtain rfl := Option.some.inj hnew
      refine ⟨h.fresh id channel hid, ⟨rfl, by simp, hgood.open_⟩, fun j c hj hc hp => .inl ?_⟩
      obtain hparked | hparked := h.apart j id c channel hj hc hid hp
      · exact hparked
      · exact absurd hparked.2 (by simp [hactive])
    · intro port j
      change (port, j) ∈ hashTableRemove ctx.Table channel.LocalPort ↔ _
      rw [mem_hashTableRemove h.keys]
      by_cases hji : j = id
      · subst hji
        rw [if_pos rfl]
        refine iff_of_false ?_ (by simp)
        rintro ⟨hmem, hne⟩
        obtain ⟨c, hc, -, hp⟩ := (h.table _ _).mp hmem
        obtain rfl := Option.some.inj (hid.symm.trans hc)
        exact hne hp.symm
      · rw [if_neg hji, and_iff_left_iff_imp]
        intro hmem hk
        exact hji (congrArg Prod.snd (List.inj_on_of_nodup_map h.keys hmem hentry hk))
    · exact h.keys.sublist ((List.eraseP_sublist).map _)
  unfold evtchnClose
  rw [if_pos hactive]
  exact hs.queue (Function.update_self _ _ _) _

theorem Sound.reap (h : Sound p ctx) {id : ℕ} {channel : Channel}
    (hid : ctx.Channels id = some channel) (hclosed : channel.Closed = true) :
    Sound p (evtchnReap ctx id channel true) := by
  have hactive : channel.Active = false := by simpa [hclosed] using (h.good id channel hid).closed
  have htable : ∀ port j, (port, j) ∈ ctx.Table ↔
      if j = id then ∃ new : Channel, none = some new ∧ new.Active = true ∧ new.LocalPort = port
      else (port, j) ∈ ctx.Table := by
    intro port j
    by_cases hji : j = id
    · subst hji
      rw [if_pos rfl, h.table]
      refine iff_of_false ?_ (by simp)
      rintro ⟨c, hc, ha, -⟩
      obtain rfl := Option.some.inj (hid.symm.trans hc)
      simp [hactive] at ha
    · rw [if_neg hji]
  unfold evtchnReap
  dsimp only
  split_ifs with htype
  · refine h.update id none rfl le_rfl (fun j c hj hc => ?_) (by simp) htable h.keys
    -- the port is closed: its other channels are parked, as this one is not fixed
    by_cases hp : c.LocalPort = channel.LocalPort
    · obtain hparked | hparked := h.apart j id c channel hj hc hid hp
      · exact .inr hparked
      · exact absurd hparked.1 htype.2
    · exact .inl (Function.update_of_ne hp _ _)
  · exact h.update id none rfl le_rfl (fun _ _ _ _ => .inl rfl) (by simp) htable h.keys

theorem Sound.foldlM_flushOne {ids : List ℕ} (h : Sound p ctx)
    (hf : ids.foldlM flushOne ctx = some ctx') : Sound p ctx' := by
  induction ids generalizing ctx with
  | nil =>
    obtain rfl := Option.some.inj hf
    exact h
  | cons id ids ih =>
    rw [List.foldlM_cons] at hf
    obtain ⟨c, hc, hf⟩ := Option.bind_eq_some_iff.mp hf
    obtain ⟨channel, hid, rfl⟩ := Option.map_eq_some_iff.mp hc
    refine ih ?_ hf
    split_ifs with hclosed
    · exact h.reap hid hclosed
    · have hgood := h.good id channel hid
      exact h.touch { channel with Pending := false } hid rfl rfl rfl rfl rfl rfl
        (fun _ _ _ _ => .inl rfl) ⟨hgood.closed, hgood.agrees, hgood.open_⟩

theorem Sound.flush (h : Sound p ctx) {Cpu : ℕ} (hf : evtchnFlush ctx Cpu = some ctx') :
    Sound p ctx' := by
  have h' : Sound p { ctx with PendingList := Function.update ctx.PendingList Cpu [] } :=
    ⟨h.fresh, h.good, h.apart, h.table, h.keys⟩
  exact h'.foldlM_flushOne hf

/-- What has to hold of the port of a new channel: it is delivered to vCPU 0, and the other channels
that have it are parked. -/
structure NewPort (ctx : Context) (LocalPort : ℕ) (Route : ℕ → Option ℕ) : Prop where
  route : Route LocalPort = some 0
  other : ∀ port, port ≠ LocalPort → Route port = ctx.Route port
  parked : ∀ id channel, ctx.Channels id = some channel → channel.LocalPort = LocalPort →
    channel.Parked

/-- The channel that `EvtchnOpen` adds, on a port that is right for processor 0. -/
theorem Sound.add (h : Sound p ctx) (hp0 : p.vcpu_id 0 = some 0) {LocalPort : ℕ}
    {Route : ℕ → Option ℕ} (hport : NewPort ctx LocalPort Route) (type : EvtchnType) :
    Sound p { Context.set { ctx with Route := Route } ctx.next
        ⟨false, true, type, LocalPort, 0, false⟩ with
      next := ctx.next + 1
      Table := ctx.Table ++ [(LocalPort, ctx.next)] } := by
  have hfree : ∀ entry ∈ ctx.Table, entry.1 ≠ LocalPort := by
    rintro ⟨port, id⟩ hmem rfl
    obtain ⟨channel, hid, hactive, hp⟩ := (h.table _ _).mp hmem
    have := (hport.parked id channel hid hp).2
    simp [hactive] at this
  refine h.update ctx.next (some ⟨false, true, type, LocalPort, 0, false⟩) rfl (Nat.le_succ _) ?_ ?_
    ?_ ?_
  · intro j channel hj hc
    by_cases hp : channel.LocalPort = LocalPort
    · exact .inr (hport.parked j channel hc hp)
    · exact .inl (hport.other _ hp)
  · intro new hnew
    obtain rfl := Option.some.inj hnew
    refine ⟨Nat.lt_succ_self _, ⟨rfl, fun _ => ⟨0, hp0, hport.route⟩, fun _ hnone => ?_⟩, ?_⟩
    · exact Option.some_ne_none _ (hport.route.symm.trans hnone)
    · exact fun j channel _ hc hp => .inl (hport.parked j channel hc hp)
  · intro port j
    change (port, j) ∈ ctx.Table ++ [(LocalPort, ctx.next)] ↔ _
    rw [List.mem_append, List.mem_singleton, Prod.mk.injEq]
    by_cases hj : j = ctx.next
    · subst hj
      rw [if_pos rfl]
      constructor
      · rintro (hmem | ⟨rfl, -⟩)
        · obtain ⟨channel, hid, -⟩ := (h.table _ _).mp hmem
          exact absurd (h.fresh _ _ hid) (lt_irrefl _)
        · exact ⟨_, rfl, rfl, rfl⟩
      · rintro ⟨new, hnew, -, hp⟩
        obtain rfl := Option.some.inj hnew
        exact .inr ⟨hp.symm, rfl⟩
    · rw [if_neg hj]
      exact or_iff_left fun hcon => hj hcon.2
  · change ((ctx.Table ++ [(LocalPort, ctx.next)]).map Prod.fst).Nodup
    rw [List.map_append, List.nodup_append]
    refine ⟨h.keys, List.nodup_singleton _, ?_⟩
    rintro key hkey key' hkey' rfl
    obtain ⟨entry, hentry, rfl⟩ := List.mem_map.mp hkey
    exact hfree entry hentry (by simpa using hkey')

/-- A port that the hypervisor has just opened, with a route that no channel depends on. -/
theorem Sound.fresh_port (h : Sound p ctx) {port : ℕ} (hclosed : ctx.Route port = none) {id : ℕ}
    {channel : Channel} (hid : ctx.Channels id = some channel) (hp : channel.LocalPort = port) :
    channel.Parked := by
  have hgood := h.good id channel hid
  constructor
  · by_contra htype
    exact hgood.open_ htype (hp ▸ hclosed)
  · by_contra hactive
    obtain ⟨vcpu_id, -, hroute⟩ := hgood.agrees (by simpa using hactive)
    rw [hp, hclosed] at hroute
    simp at hroute

/-- A failed open leaves a port that was closed closed. -/
theorem Sound.undo (h : Sound p ctx) {port : ℕ} (hclosed : ctx.Route port = none)
    (vcpu : Option ℕ) : Sound p ((ctx.route port vcpu).route port none) := by
  have hroute : ((ctx.route port vcpu).route port none).Route = ctx.Route := by
    funext q
    by_cases hq : q = port
    · rw [hq, hclosed]
      exact Function.update_self _ _ _
    · exact (Function.update_of_ne hq _ _).trans (Function.update_of_ne hq _ _)
  exact ⟨h.fresh, fun id c hid => hroute ▸ h.good id c hid, h.apart, h.table, h.keys⟩

/-- `EvtchnOpen` on a port that the hypervisor has opened for it. -/
theorem Sound.openChannel (h : Sound p ctx) (hp0 : p.vcpu_id 0 = some 0) {port v : ℕ}
    (hclosed : ctx.Route port = none) (type : EvtchnType) (htype : type ≠ .fixed) (answers : Answers)
    (hv : answers.portEnable = true → answers.tableAdd = true → v = 0) :
    Sound p (openChannel (ctx.route port (some v)) type port answers).2 := by
  unfold Evtchn.openChannel
  split_ifs with hfail
  · exact h.undo hclosed _
  · simp only [Bool.not_eq_true', not_or, Bool.not_eq_false] at hfail
    obtain rfl := hv hfail.1 hfail.2
    exact h.add hp0 ⟨Function.update_self _ _ _, fun _ hq => Function.update_of_ne hq _ _,
      fun _ _ hid hp => h.fresh_port hclosed hid hp⟩ type

theorem Sound.opened (h : Sound p ctx) (hp0 : p.vcpu_id 0 = some 0) {args : Arguments}
    {answers : Answers} (hclosed : ∀ port, answers.port = some port → ctx.Route port = none)
    (hw : WellOpened p ctx (.opened args answers)) : Sound p (evtchnOpen p ctx args answers).2 := by
  unfold evtchnOpen
  cases hallocate : answers.allocate with
  | false => exact h
  | true =>
    cases args with
    | fixed LocalPort =>
      change Sound p (Evtchn.openChannel ctx .fixed LocalPort answers).2
      unfold Evtchn.openChannel
      by_cases hfail : !answers.portEnable ∨ !answers.tableAdd
      · rw [if_pos hfail, if_neg (not_not.mpr rfl)]
        exact h
      · rw [if_neg hfail]
        simp only [Bool.not_eq_true', not_or, Bool.not_eq_false] at hfail
        obtain ⟨hroute, hparked⟩ := hw ⟨hallocate, .inl rfl, hfail.1, hfail.2⟩
        exact h.add hp0 ⟨hroute, fun _ _ => rfl, hparked⟩ .fixed
    | unbound RemoteDomain =>
      cases hport : answers.port with
      | none => exact h
      | some port => exact h.openChannel hp0 (hclosed port hport) .unbound nofun answers fun _ _ => rfl
    | interDomain RemoteDomain RemotePort =>
      cases hport : answers.port with
      | none => exact h
      | some port => exact h.openChannel hp0 (hclosed port hport) .interDomain nofun answers fun _ _ => rfl
    | virq Index Cpu =>
      by_cases hupcall : !p.UpcallEnabled Cpu ∧ Cpu ≠ 0
      · have hopen : openPort p ctx (.virq Index Cpu) answers.port = none := if_pos hupcall
        rw [hopen]
        exact h
      · have hopen : openPort p ctx (.virq Index Cpu) answers.port = (p.vcpu_id Cpu).bind fun v =>
            answers.port.map fun port => (port, ctx.route port (some v)) := if_neg hupcall
        rw [hopen]
        cases hv : p.vcpu_id Cpu with
        | none => exact h
        | some v =>
          cases hport : answers.port with
          | none => exact h
          | some port =>
            refine h.openChannel hp0 (hclosed port hport) .virq nofun answers fun h1 h2 => ?_
            -- the vCPU is that of processor 0, as no other one is asked for
            have hcpu : Cpu = 0 := by
              obtain hcpu | hcpu | hcpu := hw ⟨hallocate, .inr (by simp [hport]), h1, h2⟩
              · exact hcpu
              · by_contra hne
                exact hupcall ⟨by simp [hcpu], hne⟩
              · rw [hv] at hcpu
                simp at hcpu
            rw [hcpu, hp0] at hv
            exact (Option.some.inj hv).symm

/-! ## Main results -/

/-- **Delivery.** Let processor 0 run vCPU 0, and no two processors the same vCPU. In every run whose
opens are well opened, every active channel records the processor that its events are delivered to,
and `EvtchnPollCallback` on that processor never discards an event of an active channel. -/
theorem agree_of_well_opened {Route : ℕ → Option ℕ} (hp0 : p.vcpu_id 0 = some 0)
    (hinj : ∀ Cpu Cpu' v, p.vcpu_id Cpu = some v → p.vcpu_id Cpu' = some v → Cpu = Cpu')
    (h : Reaches (step p) (WellOpened p) (init Route) ctx) : Agreement p ctx ∧ Delivers p ctx := by
  have hsound : Sound p ctx := by
    refine h.invariant (sound_init Route) fun ctx a ctx' hs hw hstep => ?_
    cases a with
    | opened args answers =>
      obtain ⟨hcond, heq⟩ := Option.ite_none_right_eq_some.mp hstep
      refine Option.some.inj heq ▸ hs.opened hp0 (fun port hport => ?_) hw
      simpa [hport] using hcond.2
    | bind id Cpu bound =>
      obtain ⟨channel, hid, heq⟩ := Option.bind_eq_some_iff.mp hstep
      obtain ⟨-, heq⟩ := Option.ite_none_right_eq_some.mp heq
      exact Option.some.inj heq ▸ hs.bind hid Cpu bound
    | close id =>
      obtain ⟨channel, hid, heq⟩ := Option.bind_eq_some_iff.mp hstep
      obtain ⟨hclosed, heq⟩ := Option.ite_none_left_eq_some.mp heq
      exact Option.some.inj heq ▸ hs.close hid (by simpa using hclosed)
    | poll Cpu LocalPort =>
      obtain ⟨⟨polled, ctx''⟩, heq, rfl⟩ := Option.map_eq_some_iff.mp hstep
      unfold evtchnPollCallback at heq
      split at heq
      · obtain ⟨-, rfl⟩ := Prod.mk.inj (Option.some.inj heq)
        exact hs
      · obtain ⟨channel, hid, heq⟩ := Option.map_eq_some_iff.mp heq
        split_ifs at heq
        · obtain ⟨-, rfl⟩ := Prod.mk.inj heq
          exact hs
        · obtain ⟨-, rfl⟩ := Prod.mk.inj heq
          exact hs.queue hid Cpu
    | flush Cpu => exact hs.flush hstep
  refine ⟨fun id channel hid => (hsound.good id channel hid).agrees, ?_⟩
  intro id channel hid hactive Cpu v hv hroute
  obtain ⟨v', hv', hroute'⟩ := (hsound.good id channel hid).agrees hactive
  obtain rfl := Option.some.inj (hroute.symm.trans hroute')
  have hcpu : channel.Cpu = Cpu := hinj _ _ v hv' hv
  refine ⟨queue ctx id channel Cpu, ?_⟩
  rw [evtchnPollCallback, hsound.lookup hid hactive]
  simp [hid, hcpu]

/-- Two processors, each with an upcall of its own and the vCPU of the same number. -/
def twoProcessors : Platform where
  ProcessorCount := 2
  UpcallEnabled _ := true
  vcpu_id Cpu := if Cpu < 2 then some Cpu else none

theorem twoProcessors_injective (Cpu Cpu' v : ℕ) (h : twoProcessors.vcpu_id Cpu = some v)
    (h' : twoProcessors.vcpu_id Cpu' = some v) : Cpu = Cpu' := by
  simp only [twoProcessors, Option.ite_none_right_eq_some, Option.some.injEq] at h h'
  omega

/-- An unbound port that is bound to processor 1. -/
theorem agree_of_well_opened_bind : ∃ ctx, ctx.Route 7 = some 1 ∧
    Agreement twoProcessors ctx ∧ Delivers twoProcessors ctx := by
  have hrun : ∃ ctx, Reaches (step twoProcessors) (WellOpened twoProcessors) (init fun _ => none) ctx
      ∧ ctx.Route 7 = some 1 :=
    ⟨_, reaches_cons (a := .opened (.unbound 0) ⟨true, some 7, true, true⟩) trivial rfl <|
      reaches_cons (a := .bind 0 1 true) trivial rfl <| .refl _, rfl⟩
  obtain ⟨ctx, hctx, hroute⟩ := hrun
  exact ⟨ctx, hroute, agree_of_well_opened rfl twoProcessors_injective hctx⟩

/-- A VIRQ that is opened for processor 1 is recorded for processor 0, and its events are discarded
on processor 1, which takes them. -/
theorem discards_of_virq_on_other_cpu : ∃ ctx,
    Reaches (step twoProcessors) Free (init fun _ => none) ctx ∧ ¬ Agreement twoProcessors ctx ∧
      ctx.Route 7 = some 1 ∧ ∃ ctx', evtchnPollCallback ctx 1 7 = some (.otherCpu, ctx') := by
  have hrun : ∃ ctx, step twoProcessors (init fun _ => none)
      (.opened (.virq 0 1) ⟨true, some 7, true, true⟩) = some ctx ∧
      ctx.Channels 0 = some ⟨false, true, .virq, 7, 0, false⟩ ∧ ctx.Route 7 = some 1 ∧
      ctx.Table = [(7, 0)] := ⟨_, rfl, rfl, rfl, rfl⟩
  obtain ⟨ctx, hctx, hid, hroute, htable⟩ := hrun
  refine ⟨ctx, Reaches.single trivial hctx, fun hagree => ?_, hroute, ctx, ?_⟩
  · obtain ⟨v, hv, hv'⟩ := hagree 0 _ hid rfl
    rw [hroute] at hv'
    obtain rfl := Option.some.inj hv'
    simp [twoProcessors] at hv
  · rw [evtchnPollCallback, htable]
    simp [hashTableLookup, hid]

end XenBus.Evtchn
