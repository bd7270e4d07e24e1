import XenBus.Xenfilt.Driver

/-!
# Nothing is reported too early

Whatever buses come and go, and however their queries overlap: before the first answer that names a device, the
filter has become pending, once, each bus that was on the driver's list then had been enumerated, and the decision to
unplug had been taken and carried out (`gate`). Until then every answer names nothing and asks for another query. A bus
that is added after the filter has become pending need not be enumerated before the first such answer.

`held_back` is the other side: a bus that is never enumerated, because its driver never names a device, keeps all
the buses filtered.
-/

namespace XenBus.Xenfilt

open Transition
open Fdo.Classes (PnpState)
open Xen.Unplug (Context UnplugDevices)

variable {s t : System} {f f' : Fdo} {c : Shared} {w : World} {address : ℕ} {Unplug : Context}

/-! ## The log -/

/-- Events that name no device: each answer is empty, and asks for another query. -/
inductive Quiet : List Event → Prop
  | nil : Quiet []
  | enumerated {l : List Event} (h : Quiet l) (Fdo : ℕ) : Quiet (l ++ [.enumerated Fdo])
  | invalidated {l : List Event} (h : Quiet l) (Fdo : ℕ) : Quiet (l ++ [.invalidated Fdo])
  | filtered {l : List Event} (h : Quiet l) (Fdo : ℕ) (devices : List ℕ) :
    Quiet (l ++ [.answered Fdo devices [], .invalidated Fdo])

/-- The event is not one of the filter itself. -/
def Event.ordinary : Event → Prop
  | .enumerated _ | .answered _ _ _ | .invalidated _ => True
  | .unplugged _ | .pending _ | .disabled => False

/-- What the log looks like in each state of the filter. `writes` is what unplugs the devices. -/
inductive Phases (writes : List ℕ) : FilterState → List Event → Prop
  | enabled {l : List Event} (h : Quiet l) : Phases writes .ENABLED l
  | pending {l unplugged l' : List Event} {Fdos : List ℕ} (h : Quiet l)
    (hunplugged : unplugged = [] ∨ unplugged = [.unplugged writes]) (hFdos : ∀ fdo ∈ Fdos, .enumerated fdo ∈ l)
    (h' : Quiet l') : Phases writes .PENDING (l ++ unplugged ++ .pending Fdos :: l')
  | disabled {l l' : List Event} (h : Phases writes .PENDING l) (h' : ∀ e ∈ l', e.ordinary) :
    Phases writes .DISABLED (l ++ .disabled :: l')

theorem Quiet.ordinary {l : List Event} (h : Quiet l) : ∀ e ∈ l, e.ordinary := by
  induction h with
  | nil => nofun
  | enumerated _ _ ih | invalidated _ _ ih | filtered _ _ _ ih =>
    intro e he
    rcases List.mem_append.mp he with he | he
    · exact ih e he
    · simp only [List.mem_cons, List.not_mem_nil, or_false] at he
      rcases he with rfl | rfl <;> trivial

/-- What names no device is quiet in each state. -/
theorem Phases.append {writes : List ℕ} {State : FilterState} {l events : List Event} (h : Phases writes State l)
    (hquiet : ∀ {l}, Quiet l → Quiet (l ++ events)) : Phases writes State (l ++ events) := by
  cases h with
  | enabled h => exact .enabled (hquiet h)
  | pending h hunplugged hFdos h' =>
    rw [List.append_assoc, List.cons_append]
    exact .pending h hunplugged hFdos (hquiet h')
  | disabled h h' =>
    rw [List.append_assoc, List.cons_append]
    refine .disabled h fun e he => ?_
    rcases List.mem_append.mp he with he | he
    · exact h' e he
    · exact (hquiet .nil).ordinary e he

theorem Phases.answered {writes : List ℕ} {l : List Event} (h : Phases writes .DISABLED l) (Fdo : ℕ)
    (devices Relations : List ℕ) : Phases writes .DISABLED (l ++ [.answered Fdo devices Relations]) := by
  cases h with
  | disabled h h' =>
    rw [List.append_assoc, List.cons_append]
    refine .disabled h fun e he => ?_
    rcases List.mem_append.mp he with he | he
    · exact h' e he
    · rw [List.mem_singleton.mp he]
      trivial

/-! ## Steps that leave the filter alone -/

/-- A bus has not come closer to an answer. -/
def Fdo.Behind (g f : Fdo) : Prop :=
  g.address = f.address ∧ (g.Enumerated → f.Enumerated) ∧
    ∀ State, g.stage = .answering State → f.stage = .answering State

structure Still (s t : System) : Prop where
  state : t.FilterState = s.FilterState
  unplug : t.Unplug = s.Unplug
  log : t.log = s.log ∨ ∃ fdo, t.log = s.log ++ [.invalidated fdo]
  fdos : ∀ g ∈ t.List, g.Enumerated = false ∧ g.stage = .idle ∨ ∃ f ∈ s.List, g.Behind f

theorem Fdo.Behind.refl (f : Fdo) : f.Behind f := ⟨rfl, id, fun _ => id⟩

theorem get_mem (h : s.get address = some f) : f ∈ s.List ∧ f.address = address := KeyedList.mem_of_lookup h

/-- What is on the list after a section of a bus. -/
theorem mem_put {g : Fdo} (hg : g ∈ (s.put c f').List) :
    g = { f' with References := c.References } ∨ g ∈ s.List := by
  obtain ⟨f, hf, heq⟩ := List.mem_map.mp hg
  dsimp only at heq
  split_ifs at heq
  · exact .inl heq.symm
  · exact .inr (heq ▸ hf)

theorem mem_set {g : Fdo} (hg : g ∈ (s.set f').List) : g = f' ∨ g ∈ s.List :=
  mem_put (c := s.shared f') hg

theorem settle_frame (s : System) (address : ℕ) :
    (s.settle address).FilterState = s.FilterState ∧ (s.settle address).Unplug = s.Unplug ∧
      (s.settle address).log = s.log ∧ ∀ g ∈ (s.settle address).List, g ∈ s.List := by
  unfold System.settle
  cases s.get address with
  | none => exact ⟨rfl, rfl, rfl, fun _ => id⟩
  | some f =>
    dsimp only
    split_ifs
    · exact ⟨rfl, rfl, rfl, fun g hg => List.mem_of_mem_filter hg⟩
    · exact ⟨rfl, rfl, rfl, fun _ => id⟩

namespace Still

theorem put (hf : f ∈ s.List) (hbehind : ({ f' with References := c.References } : Fdo).Behind f) :
    Still s (s.put c f') where
  state := rfl
  unplug := rfl
  log := .inl rfl
  fdos g hg := by
    rcases mem_put hg with rfl | hg
    · exact .inr ⟨f, hf, hbehind⟩
    · exact .inr ⟨g, hg, .refl g⟩

theorem set (hf : f ∈ s.List) (hbehind : f'.Behind f) : Still s (s.set f') := put (c := s.shared f') hf hbehind

theorem settle (h : Still s t) (address : ℕ) : Still s (t.settle address) := by
  obtain ⟨hstate, hunplug, hlog, hmem⟩ := settle_frame t address
  exact ⟨hstate.trans h.state, hunplug.trans h.unplug, hlog ▸ h.log, fun g hg => h.fdos g (hmem g hg)⟩

theorem invalidate (h : Still s t) (hlog : t.log = s.log) (fdo : ℕ) : Still s (t.emit (.invalidated fdo)) :=
  ⟨h.state, h.unplug, .inr ⟨fdo, by rw [System.emit, hlog]⟩, h.fdos⟩

end Still

/-- The steps of a query after its enumeration are the ones that matter. -/
def Action.matters : Action → Bool
  | .setEnumerated _ | .setFilterState _ _ | .getFilterState _ | .answer _ _ => true
  | _ => false

theorem onFdo_eq_some {fdo : ℕ} {body : Fdo → Option System} (h : s.onFdo fdo body = some t) :
    ∃ f, s.get fdo = some f ∧ f ∈ s.List ∧ f.address = fdo ∧ body f = some t := by
  obtain ⟨f, hf, h⟩ := Option.bind_eq_some_iff.mp h
  exact ⟨f, hf, (get_mem hf).1, (get_mem hf).2, h⟩

theorem onPdo_eq_some {fdo pdo : ℕ} {body : Fdo → Pdo → Option System} (h : s.onPdo fdo pdo body = some t) :
    ∃ f p, s.get fdo = some f ∧ f ∈ s.List ∧ f.address = fdo ∧ KeyedList.lookup Pdo.address f.List pdo = some p ∧
      body f p = some t := by
  obtain ⟨f, hf, h⟩ := Option.bind_eq_some_iff.mp h
  obtain ⟨p, hp, h⟩ := Option.bind_eq_some_iff.mp h
  exact ⟨f, p, hf, (get_mem hf).1, (get_mem hf).2, hp, h⟩

/-- A request that is taken under a condition. -/
theorem onFdo_ite_eq_some {fdo : ℕ} {guard : Fdo → Prop} [∀ f, Decidable (guard f)] {body : Fdo → System}
    (h : s.onFdo fdo (fun f => if guard f then some (body f) else none) = some t) :
    ∃ f, s.get fdo = some f ∧ f ∈ s.List ∧ f.address = fdo ∧ guard f ∧ t = body f := by
  obtain ⟨f, hget, hf, haddress, hbody⟩ := onFdo_eq_some h
  simp only [Option.ite_none_right_eq_some, Option.some_inj] at hbody
  exact ⟨f, hget, hf, haddress, hbody.1, hbody.2.symm⟩

@[inherit_doc onFdo_ite_eq_some]
theorem onPdo_ite_eq_some {fdo pdo : ℕ} {guard : Fdo → Pdo → Prop} [∀ f p, Decidable (guard f p)]
    {body : Fdo → Pdo → System}
    (h : s.onPdo fdo pdo (fun f p => if guard f p then some (body f p) else none) = some t) :
    ∃ f p, s.get fdo = some f ∧ f ∈ s.List ∧ f.address = fdo ∧ KeyedList.lookup Pdo.address f.List pdo = some p ∧
      guard f p ∧ t = body f p := by
  obtain ⟨f, p, hget, hf, haddress, hp, hbody⟩ := onPdo_eq_some h
  simp only [Option.ite_none_right_eq_some, Option.some_inj] at hbody
  exact ⟨f, p, hget, hf, haddress, hp, hbody.1, hbody.2.symm⟩

theorem step_still {a : Action} (ha : a.matters = false) (h : step s a = some t) : Still s t := by
  cases a with
  | addDevice type =>
    simp only [step, Option.ite_none_right_eq_some, Option.some_inj] at h
    obtain ⟨-, rfl⟩ := h
    refine ⟨rfl, rfl, .inl rfl, fun g hg => ?_⟩
    rcases List.mem_append.mp hg with hg | hg
    · exact .inr ⟨g, hg, .refl g⟩
    · rw [List.mem_singleton.mp hg]
      exact .inl ⟨rfl, rfl⟩
  | fdoRequest fdo minor =>
    obtain ⟨f, -, hf, -, -, rfl⟩ := onFdo_ite_eq_some h
    exact .set hf (.refl f)
  | query fdo w Relations memory =>
    obtain ⟨f, -, hf, -, -, rfl⟩ := onFdo_ite_eq_some h
    unfold System.FdoQueryDeviceRelations
    split_ifs
    · exact .put hf ⟨rfl, id, nofun⟩
    · exact .set hf ⟨rfl, id, nofun⟩
  | setEnumerated _ | setFilterState _ _ | getFilterState _ | answer _ _ => cases ha
  | removeDevice fdo =>
    obtain ⟨f, -, hf, -, -, rfl⟩ := onFdo_ite_eq_some h
    unfold System.FdoRemoveDevice
    split_ifs
    · exact .put hf (.refl f)
    · exact .set hf (.refl f)
  | releaseDevice fdo =>
    obtain ⟨f, -, hf, -, -, rfl⟩ := onFdo_ite_eq_some h
    apply Still.settle
    apply Still.set hf
    exact ⟨rfl, id, fun _ => id⟩
  | pdoRequest fdo pdo minor =>
    obtain ⟨f, p, -, hf, -, -, -, rfl⟩ := onPdo_ite_eq_some h
    exact .set hf (.refl f)
  | removePdo fdo pdo =>
    obtain ⟨f, p, -, hf, -, -, -, rfl⟩ := onPdo_ite_eq_some h
    unfold System.PdoRemoveDevice
    dsimp only
    have hsettled : ∀ List, Still s ((s.put (PdoRemoveDevice (s.shared f) p).1
        { f with List := List }).settle f.address) := by
      intro List
      apply Still.settle
      apply Still.put hf
      exact ⟨rfl, id, fun _ => id⟩
    split_ifs
    · exact (hsettled _).invalidate (settle_frame _ _).2.2.1 f.address
    · exact hsettled _
  | ejectPdo fdo pdo =>
    obtain ⟨f, p, -, hf, -, -, -, rfl⟩ := onPdo_ite_eq_some h
    exact .set hf (.refl f)
  | ejectedPdo fdo pdo =>
    obtain ⟨f, p, -, hf, -, -, -, rfl⟩ := onPdo_ite_eq_some h
    apply Still.settle
    apply Still.put hf
    exact ⟨rfl, id, fun _ => id⟩

/-! ## The invariant -/

/-- What the log tells about the state of the driver. -/
structure Gated (Unplug : Context) (s : System) : Prop where
  unplug : s.Unplug = Unplug
  phases : Phases (UnplugDevices Unplug) s.FilterState s.log
  enumerated : ∀ f ∈ s.List, f.Enumerated → .enumerated f.address ∈ s.log
  answering : ∀ f ∈ s.List, f.stage = .answering .DISABLED → s.FilterState = .DISABLED

namespace Gated

theorem still (h : Gated Unplug s) (hst : Still s t) : Gated Unplug t where
  unplug := hst.unplug.trans h.unplug
  phases := by
    rw [hst.state]
    rcases hst.log with hlog | ⟨fdo, hlog⟩
    · exact hlog ▸ h.phases
    · exact hlog ▸ h.phases.append fun hquiet => hquiet.invalidated fdo
  enumerated g hg hEnumerated := by
    have hmem : ∀ e ∈ s.log, e ∈ t.log := by
      rcases hst.log with hlog | ⟨fdo, hlog⟩ <;> rw [hlog]
      · exact fun _ => id
      · exact fun _ => List.mem_append_left _
    rcases hst.fdos g hg with ⟨hfalse, -⟩ | ⟨f, hf, haddress, hE, -⟩
    · rw [hfalse] at hEnumerated
      cases hEnumerated
    · exact haddress ▸ hmem _ (h.enumerated f hf (hE hEnumerated))
  answering g hg hstage := by
    rcases hst.fdos g hg with ⟨-, hidle⟩ | ⟨f, hf, -, -, hA⟩
    · rw [hidle] at hstage
      cases hstage
    · exact hst.state.trans (h.answering f hf (hA _ hstage))

/-- More has been logged, and a bus is at another stage. -/
theorem log_set (h : Gated Unplug s) (hf : f ∈ s.List) {events : List Event}
    (hphases : Phases (UnplugDevices Unplug) s.FilterState (s.log ++ events))
    (haddress : f'.address = f.address)
    (hEnumerated : f'.Enumerated → f.Enumerated ∨ .enumerated f.address ∈ events)
    (hanswering : f'.stage = .answering .DISABLED → s.FilterState = .DISABLED)
    (ht : t.FilterState = s.FilterState ∧ t.Unplug = s.Unplug ∧ t.log = s.log ++ events ∧
      ∀ g ∈ t.List, g = f' ∨ g ∈ s.List) : Gated Unplug t where
  unplug := ht.2.1.trans h.unplug
  phases := by
    rw [ht.1, ht.2.2.1]
    exact hphases
  enumerated g hg hg' := by
    rw [ht.2.2.1]
    rcases ht.2.2.2 g hg with rfl | hg
    · rw [haddress]
      rcases hEnumerated hg' with hE | hE
      · exact List.mem_append_left _ (h.enumerated f hf hE)
      · exact List.mem_append_right _ hE
    · exact List.mem_append_left _ (h.enumerated g hg hg')
  answering g hg hstage := by
    rw [ht.1]
    rcases ht.2.2.2 g hg with rfl | hg
    · exact hanswering hstage
    · exact h.answering g hg hstage

/-- `DriverSetFilterState` keeps to the order of the phases. -/
theorem setFilterState (h : Gated Unplug s) (w : World) : Gated Unplug (s.DriverSetFilterState w) := by
  have hphases := h.phases
  unfold System.DriverSetFilterState
  cases hState : s.FilterState with
  | DISABLED => exact h
  | PENDING =>
    rw [hState] at hphases
    exact ⟨h.unplug, .disabled hphases nofun, fun f hf hE => List.mem_append_left _ (h.enumerated f hf hE),
      fun f hf hstage => rfl⟩
  | ENABLED =>
    rw [hState] at hphases
    dsimp only
    split_ifs with hall
    · -- Each bus of the list has been enumerated, so the log says so of each of them.
      have hquiet : Quiet s.log := by
        cases hphases with
        | enabled hquiet => exact hquiet
      have hFdos : ∀ fdo ∈ s.List.map Fdo.address, .enumerated fdo ∈ s.log := by
        intro fdo hfdo
        obtain ⟨f, hf, rfl⟩ := List.mem_map.mp hfdo
        exact h.enumerated f hf (List.all_eq_true.mp hall f hf)
      have hnone : ∀ f ∈ s.List, f.stage ≠ .answering .DISABLED := fun f hf hstage => by
        rw [h.answering f hf hstage] at hState
        cases hState
      unfold System.unplug
      split_ifs
      · refine ⟨h.unplug, ?_, fun f hf hE => ?_, fun f hf hstage => absurd hstage (hnone f hf)⟩
        · exact .pending hquiet (.inr (congrArg (fun u => [Event.unplugged (UnplugDevices u)]) h.unplug)) hFdos .nil
        · exact List.mem_append_left _ (List.mem_append_left _ (h.enumerated f hf hE))
      · refine ⟨h.unplug, ?_, fun f hf hE => ?_, fun f hf hstage => absurd hstage (hnone f hf)⟩
        · have hpending : Phases (UnplugDevices Unplug) .PENDING
              (s.log ++ [] ++ [.pending (s.List.map Fdo.address)]) := .pending hquiet (.inl rfl) hFdos .nil
          rwa [List.append_nil] at hpending
        · exact List.mem_append_left _ (h.enumerated f hf hE)
    · exact h

end Gated

/-- The buses and their objects are left alone. -/
theorem DriverSetFilterState_frame (s : System) (w : World) : (s.DriverSetFilterState w).List = s.List ∧
    (s.DriverSetFilterState w).Emulated = s.Emulated ∧ (s.DriverSetFilterState w).next = s.next := by
  unfold System.DriverSetFilterState
  cases s.FilterState with
  | DISABLED => exact ⟨rfl, rfl, rfl⟩
  | PENDING => exact ⟨rfl, rfl, rfl⟩
  | ENABLED =>
    dsimp only
    split_ifs
    · unfold System.unplug
      split_ifs <;> exact ⟨rfl, rfl, rfl⟩
    · exact ⟨rfl, rfl, rfl⟩

/-- The stage of a bus changes, and nothing is logged. -/
theorem Gated.stage (h : Gated Unplug s) (hf : f ∈ s.List) (haddress : f'.address = f.address)
    (hEnumerated : f'.Enumerated = f.Enumerated)
    (hanswering : f'.stage = .answering .DISABLED → s.FilterState = .DISABLED) : Gated Unplug (s.set f') := by
  have hphases : Phases (UnplugDevices Unplug) s.FilterState (s.log ++ []) := (List.append_nil s.log).symm ▸ h.phases
  exact h.log_set hf hphases haddress (fun hE => .inl (hEnumerated ▸ hE)) hanswering
    ⟨rfl, rfl, (List.append_nil _).symm, fun g hg => mem_set hg⟩

theorem Gated.answer (h : Gated Unplug s) (hf : f ∈ s.List) {State : FilterState}
    (hstage : f.stage = .answering State) (memory : Bool) : Gated Unplug (s.answer State memory f) := by
  unfold System.answer
  dsimp only
  split_ifs with hmemory hState
  · have hdisabled := h.answering f hf (hState ▸ hstage)
    have hphases := h.phases
    rw [hdisabled] at hphases
    have hanswered := hphases.answered f.address f.devices (report (s.shared f) f.List).2.2
    rw [← hdisabled] at hanswered
    refine h.log_set hf hanswered ?_ ?_ ?_ ⟨rfl, rfl, rfl, fun g hg => mem_put hg⟩
    · rfl
    · exact .inl
    · nofun
  · refine h.log_set hf (h.phases.append fun hquiet => hquiet.filtered f.address f.devices) ?_ ?_ ?_
      ⟨rfl, rfl, List.append_assoc .., fun g hg => mem_set (s := s) hg⟩
    · rfl
    · exact .inl
    · nofun
  · apply h.stage hf
    · rfl
    · rfl
    · nofun

theorem step_gated (h : Gated Unplug s) {a : Action} (hs : step s a = some t) : Gated Unplug t := by
  cases a with
  | setEnumerated fdo =>
    obtain ⟨f, -, hf, rfl, -, rfl⟩ := onFdo_ite_eq_some hs
    refine h.log_set hf (h.phases.append fun hquiet => hquiet.enumerated f.address) ?_ ?_ ?_
      ⟨rfl, rfl, rfl, fun g hg => mem_set (s := s) hg⟩
    · rfl
    · exact fun _ => .inr (List.mem_singleton_self _)
    · nofun
  | setFilterState fdo w =>
    obtain ⟨f, -, hf, rfl, -, rfl⟩ := onFdo_ite_eq_some hs
    have hf' : f ∈ (s.DriverSetFilterState w).List := by rwa [(DriverSetFilterState_frame s w).1]
    apply (h.setFilterState w).stage hf'
    · rfl
    · rfl
    · nofun
  | getFilterState fdo =>
    obtain ⟨f, -, hf, rfl, -, rfl⟩ := onFdo_ite_eq_some hs
    apply h.stage hf
    · rfl
    · rfl
    · exact Stage.answering.inj
  | answer fdo memory =>
    obtain ⟨f, -, hf, rfl, hbody⟩ := onFdo_eq_some hs
    cases hstage : f.stage with
    | answering State =>
      rw [hstage] at hbody
      obtain rfl := Option.some.inj hbody
      exact h.answer hf hstage memory
    | idle | enumerated | setting | reading =>
      rw [hstage] at hbody
      cases hbody
  | _ => exact h.still (step_still rfl hs)

/-! ## The first answer that names a device -/

theorem Quiet.nothing_named {l : List Event} (h : Quiet l) {fdo : ℕ} {devices Relations : List ℕ}
    (hmem : .answered fdo devices Relations ∈ l) : Relations = [] := by
  induction h with
  | nil => cases hmem
  | enumerated _ _ ih | invalidated _ _ ih =>
    rcases List.mem_append.mp hmem with hmem | hmem
    · exact ih hmem
    · cases List.mem_singleton.mp hmem
  | filtered _ _ _ ih =>
    rcases List.mem_append.mp hmem with hmem | hmem
    · exact ih hmem
    · simp only [List.mem_cons, Event.answered.injEq, reduceCtorEq, List.not_mem_nil, or_false] at hmem
      exact hmem.2.2

theorem Phases.nothing_named {writes : List ℕ} {l : List Event} (h : Phases writes .PENDING l) {fdo : ℕ}
    {devices Relations : List ℕ} (hmem : .answered fdo devices Relations ∈ l) : Relations = [] := by
  cases h with
  | pending h hunplugged hFdos h' =>
    rcases List.mem_append.mp hmem with hmem | hmem
    · rcases List.mem_append.mp hmem with hmem | hmem
      · exact h.nothing_named hmem
      · rcases hunplugged with rfl | rfl
        · cases hmem
        · cases List.mem_singleton.mp hmem
    · rcases List.mem_cons.mp hmem with hmem | hmem
      · cases hmem
      · exact h'.nothing_named hmem

/-- Of two ways to cut a list in two, the later cut. -/
theorem cut_later {α : Type*} {l l' before after : List α} {x y : α} (heq : l ++ x :: l' = before ++ y :: after)
    (hne : y ≠ x) (hy : y ∉ l) : ∃ between, before = l ++ x :: between ∧ l' = between ++ y :: after := by
  rcases List.append_eq_append_iff.mp heq with ⟨between, hbefore, hrest⟩ | ⟨between, hl, hrest⟩
  · cases between with
    | nil => exact absurd (List.cons.inj hrest).1.symm hne
    | cons z between =>
      obtain ⟨rfl, hl'⟩ := List.cons.inj hrest
      exact ⟨between, hbefore, hl'⟩
  · cases between with
    | nil => exact absurd (List.cons.inj hrest).1 hne
    | cons z between =>
      obtain ⟨rfl, -⟩ := List.cons.inj hrest
      exact absurd (hl ▸ List.mem_append_right _ List.mem_cons_self) hy

theorem gated_of_reaches (h : Reaches step Free (DriverEntry Unplug) s) : Gated Unplug s :=
  h.invariant (P := Gated Unplug) ⟨rfl, .enabled .nil, fun _ hf => absurd hf List.not_mem_nil,
    fun _ hf => absurd hf List.not_mem_nil⟩ fun _ _ _ hs _ hst => step_gated hs hst

/-- **The gate.** Before an answer that names a device, each bus that was listed when the filter became pending had
been enumerated, what is requested had been unplugged or nothing had, the filter has become pending and been
disabled, in this order and once. Until then each answer is empty and asks for another query. -/
theorem gate (h : Reaches step Free (DriverEntry Unplug) s) {before after : List Event} {fdo : ℕ}
    {devices Relations : List ℕ} (hlog : s.log = before ++ .answered fdo devices Relations :: after)
    (hnamed : Relations ≠ []) :
    ∃ l unplugged Fdos l' l'', before = l ++ unplugged ++ .pending Fdos :: l' ++ .disabled :: l'' ∧
      Quiet l ∧ (∀ fdo ∈ Fdos, .enumerated fdo ∈ l) ∧
      (unplugged = [] ∨ unplugged = [.unplugged (UnplugDevices Unplug)]) ∧
      Quiet l' ∧ ∀ e ∈ l'' ++ after, e.ordinary := by
  have hphases := (gated_of_reaches h).phases
  have hmem : .answered fdo devices Relations ∈ s.log := hlog ▸ List.mem_append_right _ List.mem_cons_self
  cases hState : s.FilterState with
  | ENABLED =>
    rw [hState] at hphases
    cases hphases with
    | enabled hquiet => exact absurd (hquiet.nothing_named hmem) hnamed
  | PENDING =>
    rw [hState] at hphases
    exact absurd (hphases.nothing_named hmem) hnamed
  | DISABLED =>
    rw [hState] at hphases
    generalize s.log = log at hphases hlog
    cases hphases with
    | disabled hpending hordinary =>
      obtain ⟨l'', rfl, rfl⟩ := cut_later hlog nofun fun hmem => hnamed (hpending.nothing_named hmem)
      cases hpending with
      | pending hquiet hunplugged hFdos hquiet' =>
        refine ⟨_, _, _, _, l'', rfl, hquiet, hFdos, hunplugged, hquiet', ?_⟩
        intro e he
        refine hordinary e ?_
        rcases List.mem_append.mp he with he | he
        · exact List.mem_append_left _ he
        · exact List.mem_append_right _ (List.mem_cons_of_mem _ he)

/-- A query of the first bus. -/
def queried : List Action :=
  [.query 0 here [7] true, .setEnumerated 0, .setFilterState 0 here, .getFilterState 0, .answer 0 true]

/-- A bus has been queried twice. -/
def reportedEnd : System :=
  (run step (DriverEntry ⟨fun _ => true, false⟩) (.addDevice .PCI :: (queried ++ queried))).get (by decide)

theorem reaches_reportedEnd : Reaches step Free (DriverEntry ⟨fun _ => true, false⟩) reportedEnd :=
  reaches_of_run (Option.some_get _).symm

/-- What has happened before the answer that names the device. -/
def reportedBefore : List Event :=
  [.enumerated 0, .unplugged [9, 2], .pending [0], .answered 0 [7] [], .invalidated 0, .enumerated 0, .disabled]

theorem reportedEnd_log : reportedEnd.log = reportedBefore ++ .answered 0 [7] [7] :: [] := by decide

theorem gate_reported : ∃ l unplugged Fdos l' l'',
    reportedBefore = l ++ unplugged ++ .pending Fdos :: l' ++ .disabled :: l'' ∧ Quiet l ∧ Quiet l' := by
  obtain ⟨l, unplugged, Fdos, l', l'', heq, hquiet, -, -, hquiet', -⟩ :=
    gate reaches_reportedEnd reportedEnd_log nofun
  exact ⟨l, unplugged, Fdos, l', l'', heq, hquiet, hquiet'⟩

end XenBus.Xenfilt
