import XenBus.Interfaces.Channels

/-!
# The store and the console

`StoreAcquire` and `ConsoleAcquire` come to their ring page through the grant tables, acquire the event channels
and then register their callbacks. `storeAcquire_exact` and `consoleAcquire_exact` say what they come to, where
`EvtchnAcquire` is whole if they come to it.
-/

namespace XenBus.Interfaces

open Unwind

variable {env : Env} {w : World} {js : List Interface} {i k : Interface} {l : Ledger} {reference : ℤ}

/-! ## What the contexts keep -/

/-- What the contexts keep between calls. -/
structure Consistent (js : List Interface) (w : World) : Prop where
  ledger : Kept js w.ledger
  gnttab : w.ledger.References .gnttab = 0 → w.gnttab = ⟨0, 0, 0⟩
  frames : w.ledger.References .gnttab ≠ 0 → 0 ≤ w.gnttab.FrameIndex
  fifo : FifoKept w.fifo
  idle : w.ledger.References .evtchn = 0 → w.evtchn = closed

/-! ## The ring page -/

theorem upGnttab_outstanding {w : Lower} (hk : k.upper = true) :
    (upGnttab w).ledger.outstanding k = w.ledger.outstanding k := by
  have h := ne_of_upper (j := .debug) hk rfl
  have hearly : k ≠ Queue.early.owner := ne_of_upper (j := .suspend) hk rfl
  have hdebug : k ≠ Queue.debug.owner := h
  have hsteps : ∀ l : Ledger, (upGnttabSteps l).outstanding k = l.outstanding k := by
    intro l
    rw [upGnttabSteps, outstanding_insertTail hdebug, upDebug_outstanding, outstanding_insertTail hearly,
      upReporting_outstanding h, upReporting_outstanding h, outstanding_create (ne_of_upper hk rfl),
      upReporting_outstanding h, outstanding_take]
  by_cases h0 : w.ledger.References .gnttab = 0
  · simp [upGnttab, Counter.up, gnttabReferences, h0, hsteps]
  · simp [upGnttab, Counter.up, gnttabReferences, h0]

/-- Whether the debug interface and the suspend interface can be acquired does not depend on the grant tables. -/
theorem gnttab_congr {w : Lower} (hw : GnttabKept js w) (hok : gnttabOk env w.ledger) :
    (reportingOk env .suspend (upGnttab w).ledger ↔ reportingOk env .suspend w.ledger) ∧
      (debugOk env (upGnttab w).ledger ↔ debugOk env w.ledger) := by
  by_cases h0 : w.ledger.References .gnttab = 0
  · obtain ⟨-, -, -, -, -, hsuspend, -, hdebug, -⟩ := hok h0
    have hafter := (gnttabSteps_exact env js).after ⟨w.ledger.refer .gnttab 1, w.gnttab⟩
      ⟨hw.1.refer .gnttab, hw.2 h0⟩
      ((gnttabStepsOk_refer (by decide) (by decide) (by decide) (by decide)).2 (hok h0))
    have hup : upGnttab w = ⟨upGnttabSteps (w.ledger.refer .gnttab 1), oneFrame⟩ := if_pos h0
    rw [hup]
    exact ⟨iff_of_true (reportingOk_of_up hafter.2 (by simp)) hsuspend,
      iff_of_true (debugOk_of_up hafter.2 (by simp)) hdebug⟩
  · have hup : upGnttab w = ⟨w.ledger.refer .gnttab 1, w.gnttab⟩ := if_neg h0
    rw [hup]
    exact ⟨reportingOk_refer (by decide) (by decide), debugOk_refer (by decide)⟩

/-- What the steps to the ring page come to. -/
def upRing (i : Interface) (w : Lower) : Lower :=
  lowerLedger.set ((upGnttab w).ledger.take (.ioSpace i)) (upGnttab w)

/-- A reference of the first frame is there once the grant tables have been acquired. -/
theorem getAddress_exact (js : List Interface) (hreference : reference < gnttabEntryPerFrame) :
    Exact (fun w : Lower => GnttabKept js w ∧ 0 ≤ w.gnttab.FrameIndex) (fun w => GnttabKept js w) (fun _ => True)
      id (getAddress reference) (sequence []) where
  passes := by
    rintro w ⟨-, hframes⟩ -
    have hquery : gnttabQueryReference w.gnttab reference = true := by
      rw [gnttabQueryReference, decide_eq_true_eq]
      rw [gnttabEntryPerFrame] at hreference ⊢
      omega
    rw [getAddress, hquery]
    rfl
  after := fun w hw _ => hw.1
  undone := fun _ _ _ => rfl
  fails := fun _ _ hnot => absurd trivial hnot

theorem ringPage_exact (env : Env) (i : Interface) (js : List Interface)
    (hreference : reference < gnttabEntryPerFrame) :
    Exact (fun w : Lower => GnttabKept js w ∧ (gnttabOk env w.ledger → w.ledger.References .gnttab ≠ 0 →
        0 ≤ w.gnttab.FrameIndex))
      (fun w => Kept (.gnttab :: js) w.ledger)
      (fun w => gnttabOk env w.ledger ∧ True ∧ env.fails (.mapIoSpace i) = false) (upRing i)
      (attempt (ringPage env i reference))
      (sequence [lowerLedger.undo (giveBack (.ioSpace i)), gnttabRelease]) := by
  have hmap : Exact (GnttabKept (.gnttab :: js)) (fun w => Kept (.gnttab :: js) w.ledger) _ _ _ _ :=
    (((claim_exact (.gnttab :: js) (env.fails (.mapIoSpace i)) (.ioSpace i)).part lowerLedger
      (fun _ => True) fun _ _ h => h).last [lowerLedger.undo (giveBack (.ioSpace i))]).mono
        (fun w hw => ⟨hw.1, trivial⟩) fun w hw => hw.1
  have haddress := (getAddress_exact (.gnttab :: js) hreference).cons hmap
  have hgnttab := (gnttabAcquire_exact env js).single.when
    (C := fun w => w.ledger.References .gnttab ≠ 0 → 0 ≤ w.gnttab.FrameIndex)
    (D := fun w => 0 ≤ w.gnttab.FrameIndex) (by
      intro w hw _ hframes
      by_cases h0 : w.ledger.References .gnttab = 0
      · have hup : upGnttab w = ⟨upGnttabSteps (w.ledger.refer .gnttab 1), oneFrame⟩ := if_pos h0
        rw [hup]
        exact le_refl 0
      · have hup : upGnttab w = ⟨w.ledger.refer .gnttab 1, w.gnttab⟩ := if_neg h0
        rw [hup]
        exact hframes h0)
  exact hgnttab.cons haddress

theorem upRing_References (hk : k.upper = true) (w : Lower) :
    (upRing i w).ledger.References k = w.ledger.References k :=
  upGnttab_References (ne_of_upper hk rfl) (ne_of_upper hk rfl) (ne_of_upper hk rfl) (ne_of_upper hk rfl)
    (ne_of_upper hk rfl)

theorem upRing_outstanding (hk : k.upper = true) (w : Lower) :
    (upRing i w).ledger.outstanding k = w.ledger.outstanding k :=
  outstanding_take.trans (upGnttab_outstanding hk)

/-- Whether `EvtchnAcquire` comes to the ABI does not depend on the ring page. -/
theorem evtchnCallbacksOk_upRing {w : Lower} (hw : GnttabKept js w) (hok : gnttabOk env w.ledger) :
    evtchnCallbacksOk env (upRing i w).ledger ↔ evtchnCallbacksOk env w.ledger := by
  obtain ⟨hsuspend, hdebug⟩ := gnttab_congr hw hok
  have hcount : (upGnttab w).ledger.References .sharedInfo = w.ledger.References .sharedInfo :=
    upGnttab_References (by decide) (by decide) (by decide) (by decide) (by decide)
  have hshared := sharedInfoOk_congr hcount hsuspend hdebug
  have htake : evtchnCallbacksOk env (upRing i w).ledger ↔ evtchnCallbacksOk env (upGnttab w).ledger := Iff.rfl
  rw [htake, evtchnCallbacksOk, evtchnCallbacksOk, hsuspend, hdebug, hshared]

/-! ## The call -/

/-- The steps of `StoreAcquire` and of `ConsoleAcquire`. -/
def clientSteps (env : Env) (i : Interface) (reference : ℤ) (callbacks : List (Stage Ledger)) :
    List (Stage World) :=
  (ringPage env i reference).map worldLower.stage ++
    ⟨evtchnAcquire env, [evtchnRelease env]⟩ :: callbacks.map worldLedger.stage

/-- The last releases of `StoreRelease` and of `ConsoleRelease`. -/
def clientUndo (env : Env) (i : Interface) : List (Undo World) :=
  [evtchnRelease env, worldLower.undo (lowerLedger.undo (giveBack (.ioSpace i))), worldLower.undo gnttabRelease]

/-- The steps to the ring page as one. -/
theorem attempt_clientSteps (env : Env) (i : Interface) (reference : ℤ) (callbacks : List (Stage Ledger)) :
    attempt (clientSteps env i reference callbacks) =
      attempt (⟨worldLower.step (attempt (ringPage env i reference)),
          [worldLower.undo (lowerLedger.undo (giveBack (.ioSpace i))), worldLower.undo gnttabRelease]⟩ ::
        ⟨evtchnAcquire env, [evtchnRelease env]⟩ :: callbacks.map worldLedger.stage) := by
  rw [clientSteps, attempt_append, funext (worldLower.attempt_map (ringPage env i reference)),
    worldLower.unwind_map]
  rfl

/-- If the interface has to be set up, and its `Acquire` comes to the event channels, their `Acquire` is whole. -/
def clientWhole (env : Env) (i : Interface) (w : World) : Prop :=
  w.ledger.References i = 0 → gnttabOk env w.ledger → env.fails (.mapIoSpace i) = false → evtchnWhole env w

variable {okC : Ledger → Prop} {upC : Ledger → Ledger} {callbacks : List (Stage Ledger)}
  {undos : List (Undo Ledger)}

/-- What the steps come to. -/
def upClientSteps (env : Env) (i : Interface) (upC : Ledger → Ledger) (w : World) : World :=
  worldLedger.set (upC (upEvtchn env (worldLower.set (upRing i w.toLower) w)).ledger)
    (upEvtchn env (worldLower.set (upRing i w.toLower) w))

theorem clientSteps_exact (env : Env) (i : Interface) (js : List Interface)
    (hreference : reference < gnttabEntryPerFrame)
    (hcallbacks : Exact (Kept (.evtchn :: .gnttab :: js)) (Kept js) okC upC (attempt callbacks) (sequence undos)) :
    Exact (fun w => Consistent js w ∧
        (gnttabOk env w.ledger → env.fails (.mapIoSpace i) = false → evtchnWhole env w))
      (fun w => Kept js w.ledger)
      (fun w => (gnttabOk env w.ledger ∧ True ∧ env.fails (.mapIoSpace i) = false) ∧
        ((worldLower.set (upRing i w.toLower) w).ledger.References .evtchn = 0 →
          evtchnCallbacksOk env (worldLower.set (upRing i w.toLower) w).ledger ∧
            env.fails (.allocate .evtchn) = false ∧ env.fails .interrupt = false) ∧
        okC (upEvtchn env (worldLower.set (upRing i w.toLower) w)).ledger)
      (upClientSteps env i upC) (attempt (clientSteps env i reference callbacks))
      (sequence (undos.map worldLedger.undo ++ clientUndo env i)) := by
  have hledger := hcallbacks.part worldLedger (fun _ => True) fun _ _ h => h
  have hattempt : worldLedger.step (attempt callbacks) = attempt (callbacks.map worldLedger.stage) :=
    (funext (worldLedger.attempt_map callbacks)).symm
  rw [hattempt] at hledger
  have hevtchn := (evtchnAcquire_exact env (.gnttab :: js)).single.cons
    (hledger.mono (fun w hw => ⟨hw, trivial⟩) fun w hw => hw.1)
  have hring := ((ringPage_exact env i js hreference).part worldLower (fun w => FifoKept w.fifo)
    fun _ _ h => h).keeping (fun w : World => w.ledger.References .evtchn = 0 → w.evtchn = closed)
    fun w hidle h0 => hidle ((upRing_References (k := .evtchn) rfl w.toLower).symm.trans h0)
  have hwhole := hring.when
    (C := fun w : World => GnttabKept js w.toLower ∧ gnttabOk env w.ledger ∧ evtchnWhole env w)
    (D := evtchnWhole env) (by
      rintro w - - ⟨hkept, hok, hwhole⟩ h0 hcallbacksOk
      exact hwhole ((upRing_References (k := .evtchn) rfl w.toLower).symm.trans h0)
        ((evtchnCallbacksOk_upRing hkept hok).1 hcallbacksOk))
  rw [attempt_clientSteps]
  have hundo : undos.map worldLedger.undo ++ clientUndo env i =
      undos.map worldLedger.undo ++ [evtchnRelease env] ++
        [lowerLedger.undo (giveBack (.ioSpace i)), gnttabRelease].map worldLower.undo := by
    rw [List.append_assoc]
    rfl
  rw [hundo]
  refine (hwhole.mono (fun w hw => ?_) fun w hw => ?_).cons hevtchn
  · obtain ⟨hw, hwhole⟩ := hw
    have hkept : GnttabKept js w.toLower := ⟨hw.ledger, hw.gnttab⟩
    exact ⟨⟨⟨⟨hkept, fun _ => hw.frames⟩, hw.fifo⟩, hw.idle⟩, fun hok => ⟨hkept, hok.1, hwhole hok.1 hok.2.2⟩⟩
  · exact ⟨⟨hw.1.1.1, hw.1.1.2, hw.1.2⟩, hw.2⟩

/-! The releases do not read the count of the interface. -/

theorem gnttabRelease_commutes (hk : k.upper = true) :
    Commutes (fun w : Lower => lowerLedger.set (w.ledger.refer k (-1)) w) gnttabRelease := by
  have lower (undo : Undo Ledger) (h : Commutes (Ledger.refer k (-1)) undo) :
      Commutes (fun w : Lower => lowerLedger.set (w.ledger.refer k (-1)) w) (lowerLedger.undo undo) :=
    lowerLedger.undo_commutes h
  have frames (undo : Undo GnttabContext) :
      Commutes (fun w : Lower => lowerLedger.set (w.ledger.refer k (-1)) w) (lowerGnttab.undo undo) :=
    lowerGnttab.undo_commutes_of_apart undo (fun _ => rfl) fun _ _ => rfl
  have h := ne_of_upper (j := .debug) hk rfl
  have hg := ne_of_upper (j := .gnttab) hk rfl
  refine gnttabReferences.release_commutes (fun w => refer_References_of_ne hg.symm)
    (fun w => congrArg (fun l => lowerLedger.set l w) (refer_comm hg (-1) (-1) w.ledger)) ?_
  simp only [List.mem_cons, List.not_mem_nil, or_false, forall_eq_or_imp, forall_eq]
  exact ⟨lower _ (bugOnOutstanding_commutes _), lower _ (deregister_commutes _ _),
    lower _ (debugRelease_commutes h), lower _ (deregister_commutes _ _),
    lower _ (reportingRelease_commutes h (ne_of_upper hk rfl)),
    lower _ (reportingRelease_commutes h (ne_of_upper hk rfl)), frames _, lower _ (destroy_commutes _),
    lower _ (reportingRelease_commutes h (ne_of_upper hk rfl)), frames _, lower _ (giveBack_commutes _)⟩

theorem evtchnRelease_commutes (env : Env) (hk : k.upper = true) (hne : k ≠ .evtchn) :
    Commutes ((worldReferences k).add (-1)) (evtchnRelease env) := by
  have h := ne_of_upper (j := .debug) hk rfl
  have hs := ne_of_upper (j := .suspend) hk rfl
  have hi := ne_of_upper (j := .sharedInfo) hk rfl
  refine (worldReferences .evtchn).release_commutes (fun w => refer_References_of_ne hne.symm)
    (fun w => congrArg (fun l => worldLedger.set l w) (refer_comm hne (-1) (-1) w.ledger)) ?_
  simp only [List.mem_cons, List.not_mem_nil, or_false, forall_eq_or_imp, forall_eq]
  exact ⟨freeInterrupts_commutes _ _, evtchnUndo_commutes _ (giveBack_commutes _), freeInterrupt_commutes _,
    evtchnUndo_commutes _ (bugOnOutstanding_commutes _), evtchnAbiRelease_commutes h hs hi (ne_of_upper hk rfl),
    evtchnUndo_commutes _ (sharedInfoRelease_commutes h hs hi), evtchnUndo_commutes _ (deregister_commutes _ _),
    evtchnUndo_commutes _ (debugRelease_commutes h), evtchnUndo_commutes _ (deregister_commutes _ _),
    evtchnUndo_commutes _ (deregister_commutes _ _), evtchnUndo_commutes _ (reportingRelease_commutes h hs)⟩

theorem clientUndo_commutes (env : Env) (hk : k.upper = true) (hne : k ≠ .evtchn) (i : Interface) :
    ∀ undo ∈ clientUndo env i, Commutes ((worldReferences k).add (-1)) undo := by
  simp only [clientUndo, List.mem_cons, List.not_mem_nil, or_false, forall_eq_or_imp, forall_eq]
  exact ⟨evtchnRelease_commutes env hk hne,
    worldLower.undo_commutes (lowerLedger.undo_commutes (giveBack_commutes _)),
    worldLower.undo_commutes (gnttabRelease_commutes hk)⟩

theorem Consistent.refer (h : Consistent js w) (hk : k.upper = true) (hne : k ≠ .evtchn) :
    Consistent (k :: js) ((worldReferences k).add 1 w) where
  ledger := h.ledger.refer k
  gnttab := fun h0 => h.gnttab ((refer_References_of_ne (ne_of_upper hk rfl).symm).symm.trans h0)
  frames := fun hne' => h.frames fun h0 => hne' ((refer_References_of_ne (ne_of_upper hk rfl).symm).trans h0)
  fifo := h.fifo
  idle := fun h0 => h.idle ((refer_References_of_ne hne.symm).symm.trans h0)

theorem gnttabOk_refer {n : ℤ} (hk : k.upper = true) : gnttabOk env (l.refer k n) ↔ gnttabOk env l := by
  rw [gnttabOk, gnttabOk, refer_References_of_ne (ne_of_upper hk rfl).symm,
    gnttabStepsOk_refer (ne_of_upper hk rfl) (ne_of_upper hk rfl) (ne_of_upper hk rfl) (ne_of_upper hk rfl)]

theorem evtchnWhole_refer (hk : k.upper = true) (hne : k ≠ .evtchn) :
    evtchnWhole env ((worldReferences k).add 1 w) ↔ evtchnWhole env w := by
  have hcount : ((worldReferences k).add 1 w).ledger.References .evtchn = w.ledger.References .evtchn :=
    refer_References_of_ne hne.symm
  have hcallbacks : evtchnCallbacksOk env ((worldReferences k).add 1 w).ledger ↔
      evtchnCallbacksOk env w.ledger :=
    evtchnCallbacksOk_refer hk
  rw [evtchnWhole, evtchnWhole, hcount, hcallbacks]
  rfl

theorem upEvtchn_References (hk : k.upper = true) (hne : k ≠ .evtchn) :
    (upEvtchn env w).ledger.References k = w.ledger.References k := by
  have hsteps (w : World) : (upEvtchnSteps env w).ledger.References k = w.ledger.References k :=
    upEvtchnSteps_References (ne_of_upper hk rfl) (ne_of_upper hk rfl) (ne_of_upper hk rfl) (ne_of_upper hk rfl)
  rw [upEvtchn, Counter.up]
  split_ifs
  · exact (hsteps _).trans (refer_References_of_ne hne)
  · exact refer_References_of_ne hne

theorem upEvtchn_outstanding (hk : k.upper = true) :
    (upEvtchn env w).ledger.outstanding k = w.ledger.outstanding k := by
  have hsteps (w : World) : (upEvtchnSteps env w).ledger.outstanding k = w.ledger.outstanding k :=
    upEvtchnSteps_outstanding (ne_of_upper hk rfl) (ne_of_upper hk rfl)
  rw [upEvtchn, Counter.up]
  split_ifs
  · exact (hsteps _).trans outstanding_refer
  · exact outstanding_refer

/-- **`StoreAcquire` and `ConsoleAcquire` are exact**, if they are whole. -/
theorem clientAcquire_exact (env : Env) (i : Interface) (hi : i.upper = true) (hne : i ≠ .evtchn)
    (hreference : reference < gnttabEntryPerFrame)
    (hcallbacks : Exact (Kept [.evtchn, .gnttab, i]) (Kept [i]) okC upC (attempt callbacks) (sequence undos))
    (hcount : ∀ l, (upC l).References i = l.References i) (hout : ∀ l, (upC l).outstanding i = l.outstanding i)
    (hcommutes : ∀ undo ∈ undos, Commutes (Ledger.refer i (-1)) undo) :
    ∃ ok up, Exact (fun w => Consistent [] w ∧ clientWhole env i w) (fun w => Kept [i] w.ledger) ok up
      ((worldReferences i).acquire (clientSteps env i reference callbacks))
      ((worldReferences i).release
        (worldLedger.undo (bugOnOutstanding i) :: (undos.map worldLedger.undo ++ clientUndo env i))) := by
  have hup (w : World) : (upClientSteps env i upC w).ledger.outstanding i = w.ledger.outstanding i :=
    (hout _).trans ((upEvtchn_outstanding hi).trans (upRing_outstanding hi w.toLower))
  have hchecked : Exact (fun w => (Consistent [i] w ∧ (gnttabOk env w.ledger → env.fails (.mapIoSpace i) = false →
      evtchnWhole env w)) ∧ w.ledger.outstanding i = false) (fun w => Kept [i] w.ledger) _ _ _ _ :=
    (clientSteps_exact env i [i] hreference hcallbacks).checked (worldLedger.undo (bugOnOutstanding i))
      (fun w hw => hw.1) (by
        intro w hw _
        have hnone : (upClientSteps env i upC w).ledger.outstanding i = false := (hup w).trans hw.2
        simp [Part.undo, worldLedger, bugOnOutstanding, hnone])
  refine ⟨_, _, (worldReferences i).exact hchecked ?_ ?_ ?_ ?_ ?_⟩
  · exact fun w hw => hw.1.ledger.nonneg i
  · rintro w ⟨hw, hwhole⟩ h0
    refine ⟨⟨hw.refer hi hne, fun hok hmap => ?_⟩, outstanding_refer.trans (hw.ledger.idle i h0)⟩
    exact (evtchnWhole_refer hi hne).2 (hwhole h0 ((gnttabOk_refer hi).1 hok) hmap)
  · exact fun w hw _ => hw.1.ledger.refer i
  · intro w
    exact (hcount _).trans ((upEvtchn_References hi hne).trans (upRing_References hi w.toLower))
  · refine sequence_commutes (List.forall_mem_cons.2 ⟨worldLedger.undo_commutes (bugOnOutstanding_commutes i), ?_⟩)
    intro undo hundo
    obtain hundo | hundo := List.mem_append.1 hundo
    · obtain ⟨undo, hmem, rfl⟩ := List.mem_map.1 hundo
      exact worldLedger.undo_commutes (hcommutes undo hmem)
    · exact clientUndo_commutes env hi hne i undo hundo

/-! ## Store and console -/

/-- A channel is opened. -/
theorem open_exact (fails : Bool) (js : List Interface) (hjs : .evtchn ∈ js) :
    Exact (Kept js) (Kept js) (fun _ => fails = false) (Ledger.create .evtchn)
      (fun l => if fails then some (false, l) else evtchnOpen l) (sequence [evtchnClose]) where
  passes := by
    rintro l - rfl
    rfl
  after := fun l hl _ => hl.create hjs
  undone := by
    intro l _ _
    simp [evtchnClose, destroy, Ledger.create]
  fails := by
    intro l _ hfails
    rw [Bool.not_eq_false] at hfails
    rw [hfails]
    rfl

/-- What the steps of `StoreAcquire` after the event channels come to. -/
def upStoreCallbacks (l : Ledger) : Ledger :=
  (upDebug (((upReporting .suspend (l.create .evtchn)).insertTail .early .store).insertTail .late
    .store)).insertTail .debug .store

/-- What they are taken back with. -/
def storeCallbacksUndo : List (Undo Ledger) :=
  [deregister .debug .store, debugRelease, deregister .late .store, deregister .early .store, suspendRelease,
    evtchnClose]

theorem storeCallbacks_exact (env : Env) : ∃ ok, Exact (Kept [.evtchn, .gnttab, .store]) (Kept [.store]) ok
    upStoreCallbacks (attempt (storeCallbacks env)) (sequence storeCallbacksUndo) := by
  have hdebug := (debugAcquire_exact env [.suspend, .evtchn, .gnttab, .store]).single.cons
    ((register_exact env .debug (by simp [Queue.owner]) .store).last [])
  have hlate := (register_exact env .late (by simp [Queue.owner]) .store).cons hdebug
  have hearly := (register_exact env .early (by simp [Queue.owner]) .store).cons hlate
  have hsuspend := (reportingAcquire_exact env (i := .suspend) (by decide) [.evtchn, .gnttab, .store]).single.cons
    hearly
  have hopen := (open_exact false [.evtchn, .gnttab, .store] (by simp)).cons hsuspend
  exact ⟨_, hopen.mono (fun _ h => h) fun l hl => hl.mono (by simp)⟩

/-- **`StoreAcquire` is exact**, if it is whole. -/
theorem storeAcquire_exact (env : Env) : ∃ ok up, Exact (fun w => Consistent [] w ∧ clientWhole env .store w)
    (fun w => Kept [.store] w.ledger) ok up (storeAcquire env) (storeRelease env) := by
  obtain ⟨ok, hcallbacks⟩ := storeCallbacks_exact env
  refine clientAcquire_exact env .store rfl (by decide) (by decide) hcallbacks (fun l => ?_) (fun l => ?_) ?_
  · rw [upStoreCallbacks, insertTail_References, upDebug_References (by decide), insertTail_References,
      insertTail_References, upReporting_References (by decide) (by decide), create_References]
  · rw [upStoreCallbacks, outstanding_insertTail (by decide), upDebug_outstanding,
      outstanding_insertTail (by decide), outstanding_insertTail (by decide), upReporting_outstanding (by decide),
      outstanding_create (by decide)]
  · simp only [storeCallbacksUndo, List.mem_cons, List.not_mem_nil, or_false, forall_eq_or_imp, forall_eq]
    exact ⟨deregister_commutes _ _, debugRelease_commutes (by decide), deregister_commutes _ _,
      deregister_commutes _ _, reportingRelease_commutes (by decide) (by decide), destroy_commutes _⟩

/-- What the steps of `ConsoleAcquire` after the event channels come to. -/
def upConsoleCallbacks (l : Ledger) : Ledger :=
  (upDebug ((upReporting .suspend (l.create .evtchn)).insertTail .late .console)).insertTail .debug .console

/-- What they are taken back with. -/
def consoleCallbacksUndo : List (Undo Ledger) :=
  [deregister .debug .console, debugRelease, deregister .late .console, suspendRelease, evtchnClose]

theorem consoleCallbacks_exact (env : Env) : ∃ ok, Exact (Kept [.evtchn, .gnttab, .console]) (Kept [.console]) ok
    upConsoleCallbacks (attempt (consoleCallbacks env)) (sequence consoleCallbacksUndo) := by
  have hdebug := (debugAcquire_exact env [.suspend, .evtchn, .gnttab, .console]).single.cons
    ((register_exact env .debug (by simp [Queue.owner]) .console).last [])
  have hlate := (register_exact env .late (by simp [Queue.owner]) .console).cons hdebug
  have hsuspend :=
    (reportingAcquire_exact env (i := .suspend) (by decide) [.evtchn, .gnttab, .console]).single.cons hlate
  have hopen := (open_exact (env.fails .consoleParam) [.evtchn, .gnttab, .console] (by simp)).cons hsuspend
  exact ⟨_, hopen.mono (fun _ h => h) fun l hl => hl.mono (by simp)⟩

/-- **`ConsoleAcquire` is exact**, if it is whole. -/
theorem consoleAcquire_exact (env : Env) : ∃ ok up, Exact (fun w => Consistent [] w ∧ clientWhole env .console w)
    (fun w => Kept [.console] w.ledger) ok up (consoleAcquire env) (consoleRelease env) := by
  obtain ⟨ok, hcallbacks⟩ := consoleCallbacks_exact env
  refine clientAcquire_exact env .console rfl (by decide) (by decide) hcallbacks (fun l => ?_) (fun l => ?_) ?_
  · rw [upConsoleCallbacks, insertTail_References, upDebug_References (by decide), insertTail_References,
      upReporting_References (by decide) (by decide), create_References]
  · rw [upConsoleCallbacks, outstanding_insertTail (by decide), upDebug_outstanding,
      outstanding_insertTail (by decide), upReporting_outstanding (by decide), outstanding_create (by decide)]
  · simp only [consoleCallbacksUndo, List.mem_cons, List.not_mem_nil, or_false, forall_eq_or_imp, forall_eq]
    exact ⟨deregister_commutes _ _, debugRelease_commutes (by decide), deregister_commutes _ _,
      reportingRelease_commutes (by decide) (by decide), destroy_commutes _⟩

end XenBus.Interfaces
