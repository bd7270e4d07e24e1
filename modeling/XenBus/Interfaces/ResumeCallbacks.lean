import XenBus.Interfaces.AbiHeld
import XenBus.Interfaces.WorldAccounts

/-!
# The callback lists

Where the accounts are kept, the lists are `Registered`: each callback stands on its list exactly once while its
interface is referenced, and those of the store and the console come after those of the interfaces below.

The callbacks themselves keep the accounts. That of the event channels releases the ABI and acquires it again; the
two-level ABI then gives up its reference to the shared info, but not the last one, so that the list that
`SuspendLate` goes through does not change under it (`evtchnSuspendCallbackLate_keeps`).
-/

namespace XenBus.Interfaces

open Unwind Holdings Transition

variable {env : Env} {i k : Interface} {q : Queue} {U : Multiset Holding} {l l' : Ledger} {w w' : World}
  {r r' : Resumption} {s s' : Session} {ok : Bool} {n : ℤ}

/-- No interface is being set up or torn down. -/
abbrev noneBusy : Interface → Option ℤ := fun _ => none

theorem quiet_noneBusy (i : Interface) : Quiet noneBusy i := fun _ _ => rfl

/-! ## The lists -/

theorem holdings_nodup (i : Interface) : (holdings i).Nodup := by
  cases i <;> decide

/-- An interface registers only callbacks of its own. -/
theorem eq_of_entry_mem (h : .entry q i ∈ holdings k) : k = i := by
  cases k <;> simp [holdings] at h <;> grind

/-- **Each callback is registered exactly once** while the interface is referenced, and not otherwise. -/
theorem count_queue (h : worldBooks.Balanced noneBusy U w) (hU : Clean U) (q : Queue) (i : Interface) :
    (w.ledger.queue q).count i = if w.ledger.References i ≠ 0 ∧ .entry q i ∈ holdings i then 1 else 0 := by
  have hbooks := h.books (.entry q i)
  have hmeasure : worldBooks.measure w (.entry q i) = ((w.ledger.queue q).count i : ℤ) := rfl
  have hterm : ∀ k ∈ worldBooks.active noneBusy w, k ≠ i → (worldBooks.holdings k).count (.entry q i) = 0 :=
    fun k _ hne => Multiset.count_eq_zero_of_notMem fun hmem => hne (eq_of_entry_mem hmem)
  have hactive : i ∈ worldBooks.active noneBusy w ↔ w.ledger.References i ≠ 0 := by
    simp [Books.active, worldBooks]
  rw [hmeasure, Multiset.count_add, Multiset.count_eq_zero_of_notMem (hU.entry_not_mem q i), zero_add,
    Multiset.count_sum', Int.natCast_inj] at hbooks
  by_cases hi : w.ledger.References i = 0
  · rw [hbooks, if_neg fun h => h.1 hi]
    exact Finset.sum_eq_zero fun k hk => hterm k hk fun hk' => (hactive.1 (hk' ▸ hk)) hi
  · rw [hbooks, Finset.sum_eq_single_of_mem i (hactive.2 hi) hterm]
    have hcount : (holdings i).count (.entry q i) = if .entry q i ∈ holdings i then 1 else 0 :=
      Multiset.count_eq_of_nodup (holdings_nodup i)
    simp only [ne_eq, hi, not_false_eq_true, true_and]
    exact hcount

/-- What holds of the callback lists: each callback is registered exactly once while its interface is referenced,
and not otherwise. Before the late callback of the store or the console stands that of the event channels, and the
grant tables have their early one. -/
structure Registered (w : World) : Prop where
  nonneg : ∀ i, 0 ≤ w.ledger.References i
  once : ∀ q i, (w.ledger.queue q).count i =
    if 0 < w.ledger.References i ∧ .entry q i ∈ holdings i then 1 else 0
  ordered : ∀ i, i = .store ∨ i = .console → i ∈ w.ledger.queue .late →
    Follows .evtchn i (w.ledger.queue .late) ∧ .gnttab ∈ w.ledger.queue .early

theorem mem_active_of_mem_queue (h : worldBooks.Balanced noneBusy U w) (hU : Clean U)
    (hmem : i ∈ w.ledger.queue q) : i ∈ worldBooks.active noneBusy w := by
  have hone := List.one_le_count_iff.2 hmem
  rw [count_queue h hU] at hone
  have hne : w.ledger.References i ≠ 0 := by
    intro hzero
    simp [hzero] at hone
  simpa [Books.active, worldBooks] using hne

/-- An interface that one in use holds has a count. -/
theorem References_of_holds (h : worldBooks.Balanced noneBusy U w) (hk : k ∈ worldBooks.active noneBusy w)
    (hi : .reference i ∈ holdings k) : 0 < w.ledger.References i := by
  have hle := (h.add_le_measure hk (.reference i)).trans ((worldReferences_tracks i).le w)
  have hpos : 1 ≤ (worldBooks.holdings k).count (.reference i) := Multiset.one_le_count_iff_mem.2 hi
  have hcount : worldBooks.count w i = w.ledger.References i := rfl
  omega

theorem registered_of_accounted (hU : Clean U) (h : WorldAccounted noneBusy U w) : Registered w := by
  have hnonneg (i : Interface) : 0 ≤ w.ledger.References i :=
    (h.1.measure_nonneg (.reference i)).trans ((worldReferences_tracks i).le w)
  refine ⟨hnonneg, fun q i => ?_, ?_⟩
  · rw [count_queue h.1 hU]
    have hpos : w.ledger.References i ≠ 0 ↔ 0 < w.ledger.References i := by
      have := hnonneg i
      omega
    simp only [hpos]
  · intro i hi hmem
    have hgnttab : .reference .gnttab ∈ holdings i := by
      rcases hi with rfl | rfl <;> decide
    have hpos := References_of_holds h.1 (mem_active_of_mem_queue h.1 hU hmem) hgnttab
    refine ⟨?_, List.one_le_count_iff.1 ?_⟩
    · rcases hi with rfl | rfl
      · exact (h.2 rfl).1
      · exact (h.2 rfl).2
    · rw [count_queue h.1 hU, if_pos ⟨by omega, by decide⟩]

/-! ## What the callbacks keep -/

theorem asserted_some {σ : Type} {step : Step σ} {v v' : σ} :
    asserted step v = some v' ↔ step v = some (true, v') := by
  rw [asserted]
  rcases step v with _ | ⟨_ | _, u⟩ <;> simp

theorem asserted_keeps {σ τ : Type} {view : σ → τ} {step : Step σ} (h : StepKeeps view step) :
    UndoKeeps view (asserted step) := fun v v' hrun => h v true v' (asserted_some.1 hrun)

/-- What the callbacks leave as it is, but for that of the event channels. -/
def resumeView (w : World) :
    ((Interface → ℤ) × (Queue → List Interface)) × FifoContext × Option Abi × GnttabContext :=
  (registry w.ledger, w.fifo, w.evtchn.EvtchnAbi, w.gnttab)

theorem ledger_resumeView {undo : Undo Ledger} (h : UndoKeeps registry undo) :
    UndoKeeps resumeView (worldLedger.undo undo) :=
  (worldLedger.undo_keeps h).prodMk (worldLedger.undo_keeps_of_apart undo fun _ _ => rfl)

theorem evtchnClose_registry : UndoKeeps registry evtchnClose := by
  intro l l' hrun
  rw [evtchnClose, destroy] at hrun
  split_ifs at hrun
  obtain rfl := Option.some.inj hrun
  rfl

theorem consoleEnable_registry (env : Env) : StepKeeps registry (consoleEnable env) := by
  intro l ok l' hrun
  rw [consoleEnable] at hrun
  split_ifs at hrun <;>
  · obtain ⟨-, rfl⟩ := Prod.mk.inj (Option.some.inj hrun)
    rfl

theorem evtchnOpen_registry : StepKeeps registry evtchnOpen := by
  intro l ok l' hrun
  obtain ⟨-, rfl⟩ := Prod.mk.inj (Option.some.inj hrun)
  rfl

theorem getAddress_resumeView (reference : ℤ) :
    UndoKeeps resumeView (worldLower.undo (asserted (getAddress reference))) := by
  intro w w' hrun
  obtain ⟨v, hv, rfl⟩ := Option.map_eq_some_iff.1 hrun
  have hkeeps : UndoKeeps id (asserted (getAddress reference)) := asserted_keeps fun w => check_keeps id _ w
  have hsame : v = w.toLower := hkeeps _ _ hv
  rw [hsame]
  rfl

theorem suspendCallbackLate_keeps (env : Env) (hi : i ≠ .evtchn) :
    UndoKeeps (fun r : Resumption => (resumeView r.world, r.reacquired)) (suspendCallbackLate env i) := by
  have hclose : UndoKeeps resumeView (worldLedger.undo evtchnClose) := ledger_resumeView evtchnClose_registry
  cases i with
  | evtchn => exact absurd rfl hi
  | store =>
    have hcallback : UndoKeeps resumeView storeSuspendCallbackLate := by
      refine sequence_keeps ?_
      simp only [List.mem_cons, List.not_mem_nil, or_false, forall_eq_or_imp, forall_eq]
      exact ⟨getAddress_resumeView _, hclose, ledger_resumeView (asserted_keeps evtchnOpen_registry)⟩
    exact (resumedWorld.undo_keeps hcallback).prodMk (resumedWorld.undo_keeps_of_apart _ fun _ _ => rfl)
  | console =>
    intro r r' hrun
    rw [suspendCallbackLate, consoleSuspendCallbackLate] at hrun
    split_ifs at hrun
    obtain ⟨w, hw, hmap⟩ := Option.bind_eq_some_iff.1 hrun
    obtain ⟨⟨ok, w'⟩, henable, rfl⟩ := Option.map_eq_some_iff.1 hmap
    have hbefore : UndoKeeps resumeView
        (sequence [worldLower.undo (asserted (getAddress consoleReference)), worldLedger.undo evtchnClose]) :=
      sequence_keeps (List.forall_mem_cons.2 ⟨getAddress_resumeView _, List.forall_mem_singleton.2 hclose⟩)
    obtain ⟨⟨ok', l⟩, hl, heq⟩ := Option.map_eq_some_iff.1 henable
    obtain ⟨rfl, rfl⟩ := Prod.mk.inj heq
    have hafter : resumeView (worldLedger.set l w) = resumeView w :=
      Prod.ext (consoleEnable_registry env _ _ _ hl) rfl
    exact Prod.ext (hafter.trans (hbefore _ _ hw)) rfl
  | debug | suspend | rangeSet | cache | sharedInfo | twoLevel | gnttab =>
    intro r r' hrun
    obtain rfl := Option.some.inj hrun
    rfl

/-! ## The callback of the event channels -/

/-- With the shared info held beside it, the release of the two-level ABI leaves the lists as they are. -/
theorem evtchnTwoLevelRelease_queue {abi : Option Abi} {busy : Interface → Option ℤ}
    (hl : Accounted abi busy (U + {.reference .twoLevel}) l) (hbusy : busy .twoLevel = none)
    (hU : .reference .sharedInfo ∈ U) (hrun : evtchnTwoLevelRelease l = some l') : l'.queue = l.queue := by
  have hactive := mem_active hl.1 hbusy (Multiset.mem_add.2 (.inr (Multiset.mem_singleton_self _)))
  have hle : ((U + {.reference .twoLevel}).count (.reference .sharedInfo) : ℤ) +
      (holdings .twoLevel).count (.reference .sharedInfo) ≤ l.References .sharedInfo :=
    (hl.1.add_le_measure hactive (.reference .sharedInfo)).trans ((references_tracks abi .sharedInfo).le l)
  have hone : 1 ≤ (U + {.reference .twoLevel}).count (.reference .sharedInfo) :=
    Multiset.one_le_count_iff_mem.2 (Multiset.mem_add.2 (.inl hU))
  have hone' : 1 ≤ (holdings .twoLevel).count (.reference .sharedInfo) := by decide
  have hcount : (l.refer .twoLevel (-1)).References .sharedInfo = l.References .sharedInfo :=
    refer_References_of_ne (by decide)
  rcases (references .twoLevel).release_some.1 hrun with ⟨-, rfl⟩ | ⟨-, hlast⟩
  · rfl
  · rw [sequence_single] at hlast
    rcases (references .sharedInfo).release_some.1 hlast with ⟨-, rfl⟩ | ⟨hfew, -⟩
    · rfl
    · have hfew' : (l.refer .twoLevel (-1)).References .sharedInfo ≤ 1 := hfew
      omega

theorem evtchnTwoLevelAcquire_queue {abi : Option Abi} {busy : Interface → Option ℤ} (hl : Accounted abi busy U l)
    (hU : .reference .sharedInfo ∈ U) (hrun : evtchnTwoLevelAcquire env l = some (true, l')) :
    l'.queue = l.queue := by
  rcases (references .twoLevel).acquire_true.1 hrun with ⟨-, rfl⟩ | ⟨-, hrun'⟩
  · rfl
  · have hcount : (l.refer .twoLevel 1).References .sharedInfo ≠ 0 := by
      rw [refer_References_of_ne (by decide)]
      exact References_ne_zero hl.1 hU
    have heq := (evtchnTwoLevelSteps_of_ne env hcount).symm.trans hrun'
    obtain ⟨-, rfl⟩ := Prod.mk.inj (Option.some.inj heq)
    rfl

theorem evtchnAbiRelease_queue {busy : Interface → Option ℤ} (hw : WorldAccounted busy (U + {.abi}) w)
    (hbusy : busy .twoLevel = none) (hU : .reference .sharedInfo ∈ U) (hrun : evtchnAbiRelease w = some w') :
    w'.ledger.queue = w.ledger.queue ∧ w'.gnttab = w.gnttab := by
  rcases evtchnAbiRelease_some hrun with ⟨habi, f, -, rfl⟩ | ⟨habi, l, hl, rfl⟩
  · exact ⟨rfl, rfl⟩
  · have hledger : Accounted (some .twoLevel) busy (U + {.abi}) w.ledger := habi ▸ (worldAccounted_iff _ w).2 hw
    exact ⟨evtchnTwoLevelRelease_queue (accounted_twoLevel.2 hledger) hbusy hU hl, rfl⟩

theorem evtchnAbiAcquire_queue {busy : Interface → Option ℤ} (hw : WorldAccounted busy U w)
    (hnone : w.evtchn.EvtchnAbi = none) (hU : .reference .sharedInfo ∈ U)
    (hrun : evtchnAbiAcquire env w = some (true, w')) :
    w'.ledger.queue = w.ledger.queue ∧ w'.gnttab = w.gnttab := by
  have hledger : Accounted none busy U w.ledger := hnone ▸ (worldAccounted_iff U w).2 hw
  rcases evtchnAbiAcquire_some hrun with ⟨-, f, -, -, rfl⟩ | ⟨f, l, -, hl, rfl⟩
  · exact ⟨rfl, rfl⟩
  · exact ⟨evtchnTwoLevelAcquire_queue hledger hU hl, rfl⟩

/-- What the late callback of the event channels comes to. -/
theorem evtchnSuspendCallbackLate_some (hrun : evtchnSuspendCallbackLate env w = some w') :
    ∃ v, evtchnAbiRelease w = some v ∧ evtchnAbiAcquire env v = some (true, w') := by
  rw [evtchnSuspendCallbackLate, sequence_cons] at hrun
  obtain ⟨v, hrelease, hrun⟩ := Option.bind_eq_some_iff.1 hrun
  obtain ⟨u, hacquire, hrun⟩ := Option.bind_eq_some_iff.1 hrun
  rw [sequence_single] at hrun
  have hkeeps : UndoKeeps id (asserted (evtchnInterruptEnable env)) :=
    asserted_keeps (evtchnInterruptEnable_keeps env)
  obtain rfl : w' = u := hkeeps _ _ hrun
  exact ⟨v, hrelease, asserted_some.1 hacquire⟩

/-- **The callback of the event channels** keeps the accounts, the lists and the frames. -/
theorem evtchnSuspendCallbackLate_keeps (hU : Clean U) (hw : WorldAccounted noneBusy U w)
    (hne : w.ledger.References .evtchn ≠ 0) (hrun : evtchnSuspendCallbackLate env w = some w') :
    WorldAccounted noneBusy U w' ∧ w'.ledger.queue = w.ledger.queue ∧ w'.gnttab = w.gnttab := by
  obtain ⟨v, hrelease, hacquire⟩ := evtchnSuspendCallbackLate_some hrun
  have hholdings : U + worldBooks.holdings .evtchn = U + evtchnBelow + {.abi} := by
    rw [add_assoc]
    exact congrArg (U + ·) (by decide)
  have hshared : .reference .sharedInfo ∈ U + evtchnBelow := Multiset.mem_add.2 (.inr (by decide))
  have hnot : .abi ∉ U + evtchnBelow := by
    rw [Multiset.mem_add, not_or]
    exact ⟨hU.abi_not_mem, by decide⟩
  have hquiet : Quiet (engage noneBusy .evtchn (w.ledger.References .evtchn)) .twoLevel :=
    (quiet_noneBusy .evtchn).engage _ (by decide)
  have hbusy : engage noneBusy .evtchn (w.ledger.References .evtchn) .evtchn =
      some (w.ledger.References .evtchn) := Function.update_self _ _ _
  -- the event channels are busy, and what they hold is counted with what the clients hold
  have hentered : WorldAccounted (engage noneBusy .evtchn (w.ledger.References .evtchn))
      (U + evtchnBelow + {.abi}) w := by
    rw [← hholdings]
    refine ⟨hw.1.enter rfl rfl hne, fun hidle => ?_⟩
    rw [hbusy] at hidle
    cases hidle
  have hreleased := evtchnAbiRelease_spends hquiet _ w v trivial hentered hrelease
  have hnone : v.evtchn.EvtchnAbi = none := by
    rcases evtchnAbiRelease_some hrelease with ⟨-, f, -, rfl⟩ | ⟨-, l, -, rfl⟩ <;> rfl
  have hacquired := (evtchnAbiAcquire_earns env hbusy hquiet).gains _ v w' ⟨hshared, hnot⟩ hreleased
    hacquire
  obtain ⟨hqueue, hgnttab⟩ := evtchnAbiRelease_queue hentered hquiet.self hshared hrelease
  obtain ⟨hqueue', hgnttab'⟩ := evtchnAbiAcquire_queue hreleased hnone hshared hacquire
  have hsame : w'.ledger.queue = w.ledger.queue := hqueue'.trans hqueue
  rw [← hholdings] at hacquired
  refine ⟨⟨hacquired.1.leave rfl hne, fun _ => ?_⟩, hsame, hgnttab'.trans hgnttab⟩
  rw [hsame]
  exact hw.2 rfl

theorem evtchnSuspendCallbackLate_held (h : AbiKept w) (hslips : env.UseEvtchnFifoAbi = true → ¬ fifoSlips env)
    (hrun : evtchnSuspendCallbackLate env w = some w') : AbiKept w' := by
  obtain ⟨v, hrelease, hacquire⟩ := evtchnSuspendCallbackLate_some hrun
  obtain ⟨hv, hnone⟩ := evtchnAbiRelease_held h hrelease
  exact evtchnAbiAcquire_held hv hnone hslips hacquire

/-! ## The late callbacks -/

/-- What the late callbacks leave as it is. -/
structure Resuming (U : Multiset Holding) (queue : Queue → List Interface) (frames : GnttabContext)
    (r : Resumption) : Prop where
  accounted : WorldAccounted noneBusy U r.world
  queue_eq : r.world.ledger.queue = queue
  frames_eq : r.world.gnttab = frames

variable {queue : Queue → List Interface} {frames : GnttabContext}

theorem suspendCallbackLate_resuming (hU : Clean U) (hi : i ∈ queue .late) (h : Resuming U queue frames r)
    (hrun : suspendCallbackLate env i r = some r') : Resuming U queue frames r' := by
  by_cases hevtchn : i = .evtchn
  · subst hevtchn
    obtain ⟨w, hw, rfl⟩ := Option.map_eq_some_iff.1 hrun
    have hmem := mem_active_of_mem_queue h.accounted.1 hU (h.queue_eq ▸ hi)
    have hne : r.world.ledger.References .evtchn ≠ 0 := (Finset.mem_filter.1 hmem).2.2
    obtain ⟨haccounted, hqueue, hframes⟩ := evtchnSuspendCallbackLate_keeps hU h.accounted hne hw
    exact ⟨haccounted, hqueue.trans h.queue_eq, hframes.trans h.frames_eq⟩
  · have hview : resumeView r'.world = resumeView r.world :=
      congrArg Prod.fst (suspendCallbackLate_keeps env hevtchn r r' hrun)
    have haccount : account r'.world = account r.world := congrArg (fun x => (x.1, x.2.2.1)) hview
    have hqueue : r'.world.ledger.queue = r.world.ledger.queue := congrArg (fun x => x.1.2) hview
    have hframes : r'.world.gnttab = r.world.gnttab := congrArg (fun x => x.2.2.2) hview
    exact ⟨worldAccounted_of_account U _ _ haccount h.accounted, hqueue.trans h.queue_eq,
      hframes.trans h.frames_eq⟩

theorem suspendCallbackLate_held (h : AbiKept r.world)
    (hslips : i = .evtchn → env.UseEvtchnFifoAbi = true → ¬ fifoSlips env)
    (hrun : suspendCallbackLate env i r = some r') : AbiKept r'.world := by
  by_cases hevtchn : i = .evtchn
  · subst hevtchn
    obtain ⟨w, hw, rfl⟩ := Option.map_eq_some_iff.1 hrun
    exact evtchnSuspendCallbackLate_held h (hslips rfl) hw
  · have hview : resumeView r'.world = resumeView r.world :=
      congrArg Prod.fst (suspendCallbackLate_keeps env hevtchn r r' hrun)
    exact abiKept_of_keeps (congrArg (fun x => (x.2.1, x.2.2.1)) hview) h

/-- Once the callback of the event channels has been called, the ABI has been acquired again. -/
theorem suspendCallbackLate_reacquired (h : r.reacquired = true ∨ i = .evtchn)
    (hrun : suspendCallbackLate env i r = some r') : r'.reacquired = true := by
  by_cases hevtchn : i = .evtchn
  · subst hevtchn
    obtain ⟨w, -, rfl⟩ := Option.map_eq_some_iff.1 hrun
    rfl
  · have hsame : r'.reacquired = r.reacquired :=
      congrArg Prod.snd (suspendCallbackLate_keeps env hevtchn r r' hrun)
    exact hsame.trans (h.resolve_right hevtchn)

theorem sequence_reacquired {xs : List Interface} (hmem : .evtchn ∈ xs)
    (hrun : sequence (xs.map (suspendCallbackLate env)) r = some r') : r'.reacquired = true := by
  obtain ⟨ys, zs, rfl⟩ := List.append_of_mem hmem
  rw [List.map_append, sequence_append, List.map_cons] at hrun
  obtain ⟨u, -, hrun⟩ := Option.bind_eq_some_iff.1 hrun
  obtain ⟨v, hcall, hrest⟩ := Option.bind_eq_some_iff.1 hrun
  have hv : v.reacquired = true := suspendCallbackLate_reacquired (.inr rfl) hcall
  refine sequence_invariant (P := fun r => r.reacquired = true) (fun undo hundo x x' hx hrun => ?_) hv hrest
  obtain ⟨i, -, rfl⟩ := List.mem_map.1 hundo
  exact suspendCallbackLate_reacquired (.inl hx) hrun

/-! ## The early callbacks -/

theorem gnttabMapFrames_some {g g' : GnttabContext} (m : ℕ) (hrun : gnttabMapFrames env m g = some g') :
    g' = { g with mappings := g.mappings + m } := by
  induction m generalizing g with
  | zero =>
    obtain rfl := Option.some.inj hrun
    rfl
  | succ m ih =>
    obtain ⟨g₁, hstep, hrest⟩ := Option.bind_eq_some_iff.1 hrun
    have hmap := asserted_some.1 hstep
    rw [frameMap] at hmap
    split_ifs at hmap
    · cases hmap
    · obtain ⟨-, rfl⟩ := Prod.mk.inj (Option.some.inj hmap)
      rw [ih hrest, Nat.add_right_comm, Nat.add_assoc]

theorem sharedInfoMap_registry : UndoKeeps registry sharedInfoMap := by
  refine asserted_keeps fun l ok l' hrun => ?_
  obtain ⟨-, rfl⟩ := Prod.mk.inj (Option.some.inj hrun)
  rfl

/-- The early callbacks leave the counts, the lists and the ABI as they are. -/
theorem suspendCallbackEarly_keeps (env : Env) (i : Interface) :
    UndoKeeps (fun r : Resumption => (account r.world, abiView r.world)) (suspendCallbackEarly env i) := by
  cases i with
  | sharedInfo =>
    have hmap : UndoKeeps (fun w => (account w, abiView w)) (worldLedger.undo sharedInfoMap) :=
      ((worldLedger.undo_keeps sharedInfoMap_registry).prodMk
        (worldLedger.undo_keeps_of_apart _ fun _ _ => rfl)).prodMk
        (worldLedger.undo_keeps_of_apart _ fun _ _ => rfl)
    exact resumedWorld.undo_keeps hmap
  | gnttab =>
    have hmap : UndoKeeps (fun w : World => (account w, abiView w))
        (worldLower.undo (lowerGnttab.undo (gnttabMap env))) := by
      intro w w' hrun
      obtain ⟨v, hv, rfl⟩ := Option.map_eq_some_iff.1 hrun
      obtain ⟨g, -, rfl⟩ := Option.map_eq_some_iff.1 hv
      rfl
    exact resumedWorld.undo_keeps hmap
  | debug | suspend | rangeSet | cache | twoLevel | evtchn | store | console =>
    intro r r' hrun
    obtain rfl := Option.some.inj hrun
    rfl

/-- Each early callback of the grant tables maps their frames. -/
theorem suspendCallbackEarly_frames (hrun : suspendCallbackEarly env i r = some r') :
    r'.world.gnttab = { r.world.gnttab with
      mappings := r.world.gnttab.mappings +
        if i = .gnttab then (r.world.gnttab.FrameIndex + 1).toNat else 0 } := by
  cases i with
  | sharedInfo =>
    have hmap : UndoKeeps (fun w : World => w.gnttab) (worldLedger.undo sharedInfoMap) :=
      worldLedger.undo_keeps_of_apart _ fun _ _ => rfl
    exact resumedWorld.undo_keeps hmap r r' hrun
  | gnttab =>
    rw [suspendCallbackEarly] at hrun
    obtain ⟨w, hw, rfl⟩ := Option.map_eq_some_iff.1 hrun
    obtain ⟨v, hv, rfl⟩ := Option.map_eq_some_iff.1 hw
    obtain ⟨g, hg, rfl⟩ := Option.map_eq_some_iff.1 hv
    rw [if_pos rfl]
    exact gnttabMapFrames_some _ hg
  | debug | suspend | rangeSet | cache | twoLevel | evtchn | store | console =>
    obtain rfl := Option.some.inj hrun
    rfl

theorem sequence_frames (xs : List Interface) (hrun : sequence (xs.map (suspendCallbackEarly env)) r = some r') :
    r'.world.gnttab = { r.world.gnttab with
      mappings := r.world.gnttab.mappings + xs.count .gnttab * (r.world.gnttab.FrameIndex + 1).toNat } := by
  induction xs generalizing r with
  | nil =>
    obtain rfl := Option.some.inj hrun
    simp
  | cons i xs ih =>
    obtain ⟨v, hcall, hrest⟩ := Option.bind_eq_some_iff.1 hrun
    have hv := suspendCallbackEarly_frames hcall
    rw [ih hrest, hv]
    by_cases hi : i = .gnttab
    · subst hi
      simp only [if_true, List.count_cons_self, Nat.add_mul, Nat.one_mul]
      rw [Nat.add_assoc, Nat.add_comm (r.world.gnttab.FrameIndex + 1).toNat]
    · simp [hi]

end XenBus.Interfaces
