import XenBus.Interfaces.Accounts
import XenBus.Interfaces.Slips

/-!
# What the event channels, the store and the console hold

The event channels hold their ABI beside the interfaces below them. While they are set up or torn down nothing in
use refers to them, so that no late callback of the store or the console is on the list
(`not_mem_late`): wherever one stands, that of the event channels stands before it.

`evtchnAcquire_earns`, `storeAcquire_earns` and `consoleAcquire_earns` say that each call earns one reference, or
holds what was held before if it fails, and `evtchnRelease_spends`, `storeRelease_spends` and
`consoleRelease_spends` that the release spends it.
-/

namespace XenBus.Interfaces

open Unwind Holdings

variable {env : Env} {i j k : Interface} {abi : Option Abi} {busy : Interface → Option ℤ}
  {P : Multiset Holding → Prop} {t U : Multiset Holding} {l l' : Ledger} {w w' : World} {n : ℤ}

/-! ## The event channels -/

/-- The books of all the contexts. -/
def worldBooks : Books World Interface Holding where
  holdings := holdings
  measure := fun w => measure w.evtchn.EvtchnAbi w.ledger
  count := fun w i => w.ledger.References i

/-- The accounts of all the contexts. -/
abbrev WorldAccounted (busy : Interface → Option ℤ) (U : Multiset Holding) (w : World) : Prop :=
  worldBooks.Kept (fun busy w => inOrder busy w.ledger) busy U w

theorem worldAccounted_iff (U : Multiset Holding) (w : World) :
    Accounted w.evtchn.EvtchnAbi busy U w.ledger ↔ WorldAccounted busy U w :=
  and_congr_left fun _ => ⟨fun h => ⟨h.fixed, h.books⟩, fun h => ⟨h.fixed, h.books⟩⟩

theorem world_earns {step : Step Ledger} {t : Multiset Holding} (h : ∀ abi, Earns (Accounted abi busy) P t step) :
    Earns (WorldAccounted busy) P t (worldLedger.step step) :=
  (Earns.part worldLedger (J := fun abi => Accounted abi busy) (fun w => w.evtchn.EvtchnAbi) (fun _ _ => rfl)
    h).congr worldAccounted_iff

theorem world_spends {undo : Undo Ledger} {t : Multiset Holding}
    (h : ∀ abi, Spends (Accounted abi busy) P t undo) : Spends (WorldAccounted busy) P t (worldLedger.undo undo) :=
  (Spends.part worldLedger (J := fun abi => Accounted abi busy) (fun w => w.evtchn.EvtchnAbi) (fun _ _ => rfl)
    h).congr worldAccounted_iff

theorem worldLower_earns {step : Step Lower} {t : Multiset Holding}
    (h : ∀ abi, Earns (LowerAccounted abi busy) P t step) :
    Earns (WorldAccounted busy) P t (worldLower.step step) :=
  (Earns.part worldLower (J := fun abi => LowerAccounted abi busy) (fun w => w.evtchn.EvtchnAbi) (fun _ _ => rfl)
    h).congr fun U w => (lowerAccounted_iff U w.toLower).symm.trans (worldAccounted_iff U w)

theorem worldLower_spends {undo : Undo Lower} {t : Multiset Holding}
    (h : ∀ abi, Spends (LowerAccounted abi busy) P t undo) :
    Spends (WorldAccounted busy) P t (worldLower.undo undo) :=
  (Spends.part worldLower (J := fun abi => LowerAccounted abi busy) (fun w => w.evtchn.EvtchnAbi) (fun _ _ => rfl)
    h).congr fun U w => (lowerAccounted_iff U w.toLower).symm.trans (worldAccounted_iff U w)

/-- What the accounts of all the contexts are about. -/
def account (w : World) : ((Interface → ℤ) × (Queue → List Interface)) × Option Abi :=
  (registry w.ledger, w.evtchn.EvtchnAbi)

theorem worldAccounted_of_account (U : Multiset Holding) (v w : World) (hsame : account v = account w)
    (h : WorldAccounted busy U w) : WorldAccounted busy U v := by
  obtain ⟨hregistry, habi⟩ := Prod.mk.inj hsame
  rw [← worldAccounted_iff] at h ⊢
  rw [habi]
  exact accounted_of_registry U v.ledger w.ledger hregistry h

theorem worldReferences_tracks (i : Interface) : worldBooks.Tracks (worldReferences i) i (.reference i) where
  count := fun _ => rfl
  count_add := fun n w => (references_tracks w.evtchn.EvtchnAbi i).count_add n w.ledger
  measure_add := fun n w => (references_tracks w.evtchn.EvtchnAbi i).measure_add n w.ledger
  le := fun w => (references_tracks w.evtchn.EvtchnAbi i).le w.ledger

theorem world_guards_of_ne (hk : k ≠ .evtchn) : worldBooks.Guards (fun busy w => inOrder busy w.ledger) P busy
    (worldReferences k) k (.reference k) where
  add := fun _ _ _ h => h
  enter := fun n w h => (guards_of_ne none P hk).enter n w.ledger h
  renumber := fun m n w h => (guards_of_ne none P hk).renumber m n w.ledger h
  up := fun _ _ _ _ h hbusy => h ((Function.update_of_ne hk.symm _ _).trans hbusy)
  down := fun _ _ _ _ h hbusy => h ((Function.update_of_ne hk.symm _ _).trans hbusy)

/-- Only references are held. -/
def Clean (U : Multiset Holding) : Prop := ∀ h ∈ U, ∃ i, h = .reference i

/-- While nothing in use refers to the event channels, neither the store nor the console has a late callback. -/
theorem not_mem_late {w : World} (h : worldBooks.Balanced (engage busy .evtchn n) U w)
    (hn : n ≤ U.count (.reference .evtchn)) (hU : .entry .late k ∉ U)
    (hk : ∀ k', .entry .late k ∈ holdings k' → .reference .evtchn ∈ holdings k') : k ∉ w.ledger.queue .late := by
  intro hmem
  have hentry : (1 : ℤ) ≤ (w.ledger.queue .late).count k := by exact_mod_cast List.one_le_count_iff.2 hmem
  have hbooks := h.books (.entry .late k)
  have hmeasure : worldBooks.measure w (.entry .late k) = ((w.ledger.queue .late).count k : ℤ) := rfl
  rw [hmeasure, Multiset.count_add, Multiset.count_eq_zero_of_notMem hU, zero_add] at hbooks
  have hsum : .entry .late k ∈ ∑ k' ∈ worldBooks.active (engage busy .evtchn n) w, worldBooks.holdings k' :=
    Multiset.one_le_count_iff_mem.1 (by omega)
  obtain ⟨k', hactive, hk'⟩ := Multiset.mem_sum.1 hsum
  have hle := h.add_le_measure hactive (.reference .evtchn)
  have hpos : 1 ≤ (worldBooks.holdings k').count (.reference .evtchn) :=
    Multiset.one_le_count_iff_mem.2 (hk k' hk')
  have hcount := ((worldReferences_tracks .evtchn).le w).trans_eq h.count_entered
  omega

theorem Clean.add_reference (h : Clean U) (i : Interface) : Clean (U + {.reference i}) := by
  intro x hx
  rcases Multiset.mem_add.1 hx with hU | hi
  · exact h x hU
  · exact ⟨i, Multiset.mem_singleton.1 hi⟩

theorem Clean.entry_not_mem (h : Clean U) (q : Queue) (i : Interface) : .entry q i ∉ U := by
  intro hmem
  obtain ⟨_, hx⟩ := h _ hmem
  cases hx

theorem Clean.abi_not_mem (h : Clean U) : .abi ∉ U := by
  intro hmem
  obtain ⟨_, hx⟩ := h _ hmem
  cases hx

/-- The order of the late callbacks is there again when the event channels have been set up, or torn down: nothing
in use refers to them yet. -/
theorem evtchn_guards : worldBooks.Guards (fun busy w => inOrder busy w.ledger) Clean busy
    (worldReferences .evtchn) .evtchn (.reference .evtchn) where
  add := fun _ _ _ h => h
  enter := fun n w _ hbusy => by simp at hbusy
  renumber := fun m n w _ hbusy => by simp at hbusy
  up := by
    intro U w hU hw _ _
    have hstore : .entry .late .store ∉ U + {.reference .evtchn} + worldBooks.holdings .evtchn := by
      simp only [Multiset.mem_add, not_or]
      exact ⟨⟨hU.entry_not_mem _ _, by decide⟩, by decide⟩
    have hconsole : .entry .late .console ∉ U + {.reference .evtchn} + worldBooks.holdings .evtchn := by
      simp only [Multiset.mem_add, not_or]
      exact ⟨⟨hU.entry_not_mem _ _, by decide⟩, by decide⟩
    have hn : (1 : ℤ) ≤ (U + {.reference .evtchn} + worldBooks.holdings .evtchn).count (.reference .evtchn) := by
      exact_mod_cast Multiset.one_le_count_iff_mem.2 (by simp)
    exact ⟨follows_of_not_mem (not_mem_late hw hn hstore (by decide)),
      follows_of_not_mem (not_mem_late hw hn hconsole (by decide))⟩
  down := by
    intro U w hU hw _ _
    have hn : (0 : ℤ) ≤ U.count (.reference .evtchn) := Int.natCast_nonneg _
    exact ⟨follows_of_not_mem (not_mem_late hw hn (hU.entry_not_mem _ _) (by decide)),
      follows_of_not_mem (not_mem_late hw hn (hU.entry_not_mem _ _) (by decide))⟩

/-! ## The ABI -/

/-- The reference to the two-level ABI is that of the event channels, while they use it. -/
theorem accounted_twoLevel : Accounted none busy (U + {.reference .twoLevel}) l ↔
    Accounted (some .twoLevel) busy (U + {.abi}) l := by
  refine and_congr_left fun _ => ⟨fun h => ⟨h.fixed, fun j => ?_⟩, fun h => ⟨h.fixed, fun j => ?_⟩⟩
  all_goals
    have hbooks := h.books j
    have hactive (T : Multiset Holding) (a : Option Abi) :
        (T + ∑ k ∈ (books a).active busy l, (books a).holdings k).count j =
          T.count j + (∑ k ∈ (books none).active busy l, (books none).holdings k).count j :=
      Multiset.count_add j _ _
    rw [hactive, Multiset.count_add, Multiset.count_singleton] at hbooks ⊢
    rcases j with i | ⟨q, i⟩ | _
    · by_cases hi : i = .twoLevel <;> simp [books, measure, hi] at hbooks ⊢ <;> omega
    · simp [books, measure] at hbooks ⊢
      omega
    · simp [books, measure] at hbooks ⊢
      omega

/-- With the shared info referenced, the two-level ABI can be acquired. -/
theorem evtchnTwoLevelAcquire_ne_false (hl : Accounted abi busy U l) (hmem : .reference .sharedInfo ∈ U) :
    evtchnTwoLevelAcquire env l ≠ some (false, l') := by
  intro hrun
  obtain ⟨-, v, hrun', -⟩ := (references .twoLevel).acquire_false.1 hrun
  have hcount : (l.refer .twoLevel 1).References .sharedInfo ≠ 0 := by
    rw [refer_References_of_ne (by decide)]
    exact References_ne_zero hl.1 hmem
  have hcontra := (evtchnTwoLevelSteps_of_ne env hcount).symm.trans hrun'
  cases hcontra

/-- Without event channels in use, there is no ABI. -/
theorem EvtchnAbi_eq_none (h : worldBooks.Balanced busy U w) (hU : .abi ∉ U)
    (hevtchn : .evtchn ∉ worldBooks.active busy w) : w.evtchn.EvtchnAbi = none := by
  have habi := h.books .abi
  have hsum : (U + ∑ k ∈ worldBooks.active busy w, worldBooks.holdings k).count .abi = 0 := by
    refine Multiset.count_eq_zero_of_notMem fun hmem => ?_
    rcases Multiset.mem_add.1 hmem with hmem | hmem
    · exact hU hmem
    · obtain ⟨k, hk, habi⟩ := Multiset.mem_sum.1 hmem
      have habi' : .abi ∈ holdings k := habi
      have hk' : k = .evtchn := by
        cases k <;> simp [holdings] at habi' ⊢
      exact hevtchn (hk' ▸ hk)
  rw [hsum] at habi
  by_contra hne
  simp [worldBooks, measure, hne] at habi

/-- With the event channels in use, there is one. -/
theorem EvtchnAbi_ne_none (h : worldBooks.Balanced busy U w) (hevtchn : .evtchn ∈ worldBooks.active busy w) :
    w.evtchn.EvtchnAbi ≠ none := by
  intro habi
  have hle := h.add_le_measure hevtchn .abi
  have hone : 1 ≤ (worldBooks.holdings .evtchn).count .abi := Multiset.one_le_count_iff_mem.2 (by decide)
  have hzero : worldBooks.measure w .abi = 0 := by simp [worldBooks, measure, habi]
  omega

/-- **The event channels earn their ABI**: if the FIFO ABI fails, the two-level ABI does not. -/
theorem evtchnAbiAcquire_earns (env : Env) (hbusy : busy .evtchn = some n) (h : Quiet busy .twoLevel) :
    Earns (WorldAccounted busy) (fun U => .reference .sharedInfo ∈ U ∧ .abi ∉ U) {.abi}
      (evtchnAbiAcquire env) := by
  have hnone : ∀ U w, .abi ∉ U → WorldAccounted busy U w → w.evtchn.EvtchnAbi = none := by
    refine fun U w hU hw => EvtchnAbi_eq_none hw.1 hU fun hmem => ?_
    have hidle : busy .evtchn = none := (Finset.mem_filter.1 hmem).2.1
    rw [hbusy] at hidle
    cases hidle
  have hall : ∀ U w ok w', .reference .sharedInfo ∈ U ∧ .abi ∉ U → WorldAccounted busy U w →
      evtchnAbiAcquire env w = some (ok, w') → ok = true ∧ WorldAccounted busy (U + {.abi}) w' := by
    rintro U w ok w' ⟨hshared, hU⟩ hw hrun
    have hnoAbi := hnone U w hU hw
    have hledger : Accounted none busy U w.ledger := hnoAbi ▸ (worldAccounted_iff U w).2 hw
    rcases evtchnAbiAcquire_some hrun with ⟨-, f, -, rfl, rfl⟩ | ⟨f, l, -, hl, rfl⟩
    · refine ⟨rfl, hw.1.change (fun _ => rfl) (fun j => ?_) (count_add_singleton U .abi), hw.2⟩
      rcases j with i | ⟨q, i⟩ | _ <;> simp [worldBooks, measure, worldFifo, setAbi, hnoAbi]
    · cases ok with
      | false => exact absurd hl (evtchnTwoLevelAcquire_ne_false hledger hshared)
      | true =>
        have hgains := (evtchnTwoLevelAcquire_earns env h).gains U w.ledger l hshared hledger hl
        exact ⟨rfl, (worldAccounted_iff _ _).1 (accounted_twoLevel.1 hgains)⟩
  exact ⟨fun U w w' hU hw hrun => (hall U w true w' hU hw hrun).2,
    fun U w w' hU hw hrun => absurd (hall U w false w' hU hw hrun).1 (by decide)⟩

theorem evtchnAbiRelease_spends (h : Quiet busy .twoLevel) :
    Spends (WorldAccounted busy) Always {.abi} evtchnAbiRelease := by
  intro U w w' _ hw hrun
  rcases evtchnAbiRelease_some hrun with ⟨habi, f, -, rfl⟩ | ⟨habi, l, hl, rfl⟩
  · refine ⟨hw.1.change (fun _ => rfl) (fun j => ?_) (count_eq_sub_singleton U .abi), hw.2⟩
    rcases j with i | ⟨q, i⟩ | _ <;> simp [worldBooks, measure, worldFifo, setAbi, habi]
  · have hledger : Accounted (some .twoLevel) busy (U + {.abi}) w.ledger := habi ▸ (worldAccounted_iff _ w).2 hw
    refine (worldAccounted_iff U _).1 ?_
    exact evtchnTwoLevelRelease_spends h U w.ledger l trivial (accounted_twoLevel.2 hledger) hl

/-! ## The event channels -/

/-- The interrupts are not in the accounts. -/
theorem account_earns {step : Step World} (h : StepKeeps account step) : Earns (WorldAccounted busy) P 0 step :=
  Earns.of_keeps h worldAccounted_of_account

theorem account_spends {undo : Undo World} (h : UndoKeeps account undo) : Spends (WorldAccounted busy) P 0 undo :=
  Spends.of_keeps h worldAccounted_of_account

theorem freeInterrupts_spends (env : Env) : Spends (WorldAccounted busy) P 0 (freeInterrupts env) :=
  account_spends (freeInterrupts_keeps env fun _ _ => rfl)

theorem evtchnInterrupts_earn (env : Env) :
    Earns (WorldAccounted busy) Always 0 (attempt (evtchnInterrupts env)) := by
  have hclaim : Earns (WorldAccounted busy) Always 0
      (worldLedger.step (claim (env.fails (.allocate .evtchn)) (.array .evtchn))) :=
    world_earns fun abi => claim_earns _ _
  have hgive : Spends (WorldAccounted busy) Always 0 (worldLedger.undo (giveBack (.array .evtchn))) :=
    world_spends fun abi => giveBack_spends _
  have hall : Earns (WorldAccounted busy) Always 0 (allocateInterrupts env) :=
    account_earns (allocateInterrupts_keeps env fun _ _ => rfl)
  have hline : Earns (WorldAccounted busy) Always 0 (allocateInterrupt env) :=
    account_earns (allocateInterrupt_keeps env fun _ _ => rfl)
  have henable : Earns (WorldAccounted busy) Always 0 (evtchnInterruptEnable env) :=
    account_earns (evtchnInterruptEnable_keeps env)
  exact hclaim.next hgive.single <| hall.next (freeInterrupts_spends env).single <| hline.next Spends.nil <|
    henable.last []

/-- What the steps of `EvtchnAcquire` up to the ABI come to hold. -/
def evtchnBelow : Multiset Holding :=
  {.reference .suspend, .entry .early .evtchn, .entry .late .evtchn, .reference .debug, .entry .debug .evtchn,
    .reference .sharedInfo}

theorem evtchnCallbacks_earn (env : Env) (h : Quiet busy .evtchn) :
    Earns (WorldAccounted (engage busy .evtchn 1)) Always evtchnBelow
      (worldLedger.step (attempt (evtchnCallbacks env))) := by
  have hdebug : Quiet (engage busy .evtchn 1) .debug := h.engage 1 (by decide)
  have hsuspend : Quiet (engage busy .evtchn 1) .suspend := h.engage 1 (by decide)
  have hshared : Quiet (engage busy .evtchn 1) .sharedInfo := h.engage 1 (by decide)
  refine world_earns fun abi => ?_
  exact (suspendAcquire_earns env hsuspend).next (suspendRelease_spends hsuspend).single <|
    (register_earns env .early .evtchn (by simp)).next (deregister_spends .early .evtchn (by simp)).single <|
    (register_earns env .late .evtchn (by simp)).next (deregister_spends .late .evtchn (by simp)).single <|
    (debugAcquire_earns env hdebug).next (debugRelease_spends hdebug).single <|
    (register_earns env .debug .evtchn (by simp)).next (deregister_spends .debug .evtchn (by simp)).single <|
    (sharedInfoAcquire_earns env hshared).last []

theorem evtchnCallbacksUndo_spends (h : Quiet busy .evtchn) (n : ℤ) :
    Spends (WorldAccounted (engage busy .evtchn n)) Always evtchnBelow
      (sequence (evtchnCallbacksUndo.map worldLedger.undo)) := by
  have hdebug : Quiet (engage busy .evtchn n) .debug := h.engage n (by decide)
  have hsuspend : Quiet (engage busy .evtchn n) .suspend := h.engage n (by decide)
  have hshared : Quiet (engage busy .evtchn n) .sharedInfo := h.engage n (by decide)
  have hsum : ({.reference .sharedInfo} + ({.entry .debug .evtchn} + ({.reference .debug} +
      ({.entry .late .evtchn} + ({.entry .early .evtchn} + {.reference .suspend})))) : Multiset Holding) =
      evtchnBelow := by decide
  refine Spends.of_eq hsum ?_
  exact (world_spends fun abi => sharedInfoRelease_spends hshared).next <|
    (world_spends fun abi => deregister_spends .debug .evtchn (by simp)).next <|
    (world_spends fun abi => debugRelease_spends hdebug).next <|
    (world_spends fun abi => deregister_spends .late .evtchn (by simp)).next <|
    (world_spends fun abi => deregister_spends .early .evtchn (by simp)).next
      (world_spends fun abi => suspendRelease_spends hsuspend).single

/-- **`EvtchnAcquire` earns a reference to the event channels.** -/
theorem evtchnAcquire_earns (env : Env) (h : Quiet busy .evtchn) :
    Earns (WorldAccounted busy) Clean {.reference .evtchn} (evtchnAcquire env) := by
  have htwoLevel : Quiet (engage busy .evtchn 1) .twoLevel := h.engage 1 (by decide)
  have hbusy : engage busy .evtchn 1 .evtchn = some 1 := Function.update_self _ _ _
  have habi := (evtchnAbiAcquire_earns env hbusy htwoLevel).cons
    (evtchnAbiRelease_spends htwoLevel).any.single (evtchnInterrupts_earn env)
    fun _ _ => trivial
  have hsteps : Earns (WorldAccounted (engage busy .evtchn 1)) Clean (evtchnBelow + ({.abi} + 0))
      (attempt ((evtchnCallbacks env).map worldLedger.stage ++ abiStages env)) := by
    rw [abiStages, attempt_evtchnStages]
    refine (evtchnCallbacks_earn env h).any.cons
      (evtchnCallbacksUndo_spends h 1).any habi fun U hU => ⟨?_, ?_⟩
    · exact Multiset.mem_add.2 (.inr (by decide))
    · rw [Multiset.mem_add, not_or]
      exact ⟨hU.abi_not_mem, by decide⟩
  exact Books.acquire_earns (worldReferences_tracks .evtchn) evtchn_guards h.self
    (Earns.of_eq (by decide) hsteps) fun U hU => hU.add_reference .evtchn

theorem evtchnRelease_spends (env : Env) (h : Quiet busy .evtchn) :
    Spends (WorldAccounted busy) Clean {.reference .evtchn} (evtchnRelease env) := by
  have htwoLevel : Quiet (engage busy .evtchn 0) .twoLevel := h.engage 0 (by decide)
  have hgive : Spends (WorldAccounted (engage busy .evtchn 0)) Always 0
      (worldLedger.undo (giveBack (.array .evtchn))) := world_spends fun abi => giveBack_spends _
  have hline : Spends (WorldAccounted (engage busy .evtchn 0)) Always 0 freeInterrupt :=
    account_spends (freeInterrupt_keeps fun _ _ => rfl)
  have hnone : Spends (WorldAccounted (engage busy .evtchn 0)) Always 0
      (worldLedger.undo (bugOnOutstanding .evtchn)) := world_spends fun abi => bugOnOutstanding_spends _
  have hbody := (freeInterrupts_spends env).next <| hgive.next <| hline.next <| hnone.next <|
    (evtchnAbiRelease_spends htwoLevel).next (evtchnCallbacksUndo_spends h 0)
  exact Books.release_spends (worldReferences_tracks .evtchn) evtchn_guards h.self
    (Spends.of_eq (by decide) hbody).any

/-! ## Store and console -/

/-- The steps to the ring page earn a reference to the grant tables. -/
theorem ringPage_earns (env : Env) (i : Interface) (reference : ℤ) (h : Quiet busy .gnttab) :
    Earns (WorldAccounted busy) Always {.reference .gnttab}
      (worldLower.step (attempt (ringPage env i reference))) := by
  have hsum : ({.reference .gnttab} + (0 + 0) : Multiset Holding) = {.reference .gnttab} := by decide
  refine worldLower_earns fun abi => Earns.of_eq hsum ?_
  have haddress : Earns (LowerAccounted abi busy) Always 0 (getAddress reference) :=
    Earns.of_keeps (fun w => check_keeps Lower.ledger _ w) lower_accounted
  exact (gnttabAcquire_earns env h).next (gnttabRelease_spends h).single <| haddress.next Spends.nil <|
    (lower_earns (claim_earns _ _)).last [lowerLedger.undo (giveBack (.ioSpace i))]

theorem ringPageUndo_spends (i : Interface) (h : Quiet busy .gnttab) :
    Spends (WorldAccounted busy) Always {.reference .gnttab}
      (sequence [worldLower.undo (lowerLedger.undo (giveBack (.ioSpace i))), worldLower.undo gnttabRelease]) := by
  refine Spends.of_eq (zero_add _) ?_
  exact (worldLower_spends fun abi => lower_spends (giveBack_spends _)).next
    (worldLower_spends fun abi => gnttabRelease_spends h).single

theorem clientUndo_spends (env : Env) (i : Interface) (hgnttab : Quiet busy .gnttab)
    (hevtchn : Quiet busy .evtchn) :
    Spends (WorldAccounted busy) Clean ({.reference .evtchn} + {.reference .gnttab})
      (sequence (clientUndo env i)) := by
  exact (evtchnRelease_spends env hevtchn).cons (ringPageUndo_spends i hgnttab).any fun U hU =>
    hU.add_reference .gnttab

/-- **A call of the store or the console earns a reference to it**, if its callbacks earn the rest of what it
holds. -/
theorem clientAcquire_earns {callbacks : List (Stage Ledger)} (env : Env) (reference : ℤ) (hne : i ≠ .evtchn)
    (hrank : i.rank = 5) (hholdings : {.reference .gnttab} + ({.reference .evtchn} + t) = holdings i)
    (h : Quiet busy i)
    (hcallbacks : ∀ abi, Earns (Accounted abi (engage busy i 1)) (fun U => .reference .evtchn ∈ U) t
      (attempt callbacks)) :
    Earns (WorldAccounted busy) Clean {.reference i}
      ((worldReferences i).acquire (clientSteps env i reference callbacks)) := by
  have hgnttab : Quiet (engage busy i 1) .gnttab := h.engage 1 (by rw [hrank]; decide)
  have hevtchn : Quiet (engage busy i 1) .evtchn := h.engage 1 (by rw [hrank]; decide)
  have hrest : Earns (WorldAccounted (engage busy i 1)) (fun U => .reference .evtchn ∈ U) t
      (attempt (callbacks.map worldLedger.stage)) := by
    rw [funext (worldLedger.attempt_map callbacks)]
    exact world_earns hcallbacks
  refine Books.acquire_earns (worldReferences_tracks i) (world_guards_of_ne hne) h.self
    (Earns.of_eq hholdings ?_) fun U hU => hU.add_reference i
  rw [attempt_clientSteps]
  refine (ringPage_earns env i reference hgnttab).any.cons (ringPageUndo_spends i hgnttab).any
    ((evtchnAcquire_earns env hevtchn).cons (evtchnRelease_spends env hevtchn).single hrest fun U _ => ?_)
    fun U hU => hU.add_reference .gnttab
  exact Multiset.mem_add.2 (.inr (Multiset.mem_singleton_self _))

theorem clientRelease_spends (env : Env) (undos : List (Undo Ledger)) (hne : i ≠ .evtchn) (hrank : i.rank = 5)
    (hholdings : t + ({.reference .evtchn} + {.reference .gnttab}) = holdings i) (h : Quiet busy i)
    (hundos : Spends (WorldAccounted (engage busy i 0)) Always t (sequence (undos.map worldLedger.undo))) :
    Spends (WorldAccounted busy) Clean {.reference i}
      ((worldReferences i).release (undos.map worldLedger.undo ++ clientUndo env i)) := by
  have hgnttab : Quiet (engage busy i 0) .gnttab := h.engage 0 (by rw [hrank]; decide)
  have hevtchn : Quiet (engage busy i 0) .evtchn := h.engage 0 (by rw [hrank]; decide)
  refine Books.release_spends (worldReferences_tracks i) (world_guards_of_ne hne) h.self
    (Spends.of_eq hholdings ?_)
  exact hundos.append (clientUndo_spends env i hgnttab hevtchn) fun _ _ => trivial

theorem open_earns (fails : Bool) :
    Earns (Accounted abi busy) P 0 (fun l => if fails then some (false, l) else evtchnOpen l) := by
  refine registry_earns ?_
  intro l ok l' hrun
  split_ifs at hrun <;>
  · obtain ⟨-, rfl⟩ := Prod.mk.inj (Option.some.inj hrun)
    rfl

theorem storeAcquire_earns (env : Env) (h : Quiet busy .store) :
    Earns (WorldAccounted busy) Clean {.reference .store} (storeAcquire env) := by
  have hdebug : Quiet (engage busy .store 1) .debug := h.engage 1 (by decide)
  have hsuspend : Quiet (engage busy .store 1) .suspend := h.engage 1 (by decide)
  have hevtchn : engage busy .store 1 .evtchn = none := (h.engage 1 (j := .evtchn) (by decide)).self
  have hsum : ({.reference .gnttab} + ({.reference .evtchn} + (0 + ({.reference .suspend} +
      ({.entry .early .store} + ({.entry .late .store} + ({.reference .debug} + {.entry .debug .store})))))) :
      Multiset Holding) = holdings .store := by decide
  refine clientAcquire_earns env storeReference (by decide) rfl hsum h fun abi => ?_
  have hopen : Earns (Accounted abi (engage busy .store 1)) (fun U => .reference .evtchn ∈ U) 0 evtchnOpen :=
    open_earns false
  exact hopen.above (destroy_spends _).single <|
    (suspendAcquire_earns env hsuspend).any.above (suspendRelease_spends hsuspend).any.single <|
    (register_earns env .early .store (by simp)).above (deregister_spends .early .store (by simp)).single <|
    (register_earns env .late .store fun _ _ => ⟨hevtchn, fun _ hU => hU⟩).above
      (deregister_spends .late .store (by simp)).single <|
    (debugAcquire_earns env hdebug).any.above (debugRelease_spends hdebug).any.single <|
    (register_earns env .debug .store (by simp)).last []

theorem storeRelease_spends (env : Env) (h : Quiet busy .store) :
    Spends (WorldAccounted busy) Clean {.reference .store} (storeRelease env) := by
  have hdebug : Quiet (engage busy .store 0) .debug := h.engage 0 (by decide)
  have hsuspend : Quiet (engage busy .store 0) .suspend := h.engage 0 (by decide)
  have hsum : (0 + ({.entry .debug .store} + ({.reference .debug} + ({.entry .late .store} +
      ({.entry .early .store} + ({.reference .suspend} + 0))))) +
      ({.reference .evtchn} + {.reference .gnttab}) : Multiset Holding) = holdings .store := by decide
  refine clientRelease_spends env (bugOnOutstanding .store :: storeCallbacksUndo) (by decide) rfl hsum h ?_
  exact (world_spends fun abi => bugOnOutstanding_spends _).next <|
    (world_spends fun abi => deregister_spends .debug .store (by simp)).next <|
    (world_spends fun abi => debugRelease_spends hdebug).next <|
    (world_spends fun abi => deregister_spends .late .store (by simp)).next <|
    (world_spends fun abi => deregister_spends .early .store (by simp)).next <|
    (world_spends fun abi => suspendRelease_spends hsuspend).next
      (world_spends fun abi => destroy_spends _).single

theorem consoleAcquire_earns (env : Env) (h : Quiet busy .console) :
    Earns (WorldAccounted busy) Clean {.reference .console} (consoleAcquire env) := by
  have hdebug : Quiet (engage busy .console 1) .debug := h.engage 1 (by decide)
  have hsuspend : Quiet (engage busy .console 1) .suspend := h.engage 1 (by decide)
  have hevtchn : engage busy .console 1 .evtchn = none := (h.engage 1 (j := .evtchn) (by decide)).self
  have hsum : ({.reference .gnttab} + ({.reference .evtchn} + (0 + ({.reference .suspend} +
      ({.entry .late .console} + ({.reference .debug} + {.entry .debug .console}))))) : Multiset Holding) =
      holdings .console := by decide
  refine clientAcquire_earns env consoleReference (by decide) rfl hsum h fun abi => ?_
  exact (open_earns _).above (destroy_spends _).single <|
    (suspendAcquire_earns env hsuspend).any.above (suspendRelease_spends hsuspend).any.single <|
    (register_earns env .late .console fun _ _ => ⟨hevtchn, fun _ hU => hU⟩).above
      (deregister_spends .late .console (by simp)).single <|
    (debugAcquire_earns env hdebug).any.above (debugRelease_spends hdebug).any.single <|
    (register_earns env .debug .console (by simp)).last []

theorem consoleRelease_spends (env : Env) (h : Quiet busy .console) :
    Spends (WorldAccounted busy) Clean {.reference .console} (consoleRelease env) := by
  have hdebug : Quiet (engage busy .console 0) .debug := h.engage 0 (by decide)
  have hsuspend : Quiet (engage busy .console 0) .suspend := h.engage 0 (by decide)
  have hsum : (0 + ({.entry .debug .console} + ({.reference .debug} + ({.entry .late .console} +
      ({.reference .suspend} + 0)))) + ({.reference .evtchn} + {.reference .gnttab}) : Multiset Holding) =
      holdings .console := by decide
  refine clientRelease_spends env (bugOnOutstanding .console :: consoleCallbacksUndo) (by decide) rfl hsum h ?_
  exact (world_spends fun abi => bugOnOutstanding_spends _).next <|
    (world_spends fun abi => deregister_spends .debug .console (by simp)).next <|
    (world_spends fun abi => debugRelease_spends hdebug).next <|
    (world_spends fun abi => deregister_spends .late .console (by simp)).next <|
    (world_spends fun abi => suspendRelease_spends hsuspend).next
      (world_spends fun abi => destroy_spends _).single

end XenBus.Interfaces
