import Mathlib.Data.Finset.Insert
import XenBus.Foundations.Holdings
import XenBus.Interfaces.Counts

/-!
# What the interfaces hold of one another

While its count is not zero, an interface holds references to those it uses and an entry on each callback list
that it registers with. Whatever a sequence of calls was, the counts and the lists are what the interfaces in use
and the clients hold (`Accounted`), and the late callbacks of the store and the console come after that of the
event channels (`inOrder`).
-/

namespace XenBus.Interfaces

open Unwind Holdings

variable {env : Env} {i j k : Interface} {q : Queue} {xs ys : List Interface}

/-! ## One callback after another -/

/-- Wherever `i` stands in the list, `j` stands before it. -/
def Follows (j i : Interface) (xs : List Interface) : Prop := ∀ ys zs, xs = ys ++ i :: zs → j ∈ ys

theorem follows_of_not_mem (h : i ∉ xs) : Follows j i xs := by
  rintro ys zs rfl
  simp at h

/-- An entry at the end. -/
theorem Follows.append (h : Follows j i xs) (hj : k = i → j ∈ xs) : Follows j i (xs ++ [k]) := by
  intro ys zs heq
  rcases List.eq_nil_or_concat zs with rfl | ⟨zs, z, rfl⟩
  · obtain ⟨rfl, hk⟩ := List.append_inj' heq rfl
    exact hj (List.singleton_inj.1 hk)
  · rw [List.concat_eq_append, ← List.cons_append, ← List.append_assoc] at heq
    exact h ys zs (List.append_inj' heq rfl).1

/-- The latest entry of an interface is removed. -/
theorem removeLatest_some (h : removeLatest k xs = some ys) : ∃ as bs, xs = as ++ k :: bs ∧ ys = as ++ bs := by
  rw [removeLatest] at h
  split_ifs at h with hmem
  obtain ⟨bs, as, -, hxs, herase⟩ := List.exists_erase_eq (List.mem_reverse.2 hmem)
  refine ⟨as.reverse, bs.reverse, ?_, ?_⟩
  · rw [← List.reverse_reverse xs, hxs]
    simp
  · rw [← Option.some.inj h, herase]
    simp

/-- An entry is removed, but not the one that stands before. -/
theorem Follows.remove (h : Follows j i xs) (hk : k ≠ j) (hremove : removeLatest k xs = some ys) :
    Follows j i ys := by
  obtain ⟨as, bs, rfl, rfl⟩ := removeLatest_some hremove
  intro cs ds heq
  rcases List.append_eq_append_iff.1 heq with ⟨es, rfl, hbs⟩ | ⟨es, rfl, hds⟩
  · have hmem := h (as ++ k :: es) ds (by rw [hbs]; simp)
    simpa [hk.symm] using hmem
  · rcases es with _ | ⟨e, es⟩
    · have hmem := h (cs ++ [k]) ds (by rw [List.nil_append] at hds; simp [← hds])
      simpa [hk.symm] using hmem
    · obtain ⟨rfl, -⟩ := List.cons.inj hds
      exact h cs (es ++ k :: bs) (by simp)

/-! ## What is held -/

instance : Fintype Interface where
  elems := {.debug, .suspend, .rangeSet, .cache, .sharedInfo, .twoLevel, .gnttab, .evtchn, .store, .console}
  complete := by
    intro i
    cases i <;> decide

/-- What is held. -/
inductive Holding
  /-- A reference to an interface. -/
  | reference (i : Interface)
  /-- An entry on a callback list. -/
  | entry (q : Queue) (i : Interface)
  /-- The event channel ABI. -/
  | abi
  deriving DecidableEq

/-- What an interface holds while its count is not zero, in the order of its `Acquire`. -/
def holdings : Interface → Multiset Holding
  | .debug => 0
  | .suspend => {.reference .debug, .entry .debug .suspend}
  | .rangeSet => {.reference .debug, .entry .debug .rangeSet}
  | .cache => {.reference .debug, .entry .debug .cache}
  | .sharedInfo =>
    {.reference .suspend, .entry .early .sharedInfo, .reference .debug, .entry .debug .sharedInfo}
  | .twoLevel => {.reference .sharedInfo}
  | .gnttab =>
    {.reference .rangeSet, .reference .cache, .reference .suspend, .entry .early .gnttab, .reference .debug,
      .entry .debug .gnttab}
  | .evtchn =>
    {.reference .suspend, .entry .early .evtchn, .entry .late .evtchn, .reference .debug, .entry .debug .evtchn,
      .reference .sharedInfo, .abi}
  | .store =>
    {.reference .gnttab, .reference .evtchn, .reference .suspend, .entry .early .store, .entry .late .store,
      .reference .debug, .entry .debug .store}
  | .console =>
    {.reference .gnttab, .reference .evtchn, .reference .suspend, .entry .late .console, .reference .debug,
      .entry .debug .console}

/-- What is measured, while the ABI in use is `abi`: the two-level ABI has one reference for it. -/
def measure (abi : Option Abi) (l : Ledger) : Holding → ℤ
  | .reference i => l.References i - if i = .twoLevel ∧ abi = some .twoLevel then 1 else 0
  | .entry q i => (l.queue q).count i
  | .abi => if abi = none then 0 else 1

/-- The books of the interfaces. -/
def books (abi : Option Abi) : Books Ledger Interface Holding where
  holdings := holdings
  measure := measure abi
  count := fun l i => l.References i

/-- The late callbacks of the store and the console come after that of the event channels, unless these are being
set up or torn down. -/
def inOrder (busy : Interface → Option ℤ) (l : Ledger) : Prop :=
  busy .evtchn = none → Follows .evtchn .store (l.queue .late) ∧ Follows .evtchn .console (l.queue .late)

/-- What the interfaces in use that are not busy and `U` hold, and the order of the late callbacks. -/
abbrev Accounted (abi : Option Abi) (busy : Interface → Option ℤ) (U : Multiset Holding) (l : Ledger) : Prop :=
  (books abi).Kept inOrder busy U l

variable {abi : Option Abi} {busy : Interface → Option ℤ} {P : Multiset Holding → Prop} {U : Multiset Holding}
  {l l' : Ledger} {n : ℤ}

theorem references_tracks (abi : Option Abi) (i : Interface) :
    (books abi).Tracks (references i) i (.reference i) where
  count := fun _ => rfl
  count_add := fun _ _ _ hne => refer_References_of_ne hne
  measure_add := by
    rintro n l (j | ⟨q, j⟩ | _)
    · by_cases h : j = i
      · subst h
        have hcount : ((references j).add n l).References j = l.References j + n := refer_References_self
        simp only [books, measure, hcount, if_true]
        omega
      · have hcount : ((references i).add n l).References j = l.References j := refer_References_of_ne h
        simp [books, measure, hcount, h]
    · simp [books, measure, references, Ledger.refer]
    · simp [books, measure]
  le := by
    intro l
    simp only [books, measure]
    split_ifs <;> omega

/-- The order does not depend on the counts, and is not relaxed for the other interfaces. -/
theorem guards_of_ne (abi : Option Abi) (P : Multiset Holding → Prop) (hk : k ≠ .evtchn) :
    (books abi).Guards inOrder P busy (references k) k (.reference k) where
  add := fun _ _ _ h => h
  enter := fun n l h hbusy => h ((Function.update_of_ne hk.symm _ _).symm.trans hbusy)
  renumber := fun m n l h hbusy => by
    refine h ?_
    rw [engage, Function.update_of_ne hk.symm] at hbusy ⊢
    exact hbusy
  up := fun U l _ _ h hbusy => h ((Function.update_of_ne hk.symm _ _).trans hbusy)
  down := fun U l _ _ h hbusy => h ((Function.update_of_ne hk.symm _ _).trans hbusy)

/-! ## The single steps -/

/-- The counts and the lists. -/
def registry (l : Ledger) : (Interface → ℤ) × (Queue → List Interface) := (l.References, l.queue)

theorem accounted_of_registry (U : Multiset Holding) (l' l : Ledger) (hsame : registry l' = registry l)
    (h : Accounted abi busy U l) : Accounted abi busy U l' := by
  obtain ⟨hReferences, hqueue⟩ := Prod.mk.inj hsame
  refine ⟨h.1.change (i := .abi) (n := 0) (fun k => congrFun hReferences k) (fun j => ?_) fun j => by simp, ?_⟩
  · rcases j with j | ⟨q, j⟩ | _ <;> simp [books, measure, hReferences, hqueue]
  · intro hbusy
    rw [hqueue]
    exact h.2 hbusy

theorem registry_earns {step : Step Ledger} (h : StepKeeps registry step) : Earns (Accounted abi busy) P 0 step :=
  Earns.of_keeps h accounted_of_registry

theorem registry_spends {undo : Undo Ledger} (h : UndoKeeps registry undo) :
    Spends (Accounted abi busy) P 0 undo :=
  Spends.of_keeps h accounted_of_registry

theorem claim_earns (fails : Bool) (r : Resource) : Earns (Accounted abi busy) P 0 (claim fails r) := by
  refine registry_earns ?_
  intro l ok l' hrun
  rw [claim] at hrun
  split_ifs at hrun <;>
  · obtain ⟨-, rfl⟩ := Prod.mk.inj (Option.some.inj hrun)
    rfl

theorem check_earns (fails : Bool) : Earns (Accounted abi busy) P 0 (check fails) :=
  registry_earns (check_keeps registry fails)

theorem giveBack_spends (r : Resource) : Spends (Accounted abi busy) P 0 (giveBack r) := by
  refine registry_spends ?_
  intro l l' hrun
  rw [giveBack] at hrun
  split_ifs at hrun
  obtain rfl := Option.some.inj hrun
  rfl

theorem destroy_spends (i : Interface) : Spends (Accounted abi busy) P 0 (destroy i) := by
  refine registry_spends ?_
  intro l l' hrun
  rw [destroy] at hrun
  split_ifs at hrun
  obtain rfl := Option.some.inj hrun
  rfl

theorem bugOnOutstanding_spends (i : Interface) : Spends (Accounted abi busy) P 0 (bugOnOutstanding i) := by
  refine registry_spends ?_
  intro l l' hrun
  rw [bugOnOutstanding] at hrun
  split_ifs at hrun
  obtain rfl := Option.some.inj hrun
  rfl

/-- An interface that is referenced has a count. -/
theorem References_ne_zero (h : (books abi).Balanced busy U l) (hmem : .reference k ∈ U) : l.References k ≠ 0 := by
  have hpos : (1 : ℤ) ≤ U.count (.reference k) := by exact_mod_cast Multiset.one_le_count_iff_mem.2 hmem
  have hcount : 1 ≤ l.References k :=
    (hpos.trans (h.le_measure (.reference k))).trans ((references_tracks abi k).le l)
  omega

/-- If it is not busy, it is in use. -/
theorem mem_active (h : (books abi).Balanced busy U l) (hk : busy k = none) (hmem : .reference k ∈ U) :
    k ∈ (books abi).active busy l := by
  simp only [Books.active, Finset.mem_filter, Finset.mem_univ, true_and]
  exact ⟨hk, References_ne_zero h hmem⟩

/-- It has its callbacks on the lists. -/
theorem mem_queue (h : (books abi).Balanced busy U l) (hk : k ∈ (books abi).active busy l)
    (hentry : .entry q k ∈ holdings k) : k ∈ l.queue q := by
  have hle := h.add_le_measure hk (.entry q k)
  have hpos : 1 ≤ (holdings k).count (.entry q k) := Multiset.one_le_count_iff_mem.2 hentry
  have hmeasure : (books abi).measure l (.entry q k) = ((l.queue q).count k : ℤ) := rfl
  have hholdings : (books abi).holdings k = holdings k := rfl
  rw [hmeasure, hholdings] at hle
  refine List.one_le_count_iff.1 ?_
  omega

theorem insertTail_queue_self : (l.insertTail q i).queue q = l.queue q ++ [i] := Function.update_self _ _ _

theorem insertTail_queue_of_ne {q' : Queue} (h : q' ≠ q) : (l.insertTail q i).queue q' = l.queue q' :=
  Function.update_of_ne h _ _

theorem register_some {ok : Bool} (hrun : register env q i l = some (ok, l')) :
    l' = if ok then l.insertTail q i else l := by
  rw [register] at hrun
  split_ifs at hrun <;>
  · obtain ⟨rfl, rfl⟩ := Prod.mk.inj (Option.some.inj hrun)
    rfl

/-- A callback is registered. That of the store or the console needs a reference to the event channels. -/
theorem register_earns (env : Env) (q : Queue) (i : Interface)
    (hq : q = .late → i = .store ∨ i = .console → busy .evtchn = none ∧ ∀ U, P U → .reference .evtchn ∈ U) :
    Earns (Accounted abi busy) P {.entry q i} (register env q i) where
  gains := by
    rintro U l l' hU ⟨hl, horder⟩ hrun
    obtain rfl : l' = l.insertTail q i := register_some hrun
    refine ⟨hl.change (fun _ => rfl) (fun j => ?_) (count_add_singleton U _), fun hbusy => ?_⟩
    · rcases j with j | ⟨q', j⟩ | _
      · simp [books, measure]
      · by_cases hqq : q' = q
        · subst hqq
          by_cases hj : j = i
          · simp [books, measure, insertTail_queue_self, hj]
          · simp [books, measure, insertTail_queue_self, hj, Ne.symm hj]
        · simp [books, measure, insertTail_queue_of_ne hqq, hqq]
      · simp [books, measure]
    · by_cases hlate : q = .late
      · subst hlate
        have hmem (hi : i = .store ∨ i = .console) : .evtchn ∈ l.queue .late :=
          mem_queue hl (mem_active hl hbusy ((hq rfl hi).2 U hU)) (by decide)
        rw [insertTail_queue_self]
        exact ⟨(horder hbusy).1.append fun hi => hmem (.inl hi), (horder hbusy).2.append fun hi => hmem (.inr hi)⟩
      · rw [insertTail_queue_of_ne (Ne.symm hlate)]
        exact horder hbusy
  loses := by
    intro U l l' hU hl hrun
    obtain rfl : l' = l := register_some hrun
    exact hl

/-- A callback is deregistered; the late one of the event channels, while these are busy. -/
theorem deregister_spends (q : Queue) (i : Interface) (hq : q = .late → i = .evtchn → busy .evtchn ≠ none) :
    Spends (Accounted abi busy) P {.entry q i} (deregister q i) := by
  rintro U l l' hU ⟨hl, horder⟩ hrun
  obtain ⟨xs, hxs, rfl⟩ := Option.map_eq_some_iff.1 hrun
  refine ⟨hl.change (fun _ => rfl) (fun j => ?_) (count_eq_sub_singleton U _), fun hbusy => ?_⟩
  · obtain ⟨as, bs, hqueue, rfl⟩ := removeLatest_some hxs
    rcases j with j | ⟨q', j⟩ | _
    · simp [books, measure]
    · by_cases hqq : q' = q
      · subst hqq
        by_cases hj : j = i
        · simp [books, measure, hqueue, hj]
          omega
        · simp [books, measure, hqueue, hj, Ne.symm hj]
      · simp [books, measure, hqq]
    · simp [books, measure]
  · by_cases hlate : q = .late
    · subst hlate
      have hne : i ≠ .evtchn := fun hi => hq rfl hi hbusy
      simp only [Function.update_self]
      exact ⟨(horder hbusy).1.remove hne hxs, (horder hbusy).2.remove hne hxs⟩
    · simp only [Function.update_of_ne (Ne.symm hlate)]
      exact horder hbusy

/-! ## The interfaces of the ledger -/

/-- An interface uses others of a smaller rank. -/
def Interface.rank : Interface → ℕ
  | .debug => 0
  | .suspend | .rangeSet | .cache => 1
  | .sharedInfo => 2
  | .twoLevel | .gnttab => 3
  | .evtchn => 4
  | .store | .console => 5

/-- No interface up to the rank of `i` is busy. -/
def Quiet (busy : Interface → Option ℤ) (i : Interface) : Prop := ∀ k : Interface, k.rank ≤ i.rank → busy k = none

theorem Quiet.self (h : Quiet busy i) : busy i = none := h i le_rfl

/-- While `i` is busy, those below it are not. -/
theorem Quiet.engage (h : Quiet busy i) (n : ℤ) (hj : j.rank < i.rank) : Quiet (engage busy i n) j := by
  intro k hk
  have hne : k ≠ i := by
    rintro rfl
    omega
  exact (Function.update_of_ne hne _ _).trans (h k (by omega))

/-- Debug holds nothing. -/
theorem debugAcquire_earns (env : Env) (h : Quiet busy .debug) :
    Earns (Accounted abi busy) Always {.reference .debug} (debugAcquire env) :=
  Books.acquire_earns (Q := Always) (references_tracks abi .debug) (guards_of_ne _ _ (by decide)) h.self
    ((claim_earns _ _).last []) fun _ _ => trivial

theorem debugRelease_spends (h : Quiet busy .debug) :
    Spends (Accounted abi busy) Always {.reference .debug} debugRelease :=
  Books.release_spends (references_tracks abi .debug) (guards_of_ne _ _ (by decide)) h.self
    ((bugOnOutstanding_spends _).next (giveBack_spends _).single)

theorem reportingAcquire_earns (env : Env) (hi : holdings i = {.reference .debug, .entry .debug i})
    (hrank : i.rank = 1) (h : Quiet busy i) :
    Earns (Accounted abi busy) Always {.reference i} (reportingAcquire env i) := by
  have hdebug : Quiet (engage busy i 1) .debug := h.engage 1 (by rw [hrank]; decide)
  have hne : i ≠ .evtchn := by
    rintro rfl
    cases hrank
  refine Books.acquire_earns (Q := Always) (references_tracks abi i) (guards_of_ne _ _ hne) h.self
    (Earns.of_eq hi.symm ?_) fun _ _ => trivial
  exact (debugAcquire_earns env hdebug).next (debugRelease_spends hdebug).single
    ((register_earns env .debug i (by simp)).last [])

theorem reportingRelease_spends (hi : holdings i = {.reference .debug, .entry .debug i}) (hrank : i.rank = 1)
    (h : Quiet busy i) : Spends (Accounted abi busy) Always {.reference i} (reportingRelease i) := by
  have hdebug : Quiet (engage busy i 0) .debug := h.engage 0 (by rw [hrank]; decide)
  have hne : i ≠ .evtchn := by
    rintro rfl
    cases hrank
  have hsum : (0 + ({.entry .debug i} + {.reference .debug}) : Multiset Holding) = holdings i := by
    rw [hi, zero_add, add_comm]
    rfl
  refine Books.release_spends (references_tracks abi i) (guards_of_ne _ _ hne) h.self (Spends.of_eq hsum ?_)
  exact (bugOnOutstanding_spends i).next ((deregister_spends .debug i (by simp)).next
    (debugRelease_spends hdebug).single)

theorem suspendAcquire_earns (env : Env) (h : Quiet busy .suspend) :
    Earns (Accounted abi busy) Always {.reference .suspend} (suspendAcquire env) :=
  reportingAcquire_earns env rfl rfl h

theorem suspendRelease_spends (h : Quiet busy .suspend) :
    Spends (Accounted abi busy) Always {.reference .suspend} suspendRelease := reportingRelease_spends rfl rfl h

theorem sharedInfoAcquire_earns (env : Env) (h : Quiet busy .sharedInfo) :
    Earns (Accounted abi busy) Always {.reference .sharedInfo} (sharedInfoAcquire env) := by
  have hdebug : Quiet (engage busy .sharedInfo 1) .debug := h.engage 1 (by decide)
  have hsuspend : Quiet (engage busy .sharedInfo 1) .suspend := h.engage 1 (by decide)
  have hsum : (0 + (0 + ({.reference .suspend} + ({.entry .early .sharedInfo} + ({.reference .debug} +
      ({.entry .debug .sharedInfo} + (0 + 0)))))) : Multiset Holding) = holdings .sharedInfo := by decide
  refine Books.acquire_earns (Q := Always) (references_tracks abi .sharedInfo) (guards_of_ne _ _ (by decide))
    h.self (Earns.of_eq hsum ?_) fun _ _ => trivial
  exact (claim_earns _ _).next (giveBack_spends _).single <|
    (claim_earns _ _).next (giveBack_spends _).single <|
    (suspendAcquire_earns env hsuspend).next (suspendRelease_spends hsuspend).single <|
    (register_earns env .early .sharedInfo (by simp)).next
      (deregister_spends .early .sharedInfo (by simp)).single <|
    (debugAcquire_earns env hdebug).next (debugRelease_spends hdebug).single <|
    (register_earns env .debug .sharedInfo (by simp)).next
      (deregister_spends .debug .sharedInfo (by simp)).single <|
    (claim_earns _ _).next (giveBack_spends _).single <| (check_earns _).last []

theorem sharedInfoRelease_spends (h : Quiet busy .sharedInfo) :
    Spends (Accounted abi busy) Always {.reference .sharedInfo} sharedInfoRelease := by
  have hdebug : Quiet (engage busy .sharedInfo 0) .debug := h.engage 0 (by decide)
  have hsuspend : Quiet (engage busy .sharedInfo 0) .suspend := h.engage 0 (by decide)
  have hsum : (0 + ({.entry .debug .sharedInfo} + ({.reference .debug} + ({.entry .early .sharedInfo} +
      ({.reference .suspend} + (0 + 0))))) : Multiset Holding) = holdings .sharedInfo := by decide
  refine Books.release_spends (references_tracks abi .sharedInfo) (guards_of_ne _ _ (by decide)) h.self
    (Spends.of_eq hsum ?_)
  exact (giveBack_spends _).next <| (deregister_spends .debug .sharedInfo (by simp)).next <|
    (debugRelease_spends hdebug).next <| (deregister_spends .early .sharedInfo (by simp)).next <|
    (suspendRelease_spends hsuspend).next <| (giveBack_spends _).next (giveBack_spends _).single

/-- The steps of `EvtchnTwoLevelAcquire` take another reference to the shared info. -/
theorem evtchnTwoLevelSteps_of_ne (env : Env) (h : l.References .sharedInfo ≠ 0) :
    attempt [⟨check false, [sharedInfoRelease]⟩, ⟨sharedInfoAcquire env, []⟩] l =
      some (true, l.refer .sharedInfo 1) := by
  have hshared : sharedInfoAcquire env l = some (true, l.refer .sharedInfo 1) :=
    (references .sharedInfo).acquire_of_ne h
  rw [attempt_cons_of_passes rfl, attempt_single]
  simp only [hshared]

theorem evtchnTwoLevelSteps_earn (env : Env) (h : Quiet busy .sharedInfo) :
    Earns (Accounted abi busy) (fun U => .reference .sharedInfo ∈ U) {.reference .sharedInfo}
      (attempt [⟨check false, [sharedInfoRelease]⟩, ⟨sharedInfoAcquire env, []⟩]) where
  gains := by
    intro U l l' hU hl hrun
    have hne := References_ne_zero hl.1 hU
    rw [evtchnTwoLevelSteps_of_ne env hne] at hrun
    have hshared : sharedInfoAcquire env l = some (true, l') :=
      ((references .sharedInfo).acquire_of_ne hne).trans hrun
    exact (sharedInfoAcquire_earns env h).gains U l l' trivial hl hshared
  loses := by
    intro U l l' hU hl hrun
    rw [evtchnTwoLevelSteps_of_ne env (References_ne_zero hl.1 hU)] at hrun
    cases hrun

theorem evtchnTwoLevelAcquire_earns (env : Env) (h : Quiet busy .twoLevel) :
    Earns (Accounted abi busy) (fun U => .reference .sharedInfo ∈ U) {.reference .twoLevel}
      (evtchnTwoLevelAcquire env) :=
  Books.acquire_earns (references_tracks abi .twoLevel) (guards_of_ne _ _ (by decide)) h.self
    (evtchnTwoLevelSteps_earn env (h.engage 1 (by decide))) fun U hU => Multiset.mem_add.2 (.inl hU)

theorem evtchnTwoLevelRelease_spends (h : Quiet busy .twoLevel) :
    Spends (Accounted abi busy) Always {.reference .twoLevel} evtchnTwoLevelRelease :=
  Books.release_spends (references_tracks abi .twoLevel) (guards_of_ne _ _ (by decide)) h.self
    (sharedInfoRelease_spends (h.engage 0 (by decide))).single

/-! ## The grant tables -/

/-- The books, as the grant tables see them. -/
def lowerBooks (abi : Option Abi) : Books Lower Interface Holding where
  holdings := holdings
  measure := fun w => measure abi w.ledger
  count := fun w i => w.ledger.References i

/-- The accounts, as the grant tables see them. -/
abbrev LowerAccounted (abi : Option Abi) (busy : Interface → Option ℤ) (U : Multiset Holding) (w : Lower) : Prop :=
  (lowerBooks abi).Kept (fun busy w => inOrder busy w.ledger) busy U w

theorem lowerAccounted_iff (U : Multiset Holding) (w : Lower) :
    Accounted abi busy U w.ledger ↔ LowerAccounted abi busy U w :=
  and_congr_left fun _ => ⟨fun h => ⟨h.fixed, h.books⟩, fun h => ⟨h.fixed, h.books⟩⟩

theorem lower_earns {step : Step Ledger} {t : Multiset Holding} (h : Earns (Accounted abi busy) P t step) :
    Earns (LowerAccounted abi busy) P t (lowerLedger.step step) :=
  (Earns.part lowerLedger (J := fun _ => Accounted abi busy) (fun _ => ()) (fun _ _ => rfl) fun _ => h).congr
    lowerAccounted_iff

theorem lower_spends {undo : Undo Ledger} {t : Multiset Holding} (h : Spends (Accounted abi busy) P t undo) :
    Spends (LowerAccounted abi busy) P t (lowerLedger.undo undo) :=
  (Spends.part lowerLedger (J := fun _ => Accounted abi busy) (fun _ => ()) (fun _ _ => rfl) fun _ => h).congr
    lowerAccounted_iff

theorem lower_accounted (U : Multiset Holding) (v w : Lower) (hsame : v.ledger = w.ledger)
    (h : LowerAccounted abi busy U w) : LowerAccounted abi busy U v := by
  rw [← lowerAccounted_iff] at h ⊢
  rwa [hsame]

theorem frames_earn (step : Step GnttabContext) : Earns (LowerAccounted abi busy) P 0 (lowerGnttab.step step) :=
  Earns.of_keeps (lowerGnttab.step_keeps_of_apart step fun _ _ => rfl) lower_accounted

theorem frames_spend (undo : Undo GnttabContext) : Spends (LowerAccounted abi busy) P 0 (lowerGnttab.undo undo) :=
  Spends.of_keeps (lowerGnttab.undo_keeps_of_apart undo fun _ _ => rfl) lower_accounted

theorem gnttabReferences_tracks (abi : Option Abi) :
    (lowerBooks abi).Tracks gnttabReferences .gnttab (.reference .gnttab) where
  count := fun _ => rfl
  count_add := fun n w => (references_tracks abi .gnttab).count_add n w.ledger
  measure_add := fun n w => (references_tracks abi .gnttab).measure_add n w.ledger
  le := fun w => (references_tracks abi .gnttab).le w.ledger

theorem gnttab_guards : (lowerBooks abi).Guards (fun busy w => inOrder busy w.ledger) P busy gnttabReferences
    .gnttab (.reference .gnttab) where
  add := fun _ _ _ h => h
  enter := fun n w h => (guards_of_ne abi P (by decide)).enter n w.ledger h
  renumber := fun m n w h => (guards_of_ne abi P (k := .gnttab) (by decide)).renumber m n w.ledger h
  up := fun _ _ _ _ h hbusy => h ((Function.update_of_ne (by decide) _ _).trans hbusy)
  down := fun _ _ _ _ h hbusy => h ((Function.update_of_ne (by decide) _ _).trans hbusy)

theorem rangeSetCreate_earns (env : Env) : Earns (Accounted abi busy) P 0 (rangeSetCreate env) := by
  refine registry_earns ?_
  intro l ok l' hrun
  rw [rangeSetCreate] at hrun
  split_ifs at hrun <;>
  · obtain ⟨-, rfl⟩ := Prod.mk.inj (Option.some.inj hrun)
    rfl

theorem gnttabAcquire_earns (env : Env) (h : Quiet busy .gnttab) :
    Earns (LowerAccounted abi busy) Always {.reference .gnttab} (gnttabAcquire env) := by
  have hdebug : Quiet (engage busy .gnttab 1) .debug := h.engage 1 (by decide)
  have hsuspend : Quiet (engage busy .gnttab 1) .suspend := h.engage 1 (by decide)
  have hrangeSet : Quiet (engage busy .gnttab 1) .rangeSet := h.engage 1 (by decide)
  have hcache : Quiet (engage busy .gnttab 1) .cache := h.engage 1 (by decide)
  have hsum : (0 + (0 + (0 + ({.reference .rangeSet} + (0 + ({.reference .cache} + ({.reference .suspend} +
      ({.entry .early .gnttab} + ({.reference .debug} + ({.entry .debug .gnttab} + 0))))))))) : Multiset Holding) =
      holdings .gnttab := by decide
  refine Books.acquire_earns (Q := Always) (gnttabReferences_tracks abi) gnttab_guards h.self
    (Earns.of_eq hsum ?_) fun _ _ => trivial
  have hcheck : Earns (LowerAccounted abi (engage busy .gnttab 1)) Always 0 (check (env.fails .querySize)) :=
    Earns.of_keeps (check_keeps Lower.ledger _) lower_accounted
  exact hcheck.next Spends.nil <|
    (lower_earns (claim_earns _ _)).next (lower_spends (giveBack_spends _)).single <|
    (frames_earn _).next (frames_spend _).single <|
    (lower_earns (reportingAcquire_earns env rfl rfl hrangeSet)).next
      (lower_spends (reportingRelease_spends rfl rfl hrangeSet)).single <|
    (lower_earns (rangeSetCreate_earns env)).next
      ((frames_spend _).next (lower_spends (destroy_spends _)).single) <|
    (lower_earns (reportingAcquire_earns env rfl rfl hcache)).next
      (lower_spends (reportingRelease_spends rfl rfl hcache)).single <|
    (lower_earns (suspendAcquire_earns env hsuspend)).next
      (lower_spends (suspendRelease_spends hsuspend)).single <|
    (lower_earns (register_earns env .early .gnttab (by simp))).next
      (lower_spends (deregister_spends .early .gnttab (by simp))).single <|
    (lower_earns (debugAcquire_earns env hdebug)).next (lower_spends (debugRelease_spends hdebug)).single <|
    (lower_earns (register_earns env .debug .gnttab (by simp))).next
      (lower_spends (deregister_spends .debug .gnttab (by simp))).single <|
    (frames_earn _).last []

theorem gnttabRelease_spends (h : Quiet busy .gnttab) :
    Spends (LowerAccounted abi busy) Always {.reference .gnttab} gnttabRelease := by
  have hdebug : Quiet (engage busy .gnttab 0) .debug := h.engage 0 (by decide)
  have hsuspend : Quiet (engage busy .gnttab 0) .suspend := h.engage 0 (by decide)
  have hrangeSet : Quiet (engage busy .gnttab 0) .rangeSet := h.engage 0 (by decide)
  have hcache : Quiet (engage busy .gnttab 0) .cache := h.engage 0 (by decide)
  have hsum : (0 + ({.entry .debug .gnttab} + ({.reference .debug} + ({.entry .early .gnttab} +
      ({.reference .suspend} + ({.reference .cache} + (0 + (0 + ({.reference .rangeSet} + (0 + 0))))))))) :
      Multiset Holding) = holdings .gnttab := by decide
  refine Books.release_spends (gnttabReferences_tracks abi) gnttab_guards h.self (Spends.of_eq hsum ?_)
  exact (lower_spends (bugOnOutstanding_spends _)).next <|
    (lower_spends (deregister_spends .debug .gnttab (by simp))).next <|
    (lower_spends (debugRelease_spends hdebug)).next <|
    (lower_spends (deregister_spends .early .gnttab (by simp))).next <|
    (lower_spends (suspendRelease_spends hsuspend)).next <|
    (lower_spends (reportingRelease_spends rfl rfl hcache)).next <|
    (frames_spend _).next <| (lower_spends (destroy_spends _)).next <|
    (lower_spends (reportingRelease_spends rfl rfl hrangeSet)).next <|
    (frames_spend _).next (lower_spends (giveBack_spends _)).single

end XenBus.Interfaces
