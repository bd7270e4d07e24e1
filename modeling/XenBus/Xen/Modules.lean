import XenBus.Foundations.CursorList
import XenBus.Foundations.Transition
import XenBus.Status
import XenBus.Xen.Filters

/-!
# The modules that are loaded

`xen/module.c`: a list of the address ranges of the modules, with a floating cursor. `ModuleAdd` searches
from the cursor on, in the direction of the new range; a range that overlaps it is taken out, and the
search begins again (`again:`) from a cursor next to where that was. `ModuleLookup` walks over the list.

`addPass` is one pass from `again:` on; `addPass_spec` says that it either finds the place of the new range
or takes out a range that overlaps it. So a call ends, and the list is the one before it without the ranges
that overlap the new one (`moduleAdd_spec`). `reflects_of_reaches` says what the list is after any loads.
`W` is the number of addresses, 2^32 or 2^64.
-/

namespace XenBus.Xen.Modules

open Filters Transition

/-! ## Data -/

/-- `MODULE`, without its `ListEntry`. -/
structure Module where
  Start : ℕ
  End : ℕ
  Name : Text
  deriving DecidableEq

/-- `AUX_KLIB_MODULE_PATH_LEN`. -/
def auxKlibModulePathLen : ℕ := 256

/-- The address is in the module. -/
def Module.Holds (m : Module) (Address : ℕ) : Prop := m.Start ≤ Address ∧ Address ≤ m.End

/-- Two modules have an address in common. -/
def Overlap (m m' : Module) : Prop := m.Start ≤ m'.End ∧ m'.Start ≤ m.End

instance (m : Module) (Address : ℕ) : Decidable (m.Holds Address) := inferInstanceAs (Decidable (_ ∧ _))

instance (m m' : Module) : Decidable (Overlap m m') := inferInstanceAs (Decidable (_ ∧ _))

/-! ## The functions -/

/-- `ModuleSearchForwards`. -/
def moduleSearchForwards (Address : ℕ) (l : CursorList Module) : CursorList Module :=
  l.searchForward fun m => decide (Address ≤ m.End)

/-- `ModuleSearchBackwards`. -/
def moduleSearchBackwards (Address : ℕ) (l : CursorList Module) : CursorList Module :=
  l.searchBackward fun m => decide (Address ≥ m.Start)

/-- How a pass from `again:` ends. -/
inductive Pass
  /-- The assertion that the list is empty when the cursor is at its head fails. -/
  | failed
  | done (l : CursorList Module)
  /-- A module has been moved to the list of those to be freed. -/
  | again (removed : Module) (l : CursorList Module)

/-- `ModuleAdd` from `again:` on. -/
def addPass (New : Module) (l : CursorList Module) : Pass :=
  match l.After with
  | [] => if l.Before = [] then .done (l.insertAfter New) else .failed
  | Module :: _ =>
    if New.Start > Module.End then
      let l' := moduleSearchForwards New.Start l
      match l'.After with
      | [] => .done (l'.insertBefore New)
      | Module :: _ =>
        if New.End ≥ Module.Start then .again Module l'.unlinkToPrevious else .done (l'.insertBefore New)
    else if New.End < Module.Start then
      let l' := moduleSearchBackwards New.End l
      match l'.After with
      | [] => .done (l'.insertAfter New)
      | Module :: _ =>
        if New.Start ≤ Module.End then .again Module l'.unlinkToNext else .done (l'.insertAfter New)
    else .again Module (if l.After.tail ≠ [] then l.unlinkToNext else l.unlinkToPrevious)

/-- At most `fuel` passes: the list, and the modules to be freed. -/
def addLoop (New : Module) : ℕ → CursorList Module → List Module → Option (CursorList Module × List Module)
  | 0, _, _ => none
  | fuel + 1, l, List =>
    match addPass New l with
    | .failed => none
    | .done l' => some (l', List)
    | .again removed l' => addLoop New fuel l' (List ++ [removed])

/-- The arguments of a call of `ModuleAdd`, with the outcome of its allocation. -/
structure Load where
  Name : Text
  Start : ℕ
  Size : ℕ
  allocate : Bool

/-- `New`, filled in. -/
def newModule (W : ℕ) (c : Load) : Module where
  Start := c.Start
  End := (c.Start + c.Size + (W - 1)) % W
  Name := (c.Name.take auxKlibModulePathLen).map tolower

/-- `ModuleAdd` with at most `fuel` passes: the status, the list and the modules that it frees. -/
def moduleAdd (W fuel : ℕ) (c : Load) (l : CursorList Module) :
    Option (Status × CursorList Module × List Module) :=
  if !c.allocate then some (.noMemory, l, [])
  else (addLoop (newModule W c) fuel l []).map fun (l', List) => (.success, l', List)

/-- `ModuleLookup`: `*Name` and `*Offset`. -/
def moduleLookup (l : CursorList Module) (Address : ℕ) : Option (Text × ℕ) :=
  (l.toList.find? fun m => decide (m.Holds Address)).map fun m => (m.Name, Address - m.Start)

/-! ## Sorted lists -/

/-- Ranges that are not empty, in ascending order and disjoint. -/
structure Sorted (l : List Module) : Prop where
  apart : l.Pairwise fun m m' => m.End < m'.Start
  nonempty : ∀ m ∈ l, m.Start ≤ m.End

/-- The cursor is at a module, or there is none. -/
def CursorValid (l : CursorList Module) : Prop := l.After ≠ [] ∨ l.toList = []

variable {New m : Module} {l : CursorList Module}

theorem Sorted.without {A B : List Module} (h : Sorted (A ++ m :: B)) : Sorted (A ++ B) := by
  have hsub : (A ++ B).Sublist (A ++ m :: B) := (List.Sublist.refl A).append (List.sublist_cons_self m B)
  exact ⟨h.apart.sublist hsub, fun x hx => h.nonempty x (hsub.subset hx)⟩

/-- What is before a member lies below it, and what is after it above it. -/
theorem Sorted.around {A B : List Module} (h : Sorted (A ++ m :: B)) :
    (∀ x ∈ A, x.End < m.Start) ∧ ∀ x ∈ B, m.End < x.Start := by
  obtain ⟨-, htail, hcross⟩ := List.pairwise_append.mp h.apart
  exact ⟨fun x hx => hcross x hx m List.mem_cons_self, (List.pairwise_cons.mp htail).1⟩

/-- A new range goes between those below it and those above it. -/
theorem Sorted.insert {A B : List Module} (h : Sorted (A ++ B)) (hNew : New.Start ≤ New.End)
    (hA : ∀ x ∈ A, x.End < New.Start) (hB : ∀ x ∈ B, New.End < x.Start) : Sorted (A ++ New :: B) := by
  obtain ⟨hapartA, hapartB, hcross⟩ := List.pairwise_append.mp h.apart
  refine ⟨List.pairwise_append.mpr ⟨hapartA, List.pairwise_cons.mpr ⟨hB, hapartB⟩, fun x hx y hy => ?_⟩,
    fun x hx => ?_⟩
  · obtain rfl | hy := List.mem_cons.mp hy
    · exact hA x hx
    · exact hcross x hx y hy
  · obtain hx | hx := List.mem_append.mp hx
    · exact h.nonempty x (List.mem_append_left _ hx)
    · obtain rfl | hx := List.mem_cons.mp hx
      · exact hNew
      · exact h.nonempty x (List.mem_append_right _ hx)

/-! ## One pass -/

/-- The new range is in its place, and the cursor at it. -/
def Placed (New : Module) (l l' : CursorList Module) : Prop :=
  ∃ A B, l.toList = A ++ B ∧ l'.toList = A ++ New :: B ∧ l'.After.head? = some New ∧
    (∀ x ∈ A, x.End < New.Start) ∧ ∀ x ∈ B, New.End < x.Start

/-- A range that overlaps the new one has been taken out. -/
def TakenOut (New removed : Module) (l l' : CursorList Module) : Prop :=
  ∃ A B, l.toList = A ++ removed :: B ∧ l'.toList = A ++ B ∧ Overlap New removed ∧ CursorValid l'

/-- What a pass from a list with a valid cursor comes to. -/
inductive Passed (New : Module) (l : CursorList Module) : Pass → Prop
  | done {l' : CursorList Module} (h : Placed New l l') : Passed New l (.done l')
  | again {removed : Module} {l' : CursorList Module} (h : TakenOut New removed l l') :
      Passed New l (.again removed l')

/-- The search forwards: the ranges before the cursor lie below the new one. -/
theorem passed_forwards {before after : List Module} (hsort : Sorted (before.reverse ++ m :: after))
    (hlt : m.End < New.Start) :
    Passed New ⟨before, m :: after⟩ (addPass New ⟨before, m :: after⟩) := by
  obtain ⟨as, as', heq, hseek, hpass, hstop⟩ :=
    CursorList.seekForward_spec (fun x : Module => decide (New.Start ≤ x.End)) before (m :: after)
  have hlist : before.reverse ++ m :: after = (as.reverse ++ before).reverse ++ as' := by
    rw [heq]
    simp
  -- the first of those that the search passes over is the one at the cursor
  obtain ⟨as, rfl⟩ : ∃ rest, as = m :: rest := by
    cases as with
    | nil =>
      obtain rfl : m :: after = as' := heq
      exact absurd (of_decide_eq_true (hstop m rfl)) (by omega)
    | cons a rest =>
      obtain ⟨rfl, -⟩ := List.cons.inj heq
      exact ⟨rest, rfl⟩
  have hbelow : ∀ x ∈ ((m :: as).reverse ++ before).reverse, x.End < New.Start := by
    intro x hx
    rw [List.mem_reverse, List.mem_append, List.mem_reverse] at hx
    obtain hx | hx := hx
    · have hnot := of_decide_eq_false (hpass x hx)
      omega
    · have hm := hsort.around.1 x (List.mem_reverse.mpr hx)
      have hne := hsort.nonempty m (List.mem_append_right _ List.mem_cons_self)
      omega
  have hsearch : moduleSearchForwards New.Start ⟨before, m :: after⟩ =
      ⟨(m :: as).reverse ++ before, as'⟩ := hseek
  unfold addPass
  rw [hsearch]
  dsimp only
  rw [if_pos hlt]
  cases as' with
  | nil => exact .done ⟨_, [], hlist, rfl, rfl, hbelow, by simp⟩
  | cons x rest =>
    have hx : New.Start ≤ x.End := of_decide_eq_true (hstop x rfl)
    have hsort' := hsort
    rw [hlist] at hsort'
    dsimp only
    by_cases hover : New.End ≥ x.Start
    · rw [if_pos hover]
      refine .again ⟨_, rest, hlist, CursorList.toList_unlinkToPrevious _ _ _, ⟨hx, hover⟩, .inl ?_⟩
      -- the cursor goes to a range that the search has passed over
      obtain ⟨b, bs, hb⟩ := List.exists_cons_of_ne_nil
        (show (m :: as).reverse ++ before ≠ [] by simp)
      rw [hb]
      exact List.cons_ne_nil _ _
    · rw [if_neg hover]
      refine .done ⟨_, x :: rest, hlist, rfl, rfl, hbelow, fun y hy => ?_⟩
      obtain rfl | hy := List.mem_cons.mp hy
      · omega
      · have hxy := hsort'.around.2 y hy
        have hne := hsort'.nonempty x (List.mem_append_right _ List.mem_cons_self)
        omega

/-- The search backwards: the ranges after the cursor lie above the new one. -/
theorem passed_backwards {before after : List Module} (hsort : Sorted (before.reverse ++ m :: after))
    (hlt : New.End < m.Start) (hNew : New.Start ≤ New.End) :
    Passed New ⟨before, m :: after⟩ (addPass New ⟨before, m :: after⟩) := by
  have hne := hsort.nonempty m (List.mem_append_right _ List.mem_cons_self)
  have habove : ∀ x ∈ m :: after, New.End < x.Start := by
    intro x hx
    obtain rfl | hx := List.mem_cons.mp hx
    · exact hlt
    · have hm := hsort.around.2 x hx
      omega
  unfold addPass
  dsimp only
  rw [if_neg (show ¬ New.Start > m.End by omega), if_pos hlt]
  obtain ⟨hpass, hseek⟩ | ⟨bs, x, bs', heq, hx, hpass, hseek⟩ :=
    CursorList.seekBackward_spec (fun x : Module => decide (New.End ≥ x.Start)) before m after
  · have hsearch : moduleSearchBackwards New.End ⟨before, m :: after⟩ =
        ⟨(before.reverse ++ m :: after).reverse, []⟩ := hseek
    rw [hsearch]
    dsimp only
    refine .done ⟨[], before.reverse ++ m :: after, rfl, by simp, rfl, by simp, fun x hx => ?_⟩
    obtain hx | hx := List.mem_append.mp hx
    · have hnot := of_decide_eq_false (hpass x (List.mem_cons_of_mem m (List.mem_reverse.mp hx)))
      omega
    · exact habove x hx
  · have hsearch : moduleSearchBackwards New.End ⟨before, m :: after⟩ = ⟨bs', x :: (bs.reverse ++ after)⟩ :=
      hseek
    have hstart : x.Start ≤ New.End := of_decide_eq_true hx
    -- the first of those that the search passes over is the one at the cursor
    obtain ⟨bs, rfl⟩ : ∃ rest, bs = m :: rest := by
      cases bs with
      | nil =>
        obtain ⟨rfl, -⟩ := List.cons.inj heq
        omega
      | cons b rest =>
        obtain ⟨rfl, -⟩ := List.cons.inj heq
        exact ⟨rest, rfl⟩
    obtain rfl : before = bs ++ x :: bs' := (List.cons.inj heq).2
    have hlist : (bs ++ x :: bs').reverse ++ m :: after = bs'.reverse ++ x :: (bs.reverse ++ m :: after) := by
      simp
    have hlist' : (m :: bs).reverse ++ after = bs.reverse ++ m :: after := by simp
    rw [hlist] at hsort
    have hrest : ∀ y ∈ (m :: bs).reverse ++ after, New.End < y.Start := by
      intro y hy
      rw [List.mem_append, List.mem_reverse] at hy
      obtain hy | hy := hy
      · have hnot := of_decide_eq_false (hpass y hy)
        omega
      · exact habove y (List.mem_cons_of_mem m hy)
    rw [hsearch]
    dsimp only
    by_cases hover : New.Start ≤ x.End
    · rw [if_pos hover]
      refine .again ⟨bs'.reverse, (m :: bs).reverse ++ after, ?_, rfl, ⟨hover, hstart⟩, .inl ?_⟩
      · rw [hlist']
        exact hlist
      · show (m :: bs).reverse ++ after ≠ []
        simp
    · rw [if_neg hover]
      refine .done ⟨bs'.reverse ++ [x], (m :: bs).reverse ++ after, ?_, ?_, rfl, fun y hy => ?_, hrest⟩
      · rw [hlist', List.append_assoc]
        exact hlist
      · simp
      · obtain hy | hy := List.mem_append.mp hy
        · have hbelow := hsort.around.1 y hy
          have hx' := hsort.nonempty x (List.mem_append_right _ List.mem_cons_self)
          omega
        · rw [List.mem_singleton.mp hy]
          omega

/-- **A pass places the new range, or takes out one that overlaps it.** -/
theorem addPass_spec (hsort : Sorted l.toList) (hcur : CursorValid l) (hNew : New.Start ≤ New.End) :
    Passed New l (addPass New l) := by
  obtain ⟨before, after⟩ := l
  cases after with
  | nil =>
    have hnil : before.reverse ++ [] = [] := hcur.resolve_left fun h => h rfl
    obtain rfl : before = [] := by simpa using hnil
    exact .done ⟨[], [], rfl, rfl, rfl, by simp, by simp⟩
  | cons m after =>
    by_cases hforwards : m.End < New.Start
    · exact passed_forwards hsort hforwards
    · by_cases hbackwards : New.End < m.Start
      · exact passed_backwards hsort hbackwards hNew
      · unfold addPass
        dsimp only
        rw [if_neg hforwards, if_neg hbackwards]
        refine .again ⟨before.reverse, after, rfl, ?_, ⟨by omega, by omega⟩, ?_⟩
        · cases after with
          | nil => exact CursorList.toList_unlinkToPrevious _ _ _
          | cons a as => exact CursorList.toList_unlinkToNext _ _ _
        · cases after with
          | nil =>
            cases before with
            | nil => exact .inr rfl
            | cons b bs => exact .inl (List.cons_ne_nil _ _)
          | cons a as => exact .inl (List.cons_ne_nil _ _)

/-! ## A call -/

/-- What a call comes to: the list without the ranges that overlap the new one, with the new one in its
place and the cursor there; those that overlapped it have been freed. -/
structure Added (New : Module) (l l' : CursorList Module) (freed : List Module) : Prop where
  list : ∃ A B, l.toList.filter (fun m => decide (¬ Overlap New m)) = A ++ B ∧ l'.toList = A ++ New :: B ∧
    (∀ x ∈ A, x.End < New.Start) ∧ ∀ x ∈ B, New.End < x.Start
  cursor : l'.After.head? = some New
  freed : freed.Perm (l.toList.filter fun m => decide (Overlap New m))

theorem Placed.added {l' : CursorList Module} (h : Placed New l l') : Added New l l' [] := by
  obtain ⟨A, B, hl, hl', hcur, hA, hB⟩ := h
  have hnot : ∀ m ∈ l.toList, ¬ Overlap New m := by
    rintro m hm ⟨hstart, hend⟩
    rw [hl] at hm
    obtain hm | hm := List.mem_append.mp hm
    · have := hA m hm
      omega
    · have := hB m hm
      omega
  refine ⟨⟨A, B, ?_, hl', hA, hB⟩, hcur, ?_⟩
  · rw [List.filter_eq_self.mpr fun m hm => decide_eq_true (hnot m hm), hl]
  · rw [List.filter_eq_nil_iff.mpr fun m hm => by simpa using hnot m hm]

theorem TakenOut.added {removed : Module} {l' l'' : CursorList Module} {freed : List Module}
    (h : TakenOut New removed l l') (hadded : Added New l' l'' freed) :
    Added New l l'' (removed :: freed) := by
  obtain ⟨A, B, hl, hl', hover, -⟩ := h
  obtain ⟨hlist, hcur, hfreed⟩ := hadded
  rw [hl'] at hlist hfreed
  refine ⟨?_, hcur, ?_⟩
  · rw [hl, List.filter_append, List.filter_cons_of_neg (by simpa using hover), ← List.filter_append]
    exact hlist
  · rw [hl, List.filter_append, List.filter_cons_of_pos (by simpa using hover)]
    rw [List.filter_append] at hfreed
    exact (hfreed.cons removed).trans List.perm_middle.symm

/-- The passes come to an end, as each but the last takes a range out. -/
theorem addLoop_spec (hNew : New.Start ≤ New.End) (fuel : ℕ) :
    ∀ {l : CursorList Module} (taken : List Module), Sorted l.toList → CursorValid l →
      l.toList.length < fuel →
      ∃ l' freed, addLoop New fuel l taken = some (l', taken ++ freed) ∧ Added New l l' freed := by
  induction fuel with
  | zero => exact fun _ _ _ hfuel => absurd hfuel (Nat.not_lt_zero _)
  | succ fuel ih =>
    intro l taken hsort hcur hfuel
    have hpass := addPass_spec hsort hcur hNew
    unfold addLoop
    generalize addPass New l = pass at hpass ⊢
    cases hpass with
    | done h => exact ⟨_, [], by simp, h.added⟩
    | @again removed l' h =>
      obtain ⟨A, B, hl, hl', -, hcur'⟩ := id h
      rw [hl] at hsort hfuel
      have hlength : l'.toList.length < fuel := by
        simp only [hl', List.length_append, List.length_cons] at hfuel ⊢
        omega
      obtain ⟨l'', freed, hloop, hadded⟩ := ih (taken ++ [removed]) (hl' ▸ hsort.without) hcur' hlength
      refine ⟨l'', removed :: freed, ?_, h.added hadded⟩
      simp only [hloop, List.append_assoc, List.cons_append, List.nil_append]

/-- The range does not wrap. -/
def NoWrap (W : ℕ) (c : Load) : Prop := 1 ≤ c.Size ∧ c.Start + c.Size ≤ W

theorem newModule_end {W : ℕ} {c : Load} (h : NoWrap W c) :
    (newModule W c).End = c.Start + c.Size - 1 := by
  obtain ⟨hsize, hwrap⟩ := h
  show (c.Start + c.Size + (W - 1)) % W = _
  rw [show c.Start + c.Size + (W - 1) = c.Start + c.Size - 1 + W by omega, Nat.add_mod_right,
    Nat.mod_eq_of_lt (by omega)]

/-- The outcome of a call. -/
def Outcome (W : ℕ) (c : Load) (l : CursorList Module) (status : Status) (l' : CursorList Module)
    (freed : List Module) : Prop :=
  if c.allocate then status = .success ∧ Added (newModule W c) l l' freed
  else status = .noMemory ∧ l' = l ∧ freed = []

/-- **`ModuleAdd` ends, and does what is expected.** -/
theorem moduleAdd_spec {W : ℕ} {c : Load} (h : NoWrap W c) (hsort : Sorted l.toList) (hcur : CursorValid l)
    {fuel : ℕ} (hfuel : l.toList.length < fuel) :
    ∃ status l' freed, moduleAdd W fuel c l = some (status, l', freed) ∧ Outcome W c l status l' freed := by
  unfold moduleAdd Outcome
  cases c.allocate with
  | false => exact ⟨_, _, _, rfl, rfl, rfl, rfl⟩
  | true =>
    have hNew : (newModule W c).Start ≤ (newModule W c).End := by
      rw [newModule_end h]
      obtain ⟨hsize, -⟩ := h
      show c.Start ≤ _
      omega
    obtain ⟨l', freed, hloop, hadded⟩ := addLoop_spec hNew fuel [] hsort hcur hfuel
    rw [hloop]
    exact ⟨_, _, _, rfl, rfl, hadded⟩

/-! ## Any loads -/

/-- The modules that have been loaded, the last one first, and the list. -/
structure State where
  loads : List Module
  List : CursorList Module

/-- A call of `ModuleAdd`. -/
def step (W : ℕ) (s : State) (c : Load) : Option State :=
  (moduleAdd W (s.List.toList.length + 1) c s.List).map fun (status, l', _) =>
    ⟨if status.ntSuccess then newModule W c :: s.loads else s.loads, l'⟩

/-- `ModuleInitialize`, before its first call of `ModuleAdd`. -/
def init : State := ⟨[], .empty⟩

/-- A module that has been loaded, and that no later one has overlapped. -/
def Live (loads : List Module) (m : Module) : Prop :=
  ∃ later earlier, loads = later ++ m :: earlier ∧ ∀ m' ∈ later, ¬ Overlap m' m

/-- **The list reflects the latest loads.** -/
structure Reflects (W : ℕ) (s : State) : Prop where
  sorted : Sorted s.List.toList
  cursor : CursorValid s.List
  add : ∀ c, NoWrap W c → ∀ fuel, s.List.toList.length < fuel → ∃ status l' freed,
    moduleAdd W fuel c s.List = some (status, l', freed) ∧ Outcome W c s.List status l' freed
  lookup : ∀ Address Name Offset, moduleLookup s.List Address = some (Name, Offset) ↔
    ∃ m, Live s.loads m ∧ m.Holds Address ∧ Name = m.Name ∧ Offset = Address - m.Start

theorem live_cons {loads : List Module} :
    Live (New :: loads) m ↔ m = New ∨ ¬ Overlap New m ∧ Live loads m := by
  constructor
  · rintro ⟨later, earlier, heq, hlater⟩
    cases later with
    | nil => exact .inl (List.cons.inj heq).1.symm
    | cons x later =>
      obtain ⟨rfl, htail⟩ := List.cons.inj heq
      exact .inr ⟨hlater _ List.mem_cons_self, later, earlier, htail,
        fun m' hm' => hlater m' (List.mem_cons_of_mem _ hm')⟩
  · rintro (rfl | ⟨hover, later, earlier, rfl, hlater⟩)
    · exact ⟨[], loads, rfl, by simp⟩
    · refine ⟨New :: later, earlier, rfl, fun m' hm' => ?_⟩
      obtain rfl | hm' := List.mem_cons.mp hm'
      · exact hover
      · exact hlater m' hm'

/-- An address is in one range at most. -/
theorem Sorted.unique {l : List Module} (h : Sorted l) {m' : Module} (hm : m ∈ l) (hm' : m' ∈ l)
    {Address : ℕ} (hold : m.Holds Address) (hold' : m'.Holds Address) : m = m' := by
  obtain ⟨i, hi, rfl⟩ := List.getElem_of_mem hm
  obtain ⟨j, hj, rfl⟩ := List.getElem_of_mem hm'
  have hpair := List.pairwise_iff_getElem.mp h.apart
  obtain ⟨hstart, hend⟩ := hold
  obtain ⟨hstart', hend'⟩ := hold'
  obtain hlt | heq | hlt := Nat.lt_trichotomy i j
  · have := hpair i j hi hj hlt
    omega
  · subst heq
    rfl
  · have := hpair j i hj hi hlt
    omega

theorem moduleLookup_eq_some (h : Sorted l.toList) {Address Offset : ℕ} {Name : Text} :
    moduleLookup l Address = some (Name, Offset) ↔
      ∃ m ∈ l.toList, m.Holds Address ∧ Name = m.Name ∧ Offset = Address - m.Start := by
  unfold moduleLookup
  have hfound : ∀ m, l.toList.find? (fun m => decide (m.Holds Address)) = some m →
      m ∈ l.toList ∧ m.Holds Address := by
    intro m hfind
    have hold := List.find?_some hfind
    exact ⟨List.mem_of_find?_eq_some hfind, by simpa using hold⟩
  constructor
  · intro hlookup
    obtain ⟨m, hfind, heq⟩ := Option.map_eq_some_iff.mp hlookup
    obtain ⟨rfl, rfl⟩ := Prod.mk.inj heq
    exact ⟨m, (hfound m hfind).1, (hfound m hfind).2, rfl, rfl⟩
  · rintro ⟨m, hm, hold, rfl, rfl⟩
    have hsome : (l.toList.find? fun m => decide (m.Holds Address)).isSome := by
      rw [List.find?_isSome]
      exact ⟨m, hm, decide_eq_true hold⟩
    obtain ⟨m', hfind⟩ := Option.isSome_iff_exists.mp hsome
    obtain rfl := h.unique hm (hfound m' hfind).1 hold (hfound m' hfind).2
    rw [hfind]
    rfl

/-- The invariant of all runs. -/
structure Inv (s : State) : Prop where
  sorted : Sorted s.List.toList
  cursor : CursorValid s.List
  live : ∀ m, m ∈ s.List.toList ↔ Live s.loads m

theorem inv_init : Inv init := by
  refine ⟨⟨.nil, by simp [init]⟩, .inr rfl, fun m => ?_⟩
  simp [init, Live]

theorem Inv.step {W : ℕ} {s t : State} (h : Inv s) {c : Load} (hc : NoWrap W c)
    (hs : step W s c = some t) : Inv t := by
  obtain ⟨status, l', freed, hadd, hout⟩ := moduleAdd_spec hc h.sorted h.cursor (Nat.lt_succ_self _)
  rw [Modules.step, hadd] at hs
  obtain rfl := Option.some.inj hs
  unfold Outcome at hout
  split_ifs at hout with hallocate
  · obtain ⟨rfl, ⟨A, B, hfilter, hl', hA, hB⟩, hcur, -⟩ := hout
    have hNew : (newModule W c).Start ≤ (newModule W c).End := by
      rw [newModule_end hc]
      obtain ⟨hsize, -⟩ := hc
      show c.Start ≤ _
      omega
    have hsort : Sorted (A ++ B) := by
      rw [← hfilter]
      exact ⟨h.sorted.apart.sublist List.filter_sublist,
        fun x hx => h.sorted.nonempty x (List.mem_of_mem_filter hx)⟩
    refine ⟨?_, .inl ?_, fun m => ?_⟩
    · show Sorted l'.toList
      rw [hl']
      exact hsort.insert hNew hA hB
    · intro hnil
      rw [show l'.After = [] from hnil] at hcur
      cases hcur
    · show m ∈ l'.toList ↔ Live (newModule W c :: s.loads) m
      have hmem : m ∈ A ++ B ↔ m ∈ s.List.toList ∧ ¬ Overlap (newModule W c) m := by
        rw [← hfilter, List.mem_filter, decide_eq_true_iff]
      rw [live_cons, ← h.live m, hl', List.mem_append, List.mem_cons, or_left_comm, ← List.mem_append, hmem,
        and_comm]
  · obtain ⟨rfl, rfl, rfl⟩ := hout
    exact ⟨h.sorted, h.cursor, h.live⟩

/-- **The module list reflects the latest loads**, after any calls of `ModuleAdd`. -/
theorem reflects_of_reaches (W : ℕ) {s : State} (h : Reaches (step W) (fun _ c => NoWrap W c) init s) :
    Reflects W s := by
  have hinv : Inv s := h.invariant inv_init fun s c t hs hc hstep => hs.step hc hstep
  refine ⟨hinv.sorted, hinv.cursor, fun c hc fuel hfuel => ?_, fun Address Name Offset => ?_⟩
  · exact moduleAdd_spec hc hinv.sorted hinv.cursor hfuel
  · rw [moduleLookup_eq_some hinv.sorted]
    exact exists_congr fun m => by rw [hinv.live m]

instance (W : ℕ) (c : Load) : Decidable (NoWrap W c) := inferInstanceAs (Decidable (_ ∧ _))

/-- Four drivers are loaded; the last but one could not be recorded, and the last overlaps two. -/
def fourLoads : List Load :=
  [⟨"Xen.sys".toList, 4096, 4096, true⟩, ⟨"XENBUS.sys".toList, 20480, 8192, true⟩,
    ⟨"xenfilt.sys".toList, 40960, 4096, false⟩, ⟨"xenvif.sys".toList, 6000, 20000, true⟩]

theorem reflects_of_reaches_fourLoads : ∃ s : State,
    guardedRun (step 4294967296) (fun _ c => NoWrap 4294967296 c) init fourLoads = some s ∧
    s.List.toList.map (fun m => (m.Start, m.End)) = [(6000, 25999)] ∧ Reflects 4294967296 s := by
  obtain ⟨s, hs, hlist⟩ := (Option.any_eq_true (fun s : State =>
      decide (s.List.toList.map (fun m => (m.Start, m.End)) = [(6000, 25999)]))
    (guardedRun (step 4294967296) (fun _ c => NoWrap 4294967296 c) init fourLoads)).mp (by decide +kernel)
  exact ⟨s, hs, of_decide_eq_true hlist, reflects_of_reaches 4294967296 (reaches_of_guardedRun hs)⟩

end XenBus.Xen.Modules
