import XenBus.Status
import Mathlib.Data.List.Basic
import Mathlib.Data.Nat.Find
import Mathlib.Logic.Function.Basic

/-!
# Named pages

`DriverGetNamedPages` (`xen/driver.c`): pages whose PFNs are kept in the registry, in the values `Name_0`,
`Name_1` and so on, so that they are found again when the driver is loaded the next time. Where there are no
values the pages are allocated and the values are written one after the other.

The rollback of `__DriverSetPfnArray` uses the variable that holds the status: it returns success when it
had written a value. `accounted_iff_clean` says when the pages are recorded or given back nevertheless, and
`unrecorded_pages` is a call whose second update fails: it returns pages that the registry does not have.
-/

namespace XenBus.Xen.NamedPages

/-! ## Data -/

/-- A value of the registry: the length of a binary value and the PFN in it, or another type. -/
inductive Value
  | binary (Length Pfn : ℕ)
  | other
  deriving DecidableEq

/-- The values `Name_Index`. -/
abbrev Registry := ℕ → Option Value

/-- The outcomes of the calls: of the allocation of the MDL, of the queries of the values (`false`: a failure
other than `STATUS_OBJECT_NAME_NOT_FOUND`), of `MmAllocatePagesForMdlEx`, of the updates, and of
`MmMapLockedPagesSpecifyCache`. -/
structure Calls where
  mdl : Bool
  query : ℕ → Bool
  pages : Option (List ℕ)
  update : ℕ → Bool
  mapped : Bool

/-- The PFNs of the MDL that a call returns, the registry after it, and what it has done: the pages that it
has allocated, those that it has freed, and the indices of the values that it has written. -/
structure Result where
  Pfns : Option (List ℕ)
  registry : Registry
  allocated : List ℕ
  freed : List ℕ
  written : List ℕ

/-! ## The functions -/

/-- The loop `while (--Index >= 0)` of `__DriverSetPfnArray`: the status is that of `RtlStringCbPrintfA`. -/
def rollback (status : Status) : ℕ → Registry → Status × Registry
  | 0, registry => (status, registry)
  | Index + 1, registry => rollback .success Index (Function.update registry Index none)

/-- `__DriverSetPfnArray` from `Index` on: the status, the registry, and how many values were written. -/
def DriverSetPfnArray (update : ℕ → Bool) (registry : Registry) (Index : ℕ) :
    List ℕ → Status × Registry × ℕ
  | [] => (.success, registry, Index)
  | Pfn :: PfnArray =>
    if update Index then
      DriverSetPfnArray update (Function.update registry Index (some (.binary 8 Pfn))) (Index + 1) PfnArray
    else ((rollback .unsuccessful Index registry).1, (rollback .unsuccessful Index registry).2, Index)

/-- `__DriverAllocatePfnArray`. The number of bytes is computed as a `ULONG`. -/
def DriverAllocatePfnArray (calls : Calls) (Count : ℕ) (registry : Registry) : Status × Result :=
  let TotalBytes := 4096 * Count % 4294967296
  match calls.pages with
  | none => (.noMemory, ⟨none, registry, [], [], []⟩)
  | some pages =>
    let pages := pages.take (TotalBytes / 4096)
    if pages.length * 4096 < TotalBytes then (.noMemory, ⟨none, registry, pages, pages, []⟩)
    else
      let PfnArray := (List.range Count).map fun Index => pages.getD Index 0
      let (status, registry, written) := DriverSetPfnArray calls.update registry 0 PfnArray
      if status.ntSuccess then (.success, ⟨some PfnArray, registry, pages, [], List.range written⟩)
      else (status, ⟨none, registry, pages, pages, List.range written⟩)

/-- `__DriverGetPfnArray` from `Index` on. -/
def DriverGetPfnArray (query : ℕ → Bool) (registry : Registry) : ℕ → ℕ → Status × List ℕ
  | _, 0 => (.success, [])
  | Index, Count + 1 =>
    if query Index then
      match registry Index with
      | none => (.objectNameNotFound, [])
      | some .other => (.invalidParameter, [])
      | some (.binary Length Pfn) =>
        if Length ≠ 8 then (.unsuccessful, [])
        else ((DriverGetPfnArray query registry (Index + 1) Count).1,
          Pfn :: (DriverGetPfnArray query registry (Index + 1) Count).2)
    else (.noMemory, [])

/-- `DriverGetNamedPages`. -/
def DriverGetNamedPages (calls : Calls) (Count : ℕ) (registry : Registry) : Result :=
  if calls.mdl then
    match DriverGetPfnArray calls.query registry 0 Count with
    | (.success, Pfns) => ⟨if calls.mapped then some Pfns else none, registry, [], [], []⟩
    | (.objectNameNotFound, _) =>
      let result := (DriverAllocatePfnArray calls Count registry).2
      { result with Pfns := if calls.mapped then result.Pfns else none }
    | _ => ⟨none, registry, [], [], []⟩
  else ⟨none, registry, [], [], []⟩

/-! ## What is expected -/

/-- The pages are recorded or given back. -/
structure Accounted (calls : Calls) (Count : ℕ) (registry : Registry) : Prop where
  returned : ∀ Pfns, (DriverGetNamedPages calls Count registry).Pfns = some Pfns → Pfns.length = Count ∧
    (∀ Index (h : Index < Pfns.length),
      (DriverGetNamedPages calls Count registry).registry Index = some (.binary 8 Pfns[Index])) ∧
    ∀ calls' : Calls, calls'.mdl = true → (∀ Index < Count, calls'.query Index = true) →
      calls'.mapped = true →
        (DriverGetNamedPages calls' Count (DriverGetNamedPages calls Count registry).registry).Pfns = some Pfns
  refused : (DriverGetNamedPages calls Count registry).Pfns = none →
    (∀ Pfn ∈ (DriverGetNamedPages calls Count registry).allocated,
      Pfn ∈ (DriverGetNamedPages calls Count registry).freed ∨
        ∃ Index ∈ (DriverGetNamedPages calls Count registry).written,
          (DriverGetNamedPages calls Count registry).registry Index = some (.binary 8 Pfn)) ∧
    ∀ Index ∈ (DriverGetNamedPages calls Count registry).written,
      (DriverGetNamedPages calls Count registry).registry Index = none

/-- The value is there, with a PFN in it. -/
def Readable (calls : Calls) (registry : Registry) (Index : ℕ) : Prop :=
  calls.query Index = true ∧ ∃ Pfn, registry Index = some (.binary 8 Pfn)

/-- The first value that cannot be read is not there. -/
def Fresh (calls : Calls) (Count : ℕ) (registry : Registry) : Prop :=
  ∃ Index < Count, (∀ i < Index, Readable calls registry i) ∧ calls.query Index = true ∧
    registry Index = none

/-- All pages have been allocated. -/
def Full (calls : Calls) (Count : ℕ) : Prop := ∃ pages, calls.pages = some pages ∧ Count ≤ pages.length

/-- Where pages are allocated and the first value is written, all of them are, and the pages are mapped. -/
def Clean (calls : Calls) (Count : ℕ) (registry : Registry) : Prop :=
  calls.mdl = true → Fresh calls Count registry → Full calls Count → calls.update 0 = true →
    (∀ Index < Count, calls.update Index = true) ∧ calls.mapped = true

variable {calls : Calls} {Count : ℕ} {registry : Registry}

/-! ## The loops -/

theorem rollback_registry (status : Status) (n : ℕ) (registry : Registry) :
    (rollback status n registry).2 = fun Index => if Index < n then none else registry Index := by
  induction n generalizing status registry with
  | zero => simp [rollback]
  | succ n ih =>
    rw [rollback, ih]
    funext Index
    by_cases hlt : Index < n
    · rw [if_pos hlt, if_pos (by omega)]
    · by_cases heq : Index = n
      · subst heq
        rw [if_neg hlt, if_pos (by omega), Function.update_self]
      · rw [if_neg hlt, if_neg (by omega), Function.update_of_ne heq]

theorem rollback_success (n : ℕ) (registry : Registry) : (rollback .success n registry).1 = .success := by
  induction n generalizing registry with
  | zero => rfl
  | succ n ih => exact ih _

/-- **The status of a rollback**: that of the failed update if nothing had been written, and success
otherwise. -/
theorem rollback_status (status : Status) (n : ℕ) (registry : Registry) :
    (rollback status n registry).1 = if n = 0 then status else .success := by
  cases n with
  | zero => rfl
  | succ n => exact rollback_success n _

/-- The values from `Index` on, after they have been written. -/
def written (registry : Registry) (Index : ℕ) (PfnArray : List ℕ) : Registry := fun i =>
  if i < Index then registry i
  else match PfnArray[i - Index]? with
    | some Pfn => some (.binary 8 Pfn)
    | none => registry i

theorem written_cons (registry : Registry) (Index Pfn : ℕ) (PfnArray : List ℕ) :
    written (Function.update registry Index (some (.binary 8 Pfn))) (Index + 1) PfnArray =
      written registry Index (Pfn :: PfnArray) := by
  funext i
  unfold written
  rcases Nat.lt_trichotomy i Index with hlt | rfl | hgt
  · rw [if_pos (by omega), if_pos hlt, Function.update_of_ne (by omega)]
  · rw [if_pos (by omega), if_neg (by omega), Function.update_self, Nat.sub_self]
    rfl
  · rw [if_neg (by omega), if_neg (by omega), Function.update_of_ne (by omega),
      show i - Index = i - (Index + 1) + 1 by omega, List.getElem?_cons_succ]

theorem set_success {update : ℕ → Bool} {Index : ℕ} {PfnArray : List ℕ}
    (h : ∀ i < PfnArray.length, update (Index + i) = true) :
    DriverSetPfnArray update registry Index PfnArray =
      (.success, written registry Index PfnArray, Index + PfnArray.length) := by
  induction PfnArray generalizing registry Index with
  | nil =>
    have hwritten : written registry Index [] = registry := by
      funext i
      simp [written]
    rw [hwritten]
    rfl
  | cons Pfn PfnArray ih =>
    have hhead : update Index = true := h 0 (by simp)
    have hrest : ∀ i < PfnArray.length, update (Index + 1 + i) = true := fun i hi => by
      rw [show Index + 1 + i = Index + (i + 1) by omega]
      exact h (i + 1) (by simpa using hi)
    rw [DriverSetPfnArray, if_pos hhead, ih hrest, written_cons, List.length_cons,
      show Index + 1 + PfnArray.length = Index + (PfnArray.length + 1) by omega]

/-- The first update that fails. -/
theorem set_failure {update : ℕ → Bool} {Index n : ℕ} {PfnArray : List ℕ} (hn : n < PfnArray.length)
    (h : ∀ i < n, update (Index + i) = true) (hfails : update (Index + n) = false) :
    DriverSetPfnArray update registry Index PfnArray =
      (if Index + n = 0 then .unsuccessful else .success,
        fun i => if i < Index + n then none else registry i, Index + n) := by
  induction n generalizing registry Index PfnArray with
  | zero =>
    cases PfnArray with
    | nil => simp at hn
    | cons Pfn PfnArray =>
      rw [Nat.add_zero] at hfails
      rw [DriverSetPfnArray, if_neg (by simp [hfails]), rollback_status, rollback_registry, Nat.add_zero]
  | succ n ih =>
    cases PfnArray with
    | nil => simp at hn
    | cons Pfn PfnArray =>
      have hhead : update Index = true := h 0 (by omega)
      have hrest : ∀ i < n, update (Index + 1 + i) = true := fun i hi => by
        rw [show Index + 1 + i = Index + (i + 1) by omega]
        exact h (i + 1) (by omega)
      have hfails' : update (Index + 1 + n) = false := by
        rwa [show Index + 1 + n = Index + (n + 1) by omega]
      rw [DriverSetPfnArray, if_pos hhead, ih (by simpa using hn) hrest hfails',
        show Index + 1 + n = Index + (n + 1) by omega]
      simp only [Prod.mk.injEq, true_and, and_true]
      funext i
      by_cases hi : i < Index + (n + 1)
      · rw [if_pos hi, if_pos hi]
      · rw [if_neg hi, if_neg hi, Function.update_of_ne (by omega)]

theorem forall_readable_succ (calls : Calls) (registry : Registry) (Index n : ℕ) :
    (∀ i < n + 1, Readable calls registry (Index + i)) ↔
      Readable calls registry Index ∧ ∀ i < n, Readable calls registry (Index + 1 + i) := by
  rw [Nat.forall_lt_succ_left]
  simp only [Nat.add_zero, Nat.add_assoc, Nat.add_comm 1]

/-- The values are read if and only if all of them are readable. -/
theorem get_success_iff (calls : Calls) (registry : Registry) (Index Count : ℕ) :
    (DriverGetPfnArray calls.query registry Index Count).1 = .success ↔
      ∀ i < Count, Readable calls registry (Index + i) := by
  induction Count generalizing Index with
  | zero => simp [DriverGetPfnArray]
  | succ Count ih =>
    rw [forall_readable_succ, ← ih, DriverGetPfnArray]
    unfold Readable
    split_ifs with hquery
    · split
      · simp [*]
      · simp [*]
      · split_ifs with hLength
        · simp [*]
        · simp only [ne_eq, Decidable.not_not] at hLength
          simp [*]
    · simp [hquery]

/-- A value is missing if and only if the first that is not readable is not there. -/
theorem get_fresh_iff (calls : Calls) (registry : Registry) (Index Count : ℕ) :
    (DriverGetPfnArray calls.query registry Index Count).1 = .objectNameNotFound ↔
      ∃ n < Count, (∀ i < n, Readable calls registry (Index + i)) ∧ calls.query (Index + n) = true ∧
        registry (Index + n) = none := by
  induction Count generalizing Index with
  | zero => simp [DriverGetPfnArray]
  | succ Count ih =>
    have hsucc : (∃ n < Count + 1, (∀ i < n, Readable calls registry (Index + i)) ∧
          calls.query (Index + n) = true ∧ registry (Index + n) = none) ↔
        calls.query Index = true ∧ registry Index = none ∨ Readable calls registry Index ∧
          ∃ n < Count, (∀ i < n, Readable calls registry (Index + 1 + i)) ∧
            calls.query (Index + 1 + n) = true ∧ registry (Index + 1 + n) = none := by
      rw [Nat.exists_lt_succ_left]
      simp only [forall_readable_succ, Nat.not_lt_zero, false_implies, implies_true, true_and, Nat.add_zero]
      refine or_congr_right ⟨?_, ?_⟩
      · rintro ⟨n, hn, ⟨hread, hreads⟩, hnone⟩
        exact ⟨hread, n, hn, hreads, by rwa [show Index + 1 + n = Index + (n + 1) by omega]⟩
      · rintro ⟨hread, n, hn, hreads, hnone⟩
        exact ⟨n, hn, ⟨hread, hreads⟩, by rwa [show Index + (n + 1) = Index + 1 + n by omega]⟩
    rw [hsucc, ← ih, DriverGetPfnArray]
    unfold Readable
    split_ifs with hquery
    · split
      · simp [*]
      · simp [*]
      · split_ifs with hLength
        · simp [*]
        · simp only [ne_eq, Decidable.not_not] at hLength
          simp [*]
    · simp [hquery]

/-- What has been read. -/
theorem get_length (calls : Calls) (registry : Registry) {Index Count : ℕ}
    (h : ∀ i < Count, Readable calls registry (Index + i)) :
    (DriverGetPfnArray calls.query registry Index Count).2.length = Count ∧
      ∀ i (hi : i < (DriverGetPfnArray calls.query registry Index Count).2.length),
        registry (Index + i) =
          some (.binary 8 (DriverGetPfnArray calls.query registry Index Count).2[i]) := by
  induction Count generalizing Index with
  | zero => simp [DriverGetPfnArray]
  | succ Count ih =>
    obtain ⟨⟨hquery, Pfn, hPfn⟩, hrest⟩ := (forall_readable_succ calls registry Index Count).mp h
    obtain ⟨hlength, hvalues⟩ := ih hrest
    have heq : (DriverGetPfnArray calls.query registry Index (Count + 1)).2 =
        Pfn :: (DriverGetPfnArray calls.query registry (Index + 1) Count).2 := by
      rw [DriverGetPfnArray, if_pos hquery, hPfn]
      rfl
    simp only [heq]
    refine ⟨by rw [List.length_cons, hlength], fun i hi => ?_⟩
    cases i with
    | zero => exact hPfn
    | succ i =>
      rw [List.getElem_cons_succ, show Index + (i + 1) = Index + 1 + i by omega]
      exact hvalues i (by simpa using hi)

/-! ## The allocation -/

/-- A call that has neither pages nor values to account for. -/
def nothing (registry : Registry) : Result := ⟨none, registry, [], [], []⟩

theorem allocate_of_not_full (hCount : 4096 * Count < 4294967296) (h : ¬ Full calls Count) :
    ∃ pages, (DriverAllocatePfnArray calls Count registry).2 = ⟨none, registry, pages, pages, []⟩ := by
  unfold DriverAllocatePfnArray
  cases hpages : calls.pages with
  | none => exact ⟨[], rfl⟩
  | some pages =>
    have hlt : pages.length < Count := by
      by_contra hge
      exact h ⟨pages, hpages, by omega⟩
    refine ⟨pages.take (4096 * Count % 4294967296 / 4096), ?_⟩
    simp only
    rw [if_pos (by rw [List.length_take]; omega)]

/-- The array of the MDL. -/
theorem pfnArray_eq {pages : List ℕ} (hle : Count ≤ pages.length) :
    ((List.range Count).map fun Index => (pages.take Count).getD Index 0) = pages.take Count := by
  refine List.ext_getElem (by simp [hle]) fun i hi hi' => ?_
  rw [List.getElem_map, List.getElem_range, List.getD_eq_getElem?_getD, List.getElem?_eq_getElem hi',
    Option.getD_some]

theorem allocate_of_full (hCount : 4096 * Count < 4294967296) (h : Full calls Count) :
    ∃ P : List ℕ, P.length = Count ∧ (DriverAllocatePfnArray calls Count registry).2 =
      let set := DriverSetPfnArray calls.update registry 0 P
      if set.1.ntSuccess then ⟨some P, set.2.1, P, [], List.range set.2.2⟩
      else ⟨none, set.2.1, P, P, List.range set.2.2⟩ := by
  obtain ⟨pages, hpages, hle⟩ := h
  have hbytes : 4096 * Count % 4294967296 = 4096 * Count := Nat.mod_eq_of_lt hCount
  have hlength : (pages.take Count).length = Count := by simp [hle]
  refine ⟨pages.take Count, hlength, ?_⟩
  unfold DriverAllocatePfnArray
  rw [hpages]
  simp only [hbytes, Nat.mul_div_cancel_left Count (by decide : 0 < 4096), hlength, pfnArray_eq hle]
  rw [if_neg (by omega)]
  split_ifs <;> rfl

/-- The first update that fails, if one does. -/
theorem exists_first_failure {update : ℕ → Bool} (h : ¬ ∀ i < Count, update i = true) :
    ∃ n < Count, update n = false ∧ ∀ i < n, update i = true := by
  have hex : ∃ n, n < Count ∧ update n = false := by
    by_contra hnone
    refine h fun i hi => ?_
    by_contra hi'
    exact hnone ⟨i, hi, by simpa using hi'⟩
  classical
  refine ⟨Nat.find hex, (Nat.find_spec hex).1, (Nat.find_spec hex).2, fun i hi => ?_⟩
  by_contra hi'
  exact Nat.find_min hex hi ⟨Nat.lt_trans hi (Nat.find_spec hex).1, by simpa using hi'⟩

/-! ## The calls -/

theorem named_of_readable (hmdl : calls.mdl = true) (h : ∀ i < Count, Readable calls registry i) :
    DriverGetNamedPages calls Count registry = { nothing registry with
      Pfns := if calls.mapped then some (DriverGetPfnArray calls.query registry 0 Count).2 else none } := by
  have hread := (get_success_iff calls registry 0 Count).mpr (by simpa using h)
  unfold DriverGetNamedPages
  generalize DriverGetPfnArray calls.query registry 0 Count = get at hread ⊢
  obtain ⟨status, Pfns⟩ := get
  obtain rfl : status = .success := hread
  rw [if_pos hmdl]
  rfl

theorem named_of_fresh (hmdl : calls.mdl = true) (h : Fresh calls Count registry) :
    DriverGetNamedPages calls Count registry = { (DriverAllocatePfnArray calls Count registry).2 with
      Pfns := if calls.mapped then (DriverAllocatePfnArray calls Count registry).2.Pfns else none } := by
  have hfresh := (get_fresh_iff calls registry 0 Count).mpr (by simpa [Fresh] using h)
  unfold DriverGetNamedPages
  generalize DriverGetPfnArray calls.query registry 0 Count = get at hfresh ⊢
  obtain ⟨status, Pfns⟩ := get
  obtain rfl : status = .objectNameNotFound := hfresh
  rw [if_pos hmdl]

theorem named_otherwise (h : ¬ (calls.mdl = true ∧ ∀ i < Count, Readable calls registry i))
    (h' : ¬ (calls.mdl = true ∧ Fresh calls Count registry)) :
    DriverGetNamedPages calls Count registry = nothing registry := by
  unfold DriverGetNamedPages
  by_cases hmdl : calls.mdl = true
  · rw [if_pos hmdl]
    have hread := mt (get_success_iff calls registry 0 Count).mp
      fun hall => h ⟨hmdl, by simpa using hall⟩
    have hfresh := mt (get_fresh_iff calls registry 0 Count).mp
      fun hex => h' ⟨hmdl, by simpa [Fresh] using hex⟩
    generalize DriverGetPfnArray calls.query registry 0 Count = get at hread hfresh ⊢
    obtain ⟨status, Pfns⟩ := get
    cases status
    case success => exact absurd rfl hread
    case objectNameNotFound => exact absurd rfl hfresh
    all_goals rfl
  · rw [if_neg hmdl]
    rfl

/-! ## The result -/

/-- Values with the PFNs are read back. -/
theorem read_back {Pfns : List ℕ} (hlength : Pfns.length = Count)
    (hvalues : ∀ Index (h : Index < Pfns.length), registry Index = some (.binary 8 Pfns[Index]))
    (hmdl : calls.mdl = true) (hquery : ∀ Index < Count, calls.query Index = true)
    (hmapped : calls.mapped = true) : (DriverGetNamedPages calls Count registry).Pfns = some Pfns := by
  have hread : ∀ i < Count, Readable calls registry i := fun i hi =>
    ⟨hquery i hi, Pfns[i], hvalues i (by omega)⟩
  rw [named_of_readable hmdl hread]
  simp only [hmapped, if_true, Option.some.injEq]
  obtain ⟨hlength', hvalues'⟩ := get_length calls registry
    (show ∀ i < Count, Readable calls registry (0 + i) by simpa using hread)
  refine List.ext_getElem (by rw [hlength', hlength]) fun i hi hi' => ?_
  have hsame := (hvalues' i hi).symm.trans ((congrArg registry (Nat.zero_add i)).trans (hvalues i hi'))
  simpa using hsame

theorem accounted_nothing (h : DriverGetNamedPages calls Count registry = nothing registry) :
    Accounted calls Count registry := by
  constructor
  · intro Pfns hPfns
    rw [h] at hPfns
    cases hPfns
  · rw [h]
    simp [nothing]

/-- Pages that are found in the registry. -/
theorem accounted_of_readable (hmdl : calls.mdl = true) (h : ∀ i < Count, Readable calls registry i) :
    Accounted calls Count registry := by
  have heq := named_of_readable hmdl h
  have hregistry : (DriverGetNamedPages calls Count registry).registry = registry := by
    rw [heq]
    rfl
  obtain ⟨hlength, hvalues⟩ := get_length calls registry
    (show ∀ i < Count, Readable calls registry (0 + i) by simpa using h)
  constructor
  · intro Pfns hPfns
    rw [heq] at hPfns
    obtain ⟨-, rfl⟩ : calls.mapped = true ∧ (DriverGetPfnArray calls.query registry 0 Count).2 = Pfns := by
      simpa using hPfns
    rw [hregistry]
    have hvalues' : ∀ i (hi : i < (DriverGetPfnArray calls.query registry 0 Count).2.length),
        registry i = some (.binary 8 (DriverGetPfnArray calls.query registry 0 Count).2[i]) := fun i hi => by
      simpa using hvalues i hi
    exact ⟨hlength, hvalues', fun _ hmdl' hquery hmapped =>
      read_back hlength hvalues' hmdl' hquery hmapped⟩
  · rw [heq]
    simp [nothing]

theorem written_getElem {P : List ℕ} {i : ℕ} (hi : i < P.length) :
    written registry 0 P i = some (.binary 8 P[i]) := by
  rw [written, if_neg (by omega), Nat.sub_zero, List.getElem?_eq_getElem hi]

/-- Pages that are allocated and recorded. -/
theorem accounted_of_recorded {P : List ℕ} (hlength : P.length = Count)
    (h : DriverGetNamedPages calls Count registry = ⟨some P, written registry 0 P, P, [], List.range Count⟩) :
    Accounted calls Count registry := by
  have hvalues : ∀ i (hi : i < P.length), written registry 0 P i = some (.binary 8 P[i]) :=
    fun i hi => written_getElem hi
  constructor
  · intro Pfns hPfns
    rw [h] at hPfns
    obtain rfl := Option.some.inj hPfns
    rw [h]
    exact ⟨hlength, hvalues, fun _ hmdl hquery hmapped => read_back hlength hvalues hmdl hquery hmapped⟩
  · rw [h]
    simp

/-- Pages that have been allocated and are not recorded are given back, and no value stays. -/
theorem accounted_of_freed {pages : List ℕ}
    (h : DriverGetNamedPages calls Count registry = ⟨none, registry, pages, pages, []⟩) :
    Accounted calls Count registry := by
  constructor
  · intro Pfns hPfns
    rw [h] at hPfns
    cases hPfns
  · rw [h]
    exact fun _ => ⟨fun _ hPfn => .inl hPfn, by simp⟩

/-- **The pages are accounted for if and only if** the first of the updates fails, or none of them and the
mapping neither. -/
theorem accounted_iff_clean (hpos : 0 < Count) (hCount : 4096 * Count < 4294967296) :
    Accounted calls Count registry ↔ Clean calls Count registry := by
  by_cases hread : calls.mdl = true ∧ ∀ i < Count, Readable calls registry i
  · refine iff_of_true (accounted_of_readable hread.1 hread.2) fun _ hfresh => ?_
    obtain ⟨n, hn, -, -, hnone⟩ := hfresh
    obtain ⟨-, Pfn, hPfn⟩ := hread.2 n hn
    rw [hnone] at hPfn
    cases hPfn
  by_cases hfresh : calls.mdl = true ∧ Fresh calls Count registry
  swap
  · exact iff_of_true (accounted_nothing (named_otherwise hread hfresh))
      fun hmdl hfresh' => absurd ⟨hmdl, hfresh'⟩ hfresh
  obtain ⟨hmdl, hfresh⟩ := hfresh
  have heq := named_of_fresh hmdl hfresh
  by_cases hfull : Full calls Count
  swap
  · obtain ⟨pages, hpages⟩ := @allocate_of_not_full calls Count registry hCount hfull
    rw [hpages, ite_self] at heq
    exact iff_of_true (accounted_of_freed heq) fun _ _ hfull' => absurd hfull' hfull
  obtain ⟨P, hlength, hallocate⟩ := @allocate_of_full calls Count registry hCount hfull
  rw [hallocate] at heq
  by_cases hupdates : ∀ i < Count, calls.update i = true
  · rw [set_success (by simpa [hlength] using hupdates)] at heq
    cases hmapped : calls.mapped with
    | true =>
      refine iff_of_true (accounted_of_recorded hlength ?_) fun _ _ _ _ => ⟨hupdates, hmapped⟩
      rw [heq]
      simp [hmapped, Status.ntSuccess, hlength]
    | false =>
      -- The values that have been written stay, although no MDL is returned.
      have hresult : DriverGetNamedPages calls Count registry =
          ⟨none, written registry 0 P, P, [], List.range Count⟩ := by
        rw [heq]
        simp [hmapped, Status.ntSuccess, hlength]
      refine iff_of_false (fun haccounted => ?_) fun hclean => ?_
      · have hrefused := (haccounted.refused (by rw [hresult])).2 0 (by rw [hresult]; simpa using hpos)
        rw [hresult] at hrefused
        exact absurd ((written_getElem (by omega)).symm.trans hrefused) (by simp)
      · have hmapped' := (hclean hmdl hfresh hfull (hupdates 0 hpos)).2
        rw [hmapped] at hmapped'
        cases hmapped'
  · obtain ⟨n, hn, hfails, hbefore⟩ := exists_first_failure hupdates
    rw [set_failure (n := n) (by omega) (by simpa using hbefore) (by simpa using hfails)] at heq
    rcases Nat.eq_zero_or_pos n with rfl | hn'
    · refine iff_of_true (@accounted_of_freed calls Count registry P ?_) fun _ _ _ hupdate => ?_
      · rw [heq]
        simp [Status.ntSuccess]
      · rw [hfails] at hupdate
        cases hupdate
    · -- The rollback has made a success of the failure.
      have hresult : DriverGetNamedPages calls Count registry =
          ⟨if calls.mapped then some P else none, fun i => if i < n then none else registry i, P, [],
            List.range n⟩ := by
        rw [heq]
        simp [Status.ntSuccess, Nat.ne_of_gt hn']
      refine iff_of_false (fun haccounted => ?_) fun hclean => ?_
      · cases hmapped : calls.mapped with
        | true =>
          have hreturned := (haccounted.returned P (by rw [hresult, hmapped]; rfl)).2.1 0 (by omega)
          rw [hresult] at hreturned
          simp [hn'] at hreturned
        | false =>
          obtain ⟨Pfn, hPfn⟩ := List.exists_mem_of_length_pos (by omega : 0 < P.length)
          have hrefused := (haccounted.refused (by rw [hresult, hmapped]; rfl)).1 Pfn (by rw [hresult]; exact hPfn)
          rw [hresult] at hrefused
          obtain hfreed | ⟨i, hi, hvalue⟩ := hrefused
          · simp at hfreed
          · simp [List.mem_range.mp hi] at hvalue
      · have hall := (hclean hmdl hfresh hfull (hbefore 0 hn')).1 n hn
        rw [hfails] at hall
        cases hall

/-! ## Runs -/

/-- All calls succeed, with two pages. -/
def succeeding : Calls := ⟨true, fun _ => true, some [17, 40], fun _ => true, true⟩

/-- The second update fails. -/
def secondFails : Calls := { succeeding with update := fun Index => Index ≠ 1 }

/-- Two pages are allocated and recorded. -/
theorem accounted_of_succeeding : (DriverGetNamedPages succeeding 2 fun _ => none).Pfns = some [17, 40] ∧
    Accounted succeeding 2 fun _ => none :=
  ⟨rfl, (accounted_iff_clean (by decide) (by decide)).mpr fun _ _ _ _ => ⟨fun _ _ => rfl, rfl⟩⟩

/-- **Pages that are not recorded**: the second update fails, the first value is deleted again, and the call
returns the pages. -/
theorem unrecorded_pages : (DriverGetNamedPages secondFails 2 fun _ => none).Pfns = some [17, 40] ∧
    (∀ Index, (DriverGetNamedPages secondFails 2 fun _ => none).registry Index = none) ∧
      ¬ Accounted secondFails 2 fun _ => none := by
  have hregistry : ∀ Index, (DriverGetNamedPages secondFails 2 fun _ => none).registry Index = none := by
    intro Index
    change Function.update (Function.update (fun _ => none) 0 (some (Value.binary 8 17))) 0 none Index = none
    rw [Function.update_idem]
    by_cases h : Index = 0
    · rw [h, Function.update_self]
    · rw [Function.update_of_ne h]
  refine ⟨rfl, hregistry, fun haccounted => ?_⟩
  have hvalue := (haccounted.returned [17, 40] rfl).2.1 0 (by decide)
  rw [hregistry] at hvalue
  cases hvalue

end XenBus.Xen.NamedPages
