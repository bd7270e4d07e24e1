import XenBus.Fdo.Holes

/-!
# Memory holes

`FdoMemoryHoleAllocate` (`fdo.c`) makes a hole by giving the memory of pages that it has allocated to the
hypervisor, and `FdoMemoryHoleFree` takes the memory back before it frees the pages. Which pages have memory
behind them is part of the state here, and which had when they were returned to the operating system.

The hypercall may succeed in part. `FdoMemoryHoleAllocate` then frees the pages without taking back what has
been given away: `sound_iff` says when the pages that it frees have memory behind them, and `kept_of_reaches`
that only pages with memory are returned in a run whose hypercalls do not succeed in part.
-/

namespace XenBus.Fdo.MemoryHole

open Transition
open XenBus.Holes (Answers)
open XenBus.Fdo.PciHole (Mdl)

/-! ## The functions -/

/-- The pages of the guest. -/
structure Guest where
  /-- The pages that have no memory behind them. -/
  Unbacked : List ℕ
  /-- A ghost: the pages that have been returned to the operating system, each with whether there was memory
  behind it. -/
  Returned : List (ℕ × Bool)

/-- `MmFreePagesFromMdl`. -/
def mmFreePages (PfnArray : List ℕ) (guest : Guest) : Guest :=
  { guest with Returned := PfnArray.map (fun Pfn => (Pfn, decide (Pfn ∉ guest.Unbacked))) ++ guest.Returned }

/-- `__AllocatePages`, with `TRUE`. -/
def allocatePages (Count : ℕ) (answers : Answers) (guest : Guest) : Option Mdl × Guest :=
  match answers.Pages with
  | none => (none, guest)
  | some PfnArray =>
    let ByteCount := 4096 * PfnArray.length % 4294967296
    if ByteCount < 4096 * Count then (none, mmFreePages PfnArray guest)
    else
      match answers.MappedSystemVa with
      | none => (none, mmFreePages PfnArray guest)
      | some MappedSystemVa => (some ⟨MappedSystemVa / 4096 * 4096, ByteCount, PfnArray⟩, guest)

/-- `__FreePages`. -/
def freePages (mdl : Mdl) (guest : Guest) : Guest := mmFreePages mdl.PfnArray guest

/-- What a successful `MemoryDecreaseReservation` leaves: the first `Decreased` pages have no memory. -/
def decrease (PfnArray : List ℕ) (Decreased : ℕ) (guest : Guest) : Guest :=
  { guest with Unbacked := PfnArray.take Decreased ++ guest.Unbacked }

/-- What a successful `MemoryPopulatePhysmap` leaves: the first `Populated` pages have memory. -/
def populate (PfnArray : List ℕ) (Populated : ℕ) (guest : Guest) : Guest :=
  { guest with Unbacked := guest.Unbacked.filter (· ∉ PfnArray.take Populated) }

/-- `FdoMemoryHoleAllocate`. -/
def fdoMemoryHoleAllocate (Count : ℕ) (answers : Answers) (guest : Guest) : Option Mdl × Guest :=
  match allocatePages Count answers guest with
  | (none, guest) => (none, guest)
  | (some mdl, guest) =>
    match answers.Decreased with
    | none => (none, freePages mdl guest)
    | some Decreased =>
      let guest := decrease mdl.PfnArray Decreased guest
      -- `fail3` goes on with `fail2`: what has been given away stays away
      if Decreased ≠ Count then (none, freePages mdl guest) else (some mdl, guest)

/-- `FdoMemoryHoleFree`. It has no result if the system stops, as not all pages have been given back. -/
def fdoMemoryHoleFree (mdl : Mdl) (Populated : Option ℕ) (guest : Guest) : Option Guest :=
  let Count := mdl.ByteCount / 4096
  if Populated = some Count then some (freePages mdl (populate mdl.PfnArray Count guest)) else none

/-! ## One call -/

variable {Count : ℕ} {answers : Answers} {guest guest' : Guest} {mdl : Mdl}

/-- `__AllocatePages` succeeds: there are enough pages, and they can be mapped. -/
def Allocates (Count : ℕ) (answers : Answers) : Prop :=
  ∃ PfnArray ∈ answers.Pages, 4096 * Count ≤ 4096 * PfnArray.length % 4294967296 ∧
    answers.MappedSystemVa.isSome

/-- The memory manager allocates pages that have memory. -/
def Backed (answers : Answers) (guest : Guest) : Prop :=
  ∀ PfnArray ∈ answers.Pages, ∀ Pfn ∈ PfnArray, Pfn ∉ guest.Unbacked

/-- From `guest` to `guest'`, only pages with memory behind them have been returned. -/
def Returns (guest guest' : Guest) : Prop :=
  ∃ l, guest'.Returned = l ++ guest.Returned ∧ ∀ page ∈ l, page.2 = true

theorem Returns.refl (guest : Guest) : Returns guest guest := ⟨[], rfl, by simp⟩

theorem returns_mmFreePages {PfnArray : List ℕ} :
    Returns guest (mmFreePages PfnArray guest) ↔ ∀ Pfn ∈ PfnArray, Pfn ∉ guest.Unbacked := by
  constructor
  · rintro ⟨l, hl, hback⟩ Pfn hPfn
    obtain rfl := List.append_cancel_right hl
    simpa using hback _ (List.mem_map_of_mem hPfn)
  · intro h
    refine ⟨_, rfl, ?_⟩
    simpa using h

/-- What `__AllocatePages` does: it fails and has returned what it got, or it has the pages. -/
theorem allocatePages_cases (Count : ℕ) (hback : Backed answers guest) :
    (∃ guest', allocatePages Count answers guest = (none, guest') ∧ ¬ Allocates Count answers ∧
      Returns guest guest' ∧ guest'.Unbacked = guest.Unbacked) ∨
    ∃ mdl, allocatePages Count answers guest = (some mdl, guest) ∧ Allocates Count answers ∧
      answers.Pages = some mdl.PfnArray ∧ mdl.ByteCount = 4096 * mdl.PfnArray.length % 4294967296 ∧
      4096 * Count ≤ mdl.ByteCount := by
  unfold allocatePages Allocates
  cases hPages : answers.Pages with
  | none => exact .inl ⟨guest, rfl, by simp, .refl guest, rfl⟩
  | some PfnArray =>
    have hfree : Returns guest (mmFreePages PfnArray guest) := returns_mmFreePages.mpr (hback _ hPages)
    simp only [Option.mem_def, Option.some.injEq, exists_eq_left']
    split_ifs with hlt
    · exact .inl ⟨_, rfl, fun h => absurd h.1 hlt.not_ge, hfree, rfl⟩
    · cases hva : answers.MappedSystemVa with
      | none => exact .inl ⟨_, rfl, by simp, hfree, rfl⟩
      | some va => exact .inr ⟨_, rfl, ⟨not_lt.mp hlt, rfl⟩, rfl, rfl, not_lt.mp hlt⟩

/-- The result is that of the function without the guest's pages. -/
theorem allocatePages_fst (Count : ℕ) (answers : Answers) (guest : Guest) :
    (allocatePages Count answers guest).1 = XenBus.Holes.allocatePages Count answers := by
  unfold allocatePages XenBus.Holes.allocatePages
  cases answers.Pages with
  | none => rfl
  | some PfnArray =>
    simp only [Option.bind_some]
    split_ifs
    · rfl
    · cases answers.MappedSystemVa <;> rfl

/-- So is that of the call. -/
theorem fdoMemoryHoleAllocate_fst (Count : ℕ) (answers : Answers) (guest : Guest) :
    (fdoMemoryHoleAllocate Count answers guest).1 = XenBus.Holes.fdoMemoryHoleAllocate Count answers := by
  unfold fdoMemoryHoleAllocate XenBus.Holes.fdoMemoryHoleAllocate
  rw [← allocatePages_fst Count answers guest]
  cases allocatePages Count answers guest with
  | mk result guest' =>
    cases result with
    | none => rfl
    | some mdl =>
      cases hDecreased : answers.Decreased with
      | none => simp
      | some Decreased =>
        rcases eq_or_ne Decreased Count with rfl | hne
        · simp [Option.filter]
        · simp [hne]

/-- The pages that have been freed had memory, and those of the hole have none. -/
structure Sound (Count : ℕ) (answers : Answers) (guest : Guest) : Prop where
  returned : (fdoMemoryHoleAllocate Count answers guest).1 = none →
    Returns guest (fdoMemoryHoleAllocate Count answers guest).2
  decreased : ∀ mdl, (fdoMemoryHoleAllocate Count answers guest).1 = some mdl →
    Count ≤ mdl.PfnArray.length ∧
      ∀ Pfn ∈ mdl.PfnArray.take Count, Pfn ∈ (fdoMemoryHoleAllocate Count answers guest).2.Unbacked

/-- The hypercall is not made, fails, or gives away all pages or none. -/
def Whole (Count : ℕ) (answers : Answers) : Prop :=
  Allocates Count answers → ∀ Decreased ∈ answers.Decreased, Decreased = 0 ∨ Decreased = Count

/-- **A failed allocation frees pages that have memory behind them** if and only if the hypercall has not
succeeded in part; a successful one has given away as many pages as it has been asked for. -/
theorem sound_iff (hback : Backed answers guest) (hle : ∀ Decreased ∈ answers.Decreased, Decreased ≤ Count) :
    Sound Count answers guest ↔ Whole Count answers := by
  obtain ⟨guest', heq, hnot, hreturns, -⟩ | ⟨mdl, heq, hallocates, hPages, hByteCount, hCount⟩ :=
    allocatePages_cases Count hback
  · have hresult : fdoMemoryHoleAllocate Count answers guest = (none, guest') := by
      simp only [fdoMemoryHoleAllocate, heq]
    refine ⟨fun _ h => absurd h hnot, fun _ => ⟨fun _ => ?_, fun mdl h => ?_⟩⟩
    · rwa [hresult]
    · rw [hresult] at h
      cases h
  have hlength : Count ≤ mdl.PfnArray.length := by omega
  have hmdl := hback _ hPages
  cases hDecreased : answers.Decreased with
  | none =>
    have hresult : fdoMemoryHoleAllocate Count answers guest = (none, freePages mdl guest) := by
      simp only [fdoMemoryHoleAllocate, heq, hDecreased]
    refine ⟨fun _ _ => by simp [hDecreased], fun _ => ⟨fun _ => ?_, fun mdl h => ?_⟩⟩
    · rw [hresult]
      exact returns_mmFreePages.mpr hmdl
    · rw [hresult] at h
      cases h
  | some Decreased =>
    have hDle := hle _ hDecreased
    rcases eq_or_ne Decreased Count with rfl | hne
    · have hresult : fdoMemoryHoleAllocate Decreased answers guest =
          (some mdl, decrease mdl.PfnArray Decreased guest) := by
        simp only [fdoMemoryHoleAllocate, heq, hDecreased, ne_eq, not_true_eq_false, if_false]
      refine ⟨fun _ _ => by simp [hDecreased], fun _ => ⟨fun h => ?_, fun mdl' h => ?_⟩⟩
      · rw [hresult] at h
        cases h
      · rw [hresult] at h ⊢
        obtain rfl := Option.some.inj h
        exact ⟨hlength, fun Pfn hPfn => List.mem_append_left _ hPfn⟩
    · have hresult : fdoMemoryHoleAllocate Count answers guest =
          (none, freePages mdl (decrease mdl.PfnArray Decreased guest)) := by
        simp only [fdoMemoryHoleAllocate, heq, hDecreased, ne_eq, hne, not_false_eq_true, if_true]
      constructor
      · intro hsound _ Decreased' hDecreased'
        obtain rfl := Option.some.inj (hDecreased.symm.trans hDecreased')
        have hreturned := hsound.returned (by rw [hresult])
        rw [hresult] at hreturned
        -- the first page has been given away if one has, and has been freed
        cases Decreased with
        | zero => exact .inl rfl
        | succ n =>
          have hpos : 0 < mdl.PfnArray.length := by omega
          refine absurd (List.mem_append_left _ ?_)
            (returns_mmFreePages.mp hreturned _ (List.getElem_mem hpos))
          rw [← List.getElem_take (j := n + 1) (h := by rw [List.length_take]; omega)]
          exact List.getElem_mem _
      · intro hwhole
        obtain rfl := (hwhole hallocates Decreased hDecreased).resolve_right hne
        refine ⟨fun _ => ?_, fun mdl h => ?_⟩
        · rw [hresult]
          exact returns_mmFreePages.mpr hmdl
        · rw [hresult] at h
          cases h

/-- Two pages have been allocated, and the hypercall gives away `Decreased`. -/
def two (Decreased : ℕ) : Answers := ⟨true, some [7, 8], some 28672, some Decreased⟩

theorem backed_two (Decreased : ℕ) : Backed (two Decreased) ⟨[], []⟩ := by simp [Backed]

theorem sound_two : Sound 2 (two 2) ⟨[], []⟩ := by
  refine (sound_iff (backed_two 2) ?_).mpr ?_
  · simp [two]
  · simp [Whole, two]

/-- When one page of the two has been given away, both are freed. -/
theorem not_sound_two : Backed (two 1) ⟨[], []⟩ ∧ (fdoMemoryHoleAllocate 2 (two 1) ⟨[], []⟩).1 = none ∧
    (fdoMemoryHoleAllocate 2 (two 1) ⟨[], []⟩).2.Returned = [(7, false), (8, true)] ∧
    ¬ Sound 2 (two 1) ⟨[], []⟩ := by
  refine ⟨backed_two 1, by decide, by decide, fun hsound => ?_⟩
  obtain ⟨l, hl, htrue⟩ := hsound.returned (by decide)
  have h7 : (7, false) ∈ l := by
    rw [← List.append_nil l, ← hl]
    decide
  cases htrue _ h7

/-! ## Runs -/

/-- The guest, and the holes that have been made and not been freed. -/
structure State where
  guest : Guest
  Mdls : List Mdl

/-- A call. -/
inductive Action
  | allocate (Count : ℕ) (answers : Answers)
  | free (mdl : Mdl) (Populated : Option ℕ)

/-- A call of one of the two functions. A hole is freed once. -/
def step (s : State) : Action → Option State
  | .allocate Count answers =>
    some ⟨(fdoMemoryHoleAllocate Count answers s.guest).2,
      (fdoMemoryHoleAllocate Count answers s.guest).1.toList ++ s.Mdls⟩
  | .free mdl Populated =>
    if mdl ∈ s.Mdls then
      (fdoMemoryHoleFree mdl Populated s.guest).map fun guest => ⟨guest, s.Mdls.erase mdl⟩
    else none

/-- What is known of the memory manager: it allocates no more pages than it has been asked for, and none that
are in a hole. -/
structure Fresh (s : State) (Count : ℕ) (answers : Answers) : Prop where
  length_le : ∀ PfnArray ∈ answers.Pages, PfnArray.length ≤ Count
  disjoint : ∀ PfnArray ∈ answers.Pages, ∀ mdl ∈ s.Mdls, PfnArray.Disjoint mdl.PfnArray

/-- The memory manager does what it should, and the hypercall does not succeed in part. -/
def Guard (s : State) : Action → Prop
  | .allocate Count answers => Fresh s Count answers ∧ Whole Count answers
  | .free .. => True

/-- The pages without memory are those of the holes, and only pages with memory have been returned. -/
structure Kept (s : State) : Prop where
  unbacked : ∀ Pfn ∈ s.guest.Unbacked, ∃ mdl ∈ s.Mdls, Pfn ∈ mdl.PfnArray
  length : ∀ mdl ∈ s.Mdls, mdl.PfnArray.length = mdl.ByteCount / 4096
  returned : ∀ page ∈ s.guest.Returned, page.2 = true

variable {s t : State}

theorem Returns.all (h : Returns guest guest') (hall : ∀ page ∈ guest.Returned, page.2 = true) :
    ∀ page ∈ guest'.Returned, page.2 = true := by
  obtain ⟨l, hl, htrue⟩ := h
  rw [hl]
  exact List.forall_mem_append.mpr ⟨htrue, hall⟩

/-- Pages that are in no hole have memory. -/
theorem Kept.backed (h : Kept s) (hfresh : Fresh s Count answers) : Backed answers s.guest := by
  intro PfnArray hPages Pfn hPfn hunbacked
  obtain ⟨mdl, hmdl, hmem⟩ := h.unbacked Pfn hunbacked
  exact hfresh.disjoint PfnArray hPages mdl hmdl hPfn hmem

theorem Kept.allocate (h : Kept s) (hfresh : Fresh s Count answers) (hwhole : Whole Count answers) :
    Kept ⟨(fdoMemoryHoleAllocate Count answers s.guest).2,
      (fdoMemoryHoleAllocate Count answers s.guest).1.toList ++ s.Mdls⟩ := by
  obtain ⟨guest', heq, -, hreturns, hunbacked⟩ | ⟨mdl, heq, hallocates, hPages, hByteCount, hCount⟩ :=
    allocatePages_cases Count (h.backed hfresh)
  · simp only [fdoMemoryHoleAllocate, heq, Option.toList_none, List.nil_append]
    exact ⟨hunbacked ▸ h.unbacked, h.length, hreturns.all h.returned⟩
  have hfreed : Returns s.guest (freePages mdl s.guest) :=
    returns_mmFreePages.mpr (h.backed hfresh _ hPages)
  cases hDecreased : answers.Decreased with
  | none =>
    simp only [fdoMemoryHoleAllocate, heq, hDecreased, Option.toList_none, List.nil_append]
    exact ⟨h.unbacked, h.length, hfreed.all h.returned⟩
  | some Decreased =>
    rcases eq_or_ne Decreased Count with rfl | hne
    · simp only [fdoMemoryHoleAllocate, heq, hDecreased, ne_eq, not_true_eq_false, if_false,
        Option.toList_some, List.singleton_append]
      have hle := hfresh.length_le _ hPages
      refine ⟨fun Pfn hPfn => ?_, List.forall_mem_cons.mpr ⟨by omega, h.length⟩, h.returned⟩
      rcases List.mem_append.mp hPfn with htake | hold
      · exact ⟨mdl, List.mem_cons_self, List.mem_of_mem_take htake⟩
      · obtain ⟨mdl', hmdl', hmem⟩ := h.unbacked Pfn hold
        exact ⟨mdl', List.mem_cons_of_mem _ hmdl', hmem⟩
    · obtain rfl := (hwhole hallocates Decreased hDecreased).resolve_right hne
      simp only [fdoMemoryHoleAllocate, heq, hDecreased, ne_eq, hne, not_false_eq_true, if_true,
        Option.toList_none, List.nil_append]
      exact ⟨h.unbacked, h.length, hfreed.all h.returned⟩

/-- **The pages of a hole have memory again when they are freed.** -/
theorem Kept.free {Populated : Option ℕ} (h : Kept s) (hmdl : mdl ∈ s.Mdls)
    (hs : fdoMemoryHoleFree mdl Populated s.guest = some guest') :
    Kept ⟨guest', s.Mdls.erase mdl⟩ := by
  simp only [fdoMemoryHoleFree] at hs
  split_ifs at hs
  obtain rfl := Option.some.inj hs
  have htake : mdl.PfnArray.take (mdl.ByteCount / 4096) = mdl.PfnArray := by
    rw [← h.length mdl hmdl, List.take_length]
  refine ⟨fun Pfn hPfn => ?_, fun mdl' hmem => h.length mdl' (List.mem_of_mem_erase hmem), ?_⟩
  · simp only [freePages, mmFreePages, populate, htake, List.mem_filter, decide_eq_true_eq] at hPfn
    obtain ⟨mdl', hmdl', hmem⟩ := h.unbacked Pfn hPfn.1
    have hne : mdl' ≠ mdl := by
      rintro rfl
      exact hPfn.2 hmem
    exact ⟨mdl', (List.mem_erase_of_ne hne).mpr hmdl', hmem⟩
  · have hreturns : Returns (populate mdl.PfnArray (mdl.ByteCount / 4096) s.guest)
        (freePages mdl (populate mdl.PfnArray (mdl.ByteCount / 4096) s.guest)) := by
      refine returns_mmFreePages.mpr fun Pfn hPfn hunbacked => ?_
      simp only [populate, htake, List.mem_filter, decide_eq_true_eq] at hunbacked
      exact hunbacked.2 hPfn
    exact hreturns.all h.returned

/-- **No page without memory is returned** in a run whose hypercalls do not succeed in part. -/
theorem kept_of_reaches (h0 : Kept s) (h : Reaches step Guard s t) : Kept t := by
  refine h.invariant h0 ?_
  rintro s (⟨Count, answers⟩ | ⟨mdl, Populated⟩) t hkept hguard hs
  · obtain rfl := Option.some.inj hs
    exact hkept.allocate hguard.1 hguard.2
  · simp only [step] at hs
    split_ifs at hs with hmdl
    obtain ⟨guest', hfree, rfl⟩ := Option.map_eq_some_iff.mp hs
    exact hkept.free hmdl hfree

end XenBus.Fdo.MemoryHole
