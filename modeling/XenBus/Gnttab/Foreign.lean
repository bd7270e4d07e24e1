import XenBus.Fdo.Holes
import XenBus.HashTable.Queues

/-!
# Pages of other domains

`GnttabMapForeignPages` and `GnttabUnmapForeignPages` (`gnttab.c`). Pages that another domain has granted are
mapped into a hole, one hypercall a page; the hole and the handles of the pages go into a record, and the
record into the hash table under the address of the hole, where `GnttabUnmapForeignPages` finds it. The hash
table is the map from keys to queues that `XenBus.HashTable.Queues` shows it to be, and the holes are those of
`XenBus.Fdo.Holes`.

`mapping_of_eq` says all that a call of `GnttabMapForeignPages` can do. `exact_of_reaches`: wherever it fails,
what it has mapped is unmapped, and nothing else is different from before; what it has mapped when it
succeeds, `GnttabUnmapForeignPages` unmaps; and no two mappings overlap. `*Address` is only set to 0 by a call
that has set it before (`address_untouched`).
-/

namespace XenBus.Gnttab.Foreign

open Transition Holes
open XenBus.Fdo.PciHole (Mdl)
open XenBus.HashTable (Queues.apply)
open XenBus.HashTable.Table (Op)

/-! ## Hypercalls -/

/-- The result of `GrantTableOp`, and what it has written to `op`. -/
structure OpReply where
  rc : ℤ
  status : ℤ
  handle : ℕ

/-- `GrantTableMapForeignPage`: `*Handle`, or a failure. -/
def grantTableMapForeignPage (reply : OpReply) : Option ℕ :=
  if reply.rc < 0 then none else if reply.status ≠ 0 then none else some reply.handle

/-- `GrantTableUnmapForeignPage`. -/
def grantTableUnmapForeignPage (reply : OpReply) : Bool :=
  if reply.rc < 0 then false else if reply.status ≠ 0 then false else true

/-- A hypercall: `GNTTABOP_map_grant_ref`, with the handle of the page if it has been mapped, or
`GNTTABOP_unmap_grant_ref`. -/
inductive GrantOp
  | map (Domain Reference Address : ℕ) (ReadOnly : Bool) (Handle : Option ℕ)
  | unmap (Handle Address : ℕ)
  deriving DecidableEq

/-- The handles and addresses of the pages that have been mapped. -/
def mapped (Calls : List GrantOp) : List (ℕ × ℕ) :=
  Calls.filterMap fun
    | .map _ _ Address _ Handle => Handle.map (·, Address)
    | .unmap _ _ => none

/-- The handles and addresses that have been passed to `GNTTABOP_unmap_grant_ref`. -/
def unmapped (Calls : List GrantOp) : List (ℕ × ℕ) :=
  Calls.filterMap fun
    | .map .. => none
    | .unmap Handle Address => some (Handle, Address)

/-! ## Data -/

/-- `XENBUS_GNTTAB_MAP_ENTRY`, with the handles that have been written. -/
structure MapEntry where
  Mdl : Mdl
  MapHandles : List ℕ

/-- What of `XENBUS_GNTTAB_CONTEXT` and its environment is used here. `Entries` are the records in memory, by
their addresses, and `Calls` is a ghost: the hypercalls so far. -/
structure Context where
  Fdo : Holes.Fdo
  MapTable : BitVec 64 → List (BitVec 64)
  Entries : BitVec 64 → Option MapEntry
  Calls : List GrantOp

/-- `(ULONG_PTR)Address->QuadPart`. -/
def key (Address : ℕ) : BitVec 64 := BitVec.ofNat 64 Address

/-- `__GnttabFree`, of a record that has not been freed. -/
def gnttabFree (Entries : BitVec 64 → Option MapEntry) (MapEntry : BitVec 64) :
    Option (BitVec 64 → Option Foreign.MapEntry) :=
  (Entries MapEntry).map fun _ => Function.update Entries MapEntry none

/-! ## GnttabMapForeignPages -/

/-- The arguments of `GnttabMapForeignPages` and what it is answered. -/
structure MapCall where
  Domain : ℕ
  NumberPages : ℕ
  References : ℕ → ℕ
  ReadOnly : Bool
  hole : Holes.Answers
  /-- The address of the record, if there is memory for it. -/
  MapEntry : Option (BitVec 64)
  /-- The reply to the hypercall for the page. -/
  reply : ℕ → OpReply
  /-- There is memory for a node of the hash table. -/
  node : Bool
  /-- What `MemoryPopulatePhysmap` gives back. -/
  Populated : Option ℕ

/-- The variables of `GnttabMapForeignPages` in its loop. -/
structure Loop where
  PageIndex : ℕ
  PageAddress : ℕ
  MapHandles : List ℕ
  Calls : List GrantOp

/-- The loop that maps the pages, of which `n` are left, and whether it has come to its end. -/
def mapLoop (call : MapCall) : ℕ → Loop → Bool × Loop
  | 0, l => (true, l)
  | n + 1, l =>
    let Handle := grantTableMapForeignPage (call.reply l.PageIndex)
    let Calls := l.Calls ++
      [.map call.Domain (call.References l.PageIndex) l.PageAddress call.ReadOnly Handle]
    match Handle with
    | none => (false, { l with Calls := Calls })
    | some Handle =>
      mapLoop call n ⟨l.PageIndex + 1, l.PageAddress + 4096, l.MapHandles ++ [Handle], Calls⟩

/-- The loop behind `fail3`. A handle that has not been written is not read. -/
def unwindLoop (MapHandles : List ℕ) : ℕ → ℕ → List GrantOp → Option (List GrantOp)
  | 0, _, Calls => some Calls
  | PageIndex + 1, PageAddress, Calls =>
    MapHandles[PageIndex]?.bind fun Handle =>
      unwindLoop MapHandles PageIndex (PageAddress - 4096) (Calls ++ [.unmap Handle (PageAddress - 4096)])

/-- From `fail3` on: `*Address` is 0, and the record and the hole are freed. -/
def unwind (c : Context) (Mdl : Mdl) (MapEntry : BitVec 64) (l : Loop) (Populated : Option ℕ) :
    Option (Bool × ℕ × Context) := do
  let Calls ← unwindLoop l.MapHandles l.PageIndex l.PageAddress l.Calls
  let Entries ← gnttabFree c.Entries MapEntry
  let Fdo ← fdoHoleFree c.Fdo Mdl Populated
  return (false, 0, { c with Fdo := Fdo, Entries := Entries, Calls := Calls })

/-- `GnttabMapForeignPages` after its loop. -/
def addPages (c : Context) (Mdl : Mdl) (MapEntry : BitVec 64) (call : MapCall) (Address : ℕ) (ok : Bool)
    (l : Loop) : Option (Bool × ℕ × Context) :=
  let c := { c with Entries := Function.update c.Entries MapEntry (some ⟨Mdl, l.MapHandles⟩) }
  if ok then
    match Queues.apply c.MapTable call.node (.add (key Address) MapEntry) with
    | (.success, _, MapTable) => some (true, Address, { c with MapTable := MapTable, Calls := l.Calls })
    | _ => unwind c Mdl MapEntry l call.Populated
  else unwind c Mdl MapEntry l call.Populated

/-- The number of rounds of the loop of `GnttabMapForeignPages`: none if `(LONG)NumberPages` is negative. -/
def rounds (NumberPages : ℕ) : ℕ := if NumberPages < 2147483648 then NumberPages else 0

/-- `GnttabMapForeignPages` from its loop on. -/
def mapPages (c : Context) (Mdl : Mdl) (MapEntry : BitVec 64) (call : MapCall) (Address : ℕ) :
    Option (Bool × ℕ × Context) :=
  let result := mapLoop call (rounds call.NumberPages) ⟨0, Address, [], c.Calls⟩
  addPages c Mdl MapEntry call Address result.1 result.2

/-- `GnttabMapForeignPages`: whether it succeeds, and `*Address`, of which the value before the call is
`Address`. -/
def gnttabMapForeignPages (c : Context) (Address : ℕ) (call : MapCall) : Option (Bool × ℕ × Context) := do
  let (Mdl, Fdo) ← fdoHoleAllocate c.Fdo call.NumberPages call.hole
  match Mdl with
  | none => return (false, Address, { c with Fdo := Fdo })
  | some Mdl =>
    match call.MapEntry with
    | none =>
      let Fdo ← fdoHoleFree Fdo Mdl call.Populated
      return (false, Address, { c with Fdo := Fdo })
    | some MapEntry =>
      let Pfn ← Mdl.PfnArray[0]?
      mapPages { c with Fdo := Fdo } Mdl MapEntry call (Pfn * 4096)

/-! ## GnttabUnmapForeignPages -/

/-- What `GnttabUnmapForeignPages` is answered. -/
structure UnmapCall where
  reply : ℕ → OpReply
  Populated : Option ℕ

/-- The loop that unmaps the pages, of which `n` are left. The system stops if one cannot be unmapped. -/
def unmapLoop (call : UnmapCall) (MapHandles : List ℕ) :
    ℕ → ℕ → ℕ → List GrantOp → Option (List GrantOp)
  | 0, _, _, Calls => some Calls
  | n + 1, PageIndex, PageAddress, Calls =>
    MapHandles[PageIndex]?.bind fun Handle =>
      if grantTableUnmapForeignPage (call.reply PageIndex) then
        unmapLoop call MapHandles n (PageIndex + 1) (PageAddress + 4096)
          (Calls ++ [.unmap Handle PageAddress])
      else none

/-- `GnttabUnmapForeignPages` once the record is out of the hash table. -/
def unmapPages (c : Context) (Address : ℕ) (MapEntry : BitVec 64) (call : UnmapCall) : Option Context := do
  let entry ← c.Entries MapEntry
  let Calls ← unmapLoop call entry.MapHandles (entry.Mdl.ByteCount / 4096) 0 Address c.Calls
  let Entries ← gnttabFree c.Entries MapEntry
  let Fdo ← fdoHoleFree c.Fdo entry.Mdl call.Populated
  return { c with Fdo := Fdo, Entries := Entries, Calls := Calls }

/-- `GnttabUnmapForeignPages`: whether it succeeds. -/
def gnttabUnmapForeignPages (c : Context) (Address : ℕ) (call : UnmapCall) : Option (Bool × Context) :=
  match Queues.apply c.MapTable true (.lookup (key Address)) with
  | (.success, some MapEntry, _) =>
    match Queues.apply c.MapTable true (.remove (key Address)) with
    | (.success, _, MapTable) =>
      (unmapPages { c with MapTable := MapTable } Address MapEntry call).map (true, ·)
    | _ => some (false, c)
  | _ => some (false, c)

/-! ## The loops -/

/-- Pages with these handles, from an address on. -/
def pagesFrom : ℕ → List ℕ → List (ℕ × ℕ)
  | _, [] => []
  | Address, Handle :: MapHandles => (Handle, Address) :: pagesFrom (Address + 4096) MapHandles

/-- The hypercalls that unmap the pages. -/
def unmaps (pages : List (ℕ × ℕ)) : List GrantOp := pages.map fun page => .unmap page.1 page.2

theorem pagesFrom_append (Address : ℕ) (handles handles' : List ℕ) :
    pagesFrom Address (handles ++ handles') =
      pagesFrom Address handles ++ pagesFrom (Address + 4096 * handles.length) handles' := by
  induction handles generalizing Address with
  | nil => rfl
  | cons Handle handles ih =>
    rw [List.cons_append, pagesFrom, ih, pagesFrom, List.cons_append, List.length_cons]
    congr 3
    omega

theorem length_pagesFrom (Address : ℕ) (handles : List ℕ) :
    (pagesFrom Address handles).length = handles.length := by
  induction handles generalizing Address with
  | nil => rfl
  | cons Handle handles ih => rw [pagesFrom, List.length_cons, ih, List.length_cons]

theorem mem_pagesFrom {Address : ℕ} {handles : List ℕ} {page : ℕ × ℕ}
    (h : page ∈ pagesFrom Address handles) : Address ≤ page.2 := by
  induction handles generalizing Address with
  | nil => cases h
  | cons Handle handles ih =>
    obtain rfl | hmem := List.mem_cons.mp h
    · exact le_rfl
    · exact (Nat.le_add_right _ _).trans (ih hmem)

/-- The pages have different addresses. -/
theorem nodup_pagesFrom (Address : ℕ) (handles : List ℕ) : (pagesFrom Address handles).Nodup := by
  induction handles generalizing Address with
  | nil => exact List.nodup_nil
  | cons Handle handles ih =>
    refine List.nodup_cons.mpr ⟨fun hmem => ?_, ih _⟩
    exact absurd (mem_pagesFrom hmem) (by simp)

/-- The loop of `GnttabMapForeignPages` has mapped, and only mapped, as many pages as it has got handles. -/
structure Maps (l : Loop) (handles : List ℕ) (calls : List GrantOp) (l' : Loop) : Prop where
  PageIndex : l'.PageIndex = l.PageIndex + handles.length
  PageAddress : l'.PageAddress = l.PageAddress + 4096 * handles.length
  MapHandles : l'.MapHandles = l.MapHandles ++ handles
  Calls : l'.Calls = l.Calls ++ calls
  mapped : mapped calls = pagesFrom l.PageAddress handles
  unmapped : unmapped calls = []

theorem mapLoop_spec (call : MapCall) (n : ℕ) (l : Loop) : ∃ handles calls,
    Maps l handles calls (mapLoop call n l).2 ∧ ((mapLoop call n l).1 = true → handles.length = n) := by
  induction n generalizing l with
  | zero =>
    exact ⟨[], [], ⟨rfl, rfl, (List.append_nil _).symm, (List.append_nil _).symm, rfl, rfl⟩, fun _ => rfl⟩
  | succ n ih =>
    unfold mapLoop
    cases hreply : grantTableMapForeignPage (call.reply l.PageIndex) with
    | none =>
      refine ⟨[], _, ⟨rfl, rfl, (List.append_nil _).symm, rfl, rfl, rfl⟩, fun hok => ?_⟩
      cases hok
    | some Handle =>
      obtain ⟨handles, calls, hmaps, hlength⟩ := ih ⟨l.PageIndex + 1, l.PageAddress + 4096,
        l.MapHandles ++ [Handle], l.Calls ++
          [.map call.Domain (call.References l.PageIndex) l.PageAddress call.ReadOnly (some Handle)]⟩
      refine ⟨Handle :: handles,
        .map call.Domain (call.References l.PageIndex) l.PageAddress call.ReadOnly (some Handle) :: calls,
        ⟨?_, ?_, ?_, ?_, ?_, hmaps.unmapped⟩, fun hok => by rw [List.length_cons, hlength hok]⟩
      · rw [hmaps.PageIndex, List.length_cons, Nat.add_assoc, Nat.add_comm 1]
      · rw [hmaps.PageAddress, List.length_cons, Nat.add_assoc, Nat.mul_succ, Nat.add_comm 4096]
      · rw [hmaps.MapHandles, List.append_assoc]
        rfl
      · rw [hmaps.Calls, List.append_assoc]
        rfl
      · rw [pagesFrom, ← hmaps.mapped]
        rfl

/-- The loop behind `fail3` unmaps the pages from the last one on. -/
theorem unwindLoop_spec (Address : ℕ) (handles rest : List ℕ) (Calls : List GrantOp) :
    unwindLoop (handles ++ rest) handles.length (Address + 4096 * handles.length) Calls =
      some (Calls ++ unmaps (pagesFrom Address handles).reverse) := by
  induction handles using List.reverseRecOn generalizing rest Calls with
  | nil => exact congrArg some (List.append_nil _).symm
  | append_singleton handles Handle ih =>
    have hget : (handles ++ [Handle] ++ rest)[handles.length]? = some Handle := by simp
    have haddress : Address + 4096 * (handles.length + 1) - 4096 = Address + 4096 * handles.length := by omega
    rw [List.length_append, List.length_singleton, unwindLoop, hget, Option.bind_some, haddress,
      List.append_assoc, ih, pagesFrom_append]
    simp [unmaps, pagesFrom]

/-- Every page can be unmapped. -/
def Accepted (call : UnmapCall) : Prop := ∀ k, grantTableUnmapForeignPage (call.reply k) = true

/-- The loop of `GnttabUnmapForeignPages` unmaps the pages, unless the system stops. -/
theorem unmapLoop_spec (call : UnmapCall) (before handles : List ℕ) (Address : ℕ) (Calls : List GrantOp) :
    (∀ Calls',
      unmapLoop call (before ++ handles) handles.length before.length Address Calls = some Calls' →
        Calls' = Calls ++ unmaps (pagesFrom Address handles)) ∧
      (Accepted call →
        (unmapLoop call (before ++ handles) handles.length before.length Address Calls).isSome) := by
  induction handles generalizing before Address Calls with
  | nil => exact ⟨fun _ h => (Option.some.inj h).symm.trans (List.append_nil _).symm, fun _ => rfl⟩
  | cons Handle handles ih =>
    have hget : (before ++ Handle :: handles)[before.length]? = some Handle := by simp
    obtain ⟨hcalls, hreturns⟩ :=
      ih (before ++ [Handle]) (Address + 4096) (Calls ++ [.unmap Handle Address])
    rw [List.append_assoc, List.singleton_append, List.length_append] at hcalls hreturns
    rw [List.length_cons, unmapLoop, hget, Option.bind_some]
    constructor
    · intro Calls' h
      split_ifs at h
      rw [hcalls Calls' h, List.append_assoc]
      rfl
    · intro hok
      rw [if_pos (hok _)]
      exact hreturns hok

/-! ## The calls -/

variable {c c' : Context} {Address Address' : ℕ} {call : MapCall} {ok : Bool}

/-- There is a hole, and memory for the record. -/
def Prepared (c : Context) (call : MapCall) : Prop :=
  ∃ Mdl Fdo MapEntry, fdoHoleAllocate c.Fdo call.NumberPages call.hole = some (some Mdl, Fdo) ∧
    call.MapEntry = some MapEntry

/-- What is known of the caller and of the memory manager: there is a page to be mapped, and memory that is
allocated is not in use. -/
structure Proper (c : Context) (call : MapCall) : Prop where
  pos : 0 < call.NumberPages
  hole : Contiguous c.Fdo call.NumberPages call.hole
  MapEntry : ∀ MapEntry, call.MapEntry = some MapEntry → c.Entries MapEntry = none

/-- What a call of `GnttabMapForeignPages` does. -/
inductive Mapping (c : Context) (Address : ℕ) (call : MapCall) : Bool → ℕ → Context → Prop
  /-- There is no hole, or no memory for the record. -/
  | refused (Fdo : Holes.Fdo) (hnot : ¬ Prepared c call) (hheld : Held Fdo) (hsame : Same c.Fdo Fdo) :
      Mapping c Address call false Address { c with Fdo := Fdo }
  /-- What has been mapped is unmapped. -/
  | undone (Fdo : Holes.Fdo) (first : ℕ) (handles : List ℕ) (calls : List GrantOp)
      (hprepared : Prepared c call) (hheld : Held Fdo) (hsame : Same c.Fdo Fdo)
      (hmapped : mapped calls = pagesFrom first handles) (hunmapped : unmapped calls = []) :
      Mapping c Address call false 0 { c with
        Fdo := Fdo
        Calls := c.Calls ++ (calls ++ unmaps (pagesFrom first handles).reverse) }
  /-- All pages are mapped, and the record is in the table. -/
  | done (Fdo : Holes.Fdo) (Mdl : Mdl) (Pfn : ℕ) (MapEntry : BitVec 64) (handles : List ℕ)
      (calls : List GrantOp) (hheld : Held Fdo) (hkept : Kept c.Fdo Fdo)
      (hMdls : Fdo.Mdls = Mdl :: c.Fdo.Mdls) (hrun : Run Mdl Pfn call.NumberPages)
      (hMapEntry : c.Entries MapEntry = none) (hlength : handles.length = call.NumberPages)
      (hmapped : mapped calls = pagesFrom (Pfn * 4096) handles) (hunmapped : unmapped calls = []) :
      Mapping c Address call true (Pfn * 4096) {
        Fdo := Fdo
        MapTable := Function.update c.MapTable (key (Pfn * 4096))
          (c.MapTable (key (Pfn * 4096)) ++ [MapEntry])
        Entries := Function.update c.Entries MapEntry (some ⟨Mdl, handles⟩)
        Calls := c.Calls ++ calls }

theorem unwind_eq {Mdl : Mdl} {MapEntry : BitVec 64} {entry : Foreign.MapEntry} {Calls calls : List GrantOp}
    {l : Loop} {handles : List ℕ} (hmaps : Maps ⟨0, Address, [], Calls⟩ handles calls l)
    (hentry : c.Entries MapEntry = some entry) (Populated : Option ℕ) :
    unwind c Mdl MapEntry l Populated = (fdoHoleFree c.Fdo Mdl Populated).map fun Fdo =>
      (false, 0, { c with
        Fdo := Fdo
        Entries := Function.update c.Entries MapEntry none
        Calls := Calls ++ (calls ++ unmaps (pagesFrom Address handles).reverse) }) := by
  have hloop := unwindLoop_spec Address handles [] l.Calls
  rw [List.append_nil, hmaps.Calls, List.append_assoc] at hloop
  have hindex : l.PageIndex = handles.length := by rw [hmaps.PageIndex, Nat.zero_add]
  simp only [unwind, hmaps.MapHandles, List.nil_append, hindex, hmaps.PageAddress, hmaps.Calls, hloop,
    gnttabFree, hentry, Option.map_some, Option.bind_eq_bind, Option.bind_some]
  cases fdoHoleFree c.Fdo Mdl Populated <;> rfl

/-- The loop of `GnttabMapForeignPages` and what follows it. -/
theorem mapPages_spec (c : Context) (Mdl : Mdl) (MapEntry : BitVec 64) (Address : ℕ)
    (hlt : call.NumberPages < 1048576) :
    ∃ handles calls, mapped calls = pagesFrom Address handles ∧ unmapped calls = [] ∧
      (handles.length = call.NumberPages ∧ mapPages c Mdl MapEntry call Address = some (true, Address, {
          Fdo := c.Fdo
          MapTable := Function.update c.MapTable (key Address) (c.MapTable (key Address) ++ [MapEntry])
          Entries := Function.update c.Entries MapEntry (some ⟨Mdl, handles⟩)
          Calls := c.Calls ++ calls }) ∨
        mapPages c Mdl MapEntry call Address = (fdoHoleFree c.Fdo Mdl call.Populated).map fun Fdo =>
          (false, 0, { c with
            Fdo := Fdo
            Entries := Function.update c.Entries MapEntry none
            Calls := c.Calls ++ (calls ++ unmaps (pagesFrom Address handles).reverse) })) := by
  have hrounds : rounds call.NumberPages = call.NumberPages := by
    rw [rounds, if_pos (by omega)]
  obtain ⟨handles, calls, hmaps, hlength⟩ := mapLoop_spec call call.NumberPages ⟨0, Address, [], c.Calls⟩
  refine ⟨handles, calls, hmaps.mapped, hmaps.unmapped, ?_⟩
  let written : Context := { c with Entries := Function.update c.Entries MapEntry (some ⟨Mdl, handles⟩) }
  have hunwind : unwind written Mdl MapEntry _ call.Populated = _ :=
    unwind_eq hmaps (Function.update_self ..) call.Populated
  rw [Function.update_idem] at hunwind
  rw [mapPages, hrounds, addPages, hmaps.MapHandles, List.nil_append]
  cases hok : (mapLoop call call.NumberPages ⟨0, Address, [], c.Calls⟩).1 with
  | false => exact .inr hunwind
  | true =>
    cases hnode : call.node with
    | false => exact .inr hunwind
    | true =>
      refine .inl ⟨hlength hok, ?_⟩
      simp only [if_true, Queues.apply, hmaps.Calls]

/-- **A call of `GnttabMapForeignPages`.** -/
theorem mapping_of_eq (hheld : Held c.Fdo) (hproper : Proper c call)
    (h : gnttabMapForeignPages c Address call = some (ok, Address', c')) :
    Mapping c Address call ok Address' c' := by
  obtain ⟨r, Fdo, hallocate, hheld', hkept, hMdls, hrun⟩ := hheld.allocate hproper.pos hproper.hole
  simp only [gnttabMapForeignPages, hallocate, Option.bind_eq_bind, Option.bind_some] at h
  cases r with
  | none =>
    obtain ⟨rfl, hrest⟩ := Prod.mk.inj (Option.some.inj h)
    obtain ⟨rfl, rfl⟩ := Prod.mk.inj hrest
    refine .refused Fdo ?_ hheld' (hheld.same hheld' hkept hMdls)
    rintro ⟨Mdl, Fdo', MapEntry, hsome, -⟩
    cases hallocate.symm.trans hsome
  | some Mdl =>
    obtain ⟨Pfn, hrun⟩ := hrun Mdl rfl
    cases hMapEntry : call.MapEntry with
    | none =>
      rw [hMapEntry] at h
      obtain ⟨Fdo', hfree, heq⟩ := Option.bind_eq_some_iff.mp h
      obtain ⟨rfl, hrest⟩ := Prod.mk.inj (Option.some.inj heq)
      obtain ⟨rfl, rfl⟩ := Prod.mk.inj hrest
      obtain ⟨hheld'', hsame⟩ := hheld.restored hheld' hkept hMdls hfree
      refine .refused Fdo' ?_ hheld'' hsame
      rintro ⟨-, -, MapEntry, -, hsome⟩
      cases hMapEntry.symm.trans hsome
    | some MapEntry =>
      have hfresh := hproper.MapEntry MapEntry hMapEntry
      simp only [hMapEntry, hrun.first, Option.bind_some] at h
      obtain ⟨handles, calls, hmapped, hunmapped, ⟨hlength, hdone⟩ | hundone⟩ :=
        mapPages_spec { c with Fdo := Fdo } Mdl MapEntry (Pfn * 4096) hrun.count_lt
      · cases hdone.symm.trans h
        exact .done Fdo Mdl Pfn MapEntry handles calls hheld' hkept hMdls hrun hfresh hlength hmapped
          hunmapped
      · obtain ⟨Fdo', hfree, heq⟩ := Option.map_eq_some_iff.mp (hundone.symm.trans h)
        obtain ⟨hheld'', hsame⟩ := hheld.restored hheld' hkept hMdls hfree
        obtain ⟨rfl, hrest⟩ := Prod.mk.inj heq
        obtain ⟨rfl, rfl⟩ := Prod.mk.inj hrest
        rw [Function.update_eq_self_iff.mpr hfresh.symm]
        exact .undone Fdo' (Pfn * 4096) handles calls ⟨Mdl, Fdo, MapEntry, hallocate, hMapEntry⟩ hheld'' hsame
          hmapped hunmapped

/-- It returns if the hypervisor gives back the memory of the hole. -/
theorem gnttabMapForeignPages_isSome (hheld : Held c.Fdo) (hne : c.Fdo.Mdls ≠ []) (hproper : Proper c call)
    (hPopulated : c.Fdo.UseMemoryHole = true → call.Populated = some call.NumberPages) (Address : ℕ) :
    (gnttabMapForeignPages c Address call).isSome := by
  obtain ⟨r, Fdo, hallocate, hheld', hkept, hMdls, hrun⟩ := hheld.allocate hproper.pos hproper.hole
  simp only [gnttabMapForeignPages, hallocate, Option.bind_eq_bind, Option.bind_some]
  cases r with
  | none => rfl
  | some Mdl =>
    obtain ⟨Pfn, hrun⟩ := hrun Mdl rfl
    obtain ⟨Fdo', hfree⟩ : ∃ Fdo', fdoHoleFree Fdo Mdl call.Populated = some Fdo' := by
      refine hheld'.free ?_ ?_ fun hmemory => ?_
      · rw [hMdls]
        exact List.mem_cons_self
      · rw [hMdls]
        exact Nat.succ_le_succ (List.length_pos_iff.mpr hne)
      · rw [hPopulated (hkept.UseMemoryHole ▸ hmemory), hrun.ByteCount, Nat.mul_div_cancel_left _ (by omega)]
    cases hMapEntry : call.MapEntry with
    | none =>
      simp only [hfree, Option.bind_some]
      rfl
    | some MapEntry =>
      simp only [hrun.first, Option.bind_some]
      obtain ⟨handles, calls, -, -, ⟨-, hdone⟩ | hundone⟩ :=
        mapPages_spec { c with Fdo := Fdo } Mdl MapEntry (Pfn * 4096) hrun.count_lt
      · rw [hdone]
        rfl
      · rw [hundone, hfree]
        rfl

/-- There is nothing at the address. -/
theorem gnttabUnmapForeignPages_of_nil {ucall : UnmapCall} (h : c.MapTable (key Address) = []) :
    gnttabUnmapForeignPages c Address ucall = some (false, c) := by
  simp only [gnttabUnmapForeignPages, Queues.apply, h]

/-- **A call of `GnttabUnmapForeignPages`** that finds a record. -/
theorem gnttabUnmapForeignPages_spec (ucall : UnmapCall) {MapEntry : BitVec 64} {rest : List (BitVec 64)}
    {entry : Foreign.MapEntry} (hfound : c.MapTable (key Address) = MapEntry :: rest)
    (hentry : c.Entries MapEntry = some entry)
    (hlength : entry.MapHandles.length = entry.Mdl.ByteCount / 4096) :
    (∀ ok c', gnttabUnmapForeignPages c Address ucall = some (ok, c') → ok = true ∧
      ∃ Fdo, fdoHoleFree c.Fdo entry.Mdl ucall.Populated = some Fdo ∧ c' = {
        Fdo := Fdo
        MapTable := Function.update c.MapTable (key Address) rest
        Entries := Function.update c.Entries MapEntry none
        Calls := c.Calls ++ unmaps (pagesFrom Address entry.MapHandles) }) ∧
      (Accepted ucall → (fdoHoleFree c.Fdo entry.Mdl ucall.Populated).isSome →
        (gnttabUnmapForeignPages c Address ucall).isSome) := by
  obtain ⟨hcalls, hreturns⟩ := unmapLoop_spec ucall [] entry.MapHandles Address c.Calls
  rw [List.nil_append, hlength, List.length_nil] at hcalls hreturns
  simp only [gnttabUnmapForeignPages, Queues.apply, hfound, unmapPages, hentry, gnttabFree,
    Option.bind_eq_bind, Option.bind_some, Option.map_some]
  constructor
  · intro ok c' h
    obtain ⟨c'', hpages, heq⟩ := Option.map_eq_some_iff.mp h
    obtain ⟨Calls, hloop, hrest⟩ := Option.bind_eq_some_iff.mp hpages
    obtain ⟨Fdo, hfree, hresult⟩ := Option.bind_eq_some_iff.mp hrest
    obtain ⟨rfl, rfl⟩ := Prod.mk.inj heq
    obtain rfl := hcalls Calls hloop
    exact ⟨rfl, Fdo, hfree, (Option.some.inj hresult).symm⟩
  · intro hok hfree
    obtain ⟨Calls, hloop⟩ := Option.isSome_iff_exists.mp (hreturns hok)
    obtain ⟨Fdo, hfree⟩ := Option.isSome_iff_exists.mp hfree
    rw [hloop, Option.bind_some, hfree]
    rfl

/-! ## The system -/

/-- A mapping, with the handles and addresses of its pages. -/
structure Live where
  Address : ℕ
  pages : List (ℕ × ℕ)
  deriving DecidableEq

/-- The context and the mappings that are in use. -/
structure System where
  context : Context
  Live : List Live

inductive Action
  | map (Address : ℕ) (call : MapCall)
  | unmap (Address : ℕ) (call : UnmapCall)

/-- A call. If it succeeds, what it has mapped, as its hypercalls tell, is in use, and what it has unmapped is
not any more. -/
def step (s : System) : Action → Option System
  | .map Address call => (gnttabMapForeignPages s.context Address call).map fun (ok, Address, c) =>
    ⟨c, if ok then ⟨Address, mapped (c.Calls.drop s.context.Calls.length)⟩ :: s.Live else s.Live⟩
  | .unmap Address call => (gnttabUnmapForeignPages s.context Address call).map fun (ok, c) =>
    ⟨c, if ok then s.Live.filter (·.Address ≠ Address) else s.Live⟩

/-- What is known of the callers. A physical address has 64 bits. -/
def Allowed (s : System) : Action → Prop
  | .map _ call => Proper s.context call
  | .unmap Address _ => Address < 18446744073709551616

/-- After `GnttabAcquire`: nothing is mapped yet, and the frames of the grant table, of which there is one at
least, and other users have their holes. -/
structure Acquired (s : System) : Prop where
  hole : ∃ fdo, Created fdo ∧ Reaches Holes.step Holes.Allowed fdo s.context.Fdo
  frame : s.context.Fdo.Mdls ≠ []
  MapTable : ∀ Key, s.context.MapTable Key = []
  Entries : ∀ MapEntry, s.context.Entries MapEntry = none
  Live : s.Live = []

/-- The record of a mapping. -/
structure Recorded (c : Context) (m : Live) (MapEntry : BitVec 64) (entry : Foreign.MapEntry) : Prop where
  found : c.MapTable (key m.Address) = [MapEntry]
  memory : c.Entries MapEntry = some entry
  Mdl : entry.Mdl ∈ c.Fdo.Mdls
  run : ∃ Pfn, Run entry.Mdl Pfn entry.MapHandles.length ∧ m.Address = Pfn * 4096
  pages : m.pages = pagesFrom m.Address entry.MapHandles

/-- The mappings have no address in common. -/
def Apart (m m' : Live) : Prop :=
  m.Address + 4096 * m.pages.length ≤ m'.Address ∨ m'.Address + 4096 * m'.pages.length ≤ m.Address

/-- The invariant. -/
structure Inv (s : System) : Prop where
  held : Held s.context.Fdo
  /-- One of the holes is not that of a record. -/
  frame : ∃ mdl ∈ s.context.Fdo.Mdls,
    ∀ MapEntry entry, s.context.Entries MapEntry = some entry → entry.Mdl ≠ mdl
  live : ∀ m ∈ s.Live, ∃ MapEntry entry, Recorded s.context m MapEntry entry
  table : ∀ Key, s.context.MapTable Key ≠ [] → ∃ m ∈ s.Live, Key = key m.Address
  entries : ∀ MapEntry entry, s.context.Entries MapEntry = some entry →
    ∃ m ∈ s.Live, Recorded s.context m MapEntry entry
  apart : s.Live.Pairwise Apart

variable {s s' : System} {m m' : Live} {MapEntry MapEntry' : BitVec 64} {entry entry' : Foreign.MapEntry}

/-- What a record says stays true as long as its node, its memory and its hole do. -/
theorem Recorded.mono (h : Recorded c m MapEntry entry)
    (hfound : c'.MapTable (key m.Address) = c.MapTable (key m.Address))
    (hentry : c'.Entries MapEntry = c.Entries MapEntry) (hMdl : entry.Mdl ∈ c'.Fdo.Mdls) :
    Recorded c' m MapEntry entry :=
  ⟨hfound.trans h.found, hentry.trans h.memory, hMdl, h.run, h.pages⟩

theorem Recorded.length_pages (h : Recorded c m MapEntry entry) :
    m.pages.length = entry.MapHandles.length := by
  rw [h.pages, length_pagesFrom]

/-- A mapping is below 2^63. -/
theorem Recorded.below (h : Recorded c m MapEntry entry) : m.Address < 9223372036854775808 := by
  obtain ⟨Pfn, hrun, hAddress⟩ := h.run
  have hbelow := hrun.below
  omega

theorem key_inj {Address Address' : ℕ} (h : Address < 18446744073709551616)
    (h' : Address' < 18446744073709551616) (heq : key Address = key Address') : Address = Address' := by
  have htoNat := congrArg BitVec.toNat heq
  rwa [key, key, BitVec.toNat_ofNat, BitVec.toNat_ofNat, Nat.mod_eq_of_lt h, Nat.mod_eq_of_lt h'] at htoNat

/-- Records with the same hole are of the same mapping. -/
theorem Recorded.address_eq (h : Recorded c m MapEntry entry) (h' : Recorded c m' MapEntry' entry')
    (hMdl : entry.Mdl = entry'.Mdl) : m.Address = m'.Address := by
  obtain ⟨Pfn, hrun, hAddress⟩ := h.run
  obtain ⟨Pfn', hrun', hAddress'⟩ := h'.run
  have hfirst := hrun.first
  rw [hMdl, hrun'.first] at hfirst
  rw [hAddress, hAddress', Option.some.inj hfirst]

theorem Recorded.apart (h : Recorded c m MapEntry entry) (h' : Recorded c' m' MapEntry' entry')
    (hdisjoint : entry.Mdl.PfnArray.Disjoint entry'.Mdl.PfnArray) : Apart m m' := by
  obtain ⟨Pfn, hrun, hAddress⟩ := h.run
  obtain ⟨Pfn', hrun', hAddress'⟩ := h'.run
  have hor := hrun.apart hrun' hdisjoint
  rw [Apart, h.length_pages, h'.length_pages]
  omega

/-- The ranges of different mappings begin at different addresses. -/
theorem Recorded.address_ne (h : Recorded c m MapEntry entry) (h' : Recorded c' m' MapEntry' entry')
    (hapart : Apart m m') : m.Address ≠ m'.Address := by
  obtain ⟨Pfn, hrun, -⟩ := h.run
  obtain ⟨Pfn', hrun', -⟩ := h'.run
  have hpos := hrun.pos
  have hpos' := hrun'.pos
  rw [Apart, h.length_pages, h'.length_pages] at hapart
  omega

/-! ## What the calls preserve -/

/-- The context with one more record. -/
def record (c : Context) (Fdo : Holes.Fdo) (Mdl : Mdl) (Address : ℕ) (MapEntry : BitVec 64)
    (handles : List ℕ) (Calls : List GrantOp) : Context where
  Fdo := Fdo
  MapTable := Function.update c.MapTable (key Address) [MapEntry]
  Entries := Function.update c.Entries MapEntry (some ⟨Mdl, handles⟩)
  Calls := Calls

/-- **A mapping comes into use**: it has its own addresses, and its record is found. -/
theorem Inv.mapped (h : Inv s) {Fdo : Holes.Fdo} {Mdl : Mdl} {Pfn : ℕ} {handles : List ℕ}
    (Calls : List GrantOp) (hheld : Held Fdo) (hMdls : Fdo.Mdls = Mdl :: s.context.Fdo.Mdls)
    (hrun : Run Mdl Pfn handles.length) (hMapEntry : s.context.Entries MapEntry = none) :
    s.context.MapTable (key (Pfn * 4096)) = [] ∧
      Recorded (record s.context Fdo Mdl (Pfn * 4096) MapEntry handles Calls)
        ⟨Pfn * 4096, pagesFrom (Pfn * 4096) handles⟩ MapEntry ⟨Mdl, handles⟩ ∧
      Inv ⟨record s.context Fdo Mdl (Pfn * 4096) MapEntry handles Calls,
        ⟨Pfn * 4096, pagesFrom (Pfn * 4096) handles⟩ :: s.Live⟩ := by
  let new : Live := ⟨Pfn * 4096, pagesFrom (Pfn * 4096) handles⟩
  let after := record s.context Fdo Mdl (Pfn * 4096) MapEntry handles Calls
  have hnew : Recorded after new MapEntry ⟨Mdl, handles⟩ := by
    refine ⟨Function.update_self .., Function.update_self .., ?_, ⟨Pfn, hrun, rfl⟩, rfl⟩
    change Mdl ∈ Fdo.Mdls
    rw [hMdls]
    exact List.mem_cons_self
  have hdisjoint : ∀ mdl ∈ s.context.Fdo.Mdls, Mdl.PfnArray.Disjoint mdl.PfnArray := by
    have hpairwise := hheld.disjoint
    rw [hMdls] at hpairwise
    exact (List.pairwise_cons.mp hpairwise).1
  -- the hole is a new one, so the addresses of the mappings so far are others
  have hapart : ∀ m ∈ s.Live, Apart new m := by
    intro m hm
    obtain ⟨MapEntry', entry, hrecorded⟩ := h.live m hm
    exact hnew.apart hrecorded (hdisjoint _ hrecorded.Mdl)
  have hkey : ∀ m ∈ s.Live, key m.Address ≠ key (Pfn * 4096) := by
    intro m hm heq
    obtain ⟨MapEntry', entry, hrecorded⟩ := h.live m hm
    have hbelow := hrecorded.below
    have hbelow' : Pfn * 4096 < 9223372036854775808 := hnew.below
    exact hnew.address_ne hrecorded (hapart m hm) (key_inj (by omega) (by omega) heq).symm
  have hold : ∀ {m MapEntry' entry}, m ∈ s.Live → Recorded s.context m MapEntry' entry →
      Recorded after m MapEntry' entry := by
    intro m MapEntry' entry hm hrecorded
    refine hrecorded.mono (Function.update_of_ne (hkey m hm) ..) (Function.update_of_ne ?_ ..) ?_
    · rintro rfl
      cases hMapEntry.symm.trans hrecorded.memory
    · change entry.Mdl ∈ Fdo.Mdls
      rw [hMdls]
      exact List.mem_cons_of_mem _ hrecorded.Mdl
  refine ⟨by_contra fun hne => ?_, hnew, hheld, ?_, ?_, ?_, ?_, List.pairwise_cons.mpr ⟨hapart, h.apart⟩⟩
  · obtain ⟨m, hm, heq⟩ := h.table _ hne
    exact hkey m hm heq.symm
  · obtain ⟨mdl, hmdl, hframe⟩ := h.frame
    refine ⟨mdl, hMdls ▸ List.mem_cons_of_mem _ hmdl, fun MapEntry' entry hentry => ?_⟩
    change Function.update s.context.Entries MapEntry (some ⟨Mdl, handles⟩) MapEntry' = some entry at hentry
    by_cases hsame : MapEntry' = MapEntry
    · subst hsame
      rw [Function.update_self] at hentry
      obtain rfl := Option.some.inj hentry
      rintro rfl
      exact hdisjoint _ hmdl (List.mem_of_getElem? hrun.first) (List.mem_of_getElem? hrun.first)
    · rw [Function.update_of_ne hsame] at hentry
      exact hframe _ _ hentry
  · refine List.forall_mem_cons.mpr ⟨⟨MapEntry, _, hnew⟩, fun m hm => ?_⟩
    obtain ⟨MapEntry', entry, hrecorded⟩ := h.live m hm
    exact ⟨MapEntry', entry, hold hm hrecorded⟩
  · intro Key hKey
    by_cases hsame : Key = key (Pfn * 4096)
    · exact ⟨new, List.mem_cons_self, hsame⟩
    · obtain ⟨m, hm, heq⟩ :=
        h.table Key (by rwa [← Function.update_of_ne hsame [MapEntry] s.context.MapTable])
      exact ⟨m, List.mem_cons_of_mem _ hm, heq⟩
  · intro MapEntry' entry hentry
    change Function.update s.context.Entries MapEntry (some ⟨Mdl, handles⟩) MapEntry' = some entry at hentry
    by_cases hsame : MapEntry' = MapEntry
    · subst hsame
      rw [Function.update_self] at hentry
      obtain rfl := Option.some.inj hentry
      exact ⟨new, List.mem_cons_self, hnew⟩
    · rw [Function.update_of_ne hsame] at hentry
      obtain ⟨m, hm, hrecorded⟩ := h.entries _ _ hentry
      exact ⟨m, List.mem_cons_of_mem _ hm, hold hm hrecorded⟩

/-- A record that is still there is not the one that has been freed. -/
theorem of_freed {Entries : BitVec 64 → Option Foreign.MapEntry}
    (h : Function.update Entries MapEntry none MapEntry' = some entry) :
    MapEntry' ≠ MapEntry ∧ Entries MapEntry' = some entry := by
  by_cases hsame : MapEntry' = MapEntry
  · rw [hsame, Function.update_self] at h
    cases h
  · exact ⟨hsame, by rwa [Function.update_of_ne hsame] at h⟩

/-- **A mapping goes out of use.** -/
theorem Inv.unmapped (h : Inv s) {Fdo : Holes.Fdo} {Calls : List GrantOp}
    (hrecorded : Recorded s.context m MapEntry entry) (hheld : Held Fdo)
    (hMdls : Fdo.Mdls = s.context.Fdo.Mdls.erase entry.Mdl) :
    Inv ⟨{
      Fdo := Fdo
      MapTable := Function.update s.context.MapTable (key m.Address) []
      Entries := Function.update s.context.Entries MapEntry none
      Calls := Calls }, s.Live.filter (·.Address ≠ m.Address)⟩ := by
  let after : Context := ⟨Fdo, Function.update s.context.MapTable (key m.Address) [],
    Function.update s.context.Entries MapEntry none, Calls⟩
  have hmem : ∀ m', m' ∈ s.Live.filter (·.Address ≠ m.Address) ↔ m' ∈ s.Live ∧ m'.Address ≠ m.Address := by
    simp
  -- the records of the other mappings are others, with other holes
  have hold : ∀ {m' MapEntry' entry'}, m'.Address ≠ m.Address → Recorded s.context m' MapEntry' entry' →
      Recorded after m' MapEntry' entry' := by
    intro m' MapEntry' entry' hne hrecorded'
    refine hrecorded'.mono (Function.update_of_ne (fun heq => hne ?_) ..)
      (Function.update_of_ne (fun heq => hne ?_) ..) ?_
    · have hbelow := hrecorded.below
      have hbelow' := hrecorded'.below
      exact key_inj (by omega) (by omega) heq
    · have hentry := hrecorded'.memory
      rw [heq, hrecorded.memory] at hentry
      exact hrecorded'.address_eq hrecorded (by rw [Option.some.inj hentry])
    · rw [hMdls]
      exact (List.mem_erase_of_ne fun heq => hne (hrecorded'.address_eq hrecorded heq)).mpr hrecorded'.Mdl
  refine ⟨hheld, ?_, ?_, ?_, ?_, h.apart.sublist List.filter_sublist⟩
  · obtain ⟨mdl, hmdl, hframe⟩ := h.frame
    refine ⟨mdl, ?_, fun MapEntry' entry' hentry => ?_⟩
    · rw [hMdls]
      exact (List.mem_erase_of_ne (hframe _ _ hrecorded.memory).symm).mpr hmdl
    · exact hframe _ _ (of_freed hentry).2
  · intro m' hm'
    obtain ⟨hlive, hne⟩ := (hmem m').mp hm'
    obtain ⟨MapEntry', entry', hrecorded'⟩ := h.live m' hlive
    exact ⟨MapEntry', entry', hold hne hrecorded'⟩
  · intro Key hKey
    by_cases hsame : Key = key m.Address
    · subst hsame
      exact absurd (Function.update_self ..) hKey
    · obtain ⟨m', hm', heq⟩ := h.table Key (by rwa [← Function.update_of_ne hsame [] s.context.MapTable])
      exact ⟨m', (hmem m').mpr ⟨hm', fun haddress => hsame (by rw [heq, haddress])⟩, heq⟩
  · intro MapEntry' entry' hentry
    obtain ⟨hne, hentry⟩ := of_freed hentry
    obtain ⟨m', hm', hrecorded'⟩ := h.entries _ _ hentry
    have haddress : m'.Address ≠ m.Address := by
      intro heq
      have hfound := hrecorded'.found
      rw [heq, hrecorded.found] at hfound
      exact hne (List.cons.inj hfound).1.symm
    exact ⟨m', (hmem m').mpr ⟨hm', haddress⟩, hold haddress hrecorded'⟩

theorem inv_of_acquired (h : Acquired s) : Inv s := by
  obtain ⟨fdo, hcreated, hreaches⟩ := h.hole
  obtain ⟨mdl, hmdl⟩ := List.exists_mem_of_ne_nil _ h.frame
  refine ⟨held_of_reaches hcreated hreaches, ⟨mdl, hmdl, ?_⟩, ?_, ?_, ?_, ?_⟩
  · intro MapEntry entry hentry
    cases (h.Entries MapEntry).symm.trans hentry
  · simp [h.Live]
  · exact fun Key hKey => absurd (h.MapTable Key) hKey
  · intro MapEntry entry hentry
    cases (h.Entries MapEntry).symm.trans hentry
  · simp [h.Live]

/-- A call that fails leaves what is in use. -/
theorem Inv.kept (h : Inv s) {Fdo : Holes.Fdo} (hheld : Held Fdo) (hMdls : Fdo.Mdls = s.context.Fdo.Mdls)
    (Calls : List GrantOp) : Inv ⟨{ s.context with Fdo := Fdo, Calls := Calls }, s.Live⟩ := by
  have hold : ∀ {m MapEntry entry}, Recorded s.context m MapEntry entry →
      Recorded { s.context with Fdo := Fdo, Calls := Calls } m MapEntry entry :=
    fun hrecorded => hrecorded.mono rfl rfl (by rw [hMdls]; exact hrecorded.Mdl)
  refine ⟨hheld, by rw [hMdls]; exact h.frame, fun m hm => ?_, h.table,
    fun MapEntry entry hentry => ?_, h.apart⟩
  · obtain ⟨MapEntry, entry, hrecorded⟩ := h.live m hm
    exact ⟨MapEntry, entry, hold hrecorded⟩
  · obtain ⟨m, hm, hrecorded⟩ := h.entries MapEntry entry hentry
    exact ⟨m, hm, hold hrecorded⟩

/-- **What is unmapped at the address of a mapping** are its pages, and its record and its hole are freed. -/
theorem Recorded.unmap {ucall : UnmapCall} (h : Recorded c m MapEntry entry) (hheld : Held c.Fdo)
    (hcall : gnttabUnmapForeignPages c m.Address ucall = some (ok, c')) :
    ok = true ∧ ∃ Fdo, Held Fdo ∧ Kept c.Fdo Fdo ∧ Fdo.Mdls = c.Fdo.Mdls.erase entry.Mdl ∧ c' = {
      Fdo := Fdo
      MapTable := Function.update c.MapTable (key m.Address) []
      Entries := Function.update c.Entries MapEntry none
      Calls := c.Calls ++ unmaps m.pages } := by
  obtain ⟨Pfn, hrun, -⟩ := h.run
  obtain ⟨hspec, -⟩ := gnttabUnmapForeignPages_spec ucall h.found h.memory
    (by rw [hrun.ByteCount, Nat.mul_div_cancel_left _ (by omega)])
  obtain ⟨hok, Fdo, hfree, hc⟩ := hspec ok c' hcall
  obtain ⟨hheld', hkept, hMdls⟩ := hheld.freed hfree
  rw [← h.pages] at hc
  exact ⟨hok, Fdo, hheld', hkept, hMdls, hc⟩

/-- One step. -/
theorem Inv.step {a : Action} (h : Inv s) (hallowed : Allowed s a) (hs : Foreign.step s a = some s') :
    Inv s' := by
  cases a with
  | map Address call =>
    obtain ⟨⟨ok, Address', c⟩, hcall, rfl⟩ := Option.map_eq_some_iff.mp hs
    cases mapping_of_eq h.held hallowed hcall with
    | refused Fdo hnot hheld hsame => exact h.kept hheld hsame.Mdls s.context.Calls
    | undone Fdo first handles calls hprepared hheld hsame => exact h.kept hheld hsame.Mdls _
    | done Fdo Mdl Pfn MapEntry handles calls hheld hkept hMdls hrun hMapEntry hlength hmapped =>
      rw [← hlength] at hrun
      obtain ⟨hnil, -, hinv⟩ := h.mapped (s.context.Calls ++ calls) hheld hMdls hrun hMapEntry
      simp only [if_true, List.drop_left, hmapped, hnil, List.nil_append]
      exact hinv
  | unmap Address call =>
    obtain ⟨⟨ok, c⟩, hcall, rfl⟩ := Option.map_eq_some_iff.mp hs
    by_cases hnil : s.context.MapTable (key Address) = []
    · rw [gnttabUnmapForeignPages_of_nil hnil] at hcall
      obtain ⟨rfl, rfl⟩ := Prod.mk.inj (Option.some.inj hcall)
      exact h
    · obtain ⟨m, hm, heq⟩ := h.table _ hnil
      obtain ⟨MapEntry, entry, hrecorded⟩ := h.live m hm
      have hbelow := hrecorded.below
      obtain rfl : Address = m.Address := key_inj hallowed (by omega) heq
      obtain ⟨rfl, Fdo, hheld, -, hMdls, rfl⟩ := hrecorded.unmap h.held hcall
      exact h.unmapped hrecorded hheld hMdls

/-! ## The result -/

/-- A call that has failed: the pages that it has mapped are unmapped once each, from the last one on, and all
else is as it was, but for `*Address`. -/
structure Undone (c : Context) (Address : ℕ) (call : MapCall) (Address' : ℕ) (c' : Context) : Prop where
  calls : ∃ calls, c'.Calls = c.Calls ++ (calls ++ unmaps (mapped calls).reverse) ∧ unmapped calls = [] ∧
    (mapped calls).Nodup
  cleared : Prepared c call → Address' = 0
  untouched : ¬ Prepared c call → Address' = Address
  table : c'.MapTable = c.MapTable
  entries : c'.Entries = c.Entries
  hole : Same c.Fdo c'.Fdo

/-- A call that has succeeded: all pages are mapped, from `*Address` on, and `GnttabUnmapForeignPages` unmaps
them and makes all else as it was. -/
structure Done (c : Context) (call : MapCall) (Address : ℕ) (c' : Context) : Prop where
  calls : ∃ handles calls, c'.Calls = c.Calls ++ calls ∧ unmapped calls = [] ∧
    mapped calls = pagesFrom Address handles ∧ handles.length = call.NumberPages ∧
      ∀ ucall ok c'', gnttabUnmapForeignPages c' Address ucall = some (ok, c'') →
        ok = true ∧ c''.Calls = c'.Calls ++ unmaps (mapped calls) ∧ c''.MapTable = c.MapTable ∧
          c''.Entries = c.Entries ∧ Same c.Fdo c''.Fdo

/-- A mapping: its pages are different ones, its record is found under its address, and
`GnttabUnmapForeignPages` unmaps its pages once each, takes the record out of the table, and frees it and the
hole, which are there. -/
structure Unmaps (c : Context) (m : Live) : Prop where
  nodup : m.pages.Nodup
  found : ∃ MapEntry entry, Recorded c m MapEntry entry ∧
    Queues.apply c.MapTable true (.lookup (key m.Address)) = (.success, some MapEntry, c.MapTable) ∧
      ∀ ucall ok c', gnttabUnmapForeignPages c m.Address ucall = some (ok, c') →
        ok = true ∧ c'.Calls = c.Calls ++ unmaps m.pages ∧
          c'.MapTable = Function.update c.MapTable (key m.Address) [] ∧
            c'.Entries = Function.update c.Entries MapEntry none ∧ c'.Fdo.Mdls = c.Fdo.Mdls.erase entry.Mdl
  returns : ∀ ucall, Accepted ucall →
    (c.Fdo.UseMemoryHole = true → ucall.Populated = some m.pages.length) →
      (gnttabUnmapForeignPages c m.Address ucall).isSome

/-- What is expected of a state. -/
structure Exact (s : System) : Prop where
  returns : ∀ Address call, Proper s.context call →
    (s.context.Fdo.UseMemoryHole = true → call.Populated = some call.NumberPages) →
      (gnttabMapForeignPages s.context Address call).isSome
  undone : ∀ Address call Address' c', Proper s.context call →
    gnttabMapForeignPages s.context Address call = some (false, Address', c') →
      Undone s.context Address call Address' c'
  done : ∀ Address call Address' c', Proper s.context call →
    gnttabMapForeignPages s.context Address call = some (true, Address', c') →
      Done s.context call Address' c'
  unmaps : ∀ m ∈ s.Live, Unmaps s.context m
  apart : s.Live.Pairwise Apart

theorem Mapping.undone_of_false (h : Mapping c Address call false Address' c') :
    Undone c Address call Address' c' := by
  cases h with
  | refused Fdo hnot hheld hsame =>
    exact ⟨⟨[], (List.append_nil _).symm, rfl, List.nodup_nil⟩, fun hprepared => absurd hprepared hnot,
      fun _ => rfl, rfl, rfl, hsame⟩
  | undone Fdo first handles calls hprepared hheld hsame hmapped hunmapped =>
    refine ⟨⟨calls, by rw [hmapped], hunmapped, ?_⟩, fun _ => rfl, fun hnot => absurd hprepared hnot, rfl,
      rfl, hsame⟩
    rw [hmapped]
    exact nodup_pagesFrom first handles

theorem Inv.done (h : Inv s) (hmapping : Mapping s.context Address call true Address' c') :
    Done s.context call Address' c' := by
  cases hmapping with
  | done Fdo Mdl Pfn MapEntry handles calls hheld hkept hMdls hrun hMapEntry hlength hmapped hunmapped =>
    rw [← hlength] at hrun
    obtain ⟨hnil, hrecorded, -⟩ :=
      h.mapped (s.context.Calls ++ calls) hheld hMdls hrun hMapEntry
    refine ⟨handles, calls, rfl, hunmapped, hmapped, hlength, fun ucall ok c'' hcall => ?_⟩
    rw [hnil, List.nil_append] at hcall
    obtain ⟨hok, Fdo', hheld', hkept', hMdls', rfl⟩ := hrecorded.unmap hheld hcall
    have hrestored : Fdo'.Mdls = s.context.Fdo.Mdls := by
      rw [hMdls']
      change Fdo.Mdls.erase Mdl = _
      rw [hMdls, List.erase_cons_head]
    refine ⟨hok, by rw [hmapped]; rfl, ?_, ?_, h.held.same hheld' (hkept.trans hkept') hrestored⟩
    · simp only [record, Function.update_idem, ← hnil, Function.update_eq_self]
    · simp only [record, Function.update_idem, ← hMapEntry, Function.update_eq_self]

theorem Inv.unmaps (h : Inv s) (hm : m ∈ s.Live) : Unmaps s.context m := by
  obtain ⟨MapEntry, entry, hrecorded⟩ := h.live m hm
  refine ⟨?_, ⟨MapEntry, entry, hrecorded, ?_, fun ucall ok c' hcall => ?_⟩,
    fun ucall haccepted hPopulated => ?_⟩
  · rw [hrecorded.pages]
    exact nodup_pagesFrom _ _
  · simp only [Queues.apply, hrecorded.found]
  · obtain ⟨hok, Fdo, -, -, hMdls, rfl⟩ := hrecorded.unmap h.held hcall
    exact ⟨hok, rfl, rfl, rfl, hMdls⟩
  · obtain ⟨Pfn, hrun, -⟩ := hrecorded.run
    obtain ⟨mdl, hmdl, hframe⟩ := h.frame
    have hpages : entry.Mdl.ByteCount / 4096 = entry.MapHandles.length := by
      rw [hrun.ByteCount, Nat.mul_div_cancel_left _ (by omega)]
    -- the hole of the frame is another one
    have hother := List.length_pos_of_mem
      ((List.mem_erase_of_ne (hframe _ _ hrecorded.memory).symm).mpr hmdl)
    rw [List.length_erase_of_mem hrecorded.Mdl] at hother
    obtain ⟨Fdo, hfree⟩ : ∃ Fdo, fdoHoleFree s.context.Fdo entry.Mdl ucall.Populated = some Fdo := by
      refine h.held.free hrecorded.Mdl (by omega) fun hmemory => ?_
      rw [hPopulated hmemory, hpages, hrecorded.length_pages]
    exact (gnttabUnmapForeignPages_spec ucall hrecorded.found hrecorded.memory hpages.symm).2 haccepted
      (by rw [hfree]; rfl)

/-- **Mapping pages of another domain is all or nothing, and unmapping them is its inverse**, and mappings do
not overlap, in every run. -/
theorem exact_of_reaches {s₀ : System} (h₀ : Acquired s₀) (h : Reaches step Allowed s₀ s) : Exact s := by
  have hinv : Inv s := h.invariant (inv_of_acquired h₀) fun _ _ _ hinv hallowed hs => hinv.step hallowed hs
  constructor
  case returns =>
    intro Address call hproper hPopulated
    obtain ⟨mdl, hmdl, -⟩ := hinv.frame
    exact gnttabMapForeignPages_isSome hinv.held (List.ne_nil_of_mem hmdl) hproper hPopulated Address
  case undone =>
    exact fun _ _ _ _ hproper hcall => (mapping_of_eq hinv.held hproper hcall).undone_of_false
  case done => exact fun _ _ _ _ hproper hcall => hinv.done (mapping_of_eq hinv.held hproper hcall)
  case unmaps => exact fun m hm => hinv.unmaps hm
  case apart => exact hinv.apart

/-! ## Runs -/

/-- `FdoHoleAllocate` gets these pages from the memory of the guest. -/
def given (Pfn Count : ℕ) : Holes.Answers := ⟨true, some (List.range' Pfn Count), some 0, some Count⟩

/-- Holes come from the memory of the guest, and the grant table has one of a page. -/
def start : System where
  context := ⟨⟨true, ⟨RangeSet.rangeSetCreate, 0, 0, 0⟩, [⟨0, 4096, [7]⟩]⟩, fun _ => [], fun _ => none, []⟩
  Live := []

theorem acquired_start : Acquired start := by
  refine ⟨⟨⟨true, ⟨RangeSet.rangeSetCreate, 0, 0, 0⟩, []⟩, ⟨rfl, fun hpci => by cases hpci⟩,
    .single (a := .allocate 1 (given 7 1)) ⟨Nat.one_pos, ?_⟩ rfl⟩, List.cons_ne_nil _ _, fun _ => rfl,
    fun _ => rfl, rfl⟩
  intro _ PfnArray hPages
  exact ⟨7, 1, (Option.some.inj hPages).symm, le_rfl, by decide, fun mdl hmdl => by cases hmdl⟩

/-- Pages of the first domain, into a record at address 5. -/
def foreignCall (NumberPages : ℕ) (hole : Holes.Answers) (reply : ℕ → OpReply) : MapCall :=
  ⟨1, NumberPages, fun PageIndex => 8 + PageIndex, false, hole, some 5, reply, true, some NumberPages⟩

theorem proper_of_given {NumberPages Pfn : ℕ} {reply : ℕ → OpReply} (hpos : 0 < NumberPages)
    (hbelow : Pfn + NumberPages < 2251799813685248) (hfresh : c.Entries 5 = none)
    (hMdls : ∀ mdl ∈ c.Fdo.Mdls, ∀ x ∈ List.range' Pfn NumberPages, x ∉ mdl.PfnArray) :
    Proper c (foreignCall NumberPages (given Pfn NumberPages) reply) := by
  refine ⟨hpos, fun _ PfnArray hPages => ?_, fun MapEntry hMapEntry => ?_⟩
  · obtain rfl := Option.some.inj hPages
    exact ⟨Pfn, NumberPages, rfl, le_rfl, hbelow, fun mdl hmdl x hx => hMdls mdl hmdl x hx⟩
  · obtain rfl := Option.some.inj hMapEntry
    exact hfresh

/-- The third of three pages cannot be mapped; then two pages are. -/
theorem exact_of_foreign_run : ∃ s, Acquired start ∧ Reaches step Allowed start s ∧
    s.Live = [⟨819200, [(30, 819200), (31, 823296)]⟩] ∧
      unmapped s.context.Calls = [(21, 413696), (20, 409600)] ∧ Exact s := by
  let fails := foreignCall 3 (given 100 3) fun k => ⟨0, if k = 2 then -1 else 0, 20 + k⟩
  let succeeds := foreignCall 2 (given 200 2) fun k => ⟨0, 0, 30 + k⟩
  have hrun : (step start (.map 3 fails)).any (fun s₁ =>
      decide (s₁.context.Fdo.Mdls = [⟨0, 4096, [7]⟩]) && (s₁.context.Entries 5).isNone &&
        (step s₁ (.map 0 succeeds)).any fun s => decide
          (s.Live = [⟨819200, [(30, 819200), (31, 823296)]⟩] ∧
            unmapped s.context.Calls = [(21, 413696), (20, 409600)])) = true := by
    decide +kernel
  obtain ⟨s₁, hs₁, hrest⟩ := (Option.any_eq_true _ _).mp hrun
  obtain ⟨hbetween, hrest⟩ := (Bool.and_eq_true _ _).mp hrest
  obtain ⟨hMdls, hentry⟩ := (Bool.and_eq_true _ _).mp hbetween
  obtain ⟨s, hs, hend⟩ := (Option.any_eq_true _ _).mp hrest
  obtain ⟨hlive, hcalls⟩ := of_decide_eq_true hend
  have hfails : Proper start.context fails := proper_of_given (by omega) (by omega) rfl (by decide)
  have hsucceeds : Proper s₁.context succeeds :=
    proper_of_given (by omega) (by omega) (Option.isNone_iff_eq_none.mp hentry)
      (by rw [of_decide_eq_true hMdls]; decide)
  have hfirst : Reaches step Allowed start s₁ := .single (a := .map 3 fails) hfails hs₁
  have hreaches : Reaches step Allowed start s := hfirst.tail (a := .map 0 succeeds) hsucceeds hs
  exact ⟨s, acquired_start, hreaches, hlive, hcalls, exact_of_reaches acquired_start hreaches⟩

/-- **There is no hole**: the call fails, and `*Address` is what it was before. -/
theorem address_untouched : ∃ s call c', Acquired s ∧ Proper s.context call ∧
    gnttabMapForeignPages s.context 4096 call = some (false, 4096, c') := by
  refine ⟨start, foreignCall 1 ⟨true, none, none, none⟩ fun k => ⟨0, 0, k⟩, _, acquired_start,
    ⟨Nat.one_pos, fun _ PfnArray hPages => ?_, fun _ _ => rfl⟩, rfl⟩
  cases hPages

end XenBus.Gnttab.Foreign
