import XenBus.Foundations.Transition
import XenBus.Gnttab.References

/-!
# The clients of the grant table

The system: any number of caches of entries over one grant table, with calls that are serialised. The
constructor and the destructor run under the caches' operations, whose slabs are on pages of their own;
so `partition_preserved` and the frame rule give the invariant of every run (`unshared_of_reaches`):
references are in range and are not shared, not even between caches.
-/

namespace XenBus.Gnttab

open MachineInt ObjectCache RangeSet Construction Transition

/-! ## The system -/

/-- `XENBUS_GNTTAB_CACHE`: its cache, and the entries that are permitted. -/
structure ClientCache (n : ℕ) where
  Cache : Cache n
  permitted : List ℕ

/-- The context, the caches, and the slabs that destroyed caches have left. `fault`: an invalid pointer has
been followed. -/
structure State (n : ℕ) (ι : Type*) where
  context : Context
  caches : ι → Option (ClientCache n)
  leaked : List Slab
  fault : Bool

/-- A call, with the outcomes of the calls that it makes. -/
inductive Act (n : ℕ) (ι : Type*)
  | createCache (i : ι) (Reservation Cap : ℕ) (allocate name : Bool) (outcome : CreateOutcome)
  | permit (i : ι) (cpu : Fin n) (alloc : SlabAlloc) (Domain Pfn : ℕ) (ReadOnly : Bool)
  | revoke (i : ι) (cpu : Fin n) (Entry : ℕ) (reads : Fin 100 → ℕ × ℕ)
  | fill (i : ι) (Count : ℕ) (allocs : List SlabAlloc)
  | spill (i : ι) (Count : ℕ)
  | destroyCache (i : ι)

variable {n : ℕ} {ι : Type*} [DecidableEq ι]

/-- The state after a call on one cache. -/
def State.set (s : State n ι) (i : ι) (c : Option (ClientCache n)) (ctx : Context) (left : List Slab) :
    State n ι :=
  { s with context := ctx, caches := Function.update s.caches i c, leaked := left ++ s.leaked }

/-- A call. A cache is created where there is none, and an entry that is revoked is a permitted one. -/
def step (s : State n ι) (a : Act n ι) : Option (State n ι) :=
  if s.fault = true then none else
  match a with
  | .createCache i Reservation Cap allocate name outcome =>
    if (s.caches i).isSome then none else
    let (_, cache, ctx) := gnttabCreateCache n Reservation Cap allocate name outcome s.context
    some (s.set i (cache.map (⟨·, []⟩)) ctx [])
  | .permit i cpu alloc Domain Pfn ReadOnly =>
    (s.caches i).map fun c =>
      let (Entry, cache, ctx) :=
        gnttabPermitForeignAccess c.Cache cpu alloc Domain Pfn ReadOnly s.context
      s.set i (some ⟨cache, Entry.toList ++ c.permitted⟩) ctx []
  | .revoke i cpu Entry reads =>
    (s.caches i).bind fun c =>
      if Entry ∉ c.permitted then none else
      match gnttabRevokeForeignAccess c.Cache cpu Entry reads s.context with
      | some (status, cache, ctx) =>
        some (s.set i (some ⟨cache, if status.ntSuccess then c.permitted.erase Entry else c.permitted⟩) ctx [])
      | none => some { s with fault := true }
  | .fill i Count allocs =>
    (s.caches i).map fun c => s.set i (some { c with Cache := (cacheFill Count allocs c.Cache).2 }) s.context []
  | .spill i Count =>
    (s.caches i).map fun c =>
      let (cache, ctx) := cacheSpill client Count c.Cache s.context
      s.set i (some { c with Cache := cache }) ctx []
  | .destroyCache i =>
    (s.caches i).bind fun c =>
      match cacheDestroy client c.Cache s.context with
      | some (left, ctx) => some (s.set i none ctx left)
      | none => some { s with fault := true }

/-- No cache yet. -/
def init (n : ℕ) (ι : Type*) (ctx : Context) : State n ι := ⟨ctx, fun _ => none, [], false⟩

/-! ## Slabs and entries -/

/-- The slabs of a cache, and those that have been left. -/
def State.slabs (s : State n ι) : Option ι → List Slab
  | none => s.leaked
  | some i => ((s.caches i).map fun c => c.Cache.SlabList).getD []

/-- The constructed entries. -/
def State.constructed (s : State n ι) : Set ℕ :=
  {o | ∃ j, o ∈ objects Slab.Constructed entrySize (s.slabs j)}

/-- The page of the allocation, if it succeeds, is not in use. -/
def State.Unused (s : State n ι) (alloc : SlabAlloc) : Prop :=
  ∀ a ∈ alloc.Slab, a % 4096 = 0 ∧ ∀ j, a ∉ (s.slabs j).map Slab.Address

/-- The system's memory manager: the pages that it returns are not in use. -/
def Managed (s : State n ι) : Act n ι → Prop
  | .createCache _ Reservation Cap _ _ outcome =>
    FillAll Cache.Fresh Reservation outcome.Slabs (newCache n entrySize Reservation Cap) ∧
      ∀ alloc ∈ outcome.Slabs, s.Unused alloc
  | .permit _ _ alloc _ _ _ => s.Unused alloc
  | .fill i Count allocs => (∀ c ∈ s.caches i, FillAll Cache.Fresh Count allocs c.Cache) ∧
      ∀ alloc ∈ allocs, s.Unused alloc
  | _ => True

section Decidable

variable [Fintype ι]

instance (s : State n ι) (alloc : SlabAlloc) : Decidable (s.Unused alloc) :=
  inferInstanceAs (Decidable (∀ a ∈ alloc.Slab, _ ∧ ∀ _ : Option ι, _))

instance (P : Cache n → SlabAlloc → Prop) [∀ c a, Decidable (P c a)] (Count : ℕ)
    (allocs : List SlabAlloc) (cache : Cache n) : Decidable (FillAll P Count allocs cache) :=
  decidableFillAll P Count allocs cache

instance (s : State n ι) : (a : Act n ι) → Decidable (Managed s a)
  | .createCache .. => inferInstanceAs (Decidable (_ ∧ ∀ alloc ∈ _, _))
  | .permit .. => inferInstanceAs (Decidable (s.Unused _))
  | .fill .. => inferInstanceAs (Decidable ((∀ c ∈ _, _) ∧ ∀ alloc ∈ _, _))
  | .revoke .. => isTrue trivial
  | .spill .. => isTrue trivial
  | .destroyCache .. => isTrue trivial

end Decidable

/-- **Grant references are not shared and are in range.** -/
structure Unshared (s : State n ι) : Prop where
  noFault : s.fault = false ∧ s.context.fault = false
  inRange : ∀ o ∈ s.constructed, reservedEntryCount ≤ (s.context.Object o).Reference ∧
    ((s.context.Object o).Reference : ℤ) < (s.context.FrameIndex + 1) * entryPerFrame
  injective : ∀ o ∈ s.constructed, ∀ o' ∈ s.constructed,
    (s.context.Object o).Reference = (s.context.Object o').Reference → o = o'
  disjoint : ∀ o ∈ s.constructed, ((s.context.Object o).Reference : ℤ) ∉ s.context.RangeSet.items
  union : ∀ r : ℤ,
    (r ∈ s.context.RangeSet.items ∨ ∃ o ∈ s.constructed, ((s.context.Object o).Reference : ℤ) = r) ↔
      reservedEntryCount ≤ r ∧ r < (s.context.FrameIndex + 1) * entryPerFrame

/-! ## One cache among the others -/

variable {s t : State n ι} {i : ι} {A : List ℕ}

/-- The invariant of all runs. -/
structure Inv (s : State n ι) : Prop where
  noFault : s.fault = false
  apart : ∀ j k, j ≠ k → ∀ a ∈ (s.slabs j).map Slab.Address, a ∉ (s.slabs k).map Slab.Address
  leaked : Slabs entrySize s.leaked
  caches : ∀ i, ∀ c ∈ s.caches i, InUse c.Cache c.permitted ∧ c.Cache.Size = entrySize
  partition : Partition s.constructed s.context

omit [DecidableEq ι] in
theorem Inv.slabs (h : Inv s) (j : Option ι) : Slabs entrySize (s.slabs j) := by
  cases j with
  | none => exact h.leaked
  | some i =>
    show Slabs entrySize (((s.caches i).map fun c => c.Cache.SlabList).getD [])
    cases hc : s.caches i with
    | none => exact ⟨nofun, nofun, List.nodup_nil⟩
    | some c =>
      obtain ⟨hinUse, hsize⟩ := h.caches i c hc
      rw [← hsize]
      exact hinUse.ordered.slabs

/-- The constructed entries of the other caches. -/
def State.rest (s : State n ι) (i : ι) : Set ℕ :=
  {o | ∃ j, j ≠ some i ∧ o ∈ objects Slab.Constructed entrySize (s.slabs j)}

omit [DecidableEq ι] in
theorem State.constructed_eq (s : State n ι) (i : ι) : s.constructed =
    objects Slab.Constructed entrySize (s.slabs (some i)) ∪ s.rest i := by
  ext o
  constructor
  · rintro ⟨j, ho⟩
    by_cases hj : j = some i
    · exact .inl (hj ▸ ho)
    · exact .inr ⟨j, hj, ho⟩
  · rintro (ho | ⟨j, -, ho⟩)
    · exact ⟨_, ho⟩
    · exact ⟨j, ho⟩

theorem objects_append (mask : Slab → Mask) (Size : ℕ) (l l' : List Slab) :
    objects mask Size (l ++ l') = objects mask Size l ∪ objects mask Size l' := by
  ext o
  simp only [objects, List.mem_append, Set.mem_union, Set.mem_ofPred_eq]
  constructor
  · rintro ⟨x, hx | hx, ho⟩
    · exact .inl ⟨x, hx, ho⟩
    · exact .inr ⟨x, hx, ho⟩
  · rintro (⟨x, hx, ho⟩ | ⟨x, hx, ho⟩)
    · exact ⟨x, .inl hx, ho⟩
    · exact ⟨x, .inr hx, ho⟩

section Set

variable {c : Option (ClientCache n)} {ctx : Context} {left : List Slab}

theorem slabs_set_self : (s.set i c ctx left).slabs (some i) =
    (c.map fun c => c.Cache.SlabList).getD [] := by
  simp [State.slabs, State.set]

theorem slabs_set_of_ne {j : ι} (hj : j ≠ i) : (s.set i c ctx left).slabs (some j) =
    s.slabs (some j) := by
  simp [State.slabs, State.set, Function.update_of_ne hj]

theorem constructed_set : (s.set i c ctx left).constructed =
    objects Slab.Constructed entrySize ((c.map fun c => c.Cache.SlabList).getD [] ++ left) ∪
      s.rest i := by
  rw [objects_append]
  ext o
  constructor
  · rintro ⟨j, ho⟩
    cases j with
    | none =>
      obtain ho | ho := (objects_append _ _ left s.leaked ▸ ho : o ∈ _ ∪ _)
      · exact .inl (.inr ho)
      · exact .inr ⟨none, nofun, ho⟩
    | some j =>
      by_cases hj : j = i
      · subst hj
        rw [slabs_set_self] at ho
        exact .inl (.inl ho)
      · rw [slabs_set_of_ne hj] at ho
        exact .inr ⟨some j, fun heq => hj (Option.some.inj heq), ho⟩
  · rintro ((ho | ho) | ⟨j, hj, ho⟩)
    · exact ⟨some i, by rwa [slabs_set_self]⟩
    · refine ⟨none, ?_⟩
      show o ∈ objects _ _ (left ++ s.leaked)
      rw [objects_append]
      exact .inl ho
    · cases j with
      | none =>
        refine ⟨none, ?_⟩
        show o ∈ objects _ _ (left ++ s.leaked)
        rw [objects_append]
        exact .inr ho
      | some j => exact ⟨some j, by rwa [slabs_set_of_ne (fun heq => hj (congrArg some heq))]⟩

/-- What a call on cache `i` comes to: its slabs, and those that it has left, are on the pages `A`, which
the other caches do not use, and it has only constructed and destroyed objects there. -/
structure Called (A : List ℕ) (s : State n ι) (i : ι) (c : Option (ClientCache n)) (ctx : Context)
    (left : List Slab) : Prop where
  pages : ∀ a ∈ A, ∀ j, j ≠ some i → a ∉ (s.slabs j).map Slab.Address
  caches : ∀ x ∈ c, InUse x.Cache x.permitted ∧ x.Cache.Size = entrySize
  slabs : Slabs entrySize ((c.map fun c => c.Cache.SlabList).getD [] ++ left)
  addresses : ∀ slab ∈ (c.map fun c => c.Cache.SlabList).getD [] ++ left, slab.Address ∈ A
  steps : Steps client.life (within A)
    (objects Slab.Constructed entrySize (s.slabs (some i)), s.context)
    (objects Slab.Constructed entrySize ((c.map fun c => c.Cache.SlabList).getD [] ++ left), ctx)

/-- To the other caches' objects a call does nothing. -/
theorem Called.frame (hcall : Called A s i c ctx left) (h : Inv s) :
    Steps client.life (within A) (s.constructed, s.context) ((s.set i c ctx left).constructed, ctx) := by
  have hdisj : Disjoint (within A) (s.rest i) := by
    rw [Set.disjoint_left]
    rintro o ho ⟨j, hj, slab, hslab, k, hk, rfl⟩
    have hgood := (h.slabs j).good slab hslab
    have hin : SoundSize entrySize := by decide +kernel
    have hpage := hin.pageAlign_object ((h.slabs j).aligned slab hslab) (hgood.lt_of_mem hk)
    change pageAlign _ ∈ A at ho
    rw [hpage] at ho
    exact hcall.pages _ ho j hj (List.mem_map_of_mem hslab)
  have hframe := hcall.steps.frame hdisj
  rw [s.constructed_eq i, constructed_set]
  exact hframe

/-- **A call on one cache** keeps the invariant. -/
theorem Inv.set (h : Inv s) (hcall : Called A s i c ctx left) : Inv (s.set i c ctx left) := by
  have hown : ∀ a ∈ ((s.set i c ctx left).slabs (some i)).map Slab.Address, a ∈ A := by
    rw [slabs_set_self]
    intro a ha
    obtain ⟨slab, hslab, rfl⟩ := List.mem_map.mp ha
    exact hcall.addresses slab (List.mem_append_left _ hslab)
  have hleft : ∀ a ∈ left.map Slab.Address, a ∈ A := by
    intro a ha
    obtain ⟨slab, hslab, rfl⟩ := List.mem_map.mp ha
    exact hcall.addresses slab (List.mem_append_right _ hslab)
  have hA := hcall.pages
  have hslabs := hcall.slabs
  have hnodup := hslabs.nodup
  rw [List.map_append, List.nodup_append] at hnodup
  obtain ⟨-, hnodup, hcross⟩ := hnodup
  -- the slabs that the others have, or have got
  have hother : ∀ j, j ≠ some i → ∀ a ∈ ((s.set i c ctx left).slabs j).map Slab.Address,
      (j = none ∧ a ∈ left.map Slab.Address) ∨ a ∈ (s.slabs j).map Slab.Address := by
    intro j hj a ha
    cases j with
    | none =>
      change a ∈ (left ++ s.leaked).map Slab.Address at ha
      rw [List.map_append, List.mem_append] at ha
      exact ha.imp_left fun ha => ⟨rfl, ha⟩
    | some j =>
      rw [slabs_set_of_ne (fun heq => hj (congrArg some heq))] at ha
      exact .inr ha
  have hself : ∀ j, j ≠ some i → ∀ a ∈ ((s.set i c ctx left).slabs (some i)).map Slab.Address,
      a ∉ ((s.set i c ctx left).slabs j).map Slab.Address := by
    intro j hj a ha ha'
    obtain ⟨-, ha'⟩ | ha' := hother j hj a ha'
    · rw [slabs_set_self] at ha
      exact hcross a ha a ha' rfl
    · exact hA a (hown a ha) j hj ha'
  refine ⟨h.noFault, ?_, ?_, ?_, ?_⟩
  · intro j k hjk a ha ha'
    by_cases hj : j = some i
    · subst hj
      exact hself k hjk.symm a ha ha'
    · by_cases hk : k = some i
      · subst hk
        exact hself j hj a ha' ha
      · obtain ⟨rfl, hleft'⟩ | hold := hother j hj a ha
        · obtain ⟨rfl, -⟩ | hold' := hother k hk a ha'
          · exact hjk rfl
          · exact hA a (hleft a hleft') k hk hold'
        · obtain ⟨rfl, hleft'⟩ | hold' := hother k hk a ha'
          · exact hA a (hleft a hleft') j hj hold
          · exact h.apart j k hjk a hold hold'
  · show Slabs entrySize (left ++ s.leaked)
    refine ⟨fun x hx => ?_, fun x hx => ?_, ?_⟩
    · obtain hx | hx := List.mem_append.mp hx
      · exact hslabs.good x (List.mem_append_right _ hx)
      · exact h.leaked.good x hx
    · obtain hx | hx := List.mem_append.mp hx
      · exact hslabs.aligned x (List.mem_append_right _ hx)
      · exact h.leaked.aligned x hx
    · rw [List.map_append, List.nodup_append]
      refine ⟨hnodup, h.leaked.nodup, ?_⟩
      rintro a ha b hb rfl
      exact hA a (hleft a ha) none nofun hb
  · intro j x hx
    by_cases hj : j = i
    · subst hj
      apply hcall.caches
      simpa [State.set] using hx
    · apply h.caches j
      simpa [State.set, Function.update_of_ne hj] using hx
  · exact (((hcall.frame h).invariant (partition_preserved False) ⟨h.partition, nofun⟩).1 :)

end Set

/-! ## Calls -/

/-- The contexts agree on the references, on what they are taken from, and on the pages of the frames. -/
structure SameReferences (ctx ctx' : Context) : Prop where
  reference : ∀ o, (ctx'.Object o).Reference = (ctx.Object o).Reference
  rangeSet : ctx'.RangeSet = ctx.RangeSet
  frameIndex : ctx'.FrameIndex = ctx.FrameIndex
  maximumFrameCount : ctx'.MaximumFrameCount = ctx.MaximumFrameCount
  fault : ctx'.fault = ctx.fault
  mdl : ∀ Index, (ctx'.Frame Index).Mdl = (ctx.Frame Index).Mdl

theorem SameReferences.refl (ctx : Context) : SameReferences ctx ctx :=
  ⟨fun _ => rfl, rfl, rfl, rfl, rfl, fun _ => rfl⟩

theorem SameReferences.trans {ctx ctx' ctx'' : Context} (h : SameReferences ctx ctx')
    (h' : SameReferences ctx' ctx'') : SameReferences ctx ctx'' :=
  ⟨fun o => (h'.reference o).trans (h.reference o), h'.rangeSet.trans h.rangeSet,
    h'.frameIndex.trans h.frameIndex, h'.maximumFrameCount.trans h.maximumFrameCount,
    h'.fault.trans h.fault, fun Index => (h'.mdl Index).trans (h.mdl Index)⟩

theorem Partition.congr {K : Set ℕ} {ctx ctx' : Context} (h : Partition K ctx)
    (hsame : SameReferences ctx ctx') : Partition K ctx' where
  noFault := hsame.fault.trans h.noFault
  sound := hsame.rangeSet.symm ▸ h.sound
  small := hsame.maximumFrameCount.symm ▸ h.small
  low := hsame.frameIndex.symm ▸ h.low
  high := by
    rw [hsame.frameIndex, hsame.maximumFrameCount]
    exact h.high
  injective o ho o' ho' := by
    rw [hsame.reference, hsame.reference]
    exact h.injective o ho o' ho'
  disjoint o ho := by
    rw [hsame.reference, hsame.rangeSet]
    exact h.disjoint o ho
  union r := by
    rw [hsame.rangeSet, hsame.frameIndex, ← h.union r]
    simp only [hsame.reference]

/-- Only the reference of an object matters. -/
theorem sameReferences_setObject {ctx : Context} {o : ℕ} {entry : Entry}
    (h : entry.Reference = (ctx.Object o).Reference) :
    SameReferences ctx { ctx with Object := Function.update ctx.Object o entry } := by
  refine ⟨fun x => ?_, rfl, rfl, rfl, rfl, fun _ => rfl⟩
  by_cases hx : x = o
  · subst hx
    simp [h]
  · simp [Function.update_of_ne hx]

theorem sameReferences_setGrant (ctx : Context) (Reference : ℕ) (entry : GrantEntry) :
    SameReferences ctx (ctx.setGrant Reference entry) := by
  refine ⟨fun _ => rfl, rfl, rfl, rfl, rfl, fun Index => ?_⟩
  unfold Context.setGrant
  by_cases hIndex : Index = Reference / entryPerFrame
  · rw [hIndex]
    simp only [Function.update_self]
  · simp only [Function.update_of_ne hIndex]

theorem sameReferences_permitEntry (ctx : Context) (o Domain Pfn : ℕ) (ReadOnly : Bool) :
    SameReferences ctx (permitEntry ctx o Domain Pfn ReadOnly) := by
  unfold permitEntry
  apply SameReferences.trans _ (sameReferences_setGrant _ _ _)
  apply SameReferences.trans _ (sameReferences_setGrant _ _ _)
  exact sameReferences_setObject rfl

theorem revokeDone_cases (cache : Cache n) (cpu : Fin n) (o Attempt : ℕ) (ctx : Context) :
    ∃ ctx', SameReferences ctx ctx' ∧
      (revokeDone cache cpu o Attempt ctx = some (.unsuccessful, cache, ctx') ∨
        revokeDone cache cpu o Attempt ctx =
          (cachePut cache cpu o).map fun cache' => (.success, cache', ctx')) := by
  unfold revokeDone
  by_cases hattempt : Attempt = 100
  · simp only [if_pos hattempt]
    exact ⟨ctx, .refl ctx, .inl rfl⟩
  · simp only [if_neg hattempt]
    refine ⟨_, ?_, .inr rfl⟩
    exact (sameReferences_setGrant ctx _ _).trans (sameReferences_setObject rfl)

/-- What `GnttabRevokeForeignAccess` does: the entry stays, or goes back to its cache. -/
theorem gnttabRevoke_cases (cache : Cache n) (cpu : Fin n) (o : ℕ) (reads : Fin 100 → ℕ × ℕ)
    (ctx : Context) : ∃ ctx', SameReferences ctx ctx' ∧
      (gnttabRevokeForeignAccess cache cpu o reads ctx = some (.unsuccessful, cache, ctx') ∨
        gnttabRevokeForeignAccess cache cpu o reads ctx =
          (cachePut cache cpu o).map fun cache' => (.success, cache', ctx')) := by
  unfold gnttabRevokeForeignAccess
  obtain ⟨Attempt, flags⟩ := revokeLoop 0 (List.ofFn reads)
  cases flags with
  | none => exact revokeDone_cases cache cpu o Attempt ctx
  | some New =>
    obtain ⟨ctx', hsame, hrevoke⟩ := revokeDone_cases cache cpu o Attempt
      (ctx.setGrant (ctx.Object o).Reference { ctx.grant (ctx.Object o).Reference with flags := New })
    exact ⟨ctx', (sameReferences_setGrant _ _ _).trans hsame, hrevoke⟩

theorem Inv.congr {c : Option (ClientCache n)} {ctx ctx' : Context} {left : List Slab}
    (h : Inv (s.set i c ctx left)) (hsame : SameReferences ctx ctx') : Inv (s.set i c ctx' left) :=
  ⟨h.noFault, h.apart, h.leaked, h.caches, h.partition.congr hsame⟩

omit [DecidableEq ι] in
/-- The pages of one cache, and pages that are not in use, are not those of the others. -/
theorem Inv.pages (h : Inv s) (i : ι) {E : List ℕ} (hE : ∀ a ∈ E, ∀ j, a ∉ (s.slabs j).map Slab.Address) :
    ∀ a ∈ (s.slabs (some i)).map Slab.Address ++ E, ∀ j, j ≠ some i →
      a ∉ (s.slabs j).map Slab.Address := by
  intro a ha j hj
  obtain ha | ha := List.mem_append.mp ha
  · exact h.apart (some i) j hj.symm a ha
  · exact hE a ha j

omit [DecidableEq ι] in
theorem slabs_some {c : ClientCache n} (hc : s.caches i = some c) :
    s.slabs (some i) = c.Cache.SlabList := by
  simp [State.slabs, hc]

omit [DecidableEq ι] in
/-- **A call on a cache that is there.** -/
theorem Inv.effect (h : Inv s) {c : ClientCache n} (hc : s.caches i = some c)
    (hA : ∀ a ∈ A, ∀ j, j ≠ some i → a ∉ (s.slabs j).map Slab.Address) {cache : Cache n}
    {permitted : List ℕ} {ctx : Context} (hinUse : InUse cache permitted)
    (heffect : Effect client A c.Cache s.context cache ctx) :
    Called A s i (some ⟨cache, permitted⟩) ctx [] := by
  have hsize : cache.Size = entrySize := heffect.size.trans (h.caches i c hc).2
  have hlist : ((some (⟨cache, permitted⟩ : ClientCache n)).map fun c => c.Cache.SlabList).getD [] ++ [] =
      cache.SlabList := List.append_nil _
  refine ⟨hA, ?_, ?_, ?_, ?_⟩
  · intro x hx
    obtain rfl := Option.some.inj hx
    exact ⟨hinUse, hsize⟩
  · rw [hlist, ← hsize]
    exact hinUse.ordered.slabs
  · rw [hlist]
    exact heffect.addresses
  · have hsteps := heffect.steps
    rw [Cache.constructed, Cache.constructed, hsize, (h.caches i c hc).2] at hsteps
    rw [hlist, slabs_some hc]
    exact hsteps

omit [DecidableEq ι] in
/-- **A call after which there is no cache**, with the slabs that it leaves. -/
theorem called_gone (hA : ∀ a ∈ A, ∀ j, j ≠ some i → a ∉ (s.slabs j).map Slab.Address)
    {ctx : Context} {left : List Slab} (hslabs : Slabs entrySize left)
    (haddr : ∀ slab ∈ left, slab.Address ∈ A)
    (hsteps : Steps client.life (within A)
      (objects Slab.Constructed entrySize (s.slabs (some i)), s.context)
      (objects Slab.Constructed entrySize left, ctx)) : Called A s i none ctx left :=
  ⟨hA, fun _ hx => absurd hx (Option.not_mem_none _), hslabs, haddr, hsteps⟩

/-- The pages that the allocations of a call return. -/
def pagesOf (allocs : List SlabAlloc) : List ℕ := allocs.filterMap SlabAlloc.Slab

theorem mem_pagesOf {allocs : List SlabAlloc} {alloc : SlabAlloc} (h : alloc ∈ allocs) :
    ∀ a ∈ alloc.Slab, a ∈ pagesOf allocs := fun _ ha => List.mem_filterMap.mpr ⟨alloc, h, ha⟩

omit [DecidableEq ι] in
theorem notMem_of_unused {allocs : List SlabAlloc} (h : ∀ alloc ∈ allocs, s.Unused alloc) :
    ∀ a ∈ pagesOf allocs, ∀ j, a ∉ (s.slabs j).map Slab.Address := by
  intro a ha
  obtain ⟨alloc, halloc, ha⟩ := List.mem_filterMap.mp ha
  exact (h alloc halloc a ha).2

omit [DecidableEq ι] in
/-- An unused page is not one of the cache's own. -/
theorem fresh_of_unused {c : ClientCache n} (hc : s.caches i = some c) {alloc : SlabAlloc}
    (h : s.Unused alloc) : c.Cache.Fresh alloc := by
  intro a ha
  obtain ⟨halign, hout⟩ := h a ha
  have hown := hout (some i)
  rw [slabs_some hc] at hown
  exact ⟨halign, hown⟩

theorem objects_nil (mask : Slab → Mask) (Size : ℕ) : objects mask Size [] = ∅ := by
  ext o
  simp [objects]

omit [DecidableEq ι] in
/-- `GnttabCreateCache` where there is no cache. -/
theorem Inv.created (h : Inv s) (hnone : s.caches i = none) {Reservation : ℕ} (Cap : ℕ)
    (allocate name : Bool) {outcome : CreateOutcome}
    (hfresh : FillAll Cache.Fresh Reservation outcome.Slabs (newCache n entrySize Reservation Cap))
    (hunused : ∀ alloc ∈ outcome.Slabs, s.Unused alloc) :
    Called ((s.slabs (some i)).map Slab.Address ++ pagesOf outcome.Slabs) s i
      ((gnttabCreateCache n Reservation Cap allocate name outcome s.context).2.1.map (⟨·, []⟩))
      (gnttabCreateCache n Reservation Cap allocate name outcome s.context).2.2 [] := by
  have hnil : s.slabs (some i) = [] := by simp [State.slabs, hnone]
  have hA := h.pages i (notMem_of_unused hunused)
  have hempty : Slabs entrySize [] :=
    ⟨fun _ hx => absurd hx List.not_mem_nil, fun _ hx => absurd hx List.not_mem_nil, List.nodup_nil⟩
  have hnothing : ∀ ctx, Steps client.life
      (within ((s.slabs (some i)).map Slab.Address ++ pagesOf outcome.Slabs)) (∅, s.context) (∅, ctx) →
      Called ((s.slabs (some i)).map Slab.Address ++ pagesOf outcome.Slabs) s i none ctx [] := by
    intro ctx hsteps
    apply called_gone hA hempty fun _ hx => absurd hx List.not_mem_nil
    rw [hnil, objects_nil]
    rw [hnil] at hsteps
    exact hsteps
  unfold gnttabCreateCache
  cases allocate with
  | false => exact hnothing _ (.refl _)
  | true =>
    cases name with
    | false => exact hnothing _ (.refl _)
    | true =>
      have hsize : SoundSize (p2RoundUp entrySize 8) := by decide +kernel
      obtain ⟨status, cache, ctx, hcreate, hsteps, hcache⟩ :=
        cacheCreate_spec (A := (s.slabs (some i)).map Slab.Address ++ pagesOf outcome.Slabs)
          client hsize hfresh s.context
          fun alloc halloc a ha => List.mem_append_right _ (mem_pagesOf halloc a ha)
      simp only [Bool.not_true, Bool.false_eq_true, if_false, hcreate]
      cases cache with
      | none => exact hnothing _ hsteps
      | some cache =>
        obtain ⟨hinUse, hsize', hcon, haddr⟩ := hcache cache rfl
        have hround : p2RoundUp entrySize 8 = entrySize := by decide
        rw [hround] at hsize'
        have hlist : (((some cache).map (fun x => (⟨x, []⟩ : ClientCache n))).map
            fun c => c.Cache.SlabList).getD [] ++ [] = cache.SlabList := List.append_nil _
        refine ⟨hA, ?_, ?_, ?_, ?_⟩
        · intro x hx
          obtain rfl := Option.some.inj hx
          exact ⟨hinUse, hsize'⟩
        · rw [hlist, ← hsize']
          exact hinUse.ordered.slabs
        · rw [hlist]
          exact haddr
        · rw [Cache.constructed, hsize'] at hcon
          rw [hlist, hcon, hnil, objects_nil]
          rw [hnil] at hsteps
          exact hsteps

/-- **What a call does**: a call on one cache, up to what does not matter for the references. -/
theorem Inv.called (h : Inv s) {a : Act n ι} (hG : Managed s a) (hs : Gnttab.step s a = some t) :
    ∃ A i c ctx ctx' left, t = s.set i c ctx' left ∧ Called A s i c ctx left ∧ SameReferences ctx ctx' := by
  unfold Gnttab.step at hs
  have hfault : ¬ s.fault = true := by simp [h.noFault]
  rw [if_neg hfault] at hs
  have hown : ∀ {i : ι} {c : ClientCache n} (E : List ℕ), s.caches i = some c →
      ∀ slab ∈ c.Cache.SlabList, slab.Address ∈ (s.slabs (some i)).map Slab.Address ++ E := by
    intro i c E hc slab hslab
    rw [slabs_some hc]
    exact List.mem_append_left _ (List.mem_map_of_mem hslab)
  have hnew : ∀ {i : ι} {allocs : List SlabAlloc}, ∀ alloc ∈ allocs, ∀ a ∈ alloc.Slab,
      a ∈ (s.slabs (some i)).map Slab.Address ++ pagesOf allocs :=
    fun alloc halloc a ha => List.mem_append_right _ (mem_pagesOf halloc a ha)
  cases a with
  | createCache i Reservation Cap allocate name outcome =>
    dsimp only at hs
    split_ifs at hs with hnone
    obtain rfl := Option.some.inj hs
    exact ⟨_, _, _, _, _, _, rfl,
      h.created (Option.not_isSome_iff_eq_none.mp hnone) Cap allocate name hG.1 hG.2, .refl _⟩
  | permit i cpu alloc Domain Pfn ReadOnly =>
    obtain ⟨c, hc, rfl⟩ := Option.map_eq_some_iff.mp hs
    have hunused : ∀ x ∈ [alloc], s.Unused x := by
      intro x hx
      rw [List.mem_singleton.mp hx]
      exact hG
    have hA := h.pages i (notMem_of_unused hunused)
    obtain ⟨o, cache, ctx, hget, hinUse, heffect⟩ := cacheGet_spec client (h.caches i c hc).1 (hown _ hc)
      (hnew alloc List.mem_cons_self) (fresh_of_unused hc hG) cpu s.context
    simp only [gnttabPermitForeignAccess, hget]
    have hcalled := h.effect hc hA hinUse heffect
    cases o with
    | none => exact ⟨_, _, _, _, _, _, rfl, hcalled, .refl _⟩
    | some o => exact ⟨_, _, _, _, _, _, rfl, hcalled, sameReferences_permitEntry _ _ _ _ _⟩
  | revoke i cpu o reads =>
    obtain ⟨c, hc, hs⟩ := Option.bind_eq_some_iff.mp hs
    split_ifs at hs with ho
    have hA := h.pages i (E := []) nofun
    obtain ⟨cache, hput, hinUse, heffect⟩ :=
      cachePut_spec client (h.caches i c hc).1 (hown [] hc) ho cpu s.context
    have hcalled := h.effect hc hA hinUse heffect
    -- an entry that could not be revoked stays where it is
    have hstay := h.effect hc hA (h.caches i c hc).1 ⟨rfl, hown [] hc, .refl _⟩
    obtain ⟨ctx, hsame, hrevoke | hrevoke⟩ := gnttabRevoke_cases c.Cache cpu o reads s.context
    · rw [hrevoke] at hs
      exact ⟨_, _, _, _, _, _, (Option.some.inj hs).symm, hstay, hsame⟩
    · rw [hrevoke, hput] at hs
      exact ⟨_, _, _, _, _, _, (Option.some.inj hs).symm, hcalled, hsame⟩
  | fill i Count allocs =>
    obtain ⟨c, hc, rfl⟩ := Option.map_eq_some_iff.mp hs
    have hA := h.pages i (notMem_of_unused hG.2)
    obtain ⟨hinUse, heffect, -⟩ := cacheFill_spec client (h.caches i c hc).1 (hown _ hc) hnew
      (hG.1 c hc) s.context
    exact ⟨_, _, _, _, _, _, rfl, h.effect hc hA hinUse heffect, .refl _⟩
  | spill i Count =>
    obtain ⟨c, hc, rfl⟩ := Option.map_eq_some_iff.mp hs
    have hA := h.pages i (E := []) nofun
    obtain ⟨hinUse, heffect⟩ := cacheSpill_spec client Count (h.caches i c hc).1 (hown _ hc) s.context
    exact ⟨_, _, _, _, _, _, rfl, h.effect hc hA hinUse heffect, .refl _⟩
  | destroyCache i =>
    obtain ⟨c, hc, hs⟩ := Option.bind_eq_some_iff.mp hs
    have hA := h.pages i (E := []) nofun
    obtain ⟨hinUse, hsize⟩ := h.caches i c hc
    obtain ⟨left, ctx, hdestroy, hslabs, haddr, hsteps⟩ :=
      cacheDestroy_spec client hinUse (hown [] hc) s.context
    rw [hdestroy] at hs
    obtain rfl := Option.some.inj hs
    rw [hsize] at hslabs
    rw [Cache.constructed, hsize] at hsteps
    rw [← slabs_some hc] at hsteps
    exact ⟨_, _, _, _, _, _, rfl, called_gone hA hslabs haddr hsteps, .refl _⟩

/-- **A call keeps the invariant.** -/
theorem Inv.step (h : Inv s) {a : Act n ι} (hG : Managed s a) (hs : step s a = some t) : Inv t := by
  obtain ⟨A, i, c, ctx, ctx', left, rfl, hcalled, hsame⟩ := h.called hG hs
  exact (h.set hcalled).congr hsame

/-! ## Runs -/

omit [DecidableEq ι] in
theorem Inv.unshared {s : State n ι} (h : Inv s) : Unshared s where
  noFault := ⟨h.noFault, h.partition.noFault⟩
  inRange o ho := by
    have := (h.partition.union _).mp (.inr ⟨o, ho, rfl⟩)
    exact ⟨by exact_mod_cast this.1, this.2⟩
  injective := h.partition.injective
  disjoint := h.partition.disjoint
  union := h.partition.union

omit [DecidableEq ι] in
theorem inv_init {MaximumFrameCount : ℕ} (hmax : MaximumFrameCount * entryPerFrame ≤ 4294967296)
    (Frame : ℕ → Frame) (Object : ℕ → Entry) (Outcome : ℕ → ExpandOutcome) :
    Inv (init n ι (initContext MaximumFrameCount Frame Object Outcome)) := by
  have hslabs : ∀ j, (init n ι (initContext MaximumFrameCount Frame Object Outcome)).slabs j = [] :=
    fun j => by cases j <;> rfl
  have hnone : ∀ o, o ∉ (init n ι (initContext MaximumFrameCount Frame Object Outcome)).constructed := by
    rintro o ⟨j, ho⟩
    rw [hslabs, objects_nil] at ho
    exact ho
  refine ⟨rfl, fun j k _ a ha => ?_, ⟨nofun, nofun, List.nodup_nil⟩, fun i c hc => ?_, ?_⟩
  · rw [hslabs] at ha
    exact absurd ha List.not_mem_nil
  · exact absurd hc (Option.not_mem_none _)
  · refine ⟨rfl, sound_create, hmax, le_rfl, ?_, fun o ho => absurd ho (hnone o),
      fun o ho => absurd ho (hnone o), fun r => ?_⟩
    · show (-1 : ℤ) < MaximumFrameCount
      omega
    · have hitems : r ∉ rangeSetCreate.items := by simp [items, rangeSetCreate, IntInterval.items]
      show (r ∈ rangeSetCreate.items ∨ _) ↔ (reservedEntryCount : ℤ) ≤ r ∧ r < (-1 + 1) * entryPerFrame
      constructor
      · rintro (hr | ⟨o, ho, -⟩)
        · exact absurd hr hitems
        · exact absurd ho (hnone o)
      · intro hr
        unfold reservedEntryCount at hr
        omega

/-- **Grant references are not shared and are in range**, along every run of calls on any number of
caches, whatever expansions and allocations fail. -/
theorem unshared_of_reaches {MaximumFrameCount : ℕ}
    (hmax : MaximumFrameCount * entryPerFrame ≤ 4294967296) (Frame : ℕ → Frame) (Object : ℕ → Entry)
    (Outcome : ℕ → ExpandOutcome)
    (h : Reaches step Managed (init n ι (initContext MaximumFrameCount Frame Object Outcome)) s) :
    Unshared s := by
  have hinv : Inv s := h.invariant (inv_init hmax Frame Object Outcome)
    fun s a t hs hG hstep => hs.step hG hstep
  exact hinv.unshared

/-- Expansions that succeed, but for the first one, whose range cannot be put. -/
def secondExpansion : ℕ → ExpandOutcome := fun k => ⟨some (100 + k), .success, k ≠ 0⟩

/-- Two clients: the first expansion fails, and the first permit with it; then each of them has an entry
permitted, the first revokes its own and goes, and the second has another one permitted. -/
def twoClients [NeZero n] (i j : ι) : List (Act n ι) :=
  [.createCache i 0 0 true true ⟨true, true, [], true⟩,
    .createCache j 0 0 true true ⟨true, true, [], true⟩,
    .permit i 0 (page 4096) 1 500 false, .permit i 0 ⟨none, true, true⟩ 1 500 false,
    .permit j 0 (page 8192) 2 501 true, .revoke i 0 4144 (fun _ => (1, 1)), .destroyCache i,
    .permit j 0 ⟨none, true, true⟩ 2 502 false]

/-- The references of the second client are 33, and 32, which the first had before. -/
theorem unshared_of_reaches_two : ∃ s : State 1 (Fin 2),
    guardedRun step Managed (init 1 (Fin 2) (initContext 4 (fun _ => ⟨none, fun _ => .zero⟩)
      (fun _ => ⟨0, .zero⟩) secondExpansion)) (twoClients 0 1) = some s ∧
    ((s.caches 1).map ClientCache.permitted = some [8256, 8240] ∧
      (s.context.Object 8240).Reference = 33 ∧ (s.context.Object 8256).Reference = 32) ∧
    Unshared s := by
  obtain ⟨s, hs, hrefs⟩ := (Option.any_eq_true (fun s : State 1 (Fin 2) =>
      decide ((s.caches 1).map ClientCache.permitted = some [8256, 8240] ∧
        (s.context.Object 8240).Reference = 33 ∧ (s.context.Object 8256).Reference = 32))
    (guardedRun step Managed (init 1 (Fin 2) (initContext 4 (fun _ => ⟨none, fun _ => .zero⟩)
      (fun _ => ⟨0, .zero⟩) secondExpansion)) (twoClients 0 1))).mp (by decide +kernel)
  exact ⟨s, hs, of_decide_eq_true hrefs,
    unshared_of_reaches (by decide) _ _ _ (reaches_of_guardedRun hs)⟩

end XenBus.Gnttab
