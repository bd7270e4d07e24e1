import XenBus.ObjectCache.Blocks

/-!
# Constructor and destructor calls pair up

The life of a cache from `CacheCreate` to `CacheDestroy`, with a client that records the calls of its
constructor and its destructor. What the cache does to the record is a sequence of steps of an object
store, so the objects that are constructed after the calls are those that the masks say
(`Recorded`), and the calls for each object alternate. The destructors that a step calls are those of the
constructed objects of the slabs that it frees, each of them once, and none of these objects is with a
user or in a magazine (`Frees`).

This holds for objects of any size. With a size for which `PAGE_ALIGN` of an object is not its slab,
`CachePut` and `CacheDestroy` may follow a pointer to something that is not a slab, and the run ends
there.
-/

namespace XenBus.ObjectCache

open MachineInt Construction Transition

variable {n : ℕ} {σ : Type*} {client : Client σ} {o : ℕ}

/-! ## Calls -/

/-- A call of `Ctor`, with its outcome, or of `Dtor`. -/
inductive Call
  | ctor (Object : ℕ) (success : Bool)
  | dtor (Object : ℕ)
  deriving DecidableEq

section

variable {calls l : List Call}

/-- The client with a record of its calls, the last one first. -/
def Client.logged (client : Client σ) : Client (σ × List Call) where
  Ctor o s := ((client.Ctor o s.1).1,
    ((client.Ctor o s.1).2, .ctor o (client.Ctor o s.1).1.ntSuccess :: s.2))
  Dtor o s := (client.Dtor o s.1, .dtor o :: s.2)

/-- Whether the object is constructed after the calls. -/
def live (o : ℕ) : List Call → Bool
  | [] => false
  | .ctor x success :: calls => if x = o then success else live o calls
  | .dtor x :: calls => if x = o then false else live o calls

/-- The constructor is called for an object that is not constructed, and the destructor for one that
is. -/
def Proper : List Call → Prop
  | [] => True
  | .ctor x _ :: calls => live x calls = false ∧ Proper calls
  | .dtor x :: calls => live x calls = true ∧ Proper calls

/-- The successful constructor calls (`true`) and the destructor calls (`false`) for an object, the last
one first. -/
def history (o : ℕ) : List Call → List Bool
  | [] => []
  | .ctor x success :: calls => if x = o ∧ success then true :: history o calls else history o calls
  | .dtor x :: calls => if x = o then false :: history o calls else history o calls

/-- The two alternate, and the first one is `true`. -/
def Alternates : List Bool → Prop
  | [] => True
  | b :: calls => b = !calls.headD false ∧ Alternates calls

/-- Calls in proper order alternate. -/
theorem Proper.alternates (h : Proper calls) (o : ℕ) :
    Alternates (history o calls) ∧ (history o calls).headD false = live o calls := by
  induction calls with
  | nil => exact ⟨trivial, rfl⟩
  | cons call calls ih =>
    cases call with
    | ctor x success =>
      obtain ⟨halt, hhead⟩ := ih h.2
      by_cases hx : x = o
      · subst hx
        cases success with
        | true =>
          have heq : history x (.ctor x true :: calls) = true :: history x calls := if_pos ⟨rfl, rfl⟩
          rw [heq]
          refine ⟨⟨?_, halt⟩, (if_pos rfl).symm⟩
          rw [hhead, h.1]
          rfl
        | false =>
          have heq : history x (.ctor x false :: calls) = history x calls := if_neg (by simp)
          rw [heq]
          exact ⟨halt, hhead.trans (h.1.trans (if_pos rfl).symm)⟩
      · have heq : history o (.ctor x success :: calls) = history o calls := if_neg fun h => hx h.1
        rw [heq]
        exact ⟨halt, hhead.trans (if_neg hx).symm⟩
    | dtor x =>
      obtain ⟨halt, hhead⟩ := ih h.2
      by_cases hx : x = o
      · subst hx
        have heq : history x (.dtor x :: calls) = false :: history x calls := if_pos rfl
        rw [heq]
        refine ⟨⟨?_, halt⟩, (if_pos rfl).symm⟩
        rw [hhead, h.1]
        rfl
      · have heq : history o (.dtor x :: calls) = history o calls := if_neg hx
        rw [heq]
        exact ⟨halt, hhead.trans (if_neg hx).symm⟩

/-- The objects `K` are constructed after the calls, which are in proper order. -/
structure Recorded (K : Set ℕ) (calls : List Call) : Prop where
  proper : Proper calls
  live : ∀ o, live o calls = true ↔ o ∈ K

/-- **The record of an object store.** -/
theorem recorded_preserved (client : Client σ) :
    Preserved client.logged.life fun K s => Recorded K s.2 where
  make {K s s' o} h hK hmake := by
    obtain ⟨status, hctor, hok⟩ := hmake
    obtain ⟨rfl, rfl⟩ := Prod.mk.inj hctor
    have hout : ObjectCache.live o s.2 = false := eq_false_of_ne_true fun hl => hK ((h.live o).mp hl)
    refine ⟨⟨hout, h.proper⟩, fun x => ?_⟩
    change (if o = x then _ else ObjectCache.live x s.2) = true ↔ x ∈ insert o K
    split_ifs with hx
    · exact iff_of_true hok (.inl hx.symm)
    · rw [h.live, Set.mem_insert_iff, or_iff_right fun heq => hx heq.symm]
  refuse {K s s' o} h hK hrefuse := by
    obtain ⟨status, hctor, hok⟩ := hrefuse
    obtain ⟨rfl, rfl⟩ := Prod.mk.inj hctor
    have hout : ObjectCache.live o s.2 = false := eq_false_of_ne_true fun hl => hK ((h.live o).mp hl)
    refine ⟨⟨hout, h.proper⟩, fun x => ?_⟩
    change (if o = x then _ else ObjectCache.live x s.2) = true ↔ x ∈ K
    split_ifs with hx
    · subst hx
      exact iff_of_false (fun ht => absurd (hok.symm.trans ht) nofun) hK
    · exact h.live x
  destroy {K s o} h hK := by
    refine ⟨⟨(h.live o).mpr hK, h.proper⟩, fun x => ?_⟩
    change (if o = x then false else ObjectCache.live x s.2) = true ↔ x ∈ K \ {o}
    split_ifs with hx
    · exact iff_of_false nofun fun hmem => hmem.2 hx.symm
    · rw [h.live]
      exact ⟨fun hmem => ⟨hmem, fun heq => hx heq.symm⟩, And.left⟩

/-- The record grows. -/
theorem grows_preserved (client : Client σ) (calls : List Call) :
    Preserved client.logged.life fun _ s => ∃ l, s.2 = l ++ calls where
  make h _ hmake := by
    obtain ⟨status, hctor, -⟩ := hmake
    obtain ⟨rfl, rfl⟩ := Prod.mk.inj hctor
    obtain ⟨l, hl⟩ := h
    exact ⟨_ :: l, congrArg (List.cons _) hl⟩
  refuse h _ hrefuse := by
    obtain ⟨status, hctor, -⟩ := hrefuse
    obtain ⟨rfl, rfl⟩ := Prod.mk.inj hctor
    obtain ⟨l, hl⟩ := h
    exact ⟨_ :: l, congrArg (List.cons _) hl⟩
  destroy h _ := by
    obtain ⟨l, hl⟩ := h
    exact ⟨_ :: l, congrArg (List.cons _) hl⟩

/-! ## Calls of the destructor only -/

/-- Only destructors are called. -/
def Destructors (l : List Call) : Prop := ∀ call ∈ l, ∃ o, call = .dtor o

/-- An object whose destructor is called is destroyed once. -/
theorem count_dtor (hl : Destructors l) (hp : Proper (l ++ calls)) (hlive : live o calls = true)
    (hdead : live o (l ++ calls) = false) : l.count (.dtor o) = 1 := by
  induction l with
  | nil => exact absurd (hlive.symm.trans hdead) nofun
  | cons call l ih =>
    obtain ⟨x, rfl⟩ := hl call List.mem_cons_self
    have hl' : Destructors l := fun c hc => hl c (List.mem_cons_of_mem _ hc)
    by_cases hx : x = o
    · subst hx
      -- it was constructed until now: there was no call of its destructor
      have hnone : ∀ l : List Call, Destructors l → Proper (l ++ calls) →
          live x (l ++ calls) = true → l.count (.dtor x) = 0 := by
        intro l
        induction l with
        | nil => exact fun _ _ _ => rfl
        | cons call l ih =>
          intro hl hp hlive
          obtain ⟨y, rfl⟩ := hl call List.mem_cons_self
          change (if y = x then false else live x (l ++ calls)) = true at hlive
          split_ifs at hlive with hy
          rw [List.count_cons_of_ne (by simpa using hy)]
          exact ih (fun c hc => hl c (List.mem_cons_of_mem _ hc)) hp.2 hlive
      rw [List.count_cons_self, hnone l hl' hp.2 hp.1]
    · rw [List.count_cons_of_ne (by simpa using hx)]
      refine ih hl' hp.2 ?_
      change (if x = o then false else live o (l ++ calls)) = false at hdead
      rwa [if_neg hx] at hdead

end

/-! ## Calls of a section -/

variable {c : σ × List Call} {cache : Cache n}

/-- The loop of `CacheDestroySlab` calls the destructor for constructed objects. -/
theorem destroyObjects_calls (client : Client σ) (Size : ℕ) (slab : Slab) (Index : ℕ) (m : Mask)
    (c : σ × List Call) : ∃ l, (destroyObjects client.logged Size slab Index m c).2.2 = l ++ c.2 ∧
      ∀ call ∈ l, ∃ i ∈ m.Bits, call = .dtor (slab.object Size i) := by
  induction Index generalizing m c with
  | zero => exact ⟨[], rfl, nofun⟩
  | succ Index ih =>
    unfold destroyObjects
    split_ifs with hin
    · obtain ⟨l, hl, hcalls⟩ := ih (cacheMaskClear m Index)
        (client.logged.Dtor (slab.object Size Index) c)
      refine ⟨l ++ [.dtor (slab.object Size Index)], ?_, fun call hcall => ?_⟩
      · rw [hl, List.append_assoc]
        rfl
      · rcases List.mem_append.mp hcall with hcall | hcall
        · obtain ⟨i, hi, heq⟩ := hcalls call hcall
          exact ⟨i, Finset.mem_of_mem_erase hi, heq⟩
        · exact ⟨Index, of_decide_eq_true hin, List.mem_singleton.mp hcall⟩
    · exact ih m c

/-- `CacheSpill` calls the destructor only, and for objects that are not allocated. -/
structure SpillCalls (cache : Cache n) (l : List Call) : Prop where
  destructors : Destructors l
  free : ∀ o, .dtor o ∈ l → o ∉ cache.allocated

theorem SpillCalls.nil : SpillCalls cache [] := ⟨nofun, nofun⟩

/-- The objects of a slab with no allocated one are not allocated. -/
theorem Blocks.notMem_allocated (h : Blocks cache.Size cache.SlabList) {slab : Slab}
    (hslab : slab ∈ cache.SlabList) (hempty : slab.Allocated.Count = 0) {i : ℕ}
    (hi : i ∈ slab.Constructed.Bits) : slab.object cache.Size i ∉ cache.allocated := by
  rintro ⟨x, hx, j, hj, heq⟩
  have hgood := h.good slab hslab
  have hgood' := h.good x hx
  obtain ⟨haddr, -⟩ := h.separate x hx slab hslab j (hgood'.lt_of_mem (hgood'.subset hj)) i
    (hgood.lt_of_mem hi) heq
  obtain rfl := List.inj_on_of_nodup_map h.nodup hx hslab haddr
  have hcount := hgood.allocatedCount
  rw [hempty] at hcount
  rw [Finset.card_eq_zero.mp hcount.symm] at hj
  exact Finset.notMem_empty j hj

theorem spillLoop_calls (client : Client σ) (Count fuel : ℕ) (h : Blocks cache.Size cache.SlabList)
    (c : σ × List Call) :
    ∃ l, (spillLoop client.logged Count fuel cache c).2.2 = l ++ c.2 ∧ SpillCalls cache l := by
  induction fuel generalizing cache c with
  | zero => exact ⟨[], rfl, .nil⟩
  | succ fuel ih =>
    unfold spillLoop
    obtain hnil | ⟨pre, slab, hlist⟩ := List.eq_nil_or_concat cache.SlabList
    · rw [hnil]
      exact ⟨[], rfl, .nil⟩
    · have hlist : cache.SlabList = pre ++ [slab] := by simpa using hlist
      have hlast : cache.SlabList.getLast? = some slab := by simp [hlist]
      have hslab : slab ∈ cache.SlabList := by simp [hlist]
      simp only [hlast]
      split_ifs with hcount
      · exact ⟨[], rfl, .nil⟩
      · exact ⟨[], rfl, .nil⟩
      · have hempty := not_not.mp hcount
        obtain ⟨hmoved, hsame, -⟩ := cacheDestroySlab_moved client.logged h hlist hempty c
        obtain ⟨l₁, hl₁, hcalls₁⟩ := destroyObjects_calls client cache.Size slab slab.Constructed.Size
          slab.Constructed c
        obtain ⟨l, hl, hd, hfree⟩ := ih hmoved.blocks (cacheDestroySlab client.logged cache slab c).2
        refine ⟨l ++ l₁, ?_, fun call hcall => ?_, fun o ho => ?_⟩
        · rw [hl, List.append_assoc, ← hl₁]
          rfl
        · rcases List.mem_append.mp hcall with hcall | hcall
          · exact hd call hcall
          · obtain ⟨i, -, heq⟩ := hcalls₁ call hcall
            exact ⟨_, heq⟩
        · rcases List.mem_append.mp ho with ho | ho
          · exact hsame.allocated ▸ hfree o ho
          · obtain ⟨i, hi, heq⟩ := hcalls₁ _ ho
            obtain rfl := Call.dtor.inj heq
            exact h.notMem_allocated hslab hempty hi

theorem cacheSpill_calls (client : Client σ) (Count : ℕ) (h : Blocks cache.Size cache.SlabList)
    (c : σ × List Call) :
    ∃ l, (cacheSpill client.logged Count cache c).2.2 = l ++ c.2 ∧ SpillCalls cache l := by
  unfold cacheSpill
  split_ifs
  · exact ⟨[], rfl, .nil⟩
  · exact spillLoop_calls client Count _ h c

/-- `CacheGet` calls the constructor once at most, and no destructor. -/
def GetCalls (c c' : σ × List Call) : Prop := c'.2 = c.2 ∨ ∃ o success, c'.2 = .ctor o success :: c.2

theorem getFromCursor_calls (client : Client σ) (cache : Cache n) (a : ℕ) (c : σ × List Call) :
    GetCalls c (getFromCursor client.logged cache a c).2.2 := by
  have hslab : ∀ slab, GetCalls c (cacheGetObjectFromSlab client.logged cache.Size slab c).2.2 := by
    intro slab
    unfold cacheGetObjectFromSlab
    split_ifs
    · exact .inl rfl
    · dsimp only
      split_ifs
      · exact .inl rfl
      · exact .inr ⟨_, _, rfl⟩
      · exact .inr ⟨_, _, rfl⟩
  unfold getFromCursor
  split
  · exact .inl rfl
  · exact hslab _

theorem cacheGetLocked_calls (client : Client σ) (cache : Cache n) (alloc : SlabAlloc)
    (c : σ × List Call) : GetCalls c (cacheGetLocked client.logged cache alloc c).2.2 := by
  unfold cacheGetLocked
  split
  · exact getFromCursor_calls client cache _ c
  · split
    · split
      · exact getFromCursor_calls client _ _ c
      · exact .inl rfl
    · exact .inl rfl

/-! ## The life of a cache -/

/-- Where the cache is in its life. -/
inductive Stage (n : ℕ) (σ : Type*)
  /-- Before `CacheCreate`. -/
  | new (c : σ)
  | alive (s : State n σ)
  /-- `CacheDestroy` has returned, or `CacheCreate` has failed. These slabs have not been freed. -/
  | ended (Size : ℕ) (slabs : List Slab) (c : σ)

/-- What happens in it. -/
inductive Event (n : ℕ)
  | create (Size Reservation Cap : ℕ) (outcome : CreateOutcome)
  | act (a : Act n)
  | destroy

/-- One step. The cache is destroyed when no user has an object and no call is going on. -/
def lifeStep (client : Client σ) : Stage n σ → Event n → Option (Stage n σ)
  | .new c, .create Size Reservation Cap outcome =>
    match cacheCreate client n Size Reservation Cap outcome c with
    | (_, some cache, c') => some (.alive ⟨cache, c', [], fun _ => .idle, false⟩)
    | (_, none, c') => some (.ended 0 [] c')
  | .alive s, .act a => (step client s a).map .alive
  | .alive s, .destroy =>
    if s.fault = false ∧ s.held = [] ∧ ∀ cpu, s.pending cpu = .idle then
      match cacheDestroy client s.cache s.client with
      | some (slabs, c') => some (.ended s.cache.Size slabs c')
      | none => some (.alive { s with fault := true })
    else none
  | _, _ => none

/-- The blocks that the memory manager returns do not overlap those of the cache. -/
def Lawful : Stage n σ → Event n → Prop
  | _, .create Size Reservation Cap outcome =>
    FillAll Cache.FreshBlock Reservation outcome.Slabs (newCache n Size Reservation Cap)
  | .alive s, .act a => Creates Cache.FreshBlock s a
  | _, _ => True

instance : (stage : Stage n σ) → (e : Event n) → Decidable (Lawful stage e)
  | .new _, .create .. => decidableFillAll _ _ _ _
  | .new _, .act _ => isTrue trivial
  | .new _, .destroy => isTrue trivial
  | .alive _, .create .. => decidableFillAll _ _ _ _
  | .alive s, .act a => inferInstanceAs (Decidable (Creates _ s a))
  | .alive _, .destroy => isTrue trivial
  | .ended .., .create .. => decidableFillAll _ _ _ _
  | .ended .., .act _ => isTrue trivial
  | .ended .., .destroy => isTrue trivial

namespace Stage

/-- The calls so far. -/
def calls : Stage n (σ × List Call) → List Call
  | .new c => c.2
  | .alive s => s.client.2
  | .ended _ _ c => c.2

/-- The slabs that have not been freed. -/
def slabs : Stage n σ → List Slab
  | .new _ => []
  | .alive s => s.cache.SlabList
  | .ended _ slabs _ => slabs

/-- The size of an object. -/
def Size : Stage n σ → ℕ
  | .new _ => 0
  | .alive s => s.cache.Size
  | .ended Size _ _ => Size

/-- The object is with a user, or in a magazine. -/
def used : Stage n σ → ℕ → Prop
  | .alive s, o => 0 < clients s.held s.pending o + inMagazines s.cache.Magazine o
  | _, _ => False

/-- It is when the event calls destructors, which `CacheDestroy` does when it has emptied the
magazines. -/
def usedIn (stage : Stage n σ) (e : Event n) (o : ℕ) : Prop :=
  match stage, e with
  | .alive s, .destroy => ∃ cache ∈ cacheFlushMagazines s.cache,
    0 < clients s.held s.pending o + inMagazines cache.Magazine o
  | stage, _ => stage.used o

end Stage

/-- **Constructor and destructor calls pair up**: they alternate for each object, the constructed objects
are those that the slabs have marked, and what is with a user or in a magazine is constructed. -/
structure Paired (stage : Stage n (σ × List Call)) : Prop where
  proper : Proper stage.calls
  alternates : ∀ o, Alternates (history o stage.calls)
  live : ∀ o, live o stage.calls = true ↔
    ∃ slab ∈ stage.slabs, ∃ i ∈ slab.Constructed.Bits, slab.object stage.Size i = o
  used : ∀ o, stage.used o → ObjectCache.live o stage.calls = true

/-- **What an event destroys**: no object that is in use, and each constructed object of a slab that it
frees once. -/
structure Frees (stage : Stage n (σ × List Call)) (e : Event n) (stage' : Stage n (σ × List Call))
    (l : List Call) : Prop where
  calls : stage'.calls = l ++ stage.calls
  unused : ∀ o, .dtor o ∈ l → ¬ stage.usedIn e o
  once : ∀ slab ∈ stage.slabs, slab.Address ∉ stage'.slabs.map Slab.Address →
    ∀ i ∈ slab.Constructed.Bits, l.count (.dtor (slab.object stage.Size i)) = 1

/-- **The invariant of the life of a cache.** -/
structure Stage.Ok (stage : Stage n (σ × List Call)) : Prop where
  recorded : Recorded (objects Slab.Constructed stage.Size stage.slabs) stage.calls
  blocks : Blocks stage.Size stage.slabs
  sane : ∀ s, stage = .alive s → Sane s

variable {s t : State n (σ × List Call)} {stage stage' : Stage n (σ × List Call)} {a : Act n}
  {e : Event n}

theorem Stage.Ok.paired (h : stage.Ok) : Paired stage where
  proper := h.recorded.proper
  alternates o := (h.recorded.proper.alternates o).1
  live := h.recorded.live
  used o ho := by
    cases stage with
    | new => exact ho.elim
    | ended => exact ho.elim
    | alive s =>
      -- what is with a user or in a magazine is allocated, and so constructed
      obtain ⟨slab, hslab, i, hi, heq⟩ := (h.sane s rfl).allocated ho
      exact (h.recorded.live o).mpr ⟨slab, hslab, i, (h.blocks.good slab hslab).subset hi, heq⟩

/-- The constructed objects of a slab that has been freed are constructed no more. -/
theorem Stage.Ok.dead (h : stage.Ok) (h' : stage'.Ok) (hsize : stage'.Size = stage.Size)
    (hsub : ∀ x ∈ stage'.slabs, ∃ y ∈ stage.slabs, y.Address = x.Address) {slab : Slab}
    (hslab : slab ∈ stage.slabs) (hgone : slab.Address ∉ stage'.slabs.map Slab.Address) {i : ℕ}
    (hi : i ∈ slab.Constructed.Bits) :
    ObjectCache.live (slab.object stage.Size i) stage.calls = true ∧
      ObjectCache.live (slab.object stage.Size i) stage'.calls = false := by
  refine ⟨(h.recorded.live _).mpr ⟨slab, hslab, i, hi, rfl⟩, eq_false_of_ne_true fun hl => ?_⟩
  obtain ⟨x, hx, j, hj, heq⟩ := (h'.recorded.live _).mp hl
  obtain ⟨y, hy, haddr⟩ := hsub x hx
  have hj := (h'.blocks.good x hx).lt_of_mem hj
  rw [hsize] at hj heq
  have hobject : y.object stage.Size j = x.object stage.Size j := by
    unfold Slab.object
    rw [haddr]
  obtain ⟨heq, -⟩ := h.blocks.separate y hy slab hslab j hj i ((h.blocks.good slab hslab).lt_of_mem hi)
    (hobject.trans heq)
  exact hgone (List.mem_map.mpr ⟨x, hx, haddr.symm.trans heq⟩)

/-- What is freed when only destructors are called. -/
theorem Stage.Ok.frees {l : List Call} (h : stage.Ok) (h' : stage'.Ok) (hsize : stage'.Size = stage.Size)
    (hsub : ∀ x ∈ stage'.slabs, ∃ y ∈ stage.slabs, y.Address = x.Address)
    (hcalls : stage'.calls = l ++ stage.calls) (hd : Destructors l)
    (hunused : ∀ o, .dtor o ∈ l → ¬ stage.usedIn e o) : Frees stage e stage' l where
  calls := hcalls
  unused := hunused
  once slab hslab hgone i hi := by
    obtain ⟨hlive, hdead⟩ := h.dead h' hsize hsub hslab hgone hi
    have hproper := h'.recorded.proper
    rw [hcalls] at hproper hdead
    exact count_dtor hd hproper hlive hdead

/-- What is freed when no slab goes away, and no destructor is called. -/
theorem frees_of_subset {l : List Call} (hcalls : stage'.calls = l ++ stage.calls)
    (hd : ∀ o, .dtor o ∉ l)
    (hsub : stage.slabs.map Slab.Address ⊆ stage'.slabs.map Slab.Address) : Frees stage e stage' l where
  calls := hcalls
  unused o ho := absurd ho (hd o)
  once _ hslab hgone := absurd (hsub (List.mem_map_of_mem hslab)) hgone

/-! ## Steps of the life -/

/-- The calls that a step makes. -/
theorem step_calls (hs : step client.logged s a = some t) (hspill : ∀ Count, a ≠ .spill Count) :
    GetCalls s.client t.client := by
  unfold step at hs
  split_ifs at hs
  cases a with
  | get cpu =>
    dsimp only at hs
    split_ifs at hs
    split at hs <;> obtain rfl := Option.some.inj hs <;> exact .inl rfl
  | getLocked cpu alloc =>
    dsimp only at hs
    split_ifs at hs
    have hlocked := cacheGetLocked_calls client s.cache alloc s.client
    split at hs
    next heq =>
      obtain rfl := Option.some.inj hs
      rw [heq] at hlocked
      exact hlocked
    next heq =>
      obtain rfl := Option.some.inj hs
      rw [heq] at hlocked
      exact hlocked
  | put cpu x =>
    dsimp only at hs
    split_ifs at hs
    split at hs <;> obtain rfl := Option.some.inj hs <;> exact .inl rfl
  | putLocked cpu =>
    dsimp only at hs
    split at hs
    next => split at hs <;> obtain rfl := Option.some.inj hs <;> exact .inl rfl
    next => cases hs
  | fill Count allocs =>
    obtain rfl := Option.some.inj hs
    exact .inl rfl
  | spill Count => exact absurd rfl (hspill Count)
  | createSlab alloc =>
    obtain rfl := Option.some.inj hs
    exact .inl rfl

theorem GetCalls.exists {c c' : σ × List Call} (h : GetCalls c c') :
    ∃ l, c'.2 = l ++ c.2 ∧ ∀ o, .dtor o ∉ l := by
  rcases h with h | ⟨o, success, h⟩
  · exact ⟨[], h, fun _ => nofun⟩
  · exact ⟨[.ctor o success], h, fun x hx => absurd (List.mem_singleton.mp hx) nofun⟩

/-- What the stage after an event is like, and what the event destroys. -/
def Passes (stage : Stage n (σ × List Call)) (e : Event n) (stage' : Stage n (σ × List Call)) : Prop :=
  stage'.Ok ∧ ∃ l, Frees stage e stage' l

theorem Stage.Ok.act (h : (Stage.alive s).Ok) (hG : Creates Cache.FreshBlock s a)
    (hs : step client.logged s a = some t) : Passes (.alive s) (.act a) (.alive t) := by
  obtain ⟨hsane, hsize, hsteps⟩ := (h.sane s rfl).step hG hs
  have ht : (Stage.alive t).Ok :=
    ⟨hsteps.invariant (recorded_preserved client) h.recorded, hsane.blocks, by rintro _ ⟨⟩; exact hsane⟩
  refine ⟨ht, ?_⟩
  by_cases hspill : ∀ Count, a ≠ .spill Count
  · obtain ⟨l, hl, hd⟩ := (step_calls hs hspill).exists
    exact ⟨l, frees_of_subset hl hd (step_addresses hs hspill)⟩
  · obtain ⟨Count, ha⟩ := not_forall.mp hspill
    obtain rfl := not_not.mp ha
    unfold step at hs
    split_ifs at hs
    obtain rfl := Option.some.inj hs
    obtain ⟨l, hl, hcalls⟩ := cacheSpill_calls client Count h.blocks s.client
    obtain ⟨-, -, hsub⟩ := cacheSpill_moved client.logged Count h.blocks s.client
    refine ⟨l, h.frees ht hsize (fun x hx => ⟨x, hsub.subset hx, rfl⟩) hl hcalls.destructors
      fun o ho hused => hcalls.free o ho ((h.sane s rfl).allocated hused)⟩

theorem Stage.Ok.create {c : σ × List Call} {Size Reservation Cap : ℕ} {outcome : CreateOutcome}
    (h : (Stage.new c : Stage n _).Ok)
    (hG : FillAll Cache.FreshBlock Reservation outcome.Slabs (newCache n Size Reservation Cap))
    (hs : lifeStep client.logged (.new c) (.create Size Reservation Cap outcome) = some stage') :
    Passes (.new c) (.create Size Reservation Cap outcome) stage' := by
  obtain ⟨status, cache', c', hcreate, hsteps, hcache⟩ := cacheCreate_moved client.logged hG c
  have hempty : Recorded ∅ c.2 := by
    have hrecorded := h.recorded
    change Recorded (objects Slab.Constructed 0 []) c.2 at hrecorded
    rwa [objects_nil] at hrecorded
  have hrecorded : Recorded ∅ c'.2 := hsteps.invariant (recorded_preserved client) hempty
  obtain ⟨l, hl⟩ := hsteps.invariant (grows_preserved client c.2) ⟨[], rfl⟩
  simp only [lifeStep] at hs
  rw [hcreate] at hs
  cases cache' with
  | none =>
    obtain rfl := Option.some.inj hs
    refine ⟨⟨?_, ⟨⟨nofun, nofun, List.nodup_nil⟩, nofun, nofun⟩, nofun⟩, l, hl, fun _ _ => id, nofun⟩
    change Recorded (objects Slab.Constructed 0 []) c'.2
    rwa [objects_nil]
  | some cache =>
    obtain rfl := Option.some.inj hs
    obtain ⟨hsane, hcon⟩ := hcache cache rfl
    refine ⟨⟨?_, hsane.blocks, by rintro _ ⟨⟩; exact hsane⟩, l, hl, fun _ _ => id, nofun⟩
    change Recorded cache.constructed c'.2
    rwa [hcon]

theorem Stage.Ok.destroy (h : (Stage.alive s).Ok)
    (hs : lifeStep client.logged (.alive s) .destroy = some stage') :
    Passes (.alive s) .destroy stage' := by
  simp only [lifeStep] at hs
  split_ifs at hs with hidle
  obtain ⟨-, hheld, hidle⟩ := hidle
  have hsane := h.sane s rfl
  cases hflush : cacheFlushMagazines s.cache with
  | none =>
    have hdestroy : cacheDestroy client.logged s.cache s.client = none := by
      rw [cacheDestroy, hflush, Option.map_none]
    rw [hdestroy] at hs
    obtain rfl := Option.some.inj hs
    refine ⟨⟨h.recorded, h.blocks, ?_⟩, [], frees_of_subset rfl (fun _ => List.not_mem_nil) (List.Subset.refl _)⟩
    rintro _ ⟨⟩
    exact ⟨hsane.blocks, hsane.balance⟩
  | some cache =>
    obtain ⟨hflushed, hstowed⟩ := hsane.stowed.flushMagazines _ hflush
    obtain ⟨hmoved, -, hsub⟩ := cacheSpill_moved client.logged 0 hstowed.blocks s.client
    obtain ⟨l, hl, hcalls⟩ := cacheSpill_calls client 0 hstowed.blocks s.client
    have hdestroy : cacheDestroy client.logged s.cache s.client =
        some ((cacheSpill client.logged 0 cache s.client).1.SlabList,
          (cacheSpill client.logged 0 cache s.client).2) := by
      rw [cacheDestroy, hflush, Option.map_some]
    have hsize := hmoved.kept.size.trans hflushed.size
    rw [hdestroy] at hs
    obtain rfl := Option.some.inj hs
    have hok : (Stage.ended s.cache.Size (cacheSpill client.logged 0 cache s.client).1.SlabList
        (cacheSpill client.logged 0 cache s.client).2 : Stage n _).Ok := by
      refine ⟨?_, hsize ▸ hmoved.blocks, by rintro _ ⟨⟩⟩
      have hrecorded := h.recorded
      change Recorded s.cache.constructed s.client.2 at hrecorded
      rw [← hflushed.constructed] at hrecorded
      have hrecorded := hmoved.steps.invariant (recorded_preserved client) hrecorded
      rwa [Cache.constructed, hsize] at hrecorded
    refine ⟨hok, l, h.frees hok rfl (fun x hx => ?_) hl hcalls.destructors fun o ho hused => ?_⟩
    · have hmem : x.Address ∈ s.cache.SlabList.map Slab.Address := by
        rw [← hflushed.addresses]
        exact List.mem_map_of_mem (hsub.subset hx)
      obtain ⟨y, hy, heq⟩ := List.mem_map.mp hmem
      exact ⟨y, hy, heq⟩
    · -- no user has an object, and what is in a magazine is allocated
      obtain ⟨cache₁, hcache₁, hpos⟩ := hused
      obtain rfl := Option.some.inj (hflush.symm.trans hcache₁)
      have hclients : clients s.held s.pending o = 0 := by
        unfold clients
        rw [hheld, Finset.sum_eq_zero fun cpu _ => by rw [hidle cpu]; rfl]
        rfl
      rw [hclients, zero_add] at hpos
      exact hcalls.free o ho (hstowed.allocated o hpos)

/-- **Each event of the life of a cache** keeps the invariant. -/
theorem Stage.Ok.pass (h : stage.Ok) (hG : Lawful stage e) (hs : lifeStep client.logged stage e = some stage') :
    Passes stage e stage' := by
  cases stage with
  | new c =>
    cases e with
    | create => exact h.create hG hs
    | act => cases hs
    | destroy => cases hs
  | alive s =>
    cases e with
    | create => cases hs
    | act a =>
      obtain ⟨t, ht, rfl⟩ := Option.map_eq_some_iff.mp hs
      exact h.act hG ht
    | destroy => exact h.destroy hs
  | ended => cases e <;> cases hs

/-- **Constructor and destructor calls pair up** in every run of the life of a cache, with objects of any
size. -/
theorem paired_of_reaches (c : σ) (h : Reaches (lifeStep client.logged) Lawful (.new (c, []) : Stage n _) stage) :
    Paired stage ∧ ∀ e stage', Lawful stage e → lifeStep client.logged stage e = some stage' →
      ∃ l, Frees stage e stage' l := by
  have hnew : (Stage.new (c, []) : Stage n (σ × List Call)).Ok := by
    refine ⟨?_, ⟨⟨nofun, nofun, List.nodup_nil⟩, nofun, nofun⟩, nofun⟩
    change Recorded (objects Slab.Constructed 0 []) []
    rw [objects_nil]
    exact ⟨trivial, fun o => iff_of_false nofun id⟩
  have hok : stage.Ok := h.invariant hnew fun _ _ _ hP hG hs => (hP.pass hG hs).1
  exact ⟨hok.paired, fun e stage' hG hs => (hok.pass hG hs).2⟩

/-- An object of 4056 bytes, two of which fit into a slab of two pages, from its slab to a user, into a
magazine and back to the slab. -/
def lifeRun [NeZero n] : List (Event n) :=
  [.create 4056 0 0 ⟨true, true, [], true⟩, .act (.get 0), .act (.getLocked 0 (page 8192)),
    .act (.put 0 8240), .destroy]

theorem paired_of_reaches_two_pages : ∃ stage : Stage 1 (Unit × List Call),
    Reaches (lifeStep plainClient.logged) Lawful (.new ((), [])) stage ∧
      stage.calls = [.dtor 8240, .ctor 8240 true] ∧ Paired stage := by
  obtain ⟨stage, hs, hcalls⟩ := (Option.any_eq_true (fun stage : Stage 1 (Unit × List Call) =>
    stage.calls == [.dtor 8240, .ctor 8240 true])
    (guardedRun (lifeStep plainClient.logged) Lawful (.new ((), [])) lifeRun)).mp (by decide +kernel)
  have h := reaches_of_guardedRun hs
  exact ⟨stage, h, eq_of_beq hcalls, (paired_of_reaches () h).1⟩

end XenBus.ObjectCache
