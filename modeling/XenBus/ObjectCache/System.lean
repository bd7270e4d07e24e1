import XenBus.Foundations.Transition
import XenBus.ObjectCache.Sections

/-!
# The cache and its users

A call of `CacheGet` or `CachePut` first looks into the magazine of its CPU, and enters the section under
the cache lock only if that is empty or full; in between, other CPUs run. A step is one such access; the
update of `CurrentObjects` that ends a call, which no other access reads, belongs to the last one. The
users of the cache put back what they hold, and nothing else.

The invariant of all runs (`Owned`): an object that is allocated in its slab is with one user, or in one
slot of one magazine, or on its way from a user back to its slab, and an object that is not allocated is
in none of these places.
-/

namespace XenBus.ObjectCache

open MachineInt Transition

/-- Where a CPU is in a call. -/
inductive Pending
  | idle
  /-- In `CacheGet`, before it takes the lock. -/
  | get
  /-- In `CachePut`, before it takes the lock. -/
  | put (Object : ℕ)
  deriving DecidableEq

/-- The cache, the client's state, the objects that are held by users, and the CPUs. `fault`: a pointer
to something that is not a slab has been followed. -/
structure State (n : ℕ) (σ : Type*) where
  cache : Cache n
  client : σ
  held : List ℕ
  pending : Fin n → Pending
  fault : Bool

/-- What happens next. -/
inductive Act (n : ℕ)
  | get (cpu : Fin n)
  | getLocked (cpu : Fin n) (alloc : SlabAlloc)
  | put (cpu : Fin n) (Object : ℕ)
  | putLocked (cpu : Fin n)
  | fill (Count : ℕ) (allocs : List SlabAlloc)
  | spill (Count : ℕ)
  | createSlab (alloc : SlabAlloc)

variable {n : ℕ} {σ : Type*} {client : Client σ} {s t : State n σ}

/-- The end of `CacheGet` with an object. -/
def countGet (cache : Cache n) : Cache n :=
  let ObjectCount := long32 (cache.CurrentObjects + 1)
  { cache with CurrentObjects := ObjectCount, MaximumObjects := max cache.MaximumObjects ObjectCount }

/-- The end of `CachePut`. -/
def countPut (cache : Cache n) : Cache n :=
  { cache with CurrentObjects := long32 (cache.CurrentObjects - 1) }

/-- The cache with another magazine for a CPU. -/
def Cache.withMagazine (cache : Cache n) (cpu : Fin n)
    (magazine : ObjectCache.Magazine) : Cache n :=
  { cache with Magazine := Function.update cache.Magazine cpu magazine }

/-- A step. There is none after a fault. -/
def step (client : Client σ) (s : State n σ) (a : Act n) : Option (State n σ) :=
  if s.fault = true then none else
  match a with
  | .get cpu =>
    if s.pending cpu ≠ .idle then none else
    match cacheGetObjectFromMagazine (s.cache.Magazine cpu) with
    | (some Object, magazine) =>
      some { s with
        cache := countGet (s.cache.withMagazine cpu magazine)
        held := Object :: s.held }
    | (none, _) => some { s with pending := Function.update s.pending cpu .get }
  | .getLocked cpu alloc =>
    if s.pending cpu ≠ .get then none else
    match cacheGetLocked client s.cache alloc s.client with
    | (some Object, cache, c) =>
      some { s with
        cache := countGet cache
        client := c
        held := Object :: s.held
        pending := Function.update s.pending cpu .idle }
    | (none, cache, c) =>
      some { s with cache := cache, client := c, pending := Function.update s.pending cpu .idle }
  | .put cpu Object =>
    if s.pending cpu ≠ .idle ∨ Object ∉ s.held then none else
    match cachePutObjectToMagazine Object (s.cache.Magazine cpu) with
    | some magazine =>
      some { s with
        cache := countPut (s.cache.withMagazine cpu magazine)
        held := s.held.erase Object }
    | none =>
      some { s with
        held := s.held.erase Object
        pending := Function.update s.pending cpu (.put Object) }
  | .putLocked cpu =>
    match s.pending cpu with
    | .put Object =>
      match cachePutLocked s.cache Object with
      | some cache =>
        some { s with cache := countPut cache, pending := Function.update s.pending cpu .idle }
      | none => some { s with fault := true }
    | _ => none
  | .fill Count allocs => some { s with cache := (cacheFill Count allocs s.cache).2 }
  | .spill Count =>
    let (cache, c) := cacheSpill client Count s.cache s.client
    some { s with cache := cache, client := c }
  | .createSlab alloc => some { s with cache := (cacheCreateSlab s.cache alloc).2 }

/-- An empty cache. -/
def init (n Size Reservation Cap : ℕ) (c : σ) : State n σ where
  cache := newCache n Size Reservation Cap
  client := c
  held := []
  pending _ := .idle
  fault := false

/-- Each creation of a slab in a step meets `P`. -/
def Creates (P : Cache n → SlabAlloc → Prop) (s : State n σ) : Act n → Prop
  | .getLocked _ alloc => s.cache.Cursor = none → P s.cache alloc
  | .fill Count allocs => FillAll P Count allocs s.cache
  | .createSlab alloc => P s.cache alloc
  | _ => True

/-- The system's memory manager: the pages that it returns are not in use. -/
def Managed : State n σ → Act n → Prop := Creates Cache.Fresh

instance (cache : Cache n) (alloc : SlabAlloc) : Decidable (cache.Fresh alloc) :=
  inferInstanceAs (Decidable (FreshAlloc _ _))

/-- `FillAll` can be decided. -/
def decidableFillAll (P : Cache n → SlabAlloc → Prop) [∀ c a, Decidable (P c a)] (Count : ℕ) :
    (allocs : List SlabAlloc) → (cache : Cache n) → Decidable (FillAll P Count allocs cache)
  | [], _ => isTrue trivial
  | alloc :: allocs, cache =>
    have := decidableFillAll P Count allocs (cacheCreateSlab cache alloc).2
    inferInstanceAs (Decidable (_ → _ ∧ (_ → _)))

instance (P : Cache n → SlabAlloc → Prop) [∀ c a, Decidable (P c a)] (s : State n σ) :
    (a : Act n) → Decidable (Creates P s a)
  | .getLocked _ _ => inferInstanceAs (Decidable (_ → _))
  | .fill Count allocs => decidableFillAll P Count allocs s.cache
  | .createSlab _ => inferInstanceAs (Decidable (P _ _))
  | .get _ => isTrue trivial
  | .put _ _ => isTrue trivial
  | .putLocked _ => isTrue trivial
  | .spill _ => isTrue trivial

instance (s : State n σ) (a : Act n) : Decidable (Managed s a) :=
  inferInstanceAs (Decidable (Creates _ s a))

/-! ## Concrete runs -/

/-- A constructor that succeeds, and a client without a state. -/
def plainClient : Client Unit := ⟨fun _ _ => (.success, ()), fun _ _ => ()⟩

/-- An allocation that succeeds. -/
def page (Address : ℕ) : SlabAlloc := ⟨some Address, true, true⟩

/-- Seven gets and seven puts of objects of 4056 bytes, two of which fit into a slab of two pages. -/
def twoPageRun [NeZero n] : List (Act n) :=
  [.get 0, .getLocked 0 (page 8192), .get 0, .getLocked 0 (page 16384),
    .get 0, .getLocked 0 (page 16384), .get 0, .getLocked 0 (page 24576),
    .get 0, .getLocked 0 (page 24576), .get 0, .getLocked 0 (page 32768),
    .get 0, .getLocked 0 (page 32768),
    .put 0 8240, .put 0 16432, .put 0 20488, .put 0 24624, .put 0 28680, .put 0 32816,
    .put 0 12296, .putLocked 0]

/-! ## Who has an object -/

/-- 1 if the object is on its way back. -/
def Pending.count (o : ℕ) : Pending → ℤ
  | .put x => if x = o then 1 else 0
  | _ => 0

/-- 1 if an object is on its way back. -/
def Pending.size : Pending → ℤ
  | .put _ => 1
  | _ => 0

/-- How often an object is with a user, or on its way back. -/
def clients (held : List ℕ) (pending : Fin n → Pending) (o : ℕ) : ℤ :=
  held.count o + ∑ cpu, (pending cpu).count o

/-- How often an object is in a slot of a magazine. -/
def inMagazines (M : Fin n → Magazine) (o : ℕ) : ℤ := ∑ cpu, ((M cpu).count (some o) : ℤ)

/-- How many objects are with users, or on their way back. -/
def clientTotal (held : List ℕ) (pending : Fin n → Pending) : ℤ :=
  held.length + ∑ cpu, (pending cpu).size

/-- The number of objects in magazines. -/
def magazineTotal (M : Fin n → Magazine) : ℤ := ∑ cpu, ((M cpu).countP Option.isSome : ℤ)

variable {held : List ℕ} {pending : Fin n → Pending} {M : Fin n → Magazine} {cpu : Fin n} {o x : ℕ}
  {m m' : Magazine} {p : Pending}

theorem clients_cons : clients (x :: held) pending o =
    clients held pending o + (if x = o then 1 else 0) := by
  unfold clients
  rw [List.count_cons]
  simp only [beq_iff_eq]
  split_ifs <;> omega

theorem clients_erase (hx : x ∈ held) : clients (held.erase x) pending o =
    clients held pending o - (if x = o then 1 else 0) := by
  have h : held.count o = (held.erase x).count o + (if x = o then 1 else 0) := by
    rw [List.Perm.count_eq (List.perm_cons_erase hx), List.count_cons]
    simp only [beq_iff_eq]
  unfold clients
  split_ifs at h ⊢ <;> omega

theorem clients_update : clients held (Function.update pending cpu p) o =
    clients held pending o - (pending cpu).count o + p.count o := by
  unfold clients
  rw [sum_update (fun _ => Pending.count o)]
  omega

theorem clientTotal_cons : clientTotal (x :: held) pending = clientTotal held pending + 1 := by
  unfold clientTotal
  rw [List.length_cons]
  omega

theorem clientTotal_erase (hx : x ∈ held) :
    clientTotal (held.erase x) pending = clientTotal held pending - 1 := by
  have h := List.length_erase_of_mem hx
  have hpos := List.length_pos_of_mem hx
  unfold clientTotal
  omega

theorem clientTotal_update : clientTotal held (Function.update pending cpu p) =
    clientTotal held pending - (pending cpu).size + p.size := by
  unfold clientTotal
  rw [sum_update (fun _ => Pending.size)]
  omega

theorem inMagazines_update : inMagazines (Function.update M cpu m) o =
    inMagazines M o - (M cpu).count (some o) + m.count (some o) :=
  sum_update (fun _ (m : Magazine) => (m.count (some o) : ℤ)) M cpu m

theorem magazineTotal_update : magazineTotal (Function.update M cpu m) =
    magazineTotal M - (M cpu).countP Option.isSome + m.countP Option.isSome :=
  sum_update (fun _ (m : Magazine) => (m.countP Option.isSome : ℤ)) M cpu m

/-! ## The magazines -/

/-- An object comes out of one slot. -/
theorem cacheGetObjectFromMagazine_spec (h : cacheGetObjectFromMagazine m = (some x, m')) :
    (∀ o, m.count (some o) = m'.count (some o) + (if x = o then 1 else 0)) ∧
      m.countP Option.isSome = m'.countP Option.isSome + 1 := by
  induction m generalizing m' with
  | nil => simp [cacheGetObjectFromMagazine] at h
  | cons slot slots ih =>
    cases slot with
    | some y =>
      obtain ⟨rfl, rfl⟩ : y = x ∧ none :: slots = m' := by
        simpa [cacheGetObjectFromMagazine] using h
      constructor
      · intro o
        simp [List.count_cons]
      · simp
    | none =>
      cases hget : cacheGetObjectFromMagazine slots with
      | mk y slots' =>
        obtain ⟨rfl, rfl⟩ : y = some x ∧ none :: slots' = m' := by
          simpa [cacheGetObjectFromMagazine, hget] using h
        obtain ⟨hcount, hsome⟩ := ih hget
        constructor
        · intro o
          simpa [List.count_cons] using hcount o
        · simpa using hsome

/-- An object goes into one slot. -/
theorem cachePutObjectToMagazine_spec (h : cachePutObjectToMagazine x m = some m') :
    (∀ o, m'.count (some o) = m.count (some o) + (if x = o then 1 else 0)) ∧
      m'.countP Option.isSome = m.countP Option.isSome + 1 := by
  induction m generalizing m' with
  | nil => simp [cachePutObjectToMagazine] at h
  | cons slot slots ih =>
    cases slot with
    | none =>
      obtain rfl : some x :: slots = m' := by simpa [cachePutObjectToMagazine] using h
      constructor
      · intro o
        simp [List.count_cons]
      · simp
    | some y =>
      obtain ⟨slots', hput, rfl⟩ : ∃ a, cachePutObjectToMagazine x slots = some a ∧
          some y :: a = m' := by simpa [cachePutObjectToMagazine] using h
      obtain ⟨hcount, hsome⟩ := ih hput
      constructor
      · intro o
        have := hcount o
        simp only [List.count_cons]
        omega
      · simpa using hsome

/-! ## What a step does -/

/-- The maintenance of the cache. -/
inductive Maintains (client : Client σ) (cache : Cache n) (c : σ) : Act n → Cache n → σ → Prop
  | fill {Count : ℕ} {allocs : List SlabAlloc} :
    Maintains client cache c (.fill Count allocs) (cacheFill Count allocs cache).2 c
  | spill {Count : ℕ} : Maintains client cache c (.spill Count)
    (cacheSpill client Count cache c).1 (cacheSpill client Count cache c).2
  | createSlab {alloc : SlabAlloc} :
    Maintains client cache c (.createSlab alloc) (cacheCreateSlab cache alloc).2 c

/-- **The outcomes of a step** of a system whose objects are in order. -/
inductive Happens (client : Client σ) (s : State n σ) : Act n → State n σ → Prop
  | taken {cpu : Fin n} {x : ℕ} {m : Magazine} (hidle : s.pending cpu = .idle)
    (hget : cacheGetObjectFromMagazine (s.cache.Magazine cpu) = (some x, m)) :
    Happens client s (.get cpu) { s with
      cache := countGet (s.cache.withMagazine cpu m)
      held := x :: s.held }
  | missed {cpu : Fin n} (hidle : s.pending cpu = .idle) :
    Happens client s (.get cpu) { s with pending := Function.update s.pending cpu .get }
  | got {cpu : Fin n} {alloc : SlabAlloc} {x : ℕ} {cache : Cache n} {c : σ} {A : List ℕ}
    (hpending : s.pending cpu = .get)
    (hlocked : cacheGetLocked client s.cache alloc s.client = (some x, cache, c))
    (hsec : Section client A s.cache s.client cache c) (hgot : Got s.cache (some x) cache) :
    Happens client s (.getLocked cpu alloc) { s with
      cache := countGet cache
      client := c
      held := x :: s.held
      pending := Function.update s.pending cpu .idle }
  | failed {cpu : Fin n} {alloc : SlabAlloc} {cache : Cache n} {c : σ} {A : List ℕ}
    (hpending : s.pending cpu = .get)
    (hlocked : cacheGetLocked client s.cache alloc s.client = (none, cache, c))
    (hsec : Section client A s.cache s.client cache c) (hsame : SameAllocated s.cache cache) :
    Happens client s (.getLocked cpu alloc) { s with
      cache := cache
      client := c
      pending := Function.update s.pending cpu .idle }
  | stored {cpu : Fin n} {x : ℕ} {m : Magazine} (hidle : s.pending cpu = .idle) (hheld : x ∈ s.held)
    (hput : cachePutObjectToMagazine x (s.cache.Magazine cpu) = some m) :
    Happens client s (.put cpu x) { s with
      cache := countPut (s.cache.withMagazine cpu m)
      held := s.held.erase x }
  | returning {cpu : Fin n} {x : ℕ} (hidle : s.pending cpu = .idle) (hheld : x ∈ s.held)
    (hput : cachePutObjectToMagazine x (s.cache.Magazine cpu) = none) :
    Happens client s (.put cpu x) { s with
      held := s.held.erase x
      pending := Function.update s.pending cpu (.put x) }
  | returned {cpu : Fin n} {x : ℕ} {cache : Cache n} {A : List ℕ}
    (hpending : s.pending cpu = .put x) (hlocked : cachePutLocked s.cache x = some cache)
    (hsec : Section client A s.cache s.client cache s.client)
    (hallocated : cache.allocated = s.cache.allocated \ {x})
    (htotal : cache.total + 1 = s.cache.total)
    (halive : pageAlign x ∈ cache.SlabList.map Slab.Address) :
    Happens client s (.putLocked cpu) { s with
      cache := countPut cache
      pending := Function.update s.pending cpu .idle }
  | same {a : Act n} {cache : Cache n} {c : σ} {A : List ℕ}
    (hmaintains : Maintains client s.cache s.client a cache c)
    (hsec : Section client A s.cache s.client cache c) (hsame : SameAllocated s.cache cache) :
    Happens client s a { s with cache := cache, client := c }

/-! ## The invariant -/

/-- Each allocated object is in one place, and the others are nowhere. -/
structure Balance (allocated : Set ℕ) (total : ℕ) (held : List ℕ) (pending : Fin n → Pending)
    (M : Fin n → Magazine) : Prop where
  used : ∀ o ∈ allocated, clients held pending o + inMagazines M o = 1
  unused : ∀ o ∉ allocated, clients held pending o + inMagazines M o = 0
  sum : (total : ℤ) = clientTotal held pending + magazineTotal M

/-- **The invariant of all runs.** -/
structure Owned (s : State n σ) : Prop where
  noFault : s.fault = false
  size : SoundSize s.cache.Size
  ordered : Ordered s.cache
  balance : Balance s.cache.allocated s.cache.total s.held s.pending s.cache.Magazine

theorem Pending.count_nonneg (o : ℕ) (p : Pending) : 0 ≤ p.count o := by
  unfold Pending.count
  cases p with
  | put x => dsimp only; split_ifs <;> omega
  | idle => exact le_refl 0
  | get => exact le_refl 0

theorem clients_nonneg (held : List ℕ) (pending : Fin n → Pending) (o : ℕ) :
    0 ≤ clients held pending o :=
  add_nonneg (Int.natCast_nonneg _) (Finset.sum_nonneg fun _ _ => Pending.count_nonneg _ _)

theorem inMagazines_nonneg : 0 ≤ inMagazines M o :=
  Finset.sum_nonneg fun _ _ => Int.natCast_nonneg _

/-- An object that a user has is allocated. -/
theorem Owned.allocated (h : Owned s) (ho : 0 < clients s.held s.pending o) : o ∈ s.cache.allocated := by
  by_contra hfree
  have := h.balance.unused o hfree
  have := inMagazines_nonneg (M := s.cache.Magazine) (o := o)
  omega

/-- An object on its way back is with its user. -/
theorem clients_pos_of_put (held : List ℕ) (h : pending cpu = .put x) : 0 < clients held pending x := by
  have hsum : (pending cpu).count x ≤ ∑ i, (pending i).count x :=
    Finset.single_le_sum (f := fun i => (pending i).count x)
      (fun _ _ => Pending.count_nonneg _ _) (Finset.mem_univ cpu)
  have hone : (pending cpu).count x = 1 := by rw [h]; exact if_pos rfl
  unfold clients
  omega

/-- **The outcomes are those of `Happens`.** -/
theorem Owned.happens (h : Owned s) {a : Act n} (hG : Managed s a) (hs : step client s a = some t) :
    Happens client s a t := by
  unfold step at hs
  have hfault : ¬ s.fault = true := by simp [h.noFault]
  rw [if_neg hfault] at hs
  have hA : ∀ l : List ℕ, ∀ slab ∈ s.cache.SlabList,
      slab.Address ∈ s.cache.SlabList.map Slab.Address ++ l :=
    fun l slab hslab => List.mem_append_left _ (List.mem_map_of_mem hslab)
  cases a with
  | get cpu =>
    dsimp only at hs
    split_ifs at hs with hidle
    have hidle := not_not.mp hidle
    split at hs
    next x m hget =>
      obtain rfl := Option.some.inj hs
      exact .taken hidle hget
    next =>
      obtain rfl := Option.some.inj hs
      exact .missed hidle
  | getLocked cpu alloc =>
    dsimp only at hs
    split_ifs at hs with hpending
    have hpending := not_not.mp hpending
    obtain ⟨o, cache, c, hlocked, hsec, hgot⟩ := cacheGetLocked_section client h.ordered h.size
      (hA alloc.Slab.toList) (fun a ha => List.mem_append_right _ (by simpa using ha)) hG s.client
    rw [hlocked] at hs
    cases o with
    | some x =>
      obtain rfl := Option.some.inj hs
      exact .got hpending hlocked hsec hgot
    | none =>
      obtain rfl := Option.some.inj hs
      exact .failed hpending hlocked hsec (hgot.none rfl)
  | put cpu x =>
    dsimp only at hs
    split_ifs at hs with hcond
    obtain ⟨hidle, hheld⟩ := not_or.mp hcond
    have hidle := not_not.mp hidle
    have hheld := not_not.mp hheld
    split at hs
    next m hput =>
      obtain rfl := Option.some.inj hs
      exact .stored hidle hheld hput
    next hput =>
      obtain rfl := Option.some.inj hs
      exact .returning hidle hheld hput
  | putLocked cpu =>
    dsimp only at hs
    split at hs
    next x hpending =>
      have ho := h.allocated (clients_pos_of_put s.held hpending)
      obtain ⟨cache, hlocked, hsec, hall, htotal, halive⟩ :=
        cachePutLocked_section client h.ordered h.size (hA []) ho s.client
      rw [hlocked] at hs
      obtain rfl := Option.some.inj hs
      exact .returned hpending hlocked hsec hall htotal halive
    next => cases hs
  | fill Count allocs =>
    obtain rfl := Option.some.inj hs
    obtain ⟨status, cache, hfill, hsec, hsame, -⟩ := cacheFill_section client h.ordered h.size
      (hA (allocs.filterMap SlabAlloc.Slab)) (fun alloc halloc a ha =>
        List.mem_append_right _ (List.mem_filterMap.mpr ⟨alloc, halloc, ha⟩)) hG s.client
    exact .same .fill (by rw [hfill]; exact hsec) (by rw [hfill]; exact hsame)
  | spill Count =>
    change some { s with
      cache := (cacheSpill client Count s.cache s.client).1
      client := (cacheSpill client Count s.cache s.client).2 } = some t at hs
    obtain rfl := Option.some.inj hs
    obtain ⟨cache, c, hspill, hsec, hsame⟩ :=
      cacheSpill_section client Count h.ordered h.size (hA []) s.client
    exact .same .spill (by rw [hspill]; exact hsec) (by rw [hspill]; exact hsame)
  | createSlab alloc =>
    obtain rfl := Option.some.inj hs
    obtain ⟨status, cache, hcreate, hcreated⟩ :=
      cacheCreateSlab_spec h.ordered h.size alloc hG
    obtain ⟨hsec, hsame, -⟩ := hcreated.section client h.ordered (hA alloc.Slab.toList)
      (fun a ha => List.mem_append_right _ (by simpa using ha)) s.client
    exact .same .createSlab (by rw [hcreate]; exact hsec) (by rw [hcreate]; exact hsame)


namespace Balance

variable {allocated : Set ℕ} {total : ℕ}

theorem taken (h : Balance allocated total held pending M)
    (hget : cacheGetObjectFromMagazine (M cpu) = (some x, m)) :
    Balance allocated total (x :: held) pending (Function.update M cpu m) := by
  obtain ⟨hcount, hsome⟩ := cacheGetObjectFromMagazine_spec hget
  have hplace : ∀ o, clients (x :: held) pending o + inMagazines (Function.update M cpu m) o =
      clients held pending o + inMagazines M o := fun o => by
    rw [clients_cons, inMagazines_update, hcount o]
    split_ifs <;> omega
  constructor
  · intro o ho
    rw [hplace, h.used o ho]
  · intro o ho
    rw [hplace, h.unused o ho]
  · rw [clientTotal_cons, magazineTotal_update, hsome, h.sum]
    omega

theorem stored (h : Balance allocated total held pending M) (hheld : x ∈ held)
    (hput : cachePutObjectToMagazine x (M cpu) = some m) :
    Balance allocated total (held.erase x) pending (Function.update M cpu m) := by
  obtain ⟨hcount, hsome⟩ := cachePutObjectToMagazine_spec hput
  have hplace : ∀ o, clients (held.erase x) pending o + inMagazines (Function.update M cpu m) o =
      clients held pending o + inMagazines M o := fun o => by
    rw [clients_erase hheld, inMagazines_update, hcount o]
    split_ifs <;> omega
  constructor
  · intro o ho
    rw [hplace, h.used o ho]
  · intro o ho
    rw [hplace, h.unused o ho]
  · rw [clientTotal_erase hheld, magazineTotal_update, hsome, h.sum]
    omega

/-- A CPU that has no object on its way goes on without one. -/
theorem wait (h : Balance allocated total held pending M) (hcount : ∀ o, (pending cpu).count o = 0)
    (hsize : (pending cpu).size = 0) (hcount' : ∀ o, p.count o = 0) (hsize' : p.size = 0) :
    Balance allocated total held (Function.update pending cpu p) M := by
  constructor
  · intro o ho
    rw [clients_update, hcount, hcount', ← h.used o ho]
    omega
  · intro o ho
    rw [clients_update, hcount, hcount', ← h.unused o ho]
    omega
  · rw [clientTotal_update, hsize, hsize', h.sum]
    omega

/-- An object leaves the slabs. -/
theorem got (h : Balance allocated total held pending M) (hx : x ∉ allocated) :
    Balance (insert x allocated) (total + 1) (x :: held) pending M := by
  constructor
  · intro o ho
    rw [clients_cons]
    obtain rfl | ho := Set.mem_insert_iff.mp ho
    · rw [if_pos rfl]
      have := h.unused o hx
      omega
    · rw [if_neg (fun heq : x = o => hx (heq ▸ ho))]
      have := h.used o ho
      omega
  · intro o ho
    rw [clients_cons, if_neg fun heq => ho (.inl heq.symm)]
    have := h.unused o fun hmem => ho (.inr hmem)
    omega
  · rw [clientTotal_cons]
    have := h.sum
    omega

/-- A user lets go of an object. -/
theorem returning (h : Balance allocated total held pending M) (hheld : x ∈ held)
    (hidle : pending cpu = .idle) :
    Balance allocated total (held.erase x) (Function.update pending cpu (.put x)) M := by
  have hplace : ∀ o, clients (held.erase x) (Function.update pending cpu (.put x)) o =
      clients held pending o := fun o => by
    rw [clients_erase hheld, clients_update, hidle]
    simp only [Pending.count]
    omega
  constructor
  · intro o ho
    rw [hplace, h.used o ho]
  · intro o ho
    rw [hplace, h.unused o ho]
  · rw [clientTotal_erase hheld, clientTotal_update, hidle, h.sum]
    simp only [Pending.size]
    omega

/-- An object is back in its slab. -/
theorem returned (h : Balance allocated (total + 1) held pending M) (hx : x ∈ allocated)
    (hpending : pending cpu = .put x) :
    Balance (allocated \ {x}) total held (Function.update pending cpu .idle) M := by
  have hplace : ∀ o, clients held (Function.update pending cpu .idle) o =
      clients held pending o - (if x = o then 1 else 0) := fun o => by
    rw [clients_update, hpending]
    simp only [Pending.count]
    omega
  constructor
  · rintro o ⟨ho, hne⟩
    rw [hplace, if_neg (fun heq : x = o => hne heq.symm)]
    have := h.used o ho
    omega
  · intro o ho
    rw [hplace]
    by_cases heq : x = o
    · subst heq
      rw [if_pos rfl]
      have := h.used x hx
      omega
    · rw [if_neg heq]
      have := h.unused o fun hmem => ho ⟨hmem, fun hox => heq hox.symm⟩
      omega
  · rw [clientTotal_update, hpending]
    simp only [Pending.size]
    have := h.sum
    omega

end Balance

/-- The order of the slabs, in another state of the cache with the same ones. -/
theorem Ordered.congr {cache cache' : Cache n} (h : Ordered cache) (hsize : cache'.Size = cache.Size)
    (hlist : cache'.SlabList = cache.SlabList) (hcursor : cache'.Cursor = cache.Cursor) :
    Ordered cache' :=
  ⟨by rw [hsize, hlist]; exact h.slabs, by rw [hlist]; exact h.sorted,
    by rw [hcursor, hlist]; exact h.cursor⟩

/-- **A step keeps the invariant.** -/
theorem Owned.happened {a : Act n} (h : Owned s) (hs : Happens client s a t) : Owned t := by
  cases hs with
  | taken hidle hget => exact ⟨h.noFault, h.size, h.ordered.congr rfl rfl rfl, h.balance.taken hget⟩
  | missed hidle =>
    refine ⟨h.noFault, h.size, h.ordered, h.balance.wait ?_ ?_ (fun _ => rfl) rfl⟩
    · rw [hidle]
      exact fun _ => rfl
    · rw [hidle]
      rfl
  | @got cpu alloc x cache c A hpending hlocked hsec hgot =>
    obtain ⟨hx, hall, htotal⟩ := hgot.some x rfl
    have hbalance := h.balance.got hx
    rw [← hall, ← htotal, ← hsec.kept.magazine] at hbalance
    refine ⟨h.noFault, hsec.kept.size.symm ▸ h.size, hsec.ordered.congr rfl rfl rfl,
      hbalance.wait ?_ ?_ (fun _ => rfl) rfl⟩
    · rw [hpending]
      exact fun _ => rfl
    · rw [hpending]
      rfl
  | @failed cpu alloc cache c A hpending hlocked hsec hsame =>
    have hbalance := h.balance
    rw [← hsame.allocated, ← hsame.total, ← hsec.kept.magazine] at hbalance
    refine ⟨h.noFault, hsec.kept.size.symm ▸ h.size, hsec.ordered.congr rfl rfl rfl,
      hbalance.wait ?_ ?_ (fun _ => rfl) rfl⟩
    · rw [hpending]
      exact fun _ => rfl
    · rw [hpending]
      rfl
  | stored hidle hheld hput => exact ⟨h.noFault, h.size, h.ordered.congr rfl rfl rfl,
      h.balance.stored hheld hput⟩
  | returning hidle hheld hput =>
    exact ⟨h.noFault, h.size, h.ordered, h.balance.returning hheld hidle⟩
  | @returned cpu x cache A hpending hlocked hsec hall htotal halive =>
    have hx := h.allocated (clients_pos_of_put s.held hpending)
    have hbalance := h.balance
    rw [← htotal] at hbalance
    have hbalance := hbalance.returned hx hpending
    rw [← hall, ← hsec.kept.magazine] at hbalance
    exact ⟨h.noFault, hsec.kept.size.symm ▸ h.size, hsec.ordered.congr rfl rfl rfl, hbalance⟩
  | @same a cache c A hmaintains hsec hsame =>
    have hbalance := h.balance
    rw [← hsame.allocated, ← hsame.total, ← hsec.kept.magazine] at hbalance
    exact ⟨h.noFault, hsec.kept.size.symm ▸ h.size, hsec.ordered, hbalance⟩

/-- No object is anywhere in an empty cache. -/
theorem balance_new {Size Reservation Cap : ℕ} :
    Balance ∅ 0 [] (fun _ => .idle) (newCache n Size Reservation Cap).Magazine := by
  have hmagazine : ∀ o, inMagazines (newCache n Size Reservation Cap).Magazine o = 0 := fun o =>
    Finset.sum_eq_zero fun cpu _ => by simp [newCache, Magazine.empty]
  have hclients : ∀ o, clients [] (fun _ : Fin n => Pending.idle) o = 0 := fun o => by
    simp [clients, Pending.count]
  refine ⟨nofun, fun o _ => ?_, ?_⟩
  · rw [hclients, hmagazine, add_zero]
  · have : magazineTotal (newCache n Size Reservation Cap).Magazine = 0 :=
      Finset.sum_eq_zero fun cpu _ => by simp [newCache, Magazine.empty]
    rw [this]
    simp [clientTotal, Pending.size]

/-- The empty cache is in order. -/
theorem owned_init (c : σ) {Size Reservation Cap : ℕ} (hsize : SoundSize (p2RoundUp Size 8)) :
    Owned (init n Size Reservation Cap c) := by
  have hall : (newCache n Size Reservation Cap).allocated = ∅ := by
    ext o
    simp [Cache.allocated, objects, newCache]
  have hnil : ∀ p : Slab → Prop, ∀ slab ∈ [], p slab := fun _ _ hmem => absurd hmem List.not_mem_nil
  refine ⟨rfl, hsize, ⟨⟨hnil _, hnil _, List.nodup_nil⟩, List.Pairwise.nil, rfl⟩, ?_⟩
  show Balance (newCache n Size Reservation Cap).allocated 0 [] (fun _ => .idle)
    (newCache n Size Reservation Cap).Magazine
  rw [hall]
  exact balance_new

/-- **Every state of a run has the invariant.** -/
theorem owned_of_reaches {G : State n σ → Act n → Prop} (hG : ∀ s a, G s a → Managed s a) (c : σ)
    {Size Reservation Cap : ℕ} (hsize : SoundSize (p2RoundUp Size 8))
    (h : Reaches (step client) G (init n Size Reservation Cap c) s) : Owned s :=
  h.invariant (owned_init c hsize) fun s _ _ hP ha hs => hP.happened (hP.happens (hG s _ ha) hs)

end XenBus.ObjectCache
