import XenBus.ObjectCache.Teardown

/-!
# A count that may wrap

`Cache->Count` is a `ULONG`, and with the default `Cap` no check keeps the sum of `CacheCreateSlab` from
wrapping. `Tallied` says what holds all the same: `Count` is the number of objects of the slabs modulo
`2 ^ 32`, and the list is not longer than the `limit` at which `Count` is the greatest `ULONG`. `CacheFill`
stops there at the latest. `CacheGet`, which creates a slab when all others are full, stops before if the
constructor refuses so many objects (`Ordered.length_mul_le`). So `Count` is 0 only if there is no slab,
and `CacheDestroy` of a cache whose objects are all back leaves none (`Tallied.destroy`).
-/

namespace XenBus.ObjectCache

open MachineInt

variable {n : ℕ} {σ : Type*} {limit o : ℕ} {cache cache' : Cache n} {held : List ℕ} {alloc : SlabAlloc}
  {cpu : Fin n}

/-- `Count` is the number of objects of at most `limit` slabs, as a `ULONG`, and with `limit` slabs it is
the greatest one. -/
structure Tallied (limit : ℕ) (cache : Cache n) : Prop where
  small : limit < 4294967296
  greatest : limit * slabCount cache.Size % 4294967296 = 4294967295
  count : cache.Count = cache.SlabList.length * slabCount cache.Size % 4294967296
  length_le : cache.SlabList.length ≤ limit

theorem ulongSub_add_mod {x y : ℕ} (hy : y < 4294967296) :
    ulongSub ((x + y) % 4294967296) y = x % 4294967296 := by
  unfold ulongSub
  split_ifs <;> omega

/-- **Slabs that are created below the limit, and destroyed, keep the tally.** -/
theorem counts_tallied :
    Counts (fun (cache : Cache n) _ => cache.SlabList.length < limit) (Tallied limit) where
  same h hsame :=
    ⟨h.small, by rw [hsame.size]; exact h.greatest, by rw [hsame.count, hsame.length, hsame.size, h.count],
      by rw [hsame.length]; exact h.length_le⟩
  created h hlt _ hmore := by
    refine ⟨h.small, ?_, ?_, ?_⟩
    · rw [hmore.size]
      exact h.greatest
    · rw [hmore.count, hmore.length, hmore.size, h.count, Nat.mod_add_mod, Nat.add_mul, Nat.one_mul]
    · rw [hmore.length]
      exact hlt
  destroyed h hless := by
    have hcount := h.count
    rw [hless.length, Nat.add_mul, Nat.one_mul] at hcount
    refine ⟨h.small, ?_, ?_, ?_⟩
    · rw [hless.size]
      exact h.greatest
    · rw [hless.count, hless.size, hcount, ulongSub_add_mod (slabCount_lt _)]
    · have := h.length_le
      have := hless.length
      omega

namespace Tallied

/-- With no count there is no slab. -/
theorem length_eq_zero (h : Tallied limit cache) (hzero : cache.Count ≤ 0) :
    cache.SlabList.length = 0 := by
  have hmod : 4294967296 ∣ cache.SlabList.length * slabCount cache.Size :=
    Nat.dvd_of_mod_eq_zero (h.count.symm.trans (Nat.le_zero.mp hzero))
  have hgreatest : 4294967296 ∣ limit * slabCount cache.Size + 1 := by
    have := h.greatest
    omega
  -- the number of objects of a slab has an inverse
  have hsum : cache.SlabList.length * (limit * slabCount cache.Size + 1) =
      limit * (cache.SlabList.length * slabCount cache.Size) + cache.SlabList.length := by
    rw [Nat.mul_add, Nat.mul_one, Nat.mul_left_comm]
  have hdvd : 4294967296 ∣ cache.SlabList.length :=
    (Nat.dvd_add_right (hmod.mul_left limit)).mp (hsum ▸ hgreatest.mul_left _)
  exact Nat.eq_zero_of_dvd_of_lt hdvd (h.length_le.trans_lt h.small)

/-- `CacheFill` stops at the limit. -/
theorem length_lt (h : Tallied limit cache) {Count : ℕ} (hCount : Count < 4294967296)
    (hlt : cache.Count < Count) : cache.SlabList.length < limit := by
  refine lt_of_le_of_ne h.length_le fun heq => ?_
  have hcount := h.count
  rw [heq, h.greatest] at hcount
  omega

/-! ## Calls -/

theorem new {Size Reservation Cap : ℕ} (hsmall : limit < 4294967296)
    (hgreatest : limit * slabCount (p2RoundUp Size 8) % 4294967296 = 4294967295) :
    Tallied limit (newCache n Size Reservation Cap) :=
  ⟨hsmall, hgreatest, by simp [newCache], Nat.zero_le limit⟩

/-- `CacheGet`, if the constructor refuses before the limit. -/
theorem get (h : Tallied limit cache) (client : Client σ) (huse : InUse cache held)
    (hfresh : cache.Fresh alloc) (hroom : cache.Cursor = none → cache.SlabList.length < limit)
    (cpu : Fin n) (c : σ) : Tallied limit (cacheGet client cache cpu alloc c).2.1 := by
  unfold cacheGet
  split
  next => exact counts_tallied.same h ⟨rfl, rfl, rfl, rfl, rfl⟩
  next =>
    have hlocked := counts_tallied.getLocked client huse.ordered huse.size
      (fun hcur => ⟨hfresh, hroom hcur⟩) h c
    generalize cacheGetLocked client cache alloc c = r at hlocked ⊢
    obtain ⟨o, cache', c'⟩ := r
    cases o with
    | none => exact hlocked
    | some o => exact counts_tallied.same hlocked ⟨rfl, rfl, rfl, rfl, rfl⟩

/-- `CachePut`. -/
theorem put (h : Tallied limit cache) (huse : InUse cache held) (ho : o ∈ held)
    (hput : cachePut cache cpu o = some cache') : Tallied limit cache' := by
  unfold cachePut at hput
  split at hput
  next => exact Option.some.inj hput ▸ counts_tallied.same h ⟨rfl, rfl, rfl, rfl, rfl⟩
  next =>
    obtain ⟨cache₁, hlocked, rfl⟩ := Option.map_eq_some_iff.mp hput
    have h₁ := counts_tallied.putLocked huse.ordered huse.size (huse.allocated ho) hlocked h
    exact counts_tallied.same h₁ ⟨rfl, rfl, rfl, rfl, rfl⟩

/-- `CacheFill`. -/
theorem fill (h : Tallied limit cache) (client : Client σ) (huse : InUse cache held) {Count : ℕ}
    (hCount : Count < 4294967296) {allocs : List SlabAlloc}
    (hfresh : FillAll Cache.Fresh Count allocs cache) (c : σ) :
    Tallied limit (cacheFill Count allocs cache).2 :=
  counts_tallied.fill client huse.ordered huse.size hfresh (fun _ _ hQ => hQ)
    (fun _ _ hp hlt _ => hp.length_lt hCount hlt) h c

/-- `CacheSpill`. -/
theorem spill (h : Tallied limit cache) (client : Client σ) (huse : InUse cache held) (Count : ℕ) (c : σ) :
    Tallied limit (cacheSpill client Count cache c).1 :=
  counts_tallied.spill client Count huse.ordered huse.size h c

/-- `CacheCreate`. -/
theorem create (client : Client σ) {Size Reservation Cap : ℕ} {outcome : CreateOutcome}
    (hsize : SoundSize (p2RoundUp Size 8)) (hsmall : limit < 4294967296)
    (hgreatest : limit * slabCount (p2RoundUp Size 8) % 4294967296 = 4294967295)
    (hReservation : Reservation < 4294967296)
    (hfresh : FillAll Cache.Fresh Reservation outcome.Slabs (newCache n Size Reservation Cap)) (c : σ) :
    ∀ cache ∈ (cacheCreate client n Size Reservation Cap outcome c).2.1, Tallied limit cache := by
  have hnew : Tallied limit (newCache n Size Reservation Cap) := .new hsmall hgreatest
  have hfill := hnew.fill client (inUse_new hsize) hReservation hfresh c
  have hres : (newCache n Size Reservation Cap).Reservation = Reservation := rfl
  unfold cacheCreate
  cases outcome.Cache with
  | false => exact nofun
  | true =>
    cases outcome.Name with
    | false => exact nofun
    | true =>
      by_cases hcap : (newCache n Size Reservation Cap).Reservation > (newCache n Size Reservation Cap).Cap
      · simp only [Bool.not_true, Bool.false_eq_true, if_false, if_pos hcap]
        exact nofun
      · simp only [Bool.not_true, Bool.false_eq_true, if_false, if_neg hcap]
        rw [hres]
        generalize cacheFill Reservation outcome.Slabs (newCache n Size Reservation Cap) = filled at hfill ⊢
        obtain ⟨status, cache'⟩ := filled
        cases status with
        | success =>
          cases outcome.Magazine with
          | false => exact nofun
          | true => exact fun cache hcache => Option.some.inj hcache ▸ hfill
        | _ => exact nofun

/-- **`CacheDestroy` of a cache whose objects are all back** leaves no slab. -/
theorem destroy (h : Tallied limit cache) (huse : InUse cache []) (client : Client σ) (c : σ) :
    ∃ c', cacheDestroy client cache c = some ([], c') := by
  have hloaded : Loaded cache := by
    have hclients : ∀ o, clients [] (fun _ : Fin n => Pending.idle) o = 0 := fun o => by
      simp [clients, Pending.count]
    refine ⟨huse.ordered.slabs, fun o ho => ?_, fun o ho => ?_⟩
    · have := huse.balance.used o ho
      rwa [hclients, zero_add] at this
    · have := huse.balance.unused o ho
      rwa [hclients, zero_add] at this
  obtain ⟨cache₁, -, hflush, -, hemptied, hkept⟩ := hloaded.emptied huse.size
  have h₁ := counts_tallied.same h hkept.sameCounts
  obtain ⟨hnil, -⟩ := hemptied.spillLoop counts_tallied client cache₁.SlabList.length le_rfl h₁ c
  have hspill : (cacheSpill client 0 cache₁ c).1.SlabList = [] := by
    unfold cacheSpill
    split_ifs with hzero
    · exact List.eq_nil_of_length_eq_zero (h₁.length_eq_zero hzero)
    · exact hnil
  refine ⟨(cacheSpill client 0 cache₁ c).2, ?_⟩
  rw [cacheDestroy, hflush, Option.map_some]
  exact congrArg (fun l => some (l, _)) hspill

end Tallied

/-! ## Full slabs -/

/-- Every object of a full slab has been constructed. -/
theorem Slab.Good.mem_of_full {slab : Slab} {m i : ℕ} (h : slab.Good m) (hfull : slab.full = true)
    (hi : i < m) : i ∈ slab.Constructed.Bits := by
  have hcount := h.full_iff.mp hfull
  have hle := h.count_le
  rw [h.contiguous, Finset.mem_range]
  omega

/-- **When all slabs are full**, there are as many constructed objects as the slabs have room for: if
each of them has a number below `B` of its own, that is at most `B`. -/
theorem Ordered.length_mul_le (h : Ordered cache) (hsize : SoundSize cache.Size)
    (hcur : cache.Cursor = none) {f : ℕ → ℕ} {B : ℕ} (hinj : Set.InjOn f cache.constructed)
    (hB : ∀ o ∈ cache.constructed, f o < B) : cache.SlabList.length * slabCount cache.Size ≤ B := by
  have hfull := firstFree_eq_none (h.cursor ▸ hcur)
  have hmem : ∀ (k : Fin cache.SlabList.length) (i : Fin (slabCount cache.Size)),
      (cache.SlabList.get k).object cache.Size i ∈ cache.constructed := fun k i => by
    have hslab := List.get_mem cache.SlabList k
    exact ⟨_, hslab, i, (h.slabs.good _ hslab).mem_of_full (hfull _ hslab) i.isLt, rfl⟩
  let g : Fin cache.SlabList.length × Fin (slabCount cache.Size) → Fin B := fun p =>
    ⟨f ((cache.SlabList.get p.1).object cache.Size p.2), hB _ (hmem p.1 p.2)⟩
  have hg : Function.Injective g := by
    rintro ⟨k, i⟩ ⟨k', i'⟩ heq
    have hobject := hinj (hmem k i) (hmem k' i') (Fin.mk.inj heq)
    have hslab := List.get_mem cache.SlabList k
    have hslab' := List.get_mem cache.SlabList k'
    obtain ⟨haddress, hindex⟩ := hsize.object_inj (h.slabs.aligned _ hslab) (h.slabs.aligned _ hslab')
      i.isLt i'.isLt hobject
    have hk := List.nodup_iff_injective_get.mp (List.Nodup.of_map _ h.slabs.nodup)
      (List.inj_on_of_nodup_map h.slabs.nodup hslab hslab' haddress)
    rw [hk, Fin.ext hindex]
  have hcard := Fintype.card_le_of_injective g hg
  rwa [Fintype.card_prod, Fintype.card_fin, Fintype.card_fin, Fintype.card_fin] at hcard

end XenBus.ObjectCache
