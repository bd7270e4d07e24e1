import Mathlib.Data.Finset.Card
import Mathlib.Data.Finset.Range
import XenBus.Foundations.Construction
import XenBus.ObjectCache.Model

/-!
# One slab

The invariant of a slab (`Good`): its masks count their bits, the constructed objects are the first ones,
and only constructed objects are allocated. `CacheGetObjectFromSlab` of a slab that is not full takes a
free object that has been constructed, or has the next one constructed (`Taken`), and
`CachePutObjectToSlab` gives the object back that is at the address.
-/

namespace XenBus.ObjectCache

open Construction

variable {σ : Type*} {client : Client σ} {Size n i : ℕ} {slab slab' : Slab} {s s' : σ}

/-- `Ctor` and `Dtor` as constructor and destructor of objects at addresses. -/
def Client.life (client : Client σ) : Life ℕ σ where
  Make o s s' := ∃ status, client.Ctor o s = (status, s') ∧ status.ntSuccess = true
  Refuse o s s' := ∃ status, client.Ctor o s = (status, s') ∧ status.ntSuccess = false
  destroy := client.Dtor

/-! ## The invariant -/

/-- The invariant of a slab of `n` objects. -/
structure Slab.Good (n : ℕ) (slab : Slab) : Prop where
  constructedSize : slab.Constructed.Size = n
  allocatedSize : slab.Allocated.Size = n
  /-- The constructed mask is contiguous. -/
  contiguous : slab.Constructed.Bits = Finset.range slab.Constructed.Count
  constructedLe : slab.Constructed.Count ≤ n
  subset : slab.Allocated.Bits ⊆ slab.Constructed.Bits
  allocatedCount : slab.Allocated.Count = slab.Allocated.Bits.card

namespace Slab.Good

variable (h : slab.Good n)

include h

theorem constructedCount : slab.Constructed.Count = slab.Constructed.Bits.card := by
  rw [h.contiguous, Finset.card_range]

theorem count_le : slab.Allocated.Count ≤ slab.Constructed.Count := by
  rw [h.allocatedCount, h.constructedCount]
  exact Finset.card_le_card h.subset

theorem lt_of_mem (hi : i ∈ slab.Constructed.Bits) : i < n := by
  rw [h.contiguous, Finset.mem_range] at hi
  exact hi.trans_le h.constructedLe

theorem full_iff : slab.full = true ↔ slab.Allocated.Count = n := by
  rw [full, decide_eq_true_iff, h.allocatedSize]

theorem lt_of_not_full (hfull : slab.full = false) : slab.Allocated.Count < n := by
  have hne : slab.Allocated.Count ≠ n := fun heq => by
    rw [h.full_iff.mpr heq] at hfull
    cases hfull
  have := h.count_le
  have := h.constructedLe
  omega

end Slab.Good

/-- A slab whose masks have just been created. -/
theorem good_new {Address : ℕ} : Slab.Good n ⟨Address, ⟨n, 0, ∅⟩, ⟨n, 0, ∅⟩⟩ :=
  ⟨rfl, rfl, rfl, Nat.zero_le n, Finset.empty_subset _, rfl⟩

/-! ## Taking an object -/

/-- The search stops at the first free bit. -/
theorem findFree_spec (m : Mask) {j : ℕ} (hj : j ∉ m.Bits) (fuel Index : ℕ) (hlo : Index ≤ j)
    (hhi : j < Index + fuel) : findFree m fuel Index ∉ m.Bits ∧ findFree m fuel Index ≤ j := by
  induction fuel generalizing Index with
  | zero => omega
  | succ fuel ih =>
    unfold findFree cacheMaskTest
    by_cases hin : Index ∈ m.Bits
    · have hne : Index ≠ j := fun heq => hj (heq ▸ hin)
      rw [if_pos (by simpa using hin)]
      exact ih (Index + 1) (by omega) (by omega)
    · rw [if_neg (by simpa using hin)]
      exact ⟨hin, hlo⟩

/-- **The index that is taken** is free, and either constructed or the next to be. -/
theorem Slab.Good.freeIndex (h : slab.Good n) (hfull : slab.full = false) :
    ObjectCache.freeIndex slab ∉ slab.Allocated.Bits ∧
      (ObjectCache.freeIndex slab ∈ slab.Constructed.Bits ∨
        ObjectCache.freeIndex slab = slab.Constructed.Count ∧ slab.Constructed.Count < n) := by
  have hlt := h.lt_of_not_full hfull
  have hle := h.constructedLe
  unfold ObjectCache.freeIndex
  by_cases hc : slab.Allocated.Count < slab.Constructed.Count
  · -- some constructed object is free
    obtain ⟨j, hj, hj'⟩ : ∃ j ∈ slab.Constructed.Bits, j ∉ slab.Allocated.Bits := by
      apply Finset.exists_mem_notMem_of_card_lt_card
      rwa [← h.allocatedCount, ← h.constructedCount]
    have hjn := h.lt_of_mem hj
    rw [h.contiguous, Finset.mem_range] at hj
    simp only [if_pos hc, h.allocatedSize]
    obtain ⟨hfree, hle'⟩ := findFree_spec slab.Allocated hj' (n - 0) 0 (by omega) (by omega)
    refine ⟨hfree, .inl ?_⟩
    rw [h.contiguous, Finset.mem_range]
    omega
  · -- all constructed objects are allocated
    have heq : slab.Allocated.Count = slab.Constructed.Count := by
      have := h.count_le
      omega
    have hout : slab.Constructed.Count ∉ slab.Allocated.Bits := fun hmem => by
      have := h.subset hmem
      rw [h.contiguous, Finset.mem_range] at this
      omega
    simp only [if_neg hc, h.allocatedSize]
    obtain ⟨fuel, hfuel⟩ : ∃ fuel, n - slab.Constructed.Count = fuel + 1 :=
      ⟨n - slab.Constructed.Count - 1, by omega⟩
    rw [hfuel, findFree, cacheMaskTest, if_neg (by simpa using hout)]
    exact ⟨hout, .inr ⟨rfl, by omega⟩⟩

/-- What `CacheGetObjectFromSlab` does with a slab that is not full: the object, the slab and the
client's state after it. -/
inductive Taken (client : Client σ) (Size n : ℕ) (slab : Slab) (s : σ) :
    Option ℕ → Slab → σ → Prop
  | reuse {i : ℕ} (hc : i ∈ slab.Constructed.Bits) (ha : i ∉ slab.Allocated.Bits) :
    Taken client Size n slab s (some (slab.object Size i))
      { slab with Allocated := cacheMaskSet slab.Allocated i } s
  | construct {s' : σ} (hlt : slab.Constructed.Count < n)
    (h : client.life.Make (slab.object Size slab.Constructed.Count) s s') :
    Taken client Size n slab s (some (slab.object Size slab.Constructed.Count))
      { slab with
        Allocated := cacheMaskSet slab.Allocated slab.Constructed.Count
        Constructed := cacheMaskSet slab.Constructed slab.Constructed.Count } s'
  | refuse {s' : σ} (hlt : slab.Constructed.Count < n)
    (h : client.life.Refuse (slab.object Size slab.Constructed.Count) s s') :
    Taken client Size n slab s none slab s'

/-- **`CacheGetObjectFromSlab`.** -/
theorem cacheGetObjectFromSlab_spec (client : Client σ) (Size : ℕ) (h : slab.Good n)
    (hfull : slab.full = false) (s : σ) : ∃ o slab' s',
    cacheGetObjectFromSlab client Size slab s = (o, slab', s') ∧
      Taken client Size n slab s o slab' s' := by
  obtain ⟨hfree, hcon⟩ := h.freeIndex hfull
  unfold cacheGetObjectFromSlab
  rw [if_neg (by simp [hfull])]
  by_cases hc : freeIndex slab ∈ slab.Constructed.Bits
  · refine ⟨_, _, _, if_pos ?_, .reuse hc hfree⟩
    simpa [cacheMaskTest] using hc
  · obtain ⟨heq, hlt⟩ := hcon.resolve_left hc
    obtain ⟨status, s', hctor⟩ : ∃ status s', client.Ctor (slab.object Size slab.Constructed.Count) s =
        (status, s') := ⟨_, _, rfl⟩
    have htest : ¬ cacheMaskTest slab.Constructed slab.Constructed.Count = true := by
      rw [heq] at hc
      simpa [cacheMaskTest] using hc
    simp only [heq, if_neg htest, hctor]
    by_cases hst : status.ntSuccess = true
    · exact ⟨_, _, _, if_pos hst, .construct hlt ⟨status, hctor, hst⟩⟩
    · exact ⟨_, _, _, if_neg hst, .refuse hlt ⟨status, hctor, by simpa using hst⟩⟩

theorem Taken.address {o : Option ℕ} (h : Taken client Size n slab s o slab' s') :
    slab'.Address = slab.Address := by
  cases h <;> rfl

/-- The masks after the object at `i` has been taken. -/
theorem Slab.Good.allocate (h : slab.Good n) (hn : n < 4294967296) (hc : i ∈ slab.Constructed.Bits)
    (ha : i ∉ slab.Allocated.Bits) :
    Slab.Good n { slab with Allocated := cacheMaskSet slab.Allocated i } ∧
      (cacheMaskSet slab.Allocated i).Count = slab.Allocated.Count + 1 := by
  have hcard : slab.Allocated.Bits.card + 1 ≤ n := by
    have hsub : insert i slab.Allocated.Bits ⊆ slab.Constructed.Bits :=
      Finset.insert_subset hc h.subset
    have := Finset.card_le_card hsub
    rw [Finset.card_insert_of_notMem ha, ← h.constructedCount] at this
    exact this.trans h.constructedLe
  have hcount : (cacheMaskSet slab.Allocated i).Count = slab.Allocated.Count + 1 := by
    have := h.allocatedCount
    exact Nat.mod_eq_of_lt (by omega)
  refine ⟨⟨h.constructedSize, h.allocatedSize, h.contiguous, h.constructedLe, ?_, ?_⟩, hcount⟩
  · exact Finset.insert_subset hc h.subset
  · rw [hcount, h.allocatedCount]
    exact (Finset.card_insert_of_notMem ha).symm

/-- The masks after the next object has been constructed. -/
theorem Slab.Good.construct (h : slab.Good n) (hn : n < 4294967296)
    (hlt : slab.Constructed.Count < n) :
    Slab.Good n { slab with
      Constructed := cacheMaskSet slab.Constructed slab.Constructed.Count } := by
  have hcount : (cacheMaskSet slab.Constructed slab.Constructed.Count).Count =
      slab.Constructed.Count + 1 := Nat.mod_eq_of_lt (by omega)
  refine ⟨h.constructedSize, h.allocatedSize, ?_, ?_, ?_, h.allocatedCount⟩
  · rw [hcount, Finset.range_add_one, ← h.contiguous]
    rfl
  · rw [hcount]
    omega
  · exact h.subset.trans (Finset.subset_insert _ _)

/-- **The slab after an object has been taken** is as good as before, and counts the object. -/
theorem Taken.good {o : Option ℕ} (ht : Taken client Size n slab s o slab' s') (h : slab.Good n)
    (hn : n < 4294967296) :
    slab'.Good n ∧
      slab'.Allocated.Count = slab.Allocated.Count + (if o.isSome = true then 1 else 0) := by
  cases ht with
  | reuse hc ha => exact h.allocate hn hc ha
  | construct hlt hmake =>
    have hout : slab.Constructed.Count ∉ slab.Allocated.Bits := fun hmem => by
      have := h.subset hmem
      rw [h.contiguous, Finset.mem_range] at this
      omega
    have hin : slab.Constructed.Count ∈
        (cacheMaskSet slab.Constructed slab.Constructed.Count).Bits := Finset.mem_insert_self _ _
    exact (h.construct hn hlt).allocate hn hin hout
  | refuse => exact ⟨h, rfl⟩

/-! ## Addresses -/

/-- The sizes with which a slab holds at least one object and every object starts in the first page of
its slab, where `CachePut` finds the header. -/
def SoundSize (Size : ℕ) : Prop :=
  0 < slabCount Size ∧ ∀ i < slabCount Size, bufferOffset + i * Size < 4096

instance (Size : ℕ) : Decidable (SoundSize Size) := inferInstanceAs (Decidable (_ ∧ _))

theorem slabCount_lt (Size : ℕ) : slabCount Size < 4294967296 := by
  refine (Nat.div_le_self _ _).trans_lt ?_
  have : slabBytes Size < 4294967296 := Nat.mod_lt _ (by norm_num)
  unfold MachineInt.ulongSub bufferOffset
  split_ifs <;> omega

theorem SoundSize.pos (h : SoundSize Size) : 0 < Size := by
  apply Nat.pos_of_ne_zero
  rintro rfl
  simp [SoundSize, slabCount] at h

/-- `PAGE_ALIGN` of an object in the first page is the slab. -/
theorem pageAlign_object (ha : slab.Address % 4096 = 0) (hlt : bufferOffset + i * Size < 4096) :
    pageAlign (slab.object Size i) = slab.Address := by
  unfold pageAlign Slab.object
  omega

/-- `PAGE_ALIGN` of an object is its slab. -/
theorem SoundSize.pageAlign_object (h : SoundSize Size) (ha : slab.Address % 4096 = 0)
    (hi : i < slabCount Size) : pageAlign (slab.object Size i) = slab.Address :=
  ObjectCache.pageAlign_object ha (h.2 i hi)

theorem SoundSize.object_inj (h : SoundSize Size) (ha : slab.Address % 4096 = 0)
    (ha' : slab'.Address % 4096 = 0) {j : ℕ} (hi : i < slabCount Size) (hj : j < slabCount Size)
    (heq : slab.object Size i = slab'.object Size j) : slab.Address = slab'.Address ∧ i = j := by
  have haddr : slab.Address = slab'.Address := by
    rw [← h.pageAlign_object ha hi, heq, h.pageAlign_object ha' hj]
  refine ⟨haddr, ?_⟩
  have hmul : i * Size = j * Size := by
    unfold Slab.object at heq
    omega
  exact Nat.eq_of_mul_eq_mul_right h.pos hmul

/-! ## Giving an object back -/

/-- The index that `CachePutObjectToSlab` finds. -/
theorem index_object (hpos : 0 < Size) (slab : Slab) (i : ℕ) :
    MachineInt.ulongSub (slab.object Size i - slab.Address) bufferOffset / Size = i := by
  have hsub : slab.object Size i - slab.Address = bufferOffset + i * Size := by
    unfold Slab.object
    omega
  rw [hsub, MachineInt.ulongSub_of_le (Nat.le_add_right _ _), Nat.add_sub_cancel_left,
    Nat.mul_div_cancel _ hpos]

/-- **`CachePutObjectToSlab`** of an allocated object clears its bit. -/
theorem cachePutObjectToSlab_of_pos (h : slab.Good (slabCount Size)) (hpos : 0 < Size)
    (hi : i ∈ slab.Allocated.Bits) :
    cachePutObjectToSlab Size slab (slab.object Size i) =
      some { slab with Allocated := cacheMaskClear slab.Allocated i } := by
  have hin := h.lt_of_mem (h.subset hi)
  unfold cachePutObjectToSlab
  rw [index_object hpos, if_neg (by rw [h.allocatedSize]; omega)]

theorem cachePutObjectToSlab_spec (h : slab.Good (slabCount Size)) (hsize : SoundSize Size)
    (hi : i ∈ slab.Allocated.Bits) :
    cachePutObjectToSlab Size slab (slab.object Size i) =
      some { slab with Allocated := cacheMaskClear slab.Allocated i } :=
  cachePutObjectToSlab_of_pos h hsize.pos hi

theorem Slab.Good.release (h : slab.Good n) (hi : i ∈ slab.Allocated.Bits) :
    Slab.Good n { slab with Allocated := cacheMaskClear slab.Allocated i } ∧
      (cacheMaskClear slab.Allocated i).Count + 1 = slab.Allocated.Count := by
  have hpos : 0 < slab.Allocated.Bits.card := Finset.card_pos.mpr ⟨i, hi⟩
  have hcard := h.allocatedCount
  have hle := h.count_le.trans h.constructedLe
  have hcount : (cacheMaskClear slab.Allocated i).Count = slab.Allocated.Count - 1 :=
    MachineInt.ulongSub_of_le (by omega)
  refine ⟨⟨h.constructedSize, ?_, h.contiguous, h.constructedLe, ?_, ?_⟩, by omega⟩
  · rw [cacheMaskClear_size, h.allocatedSize]
  · rw [cacheMaskClear_bits]
    exact (Finset.erase_subset i slab.Allocated.Bits).trans h.subset
  · rw [hcount, hcard, cacheMaskClear_bits, Finset.card_erase_of_mem hi]

/-! ## Destroying the objects -/

/-- The objects of a slab whose bits are in `B`. -/
def Slab.objects (slab : Slab) (Size : ℕ) (B : Finset ℕ) : Set ℕ := {o | ∃ i ∈ B, slab.object Size i = o}

theorem Slab.object_injective (hSize : 0 < Size) (slab : Slab) :
    Function.Injective (slab.object Size) := by
  intro i j heq
  have hmul : i * Size = j * Size := by
    unfold Slab.object at heq
    omega
  exact Nat.eq_of_mul_eq_mul_right hSize hmul

/-- **The loop of `CacheDestroySlab`** destroys the constructed objects, the last one first. -/
theorem destroyObjects_of_injOn (client : Client σ) {D : Set ℕ} (Index : ℕ) (m : Mask) (K : Set ℕ)
    (s : σ) (hinj : Set.InjOn (slab.object Size) m.Bits) (hm : ∀ j ∈ m.Bits, j < Index)
    (hK : slab.objects Size m.Bits ⊆ K)
    (hD : slab.objects Size m.Bits ⊆ D) :
    Steps client.life D (K, s)
      (K \ slab.objects Size m.Bits, (destroyObjects client Size slab Index m s).2) := by
  induction Index generalizing m K s with
  | zero =>
    have hempty : slab.objects Size m.Bits = ∅ := by
      ext o
      simp only [Slab.objects, Set.mem_ofPred_eq, Set.mem_empty_iff_false, iff_false]
      rintro ⟨j, hj, -⟩
      exact absurd (hm j hj) (by omega)
    rw [hempty, Set.sdiff_empty]
    exact .refl _
  | succ Index ih =>
    unfold destroyObjects cacheMaskTest
    by_cases hin : Index ∈ m.Bits
    · rw [if_pos (by simpa using hin)]
      have hobj : slab.object Size Index ∈ slab.objects Size m.Bits := ⟨Index, hin, rfl⟩
      have hsub : ∀ {o}, o ∈ slab.objects Size (cacheMaskClear m Index).Bits ↔
          o ∈ slab.objects Size m.Bits ∧ o ≠ slab.object Size Index := by
        intro o
        constructor
        · rintro ⟨j, hj, rfl⟩
          obtain ⟨hne, hj⟩ := Finset.mem_erase.mp hj
          exact ⟨⟨j, hj, rfl⟩, fun heq => hne (hinj hj hin heq)⟩
        · rintro ⟨⟨j, hj, rfl⟩, hne⟩
          exact ⟨j, Finset.mem_erase.mpr ⟨fun heq => hne (heq ▸ rfl), hj⟩, rfl⟩
      have hstep : Steps client.life D (K, s)
          (K \ {slab.object Size Index}, client.Dtor (slab.object Size Index) s) :=
        .single (.destroy (hD hobj) (hK hobj))
      have hrest := ih (cacheMaskClear m Index) (K \ {slab.object Size Index})
        (client.Dtor (slab.object Size Index) s)
        (hinj.mono (Finset.coe_subset.mpr (Finset.erase_subset Index m.Bits)))
        (fun j hj => by
          obtain ⟨hne, hj⟩ := Finset.mem_erase.mp hj
          have := hm j hj
          omega)
        (fun o ho => ⟨hK (hsub.mp ho).1, (hsub.mp ho).2⟩)
        (fun o ho => hD (hsub.mp ho).1)
      have hset : (K \ {slab.object Size Index}) \ slab.objects Size (cacheMaskClear m Index).Bits =
          K \ slab.objects Size m.Bits := by
        ext o
        simp only [Set.mem_sdiff, Set.mem_singleton_iff, hsub]
        constructor
        · rintro ⟨⟨ho, hne⟩, hout⟩
          exact ⟨ho, fun hmem => hout ⟨hmem, hne⟩⟩
        · rintro ⟨ho, hout⟩
          exact ⟨⟨ho, fun heq => hout (heq ▸ hobj)⟩, fun hmem => hout hmem.1⟩
      rw [hset] at hrest
      exact hstep.trans hrest
    · rw [if_neg (by simpa using hin)]
      refine ih m K s hinj (fun j hj => ?_) hK hD
      have hlt := hm j hj
      have hne : j ≠ Index := fun heq => hin (heq ▸ hj)
      omega

end XenBus.ObjectCache
