import XenBus.ObjectCache.Slab

/-!
# The layout of a slab

The objects of a slab and the way from an object back to its slab. `CacheCreateSlab` derives the number of
objects from a size that is rounded up to whole pages; `CachePut` and the flush of the magazines assume that
an object starts in the first page of its slab. `leadsBack_iff` says for which sizes this is so.
-/

namespace XenBus.ObjectCache

open MachineInt

variable {n Size S i : ℕ} {slab : Slab}

/-! ## Sizes -/

/-- The size of an object, for which there is no overflow in the rounding. -/
theorem p2RoundUp_eight (h : Size + 7 < 4294967296) : p2RoundUp Size 8 = (Size + 7) / 8 * 8 := by
  rw [p2RoundUp, Nat.mod_eq_of_lt (by omega)]

/-- The pages of a slab hold what is left of them after the header. -/
theorem mul_le_slabBytes (hbytes : slabBytes S ≠ 0) (hi : i < slabCount S) :
    bufferOffset + (i + 1) * S ≤ slabBytes S := by
  have hpage : 4096 ≤ slabBytes S := by
    rw [slabBytes, p2RoundUp] at hbytes ⊢
    omega
  have hoffset : bufferOffset ≤ slabBytes S := by
    rw [bufferOffset]
    omega
  rw [slabCount, ulongSub_of_le hoffset] at hi
  have hmul : (i + 1) * S ≤ slabBytes S - bufferOffset :=
    (Nat.mul_le_mul_right S hi).trans (Nat.div_mul_le_self _ _)
  omega

/-- A slab of several pages holds at most one object, if that is not one of three sizes. -/
theorem slabCount_le_one (hsize : S % 8 = 0) (hlt : S < 4294967296) (hlarge : 4048 < S)
    (h : S ≠ 4056 ∧ S ≠ 4064 ∧ S ≠ 4072) (hbytes : slabBytes S ≠ 0) : slabCount S ≤ 1 := by
  have htwo : slabBytes S - bufferOffset < 2 * S := by
    rw [slabBytes, p2RoundUp, bufferOffset] at hbytes ⊢
    omega
  have hoffset : bufferOffset ≤ slabBytes S := by
    rw [slabBytes, p2RoundUp, bufferOffset] at hbytes ⊢
    omega
  rw [slabCount, ulongSub_of_le hoffset]
  exact Nat.le_of_lt_succ ((Nat.div_lt_iff_lt_mul (by omega)).2 htwo)

/-- **Every object starts in the first page** of its slab. -/
theorem object_lt_page (hsize : S % 8 = 0) (hlt : S < 4294967296) (h : S ≠ 4056 ∧ S ≠ 4064 ∧ S ≠ 4072)
    (hbytes : slabBytes S ≠ 0) (hi : i < slabCount S) : bufferOffset + i * S < 4096 := by
  by_cases hlarge : 4048 < S
  · have hone := slabCount_le_one hsize hlt hlarge h hbytes
    obtain rfl : i = 0 := by omega
    rw [Nat.zero_mul]
    decide
  · -- the slab is one page
    have hmul := mul_le_slabBytes hbytes hi
    have hpage : slabBytes S = 4096 ∨ S = 0 := by
      rw [slabBytes, p2RoundUp, bufferOffset]
      omega
    rcases hpage with hpage | rfl
    · have hpos : 0 < S := Nat.pos_of_ne_zero fun hzero => by
        rw [slabCount, hzero, Nat.div_zero] at hi
        exact Nat.not_lt_zero i hi
      rw [hpage, Nat.add_mul, Nat.one_mul] at hmul
      omega
    · rw [slabCount, Nat.div_zero] at hi
      exact absurd hi (Nat.not_lt_zero i)

/-! ## The way back -/

/-- A slab as `CacheCreateSlab` creates it: at the start of a page. -/
structure Slab.Laid (S : ℕ) (slab : Slab) : Prop where
  aligned : slab.Address % 4096 = 0
  bytes : slabBytes S ≠ 0
  size : slab.Allocated.Size = slabCount S

/-- `CacheCreateSlab` adds such a slab or none. -/
theorem cacheCreateSlab_laid {cache cache' : Cache n} {alloc : SlabAlloc}
    (halloc : ∀ Address ∈ alloc.Slab, Address % 4096 = 0)
    (h : cacheCreateSlab cache alloc = (.success, cache')) :
    ∃ slab, slab.Laid cache.Size ∧ cache'.SlabList = (cacheInsertSlab cache slab).SlabList := by
  obtain ⟨Address, Constructed, Allocated⟩ := alloc
  unfold cacheCreateSlab cacheMaskCreate at h
  by_cases hcap : (cache.Count + slabCount cache.Size) % 4294967296 > cache.Cap
  · rw [if_pos hcap] at h
    cases h
  · rw [if_neg hcap] at h
    cases hnew : (if slabBytes cache.Size = 0 then none else Address) with
    | none => simp [hnew] at h
    | some New =>
      have hbytes : slabBytes cache.Size ≠ 0 := fun hzero => by simp [hzero] at hnew
      rw [if_neg hbytes] at hnew
      cases Constructed <;> cases Allocated <;> simp only [hnew, if_neg hbytes] at h <;> cases h
      exact ⟨⟨New, _, _⟩, ⟨halloc New hnew, hbytes, rfl⟩, rfl⟩

/-- The object at `i` lies in the slab, apart from the header and the other objects, and leads back to the
slab and to `i`. -/
structure Slab.LeadsBack (S : ℕ) (slab : Slab) (i : ℕ) : Prop where
  inside : slab.object S i + S ≤ slab.Address + slabBytes S
  header : slab.Address + bufferOffset ≤ slab.object S i
  apart : ∀ j < slabCount S, j ≠ i →
    slab.object S i + S ≤ slab.object S j ∨ slab.object S j + S ≤ slab.object S i
  page : pageAlign (slab.object S i) = slab.Address
  found : ∀ list : List Slab, (list.map Slab.Address).Nodup → slab ∈ list →
    KeyedList.lookup Slab.Address list (pageAlign (slab.object S i)) = some slab
  index : cachePutObjectToSlab S slab (slab.object S i) =
    some { slab with Allocated := cacheMaskClear slab.Allocated i }

/-- The objects of all slabs of a cache do. -/
def LeadsBack (S : ℕ) : Prop :=
  ∀ slab : Slab, slab.Laid S → ∀ i < slabCount S, slab.LeadsBack S i

theorem object_apart (slab : Slab) {j : ℕ} (h : i < j) : slab.object S i + S ≤ slab.object S j := by
  have hmul : (i + 1) * S ≤ j * S := Nat.mul_le_mul_right S h
  rw [Nat.add_mul, Nat.one_mul] at hmul
  simp only [Slab.object]
  omega

theorem Slab.Laid.leadsBack (h : slab.Laid S) (hi : i < slabCount S)
    (hpage : bufferOffset + i * S < 4096) : slab.LeadsBack S i where
  inside := by
    have hmul := mul_le_slabBytes h.bytes hi
    rw [Nat.add_mul, Nat.one_mul] at hmul
    rw [Slab.object]
    omega
  header := Nat.le_add_right _ _
  apart j _ hne := (Nat.lt_or_gt_of_ne hne).symm.imp (object_apart slab) (object_apart slab)
  page := pageAlign_object h.aligned hpage
  found list hnodup hmem := by
    rw [pageAlign_object h.aligned hpage]
    exact KeyedList.lookup_eq_some hnodup hmem
  index := by
    have hpos : 0 < S := Nat.pos_of_ne_zero fun hzero => by
      rw [slabCount, hzero, Nat.div_zero] at hi
      exact Nat.not_lt_zero i hi
    rw [cachePutObjectToSlab, index_object hpos, if_neg (by rw [h.size]; omega)]

/-- **The sizes for which an object leads back to its slab**: all but those that `CacheCreate` rounds up to
4056, 4064 or 4072, with which the second object of a slab starts in the second page. -/
theorem leadsBack_iff (Size : ℕ) (hpos : 1 ≤ Size) (hround : Size + 7 < 4294967296) :
    LeadsBack (p2RoundUp Size 8) ↔ ¬ (4049 ≤ Size ∧ Size ≤ 4072) := by
  rw [p2RoundUp_eight hround]
  constructor
  · rintro h ⟨hlo, hhi⟩
    have hS : (Size + 7) / 8 * 8 = 4056 ∨ (Size + 7) / 8 * 8 = 4064 ∨ (Size + 7) / 8 * 8 = 4072 := by omega
    have hpage : ∀ S, S = 4056 ∨ S = 4064 ∨ S = 4072 → LeadsBack S → False := by
      rintro S (rfl | rfl | rfl) h
      all_goals
        have hback := (h ⟨0, ⟨2, 0, ∅⟩, ⟨2, 0, ∅⟩⟩ ⟨rfl, by decide, by decide⟩ 1 (by decide)).page
        revert hback
        decide
    exact hpage _ hS h
  · intro h slab hlaid i hi
    exact hlaid.leadsBack hi (object_lt_page (by omega) (by omega) (by omega) hlaid.bytes hi)

theorem leadsBack_iff_eight : LeadsBack (p2RoundUp 1 8) :=
  (leadsBack_iff 1 (by omega) (by omega)).2 (by omega)

/-- **The second object of a slab is lost.** With a size of 4056 a slab has two objects, and the page of the
second one is not that of the slab. -/
theorem second_object_lost :
    1 < slabCount (p2RoundUp 4056 8) ∧
      pageAlign ((⟨65536, ⟨2, 0, ∅⟩, ⟨2, 0, ∅⟩⟩ : Slab).object (p2RoundUp 4056 8) 1) = 69632 := by
  decide

end XenBus.ObjectCache
