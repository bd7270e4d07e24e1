import XenBus.Balloon.PfnArray
import XenBus.Foundations.Runs

/-!
# The runs that are handed back

`BalloonFreePages` as the machine runs it: the array is memory, the frame numbers and the values computed from
them have 64 bits (`PFN_NUMBER`, `QuadPart`), and `MmAddPhysicalMemory` gets bytes. The arithmetic is a
parameter: that of the machine wraps (`wrap64`), and one that has no result where the machine would wrap
(`exact64`) tells that nothing overflows.

`balloonFreePages_runs`: the calls are the maximal runs of consecutive frame numbers of the array.
-/

namespace XenBus.Balloon.FreePages

open Runs


/-! ## The function -/

/-- A 64-bit unsigned result. -/
def wrap64 (x : ℤ) : Option ℕ := some (x % 18446744073709551616).toNat

/-- A 64-bit unsigned result that is exact. -/
def exact64 (x : ℤ) : Option ℕ := if 0 ≤ x ∧ x < 18446744073709551616 then some x.toNat else none

/-- `PAGE_SHIFT`. -/
def pageShift : ℕ := 12

/-- The inner loop of `BalloonFreePages`. A read outside the array has no result. -/
def rangeEnd (ulong64 : ℤ → Option ℕ) (Pfn : List ℕ) (RangeStart Count : ℕ) :
    (fuel : ℕ) → (RangeEnd : ℕ) → Option ℕ
  | 0, _ => none
  | fuel + 1, RangeEnd =>
    if RangeEnd < Count then
      Pfn[RangeEnd]?.bind fun pfn =>
      Pfn[RangeStart]?.bind fun first =>
      (ulong64 ((RangeEnd : ℤ) - RangeStart)).bind fun offset =>
      (ulong64 ((first : ℤ) + offset)).bind fun expected =>
        if pfn ≠ expected then some RangeEnd
        else (ulong64 ((RangeEnd : ℤ) + 1)).bind (rangeEnd ulong64 Pfn RangeStart Count fuel)
    else some RangeEnd

/-- `BalloonFreePages`: `StartAddress` and `NumberOfBytes` of the calls of `MmAddPhysicalMemory`, where `accepts`
has the outcomes of the calls to come. The loop ends with the first that fails. -/
def balloonFreePages (ulong64 : ℤ → Option ℕ) (Pfn : List ℕ) (Count : ℕ) :
    (fuel : ℕ) → (accepts : ℕ → Bool) → (RangeStart : ℕ) → Option (List (ℕ × ℕ))
  | 0, _, _ => none
  | fuel + 1, accepts, RangeStart =>
    if RangeStart < Count then
      (rangeEnd ulong64 Pfn RangeStart Count (Count + 1) RangeStart).bind fun RangeEnd =>
      Pfn[RangeStart]?.bind fun first =>
      (ulong64 ((first : ℤ) * 2 ^ pageShift)).bind fun StartAddress =>
      (ulong64 ((RangeEnd : ℤ) - RangeStart)).bind fun n =>
      (ulong64 ((n : ℤ) * 2 ^ pageShift)).bind fun NumberOfBytes =>
        if accepts 0 then
          (balloonFreePages ulong64 Pfn Count fuel (fun call => accepts (call + 1)) RangeEnd).map
            fun calls => (StartAddress, NumberOfBytes) :: calls
        else some [(StartAddress, NumberOfBytes)]
    else some []

/-- The bytes of a run of pages. -/
def bytes (run : ℕ × ℕ) : ℕ × ℕ := (run.1 * 2 ^ pageShift, run.2 * 2 ^ pageShift)

/-! ## Nothing overflows -/

variable {ulong64 : ℤ → Option ℕ} {Pfn : List ℕ} {Count fuel RangeStart RangeEnd : ℕ}

/-- Where a result fits in 64 bits, it is exact. -/
def Exact (ulong64 : ℤ → Option ℕ) : Prop := ∀ x : ℕ, x < 18446744073709551616 → ulong64 x = some x

theorem exact_wrap64 : Exact wrap64 := fun x hx => by
  rw [wrap64]
  congr 1
  omega

theorem exact_exact64 : Exact exact64 := fun x hx => by
  rw [exact64, if_pos (by omega), Int.toNat_natCast]

theorem Exact.sub (h : Exact ulong64) {x y : ℕ} (hle : y ≤ x) (hx : x < 18446744073709551616) :
    ulong64 ((x : ℤ) - y) = some (x - y) := by
  rw [← Nat.cast_sub hle]
  exact h (x - y) (by omega)

/-- The array has `Count` frame numbers that fit in 52 bits. -/
structure Framed (Pfn : List ℕ) (Count : ℕ) : Prop where
  count : Count < 2 ^ 32
  length : Count ≤ Pfn.length
  lt : ∀ p ∈ Pfn.take Count, p < 2 ^ 52

/-- The array as a function of the index. -/
def entries (Pfn : List ℕ) : PfnArray := fun k => Pfn.getD k 0

theorem Framed.getElem? (h : Framed Pfn Count) {k : ℕ} (hk : k < Count) : Pfn[k]? = some (entries Pfn k) := by
  have hlt := hk.trans_le h.length
  rw [entries, List.getD_eq_getElem?_getD, List.getElem?_eq_getElem hlt, Option.getD_some]

theorem Framed.entries_lt (h : Framed Pfn Count) {k : ℕ} (hk : k < Count) : entries Pfn k < 4503599627370496 := by
  refine h.lt (entries Pfn k) (List.mem_of_getElem? (i := k) ?_)
  rw [List.getElem?_take_of_lt hk, h.getElem? hk]

theorem pfns_entries (hlength : Count ≤ Pfn.length) : pfns (entries Pfn) Count = Pfn.take Count := by
  refine List.ext_getElem ?_ fun k hk hk' => ?_
  · rw [length_pfns, List.length_take_of_le hlength]
  · rw [length_pfns] at hk
    simp only [pfns, entries, List.getElem_map, List.getElem_range, List.getElem_take]
    rw [List.getD_eq_getElem?_getD, List.getElem?_eq_getElem (hk.trans_le hlength), Option.getD_some]

/-- The inner loop finds the end of the run, without a read outside the array. -/
theorem rangeEnd_eq (hexact : Exact ulong64) (h : Framed Pfn Count) (hle : RangeStart ≤ RangeEnd)
    (hfuel : Count ≤ RangeEnd + fuel) :
    rangeEnd ulong64 Pfn RangeStart Count (fuel + 1) RangeEnd =
      some (Balloon.rangeEnd (entries Pfn) RangeStart Count fuel RangeEnd) := by
  have hcount := h.count
  induction fuel generalizing RangeEnd with
  | zero => rw [rangeEnd, if_neg (by omega), Balloon.rangeEnd]
  | succ fuel ih =>
    rw [rangeEnd, Balloon.rangeEnd]
    by_cases hlt : RangeEnd < Count
    · have hfirst := h.entries_lt (hle.trans_lt hlt)
      have hsum : ulong64 ((entries Pfn RangeStart : ℤ) + (RangeEnd - RangeStart : ℕ)) =
          some (entries Pfn RangeStart + (RangeEnd - RangeStart)) := hexact (_ + _) (by omega)
      have hnext : ulong64 ((RangeEnd : ℤ) + 1) = some (RangeEnd + 1) := hexact (RangeEnd + 1) (by omega)
      rw [if_pos hlt, if_pos hlt, h.getElem? hlt, Option.bind_some, h.getElem? (hle.trans_lt hlt),
        Option.bind_some, hexact.sub hle (by omega), Option.bind_some, hsum, Option.bind_some, hnext,
        Option.bind_some, ih (by omega) (by omega)]
      split_ifs <;> rfl
    · rw [if_neg hlt, if_neg hlt]

/-- **The calls are those that the exact numbers give**, in bytes. -/
theorem balloonFreePages_eq (hexact : Exact ulong64) (h : Framed Pfn Count) (hfuel : Count ≤ RangeStart + fuel) :
    balloonFreePages ulong64 Pfn Count (fuel + 1) (fun _ => true) RangeStart =
      some ((Balloon.balloonFreePages (entries Pfn) Count fuel RangeStart).map bytes) := by
  have hcount := h.count
  induction fuel generalizing RangeStart with
  | zero => rw [balloonFreePages, if_neg (by omega), Balloon.balloonFreePages, List.map_nil]
  | succ fuel ih =>
    rw [balloonFreePages, Balloon.balloonFreePages]
    by_cases hlt : RangeStart < Count
    · have hfirst := h.entries_lt hlt
      have hpos := lt_rangeEnd (entries Pfn) hlt
      obtain ⟨-, hend, -⟩ := rangeEnd_spec (entries Pfn) Count hlt.le (fun k hk hk' => absurd hk' (not_lt.mpr hk))
      have hrange := rangeEnd_eq hexact h le_rfl (Nat.le_add_left Count RangeStart)
      generalize Balloon.rangeEnd (entries Pfn) RangeStart Count Count RangeStart = RangeEnd at hrange hpos hend ⊢
      have hstart : ulong64 ((entries Pfn RangeStart : ℤ) * 2 ^ pageShift) =
          some (entries Pfn RangeStart * 2 ^ pageShift) := by
        have hfits : entries Pfn RangeStart * 2 ^ pageShift < 18446744073709551616 := by
          rw [pageShift]
          omega
        simpa using hexact (entries Pfn RangeStart * 2 ^ pageShift) hfits
      have hnumber : ulong64 (((RangeEnd - RangeStart : ℕ) : ℤ) * 2 ^ pageShift) =
          some ((RangeEnd - RangeStart) * 2 ^ pageShift) := by
        have hfits : (RangeEnd - RangeStart) * 2 ^ pageShift < 18446744073709551616 := by
          rw [pageShift]
          omega
        exact_mod_cast hexact ((RangeEnd - RangeStart) * 2 ^ pageShift) hfits
      rw [if_pos hlt, if_pos hlt, hrange, Option.bind_some, h.getElem? hlt, Option.bind_some, hstart,
        Option.bind_some, hexact.sub hpos.le (by omega), Option.bind_some, hnumber, Option.bind_some, if_pos rfl,
        ih (by omega), Option.map_some]
      rfl
    · rw [if_neg hlt, if_neg hlt, List.map_nil]

/-! ## The runs -/

/-- A run ends with the array, or before a page that does not follow it. -/
theorem rangeEnd_stop (Pfn : PfnArray) (RangeStart : ℕ) (hfuel : Count ≤ RangeEnd + fuel)
    (hle : RangeEnd ≤ Count) :
    Balloon.rangeEnd Pfn RangeStart Count fuel RangeEnd < Count →
      Pfn (Balloon.rangeEnd Pfn RangeStart Count fuel RangeEnd) ≠
        Pfn RangeStart + (Balloon.rangeEnd Pfn RangeStart Count fuel RangeEnd - RangeStart) := by
  induction fuel generalizing RangeEnd with
  | zero =>
    intro hlt
    rw [Balloon.rangeEnd] at hlt
    omega
  | succ fuel ih =>
    rw [Balloon.rangeEnd]
    split_ifs with hlt hne
    · exact fun _ => hne
    · exact ih (by omega) (by omega)
    · exact fun h => absurd h hlt

/-- The first run of what is left of the array, and the rest. -/
theorem drop_pfns (Pfn : PfnArray) (hlt : RangeStart < Count) :
    (pfns Pfn Count).drop RangeStart =
      numbers (Pfn RangeStart, Balloon.rangeEnd Pfn RangeStart Count Count RangeStart - RangeStart) ++
        (pfns Pfn Count).drop (Balloon.rangeEnd Pfn RangeStart Count Count RangeStart) := by
  have hpos := lt_rangeEnd Pfn hlt
  obtain ⟨-, hend, hrun⟩ := rangeEnd_spec Pfn Count hlt.le (fun k hk hk' => absurd hk' (not_lt.mpr hk))
  generalize Balloon.rangeEnd Pfn RangeStart Count Count RangeStart = RangeEnd at hpos hend hrun ⊢
  obtain ⟨n, rfl⟩ := Nat.exists_eq_add_of_le hpos.le
  rw [Nat.add_sub_cancel_left, ← List.drop_drop]
  refine (List.take_append_drop n _).symm.trans (congrArg (· ++ _) ?_)
  refine List.ext_getElem ?_ fun k hk hk' => ?_
  · rw [numbers, List.length_range', List.length_take, List.length_drop, length_pfns]
    omega
  · rw [numbers, List.length_range'] at hk'
    simp only [pfns, numbers, List.getElem_take, List.getElem_drop, List.getElem_map, List.getElem_range,
      List.getElem_range']
    rw [hrun (RangeStart + k) (by omega) (by omega), Nat.add_sub_cancel_left, Nat.one_mul]

/-- The calls of `BalloonFreePages`, in pages, are the maximal runs of what is left of the array. -/
theorem maximal_balloonFreePages (Pfn : PfnArray) (hfuel : Count ≤ RangeStart + fuel) :
    Maximal ((pfns Pfn Count).drop RangeStart) (Balloon.balloonFreePages Pfn Count fuel RangeStart) := by
  have hnil : ∀ RangeStart, Count ≤ RangeStart → (pfns Pfn Count).drop RangeStart = [] := fun RangeStart hle =>
    List.drop_of_length_le (by rw [length_pfns]; exact hle)
  induction fuel generalizing RangeStart with
  | zero =>
    rw [hnil RangeStart hfuel]
    exact maximal_nil
  | succ fuel ih =>
    rw [Balloon.balloonFreePages]
    split_ifs with hlt
    · have hpos := lt_rangeEnd Pfn hlt
      rw [drop_pfns Pfn hlt]
      refine (ih (by omega)).cons (by omega) fun q hq heq => ?_
      have hend : Balloon.rangeEnd Pfn RangeStart Count Count RangeStart < Count := by
        by_contra hle
        rw [hnil _ (not_lt.mp hle)] at hq
        simp at hq
      have hstop := rangeEnd_stop Pfn RangeStart (Nat.le_add_left Count RangeStart) hlt.le hend
      rw [List.head?_drop, pfns, List.getElem?_map, List.getElem?_range hend] at hq
      exact hstop ((Option.some.inj hq).trans heq.symm)
    · rw [hnil RangeStart (not_lt.mp hlt)]
      exact maximal_nil

/-- **`BalloonFreePages` hands the pages back in maximal runs**: where all calls of `MmAddPhysicalMemory`
succeed, it ends, and the calls are the maximal runs of the entries, in their order. They are the same with an
arithmetic that ends where the machine would wrap. -/
theorem balloonFreePages_runs (Pfn : List ℕ) (Count fuel : ℕ) (hCount : Count < 2 ^ 32)
    (hlength : Count ≤ Pfn.length) (hlt : ∀ p ∈ Pfn.take Count, p < 2 ^ 52) (hfuel : Count < fuel) :
    ∃ runs : List (ℕ × ℕ), Maximal (Pfn.take Count) runs ∧
      (Pfn.take Count).splitBy (fun p q => q == p + 1) = runs.map numbers ∧
      balloonFreePages wrap64 Pfn Count fuel (fun _ => true) 0 = some (runs.map bytes) ∧
      balloonFreePages exact64 Pfn Count fuel (fun _ => true) 0 = some (runs.map bytes) := by
  obtain ⟨fuel, rfl⟩ : ∃ n, fuel = n + 1 := ⟨fuel - 1, by omega⟩
  have hframed : Framed Pfn Count := ⟨hCount, hlength, hlt⟩
  have hle : Count ≤ 0 + fuel := by omega
  have hmaximal := maximal_balloonFreePages (entries Pfn) hle
  rw [List.drop_zero, pfns_entries hlength] at hmaximal
  exact ⟨_, hmaximal, hmaximal.splitBy_eq, balloonFreePages_eq exact_wrap64 hframed hle,
    balloonFreePages_eq exact_exact64 hframed hle⟩

/-- Five pages in three runs. -/
theorem balloonFreePages_runs_five : ∃ runs : List (ℕ × ℕ), Maximal (List.take 5 [5, 6, 9, 7, 8]) runs ∧
    (List.take 5 [5, 6, 9, 7, 8]).splitBy (fun p q => q == p + 1) = runs.map numbers ∧
    balloonFreePages wrap64 [5, 6, 9, 7, 8] 5 6 (fun _ => true) 0 = some (runs.map bytes) ∧
    balloonFreePages exact64 [5, 6, 9, 7, 8] 5 6 (fun _ => true) 0 = some (runs.map bytes) :=
  balloonFreePages_runs [5, 6, 9, 7, 8] 5 6 (by decide) (by decide) (by decide) (by decide)

end XenBus.Balloon.FreePages
