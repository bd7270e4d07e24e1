import XenBus.Foundations.Counters
import XenBus.Foundations.Transition

/-!
# The watchdog

`fdo.c`: each processor has a timer VIRQ, and `__FdoVirqPatWatchdog` compares the count of the one that has
been raised, before it is incremented, with the counts of all others. `pats` counts how often it has returned
`TRUE`, which is how often `FdoVirqCallback` has set the watchdog.

`pats_isLeast` says that this is the least of the counts: a processor that is stuck stops the pats, and no
pat is missed while all of them go on. `fdoVirqInitialize_fresh` gives a list that it applies to, and
`exists_run` its runs.
-/

namespace XenBus.Fdo.Watchdog

open Transition Counters

/-! ## Data -/

def virqTimer : ℕ := 0

def virqDebug : ℕ := 1

/-- `XENBUS_VIRQ`. -/
structure Virq where
  type : ℕ
  Cpu : ℕ
  Count : ℕ
  deriving DecidableEq

/-- `Virq->Count++`. -/
def Virq.tick (virq : Virq) : Virq := { virq with Count := (virq.Count + 1) % 4294967296 }

/-- The list of `XENBUS_FDO`, and how often `__FdoVirqPatWatchdog` has returned `TRUE`. -/
structure State where
  VirqList : List Virq
  pats : ℕ

/-! ## Functions -/

/-- The body of the loop of `__FdoVirqPatWatchdog`. -/
def patLoop (Cpu Count : ℕ) (Pat : Bool) (virq : Virq) : Bool :=
  if virq.type ≠ virqTimer ∨ virq.Cpu = Cpu then Pat
  else if virq.Count ≤ Count then false
  else Pat

/-- `__FdoVirqPatWatchdog` for the VIRQ at position `i` of the list. -/
def fdoVirqPatWatchdog (VirqList : List Virq) (i : ℕ) (virq : Virq) : Bool × List Virq :=
  let Cpu := virq.Cpu
  let Count := virq.Count
  let VirqList := VirqList.set i virq.tick
  if virq.tick.Count = 0 then (true, VirqList) -- wrapped
  else (VirqList.foldl (patLoop Cpu Count) true, VirqList)

/-- `FdoVirqCallback` for the VIRQ at position `i` of the list. -/
def fdoVirqCallback (s : State) (i : ℕ) : Option State :=
  s.VirqList[i]?.bind fun virq =>
    if virq.type = virqDebug then some { s with VirqList := s.VirqList.set i virq.tick }
    else if virq.type = virqTimer then
      let (Pat, VirqList) := fdoVirqPatWatchdog s.VirqList i virq
      some ⟨VirqList, if Pat then s.pats + 1 else s.pats⟩
    else none

/-- The loop of `FdoVirqInitialize` over the processors, with the outcome of each `__FdoVirqCreate`. -/
def createTimers (creates : ℕ → Bool) (Count : ℕ) (VirqList : List Virq) : List Virq × ℕ :=
  (List.range Count).foldl (fun (VirqList, Timer) Index =>
    if creates Index then (VirqList ++ [⟨virqTimer, Index, 0⟩], Timer + 1) else (VirqList, Timer))
    (VirqList, 0)

/-- `FdoVirqInitialize`, with the outcome of `__FdoVirqCreate` for `VIRQ_DEBUG`, for each timer, and that of
`SystemSetWatchdog`. -/
def fdoVirqInitialize (Watchdog Count : ℕ) (debug : Bool) (creates : ℕ → Bool) (set : Bool) :
    Option (List Virq) :=
  if debug then
    let VirqList := [⟨virqDebug, 0, 0⟩]
    if Watchdog = 0 then some VirqList
    else
      let (VirqList, Timer) := createTimers creates Count VirqList
      if Timer ≠ 0 then if set then some VirqList else none
      else some VirqList
  else none

/-! ## The list before the first tick -/

/-- There is a timer; the timers are on distinct processors and have not counted. -/
structure Fresh (VirqList : List Virq) : Prop where
  timer : ∃ virq ∈ VirqList, virq.type = virqTimer
  distinct : VirqList.Pairwise fun virq virq' =>
    virq.type = virqTimer → virq'.type = virqTimer → virq.Cpu ≠ virq'.Cpu
  zero : ∀ virq ∈ VirqList, virq.type = virqTimer → virq.Count = 0

theorem createTimers_fst (creates : ℕ → Bool) (Count : ℕ) (VirqList : List Virq) :
    (createTimers creates Count VirqList).1 =
      VirqList ++ ((List.range Count).filter creates).map fun Index => ⟨virqTimer, Index, 0⟩ := by
  induction Count with
  | zero => exact (List.append_nil VirqList).symm
  | succ Count ih =>
    rw [createTimers] at ih ⊢
    rw [List.range_succ, List.foldl_append, List.foldl_cons, List.foldl_nil, List.filter_append,
      List.map_append, ← List.append_assoc, ← ih]
    by_cases hcreate : creates Count
    · simp [hcreate]
    · simp [hcreate]

/-- **What `FdoVirqInitialize` leaves**, if it has created a timer. -/
theorem fdoVirqInitialize_fresh {Watchdog Count : ℕ} {debug set : Bool} {creates : ℕ → Bool}
    {VirqList : List Virq} (hWatchdog : Watchdog ≠ 0) (hcreate : ∃ Index < Count, creates Index = true)
    (h : fdoVirqInitialize Watchdog Count debug creates set = some VirqList) : Fresh VirqList := by
  have hlist : VirqList = [⟨virqDebug, 0, 0⟩] ++
      ((List.range Count).filter creates).map fun Index => ⟨virqTimer, Index, 0⟩ := by
    rw [← createTimers_fst]
    rw [fdoVirqInitialize] at h
    simp only [if_neg hWatchdog] at h
    split_ifs at h <;> exact (Option.some.inj h).symm
  obtain ⟨Index, hlt, hIndex⟩ := hcreate
  rw [hlist]
  refine ⟨⟨⟨virqTimer, Index, 0⟩, ?_, rfl⟩, ?_, ?_⟩
  · exact List.mem_append_right _ (List.mem_map_of_mem (List.mem_filter.mpr ⟨List.mem_range.mpr hlt, hIndex⟩))
  · rw [List.singleton_append, List.pairwise_cons]
    refine ⟨fun virq _ htimer => absurd htimer (by decide), List.pairwise_map.mpr ?_⟩
    exact (List.nodup_range.filter _).imp fun hne _ _ => hne
  · intro virq hvirq htimer
    obtain hvirq | hvirq := List.mem_append.mp hvirq
    · obtain rfl := List.mem_singleton.mp hvirq
      rfl
    · obtain ⟨Index, -, rfl⟩ := List.mem_map.mp hvirq
      rfl

/-! ## A tick -/

/-- What a VIRQ keeps. -/
def Virq.source (virq : Virq) : ℕ × ℕ := (virq.type, virq.Cpu)

/-- The positions of the timers. -/
def timers (VirqList : List Virq) : Set ℕ :=
  {i | ∃ virq : Virq, VirqList[i]? = some virq ∧ virq.type = virqTimer}

theorem source_eq {L L' : List Virq} (h : L.map Virq.source = L'.map Virq.source) {i : ℕ} {virq : Virq}
    (hi : L[i]? = some virq) :
    ∃ virq', L'[i]? = some virq' ∧ virq'.type = virq.type ∧ virq'.Cpu = virq.Cpu := by
  have hmap : (L'.map Virq.source)[i]? = some virq.source := by
    rw [← h, List.getElem?_map, hi, Option.map_some]
  rw [List.getElem?_map] at hmap
  obtain ⟨virq', hi', hsource⟩ := Option.map_eq_some_iff.mp hmap
  obtain ⟨htype, hCpu⟩ := Prod.mk.inj hsource
  exact ⟨virq', hi', htype, hCpu⟩

theorem map_set_tick {VirqList : List Virq} {i : ℕ} {virq : Virq} (hi : VirqList[i]? = some virq) :
    (VirqList.set i virq.tick).map Virq.source = VirqList.map Virq.source := by
  obtain ⟨hlt, rfl⟩ := List.getElem?_eq_some_iff.mp hi
  have hlt' : i < (VirqList.map Virq.source).length := (List.length_map Virq.source).symm ▸ hlt
  have hsame : (VirqList[i]).tick.source = (VirqList.map Virq.source).get ⟨i, hlt'⟩ :=
    (List.getElem_map Virq.source).symm
  rw [List.map_set, hsame]
  exact List.set_getElem_self hlt'

/-- Two timers of the list are on distinct processors. -/
theorem Fresh.apart {VirqList : List Virq} (h : Fresh VirqList) {i k : ℕ} {virq virq' : Virq}
    (hi : VirqList[i]? = some virq) (hk : VirqList[k]? = some virq') (hne : i ≠ k)
    (htimer : virq.type = virqTimer) (htimer' : virq'.type = virqTimer) : virq.Cpu ≠ virq'.Cpu := by
  obtain ⟨hlt, rfl⟩ := List.getElem?_eq_some_iff.mp hi
  obtain ⟨hlt', rfl⟩ := List.getElem?_eq_some_iff.mp hk
  have hdistinct := List.pairwise_iff_getElem.mp h.distinct
  obtain hik | hki := hne.lt_or_gt
  · exact hdistinct i k hlt hlt' hik htimer htimer'
  · exact (hdistinct k i hlt' hlt hki htimer' htimer).symm

theorem getElem?_set_tick {VirqList : List Virq} {i : ℕ} {virq : Virq} (hi : VirqList[i]? = some virq)
    (k : ℕ) : (VirqList.set i virq.tick)[k]? = if k = i then some virq.tick else VirqList[k]? := by
  have hlt := (List.getElem?_eq_some_iff.mp hi).1
  rw [List.getElem?_set]
  by_cases hk : i = k
  · rw [if_pos hk, if_pos hlt, if_pos hk.symm]
  · rw [if_neg hk, if_neg (Ne.symm hk)]

theorem foldl_patLoop (Cpu Count : ℕ) (Pat : Bool) (VirqList : List Virq) :
    VirqList.foldl (patLoop Cpu Count) Pat = true ↔
      Pat = true ∧ ∀ virq ∈ VirqList, virq.type = virqTimer → virq.Cpu ≠ Cpu → Count < virq.Count := by
  induction VirqList generalizing Pat with
  | nil => simp
  | cons virq VirqList ih =>
    rw [List.foldl_cons, ih, List.forall_mem_cons, ← and_assoc]
    refine and_congr_left fun _ => ?_
    rw [patLoop]
    split_ifs with hother hle
    · refine (and_iff_left fun htimer hCpu => ?_).symm
      exact absurd hother (not_or.mpr ⟨not_not.mpr htimer, hCpu⟩)
    · obtain ⟨htimer, hCpu⟩ := not_or.mp hother
      refine iff_of_false id fun h => ?_
      exact absurd (h.2 (not_not.mp htimer) hCpu) hle.not_gt
    · exact (and_iff_left fun _ _ => not_le.mp hle).symm

/-- What holds after the ticks `ticks` at positions of the list `VirqList`. -/
structure Counted (VirqList : List Virq) (ticks : List ℕ) (s : State) : Prop where
  source : s.VirqList.map Virq.source = VirqList.map Virq.source
  count : ∀ i virq, s.VirqList[i]? = some virq → virq.type = virqTimer → virq.Count = ticks.count i
  least : IsLeast ((fun i => ticks.count i) '' timers VirqList) s.pats

variable {VirqList : List Virq} {ticks : List ℕ} {s t : State} {i : ℕ} {virq : Virq}

/-- **The comparison** of `__FdoVirqPatWatchdog`. -/
theorem Counted.behind_iff (hfresh : Fresh VirqList) (h : Counted VirqList ticks s)
    (hi : s.VirqList[i]? = some virq) (htimer : virq.type = virqTimer) :
    Behind (fun k => ticks.count k) (timers VirqList) i ↔ ∀ virq' ∈ s.VirqList.set i virq.tick,
      virq'.type = virqTimer → virq'.Cpu ≠ virq.Cpu → virq.Count < virq'.Count := by
  obtain ⟨virq₀, hi₀, htype₀, hCpu₀⟩ := source_eq h.source hi
  have htimer₀ : virq₀.type = virqTimer := htype₀.trans htimer
  constructor
  · rintro ⟨-, hbehind⟩ virq' hmem htimer' hCpu
    obtain ⟨k, hk⟩ := List.mem_iff_getElem?.mp hmem
    rw [getElem?_set_tick hi] at hk
    by_cases hki : k = i
    · -- its own count is not compared
      rw [if_pos hki] at hk
      obtain rfl := Option.some.inj hk
      exact absurd rfl hCpu
    · rw [if_neg hki] at hk
      obtain ⟨virq₁, hk₁, htype₁, -⟩ := source_eq h.source hk
      rw [h.count i virq hi htimer, h.count k virq' hk htimer']
      exact hbehind k ⟨virq₁, hk₁, htype₁.trans htimer'⟩ hki
  · intro hall
    refine ⟨⟨virq₀, hi₀, htimer₀⟩, ?_⟩
    rintro k ⟨virq₁, hk₁, htimer₁⟩ hki
    obtain ⟨virq', hk, htype', hCpu'⟩ := source_eq h.source.symm hk₁
    have htimer' : virq'.type = virqTimer := htype'.trans htimer₁
    have hne : virq'.Cpu ≠ virq.Cpu := by
      rw [hCpu', ← hCpu₀]
      exact hfresh.apart hk₁ hi₀ hki htimer₁ htimer₀
    have hmem : virq' ∈ s.VirqList.set i virq.tick :=
      List.mem_iff_getElem?.mpr ⟨k, by rw [getElem?_set_tick hi, if_neg hki, hk]⟩
    have hlt := hall virq' hmem htimer' hne
    rwa [h.count i virq hi htimer, h.count k virq' hk htimer'] at hlt

/-- The counts after `Virq->Count++`. -/
theorem Counted.count_tick (h : Counted VirqList ticks s) (hi : s.VirqList[i]? = some virq)
    (hfew : virq.type = virqTimer → ticks.count i + 1 < 4294967296) (k : ℕ) (virq' : Virq)
    (hk : (s.VirqList.set i virq.tick)[k]? = some virq') (htimer : virq'.type = virqTimer) :
    virq'.Count = (ticks ++ [i]).count k := by
  have hcount : (ticks ++ [i]).count k = advance (fun k => ticks.count k) i k :=
    congrFun (count_append_singleton ticks i) k
  rw [getElem?_set_tick hi] at hk
  rw [hcount]
  by_cases hki : k = i
  · rw [if_pos hki] at hk
    obtain rfl := Option.some.inj hk
    subst hki
    rw [advance_self, Virq.tick, h.count k virq hi htimer, Nat.mod_eq_of_lt (hfew htimer)]
  · rw [if_neg hki] at hk
    rw [advance_of_ne _ hki]
    exact h.count k virq' hk htimer

theorem Counted.tick (hfresh : Fresh VirqList) (h : Counted VirqList ticks s)
    (hfew : i ∈ timers VirqList → ticks.count i + 1 < 4294967296) (hs : fdoVirqCallback s i = some t) :
    Counted VirqList (ticks ++ [i]) t := by
  classical
  obtain ⟨virq, hi, hs⟩ := Option.bind_eq_some_iff.mp hs
  obtain ⟨virq₀, hi₀, htype₀, -⟩ := source_eq h.source hi
  have hfew' : virq.type = virqTimer → ticks.count i + 1 < 4294967296 :=
    fun htimer => hfew ⟨virq₀, hi₀, htype₀.trans htimer⟩
  have hsource := (map_set_tick hi).trans h.source
  split_ifs at hs with hdebug htimer
  · obtain rfl := Option.some.inj hs
    refine ⟨hsource, h.count_tick hi hfew', ?_⟩
    rw [count_append_singleton]
    have hnot : ¬ Behind (fun k => ticks.count k) (timers VirqList) i := by
      rintro ⟨⟨virq₁, hi₁, htimer⟩, -⟩
      obtain rfl := Option.some.inj (hi₀.symm.trans hi₁)
      exact absurd ((htype₀.symm.trans htimer).symm.trans hdebug) (by decide)
    have hleast := isLeast_advance h.least i
    rwa [if_neg hnot] at hleast
  · have hcount : virq.tick.Count = ticks.count i + 1 := by
      rw [Virq.tick, h.count i virq hi htimer, Nat.mod_eq_of_lt (hfew' htimer)]
    have hpat := foldl_patLoop virq.Cpu virq.Count true (s.VirqList.set i virq.tick)
    simp only [fdoVirqPatWatchdog, hcount, Nat.add_one_ne_zero, if_false] at hs
    obtain rfl := Option.some.inj hs
    refine ⟨hsource, h.count_tick hi hfew', ?_⟩
    rw [count_append_singleton]
    have hbehind := (h.behind_iff hfresh hi htimer).trans ((and_iff_right rfl).symm.trans hpat.symm)
    have hleast := isLeast_advance h.least i
    rwa [if_congr hbehind rfl rfl] at hleast

/-! ## Runs -/

theorem Fresh.counted (hfresh : Fresh VirqList) : Counted VirqList [] ⟨VirqList, 0⟩ := by
  refine ⟨rfl, fun i virq hi htimer => hfresh.zero virq (List.mem_of_getElem? hi) htimer, ?_, fun _ _ => ?_⟩
  · obtain ⟨virq, hvirq, htimer⟩ := hfresh.timer
    obtain ⟨i, hi⟩ := List.mem_iff_getElem?.mp hvirq
    exact ⟨i, ⟨virq, hi, htimer⟩, rfl⟩
  · exact Nat.zero_le _

theorem counted_of_run (hfresh : Fresh VirqList) (hfew : ∀ i ∈ timers VirqList, ticks.count i < 4294967296)
    (hrun : run fdoVirqCallback ⟨VirqList, 0⟩ ticks = some s) : Counted VirqList ticks s := by
  induction ticks using List.reverseRecOn generalizing s with
  | nil =>
    obtain rfl := Option.some.inj hrun
    exact hfresh.counted
  | append_singleton ticks i ih =>
    rw [run_append] at hrun
    obtain ⟨r, hr, hi⟩ := Option.bind_eq_some_iff.mp hrun
    obtain ⟨t, ht, hend⟩ := Option.bind_eq_some_iff.mp hi
    obtain rfl := Option.some.inj hend
    refine (ih (fun k hk => ?_) hr).tick hfresh (fun hk => ?_) ht
    · exact (List.Sublist.count_le k (List.sublist_append_left ticks [i])).trans_lt (hfew k hk)
    · have hcount := hfew i hk
      rwa [List.count_append, List.count_singleton_self] at hcount

/-- The position of a timer stays one. -/
theorem timers_set_tick (hi : VirqList[i]? = some virq) :
    timers VirqList ⊆ timers (VirqList.set i virq.tick) := by
  rintro k ⟨virq', hk, htimer⟩
  obtain ⟨virq₁, hk₁, htype, -⟩ := source_eq (map_set_tick hi).symm hk
  exact ⟨virq₁, hk₁, htype.trans htimer⟩

theorem fdoVirqCallback_timer (hi : s.VirqList[i]? = some virq) (htimer : virq.type = virqTimer) :
    ∃ pats, fdoVirqCallback s i = some ⟨s.VirqList.set i virq.tick, pats⟩ := by
  have hdebug : virq.type ≠ virqDebug := by
    rw [htimer]
    decide
  rw [fdoVirqCallback, hi, Option.bind_some, if_neg hdebug, if_pos htimer, fdoVirqPatWatchdog]
  split_ifs <;> exact ⟨_, rfl⟩

/-- Every sequence of ticks of timers is a run. -/
theorem exists_run (s : State) (hticks : ∀ i ∈ ticks, i ∈ timers s.VirqList) :
    ∃ t, run fdoVirqCallback s ticks = some t := by
  induction ticks generalizing s with
  | nil => exact ⟨s, rfl⟩
  | cons i ticks ih =>
    obtain ⟨virq, hi, htimer⟩ := hticks i List.mem_cons_self
    obtain ⟨pats, hstep⟩ := fdoVirqCallback_timer hi htimer
    obtain ⟨t, ht⟩ := ih ⟨s.VirqList.set i virq.tick, pats⟩ fun k hk =>
      timers_set_tick hi (hticks k (List.mem_cons_of_mem i hk))
    exact ⟨t, by rw [run, hstep, Option.bind_some, ht]⟩

/-- **The watchdog is patted as often as the slowest processor ticks**: `__FdoVirqPatWatchdog` has returned
`TRUE` as often as the least of the counts of the timers says. -/
theorem pats_isLeast (hfresh : Fresh VirqList) (hfew : ∀ i ∈ timers VirqList, ticks.count i < 4294967296)
    (hrun : run fdoVirqCallback ⟨VirqList, 0⟩ ticks = some s) :
    IsLeast {n | ∃ virq ∈ s.VirqList, virq.type = virqTimer ∧ virq.Count = n} s.pats := by
  have h := counted_of_run hfresh hfew hrun
  obtain ⟨⟨i, ⟨virq₀, hi₀, htimer₀⟩, hleast⟩, hlower⟩ := h.least
  obtain ⟨virq, hi, htype, -⟩ := source_eq h.source.symm hi₀
  have htimer : virq.type = virqTimer := htype.trans htimer₀
  refine ⟨⟨virq, List.mem_of_getElem? hi, htimer, (h.count i virq hi htimer).trans hleast⟩, ?_⟩
  rintro _ ⟨virq', hvirq', htimer', rfl⟩
  obtain ⟨k, hk⟩ := List.mem_iff_getElem?.mp hvirq'
  obtain ⟨virq₁, hk₁, htype₁, -⟩ := source_eq h.source hk
  rw [h.count k virq' hk htimer']
  exact hlower ⟨k, ⟨virq₁, hk₁, htype₁.trans htimer'⟩, rfl⟩

/-- Two processors: the pats follow the second one, which ticks less often. -/
theorem pats_of_two : ∃ VirqList s, fdoVirqInitialize 10 2 true (fun _ => true) true = some VirqList ∧
    run fdoVirqCallback ⟨VirqList, 0⟩ [1, 2, 0, 1, 1, 2, 1] = some s ∧ s.pats = 2 ∧
    IsLeast {n | ∃ virq ∈ s.VirqList, virq.type = virqTimer ∧ virq.Count = n} s.pats := by
  obtain ⟨VirqList, hlist, hrun⟩ := (Option.any_eq_true
    (fun VirqList => (run fdoVirqCallback ⟨VirqList, 0⟩ [1, 2, 0, 1, 1, 2, 1]).any fun s => s.pats = 2)
    (fdoVirqInitialize 10 2 true (fun _ => true) true)).mp (by decide)
  obtain ⟨s, hs, hpats⟩ := (Option.any_eq_true _ _).mp hrun
  have hfresh := fdoVirqInitialize_fresh (by decide) ⟨0, by decide, rfl⟩ hlist
  refine ⟨VirqList, s, hlist, hs, of_decide_eq_true hpats, ?_⟩
  exact pats_isLeast hfresh (fun _ _ => List.count_le_length.trans_lt (by decide)) hs

end XenBus.Fdo.Watchdog
