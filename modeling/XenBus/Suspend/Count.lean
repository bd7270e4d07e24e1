import XenBus.Foundations.Transition
import Mathlib.Algebra.Order.BigOperators.Group.Finset
import Mathlib.Data.List.Infix

/-!
# The number of suspends

`SuspendTrigger` (`xenbus/suspend.c`): if the hypervisor has suspended the VM, `SyncRunEarly` has every CPU
call `SuspendEarly`, the CPU that has triggered the suspend before the others. Each of them executes
`Context->Count++`, which is a read and a write; the others do so at the same time. The rest of
`SuspendEarly` does not touch the count. The CPUs wait in `SyncWorker` when `SyncRunEarly` is called, and
carry out the request once.

`SuspendGetCount` is documented as the number of suspends. With more than one CPU it counts every suspend at
least twice (`bounds_of_reaches`), and `counts_iff` says that it is the number of suspends in no other runs
than those on one CPU, or without a suspend.
-/

namespace XenBus.Suspend

open Transition

/-! ## The system -/

/-- Where a CPU is in the early phase. -/
inductive Place
  /-- In the loop of `SyncWorker`. -/
  | polling
  /-- In `SuspendEarly`, before the read of `Count` and before its write. -/
  | read
  | write (Old : ℕ)
  /-- Before the increment of `CompletionCount`. -/
  | inc
  | done
  deriving DecidableEq

/-- The CPU has incremented `Count`. -/
def Place.counted : Place → ℕ
  | .inc | .done => 1
  | _ => 0

/-- The CPU has incremented `CompletionCount`. -/
def Place.completed : Place → ℕ
  | .done => 1
  | _ => 0

/-- The contexts, the CPUs, and the number of suspends. `SyncOwner` is the CPU in `SuspendTrigger` after a
suspend, and `Request` says whether it has written `SYNC_REQUEST_RUN_EARLY`. -/
structure State (N : ℕ) where
  Count : ℕ
  SyncOwner : Option (Fin N)
  CompletionCount : ℕ
  Request : Bool
  cpu : Fin N → Place
  suspends : ℕ

variable {N : ℕ}

/-- No suspend yet. -/
def init (N : ℕ) : State N := ⟨0, none, 0, false, fun _ => .polling, 0⟩

/-- A call of `SuspendTrigger` on a CPU, with the outcome of `SchedShutdown`, or a step of a CPU. -/
inductive Action (N : ℕ)
  | trigger (owner : Fin N) (success : Bool)
  | run (c : Fin N)

/-- The CPU goes on. -/
def State.goto (s : State N) (c : Fin N) (place : Place) : State N :=
  { s with cpu := Function.update s.cpu c place }

/-- `SyncRunEarly` and `SyncWorker`, with `SuspendEarly`. -/
def runStep (s : State N) (owner c : Fin N) : Place → Option (State N)
  | .polling => if s.Request then some (s.goto c .read) else none
  | .read => some (s.goto c (.write s.Count))
  | .write Old => some { s.goto c .inc with Count := (Old + 1) % 4294967296 }
  | .inc =>
    some { s.goto c .done with
      CompletionCount := s.CompletionCount + 1
      Request := s.Request || decide (c = owner) }
  | .done =>
    if c = owner ∧ s.CompletionCount = N then
      some { s with
        SyncOwner := none
        suspends := s.suspends + 1 }
    else none

/-- One step. -/
def step (s : State N) : Action N → Option (State N)
  | .trigger owner success =>
    match s.SyncOwner with
    | some _ => none
    | none =>
      if success then
        some { s with
          SyncOwner := some owner
          CompletionCount := 0
          Request := false
          cpu := Function.update (fun _ => .polling) owner .read }
      else some s
  | .run c => s.SyncOwner.bind fun owner => runStep s owner c (s.cpu c)

/-- `SuspendGetCount`. -/
def SuspendGetCount (s : State N) : ℕ := s.Count

/-- Between two calls of `SuspendTrigger`, the count is the number of suspends. -/
def Counted (s : State N) : Prop := s.SyncOwner = none → SuspendGetCount s = s.suspends

/-! ## One suspend -/

variable {s t : State N} {owner c : Fin N} {base : ℕ}

/-- The number of CPUs that have incremented `Count`. -/
def State.counted (s : State N) : ℕ := ∑ c, (s.cpu c).counted

theorem Place.counted_le (place : Place) : place.counted ≤ 1 := by
  cases place <;> simp [counted]

theorem State.counted_le (s : State N) : s.counted ≤ N := by
  calc s.counted ≤ ∑ _c : Fin N, 1 := Finset.sum_le_sum fun c _ => (s.cpu c).counted_le
    _ = N := by simp

/-- Where the owner can be, with the count, the number of CPUs that have incremented it, and `Request`, in a
suspend before which the count was `base`. -/
def OwnerAt (base Count counted : ℕ) (Request : Bool) : Place → Prop
  | .polling => False
  | .read => Count = base ∧ Request = false
  | .write Old => Old = base ∧ Request = false
  | .inc => base + 1 ≤ Count ∧ Count ≤ base + counted ∧ Request = false
  | .done => base + 1 ≤ Count ∧ Count ≤ base + counted ∧ Request = true

/-- Where another CPU can be. What it is about to write may be out of date. -/
def OtherAt (base Count counted : ℕ) (Request : Bool) : Place → Prop
  | .polling => True
  | .read => Request = true
  | .write Old => Request = true ∧ base + 1 ≤ Old ∧ Old ≤ base + counted
  | .inc | .done => Request = true ∧ base + 2 ≤ Count

/-- The early phase of a suspend before which the count was `base`. -/
structure Early (base : ℕ) (owner : Fin N) (s : State N) : Prop where
  completion : s.CompletionCount = ∑ c, (s.cpu c).completed
  atOwner : OwnerAt base s.Count s.counted s.Request (s.cpu owner)
  atOthers : ∀ c ≠ owner, OtherAt base s.Count s.counted s.Request (s.cpu c)

theorem OtherAt.mono {Count Count' counted counted' : ℕ} {Request Request' : Bool} {place : Place}
    (h : OtherAt base Count counted Request place) (hCount : base + 2 ≤ Count → base + 2 ≤ Count')
    (hcounted : counted ≤ counted') (hRequest : Request = true → Request' = true) :
    OtherAt base Count' counted' Request' place := by
  cases place with
  | polling => trivial
  | read => exact hRequest h
  | write Old => exact ⟨hRequest h.1, h.2.1, h.2.2.trans (Nat.add_le_add_left hcounted base)⟩
  | inc => exact ⟨hRequest h.1, hCount h.2⟩
  | done => exact ⟨hRequest h.1, hCount h.2⟩

/-- Once the owner has written the request, it is done. -/
theorem OwnerAt.of_request {Count counted : ℕ} {place : Place} (h : OwnerAt base Count counted true place) :
    place = .done ∧ base + 1 ≤ Count ∧ Count ≤ base + counted := by
  cases place with
  | polling => exact h.elim
  | read => cases h.2
  | write Old => cases h.2
  | inc => cases h.2.2
  | done => exact ⟨rfl, h.1, h.2.1⟩

/-- While the owner has not written the request, the others wait. -/
theorem OtherAt.polling {Count counted : ℕ} {place : Place} (h : OtherAt base Count counted false place) :
    place = .polling := by
  cases place with
  | polling => rfl
  | read => cases h
  | write Old => cases h.1
  | inc => cases h.1
  | done => cases h.1

theorem counted_goto (s : State N) (c : Fin N) (place : Place) :
    (s.goto c place).counted + (s.cpu c).counted = s.counted + place.counted :=
  sum_update_add Place.counted s.cpu c place

theorem completed_goto (s : State N) (c : Fin N) (place : Place) :
    ∑ j, ((s.goto c place).cpu j).completed + (s.cpu c).completed =
      ∑ j, (s.cpu j).completed + place.completed :=
  sum_update_add Place.completed s.cpu c place

theorem goto_self (s : State N) (c : Fin N) (place : Place) : (s.goto c place).cpu c = place :=
  Function.update_self ..

theorem goto_of_ne (s : State N) {c j : Fin N} (h : j ≠ c) (place : Place) :
    (s.goto c place).cpu j = s.cpu j :=
  Function.update_of_ne h ..

namespace Early

/-- A CPU goes on: what has to be shown is where it is then, and that the others are where they can be. -/
theorem goto (h : Early base owner s) {old place : Place} (hplace : s.cpu c = old) (counted : ℕ)
    {Count CompletionCount : ℕ} {Request : Bool}
    (hcounted : counted + old.counted = s.counted + place.counted)
    (hcompletion : CompletionCount + old.completed = s.CompletionCount + place.completed)
    (hat : if c = owner then OwnerAt base Count counted Request place
      else OtherAt base Count counted Request place ∧
        OwnerAt base Count counted Request (s.cpu owner))
    (hothers : ∀ j ≠ owner, j ≠ c → OtherAt base Count counted Request (s.cpu j)) :
    Early base owner { s.goto c place with
      Count := Count
      CompletionCount := CompletionCount
      Request := Request } := by
  subst hplace
  have hsame : (s.goto c place).counted = counted :=
    Nat.add_right_cancel ((counted_goto s c place).trans hcounted.symm)
  refine ⟨?_, ?_, fun j hj => ?_⟩
  · have hsum := completed_goto s c place
    rw [← h.completion, ← hcompletion] at hsum
    exact (Nat.add_right_cancel hsum).symm
  · change OwnerAt base Count (s.goto c place).counted Request ((s.goto c place).cpu owner)
    rw [hsame]
    by_cases hc : c = owner
    · rw [if_pos hc] at hat
      rw [hc, goto_self]
      exact hat
    · rw [if_neg hc] at hat
      rw [goto_of_ne s (Ne.symm hc)]
      exact hat.2
  · change OtherAt base Count (s.goto c place).counted Request ((s.goto c place).cpu j)
    rw [hsame]
    by_cases hjc : j = c
    · subst hjc
      rw [if_neg hj] at hat
      rw [goto_self]
      exact hat.1
    · rw [goto_of_ne s hjc]
      exact hothers j hj hjc

/-- The owner goes on. -/
theorem step_owner (h : Early base owner s) (hfits : base + N < 4294967296)
    (hs : runStep s owner owner (s.cpu owner) = some t) (ht : t.SyncOwner ≠ none) :
    Early base owner t := by
  have howner := h.atOwner
  cases hplace : s.cpu owner with
  | polling =>
    rw [hplace] at howner
    exact howner.elim
  | read =>
    rw [hplace] at howner hs
    obtain rfl := Option.some.inj hs
    obtain ⟨hCount, hRequest⟩ := howner
    refine h.goto hplace s.counted rfl rfl ?_ fun j hj _ => h.atOthers j hj
    rw [if_pos rfl]
    exact ⟨hCount, hRequest⟩
  | write Old =>
    rw [hplace] at howner hs
    obtain rfl := Option.some.inj hs
    obtain ⟨rfl, hRequest⟩ := howner
    have hcounted := counted_goto s owner .inc
    have hle := (s.goto owner .inc).counted_le
    rw [hplace, show (Place.write Old).counted = 0 from rfl, show Place.inc.counted = 1 from rfl] at hcounted
    rw [Nat.mod_eq_of_lt (by omega : Old + 1 < 4294967296)]
    refine h.goto hplace (s.counted + 1) rfl rfl ?_ fun j hj _ => ?_
    · rw [if_pos rfl]
      exact ⟨le_rfl, by omega, hRequest⟩
    · have hpolling := h.atOthers j hj
      rw [hRequest] at hpolling
      rw [hpolling.polling]
      trivial
  | inc =>
    rw [hplace] at howner hs
    obtain rfl := Option.some.inj hs
    obtain ⟨hlo, hhi, hRequest⟩ := howner
    refine h.goto hplace s.counted rfl rfl ?_ fun j hj _ => ?_
    · rw [if_pos rfl]
      exact ⟨hlo, hhi, by simp⟩
    · exact (h.atOthers j hj).mono id le_rfl (by simp)
  | done =>
    rw [hplace] at hs
    obtain ⟨-, hs⟩ := Option.ite_none_right_eq_some.mp hs
    obtain rfl := Option.some.inj hs
    exact absurd rfl ht

/-- Another CPU goes on. -/
theorem step_other (h : Early base owner s) (hfits : base + N < 4294967296) (hc : c ≠ owner)
    (hs : runStep s owner c (s.cpu c) = some t) : Early base owner t := by
  have hother := h.atOthers c hc
  have howner := h.atOwner
  cases hplace : s.cpu c with
  | polling =>
    rw [hplace] at hs
    obtain ⟨hRequest, hs⟩ := Option.ite_none_right_eq_some.mp hs
    obtain rfl := Option.some.inj hs
    refine h.goto hplace s.counted rfl rfl ?_ fun j hj _ => h.atOthers j hj
    rw [if_neg hc]
    exact ⟨hRequest, howner⟩
  | read =>
    rw [hplace] at hother hs
    obtain rfl := Option.some.inj hs
    refine h.goto hplace s.counted rfl rfl ?_ fun j hj _ => h.atOthers j hj
    rw [if_neg hc]
    rw [show s.Request = true from hother] at howner ⊢
    exact ⟨⟨rfl, howner.of_request.2⟩, howner⟩
  | write Old =>
    rw [hplace] at hother hs
    obtain rfl := Option.some.inj hs
    obtain ⟨hRequest, hlo, hhi⟩ := hother
    have hcounted := counted_goto s c .inc
    have hle := (s.goto c .inc).counted_le
    rw [hplace, show (Place.write Old).counted = 0 from rfl, show Place.inc.counted = 1 from rfl] at hcounted
    rw [Nat.mod_eq_of_lt (by omega : Old + 1 < 4294967296)]
    refine h.goto hplace (s.counted + 1) rfl rfl ?_ fun j hj _ => ?_
    · rw [if_neg hc]
      rw [hRequest] at howner
      rw [show (s.goto c .inc).Request = true from hRequest, howner.of_request.1]
      exact ⟨⟨rfl, by omega⟩, by omega, by omega, rfl⟩
    · exact (h.atOthers j hj).mono (fun _ => by omega) (Nat.le_succ _) id
  | inc =>
    rw [hplace] at hother hs
    obtain rfl := Option.some.inj hs
    obtain ⟨hRequest, hlo⟩ := hother
    refine h.goto hplace s.counted rfl rfl ?_ fun j hj _ => ?_
    · rw [if_neg hc]
      rw [hRequest] at howner ⊢
      exact ⟨⟨rfl, hlo⟩, howner⟩
    · exact (h.atOthers j hj).mono id le_rfl (by simp +contextual)
  | done =>
    rw [hplace] at hs
    obtain ⟨⟨heq, -⟩, -⟩ := Option.ite_none_right_eq_some.mp hs
    exact absurd heq hc

theorem all_done (h : Early base owner s) (hN : s.CompletionCount = N) (c : Fin N) : s.cpu c = .done := by
  by_contra hnot
  have hle : ∀ j ∈ Finset.univ, (s.cpu j).completed ≤ 1 := fun j _ => by
    cases s.cpu j <;> simp [Place.completed]
  have hlt : (s.cpu c).completed < 1 := by
    cases hplace : s.cpu c <;> first | exact Nat.zero_lt_one | exact absurd hplace hnot
  have hsum : ∑ j, (s.cpu j).completed < ∑ _j : Fin N, 1 :=
    Finset.sum_lt_sum hle ⟨c, Finset.mem_univ c, hlt⟩
  rw [← h.completion, hN] at hsum
  simp at hsum

/-- **The end of a suspend**: all CPUs have incremented the count, the owner before the others. -/
theorem finish (h : Early base owner s) (hN : s.CompletionCount = N) :
    base + min N 2 ≤ s.Count ∧ s.Count ≤ base + N := by
  have howner := h.atOwner
  rw [h.all_done hN owner] at howner
  obtain ⟨hlo, hhi, -⟩ := howner
  have hle := s.counted_le
  refine ⟨?_, by omega⟩
  by_cases hmore : 2 ≤ N
  · have : Nontrivial (Fin N) := Fin.nontrivial_iff_two_le.mpr hmore
    obtain ⟨c, hc⟩ := exists_ne owner
    have hother := h.atOthers c hc
    rw [h.all_done hN c] at hother
    have hsecond := hother.2
    omega
  · omega

end Early

/-- The start of a suspend. -/
theorem early_trigger (s : State N) (owner : Fin N) : Early s.Count owner { s with
    SyncOwner := some owner
    CompletionCount := 0
    Request := false
    cpu := Function.update (fun _ => .polling) owner .read } := by
  refine ⟨?_, ?_, fun c hc => ?_⟩
  · refine (Finset.sum_eq_zero fun c _ => ?_).symm
    by_cases hc : c = owner
    · rw [hc]
      simp [Place.completed]
    · simp [hc, Place.completed]
  · simp [OwnerAt]
  · simp [hc, OtherAt]

/-! ## Runs -/

/-- What the suspends before have added to the count. -/
def Within (s : State N) (Count : ℕ) : Prop := min N 2 * s.suspends ≤ Count ∧ Count ≤ N * s.suspends

/-- The invariant, as long as the count cannot wrap. -/
structure Inv (s : State N) : Prop where
  quiet : s.SyncOwner = none → N * s.suspends < 4294967296 → Within s s.Count
  early : ∀ owner, s.SyncOwner = some owner → N * (s.suspends + 1) < 4294967296 →
    ∃ base, Within s base ∧ Early base owner s

theorem inv_init : Inv (init N) where
  quiet _ _ := by simp [Within, init]
  early _ h := by cases h

/-- A CPU goes on, or the owner leaves the early phase. -/
theorem runStep_cases {place : Place} (hs : runStep s owner c place = some t) :
    (t.SyncOwner = s.SyncOwner ∧ t.suspends = s.suspends) ∨
      s.CompletionCount = N ∧ t = { s with
        SyncOwner := none
        suspends := s.suspends + 1 } := by
  cases place with
  | polling =>
    obtain ⟨-, hs⟩ := Option.ite_none_right_eq_some.mp hs
    obtain rfl := Option.some.inj hs
    exact .inl ⟨rfl, rfl⟩
  | read | write | inc =>
    obtain rfl := Option.some.inj hs
    exact .inl ⟨rfl, rfl⟩
  | done =>
    obtain ⟨⟨-, hN⟩, hs⟩ := Option.ite_none_right_eq_some.mp hs
    exact .inr ⟨hN, (Option.some.inj hs).symm⟩

theorem Inv.step {a : Action N} (h : Inv s) (hs : Suspend.step s a = some t) : Inv t := by
  cases a with
  | trigger owner success =>
    cases hsync : s.SyncOwner with
    | some _ => simp [Suspend.step, hsync] at hs
    | none =>
      simp only [Suspend.step, hsync] at hs
      split_ifs at hs
      · obtain rfl := Option.some.inj hs
        constructor
        case quiet => exact fun hnone => by cases hnone
        case early =>
          intro owner' howner hfits
          cases howner
          refine ⟨s.Count, h.quiet hsync ?_, early_trigger s owner⟩
          exact lt_of_le_of_lt (Nat.mul_le_mul_left N (Nat.le_succ _)) hfits
      · obtain rfl := Option.some.inj hs
        exact h
  | run c =>
    obtain ⟨owner, hsync, hs⟩ := Option.bind_eq_some_iff.mp hs
    obtain ⟨hsync', hsuspends⟩ | ⟨hN, rfl⟩ := runStep_cases hs
    · rw [hsync] at hsync'
      constructor
      case quiet => exact fun hnone => by cases hsync'.symm.trans hnone
      case early =>
        intro owner' howner hfits
        obtain rfl := Option.some.inj (hsync'.symm.trans howner)
        rw [hsuspends] at hfits
        obtain ⟨base, hwithin, hearly⟩ := h.early owner hsync hfits
        have hbase : base + N < 4294967296 := by
          have hhi := hwithin.2
          rw [Nat.mul_succ] at hfits
          omega
        refine ⟨base, by rwa [Within, hsuspends], ?_⟩
        by_cases hc : c = owner
        · subst hc
          exact hearly.step_owner hbase hs (by rw [hsync']; simp)
        · exact hearly.step_other hbase hc hs
    · constructor
      case early => exact fun owner' howner => by cases howner
      case quiet =>
        intro _ hfits
        obtain ⟨base, ⟨hlo, hhi⟩, hearly⟩ := h.early owner hsync hfits
        obtain ⟨hlo', hhi'⟩ := hearly.finish hN
        change min N 2 * (s.suspends + 1) ≤ s.Count ∧ s.Count ≤ N * (s.suspends + 1)
        rw [Nat.mul_succ, Nat.mul_succ]
        exact ⟨by omega, by omega⟩

theorem inv_of_reaches (h : Reaches step Free (init N) s) : Inv s :=
  h.invariant inv_init fun _ _ _ hinv _ hs => hinv.step hs

/-- **The count between two suspends**, as long as it cannot wrap: each of them has been counted once for every
CPU at most, and twice at least if there is more than one. -/
theorem bounds_of_reaches (h : Reaches step Free (init N) s) (hquiet : s.SyncOwner = none)
    (hfits : N * s.suspends < 4294967296) :
    min N 2 * s.suspends ≤ SuspendGetCount s ∧ SuspendGetCount s ≤ N * s.suspends :=
  (inv_of_reaches h).quiet hquiet hfits

/-- One step: the count stays a `ULONG`, and a suspend that ends is counted. -/
theorem step_spec {a : Action N} (hs : step s a = some t) :
    (s.Count < 4294967296 → t.Count < 4294967296) ∧
      (t.suspends = s.suspends ∨ t.suspends = s.suspends + 1 ∧ t.SyncOwner = none) := by
  cases a with
  | trigger owner success =>
    cases hsync : s.SyncOwner with
    | some _ => simp [step, hsync] at hs
    | none =>
      simp only [step, hsync] at hs
      split_ifs at hs <;> obtain rfl := Option.some.inj hs <;> exact ⟨id, .inl rfl⟩
  | run c =>
    obtain ⟨owner, -, hs⟩ := Option.bind_eq_some_iff.mp hs
    refine ⟨fun hlt => ?_, ?_⟩
    · cases hplace : s.cpu c with
      | polling =>
        rw [hplace] at hs
        obtain ⟨-, hs⟩ := Option.ite_none_right_eq_some.mp hs
        obtain rfl := Option.some.inj hs
        exact hlt
      | read | inc =>
        rw [hplace] at hs
        obtain rfl := Option.some.inj hs
        exact hlt
      | write Old =>
        rw [hplace] at hs
        obtain rfl := Option.some.inj hs
        exact Nat.mod_lt _ (by decide)
      | done =>
        rw [hplace] at hs
        obtain ⟨-, hs⟩ := Option.ite_none_right_eq_some.mp hs
        obtain rfl := Option.some.inj hs
        exact hlt
    · obtain ⟨-, hsame⟩ | ⟨-, rfl⟩ := runStep_cases hs
      · exact .inl hsame
      · exact .inr ⟨rfl, rfl⟩

theorem count_lt (h : Reaches step Free (init N) s) : s.Count < 4294967296 :=
  h.invariant (P := fun s => s.Count < 4294967296) (Nat.succ_pos _)
    fun _ _ _ hlt _ hs => (step_spec hs).1 hlt

theorem suspends_le {as : List (Action N)} (h : run step s as = some t) : s.suspends ≤ t.suspends := by
  induction as generalizing s with
  | nil =>
    obtain rfl := Option.some.inj h
    exact le_rfl
  | cons a as ih =>
    obtain ⟨v, hv, h⟩ := Option.bind_eq_some_iff.mp h
    have hle := ih h
    obtain hsame | ⟨hsucc, -⟩ := (step_spec hv).2 <;> omega

/-- A suspend is over before the next one starts. -/
theorem exists_quiet {as : List (Action N)} (h : run step s as = some t) {m : ℕ} (hlo : s.suspends < m)
    (hhi : m ≤ t.suspends) : ∃ before u, before <+: as ∧ run step s before = some u ∧
      u.SyncOwner = none ∧ u.suspends = m := by
  induction as generalizing s with
  | nil =>
    obtain rfl := Option.some.inj h
    exact absurd hlo (by omega)
  | cons a as ih =>
    obtain ⟨v, hv, h⟩ := Option.bind_eq_some_iff.mp h
    by_cases hnext : v.suspends < m
    · obtain ⟨before, u, hbefore, hu, hend⟩ := ih h hnext
      refine ⟨a :: before, u, (List.prefix_cons_inj a).mpr hbefore, ?_, hend⟩
      rw [run, hv]
      exact hu
    · obtain hsame | ⟨hsucc, hquiet⟩ := (step_spec hv).2
      · exact absurd hlo (by omega)
      · refine ⟨[a], v, by simp, ?_, hquiet, by omega⟩
        rw [run, hv]
        rfl

/-- **`SuspendGetCount` counts suspends** after every `SuspendTrigger` of a run in which there is only one CPU
and the count does not wrap, or no suspend has succeeded, and in no other run. -/
theorem counts_iff (hN : N < 4294967296) {as : List (Action N)} (h : run step (init N) as = some s) :
    (∀ before u, before <+: as → run step (init N) before = some u → Counted u) ↔
      s.suspends = 0 ∨ N = 1 ∧ s.suspends < 4294967296 := by
  constructor
  · intro hcounted
    by_contra hnot
    obtain ⟨hsome, hmany⟩ := not_or.mp hnot
    by_cases hone : N = 1
    · -- the count is a `ULONG`
      obtain ⟨before, u, hbefore, hu, hquiet, hm⟩ := exists_quiet h (m := s.suspends) (Nat.pos_of_ne_zero hsome) le_rfl
      have heq : u.Count = u.suspends := hcounted before u hbefore hu hquiet
      have hlt := count_lt (reaches_of_run hu)
      exact hmany ⟨hone, by omega⟩
    · -- the first suspend has been counted more than once
      obtain ⟨before, u, hbefore, hu, hquiet, hm⟩ := exists_quiet h (m := 1) Nat.zero_lt_one (Nat.pos_of_ne_zero hsome)
      have heq : u.Count = u.suspends := hcounted before u hbefore hu hquiet
      obtain ⟨hlo, hhi⟩ := bounds_of_reaches (reaches_of_run hu) hquiet (by rwa [hm, Nat.mul_one])
      change min N 2 * u.suspends ≤ u.Count at hlo
      change u.Count ≤ N * u.suspends at hhi
      rw [hm, Nat.mul_one] at hlo hhi
      omega
  · rintro hall before u hbefore hu hquiet
    obtain ⟨after, rfl⟩ := hbefore
    have hle : u.suspends ≤ s.suspends := by
      rw [run_append, hu] at h
      exact suspends_le h
    obtain ⟨hlo, hhi⟩ := bounds_of_reaches (reaches_of_run hu) hquiet (by
      obtain hzero | ⟨rfl, hlt⟩ := hall
      · rw [show u.suspends = 0 by omega]
        simp
      · omega)
    obtain hzero | ⟨rfl, hlt⟩ := hall
    · rw [show u.suspends = 0 by omega] at hlo hhi ⊢
      exact Nat.le_zero.mp hhi
    · change 1 * u.suspends ≤ SuspendGetCount u at hlo
      omega

/-- A VM with one CPU is suspended twice, and another suspend fails. -/
theorem counts_single : ∃ s : State 1, Counted s ∧ s.SyncOwner = none ∧ s.suspends = 2 := by
  let suspend : List (Action 1) := [.trigger 0 true, .run 0, .run 0, .run 0, .run 0]
  have hrun : (run step (init 1) (suspend ++ [.trigger 0 false] ++ suspend)).any
      (fun s => decide (s.SyncOwner = none ∧ s.suspends = 2)) = true := by decide +kernel
  obtain ⟨s, hs, hend⟩ := (Option.any_eq_true _ _).mp hrun
  obtain ⟨hquiet, htwo⟩ := of_decide_eq_true hend
  have hcounted := (counts_iff (by decide) hs).mpr (.inr ⟨rfl, by omega⟩)
  exact ⟨s, hcounted _ s (List.prefix_refl _) hs, hquiet, htwo⟩

/-- A VM with two CPUs is suspended once. -/
theorem counted_twice : ∃ s : State 2, Reaches step Free (init 2) s ∧ s.SyncOwner = none ∧
    s.suspends = 1 ∧ SuspendGetCount s = 2 := by
  have hrun : (run step (init 2)
      [.trigger 0 true, .run 0, .run 0, .run 0, .run 1, .run 1, .run 1, .run 1, .run 0]).any
      (fun s => decide (s.SyncOwner = none ∧ s.suspends = 1 ∧ SuspendGetCount s = 2)) = true := by
    decide +kernel
  obtain ⟨s, hs, hend⟩ := (Option.any_eq_true _ _).mp hrun
  exact ⟨s, reaches_of_run hs, of_decide_eq_true hend⟩

end XenBus.Suspend
