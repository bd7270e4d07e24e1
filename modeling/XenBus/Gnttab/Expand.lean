import XenBus.Foundations.Transition
import XenBus.Gnttab.Model

/-!
# Expansions that overlap

`GnttabExpand` runs under the locks of different caches, so its calls can overlap. A step is one access
to what they share: the increment of `FrameIndex`, which claims an index, each part of the set-up of that
frame, which may fail, and the decrement after a failure.

The decrement gives back the index on top, whoever has claimed it, and the limit is tested with an
equality. In runs in which a call that fails gives back its own index, and none is claimed beyond the
limit (`InOrder`), each index up to `FrameIndex` is claimed by one call or has been added once
(`contiguous_of_reaches`). Otherwise a failure leaves a hole (`not_contiguous_of_failure`).
-/

namespace XenBus.Gnttab.Expand

open MachineInt Transition

/-! ## The system -/

/-- Where a call is, and the index that it has claimed. -/
inductive Pc
  | idle
  /-- Before the test against the limit. -/
  | test (Index : ℕ)
  /-- Before `FdoHoleAllocate`. -/
  | hole (Index : ℕ)
  /-- Before `MemoryAddToPhysmap`. -/
  | map (Index : ℕ)
  /-- Before `RangeSetPut`. -/
  | put (Index : ℕ)
  /-- At `fail4`. -/
  | unmap (Index : ℕ)
  /-- At `fail3`. -/
  | free (Index : ℕ)
  /-- Before the decrement. -/
  | decrement (Index : ℕ)
  deriving DecidableEq

/-- What has been set up of a frame: the page of the hole, and whether the frame is mapped there. -/
structure SetUp where
  Mdl : Option ℕ
  mapped : Bool

/-- Frames, and the intervals of references that have been put into the range set. -/
structure State (ι : Type*) where
  MaximumFrameCount : ℕ
  FrameIndex : ℤ
  Frame : ℕ → SetUp
  added : List (ℕ × ℕ)
  pc : ι → Pc

/-- `Start` and the number of references of a frame. -/
def interval (Index : ℕ) : ℕ × ℕ := (frameStart Index, frameEnd Index - frameStart Index)

variable {ι : Type*} [DecidableEq ι]

/-- The state after a step of a call. -/
def State.goto (s : State ι) (c : ι) (pc : Pc) : State ι := { s with pc := Function.update s.pc c pc }

/-- One step of a call, with the outcome of what it calls: `none` is a failure. -/
def step (s : State ι) : ι × Option ℕ → Option (State ι)
  | (c, outcome) =>
    match s.pc c with
    | .idle =>
      let FrameIndex := long32 (s.FrameIndex + 1)
      some ({ s with FrameIndex := FrameIndex }.goto c (.test (FrameIndex % 4294967296).toNat))
    | .test Index =>
      some (s.goto c (if Index = s.MaximumFrameCount then .decrement Index else .hole Index))
    | .hole Index =>
      some ({ s with Frame := Function.update s.Frame Index { s.Frame Index with Mdl := outcome } }.goto c
        (if outcome.isSome then .map Index else .decrement Index))
    | .map Index =>
      if outcome.isSome then
        some ({ s with Frame := Function.update s.Frame Index { s.Frame Index with mapped := true } }.goto c
          (.put Index))
      else some (s.goto c (.free Index))
    | .put Index =>
      if outcome.isSome then some ({ s with added := interval Index :: s.added }.goto c .idle)
      else some (s.goto c (.unmap Index))
    | .unmap Index =>
      some ({ s with Frame := Function.update s.Frame Index { s.Frame Index with mapped := false } }.goto c
        (.free Index))
    | .free Index =>
      some ({ s with Frame := Function.update s.Frame Index { s.Frame Index with Mdl := none } }.goto c
        (.decrement Index))
    | .decrement _ => some ({ s with FrameIndex := long32 (s.FrameIndex - 1) }.goto c .idle)

/-- No frame yet. -/
def init (ι : Type*) (MaximumFrameCount : ℕ) : State ι where
  MaximumFrameCount := MaximumFrameCount
  FrameIndex := -1
  Frame _ := ⟨none, false⟩
  added := []
  pc _ := .idle

/-- An index is claimed only below the limit, and a call that gives up an index gives up its own. -/
def InOrder (s : State ι) (a : ι × Option ℕ) : Prop :=
  match s.pc a.1 with
  | .idle => s.FrameIndex < s.MaximumFrameCount
  | .decrement Index => s.FrameIndex = Index
  | _ => True

instance (s : State ι) (a : ι × Option ℕ) : Decidable (InOrder s a) := by
  unfold InOrder
  cases s.pc a.1 <;> infer_instance

/-! ## What is to hold -/

/-- The frame that the call works on. -/
def Pc.uses : Pc → Option ℕ
  | .hole Index => some Index
  | .map Index => some Index
  | .put Index => some Index
  | .unmap Index => some Index
  | .free Index => some Index
  | _ => none

/-- The index that the call has claimed. -/
def Pc.claims : Pc → Option ℕ
  | .test Index => some Index
  | .decrement Index => some Index
  | pc => pc.uses

/-- The frame has a page, and is mapped there. -/
def SetUp.Populated (f : SetUp) : Prop := f.Mdl ≠ none ∧ f.mapped = true

/-- **The frames are within bounds, and there is no hole.** -/
structure Contiguous [Fintype ι] (s : State ι) : Prop where
  bounded : ∀ c Index, (s.pc c).uses = some Index → Index < s.MaximumFrameCount
  once : ∀ Index, (∑ c, if (s.pc c).uses = some Index then 1 else 0) +
    s.added.count (interval Index) ≤ 1
  quiescent : (∀ c, s.pc c = .idle) → ∀ Index : ℕ, (Index : ℤ) ≤ s.FrameIndex →
    (s.Frame Index).Populated ∧ s.added.count (interval Index) = 1

/-! ## The invariant -/

variable [Fintype ι] {s t : State ι} {c : ι} {pc : Pc}

/-- 1 if the call has claimed the index. -/
def Pc.claim (Index : ℕ) (pc : Pc) : ℤ := if pc.claims = some Index then 1 else 0

/-- How many calls have claimed the index. -/
def State.claimed (s : State ι) (Index : ℕ) : ℤ := ∑ c, (s.pc c).claim Index

/-- The set-up is as far as the call has come. -/
def Pc.Reached (Frame : ℕ → SetUp) : Pc → Prop
  | .map Index => (Frame Index).Mdl ≠ none
  | .put Index => (Frame Index).Populated
  | _ => True

/-- **The invariant.** -/
structure Inv (s : State ι) : Prop where
  small : s.MaximumFrameCount * entryPerFrame ≤ 4294967296
  low : -1 ≤ s.FrameIndex
  high : s.FrameIndex ≤ s.MaximumFrameCount
  once : ∀ Index : ℕ, s.claimed Index + s.added.count (interval Index) =
    if (Index : ℤ) ≤ s.FrameIndex then 1 else 0
  bounded : ∀ c Index, (s.pc c).uses = some Index → Index < s.MaximumFrameCount
  reached : ∀ c, (s.pc c).Reached s.Frame
  populated : ∀ Index, s.added.count (interval Index) = 1 → (s.Frame Index).Populated

theorem interval_injective : Function.Injective interval := by
  intro i j h
  have hstart : frameStart i = frameStart j := congrArg Prod.fst h
  unfold frameStart reservedEntryCount entryPerFrame at hstart
  omega

theorem claimed_goto (s : State ι) (c : ι) (pc : Pc) (Index : ℕ) : (s.goto c pc).claimed Index =
    s.claimed Index - (s.pc c).claim Index + pc.claim Index :=
  sum_update (fun _ => Pc.claim Index) s.pc c pc

omit [DecidableEq ι] in
theorem claim_nonneg (Index : ℕ) (pc : Pc) : 0 ≤ pc.claim Index := by
  unfold Pc.claim
  split_ifs <;> omega

omit [DecidableEq ι] in
/-- The claim of one call is one of those counted. -/
theorem claim_le (s : State ι) (c : ι) (Index : ℕ) : (s.pc c).claim Index ≤ s.claimed Index :=
  Finset.single_le_sum (f := fun c => (s.pc c).claim Index) (fun _ _ => claim_nonneg _ _)
    (Finset.mem_univ c)

/-- What another call has claimed is another index. -/
theorem Inv.ne_of_claims (h : Inv s) {c' : ι} (hne : c' ≠ c) {i j : ℕ} (hc : (s.pc c).claims = some i)
    (hc' : (s.pc c').claims = some j) : j ≠ i := by
  rintro rfl
  have htwo : (s.pc c).claim j + (s.pc c').claim j ≤ s.claimed j := by
    have hsum := claimed_goto s c .idle j
    have hle := claim_le (s.goto c .idle) c' j
    have hpc : (s.goto c .idle).pc c' = s.pc c' := Function.update_of_ne hne _ _
    have hidle : Pc.claim j .idle = 0 := rfl
    rw [hpc] at hle
    omega
  have honce := h.once j
  rw [Pc.claim, if_pos hc, Pc.claim, if_pos hc'] at htwo
  split_ifs at honce <;> omega

omit [DecidableEq ι] in
/-- What a call has claimed has not been added, and is not beyond `FrameIndex`. -/
theorem Inv.claimed (h : Inv s) {i : ℕ} (hc : (s.pc c).claims = some i) :
    s.added.count (interval i) = 0 ∧ (i : ℤ) ≤ s.FrameIndex := by
  have hle := claim_le s c i
  rw [Pc.claim, if_pos hc] at hle
  have honce := h.once i
  split_ifs at honce with hi
  · exact ⟨by omega, hi⟩
  · omega

/-! ## Steps -/

omit [Fintype ι] [DecidableEq ι] in
theorem Pc.Reached.congr {Frame Frame' : ℕ → SetUp} (h : pc.Reached Frame)
    (heq : ∀ i, pc.claims = some i → Frame' i = Frame i) : pc.Reached Frame' := by
  cases pc with
  | map i => exact (congrArg SetUp.Mdl (heq i rfl)).trans_ne h
  | put i =>
    show (Frame' i).Populated
    rw [heq i rfl]
    exact h
  | _ => exact trivial

/-- **A call works on the frame that it has claimed.** -/
theorem Inv.work (h : Inv s) {i : ℕ} (hc : (s.pc c).claims = some i) (hpc : pc.claims = some i)
    {Frame : ℕ → SetUp} (hframe : ∀ j, j ≠ i → Frame j = s.Frame j)
    (hbound : pc.uses = some i → i < s.MaximumFrameCount) (hreached : pc.Reached Frame) :
    Inv ({ s with Frame := Frame }.goto c pc) := by
  have hself : ({ s with Frame := Frame }.goto c pc).pc c = pc := Function.update_self ..
  have hother : ∀ {c'}, c' ≠ c → ({ s with Frame := Frame }.goto c pc).pc c' = s.pc c' :=
    fun hne => Function.update_of_ne hne _ _
  refine ⟨h.small, h.low, h.high, ?_, ?_, ?_, ?_⟩
  · intro j
    have honce := h.once j
    have hsame : (s.pc c).claim j = pc.claim j := by rw [Pc.claim, Pc.claim, hc, hpc]
    rw [claimed_goto]
    show s.claimed j - (s.pc c).claim j + pc.claim j + (s.added.count (interval j) : ℤ) =
      if (j : ℤ) ≤ s.FrameIndex then 1 else 0
    rw [hsame]
    omega
  · intro c' j huses
    by_cases hne : c' = c
    · subst hne
      rw [hself] at huses
      have hj : pc.claims = some j := by
        cases pc <;> first | exact huses | exact absurd huses nofun
      obtain rfl := Option.some.inj (hpc.symm.trans hj)
      exact hbound huses
    · rw [hother hne] at huses
      exact h.bounded c' j huses
  · intro c'
    by_cases hne : c' = c
    · subst hne
      rw [hself]
      exact hreached
    · rw [hother hne]
      exact (h.reached c').congr fun j hj => hframe j (h.ne_of_claims hne hc hj)
  · intro j hj
    have hji : j ≠ i := by
      rintro rfl
      have hzero := (h.claimed hc).1
      change s.added.count (interval j) = 1 at hj
      omega
    show (Frame j).Populated
    rw [hframe j hji]
    exact h.populated j hj

/-- **An index is claimed.** -/
theorem Inv.increment (h : Inv s) (hc : s.pc c = .idle) (hlt : s.FrameIndex < s.MaximumFrameCount) :
    Inv ({ s with FrameIndex := long32 (s.FrameIndex + 1) }.goto c
      (.test (long32 (s.FrameIndex + 1) % 4294967296).toNat)) := by
  have hlow := h.low
  have hsmall := h.small
  have hinc : long32 (s.FrameIndex + 1) = s.FrameIndex + 1 := by
    unfold entryPerFrame at hsmall
    exact long32_of_mem (by omega) (by omega)
  obtain ⟨i, hi⟩ : ∃ i : ℕ, s.FrameIndex + 1 = i := ⟨(s.FrameIndex + 1).toNat, by omega⟩
  have htoNat : ((i : ℤ) % 4294967296).toNat = i := by
    unfold entryPerFrame at hsmall
    omega
  rw [hinc, hi, htoNat]
  refine ⟨hsmall, ?_, ?_, ?_, ?_, ?_, h.populated⟩
  · show (-1 : ℤ) ≤ i
    omega
  · show (i : ℤ) ≤ s.MaximumFrameCount
    omega
  · intro j
    have honce := h.once j
    have hidle : (s.pc c).claim j = 0 := by rw [hc]; rfl
    rw [claimed_goto]
    show s.claimed j - (s.pc c).claim j + Pc.claim j (.test i) + (s.added.count (interval j) : ℤ) =
      if (j : ℤ) ≤ i then 1 else 0
    rw [hidle]
    have htest : Pc.claim j (.test i) = if i = j then 1 else 0 := by
      simp [Pc.claim, Pc.claims]
    rw [htest]
    split_ifs at honce ⊢ <;> omega
  · intro c' j huses
    by_cases hne : c' = c
    · subst hne
      change (Function.update s.pc c' (.test i) c').uses = some j at huses
      rw [Function.update_self] at huses
      exact absurd huses nofun
    · change (Function.update s.pc c (.test i) c').uses = some j at huses
      rw [Function.update_of_ne hne] at huses
      exact h.bounded c' j huses
  · intro c'
    show (Function.update s.pc c (.test i) c').Reached s.Frame
    by_cases hne : c' = c
    · subst hne
      rw [Function.update_self]
      exact trivial
    · rw [Function.update_of_ne hne]
      exact h.reached c'

/-- **A call gives up the index on top, or adds it.** -/
theorem Inv.done (h : Inv s) {i : ℕ} (hc : (s.pc c).claims = some i) {FrameIndex : ℤ}
    {added : List (ℕ × ℕ)} (hlow : -1 ≤ FrameIndex) (hhigh : FrameIndex ≤ s.MaximumFrameCount)
    (honce : ∀ j : ℕ, (if j = i then -1 else 0) + (added.count (interval j) : ℤ) -
      s.added.count (interval j) = (if (j : ℤ) ≤ FrameIndex then 1 else 0) -
        if (j : ℤ) ≤ s.FrameIndex then 1 else 0)
    (hpopulated : ∀ j, added.count (interval j) = 1 → (s.Frame j).Populated) :
    Inv ({ s with FrameIndex := FrameIndex, added := added }.goto c .idle) := by
  have hother : ∀ {c'}, c' ≠ c → Function.update s.pc c .idle c' = s.pc c' :=
    fun hne => Function.update_of_ne hne _ _
  refine ⟨h.small, hlow, hhigh, ?_, ?_, ?_, hpopulated⟩
  · intro j
    have hold := h.once j
    have hnew := honce j
    have hclaim : (s.pc c).claim j = if i = j then 1 else 0 := by
      rw [Pc.claim, hc]
      simp
    rw [claimed_goto]
    show s.claimed j - (s.pc c).claim j + 0 + (added.count (interval j) : ℤ) =
      if (j : ℤ) ≤ FrameIndex then 1 else 0
    rw [hclaim]
    split_ifs at hold hnew ⊢ <;> omega
  · intro c' j huses
    change (Function.update s.pc c .idle c').uses = some j at huses
    by_cases hne : c' = c
    · subst hne
      rw [Function.update_self] at huses
      exact absurd huses nofun
    · rw [hother hne] at huses
      exact h.bounded c' j huses
  · intro c'
    show (Function.update s.pc c .idle c').Reached s.Frame
    by_cases hne : c' = c
    · subst hne
      rw [Function.update_self]
      exact trivial
    · rw [hother hne]
      exact h.reached c'

/-- **A step keeps the invariant.** -/
theorem Inv.step (h : Inv s) {a : ι × Option ℕ} (hG : InOrder s a) (hs : step s a = some t) : Inv t := by
  obtain ⟨c, outcome⟩ := a
  have hbounded := h.bounded c
  have hreached := h.reached c
  unfold Expand.step at hs
  unfold InOrder at hG
  have hframe : ∀ (i : ℕ) (f : SetUp) j, j ≠ i → Function.update s.Frame i f j = s.Frame j :=
    fun i f j hj => Function.update_of_ne hj _ _
  cases hpc : s.pc c with
  | idle =>
    simp only [hpc] at hs hG
    exact Option.some.inj hs ▸ h.increment hpc hG
  | test i =>
    simp only [hpc] at hs
    obtain rfl := Option.some.inj hs
    have hclaims : (s.pc c).claims = some i := by rw [hpc]; rfl
    have hle := (h.claimed hclaims).2
    have hhigh := h.high
    by_cases hmax : i = s.MaximumFrameCount
    · rw [if_pos hmax]
      exact h.work hclaims rfl (fun _ _ => rfl) nofun trivial
    · rw [if_neg hmax]
      exact h.work hclaims rfl (fun _ _ => rfl) (fun _ => by omega) trivial
  | hole i =>
    simp only [hpc] at hs hbounded
    obtain rfl := Option.some.inj hs
    have hclaims : (s.pc c).claims = some i := by rw [hpc]; rfl
    cases outcome with
    | none => exact h.work hclaims rfl (hframe i _) nofun trivial
    | some Pfn =>
      refine h.work hclaims rfl (hframe i _) (fun _ => hbounded i rfl) ?_
      show (Function.update s.Frame i { s.Frame i with Mdl := some Pfn } i).Mdl ≠ none
      rw [Function.update_self]
      exact nofun
  | map i =>
    simp only [hpc] at hs hbounded hreached
    have hclaims : (s.pc c).claims = some i := by rw [hpc]; rfl
    cases outcome with
    | none =>
      obtain rfl := Option.some.inj hs
      exact h.work hclaims rfl (fun _ _ => rfl) (fun _ => hbounded i rfl) trivial
    | some _ =>
      obtain rfl := Option.some.inj hs
      refine h.work hclaims rfl (hframe i _) (fun _ => hbounded i rfl) ?_
      show (Function.update s.Frame i { s.Frame i with mapped := true } i).Populated
      rw [Function.update_self]
      exact ⟨hreached, rfl⟩
  | put i =>
    simp only [hpc] at hs hbounded hreached
    have hclaims : (s.pc c).claims = some i := by rw [hpc]; rfl
    cases outcome with
    | none =>
      obtain rfl := Option.some.inj hs
      exact h.work hclaims rfl (fun _ _ => rfl) (fun _ => hbounded i rfl) trivial
    | some _ =>
      obtain rfl := Option.some.inj hs
      have hcount : ∀ j, (interval i :: s.added).count (interval j) =
          s.added.count (interval j) + if i = j then 1 else 0 := fun j => by
        rw [List.count_cons]
        simp only [beq_iff_eq, interval_injective.eq_iff]
      refine h.done hclaims h.low h.high (fun j => ?_) fun j hj => ?_
      · rw [hcount]
        split_ifs <;> omega
      · rw [hcount] at hj
        split_ifs at hj with hij
        · exact hij ▸ hreached
        · exact h.populated j hj
  | unmap i =>
    simp only [hpc] at hs hbounded
    obtain rfl := Option.some.inj hs
    have hclaims : (s.pc c).claims = some i := by rw [hpc]; rfl
    exact h.work hclaims rfl (hframe i _) (fun _ => hbounded i rfl) trivial
  | free i =>
    simp only [hpc] at hs
    obtain rfl := Option.some.inj hs
    have hclaims : (s.pc c).claims = some i := by rw [hpc]; rfl
    exact h.work hclaims rfl (hframe i _) nofun trivial
  | decrement i =>
    simp only [hpc] at hs hG
    obtain rfl := Option.some.inj hs
    have hclaims : (s.pc c).claims = some i := by rw [hpc]; rfl
    have hhigh := h.high
    have hsmall := h.small
    have hdec : long32 (s.FrameIndex - 1) = s.FrameIndex - 1 := by
      unfold entryPerFrame at hsmall
      exact long32_of_mem (by omega) (by omega)
    rw [hdec]
    refine h.done hclaims (by omega) (by omega) (fun j => ?_) h.populated
    split_ifs <;> omega

/-- A frame that is used is claimed. -/
theorem Pc.claims_of_uses {pc : Pc} {i : ℕ} (h : pc.uses = some i) : pc.claims = some i := by
  cases pc <;> first | exact h | exact absurd h nofun

omit [DecidableEq ι] in
theorem Inv.contiguous (h : Inv s) : Contiguous s where
  bounded := h.bounded
  once i := by
    have hle : (∑ c, if (s.pc c).uses = some i then 1 else 0 : ℤ) ≤ s.claimed i := by
      refine Finset.sum_le_sum fun c _ => ?_
      by_cases huses : (s.pc c).uses = some i
      · rw [if_pos huses, Pc.claim, if_pos (Pc.claims_of_uses huses)]
      · rw [if_neg huses, Pc.claim]
        split_ifs <;> norm_num
    have honce := h.once i
    have hcast : ((∑ c, if (s.pc c).uses = some i then 1 else 0 : ℕ) : ℤ) =
        ∑ c, if (s.pc c).uses = some i then 1 else 0 := by
      rw [Nat.cast_sum]
      exact Finset.sum_congr rfl fun _ _ => by split_ifs <;> rfl
    split_ifs at honce <;> omega
  quiescent hidle i hi := by
    have hzero : s.claimed i = 0 := Finset.sum_eq_zero fun c _ => by rw [hidle c]; rfl
    have honce := h.once i
    rw [hzero, if_pos hi] at honce
    have hone : s.added.count (interval i) = 1 := by omega
    exact ⟨h.populated i hone, hone⟩

omit [DecidableEq ι] in
theorem inv_init {MaximumFrameCount : ℕ} (hmax : MaximumFrameCount * entryPerFrame ≤ 4294967296) :
    Inv (init ι MaximumFrameCount) := by
  refine ⟨hmax, le_rfl, ?_, fun i => ?_, fun c i hi => absurd hi nofun, fun c => trivial,
    fun i hi => absurd hi nofun⟩
  · show (-1 : ℤ) ≤ MaximumFrameCount
    omega
  · have hzero : (init ι MaximumFrameCount).claimed i = 0 := Finset.sum_eq_zero fun c _ => rfl
    have hlow : ¬ (i : ℤ) ≤ (init ι MaximumFrameCount).FrameIndex := by
      show ¬ (i : ℤ) ≤ -1
      omega
    rw [hzero, if_neg hlow]
    rfl

/-- **Expansions that overlap stay within bounds and leave no hole**, if a call that fails gives back its
own index and none is claimed beyond the limit. -/
theorem contiguous_of_reaches {MaximumFrameCount : ℕ}
    (hmax : MaximumFrameCount * entryPerFrame ≤ 4294967296)
    (h : Reaches step InOrder (init ι MaximumFrameCount) s) : Contiguous s := by
  have hinv : Inv s := h.invariant (inv_init hmax) fun s a t hs hG hstep => hs.step hG hstep
  exact hinv.contiguous

/-- Two calls overlap; the second fails and gives back its index before the first is done. -/
def overlapping : List (Fin 2 × Option ℕ) :=
  [(0, none), (1, none), (0, none), (1, none), (0, some 100), (1, none), (1, none), (0, some 100),
    (0, some 100)]

theorem contiguous_of_reaches_overlapping : ∃ s : State (Fin 2),
    guardedRun step InOrder (init (Fin 2) 4) overlapping = some s ∧ s.FrameIndex = 0 ∧
      s.added = [(32, 480)] ∧ Contiguous s := by
  obtain ⟨s, hs, hend⟩ := (Option.any_eq_true (fun s : State (Fin 2) =>
      decide (s.FrameIndex = 0 ∧ s.added = [(32, 480)]))
    (guardedRun step InOrder (init (Fin 2) 4) overlapping)).mp (by decide +kernel)
  obtain ⟨hindex, hadded⟩ := of_decide_eq_true hend
  exact ⟨s, hs, hindex, hadded, contiguous_of_reaches (by decide) (reaches_of_guardedRun hs)⟩

/-! ## A hole -/

/-- The first call claims index 0 and fails, the second claims index 1 and succeeds. -/
def failureBelow : List (Fin 2 × Option ℕ) :=
  [(0, none), (1, none), (0, none), (1, none), (0, none), (0, none), (1, some 100), (1, some 100),
    (1, some 100)]

/-- The first call gives back index 1, which the second has added: frame 0 is a hole. -/
theorem not_contiguous_of_failure : ∃ s : State (Fin 2),
    run step (init (Fin 2) 4) failureBelow = some s ∧ ¬ Contiguous s := by
  obtain ⟨s, hs, hend⟩ := (Option.any_eq_true (fun s : State (Fin 2) =>
      decide ((∀ c, s.pc c = .idle) ∧ s.FrameIndex = 0 ∧ (s.Frame 0).mapped = false))
    (run step (init (Fin 2) 4) failureBelow)).mp (by decide +kernel)
  obtain ⟨hidle, hindex, hmapped⟩ := of_decide_eq_true hend
  refine ⟨s, hs, fun h => ?_⟩
  obtain ⟨⟨-, htrue⟩, -⟩ := h.quiescent hidle 0 (by rw [hindex]; rfl)
  rw [hmapped] at htrue
  exact absurd htrue Bool.false_ne_true

end XenBus.Gnttab.Expand
