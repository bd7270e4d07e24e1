import XenBus.Gnttab.Model

/-!
# Grant references are not shared

The invariant of constructor and destructor (`Partition`): the items of the range set and the references
of the constructed entries are disjoint, no two entries have one reference, and together they are the
references of the frames, from the first that is not reserved. It is preserved by whatever the caches do
(`partition_preserved`), and so is that the frames have their pages (`Populated`).
-/

namespace XenBus.Gnttab

open MachineInt ObjectCache RangeSet Construction

variable {ctx ctx' : Context} {K : Set ℕ} {o : ℕ} {status : Status}

/-! ## One item of the range set -/

/-- Popping one item. -/
theorem pop_one {rs : RangeSet} (h : Sound rs) :
    (∃ a rs', rangeSetPop rs 1 = (.success, some a, rs') ∧ a ∈ rs.items ∧ Sound rs' ∧
      rs'.items = rs.items.erase a) ∨
    rs.items = ∅ ∧ rangeSetPop rs 1 = (.insufficientResources, none, rs) := by
  rcases rangeSetPop_spec h.wellFormed Nat.one_pos with
    ⟨a, rs', hpop, hleast, hwf, hcur, hitems⟩ | ⟨hnone, hpop⟩
  · refine .inl ⟨a, rs', hpop, ?_, ⟨hwf, hcur⟩, ?_⟩
    · simpa using hleast.1.2 0 Nat.one_pos
    · rw [hitems, ← Finset.sdiff_singleton_eq_erase]
      congr 1
      simp
  · refine .inr ⟨?_, hpop⟩
    by_contra hne
    obtain ⟨a, ha⟩ := Finset.nonempty_iff_ne_empty.mpr hne
    apply hnone
    refine (h.wellFormed.separated.exists_hasRun_iff Nat.one_pos).mpr ⟨a, fun k hk => ?_⟩
    obtain rfl : k = 0 := by omega
    rw [Nat.cast_zero, add_zero]
    exact ha

/-- Putting items, when the allocation succeeds. -/
theorem put_items {rs : RangeSet} (h : Sound rs) {Start Count : ℕ} (hC : 0 < Count)
    (hlt : Start + Count ≤ 4294967296) (hclear : ∀ x ∈ rs.items, x < Start ∨ Start + Count ≤ x)
    {allocate : Bool} (halloc : (rs.Spare || allocate) = true) :
    ∃ rs', rangeSetPut rs Start Count allocate = some (.success, rs') ∧ Sound rs' ∧
      ∀ x, x ∈ rs'.items ↔ x ∈ rs.items ∨ Start ≤ x ∧ x < Start + Count := by
  have hlo : -9223372036854775808 < (Start : ℤ) := by omega
  have hhi : (Start : ℤ) + Count - 1 < 9223372036854775807 := by omega
  have hclear' : Clear rs.items Start (Start + Count - 1) := fun x hx => by
    have := hclear x hx
    omega
  obtain ⟨rs', hput, hwf, hcur, hitems⟩ :=
    rangeSetPut_spec h.wellFormed h.cursor hC hlo hhi hclear' halloc
  refine ⟨rs', hput, ⟨hwf, hcur⟩, fun x => ?_⟩
  rw [hitems, Finset.mem_union, Finset.mem_Icc, Int.le_sub_one_iff]

/-- Putting items into the empty set, whatever the allocation does. -/
theorem put_empty {rs : RangeSet} (h : Sound rs) (hempty : rs.items = ∅) (Start Count : ℕ) (hC : 0 < Count)
    (hlt : Start + Count ≤ 4294967296) (allocate : Bool) :
    ∃ status rs', rangeSetPut rs Start Count allocate = some (status, rs') ∧ Sound rs' ∧
      if status.ntSuccess then ∀ x : ℤ, x ∈ rs'.items ↔ Start ≤ x ∧ x < Start + Count
      else rs'.items = rs.items := by
  have hclear : ∀ x ∈ rs.items, x < (Start : ℤ) ∨ Start + Count ≤ x := by
    rw [hempty]
    exact nofun
  cases halloc : rs.Spare || allocate with
  | true =>
    obtain ⟨rs', hput, hsound, hitems⟩ := put_items h hC hlt hclear halloc
    refine ⟨_, rs', hput, hsound, fun x => ?_⟩
    rw [hitems, hempty]
    simp
  | false =>
    have hclear' : Clear rs.items Start (Start + Count - 1) := by
      rw [hempty]
      exact nofun
    obtain ⟨l, hput, hlist, -⟩ := rangeSetPut_noMemory h.wellFormed h.cursor hC (by omega) (by omega)
      hclear' halloc
    refine ⟨_, _, hput, ⟨h.wellFormed.moveCursor hlist, fun hne => ?_⟩, ?_⟩
    · exact absurd (hlist.trans ((items_eq_empty h.wellFormed).mp hempty)) hne
    · show IntInterval.items l.toList = IntInterval.items rs.Ranges.toList
      rw [hlist]

/-! ## The invariant -/

/-- **References are not shared**, and are those of the frames. -/
structure Partition (K : Set ℕ) (ctx : Context) : Prop where
  noFault : ctx.fault = false
  sound : Sound ctx.RangeSet
  /-- A `grant_ref_t` has 32 bits. -/
  small : ctx.MaximumFrameCount * entryPerFrame ≤ 4294967296
  low : -1 ≤ ctx.FrameIndex
  high : ctx.FrameIndex < ctx.MaximumFrameCount
  injective : ∀ o ∈ K, ∀ o' ∈ K, (ctx.Object o).Reference = (ctx.Object o').Reference → o = o'
  disjoint : ∀ o ∈ K, ((ctx.Object o).Reference : ℤ) ∉ ctx.RangeSet.items
  union : ∀ r : ℤ, (r ∈ ctx.RangeSet.items ∨ ∃ o ∈ K, ((ctx.Object o).Reference : ℤ) = r) ↔
    reservedEntryCount ≤ r ∧ r < (ctx.FrameIndex + 1) * entryPerFrame

/-- The context after an expansion that did not succeed. -/
theorem Partition.failed (h : Partition K ctx) {Outcome : ℕ → ExpandOutcome} {Frame : ℕ → Frame}
    {rs : RangeSet} (hsound : Sound rs) (hitems : rs.items = ctx.RangeSet.items) :
    Partition K { ctx with Outcome := Outcome, Frame := Frame, RangeSet := rs } where
  noFault := h.noFault
  sound := hsound
  small := h.small
  low := h.low
  high := h.high
  injective := h.injective
  disjoint := hitems ▸ h.disjoint
  union := hitems ▸ h.union

theorem frameStart_lt (Index : ℕ) : frameStart Index < frameEnd Index := by
  unfold frameStart frameEnd reservedEntryCount entryPerFrame
  omega

/-- The references of a frame. -/
theorem mem_frame {Index : ℕ} {r : ℤ} : (frameStart Index ≤ r ∧ r < frameEnd Index) ↔
    reservedEntryCount ≤ r ∧ (Index : ℤ) * entryPerFrame ≤ r ∧ r < ((Index : ℤ) + 1) * entryPerFrame := by
  unfold frameStart frameEnd reservedEntryCount entryPerFrame
  push_cast
  omega

/-- The references of one more frame. -/
theorem Partition.expanded (h : Partition K ctx) (hempty : ctx.RangeSet.items = ∅) {Index : ℕ}
    (hIndex : ctx.FrameIndex + 1 = Index) (hlt : Index < ctx.MaximumFrameCount) {rs : RangeSet}
    (hsound : Sound rs) (hitems : ∀ x : ℤ, x ∈ rs.items ↔ frameStart Index ≤ x ∧ x < frameEnd Index)
    (Outcome : ℕ → ExpandOutcome) (Frame : ℕ → Frame) :
    Partition K { ctx with
      Outcome := Outcome, FrameIndex := Index, Frame := Frame, RangeSet := rs } := by
  have hunion : ∀ r : ℤ, (∃ o ∈ K, ((ctx.Object o).Reference : ℤ) = r) ↔
      reservedEntryCount ≤ r ∧ r < (Index : ℤ) * entryPerFrame := fun r => by
    rw [← hIndex, ← h.union r, hempty]
    simp
  have hmem : ∀ x : ℤ, x ∈ rs.items ↔ reservedEntryCount ≤ x ∧ (Index : ℤ) * entryPerFrame ≤ x ∧
      x < ((Index : ℤ) + 1) * entryPerFrame := fun x => (hitems x).trans mem_frame
  refine ⟨h.noFault, hsound, h.small, ?_, ?_, h.injective, ?_, ?_⟩
  · show (-1 : ℤ) ≤ Index
    omega
  · show (Index : ℤ) < ctx.MaximumFrameCount
    omega
  · intro o ho hin
    have hold := (hunion _).mp ⟨o, ho, rfl⟩
    exact absurd hold.2 (not_lt.mpr ((hmem _).mp hin).2.1)
  · intro r
    show (r ∈ rs.items ∨ ∃ o ∈ K, ((ctx.Object o).Reference : ℤ) = r) ↔
      reservedEntryCount ≤ r ∧ r < ((Index : ℤ) + 1) * entryPerFrame
    rw [hmem, hunion, reservedEntryCount, entryPerFrame]
    push_cast
    omega

/-- What `GnttabExpand` does when no item is left: it fails, and the frames are as they were, or the
references of the next frame become items. -/
inductive Expanded (ctx : Context) : Status → Context → Prop
  | failed {status : Status} {Frame : ℕ → Frame} {rs : RangeSet} (hstatus : status.ntSuccess = false)
    (hFrame : ∀ Index : ℕ, (Index : ℤ) ≤ ctx.FrameIndex → Frame Index = ctx.Frame Index)
    (hsound : Sound rs) (hitems : rs.items = ctx.RangeSet.items) :
    Expanded ctx status { ctx with
      Outcome := fun k => ctx.Outcome (k + 1)
      FrameIndex := ctx.FrameIndex
      Frame := Frame
      RangeSet := rs }
  | succeeded {status : Status} {Index Pfn : ℕ} {rs : RangeSet} (hstatus : status.ntSuccess = true)
    (hIndex : ctx.FrameIndex + 1 = Index) (hlt : Index < ctx.MaximumFrameCount) (hsound : Sound rs)
    (hitems : ∀ x : ℤ, x ∈ rs.items ↔ frameStart Index ≤ x ∧ x < frameEnd Index) :
    Expanded ctx status { ctx with
      Outcome := fun k => ctx.Outcome (k + 1)
      FrameIndex := Index
      Frame := Function.update ctx.Frame Index { ctx.Frame Index with Mdl := some Pfn }
      RangeSet := rs }

theorem gnttabExpand_cases (h : Partition K ctx) (hempty : ctx.RangeSet.items = ∅) :
    ∃ status ctx', gnttabExpand ctx = (status, ctx') ∧ Expanded ctx status ctx' := by
  have hlow := h.low
  have hhigh := h.high
  have hsmall := h.small
  obtain ⟨Index, hIndex⟩ : ∃ Index : ℕ, ctx.FrameIndex + 1 = Index :=
    ⟨(ctx.FrameIndex + 1).toNat, by omega⟩
  have hle : Index ≤ ctx.MaximumFrameCount := by omega
  have hlt : Index < 2147483648 := by
    unfold entryPerFrame at hsmall
    omega
  have hinc : long32 (ctx.FrameIndex + 1) = Index := by
    rw [hIndex]
    exact long32_of_mem (by omega) (by omega)
  have hdec : long32 ((Index : ℤ) - 1) = ctx.FrameIndex := by
    rw [long32_of_mem (by omega) (by omega)]
    omega
  have htoNat : ((Index : ℤ) % 4294967296).toNat = Index := by omega
  -- a failure gives the index back, and changes the frame at it only
  have hFrame : ∀ frame, ∀ k : ℕ, (k : ℤ) ≤ ctx.FrameIndex →
      Function.update ctx.Frame Index frame k = ctx.Frame k := fun frame k hk =>
    Function.update_of_ne (by omega) _ _
  unfold gnttabExpand
  simp only [hinc, hdec, htoNat]
  by_cases hmax : Index = ctx.MaximumFrameCount
  · rw [if_pos hmax]
    exact ⟨_, _, rfl, .failed rfl (fun _ _ => rfl) h.sound rfl⟩
  · rw [if_neg hmax]
    cases (ctx.Outcome 0).Mdl with
    | none => exact ⟨_, _, rfl, .failed rfl (hFrame _) h.sound rfl⟩
    | some Pfn =>
      cases hadd : (ctx.Outcome 0).AddToPhysmap.ntSuccess with
      | false => exact ⟨_, _, rfl, .failed hadd (hFrame _) h.sound rfl⟩
      | true =>
        have hlt' : Index < ctx.MaximumFrameCount := by omega
        have hstart := frameStart_lt Index
        have hend : frameEnd Index ≤ 4294967296 := (Nat.mul_le_mul_right _ hlt').trans hsmall
        obtain ⟨status, rs, hput, hsound, hitems⟩ := put_empty h.sound hempty (frameStart Index)
          (frameEnd Index - frameStart Index) (by omega) (by omega) (ctx.Outcome 0).Put
        simp only [if_true, hput]
        cases hstatus : status.ntSuccess with
        | false =>
          rw [hstatus] at hitems
          exact ⟨_, _, rfl, .failed hstatus (hFrame _) hsound hitems⟩
        | true =>
          rw [hstatus, if_pos rfl] at hitems
          have hitems' : ∀ x : ℤ, x ∈ rs.items ↔ frameStart Index ≤ x ∧ x < frameEnd Index :=
            fun x => by
              rw [hitems]
              omega
          exact ⟨_, _, rfl, .succeeded hstatus hIndex hlt' hsound hitems'⟩

/-- **`GnttabExpand`** when no item is left keeps the invariant, and there are items if it succeeds. -/
theorem Expanded.partition (hexpand : Expanded ctx status ctx') (h : Partition K ctx)
    (hempty : ctx.RangeSet.items = ∅) :
    Partition K ctx' ∧ (status.ntSuccess = true → ctx'.RangeSet.items.Nonempty) := by
  cases hexpand with
  | failed hstatus hFrame hsound hitems =>
    refine ⟨h.failed hsound hitems, fun hs => ?_⟩
    rw [hstatus] at hs
    exact absurd hs Bool.false_ne_true
  | @succeeded Index _ _ hstatus hIndex hlt hsound hitems =>
    have hstart := frameStart_lt Index
    exact ⟨h.expanded hempty hIndex hlt hsound hitems _ _,
      fun _ => ⟨frameStart Index, (hitems _).mpr (by omega)⟩⟩

/-! ## Frames -/

/-- The frames up to `FrameIndex` have a page. -/
def Populated (ctx : Context) : Prop :=
  ∀ Index : ℕ, (Index : ℤ) ≤ ctx.FrameIndex → (ctx.Frame Index).Mdl ≠ none

theorem Populated.congr (h : Populated ctx) (hindex : ctx'.FrameIndex = ctx.FrameIndex)
    (hmdl : ∀ Index, (ctx'.Frame Index).Mdl = (ctx.Frame Index).Mdl) : Populated ctx' := by
  intro Index hle
  rw [hmdl]
  exact h Index (hindex ▸ hle)

theorem Expanded.populated (hexpand : Expanded ctx status ctx') (h : Populated ctx) : Populated ctx' := by
  cases hexpand with
  | @failed Frame _ hstatus hFrame =>
    intro Index hle
    show (Frame Index).Mdl ≠ none
    rw [hFrame Index hle]
    exact h Index hle
  | @succeeded New Pfn _ hstatus hIndex =>
    intro Index hle
    change (Index : ℤ) ≤ New at hle
    show (Function.update ctx.Frame New { ctx.Frame New with Mdl := some Pfn } Index).Mdl ≠ none
    by_cases heq : Index = New
    · rw [heq, Function.update_self]
      nofun
    · rw [Function.update_of_ne heq]
      exact h Index (by omega)

/-! ## Constructor and destructor -/

/-- An item becomes the reference of an object that was not constructed. -/
theorem Partition.taken (h : Partition K ctx) (ho : o ∉ K) {a : ℤ} {rs : RangeSet}
    (ha : a ∈ ctx.RangeSet.items) (hsound : Sound rs) (hitems : rs.items = ctx.RangeSet.items.erase a)
    {Object : ℕ → Entry} (hnew : ((Object o).Reference : ℤ) = a)
    (hold : ∀ x, x ≠ o → Object x = ctx.Object x) :
    Partition (insert o K) { ctx with RangeSet := rs, Object := Object } := by
  have hne : ∀ x ∈ K, x ≠ o := fun x hx heq => ho (heq ▸ hx)
  -- the item is no reference yet
  have hfree : ∀ x ∈ K, ((Object x).Reference : ℤ) ≠ a := fun x hx heq => by
    rw [hold x (hne x hx)] at heq
    exact h.disjoint x hx (heq ▸ ha)
  refine ⟨h.noFault, hsound, h.small, h.low, h.high, ?_, ?_, ?_⟩
  · intro x hx y hy heq
    change (Object x).Reference = (Object y).Reference at heq
    have heq' : ((Object x).Reference : ℤ) = (Object y).Reference := congrArg _ heq
    obtain rfl | hx := hx
    · obtain rfl | hy := hy
      · rfl
      · exact absurd (heq'.symm.trans hnew) (hfree y hy)
    · obtain rfl | hy := hy
      · exact absurd (heq'.trans hnew) (hfree x hx)
      · rw [hold x (hne x hx), hold y (hne y hy)] at heq
        exact h.injective x hx y hy heq
  · intro x hx
    show ((Object x).Reference : ℤ) ∉ rs.items
    rw [hitems]
    obtain rfl | hx := hx
    · rw [hnew]
      exact Finset.notMem_erase a _
    · rw [hold x (hne x hx)]
      exact fun hin => h.disjoint x hx (Finset.mem_of_mem_erase hin)
  · intro r
    show (r ∈ rs.items ∨ ∃ x ∈ insert o K, ((Object x).Reference : ℤ) = r) ↔ _
    rw [← h.union r, hitems, Finset.mem_erase]
    constructor
    · rintro (⟨-, hr⟩ | ⟨x, hx | hx, hr⟩)
      · exact .inl hr
      · rw [hx, hnew] at hr
        exact .inl (hr ▸ ha)
      · rw [hold x (hne x hx)] at hr
        exact .inr ⟨x, hx, hr⟩
    · rintro (hr | ⟨x, hx, hr⟩)
      · by_cases hra : r = a
        · exact .inr ⟨o, .inl rfl, hnew.trans hra.symm⟩
        · exact .inl ⟨hra, hr⟩
      · exact .inr ⟨x, .inr hx, by rw [hold x (hne x hx), hr]⟩

/-- The constructor takes an item that is there. -/
theorem entryCtorLoop_take (h : Partition K ctx) (ho : o ∉ K) (hne : ctx.RangeSet.items.Nonempty)
    (fuel : ℕ) : ∃ ctx', entryCtorLoop o (fuel + 1) ctx = (.success, ctx') ∧
      Partition (insert o K) ctx' ∧ (Populated ctx → Populated ctx') := by
  obtain ⟨a, rs, hpop, ha, hsound, hitems⟩ | ⟨hempty, -⟩ := pop_one h.sound
  · have hrange := (h.union a).mp (.inl ha)
    have hhigh := h.high
    have hsmall := h.small
    have haNat : (((a % 4294967296).toNat : ℕ) : ℤ) = a := by
      unfold reservedEntryCount entryPerFrame at *
      omega
    unfold entryCtorLoop
    rw [hpop]
    refine ⟨_, rfl, h.taken ho ha hsound hitems ?_ fun x hx => Function.update_of_ne hx _ _,
      fun hp => hp⟩
    rw [Function.update_self]
    exact haNat
  · rw [hempty] at hne
    exact absurd hne Finset.not_nonempty_empty

/-- **The constructor of an entry** takes an item, after an expansion if there is none. -/
theorem gnttabEntryCtor_spec (h : Partition K ctx) (ho : o ∉ K) :
    ∃ status ctx', gnttabEntryCtor o ctx = (status, ctx') ∧
      (if status.ntSuccess then Partition (insert o K) ctx' else Partition K ctx') ∧
      (Populated ctx → Populated ctx') := by
  unfold gnttabEntryCtor
  by_cases hne : ctx.RangeSet.items.Nonempty
  · obtain ⟨ctx', hloop, h'⟩ := entryCtorLoop_take h ho hne 1
    exact ⟨_, ctx', hloop, h'⟩
  · have hempty := Finset.not_nonempty_iff_eq_empty.mp hne
    obtain ⟨a, rs, -, ha, -⟩ | ⟨-, hpop⟩ := pop_one h.sound
    · exact absurd ⟨a, ha⟩ hne
    · obtain ⟨status, ctx', hexpand, hexpanded⟩ := gnttabExpand_cases h hempty
      obtain ⟨h', hitems⟩ := hexpanded.partition h hempty
      rw [entryCtorLoop, hpop]
      simp only [hexpand]
      cases hstatus : status.ntSuccess with
      | true =>
        obtain ⟨ctx'', hloop, h'', hpopulated⟩ := entryCtorLoop_take h' ho (hitems hstatus) 0
        exact ⟨_, ctx'', hloop, h'', fun hp => hpopulated (hexpanded.populated hp)⟩
      | false =>
        refine ⟨status, ctx', rfl, ?_, hexpanded.populated⟩
        rw [hstatus]
        exact h'

/-- **The destructor of an entry** makes its reference an item. -/
theorem gnttabEntryDtor_spec (h : Partition K ctx) (ho : o ∈ K) :
    Partition (K \ {o}) (gnttabEntryDtor o ctx) ∧
      (Populated ctx → Populated (gnttabEntryDtor o ctx)) := by
  have hrange := (h.union _).mp (.inr ⟨o, ho, rfl⟩)
  have hhigh := h.high
  have hsmall := h.small
  have hlt : (ctx.Object o).Reference + 1 ≤ 4294967296 := by
    unfold reservedEntryCount entryPerFrame at *
    omega
  obtain ⟨rs, hput, hsound, hitems⟩ := put_items h.sound Nat.one_pos hlt
    (fun x hx => by
      have hne : x ≠ (ctx.Object o).Reference := fun heq => h.disjoint o ho (heq ▸ hx)
      omega) (Bool.or_true _)
  have hmem : ∀ x : ℤ, x ∈ rs.items ↔ x ∈ ctx.RangeSet.items ∨ x = (ctx.Object o).Reference :=
    fun x => (hitems x).trans (or_congr_right (by omega))
  unfold gnttabEntryDtor
  rw [hput]
  refine ⟨⟨h.noFault, hsound, h.small, h.low, h.high, ?_, ?_, ?_⟩, fun hp => hp⟩
  · exact fun x hx y hy => h.injective x hx.1 y hy.1
  · rintro x ⟨hx, hne⟩ hin
    obtain hin | hin := (hmem _).mp hin
    · exact h.disjoint x hx hin
    · exact hne (h.injective x hx o ho (Int.ofNat_inj.mp hin))
  · intro r
    rw [← h.union r, hmem]
    constructor
    · rintro ((hr | hr) | ⟨x, hx, hr⟩)
      · exact .inl hr
      · exact .inr ⟨o, ho, hr.symm⟩
      · exact .inr ⟨x, hx.1, hr⟩
    · rintro (hr | ⟨x, hx, rfl⟩)
      · exact .inl (.inl hr)
      · by_cases hxo : x = o
        · exact .inl (.inr (hxo ▸ rfl))
        · exact .inr ⟨x, ⟨hx, hxo⟩, rfl⟩

/-- **What the caches do preserves the invariant**, and the frames keep their pages if they had them. -/
theorem partition_preserved (p : Prop) :
    Preserved client.life fun K ctx => Partition K ctx ∧ (p → Populated ctx) where
  make h ho hmake := by
    obtain ⟨status, hctor, hok⟩ := hmake
    obtain ⟨status', ctx', hctor', h', hpopulated⟩ := gnttabEntryCtor_spec h.1 ho
    obtain ⟨rfl, rfl⟩ := Prod.mk.inj (hctor.symm.trans hctor')
    rw [hok, if_pos rfl] at h'
    exact ⟨h', fun hp => hpopulated (h.2 hp)⟩
  refuse h ho hrefuse := by
    obtain ⟨status, hctor, hok⟩ := hrefuse
    obtain ⟨status', ctx', hctor', h', hpopulated⟩ := gnttabEntryCtor_spec h.1 ho
    obtain ⟨rfl, rfl⟩ := Prod.mk.inj (hctor.symm.trans hctor')
    rw [hok, if_neg Bool.false_ne_true] at h'
    exact ⟨h', fun hp => hpopulated (h.2 hp)⟩
  destroy h ho := by
    obtain ⟨h', hpopulated⟩ := gnttabEntryDtor_spec h.1 ho
    exact ⟨h', fun hp => hpopulated (h.2 hp)⟩

end XenBus.Gnttab
