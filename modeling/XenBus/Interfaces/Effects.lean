import XenBus.Interfaces.Model

/-!
# What acquiring the lower interfaces comes to

Debug, suspend, range set, cache, shared info and the grant tables: for each, the condition under which
`Acquire` succeeds and the ledger it leaves, both in terms of the ledger before, and that `Release` takes
exactly that back. `Kept` is what the ledger keeps between calls.
-/

namespace XenBus.Interfaces

open Unwind

variable {env : Env} {l : Ledger} {i j k : Interface} {js : List Interface} {q : Queue} {r : Resource} {n : ℤ}

/-! ## The ledger -/

theorem refer_References (l : Ledger) (i : Interface) (n : ℤ) (k : Interface) :
    (l.refer i n).References k = if k = i then l.References i + n else l.References k :=
  Function.update_apply _ _ _ _

@[simp]
theorem refer_References_self : (l.refer i n).References i = l.References i + n :=
  Function.update_self i _ _

theorem refer_References_of_ne (h : k ≠ i) : (l.refer i n).References k = l.References k :=
  Function.update_of_ne h _ _

@[simp]
theorem take_References : (l.take r).References = l.References := rfl

@[simp]
theorem insertTail_References : (l.insertTail q i).References = l.References := rfl

@[simp]
theorem create_References : (l.create i).References = l.References := rfl

@[simp]
theorem outstanding_refer : (l.refer k n).outstanding i = l.outstanding i := by cases i <;> rfl

@[simp]
theorem outstanding_take : (l.take r).outstanding i = l.outstanding i := by cases i <;> rfl

/-- The interface that a callback list belongs to. -/
def Queue.owner : Queue → Interface
  | .early | .late => .suspend
  | .debug => .debug

theorem outstanding_insertTail (h : i ≠ q.owner) : (l.insertTail q k).outstanding i = l.outstanding i := by
  cases i <;> cases q <;> first | rfl | exact absurd rfl h

theorem outstanding_create (h : i ≠ k) : (l.create k).outstanding i = l.outstanding i := by
  cases i <;> first | rfl | simp [Ledger.outstanding, Ledger.create, Function.update_of_ne h]

/-- What the ledger keeps: counts are not negative, an interface without references has nothing
outstanding, and those in `js` have references. -/
structure Kept (js : List Interface) (l : Ledger) : Prop where
  nonneg : ∀ i, 0 ≤ l.References i
  idle : ∀ i, l.References i = 0 → l.outstanding i = false
  up : ∀ j ∈ js, l.References j ≠ 0

theorem Kept.mono {ks : List Interface} (h : Kept js l) (hsub : ks ⊆ js) : Kept ks l :=
  ⟨h.nonneg, h.idle, fun j hj => h.up j (hsub hj)⟩

/-- One more reference. -/
theorem Kept.refer (h : Kept js l) (i : Interface) : Kept (i :: js) (l.refer i 1) where
  nonneg := by
    intro k
    have hi := h.nonneg i
    have hk := h.nonneg k
    rw [refer_References]
    split <;> omega
  idle := by
    intro k hk
    rw [refer_References] at hk
    have hi := h.nonneg i
    split at hk
    · omega
    · rw [outstanding_refer, h.idle k hk]
  up := by
    intro j hj
    have hi := h.nonneg i
    rw [refer_References]
    split
    · omega
    · rename_i hne
      exact h.up j (List.mem_of_ne_of_mem hne hj)

theorem Kept.take (h : Kept js l) (r : Resource) : Kept js (l.take r) :=
  ⟨h.nonneg, fun k hk => by rw [outstanding_take, h.idle k hk], h.up⟩

theorem Kept.insertTail (h : Kept js l) (hq : q.owner ∈ js) (i : Interface) : Kept js (l.insertTail q i) where
  nonneg := h.nonneg
  idle := by
    intro k hk
    rw [outstanding_insertTail, h.idle k hk]
    rintro rfl
    exact h.up _ hq hk
  up := h.up

theorem Kept.create (h : Kept js l) (hi : i ∈ js) : Kept js (l.create i) where
  nonneg := h.nonneg
  idle := by
    intro k hk
    rw [outstanding_create, h.idle k hk]
    rintro rfl
    exact h.up _ hi hk
  up := h.up

/-! ## The single steps -/

theorem check_exact {σ : Type} (P : σ → Prop) (fails : Bool) :
    Exact P P (fun _ => fails = false) id (check fails) (sequence []) where
  passes := by
    rintro w - rfl
    rfl
  after := fun _ hw _ => hw
  undone := fun _ _ _ => rfl
  fails := by
    intro w _ hfails
    rw [Bool.not_eq_false] at hfails
    rw [hfails]
    rfl

theorem claim_exact (js : List Interface) (fails : Bool) (r : Resource) :
    Exact (Kept js) (Kept js) (fun _ => fails = false) (Ledger.take r) (claim fails r)
      (sequence [giveBack r]) where
  passes := by
    rintro l - rfl
    rfl
  after := fun l hl _ => hl.take r
  undone := by
    intro l _ _
    simp [giveBack, Ledger.take]
  fails := by
    intro l _ hfails
    rw [Bool.not_eq_false] at hfails
    rw [hfails]
    rfl

theorem removeLatest_append (i : Interface) (xs : List Interface) :
    removeLatest i (xs ++ [i]) = some xs := by
  simp [removeLatest]

theorem deregister_insertTail (q : Queue) (i : Interface) (l : Ledger) :
    deregister q i (l.insertTail q i) = some l := by
  simp [deregister, Ledger.insertTail, removeLatest_append]

theorem register_exact (env : Env) (q : Queue) (hq : q.owner ∈ js) (i : Interface) :
    Exact (Kept js) (Kept js) (fun _ => env.fails (.register q i) = false) (Ledger.insertTail q i)
      (register env q i) (sequence [deregister q i]) where
  passes := by
    intro l _ hok
    simp [register, hok]
  after := fun l hl _ => hl.insertTail hq i
  undone := by
    intro l _ _
    simp [deregister_insertTail]
  fails := by
    intro l _ hfails
    rw [Bool.not_eq_false] at hfails
    simp [register, hfails]

/-! ## What the releases do not read -/

theorem bugOnOutstanding_commutes (k : Interface) :
    Commutes (Ledger.refer i n) (bugOnOutstanding k) := by
  intro l
  by_cases h : l.outstanding k <;> simp [bugOnOutstanding, h]

theorem giveBack_commutes (r : Resource) : Commutes (Ledger.refer i n) (giveBack r) := by
  intro l
  by_cases h : l.held r = 0 <;> simp [giveBack, Ledger.refer, h]

theorem deregister_commutes (q : Queue) (k : Interface) :
    Commutes (Ledger.refer i n) (deregister q k) := by
  intro l
  simp only [deregister, Ledger.refer, Option.map_map]
  rfl

theorem destroy_commutes (k : Interface) : Commutes (Ledger.refer i n) (destroy k) := by
  intro l
  by_cases h : l.objects k = 0 <;> simp [destroy, Ledger.refer, h]

theorem refer_comm (h : i ≠ j) (m n : ℤ) (l : Ledger) :
    (l.refer i n).refer j m = (l.refer j m).refer i n := by
  simp only [Ledger.refer, Function.update_of_ne h, Function.update_of_ne h.symm,
    Function.update_comm h]

/-- The release of an interface does not read the count of another, when its parts do not. -/
theorem release_commutes (h : i ≠ j) {body : List (Undo Ledger)}
    (hbody : ∀ undo ∈ body, Commutes (Ledger.refer i n) undo) :
    Commutes (Ledger.refer i n) ((references j).release body) :=
  (references j).release_commutes (fun _ => refer_References_of_ne h.symm)
    (fun l => refer_comm h (-1) n l) hbody

theorem debugRelease_commutes (h : i ≠ .debug) : Commutes (Ledger.refer i n) debugRelease :=
  release_commutes h <| by
    simp only [List.mem_cons, List.not_mem_nil, or_false, forall_eq_or_imp, forall_eq]
    exact ⟨bugOnOutstanding_commutes _, giveBack_commutes _⟩

theorem reportingRelease_commutes (h : i ≠ .debug) (hj : i ≠ j) :
    Commutes (Ledger.refer i n) (reportingRelease j) :=
  release_commutes hj <| by
    simp only [List.mem_cons, List.not_mem_nil, or_false, forall_eq_or_imp, forall_eq]
    exact ⟨bugOnOutstanding_commutes _, deregister_commutes _ _, debugRelease_commutes h⟩

theorem sharedInfoRelease_commutes (h : i ≠ .debug) (hs : i ≠ .suspend) (hj : i ≠ .sharedInfo) :
    Commutes (Ledger.refer i n) sharedInfoRelease :=
  release_commutes hj <| by
    simp only [List.mem_cons, List.not_mem_nil, or_false, forall_eq_or_imp, forall_eq]
    exact ⟨giveBack_commutes _, deregister_commutes _ _, debugRelease_commutes h, deregister_commutes _ _,
      reportingRelease_commutes h hs, giveBack_commutes _, giveBack_commutes _⟩

/-! ## Debug -/

/-- `DebugAcquire` succeeds. -/
def debugOk (env : Env) (l : Ledger) : Prop :=
  l.References .debug = 0 → env.fails .bugCheckCallback = false

/-- What `DebugAcquire` comes to. -/
def upDebug : Ledger → Ledger := (references .debug).up (Ledger.take .bugCheckRecord)

theorem up_References {up : Ledger → Ledger} (hup : ∀ l, (up l).References k = l.References k) (h : k ≠ i) :
    ((references i).up up l).References k = l.References k := by
  by_cases h0 : l.References i = 0
  · simp [Counter.up, references, h0, hup, refer_References_of_ne h]
  · simp [Counter.up, references, h0, refer_References_of_ne h]

theorem up_outstanding {up : Ledger → Ledger} (hup : ∀ l, (up l).outstanding k = l.outstanding k) :
    ((references i).up up l).outstanding k = l.outstanding k := by
  by_cases h0 : l.References i = 0
  · simp [Counter.up, references, h0, hup]
  · simp [Counter.up, references, h0]

theorem upDebug_References (h : i ≠ .debug) : (upDebug l).References i = l.References i :=
  up_References (fun _ => rfl) h

theorem upDebug_outstanding : (upDebug l).outstanding i = l.outstanding i :=
  up_outstanding fun _ => outstanding_take

theorem debugOk_refer (h : i ≠ .debug) : debugOk env (l.refer i n) ↔ debugOk env l := by
  rw [debugOk, debugOk, refer_References_of_ne h.symm]

/-- A counted routine on the ledger. -/
theorem counted_exact {ok : Ledger → Prop} {up : Ledger → Ledger} {stages : List (Stage Ledger)}
    {body : List (Undo Ledger)}
    (h : Exact (fun l => Kept (i :: js) l ∧ l.outstanding i = false) (Kept (i :: js)) ok up (attempt stages)
      (sequence body))
    (hcount : ∀ l, (up l).References i = l.References i)
    (hbody : ∀ undo ∈ body, Commutes (Ledger.refer i (-1)) undo) :
    Exact (Kept js) (Kept (i :: js)) (fun l => l.References i = 0 → ok (l.refer i 1))
      ((references i).up up) ((references i).acquire stages) ((references i).release body) :=
  (references i).exact h (fun l hl => hl.nonneg i)
    (fun l hl h0 => ⟨hl.refer i, by rw [references, outstanding_refer, hl.idle i h0]⟩)
    (fun l hl _ => hl.refer i) hcount (sequence_commutes hbody)

theorem debugAcquire_exact (env : Env) (js : List Interface) :
    Exact (Kept js) (Kept (.debug :: js)) (debugOk env) upDebug (debugAcquire env) debugRelease := by
  have hclaim := claim_exact (.debug :: js) (env.fails .bugCheckCallback) .bugCheckRecord
  refine counted_exact ((hclaim.last []).checked _ (fun l hl => hl.1) ?_) (fun _ => rfl) ?_
  · intro l hl _
    simp [bugOnOutstanding, hl.2]
  · simp only [List.mem_cons, List.not_mem_nil, or_false, forall_eq_or_imp, forall_eq]
    exact ⟨bugOnOutstanding_commutes _, giveBack_commutes _⟩

/-! ## Interfaces that report -/

/-- `SuspendAcquire`, `RangeSetAcquire` or `CacheAcquire` succeeds. -/
def reportingOk (env : Env) (i : Interface) (l : Ledger) : Prop :=
  l.References i = 0 → debugOk env l ∧ env.fails (.register .debug i) = false

/-- What it comes to. -/
def upReporting (i : Interface) : Ledger → Ledger :=
  (references i).up fun l => (upDebug l).insertTail .debug i

theorem upReporting_References (hk : k ≠ .debug) (h : k ≠ i) :
    (upReporting i l).References k = l.References k :=
  up_References (fun _ => upDebug_References hk) h

theorem upReporting_outstanding (hk : k ≠ .debug) : (upReporting i l).outstanding k = l.outstanding k :=
  up_outstanding fun _ => (outstanding_insertTail hk).trans upDebug_outstanding

theorem reportingAcquire_exact (env : Env) (hi : i ≠ .debug) (js : List Interface) :
    Exact (Kept js) (Kept (i :: js)) (reportingOk env i) (upReporting i) (reportingAcquire env i)
      (reportingRelease i) := by
  have hregister : Exact (Kept (.debug :: i :: js)) _ _ _ _ _ :=
    (register_exact env .debug (by simp [Queue.owner]) i).last []
  have hstages := (debugAcquire_exact env (i :: js)).single.cons hregister
  have hmono : Exact (Kept (i :: js)) (Kept (i :: js)) _ _ _ _ :=
    hstages.mono (fun _ h => h) fun l hl => hl.mono (List.subset_cons_self _ _)
  refine (counted_exact (hmono.checked (bugOnOutstanding i) (fun l hl => hl.1) ?_) ?_ ?_).iff ?_
  · intro l hl _
    have houtstanding : ((upDebug l).insertTail .debug i).outstanding i = false := by
      rw [outstanding_insertTail hi, upDebug_outstanding, hl.2]
    simp [bugOnOutstanding, houtstanding]
  · exact fun l => upDebug_References hi
  · simp only [List.cons_append, List.nil_append, List.mem_cons, List.not_mem_nil, or_false,
      forall_eq_or_imp, forall_eq]
    exact ⟨bugOnOutstanding_commutes _, deregister_commutes _ _, debugRelease_commutes hi⟩
  · intro l _
    rw [reportingOk, debugOk_refer hi]

/-- The debug interface can be acquired after another one as before it. -/
theorem debugOk_upReporting (hl : Kept js l) (hi : i ≠ .debug) (hok : reportingOk env i l) :
    debugOk env (upReporting i l) ↔ debugOk env l := by
  by_cases h0 : l.References i = 0
  · have hup : (upReporting i l).References .debug ≠ 0 := by
      have hdebug := hl.nonneg .debug
      have heq : upReporting i l = (upDebug (l.refer i 1)).insertTail .debug i := if_pos h0
      by_cases hd : l.References .debug = 0
      · simp [heq, upDebug, Counter.up, references, refer_References_of_ne hi.symm, hd]
      · simp only [heq, upDebug, Counter.up, references, refer_References_of_ne hi.symm, hd,
          if_false, insertTail_References, refer_References_self]
        omega
    exact iff_of_true (fun h => absurd h hup) (hok h0).1
  · have heq : upReporting i l = l.refer i 1 := if_neg h0
    rw [heq, debugOk_refer hi]

theorem reportingOk_refer (h : i ≠ .debug) (hj : i ≠ j) :
    reportingOk env j (l.refer i n) ↔ reportingOk env j l := by
  rw [reportingOk, reportingOk, refer_References_of_ne hj.symm, debugOk_refer h]

/-- So can an interface that reports. -/
theorem reportingOk_upReporting (hl : Kept js l) (hi : i ≠ .debug) (hj : j ≠ .debug) (hij : j ≠ i)
    (hok : reportingOk env i l) : reportingOk env j (upReporting i l) ↔ reportingOk env j l := by
  rw [reportingOk, reportingOk, upReporting_References hj hij, debugOk_upReporting hl hi hok]

/-! ## Shared info -/

/-- `SharedInfoAcquire` succeeds. -/
def sharedInfoOk (env : Env) (l : Ledger) : Prop :=
  l.References .sharedInfo = 0 →
    env.fails (.hole .sharedInfo) = false ∧ reportingOk env .suspend l ∧
      env.fails (.register .early .sharedInfo) = false ∧ debugOk env l ∧
      env.fails (.register .debug .sharedInfo) = false ∧ env.fails (.allocate .sharedInfo) = false ∧
      sharedInfoProcessors env = true

/-- What the steps of `SharedInfoAcquire` come to. -/
def upSharedInfoSteps (l : Ledger) : Ledger :=
  ((upDebug ((upReporting .suspend ((l.take (.hole .sharedInfo)).take (.mapping .sharedInfo))).insertTail
    .early .sharedInfo)).insertTail .debug .sharedInfo).take (.array .sharedInfo)

/-- What `SharedInfoAcquire` comes to. -/
def upSharedInfo : Ledger → Ledger := (references .sharedInfo).up upSharedInfoSteps

theorem upSharedInfoSteps_References (h : k ≠ .debug) (hs : k ≠ .suspend) :
    (upSharedInfoSteps l).References k = l.References k := by
  simp only [upSharedInfoSteps, take_References, insertTail_References, upDebug_References h,
    upReporting_References h hs]

theorem upSharedInfo_References (h : k ≠ .debug) (hs : k ≠ .suspend) (hi : k ≠ .sharedInfo) :
    (upSharedInfo l).References k = l.References k :=
  up_References (fun _ => upSharedInfoSteps_References h hs) hi

theorem sharedInfoAcquire_exact (env : Env) (js : List Interface) :
    Exact (Kept js) (Kept (.sharedInfo :: js)) (sharedInfoOk env) upSharedInfo (sharedInfoAcquire env)
      sharedInfoRelease := by
  have hprocessors : Exact (Kept (.debug :: .suspend :: .sharedInfo :: js)) _ _ _ _ _ :=
    (check_exact _ (!sharedInfoProcessors env)).last []
  have harray := (claim_exact _ (env.fails (.allocate .sharedInfo)) (.array .sharedInfo)).cons hprocessors
  have hregister := (register_exact env .debug (by simp [Queue.owner]) .sharedInfo).cons harray
  have hdebug := (debugAcquire_exact env (.suspend :: .sharedInfo :: js)).single.cons hregister
  have hearly := (register_exact env .early (by simp [Queue.owner]) .sharedInfo).cons hdebug
  have hsuspend :=
    (reportingAcquire_exact env (i := .suspend) (by decide) (.sharedInfo :: js)).single.cons hearly
  have hmapping := (claim_exact _ false (.mapping .sharedInfo)).cons hsuspend
  have hhole := (claim_exact _ (env.fails (.hole .sharedInfo)) (.hole .sharedInfo)).cons hmapping
  refine (counted_exact (hhole.mono (fun _ h => h.1) ?_) ?_ ?_).iff ?_
  · exact fun l hl => hl.mono fun j hj => List.mem_cons_of_mem _ (List.mem_cons_of_mem _ hj)
  · intro l
    exact upSharedInfoSteps_References (by decide) (by decide)
  · simp only [List.cons_append, List.nil_append, List.mem_cons, List.not_mem_nil, or_false,
      forall_eq_or_imp, forall_eq]
    exact ⟨giveBack_commutes _, deregister_commutes _ _, debugRelease_commutes (by decide),
      deregister_commutes _ _, reportingRelease_commutes (by decide) (by decide), giveBack_commutes _,
      giveBack_commutes _⟩
  · intro l hl
    have hkept : Kept (.sharedInfo :: js)
        (((l.refer .sharedInfo 1).take (.hole .sharedInfo)).take (.mapping .sharedInfo)) :=
      ((hl.refer .sharedInfo).take _).take _
    have hsame : reportingOk env .suspend
        (((l.refer .sharedInfo 1).take (.hole .sharedInfo)).take (.mapping .sharedInfo)) ↔
        reportingOk env .suspend l :=
      reportingOk_refer (l := l) (i := .sharedInfo) (j := .suspend) (n := 1) (by decide) (by decide)
    have hdebug (hok : reportingOk env .suspend l) : debugOk env (upReporting .suspend
        (((l.refer .sharedInfo 1).take (.hole .sharedInfo)).take (.mapping .sharedInfo))) ↔ debugOk env l :=
      (debugOk_upReporting hkept (by decide) (hsame.2 hok)).trans
        (debugOk_refer (l := l) (i := .sharedInfo) (n := 1) (by decide))
    refine imp_congr_right fun _ => and_congr_right fun _ => ?_
    constructor
    · rintro ⟨hok, hearly, hok', hcallback, hallocate, hloop⟩
      exact ⟨rfl, hsame.2 hok, hearly, (hdebug hok).2 hok', hcallback, hallocate, by simp [hloop]⟩
    · rintro ⟨-, hok, hearly, hok', hcallback, hallocate, hloop⟩
      exact ⟨hsame.1 hok, hearly, (hdebug (hsame.1 hok)).1 hok', hcallback, hallocate, by simpa using hloop⟩

/-! ## The two-level ABI -/

/-- With the shared info held, another reference to it is all that is taken. -/
theorem sharedInfoAcquire_held (env : Env) (hl : Kept js l) (hjs : .sharedInfo ∈ js) :
    sharedInfoAcquire env l = some (true, l.refer .sharedInfo 1) ∧
      sharedInfoRelease (l.refer .sharedInfo 1) = some l := by
  have hne : l.References .sharedInfo ≠ 0 := hl.up _ hjs
  have hup : upSharedInfo l = l.refer .sharedInfo 1 := if_neg hne
  have hexact := sharedInfoAcquire_exact env js
  have hok : sharedInfoOk env l := fun h0 => absurd h0 hne
  exact ⟨hup ▸ hexact.passes l hl hok, hup ▸ hexact.undone l hl hok⟩

/-- With the shared info held, `EvtchnTwoLevelAcquire` succeeds. -/
theorem evtchnTwoLevelAcquire_exact (env : Env) (hjs : .sharedInfo ∈ js) :
    Exact (Kept js) (Kept js) (fun _ => True) ((references .twoLevel).up (Ledger.refer .sharedInfo 1))
      (evtchnTwoLevelAcquire env) evtchnTwoLevelRelease := by
  have hmem : Interface.sharedInfo ∈ .twoLevel :: js := List.mem_cons_of_mem _ hjs
  have hstages : Exact (fun l => Kept (.twoLevel :: js) l ∧ l.outstanding .twoLevel = false)
      (Kept (.twoLevel :: js)) (fun _ => True) (Ledger.refer .sharedInfo 1)
      (attempt [⟨check false, [sharedInfoRelease]⟩, ⟨sharedInfoAcquire env, []⟩])
      (sequence [sharedInfoRelease]) := by
    constructor
    · intro l hl _
      rw [attempt_cons_of_passes rfl, attempt_single]
      simp only [(sharedInfoAcquire_held env hl.1 hmem).1]
    · exact fun l hl _ => (hl.1.refer .sharedInfo).mono (List.subset_cons_self _ _)
    · intro l hl _
      rw [sequence_single, (sharedInfoAcquire_held env hl.1 hmem).2]
    · exact fun l _ hnot => absurd trivial hnot
  refine ((counted_exact hstages ?_ ?_).mono (fun _ h => h) ?_).iff fun l _ => by simp
  · exact fun l => refer_References_of_ne (by decide)
  · simp only [List.mem_cons, List.not_mem_nil, or_false, forall_eq]
    exact sharedInfoRelease_commutes (by decide) (by decide) (by decide)
  · exact fun l hl => hl.mono (List.subset_cons_self _ _)

/-! ## Grant tables -/

/-- `GnttabExpand` adds the first frame. -/
def gnttabExpandOk (env : Env) : Prop :=
  env.MaximumFrameCount ≠ 0 ∧ env.fails (.hole .gnttab) = false ∧ env.fails .addToPhysmap = false ∧
    env.fails .rangeSetPut = false

/-- The frames of grant tables without a frame. -/
def noFrames : GnttabContext := ⟨-1, 0, 0⟩

/-- The frames of grant tables with one frame. -/
def oneFrame : GnttabContext := ⟨0, 1, 1⟩

theorem gnttabExpand_exact (env : Env) :
    Exact (· = noFrames) (· = oneFrame) (fun _ => gnttabExpandOk env) (fun _ => oneFrame) (gnttabExpand env)
      (sequence [gnttabContract]) where
  passes := by
    rintro g rfl ⟨hmax, hhole, hmap, hput⟩
    have hcount : ((0 : ℤ) == env.MaximumFrameCount) = false := by
      rw [beq_eq_false_iff_ne]
      omega
    simp [gnttabExpand, attempt, noFrames, setFrameIndex, check, framePage, frameMap, hcount, hhole, hmap,
      hput, oneFrame]
  after := fun _ _ _ => rfl
  undone := by
    rintro g rfl -
    rfl
  fails := by
    rintro g rfl hnot
    by_cases hmax : env.MaximumFrameCount = 0
    · simp [gnttabExpand, attempt, noFrames, setFrameIndex, check, hmax]
    · have hcount : ((0 : ℤ) == env.MaximumFrameCount) = false := by
        rw [beq_eq_false_iff_ne]
        omega
      rcases hhole : env.fails (.hole .gnttab) with _ | _
      · rcases hmap : env.fails .addToPhysmap with _ | _
        · rcases hput : env.fails .rangeSetPut with _ | _
          · exact absurd ⟨hmax, hhole, hmap, hput⟩ hnot
          · simp [gnttabExpand, attempt, noFrames, setFrameIndex, check, framePage, frameMap, frameFree,
              frameUnmap, hcount, hhole, hmap, hput]
        · simp [gnttabExpand, attempt, noFrames, setFrameIndex, check, framePage, frameMap, frameFree,
            hcount, hhole, hmap]
      · simp [gnttabExpand, attempt, noFrames, setFrameIndex, check, framePage, hcount, hhole]

/-- The steps of `GnttabAcquire` succeed. -/
def gnttabStepsOk (env : Env) (l : Ledger) : Prop :=
  env.fails .querySize = false ∧ env.fails (.allocate .gnttab) = false ∧ reportingOk env .rangeSet l ∧
    env.fails .rangeSetCreate = false ∧ reportingOk env .cache l ∧ reportingOk env .suspend l ∧
    env.fails (.register .early .gnttab) = false ∧ debugOk env l ∧
    env.fails (.register .debug .gnttab) = false ∧ gnttabExpandOk env

/-- `GnttabAcquire` succeeds. -/
def gnttabOk (env : Env) (l : Ledger) : Prop := l.References .gnttab = 0 → gnttabStepsOk env l

/-- What the steps of `GnttabAcquire` come to in the ledger. -/
def upGnttabSteps (l : Ledger) : Ledger :=
  (upDebug ((upReporting .suspend (upReporting .cache ((upReporting .rangeSet
    (l.take (.array .gnttab))).create .rangeSet))).insertTail .early .gnttab)).insertTail .debug .gnttab

/-- What `GnttabAcquire` comes to. -/
def upGnttab : Lower → Lower := gnttabReferences.up fun w => ⟨upGnttabSteps w.ledger, oneFrame⟩

/-- What the grant tables keep: none of their frames while there is no reference. -/
def GnttabKept (js : List Interface) (w : Lower) : Prop :=
  Kept js w.ledger ∧ (w.ledger.References .gnttab = 0 → w.gnttab = ⟨0, 0, 0⟩)

theorem frameIndex_exact (js : List Interface) :
    Exact (fun w => Kept js w.ledger ∧ w.gnttab = ⟨0, 0, 0⟩) (fun w => Kept js w.ledger ∧ w.gnttab = noFrames)
      (fun _ => True) (fun w => lowerGnttab.set noFrames w)
      (lowerGnttab.step fun g => some (true, setFrameIndex (-1) g))
      (sequence [lowerGnttab.undo fun g => some (setFrameIndex 0 g)]) where
  passes := by
    rintro ⟨l, g⟩ ⟨-, rfl⟩ -
    rfl
  after := fun w hw _ => ⟨hw.1, rfl⟩
  undone := by
    rintro ⟨l, g⟩ ⟨-, rfl⟩ -
    rfl
  fails := fun _ _ hnot => absurd trivial hnot

/-- The label after the range set is created contracts the grant tables first, which have no frame. -/
theorem rangeSetCreate_exact (env : Env) (js : List Interface) (hjs : .rangeSet ∈ js) :
    Exact (fun w => Kept js w.ledger ∧ w.gnttab = noFrames) (fun w => Kept js w.ledger ∧ w.gnttab = noFrames)
      (fun _ => env.fails .rangeSetCreate = false) (fun w => lowerLedger.set (w.ledger.create .rangeSet) w)
      (lowerLedger.step (rangeSetCreate env))
      (sequence [lowerGnttab.undo gnttabContract, lowerLedger.undo (destroy .rangeSet)]) where
  passes := by
    rintro ⟨l, g⟩ ⟨-, rfl⟩ hok
    simp [Part.step, lowerLedger, rangeSetCreate, hok]
  after := fun w hw _ => ⟨hw.1.create hjs, hw.2⟩
  undone := by
    rintro ⟨l, g⟩ ⟨-, rfl⟩ -
    simp [Part.undo, lowerLedger, lowerGnttab, gnttabContract, noFrames, gnttabContractFrames, setFrameIndex,
      destroy, Ledger.create]
  fails := by
    rintro ⟨l, g⟩ ⟨-, rfl⟩ hnot
    rw [Bool.not_eq_false] at hnot
    simp [Part.step, lowerLedger, rangeSetCreate, hnot]

/-- Contracting twice is contracting once. -/
theorem gnttabContract_twice (rest : List (Undo Lower)) :
    sequence (lowerGnttab.undo gnttabContract :: lowerGnttab.undo gnttabContract :: rest) =
      sequence (lowerGnttab.undo gnttabContract :: rest) := by
  funext w
  rcases hframes : gnttabContractFrames (w.gnttab.FrameIndex + 1).toNat w.gnttab with _ | g
  · simp [Part.undo, lowerGnttab, gnttabContract, hframes]
  · simp [Part.undo, lowerGnttab, gnttabContract, hframes, setFrameIndex, gnttabContractFrames]

/-- The releases of `GnttabRelease` that its `Acquire` made after the range set. -/
def gnttabCallbacksUndo : List (Undo Ledger) :=
  [deregister .debug .gnttab, debugRelease, deregister .early .gnttab, suspendRelease, cacheRelease]

/-- What each step of `GnttabAcquire` is asked for does not depend on the steps before it. -/
theorem gnttabStepsOk_iff (hl : Kept js l) : gnttabStepsOk env l ↔
    env.fails .querySize = false ∧ env.fails (.allocate .gnttab) = false ∧
      reportingOk env .rangeSet (l.take (.array .gnttab)) ∧ env.fails .rangeSetCreate = false ∧
      reportingOk env .cache ((upReporting .rangeSet (l.take (.array .gnttab))).create .rangeSet) ∧
      reportingOk env .suspend
        (upReporting .cache ((upReporting .rangeSet (l.take (.array .gnttab))).create .rangeSet)) ∧
      env.fails (.register .early .gnttab) = false ∧
      debugOk env (upReporting .suspend
        (upReporting .cache ((upReporting .rangeSet (l.take (.array .gnttab))).create .rangeSet))) ∧
      env.fails (.register .debug .gnttab) = false ∧ gnttabExpandOk env := by
  have hkept := hl.take (.array .gnttab)
  rw [gnttabStepsOk]
  refine and_congr_right fun _ => and_congr_right fun _ => and_congr_right fun hrange =>
    and_congr_right fun _ => ?_
  have hkept1 := ((reportingAcquire_exact env (i := .rangeSet) (by decide) js).after _ hkept hrange).create
    (i := .rangeSet) (by simp)
  have hcache : reportingOk env .cache ((upReporting .rangeSet (l.take (.array .gnttab))).create .rangeSet) ↔
      reportingOk env .cache l :=
    reportingOk_upReporting (l := l.take (.array .gnttab)) hkept (by decide) (by decide) (by decide) hrange
  rw [hcache]
  refine and_congr_right fun hok => ?_
  have hkept2 := (reportingAcquire_exact env (i := .cache) (by decide) _).after _ hkept1 (hcache.2 hok)
  have hsuspend : reportingOk env .suspend
      (upReporting .cache ((upReporting .rangeSet (l.take (.array .gnttab))).create .rangeSet)) ↔
      reportingOk env .suspend l :=
    (reportingOk_upReporting hkept1 (by decide) (by decide) (by decide) (hcache.2 hok)).trans
      (reportingOk_upReporting (l := l.take (.array .gnttab)) hkept (by decide) (by decide) (by decide) hrange)
  rw [hsuspend]
  refine and_congr_right fun hok' => and_congr_right fun _ => and_congr_left fun _ => ?_
  have hdebug : debugOk env ((upReporting .rangeSet (l.take (.array .gnttab))).create .rangeSet) ↔
      debugOk env l := debugOk_upReporting (l := l.take (.array .gnttab)) hkept (by decide) hrange
  exact ((debugOk_upReporting hkept2 (by decide) (hsuspend.2 hok')).trans
    ((debugOk_upReporting hkept1 (by decide) (hcache.2 hok)).trans hdebug)).symm

theorem gnttabSteps_exact (env : Env) (js : List Interface) :
    Exact (fun w : Lower => Kept (.gnttab :: js) w.ledger ∧ w.gnttab = ⟨0, 0, 0⟩)
      (fun w => w.gnttab = oneFrame ∧
        Kept (.debug :: .suspend :: .cache :: .rangeSet :: .gnttab :: js) w.ledger)
      (fun w => gnttabStepsOk env w.ledger) (fun w => ⟨upGnttabSteps w.ledger, oneFrame⟩)
      (attempt (gnttabTables env ++ (gnttabCallbacks env).map lowerLedger.stage ++
        [lowerGnttab.stage ⟨gnttabExpand env, []⟩]))
      (sequence (gnttabCallbacksUndo.map lowerLedger.undo ++
        [lowerGnttab.undo gnttabContract, lowerLedger.undo (destroy .rangeSet),
          lowerLedger.undo rangeSetRelease, lowerGnttab.undo fun g => some (setFrameIndex 0 g),
          lowerLedger.undo (giveBack (.array .gnttab))])) := by
  have hexpand := ((gnttabExpand_exact env).part lowerGnttab
    (fun w => Kept (.debug :: .suspend :: .cache :: .rangeSet :: .gnttab :: js) w.ledger) fun _ _ h => h).last []
  have hregister := ((register_exact env .debug (by simp [Queue.owner]) .gnttab).part lowerLedger
    (·.gnttab = noFrames) fun _ _ h => h).cons (hexpand.mono (fun _ h => ⟨h.2, h.1⟩) fun _ h => h)
  have hdebug := ((debugAcquire_exact env (.suspend :: .cache :: .rangeSet :: .gnttab :: js)).single.part
    lowerLedger (·.gnttab = noFrames) fun _ _ h => h).cons hregister
  have hearly := ((register_exact env .early (by simp [Queue.owner]) .gnttab).part lowerLedger
    (·.gnttab = noFrames) fun _ _ h => h).cons hdebug
  have hsuspend := ((reportingAcquire_exact env (i := .suspend) (by decide)
    (.cache :: .rangeSet :: .gnttab :: js)).single.part lowerLedger (·.gnttab = noFrames)
    fun _ _ h => h).cons hearly
  have hcache := ((reportingAcquire_exact env (i := .cache) (by decide)
    (.rangeSet :: .gnttab :: js)).single.part lowerLedger (·.gnttab = noFrames)
    fun _ _ h => h).cons hsuspend
  have hcreate := (rangeSetCreate_exact env (.rangeSet :: .gnttab :: js) (by simp)).cons hcache
  have hrangeSet := ((reportingAcquire_exact env (i := .rangeSet) (by decide) (.gnttab :: js)).single.part
    lowerLedger (·.gnttab = noFrames) fun _ _ h => h).cons hcreate
  have hindex := (frameIndex_exact (.gnttab :: js)).cons hrangeSet
  have harray := ((claim_exact _ (env.fails (.allocate .gnttab)) (.array .gnttab)).part lowerLedger
    (·.gnttab = ⟨0, 0, 0⟩) fun _ _ h => h).cons hindex
  have hquery := (check_exact _ (env.fails .querySize)).cons harray
  have hundo : sequence (lowerGnttab.undo gnttabContract :: (gnttabCallbacksUndo.map lowerLedger.undo ++
      [lowerGnttab.undo gnttabContract, lowerLedger.undo (destroy .rangeSet),
        lowerLedger.undo rangeSetRelease, lowerGnttab.undo fun g => some (setFrameIndex 0 g),
        lowerLedger.undo (giveBack (.array .gnttab))])) =
      sequence (gnttabCallbacksUndo.map lowerLedger.undo ++
        [lowerGnttab.undo gnttabContract, lowerLedger.undo (destroy .rangeSet),
          lowerLedger.undo rangeSetRelease, lowerGnttab.undo fun g => some (setFrameIndex 0 g),
          lowerLedger.undo (giveBack (.array .gnttab))]) := by
    rw [lowerLedger.sequence_swap lowerGnttab _ _ _ (fun _ _ => rfl) (fun _ _ => rfl) (fun _ _ _ => rfl)]
    funext w
    rw [sequence_append, sequence_append, gnttabContract_twice]
  rw [← hundo]
  refine hquery.iff fun w hw => (gnttabStepsOk_iff hw.1).trans ?_
  simp only [true_and]
  exact Iff.rfl

theorem gnttabStepsOk_refer (h : k ≠ .debug) (hs : k ≠ .suspend) (hr : k ≠ .rangeSet) (hc : k ≠ .cache) :
    gnttabStepsOk env (l.refer k n) ↔ gnttabStepsOk env l := by
  rw [gnttabStepsOk, gnttabStepsOk, reportingOk_refer h hr, reportingOk_refer h hc, reportingOk_refer h hs,
    debugOk_refer h]

theorem upGnttabSteps_References (h : k ≠ .debug) (hs : k ≠ .suspend) (hr : k ≠ .rangeSet) (hc : k ≠ .cache) :
    (upGnttabSteps l).References k = l.References k := by
  simp only [upGnttabSteps, insertTail_References, upDebug_References h, upReporting_References h hs,
    upReporting_References h hc, create_References, upReporting_References h hr, take_References]

theorem upGnttab_References {w : Lower} (h : k ≠ .debug) (hs : k ≠ .suspend) (hr : k ≠ .rangeSet)
    (hc : k ≠ .cache) (hk : k ≠ .gnttab) : (upGnttab w).ledger.References k = w.ledger.References k := by
  by_cases h0 : w.ledger.References .gnttab = 0
  · simp [upGnttab, Counter.up, gnttabReferences, h0, upGnttabSteps_References h hs hr hc,
      refer_References_of_ne hk]
  · simp [upGnttab, Counter.up, gnttabReferences, h0, refer_References_of_ne hk]

theorem upGnttabSteps_outstanding : (upGnttabSteps l).outstanding .gnttab = l.outstanding .gnttab := by
  simp only [upGnttabSteps]
  rw [outstanding_insertTail (by decide), upDebug_outstanding, outstanding_insertTail (by decide),
    upReporting_outstanding (by decide), upReporting_outstanding (by decide), outstanding_create (by decide),
    upReporting_outstanding (by decide), outstanding_take]

theorem gnttabAcquire_exact (env : Env) (js : List Interface) :
    Exact (GnttabKept js) (GnttabKept (.gnttab :: js)) (fun w => gnttabOk env w.ledger) upGnttab
      (gnttabAcquire env) gnttabRelease := by
  have hsteps : Exact (fun w : Lower => (Kept (.gnttab :: js) w.ledger ∧ w.gnttab = ⟨0, 0, 0⟩) ∧
      w.ledger.outstanding .gnttab = false) (GnttabKept (.gnttab :: js)) _ _ _ _ :=
    ((gnttabSteps_exact env js).checked (lowerLedger.undo (bugOnOutstanding .gnttab)) (fun w hw => hw.1) (by
      intro w hw _
      have hnone : (upGnttabSteps w.ledger).outstanding .gnttab = false :=
        upGnttabSteps_outstanding.trans hw.2
      simp [Part.undo, lowerLedger, bugOnOutstanding, hnone])).mono (fun w hw => hw) (by
      intro w hw
      have hkept : Kept (.gnttab :: js) w.ledger := hw.2.mono fun j hj => List.mem_cons_of_mem _
        (List.mem_cons_of_mem _ (List.mem_cons_of_mem _ (List.mem_cons_of_mem _ hj)))
      exact ⟨hkept, fun h0 => absurd h0 (hkept.up _ (by simp))⟩)
  have lower (undo : Undo Ledger) (h : Commutes (Ledger.refer .gnttab (-1)) undo) :
      Commutes (gnttabReferences.add (-1)) (lowerLedger.undo undo) := lowerLedger.undo_commutes h
  have frames (undo : Undo GnttabContext) :
      Commutes (gnttabReferences.add (-1)) (lowerGnttab.undo undo) :=
    lowerGnttab.undo_commutes_of_apart undo (fun _ => rfl) (fun _ _ => rfl)
  refine (gnttabReferences.exact hsteps ?_ ?_ ?_ ?_ ?_).iff ?_
  · exact fun w hw => hw.1.nonneg _
  · intro w hw h0
    exact ⟨⟨hw.1.refer _, hw.2 h0⟩, outstanding_refer.trans (hw.1.idle _ h0)⟩
  · intro w hw h0
    have hkept := hw.1.refer .gnttab
    exact ⟨hkept, fun h => absurd h (hkept.up _ (by simp))⟩
  · intro w
    exact upGnttabSteps_References (by decide) (by decide) (by decide) (by decide)
  · refine sequence_commutes ?_
    simp only [gnttabCallbacksUndo, List.map_cons, List.map_nil, List.cons_append, List.nil_append,
      List.mem_cons, List.not_mem_nil, or_false, forall_eq_or_imp, forall_eq]
    exact ⟨lower _ (bugOnOutstanding_commutes _), lower _ (deregister_commutes _ _),
      lower _ (debugRelease_commutes (by decide)), lower _ (deregister_commutes _ _),
      lower _ (reportingRelease_commutes (by decide) (by decide)),
      lower _ (reportingRelease_commutes (by decide) (by decide)), frames _, lower _ (destroy_commutes _),
      lower _ (reportingRelease_commutes (by decide) (by decide)), frames _, lower _ (giveBack_commutes _)⟩
  · intro w hw
    exact imp_congr_right fun _ =>
      (gnttabStepsOk_refer (by decide) (by decide) (by decide) (by decide) (l := w.ledger) (n := 1)).symm

end XenBus.Interfaces
