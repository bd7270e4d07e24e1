import XenBus.Store.Watches

/-!
# The watches on the list

`StoreWatchAdd` from its first line on, over the sections of `XenBus.Store.Operations`: the path of the
watch is checked, and the watch and its path are allocated, before the watch gets its id and comes to the
list. `StoreCheckPathLength` bounds the length of the path, and so that of the request for the watch.

`watches_of_reaches`: the watches on the list have different ids, none of them has been freed, and they are
those that have been added and not removed, with those that a call of `StoreWatchAdd` is about.
`storeNextWatchId_ne_none`: while there are fewer than 65536 of them, `StoreNextWatchId` finds an id.
-/

namespace XenBus.Store.WatchIds

open Requests Operations Transition

/-! ## Paths -/

/-- `StoreCheckPathLength` from the length of `Node` on. -/
def checkNode (MaximumLength : ℕ) (Node : List UInt8) : Bool :=
  if MaximumLength < Node.length then false
  else if MaximumLength - Node.length < 1 then false
  else true

/-- `StoreCheckPathLength`, of strings without their terminators: `STATUS_SUCCESS`, or else
`STATUS_INVALID_BUFFER_SIZE`. -/
def storeCheckPathLength (Prefix : Option (List UInt8)) (Node : List UInt8) : Bool :=
  match Prefix with
  | some Prefix =>
    let MaximumLength := if Prefix.headD 0 = 47 ∨ Prefix.headD 0 = 0 then 3072 else 2048
    if MaximumLength < Prefix.length then false
    else if MaximumLength - Prefix.length < 1 then false
    else checkNode (MaximumLength - Prefix.length - 1) Node
  | none => checkNode (if Node.headD 0 = 47 then 3072 else 2048) Node

/-- The path of a watch. -/
def watchPath (Prefix : Option (List UInt8)) (Node : List UInt8) : List UInt8 :=
  match Prefix with
  | some Prefix => Prefix ++ [47] ++ Node
  | none => Node

theorem checkNode_success {MaximumLength : ℕ} {Node : List UInt8}
    (h : checkNode MaximumLength Node = true) : Node.length < MaximumLength := by
  unfold checkNode at h
  split_ifs at h
  omega

/-- A path that has been checked has its terminator within the limit for absolute paths. -/
theorem length_watchPath_lt {Prefix : Option (List UInt8)} {Node : List UInt8}
    (h : storeCheckPathLength Prefix Node = true) : (watchPath Prefix Node).length < 3072 := by
  cases Prefix with
  | none =>
    have hlength := checkNode_success h
    have hmax : (if Node.headD 0 = 47 then 3072 else 2048) ≤ 3072 := by split_ifs <;> omega
    exact hlength.trans_le hmax
  | some Prefix =>
    simp only [storeCheckPathLength] at h
    have hmax : (if Prefix.headD 0 = 47 ∨ Prefix.headD 0 = 0 then 3072 else 2048) ≤ 3072 := by
      split_ifs <;> omega
    generalize (if Prefix.headD 0 = 47 ∨ Prefix.headD 0 = 0 then 3072 else 2048) = MaximumLength at h hmax
    split_ifs at h
    have hlength := checkNode_success h
    simp only [watchPath, List.length_append, List.length_singleton]
    omega

/-! ## Ids -/

variable {ι : Type}

/-- One round of `StoreNextWatchId` after the other tries the next id. -/
theorem nextWatchId_ne_none {s : State ι} {n Id i : ℕ} (hi : i < n)
    (hfree : storeFindWatch s ((Id + i) % 65536) = none) (hId : Id < 65536) :
    nextWatchId s n Id ≠ none := by
  induction n generalizing Id i with
  | zero => exact absurd hi (Nat.not_lt_zero i)
  | succ n ih =>
    unfold nextWatchId
    split_ifs with hfirst
    · simp
    · cases i with
      | zero =>
        rw [Nat.add_zero, Nat.mod_eq_of_lt hId] at hfree
        exact absurd hfree hfirst
      | succ i =>
        refine ih (Nat.lt_of_succ_lt_succ hi) ?_ (Nat.mod_lt _ (by decide))
        rwa [Nat.mod_add_mod, Nat.add_assoc, Nat.add_comm 1 i]

/-- **`StoreNextWatchId` returns** while there are fewer than 65536 watches: one of the ids is not in use. -/
theorem storeNextWatchId_ne_none {s : State ι} (hlength : s.WatchList.length < 65536)
    (hWatchId : s.WatchId < 65536) : storeNextWatchId s ≠ none := by
  let Ids : Finset ℕ := (s.WatchList.filterMap fun w => (s.Watches w).map Watch.Id).toFinset
  have hcard : Ids.card < (Finset.range 65536).card := by
    calc Ids.card ≤ (s.WatchList.filterMap fun w => (s.Watches w).map Watch.Id).length :=
          List.toFinset_card_le _
      _ ≤ s.WatchList.length := List.length_filterMap_le _ _
      _ < (Finset.range 65536).card := by rwa [Finset.card_range]
  obtain ⟨Id, hrange, hfree⟩ := Finset.exists_mem_notMem_of_card_lt_card hcard
  have hId : Id < 65536 := Finset.mem_range.mp hrange
  refine nextWatchId_ne_none (i := (Id + 65536 - s.WatchId) % 65536) (Nat.mod_lt _ (by decide)) ?_ hWatchId
  rw [show (s.WatchId + (Id + 65536 - s.WatchId) % 65536) % 65536 = Id by omega]
  refine List.find?_eq_none.mpr fun w hw hused => hfree ?_
  obtain ⟨watch, hwatch, hsame⟩ := Option.any_eq_true _ _ |>.mp hused
  refine List.mem_toFinset.mpr (List.mem_filterMap.mpr ⟨w, hw, ?_⟩)
  rw [hwatch, Option.map_some, of_decide_eq_true hsame]

/-! ## The system -/

/-- What a call has come to. -/
inductive Outcome
  /-- `StoreWatchAdd` has returned the watch. -/
  | added (w : ℕ)
  /-- `StoreWatchAdd` has failed. -/
  | failed (w : ℕ)
  /-- `StoreWatchRemove` has removed the watch. -/
  | removed (w : ℕ)
  deriving DecidableEq

/-- What the return of a thread from one place to another comes to. -/
def outcome : Pc → Pc → List Outcome
  | .wait (.add w), .returned _ => [.added w]
  | .undo w _, .returned _ => [.failed w]
  | .prepare (.remove w), .returned .success => [.removed w]
  | .drop w, .returned _ => [.removed w]
  | _, _ => []

/-- The store, and what the calls have come to. -/
structure History (ι : Type) where
  store : State ι
  log : List Outcome

/-- A call of `StoreWatchAdd`, with the outcomes of its two allocations, or another step. -/
inductive Event (ι : Type)
  | add (t : ι) (Caller : ℕ) (Prefix : Option (List UInt8)) (Node : List UInt8) (Watch Path : Bool)
  | act (a : Action ι)

section

variable [DecidableEq ι]

/-- The log after a step. -/
def logged (s : History ι) (store : State ι) : Action ι → List Outcome
  | .run t _ => s.log ++ outcome (s.store.pc t) (store.pc t)
  | _ => s.log

/-- One step. A call of `StoreWatchAdd` that fails before its first section returns at once. -/
def step (s : History ι) : Event ι → Option (History ι)
  | .add t Caller Prefix Node Watch Path =>
    if s.store.captured ∨ (s.store.pc t).busy then none
    else if storeCheckPathLength Prefix Node ∧ Watch ∧ Path then
      (callStep s.store t (.add Caller (watchPath Prefix Node))).map ({ s with store := · })
    else some s
  | .act (.call _ (.add _ _)) => none
  | .act a => (Operations.step s.store a).map fun store => ⟨store, logged s store a⟩

end

/-- Before any call. -/
def init (RequestId WatchId : ℕ) : History ι := ⟨Operations.init RequestId WatchId, []⟩

/-! ## Who has a watch -/

/-- What a thread does with a watch. -/
inductive Work
  /-- `StoreWatchAdd`, before the watch is on the list. -/
  | inserting
  /-- `StoreWatchAdd`, once it is. -/
  | adding
  /-- `StoreWatchRemove`. -/
  | removing
  deriving DecidableEq

/-- Who has a watch: a thread that works on it, or the client that has added it. -/
inductive Holder (ι : Type)
  | thread (t : ι) (work : Work)
  | owner

/-- The watch of a holder is on the list. -/
def Holder.listed : Holder ι → Bool
  | .thread _ .inserting => false
  | _ => true

/-- The watch of a holder has been added. -/
def Holder.kept : Holder ι → Bool
  | .thread _ .removing | .owner => true
  | _ => false

end XenBus.Store.WatchIds

namespace XenBus.Store.Operations

open XenBus.Store.WatchIds

/-- The watch that the call is about, and what it does with it. -/
def Op.work : Op → Option (ℕ × Work)
  | .add w => some (w, .adding)
  | .remove w => some (w, .removing)
  | _ => none

/-- The watch that the thread works on, and what it does with it. -/
def Pc.work : Pc → Option (ℕ × Work)
  | .insert w => some (w, .inserting)
  | .undo w _ => some (w, .adding)
  | .drop w => some (w, .removing)
  | .prepare op | .submit op _ | .wait op => op.work
  | _ => none

end XenBus.Store.Operations

namespace XenBus.Store.WatchIds

open Requests Operations Transition

variable {ι : Type} {s s' : State ι}

/-- The holder has the watch. -/
def Held (s : State ι) (w : ℕ) : Holder ι → Prop
  | .thread t work => (s.pc t).work = some (w, work)
  | .owner => s.Owned w = true

/-- The watches on the list are there, once each, with ids of their own. -/
structure Listed (s : State ι) : Prop where
  memory : ∀ w ∈ s.WatchList, s.Watches w ≠ none
  nodup : s.WatchList.Nodup
  ids : ∀ w ∈ s.WatchList, ∀ w' ∈ s.WatchList, ∀ watch watch', s.Watches w = some watch →
    s.Watches w' = some watch' → watch.Id = watch'.Id → w = w'
  path : ∀ w watch, s.Watches w = some watch → watch.Path.length < 3072
  WatchId : s.WatchId < 65536

/-- The watch has been added, and neither removed nor failed. -/
structure Kept (log : List Outcome) (w : ℕ) : Prop where
  added : .added w ∈ log
  not_removed : .removed w ∉ log
  not_failed : .failed w ∉ log

/-- The history says nothing about a watch. -/
structure Unlogged (log : List Outcome) (w : ℕ) : Prop where
  not_added : .added w ∉ log
  not_removed : .removed w ∉ log
  not_failed : .failed w ∉ log

/-- The store and the history, as seen from who has which watch. -/
structure Tracks (H : ℕ → Option (Holder ι)) (s : History ι) : Prop where
  held : ∀ w holder, Held s.store w holder ↔ H w = some holder
  list : ∀ w, w ∈ s.store.WatchList ↔ ∃ holder, H w = some holder ∧ holder.listed = true
  next : ∀ w, H w ≠ none → w < s.store.next
  kept : ∀ w, Kept s.log w ↔ ∃ holder, H w = some holder ∧ holder.kept = true
  unlogged : ∀ w, (s.store.next ≤ w ∨ ∃ t work, H w = some (.thread t work) ∧ work ≠ .removing) →
    Unlogged s.log w

/-! ## What a section does to a watch -/

variable [DecidableEq ι] {t : ι} {choice : Choice} {pc : Pc}

/-- Who has a watch after a section, and whether it is on the list. -/
inductive Handled (s : State ι) (t : ι) (pc : Pc) (s' : State ι) : Prop
  /-- No watch changes hands. -/
  | aside (hmemory : s'.Watches = s.Watches) (hlist : s'.WatchList = s.WatchList)
      (hWatchId : s'.WatchId = s.WatchId) (howned : s'.Owned = s.Owned)
      (hwork : (s'.pc t).work = pc.work) (hlog : outcome pc (s'.pc t) = [])
  /-- A watch comes to the list, with an id that no watch on it has. -/
  | inserted (w Id : ℕ) (watch : Watch) (hpc : pc.work = some (w, .inserting))
      (hpc' : (s'.pc t).work = some (w, .adding)) (hwatch : s.Watches w = some watch)
      (hId : storeFindWatch s Id = none)
      (hmemory : s'.Watches = Function.update s.Watches w (some { watch with Id := Id, Active := true }))
      (hlist : s'.WatchList = s.WatchList ++ [w]) (hWatchId : s'.WatchId = (Id + 1) % 65536)
      (howned : s'.Owned = s.Owned) (hlog : outcome pc (s'.pc t) = [])
  /-- A watch goes to the client, as it has been added, or not been removed. -/
  | returned (w : ℕ) (work : Work) (hpc : pc.work = some (w, work)) (hpc' : (s'.pc t).work = none)
      (hwork : work ≠ .inserting)
      (hmemory : s'.Watches = s.Watches) (hlist : s'.WatchList = s.WatchList)
      (hWatchId : s'.WatchId = s.WatchId) (howned : s'.Owned = Function.update s.Owned w true)
      (hlog : outcome pc (s'.pc t) = if work = .adding then [.added w] else [])
  /-- A watch is taken off the list and freed, as it has not been added, or has been removed. -/
  | freed (w : ℕ) (work : Work) (hpc : pc.work = some (w, work)) (hpc' : (s'.pc t).work = none)
      (hwork : work ≠ .inserting)
      (hmemory : s'.Watches = Function.update s.Watches w none)
      (hlist : s'.WatchList = s.WatchList.erase w)
      (hWatchId : s'.WatchId = s.WatchId) (howned : s'.Owned = s.Owned)
      (hlog : outcome pc (s'.pc t) = if work = .adding then [.failed w] else [.removed w])

theorem work_of_not_busy {pc : Pc} (h : pc.busy = false) : pc.work = none := by
  cases pc <;> first | rfl | cases h

theorem failed_handled {op : Op} (status : Status)
    (hpc : (∃ Request, pc = .submit op Request) ∨ pc = .wait op) (u : State ι)
    (hmemory : u.Watches = s.Watches) (hlist : u.WatchList = s.WatchList)
    (hWatchId : u.WatchId = s.WatchId) (howned : u.Owned = s.Owned) :
    Handled s t pc (failed u t status op) := by
  have hwork : pc.work = op.work := by obtain ⟨_, rfl⟩ | rfl := hpc <;> rfl
  have hlog : outcome pc ((failed u t status op).pc t) = [] := by
    obtain ⟨_, rfl⟩ | rfl := hpc <;> cases op <;> simp [failed, outcome]
  cases op with
  | access | finish =>
    exact .aside hmemory hlist hWatchId howned (by rw [failed, goto_pc, hwork]; rfl) hlog
  | start id => exact .aside hmemory hlist hWatchId howned (by rw [failed, goto_pc, hwork]; rfl) hlog
  | add w => exact .aside hmemory hlist hWatchId howned (by rw [failed, goto_pc, hwork]; rfl) hlog
  | remove w =>
    exact .returned w .removing hwork (by rw [failed, goto_pc]; rfl) (by simp) hmemory hlist hWatchId
      (by rw [← howned]; rfl) hlog

/-- A call whose request is not prepared. That of `StoreWatchAdd` always is. -/
theorem unprepared_handled {op : Op} (hop : op.adds = none) (u : State ι)
    (hmemory : u.Watches = s.Watches) (hlist : u.WatchList = s.WatchList)
    (hWatchId : u.WatchId = s.WatchId) (howned : u.Owned = s.Owned) :
    Handled s t (.prepare op) (unprepared u t op) := by
  cases op with
  | access | finish =>
    exact .aside hmemory hlist hWatchId howned (by rw [unprepared, goto_pc]; rfl) (by simp [outcome])
  | start id =>
    exact .aside hmemory hlist hWatchId howned (by rw [unprepared, goto_pc]; rfl) (by simp [outcome])
  | add w => cases hop
  | remove w =>
    exact .returned w .removing rfl (by rw [unprepared, goto_pc]; rfl) (by simp) hmemory hlist hWatchId
      (by rw [← howned]; rfl) (by simp [unprepared, outcome])

theorem access_handled (hacc : Access s t choice pc s') (hpc : s.pc t = pc)
    (hpath : ∀ w watch, s.Watches w = some watch → watch.Path.length < 3072) : Handled s t pc s' := by
  cases hacc
  case inserted w Id watch hwatch hId =>
    exact .inserted w Id watch rfl (by rw [goto_pc]; rfl) hwatch hId rfl rfl rfl rfl
      (by rw [goto_pc]; rfl)
  case gone w watch hwatch hactive =>
    exact .freed w .removing rfl (by rw [goto_pc]; rfl) (by simp) rfl rfl rfl rfl (by rw [goto_pc]; rfl)
  case undone w status =>
    exact .freed w .adding rfl (by rw [goto_pc]; rfl) (by simp) rfl rfl rfl rfl (by rw [goto_pc]; rfl)
  case dropped w =>
    exact .freed w .removing rfl (by rw [goto_pc]; rfl) (by simp) rfl rfl rfl rfl (by rw [goto_pc]; rfl)
  case watched w Id watch hchoice _ hwatch =>
    exact .returned w .adding rfl (by rw [goto_pc]; rfl) (by simp) rfl rfl rfl rfl (by rw [goto_pc]; rfl)
  case polled op =>
    exact .aside rfl rfl rfl rfl (congrArg Pc.work hpc) (by
      change outcome _ (s.pc t) = []
      rw [hpc]
      cases op <;> rfl)
  case unprepared op type RequestId args transaction hrequest hnone =>
    refine unprepared_handled ?_ _ rfl rfl rfl rfl
    cases op with
    | add w =>
      obtain ⟨watch, hwatch, heq⟩ := Option.map_eq_some_iff.mp hrequest
      cases heq
      exact absurd hnone (prepared_of_watch (hpath w watch hwatch) _)
    | _ => rfl
  case noMemory op Request => exact failed_handled _ (.inl ⟨Request, rfl⟩) s rfl rfl rfl rfl
  case failed op status _ => exact failed_handled _ (.inr rfl) _ rfl rfl rfl rfl
  case prepared op Request RequestId hprepared =>
    exact .aside rfl rfl rfl rfl (by rw [goto_pc]; rfl) (by rw [goto_pc]; cases op <;> rfl)
  all_goals exact .aside rfl rfl rfl rfl (by rw [goto_pc]; rfl) (by rw [goto_pc]; rfl)

/-! ## The list -/

namespace Listed

omit [DecidableEq ι] in
/-- Watches that keep their paths and their ids, and the same list. -/
theorem same (h : Listed s) (hlist : s'.WatchList = s.WatchList) (hWatchId : s'.WatchId = s.WatchId)
    (hmemory : ∀ w ∈ s.WatchList, s'.Watches w ≠ none)
    (hback : ∀ w watch, s'.Watches w = some watch →
      ∃ old, s.Watches w = some old ∧ watch.Path = old.Path ∧ watch.Id = old.Id) : Listed s' := by
  refine ⟨by rwa [hlist], by rw [hlist]; exact h.nodup, ?_, ?_, by rw [hWatchId]; exact h.WatchId⟩
  · rw [hlist]
    intro w hw w' hw' watch watch' hwatch hwatch' hsame
    obtain ⟨old, hold, -, hId⟩ := hback w watch hwatch
    obtain ⟨old', hold', -, hId'⟩ := hback w' watch' hwatch'
    exact h.ids w hw w' hw' old old' hold hold' (by rw [← hId, hsame, hId'])
  · intro w watch hwatch
    obtain ⟨old, hold, hPath, -⟩ := hback w watch hwatch
    rw [hPath]
    exact h.path w old hold

omit [DecidableEq ι] in
/-- A watch that is not on the list comes to it. -/
theorem insert (h : Listed s) {w Id : ℕ} {watch : Watch} (hw : w ∉ s.WatchList)
    (hwatch : s.Watches w = some watch) (hId : storeFindWatch s Id = none)
    (hmemory : s'.Watches = Function.update s.Watches w (some { watch with Id := Id, Active := true }))
    (hlist : s'.WatchList = s.WatchList ++ [w]) (hWatchId : s'.WatchId = (Id + 1) % 65536) : Listed s' := by
  have hnew : s'.Watches w = some { watch with Id := Id, Active := true } := by
    rw [hmemory, Function.update_self]
  have hold : ∀ v ∈ s.WatchList, s'.Watches v = s.Watches v := fun v hv => by
    rw [hmemory, Function.update_of_ne (ne_of_mem_of_not_mem hv hw)]
  -- the id of the new watch is that of no other
  have hapart : ∀ v ∈ s.WatchList, ∀ other, s'.Watches v = some other → other.Id ≠ Id := fun v hv other hother =>
    id_ne_of_storeFindWatch hId hv ((hold v hv).symm.trans hother)
  constructor
  case memory =>
    rw [hlist]
    intro v hv
    obtain hv | hv := List.mem_append.mp hv
    · rw [hold v hv]
      exact h.memory v hv
    · obtain rfl := List.mem_singleton.mp hv
      simp [hnew]
  case nodup =>
    rw [hlist]
    exact List.nodup_append.mpr ⟨h.nodup, List.nodup_singleton w, fun v hv v' hv' heq => by
      obtain rfl := List.mem_singleton.mp hv'
      exact hw (heq ▸ hv)⟩
  case ids =>
    rw [hlist]
    intro v hmem v' hmem' other other' hother hother' hsame
    obtain hv | hv := List.mem_append.mp hmem <;> obtain hv' | hv' := List.mem_append.mp hmem'
    · exact h.ids v hv v' hv' other other' (hold v hv ▸ hother) (hold v' hv' ▸ hother') hsame
    · obtain rfl := List.mem_singleton.mp hv'
      obtain rfl := Option.some.inj (hnew.symm.trans hother')
      exact absurd hsame (hapart v hv other hother)
    · obtain rfl := List.mem_singleton.mp hv
      obtain rfl := Option.some.inj (hnew.symm.trans hother)
      exact absurd hsame.symm (hapart v' hv' other' hother')
    · rw [List.mem_singleton.mp hv, List.mem_singleton.mp hv']
  case path =>
    intro v other hother
    by_cases hv : v = w
    · subst hv
      obtain rfl := Option.some.inj (hnew.symm.trans hother)
      exact h.path v watch hwatch
    · rw [hmemory, Function.update_of_ne hv] at hother
      exact h.path v other hother
  case WatchId =>
    rw [hWatchId]
    exact Nat.mod_lt _ (by decide)

omit [DecidableEq ι] in
/-- A watch is taken off the list as it is freed. -/
theorem free (h : Listed s) {w : ℕ} (hmemory : s'.Watches = Function.update s.Watches w none)
    (hlist : s'.WatchList = s.WatchList.erase w) (hWatchId : s'.WatchId = s.WatchId) : Listed s' := by
  have hold : ∀ v other, s'.Watches v = some other → s.Watches v = some other := fun v other hother => by
    by_cases hv : v = w
    · rw [hv, hmemory, Function.update_self] at hother
      cases hother
    · rwa [hmemory, Function.update_of_ne hv] at hother
  have hmem : ∀ v ∈ s'.WatchList, v ≠ w ∧ v ∈ s.WatchList := fun v hv => by
    rw [hlist] at hv
    exact (h.nodup.mem_erase_iff).mp hv
  constructor
  case memory =>
    intro v hv
    obtain ⟨hne, hv⟩ := hmem v hv
    rw [hmemory, Function.update_of_ne hne]
    exact h.memory v hv
  case nodup =>
    rw [hlist]
    exact h.nodup.erase w
  case ids =>
    exact fun v hv v' hv' other other' hother hother' =>
      h.ids v (hmem v hv).2 v' (hmem v' hv').2 other other' (hold v other hother) (hold v' other' hother')
  case path => exact fun v other hother => h.path v other (hold v other hother)
  case WatchId =>
    rw [hWatchId]
    exact h.WatchId

omit [DecidableEq ι] in
/-- A watch that is not on the list is made. -/
theorem make (h : Listed s) {w : ℕ} (watch : Watch) (hw : w ∉ s.WatchList)
    (hpath : watch.Path.length < 3072) (hmemory : s'.Watches = Function.update s.Watches w (some watch))
    (hlist : s'.WatchList = s.WatchList) (hWatchId : s'.WatchId = s.WatchId) : Listed s' := by
  have hold : ∀ v ∈ s.WatchList, s'.Watches v = s.Watches v := fun v hv => by
    rw [hmemory, Function.update_of_ne (ne_of_mem_of_not_mem hv hw)]
  refine ⟨?_, by rw [hlist]; exact h.nodup, ?_, fun v other hother => ?_, by rw [hWatchId]; exact h.WatchId⟩
  · rw [hlist]
    intro v hv
    rw [hold v hv]
    exact h.memory v hv
  · rw [hlist]
    intro v hv v' hv' other other' hother hother'
    exact h.ids v hv v' hv' other other' (hold v hv ▸ hother) (hold v' hv' ▸ hother')
  · by_cases hv : v = w
    · rw [hv, hmemory, Function.update_self] at hother
      obtain rfl := Option.some.inj hother
      exact hpath
    · rw [hmemory, Function.update_of_ne hv] at hother
      exact h.path v other hother

omit [DecidableEq ι] in
theorem handled (h : Listed s) (hhandled : Handled s t pc s')
    (hfresh : ∀ w, pc.work = some (w, .inserting) → w ∉ s.WatchList) : Listed s' := by
  cases hhandled with
  | aside hmemory hlist hWatchId howned hwork hlog =>
    exact h.same hlist hWatchId (hmemory ▸ h.memory) fun w watch hwatch => ⟨watch, hmemory ▸ hwatch, rfl, rfl⟩
  | inserted w Id watch hpc hpc' hwatch hId hmemory hlist hWatchId howned hlog =>
    exact h.insert (hfresh w hpc) hwatch hId hmemory hlist hWatchId
  | returned w work hpc hpc' hwork hmemory hlist hWatchId howned hlog =>
    exact h.same hlist hWatchId (hmemory ▸ h.memory) fun w watch hwatch => ⟨watch, hmemory ▸ hwatch, rfl, rfl⟩
  | freed w work hpc hpc' hwork hmemory hlist hWatchId howned hlog => exact h.free hmemory hlist hWatchId

omit [DecidableEq ι] in
theorem early (h : Listed s) : Listed (suspendEarly s) := by
  refine h.same rfl rfl (fun w hw hnone => ?_) fun w watch hwatch => ?_
  · change deactivate s.Watches _ s.WatchList w = none at hnone
    rw [deactivate, if_pos hw, Option.map_eq_none_iff] at hnone
    exact h.memory w hw hnone
  · change deactivate s.Watches _ s.WatchList w = some watch at hwatch
    unfold deactivate at hwatch
    split_ifs at hwatch
    · obtain ⟨old, hold, rfl⟩ := Option.map_eq_some_iff.mp hwatch
      exact ⟨old, hold, rfl, rfl⟩
    · exact ⟨watch, hwatch, rfl, rfl⟩

end Listed

/-! ## Who has which watch -/

variable {H : ℕ → Option (Holder ι)}

/-- Who has the watch that a thread has worked on. -/
def holderOf (s : State ι) (t : ι) (w : ℕ) : Option (Holder ι) :=
  match (s.pc t).work with
  | some (_, work) => some (.thread t work)
  | none => if s.Owned w then some .owner else none

omit [DecidableEq ι] in
/-- A thread goes on, and one watch changes hands. -/
theorem held_update (h : ∀ v holder, Held s v holder ↔ H v = some holder) {w : ℕ}
    (hpc : ∀ j ≠ t, s'.pc j = s.pc j) (howned : ∀ v ≠ w, s'.Owned v = s.Owned v)
    (hbefore : ∀ v work, (s.pc t).work = some (v, work) → v = w)
    (hafter : ∀ v work, (s'.pc t).work = some (v, work) → v = w ∧ s'.Owned w = false)
    (hothers : ∀ j work, H w = some (.thread j work) → j = t) (v : ℕ) (holder : Holder ι) :
    Held s' v holder ↔ Function.update H w (holderOf s' t w) v = some holder := by
  by_cases hv : v = w
  · subst hv
    rw [Function.update_self, holderOf]
    cases holder with
    | thread j work =>
      by_cases hj : j = t
      · subst hj
        change (s'.pc j).work = some (v, work) ↔ _
        cases hwork : (s'.pc j).work with
        | none => split_ifs <;> simp
        | some p =>
          obtain ⟨v', work'⟩ := p
          obtain ⟨rfl, -⟩ := hafter v' work' hwork
          simp
      · have hno : ¬ Held s' v (.thread j work) := fun hheld => by
          change (s'.pc j).work = some (v, work) at hheld
          rw [hpc j hj] at hheld
          exact hj (hothers j work ((h v (.thread j work)).mp hheld))
        refine iff_of_false hno ?_
        split
        · simpa using fun heq : t = j => absurd heq.symm hj
        · split_ifs <;> simp
    | owner =>
      change s'.Owned v = true ↔ _
      cases hwork : (s'.pc t).work with
      | none => by_cases hOwned : s'.Owned v = true <;> simp [hOwned]
      | some p =>
        obtain ⟨v', work'⟩ := p
        simp [(hafter v' work' hwork).2]
  · rw [Function.update_of_ne hv, ← h v holder]
    cases holder with
    | thread j work =>
      by_cases hj : j = t
      · subst hj
        exact iff_of_false (fun hheld => hv (hafter v work hheld).1) fun hheld => hv (hbefore v work hheld)
      · change (s'.pc j).work = some (v, work) ↔ (s.pc j).work = some (v, work)
        rw [hpc j hj]
    | owner =>
      change s'.Owned v = true ↔ s.Owned v = true
      rw [howned v hv]

namespace Tracks

variable {r r' : History ι}

omit [DecidableEq ι] in
/-- No watch changes hands. -/
theorem same (h : Tracks H r) (hheld : ∀ w holder, Held r'.store w holder ↔ Held r.store w holder)
    (hlist : r'.store.WatchList = r.store.WatchList) (hnext : r.store.next ≤ r'.store.next)
    (hlog : r'.log = r.log) : Tracks H r' where
  held w holder := (hheld w holder).trans (h.held w holder)
  list w := by rw [hlist]; exact h.list w
  next w hw := (h.next w hw).trans_le hnext
  kept w := by rw [hlog]; exact h.kept w
  unlogged w hw := by
    rw [hlog]
    exact h.unlogged w (hw.imp_left hnext.trans)

omit [DecidableEq ι] in
/-- One watch changes hands. -/
theorem moved (h : Tracks H r) (out : List Outcome) {w : ℕ} {new : Option (Holder ι)}
    (hheld : ∀ v holder, Held r'.store v holder ↔ Function.update H w new v = some holder)
    (hothers : ∀ v ≠ w, v ∈ r'.store.WatchList ↔ v ∈ r.store.WatchList)
    (hlist : w ∈ r'.store.WatchList ↔ ∃ holder, new = some holder ∧ holder.listed = true)
    (hnext : r.store.next ≤ r'.store.next) (hw : w < r'.store.next) (hlog : r'.log = r.log ++ out)
    (hout : ∀ v ≠ w, Unlogged out v)
    (hkept : Kept r'.log w ↔ ∃ holder, new = some holder ∧ holder.kept = true)
    (hunlogged : ∀ j work, new = some (.thread j work) → work ≠ .removing → Unlogged r'.log w) :
    Tracks (Function.update H w new) r' := by
  have hadded : ∀ v ≠ w, .added v ∈ r'.log ↔ .added v ∈ r.log := fun v hv => by
    simp [hlog, (hout v hv).not_added]
  have hremoved : ∀ v ≠ w, .removed v ∈ r'.log ↔ .removed v ∈ r.log := fun v hv => by
    simp [hlog, (hout v hv).not_removed]
  have hfailed : ∀ v ≠ w, .failed v ∈ r'.log ↔ .failed v ∈ r.log := fun v hv => by
    simp [hlog, (hout v hv).not_failed]
  constructor
  case held => exact hheld
  case list =>
    intro v
    by_cases hv : v = w
    · rw [hv, Function.update_self]
      exact hlist
    · rw [Function.update_of_ne hv, hothers v hv]
      exact h.list v
  case next =>
    intro v hsome
    by_cases hv : v = w
    · rwa [hv]
    · rw [Function.update_of_ne hv] at hsome
      exact (h.next v hsome).trans_le hnext
  case kept =>
    intro v
    by_cases hv : v = w
    · rw [hv, Function.update_self]
      exact hkept
    · rw [Function.update_of_ne hv, ← h.kept v]
      constructor
      · intro ⟨ha, hr, hf⟩
        exact ⟨(hadded v hv).mp ha, mt (hremoved v hv).mpr hr, mt (hfailed v hv).mpr hf⟩
      · intro ⟨ha, hr, hf⟩
        exact ⟨(hadded v hv).mpr ha, mt (hremoved v hv).mp hr, mt (hfailed v hv).mp hf⟩
  case unlogged =>
    intro v hfree
    by_cases hv : v = w
    · obtain hge | ⟨j, work, hthread, hwork⟩ := hfree
      · exact absurd hw (by omega)
      · rw [hv, Function.update_self] at hthread
        rw [hv]
        exact hunlogged j work hthread hwork
    · rw [Function.update_of_ne hv] at hfree
      obtain ⟨ha, hr, hf⟩ := h.unlogged v (hfree.imp_left hnext.trans)
      exact ⟨mt (hadded v hv).mp ha, mt (hremoved v hv).mp hr, mt (hfailed v hv).mp hf⟩

omit [DecidableEq ι] in
theorem holder_eq (h : Tracks H r) (hpc : r.store.pc t = pc) {w : ℕ} {work : Work}
    (hwork : pc.work = some (w, work)) : H w = some (.thread t work) :=
  (h.held w (.thread t work)).mp (by rw [Held, hpc, hwork])

omit [DecidableEq ι] in
theorem not_owned (h : Tracks H r) {w : ℕ} (hw : H w ≠ some .owner) : r.store.Owned w = false :=
  Bool.eq_false_iff.mpr fun hOwned => hw ((h.held w .owner).mp hOwned)

omit [DecidableEq ι] in
/-- A thread that has worked on a watch goes on. -/
theorem held_of_work (h : Tracks H r) (hframe : Frame t r.store r'.store) (hpc : r.store.pc t = pc) {w : ℕ}
    {work : Work} (hwork : pc.work = some (w, work)) (howned : ∀ v ≠ w, r'.store.Owned v = r.store.Owned v)
    (hafter : ∀ v work, (r'.store.pc t).work = some (v, work) → v = w ∧ r'.store.Owned w = false)
    (v : ℕ) (holder : Holder ι) :
    Held r'.store v holder ↔ Function.update H w (holderOf r'.store t w) v = some holder := by
  refine held_update h.held hframe.pc howned (fun v' work' hv' => ?_) hafter (fun j work' hj => ?_) v holder
  · rw [hpc, hwork] at hv'
    exact (congrArg Prod.fst (Option.some.inj hv')).symm
  · rw [h.holder_eq hpc hwork] at hj
    cases hj
    rfl

omit [DecidableEq ι] in
/-- **One section** of a call. -/
theorem handled (h : Tracks H r) (hlisted : Listed r.store) (hframe : Frame t r.store r'.store)
    (hpc : r.store.pc t = pc) (hhandled : Handled r.store t pc r'.store)
    (hlog : r'.log = r.log ++ outcome pc (r'.store.pc t)) : ∃ H', Tracks H' r' := by
  have hnext := hframe.next
  cases hhandled with
  | aside hmemory hlist hWatchId howned hwork hnone =>
    refine ⟨H, h.same (fun w holder => ?_) hlist hnext.ge (by rw [hlog, hnone, List.append_nil])⟩
    cases holder with
    | owner => rw [Held, Held, howned]
    | thread j work =>
      by_cases hj : j = t
      · rw [Held, Held, hj, hwork, hpc]
      · rw [Held, Held, hframe.pc j hj]
  | inserted w Id watch hwork hwork' hwatch hId hmemory hlist hWatchId howned hnone =>
    have hholder := h.holder_eq hpc hwork
    have hOwned : r.store.Owned w = false := h.not_owned (by simp [hholder])
    have hnew : holderOf r'.store t w = some (.thread t .adding) := by simp [holderOf, hwork']
    have hunlogged := h.unlogged w (.inr ⟨t, .inserting, hholder, by simp⟩)
    have hsame : r'.log = r.log := by rw [hlog, hnone, List.append_nil]
    refine ⟨_, h.moved []
      (h.held_of_work hframe hpc hwork (fun v _ => by rw [howned]) fun v work hv => ?_)
      (fun v hv => by simp [hlist, hv]) ?_ hnext.ge ?_ (by rw [hsame, List.append_nil])
      (fun _ _ => ⟨by simp, by simp, by simp⟩) ?_ ?_⟩
    · rw [hwork'] at hv
      cases hv
      exact ⟨rfl, by rw [howned, hOwned]⟩
    · rw [hnew, hlist]
      simp [Holder.listed]
    · rw [hnext]
      exact h.next w (by simp [hholder])
    · rw [hsame, hnew]
      exact iff_of_false (fun hkept => hunlogged.not_added hkept.added) (by simp [Holder.kept])
    · rw [hsame]
      exact fun _ _ _ _ => hunlogged
  | returned w work hwork hwork' hinserting hmemory hlist hWatchId howned hout =>
    have hholder := h.holder_eq hpc hwork
    have hOwned : r'.store.Owned w = true := by rw [howned, Function.update_self]
    have hnew : holderOf r'.store t w = some .owner := by simp [holderOf, hwork', hOwned]
    refine ⟨_, h.moved _ (h.held_of_work hframe hpc hwork
      (fun v hv => by rw [howned, Function.update_of_ne hv]) fun v work' hv => by rw [hwork'] at hv; cases hv)
      (fun v _ => by rw [hlist]) ?_ hnext.ge ?_ hlog (fun v hv => ?_) ?_ fun j work' hj => ?_⟩
    · rw [hnew, hlist, h.list w, hholder]
      cases work
      case inserting => exact absurd rfl hinserting
      all_goals simp [Holder.listed]
    · rw [hnext]
      exact h.next w (by simp [hholder])
    · rw [hout]
      constructor <;> split_ifs <;> simp [hv]
    · rw [hnew]
      refine iff_of_true ?_ ⟨.owner, rfl, rfl⟩
      rw [hlog, hout]
      cases work with
      | inserting => exact absurd rfl hinserting
      | adding =>
        have hunlogged := h.unlogged w (.inr ⟨t, .adding, hholder, by simp⟩)
        exact ⟨by simp, by simpa using hunlogged.not_removed, by simpa using hunlogged.not_failed⟩
      | removing =>
        rw [if_neg (by simp), List.append_nil]
        exact (h.kept w).mpr ⟨_, hholder, rfl⟩
    · rw [hnew] at hj
      cases hj
  | freed w work hwork hwork' hinserting hmemory hlist hWatchId howned hout =>
    have hholder := h.holder_eq hpc hwork
    have hOwned : r'.store.Owned w = false := by
      rw [howned]
      exact h.not_owned (by simp [hholder])
    have hnew : holderOf r'.store t w = none := by simp [holderOf, hwork', hOwned]
    refine ⟨_, h.moved _ (h.held_of_work hframe hpc hwork
      (fun v _ => by rw [howned]) fun v work' hv => by rw [hwork'] at hv; cases hv)
      (fun v hv => by rw [hlist, hlisted.nodup.mem_erase_iff]; simp [hv]) ?_ hnext.ge ?_ hlog (fun v hv => ?_)
      ?_ fun j work' hj => ?_⟩
    · rw [hnew, hlist, hlisted.nodup.mem_erase_iff]
      simp
    · rw [hnext]
      exact h.next w (by simp [hholder])
    · rw [hout]
      constructor <;> split_ifs <;> simp [hv]
    · rw [hnew]
      refine iff_of_false (fun hkept => ?_) (by simp)
      rw [hlog, hout] at hkept
      cases work with
      | inserting => exact absurd rfl hinserting
      | adding =>
        have hunlogged := h.unlogged w (.inr ⟨t, .adding, hholder, by simp⟩)
        exact hunlogged.not_added (by simpa using hkept.added)
      | removing => exact hkept.not_removed (by simp)
    · rw [hnew] at hj
      cases hj

/-- A call: a watch is made, or the client gives one back. -/
theorem call (h : Tracks H r) (hbusy : (r.store.pc t).busy = false) {call : Call}
    (hs : callStep r.store t call = some s') : ∃ H', Tracks H' { r with store := s' } := by
  have hidle : (r.store.pc t).work = none := work_of_not_busy hbusy
  have hne : ∀ (u : State ι) (pc : Pc), u.pc = r.store.pc → ∀ j ≠ t, (u.goto t pc).pc j = r.store.pc j :=
    fun u pc hu j hj => by rw [← hu]; exact Function.update_of_ne hj _ _
  -- a call that is about no watch
  have haside : ∀ (u : State ι) (pc : Pc), pc.work = none → u.pc = r.store.pc → u.Owned = r.store.Owned →
      u.WatchList = r.store.WatchList → r.store.next ≤ u.next →
        ∃ H', Tracks H' { r with store := u.goto t pc } := by
    intro u pc hwork hpc howned hlist hnext
    refine ⟨H, h.same (fun w holder => ?_) hlist hnext rfl⟩
    cases holder with
    | owner =>
      rw [Held, Held]
      exact iff_of_eq (congrArg (fun Owned => Owned w = true) howned)
    | thread j work =>
      by_cases hj : j = t
      · subst hj
        rw [Held, Held, goto_pc, hwork, hidle]
      · rw [Held, Held]
        exact iff_of_eq (congrArg (fun pc => Pc.work pc = some (w, work)) (hne u pc hpc j hj))
  cases call with
  | access type args Transaction =>
    obtain rfl := Option.some.inj hs
    exact haside r.store _ rfl rfl rfl rfl le_rfl
  | start =>
    obtain rfl := Option.some.inj hs
    exact haside _ _ rfl rfl rfl rfl (Nat.le_succ _)
  | finish id Commit =>
    obtain rfl := Option.some.inj hs
    exact haside r.store _ rfl rfl rfl rfl le_rfl
  | add Caller Path =>
    simp only [callStep] at hs
    split_ifs at hs
    obtain rfl := Option.some.inj hs
    have hfresh : H r.store.next = none := by
      by_contra hsome
      exact absurd (h.next _ hsome) (Nat.lt_irrefl _)
    have hOwned : r.store.Owned r.store.next = false := h.not_owned (by simp [hfresh])
    have hunlogged := h.unlogged r.store.next (.inl le_rfl)
    have hnew : holderOf ({ r.store.setWatch r.store.next (some ⟨Caller, 0, Path, false⟩) with
        next := r.store.next + 1 }.goto t (.insert r.store.next)) t r.store.next =
        some (.thread t .inserting) := by
      simp [holderOf, Pc.work]
    refine ⟨_, h.moved [] (w := r.store.next) (held_update h.held (hne _ _ rfl) (fun _ _ => rfl)
      (fun v work hv => ?_) (fun v work hv => ?_) fun j work hj => ?_) (fun _ _ => Iff.rfl) ?_ (Nat.le_succ _)
      (Nat.lt_succ_self _) (List.append_nil _).symm (fun _ _ => ⟨by simp, by simp, by simp⟩) ?_
      fun _ _ _ _ => hunlogged⟩
    · rw [hidle] at hv
      cases hv
    · rw [goto_pc] at hv
      cases hv
      exact ⟨rfl, hOwned⟩
    · rw [hfresh] at hj
      cases hj
    · rw [hnew]
      refine iff_of_false (fun hmem => ?_) (by simp [Holder.listed])
      obtain ⟨holder, hholder, -⟩ := (h.list _).mp hmem
      rw [hfresh] at hholder
      cases hholder
    · rw [hnew]
      exact iff_of_false (fun hkept => hunlogged.not_added hkept.added) (by simp [Holder.kept])
  | remove w =>
    simp only [callStep] at hs
    split_ifs at hs with hOwned
    obtain rfl := Option.some.inj hs
    have hholder : H w = some .owner := (h.held w .owner).mp hOwned
    have hnew : holderOf ((r.store.own w false).goto t (.prepare (.remove w))) t w =
        some (.thread t .removing) := by
      simp [holderOf, Pc.work, Op.work]
    refine ⟨_, h.moved [] (w := w) (held_update h.held (hne _ _ rfl)
      (fun v hv => Function.update_of_ne hv _ _) (fun v work hv => ?_) (fun v work hv => ?_) fun j work hj => ?_)
      (fun _ _ => Iff.rfl) ?_ le_rfl (h.next w (by simp [hholder])) (List.append_nil _).symm
      (fun _ _ => ⟨by simp, by simp, by simp⟩) ?_ fun j work hj hwork => ?_⟩
    · rw [hidle] at hv
      cases hv
    · rw [goto_pc] at hv
      cases hv
      exact ⟨rfl, Function.update_self ..⟩
    · rw [hholder] at hj
      cases hj
    · rw [hnew]
      exact iff_of_true ((h.list w).mpr ⟨_, hholder, rfl⟩) ⟨_, rfl, rfl⟩
    · rw [hnew]
      exact iff_of_true ((h.kept w).mpr ⟨_, hholder, rfl⟩) ⟨_, rfl, rfl⟩
    · rw [hnew] at hj
      cases hj
      exact absurd rfl hwork

end Tracks

/-! ## Runs -/

variable {r r' : History ι}

/-- The invariant. -/
def Inv (r : History ι) : Prop := Listed r.store ∧ ∃ H, Tracks H r

omit [DecidableEq ι] in
theorem inv_init (RequestId WatchId : ℕ) : Inv (init RequestId WatchId : History ι) := by
  refine ⟨⟨?_, .nil, ?_, ?_, Nat.mod_lt _ (by decide)⟩, fun _ => none, ?_⟩
  · exact fun _ hw => by cases hw
  · exact fun _ hw => by cases hw
  · exact fun _ _ hwatch => by cases hwatch
  · constructor
    · exact fun w holder => iff_of_false (fun hheld => by cases holder <;> cases hheld) (by simp)
    · exact fun w => iff_of_false (fun hw => by cases hw) (by simp)
    · exact fun w hw => absurd rfl hw
    · exact fun w => iff_of_false (fun hkept => by cases hkept.added) (by simp)
    · exact fun w _ => ⟨List.not_mem_nil, List.not_mem_nil, List.not_mem_nil⟩

omit [DecidableEq ι] in
theorem Inv.new_not_mem (h : Inv r) : r.store.next ∉ r.store.WatchList := by
  obtain ⟨-, H, htracks⟩ := h
  intro hmem
  obtain ⟨holder, hholder, -⟩ := (htracks.list _).mp hmem
  exact absurd (htracks.next _ (by simp [hholder])) (Nat.lt_irrefl _)

theorem Inv.call (h : Inv r) (hbusy : (r.store.pc t).busy = false) {call : Call}
    (hs : callStep r.store t call = some s') : Inv { r with store := s' } := by
  have hnew := h.new_not_mem
  obtain ⟨hlisted, H, htracks⟩ := h
  refine ⟨?_, htracks.call hbusy hs⟩
  have haside : ∀ u : State ι, u.Watches = r.store.Watches → u.WatchList = r.store.WatchList →
      u.WatchId = r.store.WatchId → Listed u := fun u hmemory hlist hWatchId =>
    hlisted.same hlist hWatchId (hmemory ▸ hlisted.memory)
      fun w watch hwatch => ⟨watch, hmemory ▸ hwatch, rfl, rfl⟩
  cases call with
  | access | start | finish =>
    obtain rfl := Option.some.inj hs
    exact haside _ rfl rfl rfl
  | add Caller Path =>
    simp only [callStep] at hs
    split_ifs at hs with hlength
    obtain rfl := Option.some.inj hs
    exact hlisted.make ⟨Caller, 0, Path, false⟩ hnew hlength rfl rfl rfl
  | remove w =>
    simp only [callStep] at hs
    split_ifs at hs
    obtain rfl := Option.some.inj hs
    exact haside _ rfl rfl rfl

/-- **One section** of a thread. -/
theorem Inv.run (h : Inv r) (hs : runStep r.store t choice (r.store.pc t) = some s') :
    Inv ⟨s', r.log ++ outcome (r.store.pc t) (s'.pc t)⟩ := by
  obtain ⟨hlisted, H, htracks⟩ := h
  have hacc := runStep_cases hs
  have hhandled := access_handled hacc rfl hlisted.path
  refine ⟨hlisted.handled hhandled fun w hw hmem => ?_,
    htracks.handled hlisted hacc.frame rfl hhandled rfl⟩
  obtain ⟨holder, hholder, hin⟩ := (htracks.list w).mp hmem
  rw [htracks.holder_eq rfl hw] at hholder
  cases hholder
  cases hin

theorem Inv.step {e : Event ι} (h : Inv r) (hs : WatchIds.step r e = some r') : Inv r' := by
  have haside : ∀ u : State ι, u.WatchList = r.store.WatchList → u.pc = r.store.pc → u.Owned = r.store.Owned →
      u.next = r.store.next → Listed u → Inv { r with store := u } := by
    intro u hlist hpc howned hnext hlisted
    obtain ⟨-, H, htracks⟩ := h
    refine ⟨hlisted, H, htracks.same (fun w holder => ?_) hlist hnext.ge rfl⟩
    cases holder with
    | owner => rw [Held, Held, howned]
    | thread j work => rw [Held, Held, hpc]
  cases e with
  | add t Caller Prefix Node Watch Path =>
    simp only [WatchIds.step] at hs
    split_ifs at hs with hfree hchecked
    · simp only [not_or, Bool.not_eq_true] at hfree
      obtain ⟨u, hu, rfl⟩ := Option.map_eq_some_iff.mp hs
      exact h.call hfree.2 hu
    · obtain rfl := Option.some.inj hs
      exact h
  | act a =>
    obtain ⟨u, hu, rfl⟩ : ∃ u, Operations.step r.store a = some u ∧ r' = ⟨u, logged r u a⟩ := by
      unfold WatchIds.step at hs
      split at hs
      next heq => cases heq
      next heq => cases hs
      next heq =>
        cases heq
        obtain ⟨u, hu, hr⟩ := Option.map_eq_some_iff.mp hs
        exact ⟨u, hu, hr.symm⟩
    cases a with
    | call t call =>
      simp only [Operations.step] at hu
      split_ifs at hu with hfree
      simp only [not_or, Bool.not_eq_true] at hfree
      exact h.call hfree.2 hu
    | run t choice =>
      simp only [Operations.step] at hu
      split_ifs at hu
      exact h.run hu
    | poll =>
      simp only [Operations.step] at hu
      split_ifs at hu
      obtain rfl := Option.some.inj hu
      exact haside _ rfl rfl rfl rfl { h.1 with }
    | early =>
      simp only [Operations.step] at hu
      split_ifs at hu
      obtain rfl := Option.some.inj hu
      exact haside _ rfl rfl rfl rfl h.1.early
    | late =>
      simp only [Operations.step] at hu
      split_ifs at hu
      obtain rfl := Option.some.inj hu
      exact haside _ rfl rfl rfl rfl { h.1 with }

/-! ## The result -/

/-- The identifiers identify the watches. -/
structure Identified (r : History ι) : Prop where
  ids : ∀ w ∈ r.store.WatchList, ∀ w' ∈ r.store.WatchList, ∀ watch watch', r.store.Watches w = some watch →
    r.store.Watches w' = some watch' → watch.Id = watch'.Id → w = w'
  /-- A watch on the list has not been freed. -/
  linked : ∀ w ∈ r.store.WatchList, r.store.Watches w ≠ none
  nodup : r.store.WatchList.Nodup
  /-- The list has the watches that have been added, and neither removed nor failed, and those that a call of
  `StoreWatchAdd` is about. -/
  list : ∀ w, w ∈ r.store.WatchList ↔
    Kept r.log w ∨ ∃ t, (r.store.pc t).work = some (w, .adding)
  /-- `StoreNextWatchId` returns. -/
  next : r.store.WatchList.length < 65536 → storeNextWatchId r.store ≠ none
  /-- `StorePrepareRequest` succeeds in `StoreWatchAdd`. -/
  prepared : ∀ t w, r.store.pc t = .prepare (.add w) → ∀ choice, r.store.Lock = none →
    ∃ Request s', runStep r.store t choice (.prepare (.add w)) = some s' ∧
      s'.pc t = .submit (.add w) Request

theorem Inv.prepared (h : Inv r) {w : ℕ} (hpc : r.store.pc t = .prepare (.add w)) (choice : Choice)
    (hLock : r.store.Lock = none) :
    ∃ Request s', runStep r.store t choice (.prepare (.add w)) = some s' ∧
      s'.pc t = .submit (.add w) Request := by
  obtain ⟨hlisted, H, htracks⟩ := h
  have hmem : w ∈ r.store.WatchList :=
    (htracks.list w).mpr ⟨.thread t .adding, htracks.holder_eq hpc rfl, rfl⟩
  obtain ⟨watch, hwatch⟩ := Option.ne_none_iff_exists'.mp (hlisted.memory w hmem)
  have hsome := prepared_of_watch (hlisted.path w watch hwatch) r.store.RequestId
  obtain ⟨Request, hRequest⟩ := Option.ne_none_iff_exists'.mp hsome
  have hrequest : request r.store (.add w) = some (XS_WATCH, [watch.Path, [0], watch.Token, [0]], none) := by
    simp [request, hwatch]
  have hrun : runStep r.store t choice (.prepare (.add w)) = prepare r.store t (.add w) := by
    simp [runStep, hLock]
  rw [hrun, prepare, hrequest]
  simp only [Option.map_some, hRequest]
  exact ⟨Request, _, rfl, goto_pc ..⟩

theorem Inv.identified (h : Inv r) : Identified r where
  ids := h.1.ids
  linked := h.1.memory
  nodup := h.1.nodup
  list w := by
    obtain ⟨-, H, htracks⟩ := h
    rw [htracks.list w, htracks.kept w]
    constructor
    · intro ⟨holder, hholder, hin⟩
      match holder, hin with
      | .owner, _ => exact .inl ⟨_, hholder, rfl⟩
      | .thread t .removing, _ => exact .inl ⟨_, hholder, rfl⟩
      | .thread t .adding, _ => exact .inr ⟨t, (htracks.held w (.thread t .adding)).mpr hholder⟩
    · rintro (⟨holder, hholder, hkept⟩ | ⟨t, ht⟩)
      · match holder, hkept with
        | .owner, _ => exact ⟨_, hholder, rfl⟩
        | .thread t .removing, _ => exact ⟨_, hholder, rfl⟩
      · exact ⟨_, (htracks.held w (.thread t .adding)).mp ht, rfl⟩
  next hlength := storeNextWatchId_ne_none hlength h.1.WatchId
  prepared t w hpc choice hLock := h.prepared hpc choice hLock

/-- **Watch identifiers identify watches** in every state of every run. -/
theorem watches_of_reaches {RequestId WatchId : ℕ} (h : Reaches step Free (init RequestId WatchId : History ι) r) :
    Identified r :=
  (h.invariant (inv_init RequestId WatchId) fun _ _ _ hinv _ hs => hinv.step hs).identified

/-- A thread adds a watch, with the outcome of its request. -/
def addition (Node : List UInt8) (outcome : List (Action Unit)) : List (Event Unit) :=
  .add () 5 (some [47, 97]) Node true true :: .act (.run () .submit) :: .act (.run () .submit) ::
    outcome.map .act

/-- Two watches are added; the path of a third is too long, and there is no memory for the request of a
fourth; the first is removed after a suspend. -/
def additions : List (Event Unit) :=
  addition [98] [.run () .submit, .run () .poll, .run () (.answer .success 0)] ++
    addition [99] [.run () .submit, .run () .poll, .run () (.answer .success 0)] ++
    [.add () 5 none (List.replicate 3072 47) true true] ++ addition [100] [.run () .noMemory, .run () .submit] ++
    [.act .early, .act .late, .act (.call () (.remove 0)), .act (.run () .submit)]

theorem watches_of_additions : ∃ r : History Unit, Reaches step Free (init 65535 65535) r ∧ Identified r ∧
    r.store.WatchList = [1] ∧ r.log = [.added 0, .added 1, .failed 2, .removed 0] := by
  obtain ⟨r, hr, hend⟩ := (Option.any_eq_true (fun r : History Unit =>
      decide (r.store.WatchList = [1] ∧ r.log = [.added 0, .added 1, .failed 2, .removed 0]))
    (run step (init 65535 65535) additions)).mp (by decide +kernel)
  obtain ⟨hlist, hlog⟩ := of_decide_eq_true hend
  have h := reaches_of_run hr
  exact ⟨r, h, watches_of_reaches h, hlist, hlog⟩

end XenBus.Store.WatchIds
