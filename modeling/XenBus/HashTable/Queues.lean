import XenBus.HashTable.Table
import XenBus.Foundations.KeyedQueue
import XenBus.Foundations.Placement
import Mathlib.Tactic.Linarith

/-!
# The hash table is a map from keys to queues

What the table is for: a queue of values for every key, on which a call has its effect at one moment
between its start and its return (`Queues.step`). `refines_queues` says that every step of the table is a step on
the queues, or is not seen there; colliding keys share a list, but not a queue.

A node goes from the thread that adds it to a bucket, to the thread that removes it, to the hidden list,
to a DPC and out of memory (`Next`), one place at a time.
-/

namespace XenBus.HashTable

open Transition Placement KeyedQueue

/-! ## Queues -/

namespace Queues

open Table (Op)

/-- A call as its caller sees it: its result is decided before it returns. -/
inductive Phase
  | idle
  | pending (op : Op)
  | decided (status : Status) (Value : Option (BitVec 64))
  deriving DecidableEq

/-- The values under each key, oldest first, and the calls. -/
structure State (τ : Type) where
  queues : BitVec 64 → List (BitVec 64)
  phase : τ → Phase

/-- The result of a call and its effect on the queues. -/
def apply (queues : BitVec 64 → List (BitVec 64)) (memory : Bool) :
    Op → Status × Option (BitVec 64) × (BitVec 64 → List (BitVec 64))
  | .add Key Value =>
    if memory then (.success, none, Function.update queues Key (queues Key ++ [Value]))
    else (.noMemory, none, queues)
  | .remove Key =>
    match queues Key with
    | [] => (.objectNameNotFound, none, queues)
    | _ :: rest => (.success, none, Function.update queues Key rest)
  | .lookup Key =>
    match queues Key with
    | [] => (.objectNameNotFound, none, queues)
    | Value :: _ => (.success, some Value, queues)

inductive Action (τ : Type)
  | call (t : τ) (op : Op)
  /-- The call has its effect. -/
  | decide (t : τ) (memory : Bool)

variable {τ : Type} [DecidableEq τ]

/-- A step on the queues. -/
def step (s : State τ) : Action τ → Option (State τ)
  | .call t op =>
    match s.phase t with
    | .pending _ => none
    | _ => some { s with phase := Function.update s.phase t (.pending op) }
  | .decide t memory =>
    match s.phase t with
    | .pending op =>
      let (status, Value, queues) := apply s.queues memory op
      some ⟨queues, Function.update s.phase t (.decided status Value)⟩
    | _ => none

def init : State τ := ⟨fun _ => [], fun _ => .idle⟩

theorem step_decide {s : State τ} {t : τ} {op : Op} (h : s.phase t = .pending op) (memory : Bool) :
    step s (.decide t memory) = some ⟨(apply s.queues memory op).2.2,
      Function.update s.phase t
        (.decided (apply s.queues memory op).1 (apply s.queues memory op).2.1)⟩ := by
  simp only [step, h]

end Queues

namespace Table

variable {τ κ : Type} [DecidableEq τ] [DecidableEq κ] {s s' : State τ κ} {t : τ} {c : κ}

/-! ## The table as queues -/

/-- The key and the value of a node. -/
def entry (nodes : ℕ → Option Node) (n : ℕ) : Option (BitVec 64 × BitVec 64) :=
  (nodes n).map fun node => (node.Key, node.Value)

/-- The queue of a key. -/
def State.queues (s : State τ κ) (Key : BitVec 64) : List (BitVec 64) :=
  queue (entry s.nodes) Key (s.Bucket (bucketOf Key))

/-- A call has its effect when its node comes to the bucket, or leaves it. -/
def Pc.phase : Pc → Queues.Phase
  | .idle => .idle
  | .add Key Value | .insert Key Value _ => .pending (.add Key Value)
  | .remove Key => .pending (.remove Key)
  | .hide _ | .queue => .decided .success none
  | .lookup Key => .pending (.lookup Key)
  | .returned status Value => .decided status Value

def State.abs (s : State τ κ) : Queues.State τ := ⟨s.queues, fun t => (s.pc t).phase⟩

theorem entry_eq {nodes : ℕ → Option Node} {n : ℕ} {Key Value : BitVec 64}
    (h : nodes n = some ⟨Key, Value⟩) : entry nodes n = some (Key, Value) := by simp [entry, h]

/-! ## The loop over a bucket -/

/-- No node with the key is in the list. -/
def Absent (nodes : ℕ → Option Node) (Key : BitVec 64) (list : List ℕ) : Prop :=
  ∀ n ∈ list, valueOf (entry nodes) Key n = none

/-- The node is the first in the list with the key. -/
def First (nodes : ℕ → Option Node) (Key : BitVec 64) (list : List ℕ) (n : ℕ) : Prop :=
  ∃ pre post Value, list = pre ++ n :: post ∧ nodes n = some ⟨Key, Value⟩ ∧ Absent nodes Key pre

theorem absent_cons {nodes : ℕ → Option Node} {Key : BitVec 64} {n : ℕ} {list : List ℕ} {node : Node}
    (hn : nodes n = some node) (hKey : node.Key ≠ Key) (h : Absent nodes Key list) :
    Absent nodes Key (n :: list) := by
  intro m hm
  obtain rfl | hm := List.mem_cons.mp hm
  · exact valueOf_of_ne (entry_eq hn) hKey
  · exact h m hm

/-- What the loop finds. -/
theorem find_spec (nodes : ℕ → Option Node) (Key : BitVec 64) (list : List ℕ) :
    (∀ n, find nodes Key list = some (some n) → First nodes Key list n) ∧
      (find nodes Key list = some none → Absent nodes Key list) := by
  induction list with
  | nil => exact ⟨fun n h => by simp [find] at h, fun _ n hn => by cases hn⟩
  | cons m list ih =>
    cases hm : nodes m with
    | none => simp [find, hm]
    | some node =>
      simp only [find, hm, Option.bind_some]
      split_ifs with hKey
      · subst hKey
        refine ⟨fun n h => ?_, fun h => by simp at h⟩
        obtain rfl : m = n := by simpa using h
        exact ⟨[], list, node.Value, rfl, hm, fun _ hn => by cases hn⟩
      · refine ⟨fun n h => ?_, fun h => absent_cons hm hKey (ih.2 h)⟩
        obtain ⟨pre, post, Value, rfl, hn, hpre⟩ := ih.1 n h
        exact ⟨m :: pre, post, Value, rfl, hn, absent_cons hm hKey hpre⟩

/-- The loop ends if the list is in memory. -/
theorem find_ne_none {nodes : ℕ → Option Node} {Key : BitVec 64} {list : List ℕ}
    (h : ∀ n ∈ list, nodes n ≠ none) : ∃ found, find nodes Key list = some found := by
  induction list with
  | nil => exact ⟨none, rfl⟩
  | cons m list ih =>
    obtain ⟨node, hm⟩ := Option.ne_none_iff_exists'.mp (h m List.mem_cons_self)
    obtain ⟨found, hfound⟩ := ih fun n hn => h n (List.mem_cons_of_mem _ hn)
    simp only [find, hm, Option.bind_some]
    split_ifs
    · exact ⟨_, rfl⟩
    · exact ⟨found, hfound⟩

/-! ## What a step can do -/

/-- The steps of a call, from a place to a state. -/
inductive Access (s : State τ κ) (t : τ) (memory : Bool) : Pc → State τ κ → Prop
  | noMemory {Key Value : BitVec 64} (hmemory : memory = false) :
      Access s t memory (.add Key Value) (s.goto t (.returned .noMemory none))
  | allocated {Key Value : BitVec 64} : Access s t memory (.add Key Value) ({ s with
      nodes := Function.update s.nodes s.next (some ⟨Key, Value⟩)
      next := s.next + 1 }.goto t (.insert Key Value s.next))
  | inserted {Key Value : BitVec 64} {n : ℕ} : Access s t memory (.insert Key Value n)
      ((s.setBucket (bucketOf Key) (s.Bucket (bucketOf Key) ++ [n])).goto t (.returned .success none))
  | notRemoved {Key : BitVec 64} (habsent : Absent s.nodes Key (s.Bucket (bucketOf Key))) :
      Access s t memory (.remove Key) (s.goto t (.returned .objectNameNotFound none))
  | removed {Key : BitVec 64} {n : ℕ} (hfirst : First s.nodes Key (s.Bucket (bucketOf Key)) n) :
      Access s t memory (.remove Key)
        ((s.setBucket (bucketOf Key) ((s.Bucket (bucketOf Key)).erase n)).goto t (.hide n))
  | hidden {n : ℕ} : Access s t memory (.hide n) ({ s with Hidden := s.Hidden ++ [n] }.goto t .queue)
  | queued : Access s t memory .queue ({ s with Queued := true }.goto t (.returned .success none))
  | notFound {Key : BitVec 64} (habsent : Absent s.nodes Key (s.Bucket (bucketOf Key))) :
      Access s t memory (.lookup Key) (s.goto t (.returned .objectNameNotFound none))
  | found {Key : BitVec 64} {n : ℕ} {node : Node}
      (hfirst : First s.nodes Key (s.Bucket (bucketOf Key)) n) (hn : s.nodes n = some node) :
      Access s t memory (.lookup Key) (s.goto t (.returned .success (some node.Value)))

/-- The steps of the DPC. -/
inductive DpcAccess (s : State τ κ) (c : κ) : Dpc → State τ κ → Prop
  | started : DpcAccess s c .idle ({ s with Queued := false }.godpc c .steal)
  | stolen : DpcAccess s c .steal ({ s with Hidden := [] }.godpc c (.free s.Hidden))
  | ended : DpcAccess s c (.free []) (s.godpc c .idle)
  | freed {n : ℕ} {list : List ℕ} : DpcAccess s c (.free (n :: list)) ({ s with
      nodes := Function.update s.nodes n none
      Freed := s.Freed ++ [n] }.godpc c (.free list))

omit [DecidableEq κ] in
theorem runStep_cases {memory : Bool} {pc : Pc} (hs : runStep s t memory pc = some s') :
    Access s t memory pc s' := by
  cases pc with
  | idle | returned => cases hs
  | add Key Value =>
    simp only [runStep] at hs
    split_ifs at hs with hmemory
    · cases hs
      exact .allocated
    · cases hs
      exact .noMemory (by simpa using hmemory)
  | insert Key Value n =>
    obtain ⟨node, -, rfl⟩ := Option.map_eq_some_iff.mp hs
    exact .inserted
  | remove Key =>
    obtain ⟨found, hfind, hs⟩ := Option.map_eq_some_iff.mp hs
    obtain ⟨hfirst, habsent⟩ := find_spec s.nodes Key (s.Bucket (bucketOf Key))
    cases found with
    | none =>
      subst hs
      exact .notRemoved (habsent hfind)
    | some n =>
      subst hs
      exact .removed (hfirst n hfind)
  | hide n =>
    obtain ⟨node, -, rfl⟩ := Option.map_eq_some_iff.mp hs
    exact .hidden
  | queue =>
    cases hs
    exact .queued
  | lookup Key =>
    obtain ⟨found, hfind, hs⟩ := Option.bind_eq_some_iff.mp hs
    obtain ⟨hfirst, habsent⟩ := find_spec s.nodes Key (s.Bucket (bucketOf Key))
    cases found with
    | none =>
      cases hs
      exact .notFound (habsent hfind)
    | some n =>
      obtain ⟨node, hn, rfl⟩ := Option.map_eq_some_iff.mp hs
      exact .found (hfirst n hfind) hn

omit [DecidableEq τ] in
theorem dpcStep_cases {dpc : Dpc} (hs : dpcStep s c dpc = some s') : DpcAccess s c dpc s' := by
  cases dpc with
  | idle =>
    simp only [dpcStep] at hs
    split_ifs at hs
    cases hs
    exact .started
  | steal =>
    cases hs
    exact .stolen
  | free list =>
    cases list with
    | nil =>
      cases hs
      exact .ended
    | cons n list =>
      obtain ⟨node, -, rfl⟩ := Option.map_eq_some_iff.mp hs
      exact .freed

/-! ## Where a node is -/

/-- The places of a node. -/
inductive Place (τ κ : Type)
  | adding (t : τ)
  | linked (b : Fin NR_BUCKETS)
  | removed (t : τ)
  | hidden
  | stolen (c : κ)
  | freed
  deriving DecidableEq

/-- The way of a node. -/
inductive Next : Place τ κ → Place τ κ → Prop
  | linked (t : τ) (b : Fin NR_BUCKETS) : Next (.adding t) (.linked b)
  | removed (b : Fin NR_BUCKETS) (t : τ) : Next (.linked b) (.removed t)
  | hidden (t : τ) : Next (.removed t) .hidden
  | stolen (c : κ) : Next .hidden (.stolen c)
  | freed (c : κ) : Next (.stolen c) .freed

def Pc.adding : Pc → List ℕ
  | .insert _ _ n => [n]
  | _ => []

def Pc.removed : Pc → List ℕ
  | .hide n => [n]
  | _ => []

def Dpc.stolen : Dpc → List ℕ
  | .free list => list
  | _ => []

/-- The nodes in a place. -/
def State.holds (s : State τ κ) : Place τ κ → List ℕ
  | .adding t => (s.pc t).adding
  | .linked b => s.Bucket b
  | .removed t => (s.pc t).removed
  | .hidden => s.Hidden
  | .stolen c => (s.dpc c).stolen
  | .freed => s.Freed

theorem holds_goto (s : State τ κ) (t : τ) (pc : Pc) : (s.goto t pc).holds =
    Function.update (Function.update s.holds (.adding t) pc.adding) (.removed t) pc.removed := by
  funext k
  cases k with
  | adding t' | removed t' =>
    by_cases ht : t' = t
    · subst ht
      simp [State.holds, State.goto]
    · simp [State.holds, State.goto, ht]
  | _ => simp [State.holds, State.goto]

theorem holds_godpc (s : State τ κ) (c : κ) (dpc : Dpc) :
    (s.godpc c dpc).holds = Function.update s.holds (.stolen c) dpc.stolen := by
  funext k
  cases k with
  | stolen c' =>
    by_cases hc : c' = c
    · subst hc
      simp [State.holds, State.godpc]
    · simp [State.holds, State.godpc, hc]
  | _ => simp [State.holds, State.godpc]

theorem holds_setBucket (s : State τ κ) (b : Fin NR_BUCKETS) (list : List ℕ) :
    (s.setBucket b list).holds = Function.update s.holds (.linked b) list := by
  funext k
  cases k <;> simp [State.holds, State.setBucket, Function.update_apply]

theorem holds_Hidden (s : State τ κ) (list : List ℕ) :
    { s with Hidden := list }.holds = Function.update s.holds .hidden list := by
  funext k
  cases k <;> simp [State.holds]

theorem holds_Freed (s : State τ κ) (nodes : ℕ → Option Node) (list : List ℕ) :
    { s with
      nodes := nodes
      Freed := list }.holds = Function.update s.holds .freed list := by
  funext k
  cases k <;> simp [State.holds]

/-! ## The nodes go their way -/

theorem holds_goto_same (u : State τ κ) {pc : Pc} (hadding : u.holds (.adding t) = pc.adding)
    (hremoved : u.holds (.removed t) = pc.removed) : (u.goto t pc).holds = u.holds := by
  rw [holds_goto, ← hadding, Function.update_eq_self, ← hremoved, Function.update_eq_self]

theorem holds_godpc_same (u : State τ κ) {dpc : Dpc} (hstolen : u.holds (.stolen c) = dpc.stolen) :
    (u.godpc c dpc).holds = u.holds := by
  rw [holds_godpc, ← hstolen, Function.update_eq_self]

theorem holds_goto_adding (u : State τ κ) (pc : Pc) (hremoved : u.holds (.removed t) = pc.removed) :
    (u.goto t pc).holds = Function.update u.holds (.adding t) pc.adding := by
  rw [holds_goto, Function.update_comm (by simp), ← hremoved, Function.update_eq_self]

theorem holds_goto_removed (u : State τ κ) (pc : Pc) (hadding : u.holds (.adding t) = pc.adding) :
    (u.goto t pc).holds = Function.update u.holds (.removed t) pc.removed := by
  rw [holds_goto, ← hadding, Function.update_eq_self]

/-- The invariant. -/
structure Sound (s : State τ κ) : Prop where
  tracked : Tracked s.holds (· < s.next)
  placed : ∀ n < s.next, ∃ k, n ∈ s.holds k
  memory : ∀ n, n < s.next → n ∉ s.Freed → s.nodes n ≠ none
  adding : ∀ t Key Value n, s.pc t = .insert Key Value n → s.nodes n = some ⟨Key, Value⟩
  scheduled : s.Hidden ≠ [] → s.Queued = true ∨ (∃ t, s.pc t = .queue) ∨ ∃ c, s.dpc c = .steal

theorem Access.move {memory : Bool} {pc : Pc} (hacc : Access s t memory pc s') (hpc : s.pc t = pc)
    (h : Sound s) : Move Next (· < s'.next) s.holds s'.holds := by
  have hadding : s.holds (.adding t) = pc.adding := congrArg Pc.adding hpc
  have hremoved : s.holds (.removed t) = pc.removed := congrArg Pc.removed hpc
  cases hacc with
  | noMemory | notRemoved | notFound | found =>
    exact .same (congrFun (holds_goto_same s hadding hremoved))
  | queued => exact .same (congrFun (holds_goto_same { s with Queued := true } hadding hremoved))
  | @allocated Key Value =>
    have hnone : ∀ k, s.next ∉ s.holds k := fun k hk => lt_irrefl _ (h.tracked.mark k _ hk)
    rw [holds_goto_adding { s with
      nodes := Function.update s.nodes s.next (some ⟨Key, Value⟩)
      next := s.next + 1 } (.insert Key Value s.next) hremoved]
    apply Move.new s.next (.adding t) hnone
    · rw [Function.update_self, hadding]
      rfl
    · exact fun k hk => Function.update_of_ne hk _ _
    · exact Nat.lt_succ_self s.next
  | @inserted Key Value n =>
    rw [holds_goto_adding (s.setBucket _ _) (.returned .success none) hremoved, holds_setBucket]
    apply Move.of_update (.linked t _) (by simp)
    · rw [hadding]
      rfl
    · exact List.perm_append_singleton n _
  | @removed Key n hfirst =>
    obtain ⟨pre, post, Value, hlist, -, -⟩ := hfirst
    rw [holds_goto_removed (s.setBucket _ _) (.hide n) hadding, holds_setBucket,
      Function.update_comm (by simp)]
    apply Move.of_update (.removed _ t) (by simp)
    · apply List.perm_cons_erase
      change n ∈ s.Bucket _
      rw [hlist]
      simp
    · rw [hremoved]
      rfl
  | @hidden n =>
    rw [holds_goto_removed { s with Hidden := s.Hidden ++ [n] } .queue hadding,
      holds_Hidden s (s.Hidden ++ [n])]
    apply Move.of_update (.hidden t) (by simp)
    · rw [hremoved]
      rfl
    · exact List.perm_append_singleton n _

theorem DpcAccess.move {dpc : Dpc} (hacc : DpcAccess s c dpc s') (hdpc : s.dpc c = dpc) :
    Move Next (· < s'.next) s.holds s'.holds := by
  have hstolen : s.holds (.stolen c) = dpc.stolen := congrArg Dpc.stolen hdpc
  cases hacc with
  | started => exact .same (congrFun (holds_godpc_same { s with Queued := false } hstolen))
  | ended => exact .same (congrFun (holds_godpc_same s hstolen))
  | stolen =>
    rw [holds_godpc, holds_Hidden s []]
    apply Move.all .hidden (.stolen c) (.stolen c) (by simp) hstolen
    · rw [Function.update_of_ne (by simp), Function.update_self]
    · rw [Function.update_self]
      rfl
    · intro k hk hk'
      rw [Function.update_of_ne hk', Function.update_of_ne hk]
  | @freed n list =>
    rw [holds_godpc, holds_Freed s _ (s.Freed ++ [n])]
    apply Move.of_update (.freed c) (by simp)
    · rw [hstolen]
      rfl
    · exact List.perm_append_singleton n _

omit [DecidableEq κ] in
theorem goto_pc (s : State τ κ) (t : τ) (pc : Pc) : (s.goto t pc).pc t = pc := Function.update_self ..

omit [DecidableEq κ] in
theorem goto_pc_ne (s : State τ κ) {t j : τ} (hj : j ≠ t) (pc : Pc) : (s.goto t pc).pc j = s.pc j :=
  Function.update_of_ne hj ..

/-- What a step of a call leaves as it is. -/
structure Frame (t : τ) (s s' : State τ κ) : Prop where
  pc : ∀ j, j ≠ t → s'.pc j = s.pc j
  dpc : s'.dpc = s.dpc
  freed : s'.Freed = s.Freed
  next : s.next ≤ s'.next
  nodes : ∀ n < s.next, s'.nodes n = s.nodes n

omit [DecidableEq κ] in
theorem Access.frame {memory : Bool} {pc : Pc} (hacc : Access s t memory pc s') : Frame t s s' := by
  cases hacc with
  | allocated =>
    exact ⟨fun _ hj => goto_pc_ne _ hj _, rfl, rfl, Nat.le_succ _, fun _ hn =>
      Function.update_of_ne hn.ne _ _⟩
  | _ => exact ⟨fun _ hj => goto_pc_ne _ hj _, rfl, rfl, le_rfl, fun _ _ => rfl⟩

omit [DecidableEq τ] [DecidableEq κ] in
/-- A node in a place before the last is in memory. -/
theorem Sound.mem (h : Sound s) {k : Place τ κ} {n : ℕ} (hk : n ∈ s.holds k) (hfreed : k ≠ .freed) :
    s.nodes n ≠ none :=
  h.memory n (h.tracked.mark k n hk) fun hn => hfreed (h.tracked.apart k .freed n hk hn)

omit [DecidableEq τ] [DecidableEq κ] in
theorem Sound.entry (h : Sound s) (hframe : ∀ n < s.next, s'.nodes n = s.nodes n) (b : Fin NR_BUCKETS) :
    ∀ n ∈ s.Bucket b, Table.entry s'.nodes n = Table.entry s.nodes n := by
  intro n hn
  rw [Table.entry, Table.entry, hframe n (h.tracked.mark (.linked b) n hn)]

theorem Sound.access {memory : Bool} {pc : Pc} (h : Sound s) (hacc : Access s t memory pc s')
    (hpc : s.pc t = pc) : Sound s' := by
  have hframe := hacc.frame
  have hmove := hacc.move hpc h
  constructor
  case tracked => exact hmove.tracked h.tracked fun _ hn => hn.trans_le hframe.next
  case placed =>
    intro n hn
    by_cases hlt : n < s.next
    · obtain ⟨k, hk⟩ := h.placed n hlt
      exact hmove.kept hk
    · cases hacc with
      | @allocated Key Value =>
        obtain rfl : n = s.next := by
          change n < s.next + 1 at hn
          omega
        refine ⟨.adding t, ?_⟩
        change s.next ∈ (Function.update s.pc t _ t).adding
        rw [Function.update_self]
        exact List.mem_singleton_self _
      | _ => exact absurd hn hlt
  case memory =>
    intro n hn hfreed
    by_cases hlt : n < s.next
    · rw [hframe.nodes n hlt]
      exact h.memory n hlt (hframe.freed ▸ hfreed)
    · cases hacc with
      | @allocated Key Value =>
        obtain rfl : n = s.next := by
          change n < s.next + 1 at hn
          omega
        change Function.update s.nodes s.next _ s.next ≠ none
        rw [Function.update_self]
        exact Option.some_ne_none _
      | _ => exact absurd hn hlt
  case adding =>
    intro j Key Value n hj
    by_cases hjt : j = t
    · subst hjt
      cases hacc
      case allocated =>
        rw [goto_pc] at hj
        cases hj
        exact Function.update_self ..
      all_goals
        rw [goto_pc] at hj
        cases hj
    · rw [hframe.pc j hjt] at hj
      have hn : n ∈ s.holds (.adding j) := by
        change n ∈ (s.pc j).adding
        rw [hj]
        exact List.mem_singleton_self n
      rw [hframe.nodes n (h.tracked.mark _ n hn)]
      exact h.adding j Key Value n hj
  case scheduled =>
    intro hne
    -- another thread or a CPU is still to come
    have hstay : pc ≠ .queue → s'.Hidden = s.Hidden → s'.Queued = s.Queued →
        s'.Queued = true ∨ (∃ t, s'.pc t = .queue) ∨ ∃ c, s'.dpc c = .steal := by
      intro hqueue hHidden hQueued
      obtain hq | ⟨j, hj⟩ | ⟨c, hc⟩ := h.scheduled (hHidden ▸ hne)
      · exact .inl (hQueued ▸ hq)
      · refine .inr (.inl ⟨j, ?_⟩)
        rw [hframe.pc j fun hjt => hqueue (by rw [← hpc, ← hjt, hj])]
        exact hj
      · exact .inr (.inr ⟨c, by rw [hframe.dpc]; exact hc⟩)
    cases hacc
    case hidden => exact .inr (.inl ⟨t, goto_pc ..⟩)
    case queued => exact .inl rfl
    all_goals exact hstay (by simp) rfl rfl

omit [DecidableEq τ] in
theorem godpc_dpc_ne (s : State τ κ) {c c' : κ} (hc : c' ≠ c) (dpc : Dpc) :
    (s.godpc c dpc).dpc c' = s.dpc c' := Function.update_of_ne hc ..

theorem Sound.dpc {dpc : Dpc} (h : Sound s) (hacc : DpcAccess s c dpc s') (hdpc : s.dpc c = dpc) :
    Sound s' := by
  have hmove := hacc.move hdpc
  have hnext : s'.next = s.next := by cases hacc <;> rfl
  have hpc : s'.pc = s.pc := by cases hacc <;> rfl
  constructor
  case tracked => exact hmove.tracked h.tracked fun _ hn => hn.trans_le hnext.ge
  case placed =>
    intro n hn
    obtain ⟨k, hk⟩ := h.placed n (hn.trans_le hnext.le)
    exact hmove.kept hk
  case memory =>
    intro n hn hfreed
    rw [hnext] at hn
    cases hacc with
    | @freed m list =>
      simp only [State.godpc, List.mem_append, List.mem_singleton, not_or] at hfreed
      change Function.update s.nodes m none n ≠ none
      rw [Function.update_of_ne hfreed.2]
      exact h.memory n hn hfreed.1
    | _ => exact h.memory n hn hfreed
  case adding =>
    intro j Key Value n hj
    rw [hpc] at hj
    have hn := h.adding j Key Value n hj
    cases hacc with
    | @freed m list =>
      -- a thread does not add a node that the DPC has
      have hne : n ≠ m := by
        rintro rfl
        have hadding : n ∈ s.holds (.adding j) := by
          change n ∈ (s.pc j).adding
          rw [hj]
          exact List.mem_singleton_self n
        have hstolen : n ∈ s.holds (.stolen c) := by
          change n ∈ (s.dpc c).stolen
          rw [hdpc]
          exact List.mem_cons_self
        cases h.tracked.apart _ _ n hadding hstolen
      change Function.update s.nodes m none n = _
      rwa [Function.update_of_ne hne]
    | _ => exact hn
  case scheduled =>
    intro hne
    cases hacc
    case started => exact .inr (.inr ⟨c, Function.update_self ..⟩)
    case stolen => exact absurd rfl hne
    all_goals
      obtain hq | ht | ⟨c', hc⟩ := h.scheduled hne
      · exact .inl hq
      · exact .inr (.inl ht)
      · refine .inr (.inr ⟨c', ?_⟩)
        rw [godpc_dpc_ne _ fun heq => by rw [heq, hdpc] at hc; cases hc]
        exact hc

/-! ## The table refines the queues -/

omit [DecidableEq τ] [DecidableEq κ] in
theorem queues_eq_nil {Key : BitVec 64} (h : Absent s.nodes Key (s.Bucket (bucketOf Key))) :
    s.queues Key = [] := queue_eq_nil h

omit [DecidableEq τ] [DecidableEq κ] in
theorem queues_setBucket (b : Fin NR_BUCKETS) (list : List ℕ) (k : BitVec 64) :
    (s.setBucket b list).queues k =
      queue (entry s.nodes) k (Function.update s.Bucket b list (bucketOf k)) := rfl

omit [DecidableEq τ] [DecidableEq κ] in
/-- A node that comes to its bucket comes to the queue of its key, and to no other. -/
theorem queues_insert {Key Value : BitVec 64} {n : ℕ} (hn : s.nodes n = some ⟨Key, Value⟩) :
    (s.setBucket (bucketOf Key) (s.Bucket (bucketOf Key) ++ [n])).queues =
      Function.update s.queues Key (s.queues Key ++ [Value]) := by
  funext k
  rw [queues_setBucket]
  by_cases hk : k = Key
  · subst hk
    rw [Function.update_self, Function.update_self, queue_concat (entry_eq hn), State.queues]
  · rw [Function.update_of_ne hk, State.queues]
    by_cases hb : bucketOf k = bucketOf Key
    · rw [hb, Function.update_self, queue_concat_of_ne (entry_eq hn) (Ne.symm hk)]
    · rw [Function.update_of_ne hb]

omit [DecidableEq τ] [DecidableEq κ] in
/-- The first node with a key is the oldest value in its queue; without it the queue has lost that value,
and no other queue has changed. -/
theorem queues_erase {Key : BitVec 64} {n : ℕ} (hnodup : (s.Bucket (bucketOf Key)).Nodup)
    (hfirst : First s.nodes Key (s.Bucket (bucketOf Key)) n) :
    ∃ Value rest, s.nodes n = some ⟨Key, Value⟩ ∧ s.queues Key = Value :: rest ∧
      (s.setBucket (bucketOf Key) ((s.Bucket (bucketOf Key)).erase n)).queues =
        Function.update s.queues Key rest := by
  obtain ⟨pre, post, Value, hlist, hn, hpre⟩ := hfirst
  have herase : (s.Bucket (bucketOf Key)).erase n = pre ++ post := by
    rw [hlist] at hnodup ⊢
    have hnot : n ∉ pre := fun hmem =>
      (List.nodup_append.mp hnodup).2.2 n hmem n List.mem_cons_self rfl
    rw [List.erase_append_right _ hnot, List.erase_cons_head]
  refine ⟨Value, queue (entry s.nodes) Key (pre ++ post), hn, ?_, ?_⟩
  · rw [State.queues, hlist]
    exact queue_split hpre (entry_eq hn)
  · funext k
    rw [queues_setBucket]
    by_cases hk : k = Key
    · subst hk
      rw [Function.update_self, Function.update_self, herase]
    · rw [Function.update_of_ne hk, State.queues]
      by_cases hb : bucketOf k = bucketOf Key
      · rw [hb, Function.update_self, herase, hlist]
        exact (queue_split_of_ne (entry_eq hn) (Ne.symm hk)).symm
      · rw [Function.update_of_ne hb]

omit [DecidableEq κ] in
/-- A step in which a call has its effect. -/
theorem decides {op : Op} {pc pc' : Pc} (hpc : s.pc t = pc) (hop : pc.phase = .pending op)
    (memory : Bool) (u : State τ κ) (hu : u.pc = s.pc)
    (hqueues : u.queues = (Queues.apply s.queues memory op).2.2)
    (hphase : pc'.phase = .decided (Queues.apply s.queues memory op).1
      (Queues.apply s.queues memory op).2.1) :
    Queues.step s.abs (.decide t memory) = some (u.goto t pc').abs := by
  have hpending : s.abs.phase t = .pending op := by
    change (s.pc t).phase = _
    rw [hpc, hop]
  rw [Queues.step_decide hpending, Option.some_inj]
  change Queues.State.mk _ _ = Queues.State.mk _ _
  congr 1
  · exact hqueues.symm
  · funext j
    change Function.update s.abs.phase t _ j = (Function.update u.pc t pc' j).phase
    by_cases hjt : j = t
    · rw [hjt, Function.update_self, Function.update_self, hphase]
      rfl
    · rw [Function.update_of_ne hjt, Function.update_of_ne hjt, hu]
      rfl

omit [DecidableEq κ] in
/-- A step that is not seen. -/
theorem stutters {pc pc' : Pc} (hpc : s.pc t = pc) (hphase : pc'.phase = pc.phase) (u : State τ κ)
    (hu : u.pc = s.pc) (hqueues : u.queues = s.queues) : (u.goto t pc').abs = s.abs := by
  change Queues.State.mk _ _ = Queues.State.mk _ _
  congr 1
  funext j
  change (Function.update u.pc t pc' j).phase = (s.pc j).phase
  by_cases hjt : j = t
  · rw [hjt, Function.update_self, hphase, hpc]
  · rw [Function.update_of_ne hjt, hu]

omit [DecidableEq κ] in
/-- A step of a call has its effect on the queues, or is not seen. -/
theorem Access.simulates {memory : Bool} {pc : Pc} (hacc : Access s t memory pc s') (hpc : s.pc t = pc)
    (h : Sound s) : s'.abs = s.abs ∨ ∃ b, Queues.step s.abs b = some s'.abs := by
  cases hacc with
  | noMemory => exact .inr ⟨_, decides hpc rfl false s rfl rfl rfl⟩
  | allocated =>
    left
    apply stutters hpc
    · rfl
    · rfl
    funext Key
    exact queue_congr (h.entry (fun n hn => Function.update_of_ne hn.ne _ _) _)
  | @inserted Key Value n =>
    have hn := h.adding t Key Value n hpc
    exact .inr ⟨_, decides hpc rfl true (s.setBucket _ _) rfl (queues_insert hn) rfl⟩
  | @notRemoved Key habsent =>
    refine .inr ⟨_, decides hpc rfl true s rfl ?_ ?_⟩
    · simp only [Queues.apply, queues_eq_nil habsent]
    · simp only [Queues.apply, queues_eq_nil habsent]
      rfl
  | @removed Key n hfirst =>
    obtain ⟨Value, rest, -, hqueue, herase⟩ :=
      queues_erase (h.tracked.nodup (.linked (bucketOf Key))) hfirst
    refine .inr ⟨_, decides hpc rfl true (s.setBucket _ _) rfl ?_ ?_⟩
    · simp only [Queues.apply, hqueue]
      exact herase
    · simp only [Queues.apply, hqueue]
      rfl
  | hidden | queued =>
    left
    apply stutters hpc <;> rfl
  | @notFound Key habsent =>
    refine .inr ⟨_, decides hpc rfl true s rfl ?_ ?_⟩
    · simp only [Queues.apply, queues_eq_nil habsent]
    · simp only [Queues.apply, queues_eq_nil habsent]
      rfl
  | @found Key n node hfirst hn =>
    obtain ⟨Value, rest, hn', hqueue, -⟩ :=
      queues_erase (h.tracked.nodup (.linked (bucketOf Key))) hfirst
    obtain rfl := Option.some.inj (hn.symm.trans hn')
    refine .inr ⟨_, decides hpc rfl true s rfl ?_ ?_⟩
    · simp only [Queues.apply, hqueue]
    · simp only [Queues.apply, hqueue]
      rfl

omit [DecidableEq τ] in
/-- The DPC is not seen. -/
theorem DpcAccess.abs_eq {dpc : Dpc} (hacc : DpcAccess s c dpc s') (hdpc : s.dpc c = dpc) (h : Sound s) :
    s'.abs = s.abs := by
  cases hacc with
  | @freed n list =>
    have hstolen : n ∈ s.holds (.stolen c) := by
      change n ∈ (s.dpc c).stolen
      rw [hdpc]
      exact List.mem_cons_self
    change Queues.State.mk _ _ = Queues.State.mk _ _
    congr 1
    funext Key
    refine queue_congr fun m hm => ?_
    have hne : m ≠ n := by
      rintro rfl
      cases h.tracked.apart (.linked (bucketOf Key)) (.stolen c) m hm hstolen
    change entry (Function.update s.nodes n none) m = entry s.nodes m
    rw [entry, entry, Function.update_of_ne hne]
  | _ => rfl

omit [DecidableEq κ] in
theorem call_simulates {op : Op} (hbusy : (s.pc t).busy = false) :
    Queues.step s.abs (.call t op) = some (s.goto t op.enter).abs := by
  have hphase : op.enter.phase = .pending op := by cases op <;> rfl
  have habs : (s.goto t op.enter).abs =
      { s.abs with phase := Function.update s.abs.phase t (.pending op) } := by
    change Queues.State.mk _ _ = Queues.State.mk _ _
    congr 1
    funext j
    change (Function.update s.pc t op.enter j).phase = Function.update s.abs.phase t _ j
    by_cases hjt : j = t
    · rw [hjt, Function.update_self, Function.update_self, hphase]
    · rw [Function.update_of_ne hjt, Function.update_of_ne hjt]
      rfl
  rw [habs]
  cases hpc : s.pc t with
  | idle | returned =>
    have hidle : s.abs.phase t = (s.pc t).phase := rfl
    rw [hpc] at hidle
    simp only [Queues.step, hidle, Pc.phase]
  | _ =>
    rw [hpc] at hbusy
    cases hbusy

/-- A thread has no node when it calls. -/
theorem holds_call {op : Op} (hbusy : (s.pc t).busy = false) : (s.goto t op.enter).holds = s.holds := by
  have hop : op.enter.adding = [] ∧ op.enter.removed = [] := by cases op <;> exact ⟨rfl, rfl⟩
  have hempty : (s.pc t).adding = [] ∧ (s.pc t).removed = [] := by
    cases hpc : s.pc t with
    | idle | returned => exact ⟨rfl, rfl⟩
    | _ =>
      rw [hpc] at hbusy
      cases hbusy
  exact holds_goto_same s (hempty.1.trans hop.1.symm) (hempty.2.trans hop.2.symm)

theorem Sound.call (h : Sound s) {op : Op} (hbusy : (s.pc t).busy = false) :
    Sound (s.goto t op.enter) := by
  have hholds : (s.goto t op.enter).holds = s.holds := holds_call hbusy
  constructor
  case tracked => rw [hholds]; exact h.tracked
  case placed => rw [hholds]; exact h.placed
  case memory => exact h.memory
  case adding =>
    intro j Key Value n hj
    by_cases hjt : j = t
    · subst hjt
      rw [goto_pc] at hj
      cases op <;> cases hj
    · rw [goto_pc_ne _ hjt] at hj
      exact h.adding j Key Value n hj
  case scheduled =>
    intro hne
    obtain hq | ⟨j, hj⟩ | hc := h.scheduled hne
    · exact .inl hq
    · refine .inr (.inl ⟨j, ?_⟩)
      rw [goto_pc_ne]
      · exact hj
      · rintro rfl
        rw [hj] at hbusy
        cases hbusy
    · exact .inr (.inr hc)

theorem Sound.step {a : Action τ κ} (h : Sound s) (hs : Table.step s a = some s') : Sound s' := by
  cases a with
  | call t op =>
    simp only [Table.step] at hs
    split_ifs at hs with hbusy
    obtain rfl := Option.some.inj hs
    exact h.call (Bool.not_eq_true _ ▸ hbusy)
  | run t memory => exact h.access (runStep_cases hs) rfl
  | dpc c => exact h.dpc (dpcStep_cases hs) rfl

theorem Sound.simulates {a : Action τ κ} (h : Sound s) (hs : Table.step s a = some s') :
    s'.abs = s.abs ∨ ∃ b, Queues.step s.abs b = some s'.abs := by
  cases a with
  | call t op =>
    simp only [Table.step] at hs
    split_ifs at hs with hbusy
    obtain rfl := Option.some.inj hs
    exact .inr ⟨_, call_simulates (Bool.not_eq_true _ ▸ hbusy)⟩
  | run t memory => exact (runStep_cases hs).simulates rfl h
  | dpc c => exact .inl ((dpcStep_cases hs).abs_eq rfl h)

theorem Sound.next {a : Action τ κ} (h : Sound s) (hs : Table.step s a = some s') {n : ℕ}
    {k k' : Place τ κ} (hk : n ∈ s.holds k) (hk' : n ∈ s'.holds k') : k = k' ∨ Next k k' := by
  cases a with
  | call t op =>
    simp only [Table.step] at hs
    split_ifs at hs with hbusy
    obtain rfl := Option.some.inj hs
    rw [holds_call (Bool.not_eq_true _ ▸ hbusy)] at hk'
    exact .inl (h.tracked.apart k k' n hk hk')
  | run t memory => exact ((runStep_cases hs).move rfl h).next h.tracked hk hk'
  | dpc c => exact ((dpcStep_cases hs).move rfl).next h.tracked hk hk'

omit [DecidableEq τ] [DecidableEq κ] in
theorem sound_init : Sound (init : State τ κ) where
  tracked := by
    have hempty : ∀ k, (init : State τ κ).holds k = [] := fun k => by cases k <;> rfl
    constructor
    case nodup => exact fun k => hempty k ▸ List.nodup_nil
    case apart => exact fun k _ n hk => absurd (hempty k ▸ hk) List.not_mem_nil
    case mark => exact fun k n hk => absurd (hempty k ▸ hk) List.not_mem_nil
  placed _ hn := absurd hn (Nat.not_lt_zero _)
  memory _ hn := absurd hn (Nat.not_lt_zero _)
  adding _ _ _ _ hpc := by cases hpc
  scheduled hne := absurd rfl hne

/-! ## The table comes to rest -/

/-- No call is running, and the DPC neither runs nor is queued. -/
def Quiet (s : State τ κ) : Prop :=
  (∀ t, (s.pc t).busy = false) ∧ (∀ c, s.dpc c = .idle) ∧ s.Queued = false

omit [DecidableEq τ] [DecidableEq κ] in
/-- At rest, a node is in its bucket or has been freed. -/
theorem Sound.quiet (h : Sound s) (hquiet : Quiet s) {n : ℕ} (hn : n < s.next) :
    (∃ b, n ∈ s.Bucket b) ∨ n ∈ s.Freed := by
  obtain ⟨hbusy, hidle, hqueued⟩ := hquiet
  obtain ⟨k, hk⟩ := h.placed n hn
  cases k with
  | linked b => exact .inl ⟨b, hk⟩
  | freed => exact .inr hk
  | adding t | removed t =>
    have ht := hbusy t
    cases hpc : s.pc t <;> simp [State.holds, Pc.adding, Pc.removed, Pc.busy, hpc] at hk ht
  | stolen c =>
    change n ∈ (s.dpc c).stolen at hk
    rw [hidle c] at hk
    cases hk
  | hidden =>
    obtain hq | ⟨t, ht⟩ | ⟨c, hc⟩ := h.scheduled (List.ne_nil_of_mem hk)
    · rw [hqueued] at hq
      cases hq
    · have hbusy := hbusy t
      rw [ht] at hbusy
      cases hbusy
    · rw [hidle c] at hc
      cases hc

/-- A call can go on: it uses no memory that has been freed. -/
theorem Sound.runs (h : Sound s) (hbusy : (s.pc t).busy = true) :
    ∃ s', Table.step s (.run t true : Action τ κ) = some s' := by
  have hfind : ∀ Key, ∃ found, find s.nodes Key (s.Bucket (bucketOf Key)) = some found := fun Key =>
    find_ne_none fun n hn => h.mem (k := .linked (bucketOf Key)) hn (by simp)
  simp only [Table.step]
  cases hpc : s.pc t with
  | idle | returned =>
    rw [hpc] at hbusy
    cases hbusy
  | add Key Value => exact ⟨_, rfl⟩
  | insert Key Value n => exact ⟨_, by rw [runStep, h.adding t Key Value n hpc]; rfl⟩
  | remove Key =>
    obtain ⟨found, hfound⟩ := hfind Key
    exact ⟨_, by rw [runStep, hfound]; rfl⟩
  | hide n =>
    have hn : s.nodes n ≠ none := h.mem (k := .removed t)
      (by rw [State.holds, hpc]; exact List.mem_singleton_self n) (by simp)
    obtain ⟨node, hnode⟩ := Option.ne_none_iff_exists'.mp hn
    exact ⟨_, by rw [runStep, hnode]; rfl⟩
  | queue => exact ⟨_, rfl⟩
  | lookup Key =>
    obtain ⟨found, hfound⟩ := hfind Key
    cases found with
    | none => exact ⟨_, by rw [runStep, hfound]; rfl⟩
    | some n =>
      obtain ⟨pre, post, Value, -, hn, -⟩ := (find_spec s.nodes Key (s.Bucket (bucketOf Key))).1 n hfound
      exact ⟨s.goto t (.returned .success (some Value)),
        by simp only [runStep, hfound, Option.bind_some, hn, Option.map_some]⟩

/-- So can the DPC. -/
theorem Sound.dpcs (h : Sound s) (hdpc : s.dpc c ≠ .idle ∨ s.Queued = true) :
    ∃ s', Table.step s (.dpc c : Action τ κ) = some s' := by
  simp only [Table.step]
  cases hc : s.dpc c with
  | idle =>
    obtain hne | hqueued := hdpc
    · exact absurd hc hne
    · exact ⟨_, if_pos hqueued⟩
  | steal => exact ⟨_, rfl⟩
  | free list =>
    cases list with
    | nil => exact ⟨_, rfl⟩
    | cons n list =>
      have hn : s.nodes n ≠ none := h.mem (k := .stolen c)
        (by rw [State.holds, hc]; exact List.mem_cons_self) (by simp)
      obtain ⟨node, hnode⟩ := Option.ne_none_iff_exists'.mp hn
      exact ⟨_, by rw [dpcStep, hnode]; rfl⟩

/-- The steps that are left of a call. -/
def Pc.rank : Pc → ℕ
  | .idle | .returned .. => 0
  | .insert .. | .lookup _ => 1
  | .add .. => 2
  | .queue => 4
  | .hide _ => 7
  | .remove _ => 8

/-- The steps that are left of a run of the DPC. -/
def Dpc.rank : Dpc → ℕ
  | .idle => 0
  | .steal => 2
  | .free list => list.length + 1

/-- The steps that are left. -/
def measure [Fintype τ] [Fintype κ] (s : State τ κ) : ℕ :=
  ∑ t, (s.pc t).rank + ∑ c, (s.dpc c).rank + 2 * s.Hidden.length + 3 * s.Queued.toNat

section

variable [Fintype τ] [Fintype κ]

omit [DecidableEq κ] in
/-- A step of a call that takes the rank down, with what it leaves on the hidden list and on the queue. -/
theorem measure_goto_lt {pc pc' : Pc} (hpc : s.pc t = pc) (u : State τ κ) (hupc : u.pc = s.pc)
    (hudpc : u.dpc = s.dpc) (hlt : pc'.rank + 2 * u.Hidden.length + 3 * u.Queued.toNat <
      pc.rank + 2 * s.Hidden.length + 3 * s.Queued.toNat) : measure (u.goto t pc') < measure s := by
  have hsum := sum_update_add Pc.rank s.pc t pc'
  rw [hpc] at hsum
  change ∑ j, (Function.update u.pc t pc' j).rank + ∑ c, (u.dpc c).rank + 2 * u.Hidden.length +
    3 * u.Queued.toNat < measure s
  rw [hupc, hudpc, measure]
  omega

omit [DecidableEq τ] in
theorem measure_godpc_lt {dpc dpc' : Dpc} (hdpc : s.dpc c = dpc) (u : State τ κ) (hupc : u.pc = s.pc)
    (hudpc : u.dpc = s.dpc) (hlt : dpc'.rank + 2 * u.Hidden.length + 3 * u.Queued.toNat <
      dpc.rank + 2 * s.Hidden.length + 3 * s.Queued.toNat) : measure (u.godpc c dpc') < measure s := by
  have hsum := sum_update_add Dpc.rank s.dpc c dpc'
  rw [hdpc] at hsum
  change ∑ t, (u.pc t).rank + ∑ j, (Function.update u.dpc c dpc' j).rank + 2 * u.Hidden.length +
    3 * u.Queued.toNat < measure s
  rw [hupc, hudpc, measure]
  omega

omit [DecidableEq κ] in
theorem Access.measure_lt {memory : Bool} {pc : Pc} (hacc : Access s t memory pc s') (hpc : s.pc t = pc) :
    measure s' < measure s := by
  cases hacc
  case hidden n =>
    apply measure_goto_lt hpc { s with Hidden := s.Hidden ++ [n] } rfl rfl
    simp only [Pc.rank, List.length_append, List.length_singleton]
    omega
  case queued =>
    apply measure_goto_lt hpc { s with Queued := true } rfl rfl
    have hle : s.Queued.toNat ≤ 1 := Bool.toNat_le _
    simp only [Pc.rank, Bool.toNat_true]
    omega
  all_goals
    apply measure_goto_lt hpc
    · rfl
    · rfl
    · simp only [Pc.rank, State.setBucket]
      omega

omit [DecidableEq τ] in
theorem DpcAccess.measure_lt {dpc : Dpc} (hacc : DpcAccess s c dpc s') (hdpc : s.dpc c = dpc)
    (hqueued : dpc = .idle → s.Queued = true) : measure s' < measure s := by
  cases hacc with
  | started =>
    apply measure_godpc_lt hdpc { s with Queued := false } rfl rfl
    simp only [Dpc.rank, hqueued rfl, Bool.toNat_true, Bool.toNat_false]
    omega
  | stolen =>
    apply measure_godpc_lt hdpc { s with Hidden := [] } rfl rfl
    simp only [Dpc.rank, List.length_nil]
    omega
  | ended =>
    apply measure_godpc_lt hdpc s rfl rfl
    simp [Dpc.rank]
  | freed =>
    apply measure_godpc_lt hdpc
    · rfl
    · rfl
    · simp [Dpc.rank]

/-- No new calls. -/
def NoCall (_ : State τ κ) : Action τ κ → Prop
  | .call .. => False
  | _ => True

/-- Without new calls, the table can come to rest from every state. -/
theorem Sound.settles [Inhabited κ] (h : Sound s) : ∃ s', Reaches Table.step NoCall s s' ∧ Quiet s' := by
  have hstep : ∀ s : State τ κ, Sound s → ¬ Quiet s →
      ∃ a s', NoCall s a ∧ Table.step s a = some s' ∧ Sound s' ∧ measure s' < measure s := by
    intro s h hquiet
    by_cases hbusy : ∃ t, (s.pc t).busy = true
    · obtain ⟨t, ht⟩ := hbusy
      obtain ⟨s', hs⟩ := h.runs ht
      exact ⟨.run t true, s', trivial, hs, h.step hs, (runStep_cases hs).measure_lt rfl⟩
    -- a CPU that runs the DPC, or one that will
    obtain ⟨c, hc⟩ : ∃ c, s.dpc c ≠ .idle ∨ s.Queued = true := by
      by_contra hnone
      push Not at hnone hbusy
      exact hquiet ⟨fun t => by simpa using hbusy t, fun c => (hnone c).1,
        by simpa using (hnone default).2⟩
    obtain ⟨s', hs⟩ := h.dpcs hc
    exact ⟨.dpc c, s', trivial, hs, h.step hs,
      (dpcStep_cases hs).measure_lt rfl fun hidle => hc.resolve_left fun hne => hne hidle⟩
  obtain ⟨s', hreach, -, hquiet⟩ := Reaches.eventually measure hstep s h
  exact ⟨s', hreach, hquiet⟩

end

/-! ## The result -/

/-- What is known of the nodes: each has one place, goes from one to the next on its way, and at rest is
in its bucket or freed; and rest can always be reached. -/
structure Disposed [Fintype τ] [Fintype κ] (s : State τ κ) : Prop where
  once : Tracked s.holds (· < s.next)
  placed : ∀ n < s.next, ∃ k, n ∈ s.holds k
  next : ∀ a s' n k k', Table.step s a = some s' → n ∈ s.holds k → n ∈ s'.holds k' → k = k' ∨ Next k k'
  quiet : Quiet s → ∀ n < s.next, (∃ b, n ∈ s.Bucket b) ∨ n ∈ s.Freed
  settles : ∃ s', Reaches Table.step NoCall s s' ∧ Quiet s'

/-- **The hash table is a map from keys to queues.** Every key has a bucket; in every run the table is in
step with the queues, each of its steps having its effect on them or none; and a node that has been removed
passes the hidden list and is freed once. -/
theorem refines_queues [Fintype τ] [Fintype κ] [Inhabited κ] (h : Reaches Table.step Free (init : State τ κ) s) :
    (∀ Key, (hashTableHash Key).toNat < NR_BUCKETS) ∧
      Reaches Queues.step Free Queues.init s.abs ∧
      (∀ a s', Table.step s a = some s' → s'.abs = s.abs ∨ ∃ b, Queues.step s.abs b = some s'.abs) ∧
      Disposed s := by
  have hstep : ∀ (s : State τ κ) a s', Sound s → Free s a → Table.step s a = some s' →
      Sound s' ∧ Reaches Queues.step Free s.abs s'.abs := by
    intro s a s' h _ hs
    refine ⟨h.step hs, ?_⟩
    obtain heq | ⟨b, hb⟩ := h.simulates hs
    · rw [heq]
      exact .refl _
    · exact .single trivial hb
  obtain ⟨hsound, hrun⟩ := h.simulation State.abs sound_init hstep
  refine ⟨hashTableHash_lt, hrun, fun _ _ hs => hsound.simulates hs, ?_⟩
  exact ⟨hsound.tracked, hsound.placed, fun _ _ _ _ _ hs hk hk' => hsound.next hs hk hk',
    fun hquiet _ hn => hsound.quiet hquiet hn, hsound.settles⟩

/-- The keys `1` and `0x1000` collide: both are added, the first is removed and its node freed, and the
second is still found. -/
theorem refines_queues_run : ∃ s : State Unit Unit, Reaches Table.step Free init s ∧
    bucketOf 1 = bucketOf 0x1000 ∧ s.Freed = [0] ∧ s.pc () = .returned .success (some 6) ∧
      Reaches Queues.step Free Queues.init s.abs ∧ Disposed s := by
  obtain ⟨s, hs, hfreed, hpc⟩ : ∃ s : State Unit Unit, run Table.step init
      [.call () (.add 1 5), .run () true, .run () true, .call () (.add 0x1000 6), .run () true,
        .run () true, .call () (.remove 1), .run () true, .run () true, .run () true, .dpc (), .dpc (),
        .dpc (), .dpc (), .call () (.lookup 0x1000), .run () true] = some s ∧ s.Freed = [0] ∧
      s.pc () = .returned .success (some 6) := ⟨_, rfl, rfl, rfl⟩
  have h := reaches_of_run hs
  obtain ⟨-, hrun, -, hdisposed⟩ := refines_queues h
  exact ⟨s, h, by decide, hfreed, hpc, hrun, hdisposed⟩

end Table

end XenBus.HashTable
