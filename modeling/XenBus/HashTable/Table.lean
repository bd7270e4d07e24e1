import XenBus.Status
import XenBus.Foundations.Transition
import Mathlib.Data.BitVec
import Mathlib.Tactic.IntervalCases

/-!
# The hash table

`hash_table.c`: 256 buckets, each a list of nodes under its lock, and the hidden list of the nodes that
have been removed, which a DPC frees. Threads call `HashTableAdd`, `HashTableRemove` and
`HashTableLookup`, and the DPC runs on any CPU for which it has been taken off the queue. A step is an
access to a list under its lock, or what a function does between two of them. Nodes go by the order of
their allocation; a step that uses a node that has been freed has no result.
-/

namespace XenBus.HashTable.Table

/-! ## HashTableHash -/

/-- `(PUCHAR)&Key`. -/
def array (Key : BitVec 64) : List (BitVec 8) := (List.range 8).map fun Index => Key.extractLsb' (8 * Index) 8

/-- A round of the loop of `HashTableHash`. -/
def hashRound (Accumulator : BitVec 32) (byte : BitVec 8) : BitVec 32 :=
  let Accumulator := (Accumulator <<< 4) + byte.setWidth 32
  let Overflow := Accumulator &&& 0x0000ff00#32
  if Overflow ≠ 0 then (Accumulator ^^^ (Overflow >>> 8)) ^^^ Overflow else Accumulator

/-- `HashTableHash`. -/
def hashTableHash (Key : BitVec 64) : BitVec 32 := (array Key).foldl hashRound 0

/-- The overflow is folded back: it leaves bits 8 to 15, and goes to the bits below. -/
theorem fold_lt {Accumulator : BitVec 32} (h : Accumulator.toNat < 65536) :
    ((Accumulator ^^^ ((Accumulator &&& 0x0000ff00#32) >>> 8)) ^^^ (Accumulator &&& 0x0000ff00#32)).toNat <
      256 := by
  have hhigh : ∀ i, 16 ≤ i → Accumulator.getLsbD i = false := fun i hi => by
    rw [BitVec.getLsbD]
    exact Nat.testBit_lt_two_pow (h.trans_le (Nat.pow_le_pow_right (by decide) hi : 2 ^ 16 ≤ 2 ^ i))
  have hmask : ∀ i, 8 ≤ i → i < 16 → (0x0000ff00#32).getLsbD i = true := fun i hi hi' => by
    interval_cases i <;> rfl
  apply Nat.lt_pow_two_of_testBit (n := 8)
  intro i hi
  change BitVec.getLsbD _ i = false
  simp only [BitVec.getLsbD_xor, BitVec.getLsbD_and, BitVec.getLsbD_ushiftRight,
    hhigh (8 + i) (by omega), Bool.false_and, Bool.xor_false]
  by_cases hi' : i < 16
  · rw [hmask i hi hi', Bool.and_true, Bool.xor_self]
  · rw [hhigh i (by omega)]
    rfl

theorem hashRound_lt {Accumulator : BitVec 32} (h : Accumulator.toNat < 256) (byte : BitVec 8) :
    (hashRound Accumulator byte).toNat < 256 := by
  have hbyte := byte.isLt
  have hsum : ((Accumulator <<< 4) + byte.setWidth 32).toNat = Accumulator.toNat * 16 + byte.toNat := by
    rw [BitVec.toNat_add, BitVec.toNat_shiftLeft, BitVec.toNat_setWidth, Nat.shiftLeft_eq]
    omega
  unfold hashRound
  simp only []
  split_ifs with hoverflow
  · exact fold_lt (by omega)
  · -- without overflow there is nothing to fold
    have hlt : ((Accumulator <<< 4) + byte.setWidth 32).toNat < 65536 := by omega
    have hfold := fold_lt hlt
    rw [not_not.mp hoverflow] at hfold
    simpa using hfold

/-- The hash is a bucket. -/
theorem hashTableHash_lt (Key : BitVec 64) : (hashTableHash Key).toNat < 256 := by
  have hfold : ∀ (bytes : List (BitVec 8)) (Accumulator : BitVec 32), Accumulator.toNat < 256 →
      (bytes.foldl hashRound Accumulator).toNat < 256 := by
    intro bytes
    induction bytes with
    | nil => exact fun _ h => h
    | cons byte bytes ih => exact fun Accumulator h => ih _ (hashRound_lt h byte)
  exact hfold _ 0 (by decide)

/-- `XENBUS_HASH_TABLE_NR_BUCKETS`. -/
abbrev NR_BUCKETS : ℕ := 256

/-- The bucket of a key. -/
def bucketOf (Key : BitVec 64) : Fin NR_BUCKETS := ⟨(hashTableHash Key).toNat, hashTableHash_lt Key⟩

/-! ## Data -/

/-- `XENBUS_HASH_TABLE_NODE`. -/
structure Node where
  Key : BitVec 64
  Value : BitVec 64
  deriving DecidableEq

/-- A call, or what is left of it. -/
inductive Pc
  | idle
  /-- `HashTableAdd`, before `__HashTableAllocate`. -/
  | add (Key Value : BitVec 64)
  /-- `HashTableAdd`, before the section on the bucket. -/
  | insert (Key Value : BitVec 64) (n : ℕ)
  /-- `HashTableRemove`, before the section on the bucket. -/
  | remove (Key : BitVec 64)
  /-- `HashTableRemove`, before the section on the hidden list. -/
  | hide (n : ℕ)
  /-- `HashTableRemove`, before `KeInsertQueueDpc`. -/
  | queue
  /-- `HashTableLookup`, before the section on the bucket. -/
  | lookup (Key : BitVec 64)
  | returned (status : Status) (Value : Option (BitVec 64))
  deriving DecidableEq

/-- The DPC on a CPU. -/
inductive Dpc
  | idle
  /-- Before the section on the hidden list. -/
  | steal
  /-- In the loop that frees the nodes of `List`. -/
  | free (List : List ℕ)
  deriving DecidableEq

/-- `XENBUS_HASH_TABLE`, its nodes, and those that run its functions: threads and, for the DPC, CPUs.
`Freed` is a ghost: the nodes that have been freed, in order. -/
structure State (τ κ : Type) where
  nodes : ℕ → Option Node
  /-- The next node to be allocated. -/
  next : ℕ
  Bucket : Fin NR_BUCKETS → List ℕ
  Hidden : List ℕ
  /-- The DPC is queued. -/
  Queued : Bool
  Freed : List ℕ
  pc : τ → Pc
  dpc : κ → Dpc

variable {τ κ : Type} [DecidableEq τ] [DecidableEq κ]

namespace State

/-- The thread goes on to `pc`. -/
def goto (s : State τ κ) (t : τ) (pc : Pc) : State τ κ := { s with pc := Function.update s.pc t pc }

/-- The DPC on the CPU goes on to `dpc`. -/
def godpc (s : State τ κ) (c : κ) (dpc : Dpc) : State τ κ :=
  { s with dpc := Function.update s.dpc c dpc }

/-- The list of a bucket is changed. -/
def setBucket (s : State τ κ) (b : Fin NR_BUCKETS) (list : List ℕ) : State τ κ :=
  { s with Bucket := Function.update s.Bucket b list }

end State

/-! ## The functions -/

/-- The loop over a bucket in `HashTableRemove` and `HashTableLookup`: the first node with the key, if
there is one. -/
def find (nodes : ℕ → Option Node) (Key : BitVec 64) : List ℕ → Option (Option ℕ)
  | [] => some none
  | n :: list => (nodes n).bind fun node => if node.Key = Key then some (some n) else find nodes Key list

/-- A call. -/
inductive Op
  | add (Key Value : BitVec 64)
  | remove (Key : BitVec 64)
  | lookup (Key : BitVec 64)
  deriving DecidableEq

/-- A thread calls. -/
def Op.enter : Op → Pc
  | .add Key Value => .add Key Value
  | .remove Key => .remove Key
  | .lookup Key => .lookup Key

/-- The next step of a call. `memory` says whether `__HashTableAllocate` has any. -/
def runStep (s : State τ κ) (t : τ) (memory : Bool) : Pc → Option (State τ κ)
  | .idle | .returned .. => none
  | .add Key Value =>
    if memory then
      some ({ s with
        nodes := Function.update s.nodes s.next (some ⟨Key, Value⟩)
        next := s.next + 1 }.goto t (.insert Key Value s.next))
    else some (s.goto t (.returned .noMemory none))
  | .insert Key _ n =>
    (s.nodes n).map fun _ =>
      (s.setBucket (bucketOf Key) (s.Bucket (bucketOf Key) ++ [n])).goto t (.returned .success none)
  | .remove Key =>
    (find s.nodes Key (s.Bucket (bucketOf Key))).map fun
      | none => s.goto t (.returned .objectNameNotFound none)
      | some n => (s.setBucket (bucketOf Key) ((s.Bucket (bucketOf Key)).erase n)).goto t (.hide n)
  | .hide n => (s.nodes n).map fun _ => { s with Hidden := s.Hidden ++ [n] }.goto t .queue
  | .queue => some ({ s with Queued := true }.goto t (.returned .success none))
  | .lookup Key =>
    (find s.nodes Key (s.Bucket (bucketOf Key))).bind fun
      | none => some (s.goto t (.returned .objectNameNotFound none))
      | some n => (s.nodes n).map fun node => s.goto t (.returned .success (some node.Value))

/-- The next step of `HashTableDpc`. It comes off the queue before it runs. -/
def dpcStep (s : State τ κ) (c : κ) : Dpc → Option (State τ κ)
  | .idle => if s.Queued then some ({ s with Queued := false }.godpc c .steal) else none
  | .steal => some ({ s with Hidden := [] }.godpc c (.free s.Hidden))
  | .free [] => some (s.godpc c .idle)
  | .free (n :: list) =>
    (s.nodes n).map fun _ =>
      { s with
        nodes := Function.update s.nodes n none
        Freed := s.Freed ++ [n] }.godpc c (.free list)

/-- The thread is in a call. -/
def Pc.busy : Pc → Bool
  | .idle | .returned .. => false
  | _ => true

/-- A step. -/
inductive Action (τ κ : Type)
  | call (t : τ) (op : Op)
  | run (t : τ) (memory : Bool)
  | dpc (c : κ)

def step (s : State τ κ) : Action τ κ → Option (State τ κ)
  | .call t op => if (s.pc t).busy then none else some (s.goto t op.enter)
  | .run t memory => runStep s t memory (s.pc t)
  | .dpc c => dpcStep s c (s.dpc c)

/-- `HashTableCreate`. -/
def init : State τ κ where
  nodes _ := none
  next := 0
  Bucket _ := []
  Hidden := []
  Queued := false
  Freed := []
  pc _ := .idle
  dpc _ := .idle

end XenBus.HashTable.Table
