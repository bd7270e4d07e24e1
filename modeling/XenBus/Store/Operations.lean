import XenBus.Foundations.Hexadecimal
import XenBus.Store.Requests

/-!
# Transactions and watches across suspend

`store.c` as the calls of its interface see it. A call is a few critical sections with the IRQL lowered
between them: `StorePrepareRequest` in one, `StoreSubmitRequest` in the next (raised, with the lock held
until the answer has come), and for transactions and watches one more that records the outcome. A
suspend falls where no call is raised: the early callback clears `Active`, the backend forgets the
transactions and the watches, and the late callback signals the watches, all before any call goes on.

What fails in a call before its first section (`StoreCheckPathLength`, the allocations of
`StoreWatchAdd`) touches nothing that is shared, and neither does what a call does with its answer.
Memory that has been freed has no contents: a step that uses it has no result.
-/

namespace XenBus.Store.Operations

open Requests

/-! ## Data -/

/-- `enum xsd_sockmsg_type`, as far as the calls below choose it. -/
def XS_WATCH : ℕ := 4

@[inherit_doc XS_WATCH] def XS_UNWATCH : ℕ := 5
@[inherit_doc XS_WATCH] def XS_TRANSACTION_START : ℕ := 6
@[inherit_doc XS_WATCH] def XS_TRANSACTION_END : ℕ := 7

/-- `XENBUS_STORE_WATCH`. -/
structure Watch where
  Caller : ℕ
  Id : ℕ
  Path : List UInt8
  Active : Bool
  deriving DecidableEq

/-- The token of a watch, `TOK|%p|%04X`. -/
def Watch.Token (watch : Watch) : List UInt8 :=
  [84, 79, 75, 124] ++ CString.hex 16 watch.Caller ++ [124] ++ CString.hex 4 watch.Id

/-- What the backend knows a watch by: the path and the numbers in the token. -/
structure Key where
  Path : List UInt8
  Caller : ℕ
  Id : ℕ
  deriving DecidableEq

def Watch.key (watch : Watch) : Key := ⟨watch.Path, watch.Caller, watch.Id⟩

/-- What a call is about. Transactions and watches go by their addresses. -/
inductive Op
  /-- `StoreRead`, `StoreWrite`, `StoreRemove`, `StoreDirectory`, `StorePermissionsSet`. -/
  | access (type : ℕ) (args : List (List UInt8)) (Transaction : Option ℕ)
  /-- `StoreTransactionStart`. -/
  | start (id : ℕ)
  /-- `StoreTransactionEnd`. -/
  | finish (id : ℕ) (Commit : Bool)
  /-- `StoreWatchAdd`. -/
  | add (w : ℕ)
  /-- `StoreWatchRemove`. -/
  | remove (w : ℕ)
  deriving DecidableEq

/-- The transaction that the request of the call belongs to. -/
def Op.Transaction : Op → Option ℕ
  | .access _ _ Transaction => Transaction
  | .finish id _ => some id
  | _ => none

/-- Where a thread is. -/
inductive Pc
  | idle
  /-- `StoreWatchAdd`, before the section that puts the watch on the list. -/
  | insert (w : ℕ)
  /-- Before the section with `StorePrepareRequest`. -/
  | prepare (op : Op)
  /-- Before `StoreSubmitRequest`. -/
  | submit (op : Op) (Request : Requests.Request)
  /-- In `StoreSubmitRequest`, raised and with the lock. -/
  | wait (op : Op)
  /-- `StoreTransactionStart` has the id: before the section that sets `Active`. -/
  | activate (id : ℕ)
  /-- `StoreTransactionEnd` has the answer: before the section that clears `Active`. -/
  | close (id : ℕ) (status : Status)
  /-- `StoreWatchAdd` has failed: before the section that takes the watch off the list. -/
  | undo (w : ℕ) (status : Status)
  /-- `StoreWatchRemove` has the answer: before the section that takes the watch off the list. -/
  | drop (w : ℕ)
  | returned (status : Status)

/-- The thread is in a call. -/
def Pc.busy : Pc → Bool
  | .idle | .returned _ => false
  | _ => true

/-- A request that has been put on the ring: the transaction it was prepared for, and the number of
suspends before it. -/
structure Sent where
  Request : Requests.Request
  Transaction : Option ℕ
  epoch : ℕ

/-- `XENBUS_STORE_CONTEXT` and the backend. `epoch` counts the suspends; `Obtained` has the id of each
transaction that has been started, with the suspends before it. -/
structure State (ι : Type) where
  /-- The thread that holds `Context->Lock` in `StoreSubmitRequest`. -/
  Lock : Option ι
  RequestId : ℕ
  WatchId : ℕ
  /-- The memory of the transactions and of the watches. -/
  Transactions : ℕ → Option Transaction
  Watches : ℕ → Option Watch
  /-- An address that has not been used. -/
  next : ℕ
  TransactionList : List ℕ
  WatchList : List ℕ
  SubmittedList : List (Requests.Request × Option ℕ)
  epoch : ℕ
  ring : List Sent
  Obtained : ℕ → Option (ℕ × ℕ)
  registrations : Key → Bool
  /-- The suspend has run the early callback and not the late one. -/
  captured : Bool
  /-- The late callback has signalled `Watch->Event` after the last suspend. -/
  Signalled : ℕ → Bool
  /-- The client may call `StoreWatchRemove`. -/
  Owned : ℕ → Bool
  pc : ι → Pc

variable {ι : Type} [DecidableEq ι]

namespace State

/-- The thread goes on to `pc`. -/
def goto (s : State ι) (t : ι) (pc : Pc) : State ι := { s with pc := Function.update s.pc t pc }

/-- Change the memory of a transaction. -/
def setTransaction (s : State ι) (id : ℕ) (transaction : Option Transaction) : State ι :=
  { s with Transactions := Function.update s.Transactions id transaction }

/-- Change the memory of a watch. -/
def setWatch (s : State ι) (w : ℕ) (watch : Option Watch) : State ι :=
  { s with Watches := Function.update s.Watches w watch }

/-- `RemoveEntryList(&Transaction->ListEntry)` and `__StoreFree(Transaction)`. -/
def endTransaction (s : State ι) (id : ℕ) : State ι :=
  { s.setTransaction id none with TransactionList := s.TransactionList.erase id }

/-- `RemoveEntryList(&Watch->ListEntry)` and `__StoreFree(Watch)`. -/
def dropWatch (s : State ι) (w : ℕ) : State ι :=
  { s.setWatch w none with WatchList := s.WatchList.erase w }

/-- The client may remove the watch, or may not. -/
def own (s : State ι) (w : ℕ) (Owned : Bool) : State ι :=
  { s with Owned := Function.update s.Owned w Owned }

end State

/-! ## The first section -/

/-- `StoreFindWatch`. -/
def storeFindWatch (s : State ι) (Id : ℕ) : Option ℕ :=
  s.WatchList.find? fun w => (s.Watches w).any fun watch => watch.Id = Id

/-- The loop of `StoreNextWatchId`, for so many rounds. -/
def nextWatchId (s : State ι) : ℕ → ℕ → Option ℕ
  | 0, _ => none
  | n + 1, Id => if storeFindWatch s Id = none then some Id else nextWatchId s n ((Id + 1) % 65536)

/-- `StoreNextWatchId`. It does not return when all ids are in use. -/
def storeNextWatchId (s : State ι) : Option ℕ := nextWatchId s 65536 s.WatchId

/-- The request of a call: its type, its arguments and the memory of its transaction. There is none if
the call uses memory that has been freed. -/
def request (s : State ι) : Op → Option (ℕ × List (List UInt8) × Option Transaction)
  | .access type args none => some (type, args, none)
  | .access type args (some id) =>
    (s.Transactions id).map fun transaction => (type, args, some transaction)
  | .start _ => some (XS_TRANSACTION_START, [[0]], none)
  | .finish id Commit =>
    (s.Transactions id).map fun transaction =>
      (XS_TRANSACTION_END, [[if Commit then 84 else 70, 0]], some transaction)
  | .add w => (s.Watches w).map fun watch => (XS_WATCH, [watch.Path, [0], watch.Token, [0]], none)
  | .remove w => (s.Watches w).map fun watch => (XS_UNWATCH, [watch.Path, [0], watch.Token, [0]], none)

/-- The call returns as its request has not been prepared. `StoreWatchAdd` frees the watch and leaves it
on the list. -/
def unprepared (s : State ι) (t : ι) : Op → State ι
  | .access .. | .finish .. => s.goto t (.returned .unsuccessful)
  | .start id => (s.setTransaction id none).goto t (.returned .unsuccessful)
  | .add w => (s.setWatch w none).goto t (.returned .unsuccessful)
  | .remove w => (s.own w true).goto t (.returned .unsuccessful)

/-- The section with `StorePrepareRequest`. -/
def prepare (s : State ι) (t : ι) (op : Op) : Option (State ι) :=
  (request s op).map fun (type, args, transaction) =>
    let (Request, RequestId) := storePrepareRequest s.RequestId transaction type args
    let s := { s with RequestId := RequestId }
    match Request with
    | none => unprepared s t op
    | some Request => s.goto t (.submit op Request)

/-! ## StoreSubmitRequest -/

/-- `StorePollLocked`: the submitted requests are put on the ring. -/
def storePollLocked (s : State ι) : State ι :=
  { s with
    ring := s.ring ++ s.SubmittedList.map fun (Request, Transaction) =>
      ⟨Request, Transaction, s.epoch⟩
    SubmittedList := [] }

/-- The call fails with the status, as there is no answer or the answer is an error. -/
def failed (s : State ι) (t : ι) (status : Status) : Op → State ι
  | .access .. | .finish .. => s.goto t (.returned status)
  | .start id => (s.setTransaction id none).goto t (.returned status)
  | .add w => s.goto t (.undo w status)
  | .remove w => (s.own w true).goto t (.returned status)

/-- The answer: the status that `StoreCheckResponse` makes of it, and the id of the transaction that the
backend has started. -/
def answered (s : State ι) (t : ι) (status : Status) (Id : ℕ) : Op → Option (State ι)
  | .access .. => some (s.goto t (.returned status))
  | .start id =>
    if status = .success then
      if Id = 0 then none
      else
        some ({ s.setTransaction id (some ⟨Id, false⟩) with
          Obtained := Function.update s.Obtained id (some (Id, s.epoch)) }.goto t (.activate id))
    else some (failed s t status (.start id))
  | .finish id Commit =>
    if status = .success ∨ status = .retry then some (s.goto t (.close id status))
    else some (failed s t status (.finish id Commit))
  | .add w =>
    if status = .success then
      (s.Watches w).map fun watch =>
        ({ s with registrations := Function.update s.registrations watch.key true }.own w true).goto t
          (.returned .success)
    else some (failed s t status (.add w))
  | .remove w =>
    if status = .success then
      (s.Watches w).map fun watch =>
        { s with registrations := Function.update s.registrations watch.key false }.goto t (.drop w)
    else some (failed s t status (.remove w))

/-- What a step of a thread depends on: whether `StoreSubmitRequest` has memory, what comes next while it
waits, and the answer. -/
inductive Choice
  | noMemory
  | submit
  | poll
  | answer (status : Status) (Id : ℕ)
  deriving DecidableEq

/-- The next section of a thread, or its next step in `StoreSubmitRequest`. -/
def runStep (s : State ι) (t : ι) (choice : Choice) : Pc → Option (State ι)
  | .idle | .returned _ => none
  | .wait op =>
    match choice with
    | .answer status Id =>
      if s.SubmittedList = [] then answered { s with Lock := none } t status Id op else none
    | _ => some (storePollLocked s)
  | .submit op Request =>
    match choice with
    | .noMemory => some (failed s t .noMemory op)
    | _ =>
      if s.Lock = none then
        some ({ s with
          Lock := some t
          SubmittedList := s.SubmittedList ++ [(Request, op.Transaction)] }.goto t (.wait op))
      else none
  | pc =>
    if s.Lock ≠ none then none
    else
      match pc with
      | .insert w =>
        (s.Watches w).bind fun watch =>
          (storeNextWatchId s).map fun Id =>
            { s.setWatch w (some { watch with Id := Id, Active := true }) with
              WatchId := (Id + 1) % 65536
              WatchList := s.WatchList ++ [w] }.goto t (.prepare (.add w))
      | .prepare (.finish id Commit) =>
        (s.Transactions id).bind fun transaction =>
          if transaction.Active then prepare s t (.finish id Commit)
          else some ((s.endTransaction id).goto t (.returned .retry))
      | .prepare (.remove w) =>
        (s.Watches w).bind fun watch =>
          if watch.Active then prepare s t (.remove w)
          else some ((s.dropWatch w).goto t (.returned .success))
      | .prepare op => prepare s t op
      | .activate id =>
        (s.Transactions id).map fun transaction =>
          { s.setTransaction id (some { transaction with Active := true }) with
            TransactionList := s.TransactionList ++ [id] }.goto t (.returned .success)
      | .close id status =>
        (s.Transactions id).map fun _ => (s.endTransaction id).goto t (.returned status)
      | .undo w status =>
        (s.Watches w).map fun _ => (s.dropWatch w).goto t (.returned status)
      | .drop w =>
        (s.Watches w).map fun _ => (s.dropWatch w).goto t (.returned .success)
      | _ => none

/-! ## Suspending -/

/-- The loops of `StoreSuspendCallbackEarly`: `Active` is cleared in what is on a list. -/
def deactivate {β : Type} (memory : ℕ → Option β) (clear : β → β) (list : List ℕ) : ℕ → Option β :=
  fun id => if id ∈ list then (memory id).map clear else memory id

/-- A suspend, with `StoreSuspendCallbackEarly`. -/
def suspendEarly (s : State ι) : State ι :=
  { s with
    Transactions := deactivate s.Transactions ({ · with Active := false }) s.TransactionList
    Watches := deactivate s.Watches ({ · with Active := false }) s.WatchList
    epoch := s.epoch + 1
    registrations := fun _ => false
    captured := true
    Signalled := fun _ => false }

/-- `StoreSuspendCallbackLate`. -/
def suspendLate (s : State ι) : State ι :=
  { s with captured := false, Signalled := fun w => s.Signalled w || decide (w ∈ s.WatchList) }

/-! ## The system -/

/-- A call of the interface. -/
inductive Call
  | access (type : ℕ) (args : List (List UInt8)) (Transaction : Option ℕ)
  | start
  | finish (id : ℕ) (Commit : Bool)
  | add (Caller : ℕ) (Path : List UInt8)
  | remove (w : ℕ)
  deriving DecidableEq

/-- A step of the system. -/
inductive Action (ι : Type)
  | call (t : ι) (call : Call)
  | run (t : ι) (choice : Choice)
  /-- A poll of the ring that no call makes: `StorePoll`, `StoreDpc`, `StoreWatchdog`. -/
  | poll
  | early
  | late

/-- A thread makes a call. The path of a watch has passed `StoreCheckPathLength`, and a watch is removed
by the client that has it. -/
def callStep (s : State ι) (t : ι) : Call → Option (State ι)
  | .access type args Transaction => some (s.goto t (.prepare (.access type args Transaction)))
  | .start =>
    some ({ s.setTransaction s.next (some ⟨0, false⟩) with next := s.next + 1 }.goto t
      (.prepare (.start s.next)))
  | .finish id Commit => some (s.goto t (.prepare (.finish id Commit)))
  | .add Caller Path =>
    if Path.length < 3072 then
      some ({ s.setWatch s.next (some ⟨Caller, 0, Path, false⟩) with next := s.next + 1 }.goto t
        (.insert s.next))
    else none
  | .remove w =>
    if s.Owned w then some ((s.own w false).goto t (.prepare (.remove w))) else none

/-- One step. -/
def step (s : State ι) : Action ι → Option (State ι)
  | .call t call => if s.captured ∨ (s.pc t).busy then none else callStep s t call
  | .run t choice => if s.captured then none else runStep s t choice (s.pc t)
  | .poll => if s.captured ∨ s.Lock ≠ none then none else some (storePollLocked s)
  | .early => if s.captured ∨ s.Lock ≠ none then none else some (suspendEarly s)
  | .late => if s.captured then some (suspendLate s) else none

/-- Before any call. `StoreInitialize` draws the two ids, and casts them to `USHORT`. -/
def init (RequestId WatchId : ℕ) : State ι where
  Lock := none
  RequestId := RequestId % 65536
  WatchId := WatchId % 65536
  Transactions _ := none
  Watches _ := none
  next := 0
  TransactionList := []
  WatchList := []
  SubmittedList := []
  epoch := 0
  ring := []
  Obtained _ := none
  registrations _ := false
  captured := false
  Signalled _ := false
  Owned _ := false
  pc _ := .idle

end XenBus.Store.Operations
