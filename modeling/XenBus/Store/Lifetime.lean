import XenBus.Store.Consumers
import XenBus.Store.Permissions

/-!
# Requests and memory of a call

A call prepares a request, submits it, checks the response and takes from it what it needs. Each of the nine
goes back its own way from where it has failed. What a call allocates is one object of a kind, and an
allocation can fail; the response to the request comes when it comes, or not at all, and then the call does
not return. Nor does it return if it reads beyond the response (`Consumers`).

`StoreSubmitRequest` clears the request when the response has come, but not if there is no memory for the
response, although its callers assert that it has. `lifetime_iff`: this is the only way in which a request is
left behind, and otherwise all that has been allocated is freed once or returned.
-/

namespace XenBus.Store.Lifetime

open XenBus.Store.Requests (Transaction storePrepareRequest)
open XenBus.Store.Operations (Watch XS_WATCH XS_UNWATCH XS_TRANSACTION_START XS_TRANSACTION_END)
open XenBus.Store.Consumers (CheckStatus XS_READ XS_DIRECTORY storeCheckResponse storeCopyPayload)
open XenBus.Store.WatchIds (storeCheckPathLength watchPath length_watchPath_lt)
open XenBus.Store.Permissions (Permission XS_SET_PERMS formatPermissions payloadMax)

/-! ## Data -/

/-- What is allocated. -/
inductive Object
  | response
  | buffer
  | transaction
  | watch
  | path
  | permissionString
  deriving DecidableEq

/-- The memory of a request: not used yet, zero, or a request. -/
inductive RequestMemory
  | unused
  | zero
  | holds (Request : Requests.Request)

/-- The list that a request is on. -/
inductive Link
  | unlinked
  | submitted
  | pending
  deriving DecidableEq

/-- A call: its request, what it has allocated and freed, and what of it is on a list of the context. -/
structure Call where
  Request : RequestMemory
  link : Link
  allocated : List Object
  freed : List Object
  listed : List Object

/-- What polls do with a request while its call waits: they send it, or they receive a message with its
id. -/
inductive Happening
  | sent
  | received (type : ℕ) (Data : List UInt8)

/-- What a call finds outside. -/
structure Environment where
  RequestId : ℕ
  allocate : Object → Bool
  happenings : List Happening

/-- A call that has returned: whether it has succeeded, and what its caller has then. -/
structure Result where
  call : Call
  success : Bool
  returned : List Object

/-- A call with objects of its caller, which are on a list. -/
def Call.start (listed : List Object) : Call := ⟨.unused, .unlinked, [], [], listed⟩

/-- The object is allocated. -/
def Call.allocate (c : Call) (object : Object) : Call := { c with allocated := c.allocated ++ [object] }

/-- The object is freed. -/
def Call.free (c : Call) (object : Object) : Call := { c with freed := c.freed ++ [object] }

/-- `InsertTailList`. -/
def Call.insert (c : Call) (object : Object) : Call := { c with listed := c.listed ++ [object] }

/-- `RemoveEntryList`. -/
def Call.remove (c : Call) (object : Object) : Call := { c with listed := c.listed.erase object }

/-- The call fails; its caller has what it had. -/
def Call.fail (c : Call) (given : List Object) : Result := ⟨c, false, given⟩

/-! ## The request -/

variable (env : Environment)

/-- The loop of `StoreSubmitRequest`, from the insertion into the list of submitted requests on. A message
is handed to the request only if it is pending. -/
def wait : List Happening → Link → Option (ℕ × List UInt8)
  | [], _ => none
  | .sent :: rest, .submitted => wait rest .pending
  | .received type Data :: _, .pending => some (type, Data)
  | _ :: rest, link => wait rest link

/-- `StoreSubmitRequest`: the type and the payload of the response, if there is memory for it. -/
def storeSubmitRequest (Request : Requests.Request) (c : Call) : Option (Option (ℕ × List UInt8) × Call) :=
  if !env.allocate .response then some (none, { c with Request := .holds Request })
  else (wait env.happenings .submitted).map fun response =>
    (some response, { c.allocate .response with Request := .zero, link := .unlinked })

/-- Where a call is after the check of the response, or where it has failed before. -/
inductive Exchange
  /-- `StorePrepareRequest` has failed. -/
  | unprepared
  /-- `StoreSubmitRequest` has returned `NULL`. -/
  | unanswered
  /-- `StoreCheckResponse` has failed. -/
  | refused (status : CheckStatus)
  | answered (Data : List UInt8)

/-- `RtlZeroMemory`, `StorePrepareRequest`, `StoreSubmitRequest` and `StoreCheckResponse`. -/
def exchange (transaction : Option Transaction) (type : ℕ) (args : List (List UInt8)) (c : Call) :
    Option (Exchange × Call) :=
  match (storePrepareRequest env.RequestId transaction type args).1 with
  | none => some (.unprepared, { c with Request := .zero })
  | some Request =>
    (storeSubmitRequest env Request c).bind fun (response, c) =>
      match response with
      | none => some (.unanswered, c)
      | some (type, Data) => (storeCheckResponse type Data Data.length).map fun status =>
          (if status = .success then .answered Data else .refused status, c)

/-! ## The calls -/

/-- The payload of a request for a path. -/
def pathArgs (Prefix : Option (List UInt8)) (Node : List UInt8) : List (List UInt8) :=
  match Prefix with
  | none => [Node, [0]]
  | some Prefix => [Prefix, [47], Node, [0]]

/-- `XS_WRITE` and `XS_RM`. -/
def XS_WRITE : ℕ := 11

@[inherit_doc XS_WRITE] def XS_RM : ℕ := 13

/-- `StoreRead` and `StoreDirectory`, of which the latter refuses an empty payload. -/
def fetch (type : ℕ) (refuseEmpty : Bool) (transaction : Option Transaction) (Prefix : Option (List UInt8))
    (Node : List UInt8) : Option Result :=
  if !storeCheckPathLength Prefix Node then some ((Call.start []).fail [])
  else (exchange env transaction type (pathArgs Prefix Node) (.start [])).bind fun (e, c) =>
    match e with
    | .unprepared => some (c.fail [])
    | .unanswered => some (c.fail [])
    | .refused _ => some ((c.free .response).fail [])
    | .answered Data =>
      (storeCopyPayload (env.allocate .buffer) Data Data.length).map fun Buffer =>
        if Buffer.isNone then (c.free .response).fail []
        else
          let c := (c.allocate .buffer).insert .buffer
          if refuseEmpty ∧ Data.length = 0 then
            ((((c.remove .buffer).free .buffer).free .response).fail [])
          else ⟨c.free .response, true, [.buffer]⟩

/-- `StoreRead`. -/
def storeRead := fetch env XS_READ false

/-- `StoreDirectory`. -/
def storeDirectory := fetch env XS_DIRECTORY true

/-- `StoreWrite` and `StoreRemove`, from the request on. -/
def send (type : ℕ) (transaction : Option Transaction) (args : List (List UInt8)) : Option Result :=
  (exchange env transaction type args (.start [])).map fun (e, c) =>
    match e with
    | .unprepared => c.fail []
    | .unanswered => c.fail []
    | .refused _ => (c.free .response).fail []
    | .answered _ => ⟨c.free .response, true, []⟩

/-- `StoreWrite`. -/
def storeWrite (transaction : Option Transaction) (Prefix : Option (List UInt8)) (Node Value : List UInt8) :
    Option Result :=
  send env XS_WRITE transaction (pathArgs Prefix Node ++ [Value])

/-- `StoreRemove`. -/
def storeRemove (transaction : Option Transaction) (Prefix : Option (List UInt8)) (Node : List UInt8) :
    Option Result :=
  if !storeCheckPathLength Prefix Node then some ((Call.start []).fail [])
  else send env XS_RM transaction (pathArgs Prefix Node)

/-- `StoreTransactionStart`. -/
def storeTransactionStart : Option Result :=
  if !env.allocate .transaction then some ((Call.start []).fail [])
  else (exchange env none XS_TRANSACTION_START [[0]] ((Call.start []).allocate .transaction)).bind
    fun (e, c) =>
      match e with
      | .unprepared => some ((c.free .transaction).fail [])
      | .unanswered => some ((c.free .transaction).fail [])
      | .refused _ => some (((c.free .response).free .transaction).fail [])
      | .answered Data =>
        (CString.strtoul 4294967295 10 Data).map fun _ =>
          ⟨(c.free .response).insert .transaction, true, [.transaction]⟩

/-- `StoreTransactionEnd`. A transaction that is not active, and one that has to be retried, comes to its
end all the same. -/
def storeTransactionEnd (Transaction : Requests.Transaction) (Commit : Bool) : Option Result :=
  let c : Call := { Call.start [.transaction] with Request := .zero }
  if !Transaction.Active then some (((c.remove .transaction).free .transaction).fail [])
  else (exchange env (some Transaction) XS_TRANSACTION_END [if Commit then [84, 0] else [70, 0]] c).map
    fun (e, c) =>
      match e with
      | .unprepared => c.fail [.transaction]
      | .unanswered => c.fail [.transaction]
      | .refused status =>
        if status = .retry then
          (((c.free .response).remove .transaction).free .transaction).fail []
        else (c.free .response).fail [.transaction]
      | .answered _ => ⟨((c.free .response).remove .transaction).free .transaction, true, []⟩

/-- `StoreWatchAdd`, with the watch as it is put on the list. If the request cannot be prepared, the watch
stays on the list, and its path is not freed. -/
def storeWatchAdd (Prefix : Option (List UInt8)) (Node : List UInt8) (Caller Id : ℕ) : Option Result :=
  if !storeCheckPathLength Prefix Node then some ((Call.start []).fail [])
  else if !env.allocate .watch then some ((Call.start []).fail [])
  else
    let c := (Call.start []).allocate .watch
    if !env.allocate .path then some ((c.free .watch).fail [])
    else
      let Watch : Operations.Watch := ⟨Caller, Id, watchPath Prefix Node, true⟩
      (exchange env none XS_WATCH [Watch.Path, [0], Watch.Token, [0]]
        ((c.allocate .path).insert .watch)).map fun (e, c) =>
          match e with
          | .unprepared => (c.free .watch).fail []
          | .unanswered => (((c.remove .watch).free .path).free .watch).fail []
          | .refused _ => ((((c.free .response).remove .watch).free .path).free .watch).fail []
          | .answered _ => ⟨c.free .response, true, [.watch, .path]⟩

/-- `StoreWatchRemove`. -/
def storeWatchRemove (Watch : Operations.Watch) : Option Result :=
  let c : Call := { Call.start [.watch] with Request := .zero }
  if !Watch.Active then some ⟨((c.remove .watch).free .path).free .watch, true, []⟩
  else (exchange env none XS_UNWATCH [Watch.Path, [0], Watch.Token, [0]] c).map fun (e, c) =>
    match e with
    | .unprepared => c.fail [.watch, .path]
    | .unanswered => c.fail [.watch, .path]
    | .refused _ => (c.free .response).fail [.watch, .path]
    | .answered _ => ⟨(((c.free .response).remove .watch).free .path).free .watch, true, []⟩

/-- The permission segment, if all permissions can be formatted. A permission for which there is no room is
refused, if only after its letter has been stored (`Permissions`). -/
def permissionSegment (Permissions : List Permission) : Option (List UInt8) :=
  match formatPermissions Permissions (List.replicate payloadMax 0) 0 payloadMax with
  | some (.success, PermissionString, Length) => some (PermissionString.take (payloadMax - Length))
  | _ => none

/-- `StorePermissionsSet`. -/
def storePermissionsSet (transaction : Option Transaction) (Prefix : Option (List UInt8)) (Node : List UInt8)
    (Permissions : List Permission) : Option Result :=
  if !storeCheckPathLength Prefix Node then some ((Call.start []).fail [])
  else if !env.allocate .permissionString then some ((Call.start []).fail [])
  else
    let c := (Call.start []).allocate .permissionString
    if !env.allocate .path then some ((c.free .permissionString).fail [])
    else
      let c := c.allocate .path
      match permissionSegment Permissions with
      | none => some ((({ c with Request := .zero }.free .path).free .permissionString).fail [])
      | some segment =>
        (exchange env transaction XS_SET_PERMS [watchPath Prefix Node, [0], segment] c).map fun (e, c) =>
          match e with
          | .unprepared => ((c.free .path).free .permissionString).fail []
          | .unanswered => ((c.free .path).free .permissionString).fail []
          | .refused _ => (((c.free .response).free .path).free .permissionString).fail []
          | .answered _ => ⟨((c.free .response).free .path).free .permissionString, true, []⟩

/-! ## What is expected -/

/-- An operation, with its arguments. -/
inductive Operation
  | read (transaction : Option Transaction) (Prefix : Option (List UInt8)) (Node : List UInt8)
  | write (transaction : Option Transaction) (Prefix : Option (List UInt8)) (Node Value : List UInt8)
  | remove (transaction : Option Transaction) (Prefix : Option (List UInt8)) (Node : List UInt8)
  | directory (transaction : Option Transaction) (Prefix : Option (List UInt8)) (Node : List UInt8)
  | transactionStart
  | transactionEnd (Transaction : Requests.Transaction) (Commit : Bool)
  | watchAdd (Prefix : Option (List UInt8)) (Node : List UInt8) (Caller Id : ℕ)
  | watchRemove (Watch : Operations.Watch)
  | permissionsSet (transaction : Option Transaction) (Prefix : Option (List UInt8)) (Node : List UInt8)
      (Permissions : List Permission)

/-- The operation as it runs, if it returns. -/
def Operation.run : Operation → Option Result
  | .read transaction Prefix Node => storeRead env transaction Prefix Node
  | .write transaction Prefix Node Value => storeWrite env transaction Prefix Node Value
  | .remove transaction Prefix Node => storeRemove env transaction Prefix Node
  | .directory transaction Prefix Node => storeDirectory env transaction Prefix Node
  | .transactionStart => storeTransactionStart env
  | .transactionEnd Transaction Commit => storeTransactionEnd env Transaction Commit
  | .watchAdd Prefix Node Caller Id => storeWatchAdd env Prefix Node Caller Id
  | .watchRemove Watch => storeWatchRemove env Watch
  | .permissionsSet transaction Prefix Node Permissions =>
    storePermissionsSet env transaction Prefix Node Permissions

/-- What the caller has had before. -/
def Operation.given : Operation → List Object
  | .transactionEnd .. => [.transaction]
  | .watchRemove .. => [.watch, .path]
  | _ => []

/-- The request that an operation prepares, if it gets so far and `StorePrepareRequest` succeeds. -/
def Operation.request : Operation → Option Requests.Request
  | .read transaction Prefix Node =>
    if storeCheckPathLength Prefix Node then
      (storePrepareRequest env.RequestId transaction XS_READ (pathArgs Prefix Node)).1
    else none
  | .write transaction Prefix Node Value =>
    (storePrepareRequest env.RequestId transaction XS_WRITE (pathArgs Prefix Node ++ [Value])).1
  | .remove transaction Prefix Node =>
    if storeCheckPathLength Prefix Node then
      (storePrepareRequest env.RequestId transaction XS_RM (pathArgs Prefix Node)).1
    else none
  | .directory transaction Prefix Node =>
    if storeCheckPathLength Prefix Node then
      (storePrepareRequest env.RequestId transaction XS_DIRECTORY (pathArgs Prefix Node)).1
    else none
  | .transactionStart =>
    if env.allocate .transaction then
      (storePrepareRequest env.RequestId none XS_TRANSACTION_START [[0]]).1
    else none
  | .transactionEnd Transaction Commit =>
    if Transaction.Active then
      (storePrepareRequest env.RequestId (some Transaction) XS_TRANSACTION_END
        [if Commit then [84, 0] else [70, 0]]).1
    else none
  | .watchAdd Prefix Node Caller Id =>
    let Watch : Operations.Watch := ⟨Caller, Id, watchPath Prefix Node, true⟩
    if storeCheckPathLength Prefix Node ∧ env.allocate .watch ∧ env.allocate .path then
      (storePrepareRequest env.RequestId none XS_WATCH [Watch.Path, [0], Watch.Token, [0]]).1
    else none
  | .watchRemove Watch =>
    if Watch.Active then
      (storePrepareRequest env.RequestId none XS_UNWATCH [Watch.Path, [0], Watch.Token, [0]]).1
    else none
  | .permissionsSet transaction Prefix Node Permissions =>
    if storeCheckPathLength Prefix Node ∧ env.allocate .permissionString ∧ env.allocate .path then
      (permissionSegment Permissions).bind fun segment =>
        (storePrepareRequest env.RequestId transaction XS_SET_PERMS
          [watchPath Prefix Node, [0], segment]).1
    else none

/-- Nothing is left of a call that has returned: its request is zero, if it has got as far as to have one,
and on no list, its response has been freed once, and what it has been given and what it has allocated has
been freed or is with its caller, each object once. What is still on a list of the context is with the
caller. -/
structure Clean (given : List Object) (r : Result) : Prop where
  request : r.call.Request = .zero ∨ r.call.Request = .unused
  link : r.call.link = .unlinked
  response : r.call.freed.count .response = r.call.allocated.count .response
  objects : (given ++ r.call.allocated).Perm (r.call.freed ++ r.returned)
  once : (r.call.freed ++ r.returned).Nodup
  listed : ∀ object ∈ r.call.listed, object ∈ r.returned

/-- The operation, if it returns, leaves nothing. -/
def Operation.LeavesNothing (op : Operation) : Prop := ∀ r, op.run env = some r → Clean op.given r

/-! ## The request is cleared or left -/

variable {env} {transaction : Option Transaction} {type : ℕ} {args : List (List UInt8)} {c c' : Call}
  {e : Exchange} {r : Result}

/-- If there is memory for the response, the request is cleared. -/
theorem exchange_supplied
    (hsupplied : (storePrepareRequest env.RequestId transaction type args).1.isSome →
      env.allocate .response = true)
    (h : exchange env transaction type args c = some (e, c')) :
    (e = .unprepared ∧ (storePrepareRequest env.RequestId transaction type args).1 = none ∧
      c' = { c with Request := .zero }) ∨
    (((∃ status, e = .refused status) ∨ ∃ Data, e = .answered Data) ∧
      c' = { c.allocate .response with Request := .zero, link := .unlinked }) := by
  unfold exchange at h
  cases hprepare : (storePrepareRequest env.RequestId transaction type args).1 with
  | none =>
    rw [hprepare] at h
    obtain ⟨rfl, rfl⟩ := Prod.mk.inj (Option.some.inj h)
    exact .inl ⟨rfl, rfl, rfl⟩
  | some Request =>
    have hresponse : env.allocate .response = true := hsupplied (by rw [hprepare]; rfl)
    rw [hprepare] at h
    obtain ⟨⟨response, c₁⟩, hsubmit, h⟩ := Option.bind_eq_some_iff.mp h
    rw [storeSubmitRequest, hresponse, if_neg (by decide)] at hsubmit
    obtain ⟨⟨type', Data⟩, -, heq⟩ := Option.map_eq_some_iff.mp hsubmit
    obtain ⟨rfl, rfl⟩ := Prod.mk.inj heq
    obtain ⟨status, -, heq⟩ := Option.map_eq_some_iff.mp h
    obtain ⟨rfl, rfl⟩ := Prod.mk.inj heq
    refine .inr ⟨?_, rfl⟩
    split_ifs
    · exact .inr ⟨_, rfl⟩
    · exact .inl ⟨_, rfl⟩

/-- If there is none, it is left as it was prepared. -/
theorem exchange_unsupplied {Request : Requests.Request}
    (hprepare : (storePrepareRequest env.RequestId transaction type args).1 = some Request)
    (hresponse : env.allocate .response = false) :
    exchange env transaction type args c = some (.unanswered, { c with Request := .holds Request }) := by
  unfold exchange
  rw [hprepare]
  dsimp only
  rw [storeSubmitRequest, hresponse, if_pos (by decide)]
  rfl

theorem clean_of {given : List Object} (hrequest : r.call.Request = .zero ∨ r.call.Request = .unused)
    (h : r.call.link = .unlinked ∧ r.call.freed.count .response = r.call.allocated.count .response ∧
      (given ++ r.call.allocated).Perm (r.call.freed ++ r.returned) ∧ (r.call.freed ++ r.returned).Nodup ∧
      ∀ object ∈ r.call.listed, object ∈ r.returned) : Clean given r :=
  ⟨hrequest, h.1, h.2.1, h.2.2.1, h.2.2.2.1, h.2.2.2.2⟩

theorem not_clean {given : List Object} {Request : Requests.Request} (h : r.call.Request = .holds Request) :
    ¬ Clean given r := by
  intro hclean
  obtain hzero | hunused := hclean.request
  · rw [h] at hzero
    cases hzero
  · rw [h] at hunused
    cases hunused

/-- A call that has failed before it has a request. -/
theorem clean_start : Clean [] ((Call.start []).fail []) := clean_of (.inr rfl) (by decide)

/-! ## Nothing is left if there is memory for the response -/

theorem fetch_clean {refuseEmpty : Bool} {Prefix : Option (List UInt8)} {Node : List UInt8}
    (hsupplied : storeCheckPathLength Prefix Node = true →
      (storePrepareRequest env.RequestId transaction type (pathArgs Prefix Node)).1.isSome →
        env.allocate .response = true)
    (h : fetch env type refuseEmpty transaction Prefix Node = some r) : Clean [] r := by
  unfold fetch at h
  by_cases hcheck : storeCheckPathLength Prefix Node = true
  · rw [if_neg (by simp [hcheck])] at h
    obtain ⟨⟨e, c⟩, hexchange, h⟩ := Option.bind_eq_some_iff.mp h
    obtain ⟨rfl, -, rfl⟩ | ⟨⟨status, rfl⟩ | ⟨Data, rfl⟩, rfl⟩ :=
      exchange_supplied (hsupplied hcheck) hexchange
    · obtain rfl := Option.some.inj h
      exact clean_of (.inl rfl) (by decide)
    · obtain rfl := Option.some.inj h
      exact clean_of (.inl rfl) (by decide)
    · obtain ⟨Buffer, -, rfl⟩ := Option.map_eq_some_iff.mp h
      split_ifs
      · exact clean_of (.inl rfl) (by decide)
      · exact clean_of (.inl rfl) (by decide)
      · exact clean_of (.inl rfl) (by decide)
  · rw [if_pos (by simpa using hcheck)] at h
    obtain rfl := Option.some.inj h
    exact clean_start

theorem send_clean
    (hsupplied : (storePrepareRequest env.RequestId transaction type args).1.isSome →
      env.allocate .response = true)
    (h : send env type transaction args = some r) : Clean [] r := by
  obtain ⟨⟨e, c⟩, hexchange, rfl⟩ := Option.map_eq_some_iff.mp h
  obtain ⟨rfl, -, rfl⟩ | ⟨⟨status, rfl⟩ | ⟨Data, rfl⟩, rfl⟩ := exchange_supplied hsupplied hexchange
  all_goals
    dsimp only
    exact clean_of (.inl rfl) (by decide)

theorem storeTransactionStart_clean
    (hsupplied : env.allocate .transaction = true →
      (storePrepareRequest env.RequestId none XS_TRANSACTION_START [[0]]).1.isSome →
        env.allocate .response = true)
    (h : storeTransactionStart env = some r) : Clean [] r := by
  unfold storeTransactionStart at h
  by_cases hallocate : env.allocate .transaction = true
  · rw [if_neg (by simp [hallocate])] at h
    obtain ⟨⟨e, c⟩, hexchange, h⟩ := Option.bind_eq_some_iff.mp h
    obtain ⟨rfl, -, rfl⟩ | ⟨⟨status, rfl⟩ | ⟨Data, rfl⟩, rfl⟩ :=
      exchange_supplied (hsupplied hallocate) hexchange
    · obtain rfl := Option.some.inj h
      exact clean_of (.inl rfl) (by decide)
    · obtain rfl := Option.some.inj h
      exact clean_of (.inl rfl) (by decide)
    · obtain ⟨Id, -, rfl⟩ := Option.map_eq_some_iff.mp h
      exact clean_of (.inl rfl) (by decide)
  · rw [if_pos (by simpa using hallocate)] at h
    obtain rfl := Option.some.inj h
    exact clean_start

theorem storeTransactionEnd_clean {Transaction : Requests.Transaction} {Commit : Bool}
    (hsupplied : Transaction.Active = true →
      (storePrepareRequest env.RequestId (some Transaction) XS_TRANSACTION_END
        [if Commit then [84, 0] else [70, 0]]).1.isSome → env.allocate .response = true)
    (h : storeTransactionEnd env Transaction Commit = some r) : Clean [.transaction] r := by
  unfold storeTransactionEnd at h
  by_cases hactive : Transaction.Active = true
  · rw [if_neg (by simp [hactive])] at h
    obtain ⟨⟨e, c⟩, hexchange, rfl⟩ := Option.map_eq_some_iff.mp h
    obtain ⟨rfl, -, rfl⟩ | ⟨⟨status, rfl⟩ | ⟨Data, rfl⟩, rfl⟩ :=
      exchange_supplied (hsupplied hactive) hexchange
    · exact clean_of (.inl rfl) (by decide)
    · dsimp only
      split_ifs
      · exact clean_of (.inl rfl) (by decide)
      · exact clean_of (.inl rfl) (by decide)
    · dsimp only
      exact clean_of (.inl rfl) (by decide)
  · rw [if_pos (by simpa using hactive)] at h
    obtain rfl := Option.some.inj h
    exact clean_of (.inl rfl) (by decide)

/-- The request for a watch is always prepared, so its failure is not reached. -/
theorem storeWatchAdd_clean {Prefix : Option (List UInt8)} {Node : List UInt8} {Caller Id : ℕ}
    (hsupplied : storeCheckPathLength Prefix Node = true → env.allocate .watch = true →
      env.allocate .path = true → env.allocate .response = true)
    (h : storeWatchAdd env Prefix Node Caller Id = some r) : Clean [] r := by
  unfold storeWatchAdd at h
  by_cases hcheck : storeCheckPathLength Prefix Node = true
  · rw [if_neg (by simp [hcheck])] at h
    by_cases hwatch : env.allocate .watch = true
    · rw [if_neg (by simp [hwatch])] at h
      by_cases hpath : env.allocate .path = true
      · rw [if_neg (by simp [hpath])] at h
        obtain ⟨⟨e, c⟩, hexchange, rfl⟩ := Option.map_eq_some_iff.mp h
        obtain ⟨rfl, hnone, rfl⟩ | ⟨⟨status, rfl⟩ | ⟨Data, rfl⟩, rfl⟩ :=
          exchange_supplied (fun _ => hsupplied hcheck hwatch hpath) hexchange
        · exact absurd hnone (Operations.prepared_of_watch (length_watchPath_lt hcheck) _)
        all_goals
          dsimp only
          exact clean_of (.inl rfl) (by decide)
      · rw [if_pos (by simpa using hpath)] at h
        obtain rfl := Option.some.inj h
        exact clean_of (.inr rfl) (by decide)
    · rw [if_pos (by simpa using hwatch)] at h
      obtain rfl := Option.some.inj h
      exact clean_start
  · rw [if_pos (by simpa using hcheck)] at h
    obtain rfl := Option.some.inj h
    exact clean_start

theorem storeWatchRemove_clean {Watch : Operations.Watch}
    (hsupplied : Watch.Active = true →
      (storePrepareRequest env.RequestId none XS_UNWATCH
        [Watch.Path, [0], Watch.Token, [0]]).1.isSome → env.allocate .response = true)
    (h : storeWatchRemove env Watch = some r) : Clean [.watch, .path] r := by
  unfold storeWatchRemove at h
  by_cases hactive : Watch.Active = true
  · rw [if_neg (by simp [hactive])] at h
    obtain ⟨⟨e, c⟩, hexchange, rfl⟩ := Option.map_eq_some_iff.mp h
    obtain ⟨rfl, -, rfl⟩ | ⟨⟨status, rfl⟩ | ⟨Data, rfl⟩, rfl⟩ :=
      exchange_supplied (hsupplied hactive) hexchange
    all_goals
      dsimp only
      exact clean_of (.inl rfl) (by decide)
  · rw [if_pos (by simpa using hactive)] at h
    obtain rfl := Option.some.inj h
    exact clean_of (.inl rfl) (by decide)

theorem storePermissionsSet_clean {Prefix : Option (List UInt8)} {Node : List UInt8}
    {Permissions : List Permission}
    (hsupplied : storeCheckPathLength Prefix Node = true → env.allocate .permissionString = true →
      env.allocate .path = true → ∀ segment, permissionSegment Permissions = some segment →
        (storePrepareRequest env.RequestId transaction XS_SET_PERMS
          [watchPath Prefix Node, [0], segment]).1.isSome → env.allocate .response = true)
    (h : storePermissionsSet env transaction Prefix Node Permissions = some r) : Clean [] r := by
  unfold storePermissionsSet at h
  by_cases hcheck : storeCheckPathLength Prefix Node = true
  · rw [if_neg (by simp [hcheck])] at h
    by_cases hstring : env.allocate .permissionString = true
    · rw [if_neg (by simp [hstring])] at h
      by_cases hpath : env.allocate .path = true
      · rw [if_neg (by simp [hpath])] at h
        cases hsegment : permissionSegment Permissions with
        | none =>
          rw [hsegment] at h
          obtain rfl := Option.some.inj h
          exact clean_of (.inl rfl) (by decide)
        | some segment =>
          rw [hsegment] at h
          obtain ⟨⟨e, c⟩, hexchange, rfl⟩ := Option.map_eq_some_iff.mp h
          obtain ⟨rfl, -, rfl⟩ | ⟨⟨status, rfl⟩ | ⟨Data, rfl⟩, rfl⟩ :=
            exchange_supplied (hsupplied hcheck hstring hpath segment hsegment) hexchange
          all_goals
            dsimp only
            exact clean_of (.inl rfl) (by decide)
      · rw [if_pos (by simpa using hpath)] at h
        obtain rfl := Option.some.inj h
        exact clean_of (.inr rfl) (by decide)
    · rw [if_pos (by simpa using hstring)] at h
      obtain rfl := Option.some.inj h
      exact clean_start
  · rw [if_pos (by simpa using hcheck)] at h
    obtain rfl := Option.some.inj h
    exact clean_start

/-- **Nothing is left** of an operation for whose response there is memory. -/
theorem leavesNothing_of_supplied {op : Operation}
    (hsupplied : (op.request env).isSome → env.allocate .response = true) : op.LeavesNothing env := by
  intro r h
  cases op with
  | read transaction Prefix Node =>
    exact fetch_clean (fun hcheck hsome => hsupplied (by rwa [Operation.request, if_pos hcheck])) h
  | write transaction Prefix Node Value => exact send_clean hsupplied h
  | remove transaction Prefix Node =>
    rw [Operation.run, storeRemove] at h
    by_cases hcheck : storeCheckPathLength Prefix Node = true
    · rw [if_neg (by simp [hcheck])] at h
      exact send_clean (fun hsome => hsupplied (by rwa [Operation.request, if_pos hcheck])) h
    · rw [if_pos (by simpa using hcheck)] at h
      obtain rfl := Option.some.inj h
      exact clean_start
  | directory transaction Prefix Node =>
    exact fetch_clean (fun hcheck hsome => hsupplied (by rwa [Operation.request, if_pos hcheck])) h
  | transactionStart =>
    exact storeTransactionStart_clean
      (fun hallocate hsome => hsupplied (by rwa [Operation.request, if_pos hallocate])) h
  | transactionEnd Transaction Commit =>
    exact storeTransactionEnd_clean
      (fun hactive hsome => hsupplied (by rwa [Operation.request, if_pos hactive])) h
  | watchAdd Prefix Node Caller Id =>
    refine storeWatchAdd_clean (fun hcheck hwatch hpath => hsupplied ?_) h
    rw [Operation.request]
    dsimp only
    rw [if_pos ⟨hcheck, hwatch, hpath⟩]
    exact Option.isSome_iff_ne_none.mpr (@Operations.prepared_of_watch
      ⟨Caller, Id, watchPath Prefix Node, true⟩ (length_watchPath_lt hcheck) env.RequestId)
  | watchRemove Watch =>
    exact storeWatchRemove_clean
      (fun hactive hsome => hsupplied (by rwa [Operation.request, if_pos hactive])) h
  | permissionsSet transaction Prefix Node Permissions =>
    refine storePermissionsSet_clean (fun hcheck hstring hpath segment hsegment hsome => hsupplied ?_) h
    rwa [Operation.request, if_pos ⟨hcheck, hstring, hpath⟩, hsegment]

/-! ## The request is left if there is none -/

/-- An operation for whose response there is no memory returns, and leaves its request. -/
theorem request_left {op : Operation} {Request : Requests.Request} (hrequest : op.request env = some Request)
    (hresponse : env.allocate .response = false) :
    (op.run env).map (fun r => r.call.Request) = some (.holds Request) := by
  cases op with
  | read transaction Prefix Node =>
    obtain ⟨hcheck, hprepare⟩ := Option.ite_none_right_eq_some.mp hrequest
    rw [Operation.run, storeRead, fetch, if_neg (by simp [hcheck]), exchange_unsupplied hprepare hresponse]
    rfl
  | write transaction Prefix Node Value =>
    rw [Operation.run, storeWrite, send, exchange_unsupplied hrequest hresponse]
    rfl
  | remove transaction Prefix Node =>
    obtain ⟨hcheck, hprepare⟩ := Option.ite_none_right_eq_some.mp hrequest
    rw [Operation.run, storeRemove, if_neg (by simp [hcheck]), send,
      exchange_unsupplied hprepare hresponse]
    rfl
  | directory transaction Prefix Node =>
    obtain ⟨hcheck, hprepare⟩ := Option.ite_none_right_eq_some.mp hrequest
    rw [Operation.run, storeDirectory, fetch, if_neg (by simp [hcheck]),
      exchange_unsupplied hprepare hresponse]
    rfl
  | transactionStart =>
    obtain ⟨hallocate, hprepare⟩ := Option.ite_none_right_eq_some.mp hrequest
    rw [Operation.run, storeTransactionStart, if_neg (by simp [hallocate]),
      exchange_unsupplied hprepare hresponse]
    rfl
  | transactionEnd Transaction Commit =>
    obtain ⟨hactive, hprepare⟩ := Option.ite_none_right_eq_some.mp hrequest
    rw [Operation.run, storeTransactionEnd, if_neg (by simp [hactive]),
      exchange_unsupplied hprepare hresponse]
    rfl
  | watchAdd Prefix Node Caller Id =>
    obtain ⟨⟨hcheck, hwatch, hpath⟩, hprepare⟩ := Option.ite_none_right_eq_some.mp hrequest
    rw [Operation.run, storeWatchAdd, if_neg (by simp [hcheck]), if_neg (by simp [hwatch])]
    dsimp only
    rw [if_neg (by simp [hpath]), exchange_unsupplied hprepare hresponse]
    rfl
  | watchRemove Watch =>
    obtain ⟨hactive, hprepare⟩ := Option.ite_none_right_eq_some.mp hrequest
    rw [Operation.run, storeWatchRemove, if_neg (by simp [hactive]),
      exchange_unsupplied hprepare hresponse]
    rfl
  | permissionsSet transaction Prefix Node Permissions =>
    obtain ⟨⟨hcheck, hstring, hpath⟩, hsegment⟩ := Option.ite_none_right_eq_some.mp hrequest
    obtain ⟨segment, hsegment, hprepare⟩ := Option.bind_eq_some_iff.mp hsegment
    rw [Operation.run, storePermissionsSet, if_neg (by simp [hcheck]), if_neg (by simp [hstring])]
    dsimp only
    rw [if_neg (by simp [hpath]), hsegment]
    dsimp only
    rw [exchange_unsupplied hprepare hresponse]
    rfl

theorem not_leavesNothing {op : Operation} (hsome : (op.request env).isSome)
    (hresponse : env.allocate .response = false) : ¬ op.LeavesNothing env := by
  intro hleaves
  obtain ⟨Request, hrequest⟩ := Option.isSome_iff_exists.mp hsome
  obtain ⟨r, hrun, hholds⟩ := Option.map_eq_some_iff.mp (request_left hrequest hresponse)
  exact not_clean hholds (hleaves r hrun)

/-! ## Main result -/

/-- **Nothing is left of an operation exactly if there is memory for its response**, or it has no request
that could be submitted. -/
theorem lifetime_iff (env : Environment) (op : Operation) :
    op.LeavesNothing env ↔ ((op.request env).isSome → env.allocate .response = true) := by
  refine ⟨fun hleaves hsome => ?_, leavesNothing_of_supplied⟩
  by_contra hresponse
  exact not_leavesNothing hsome (Bool.not_eq_true _ ▸ hresponse) hleaves

/-- There is memory for everything but the response. -/
def noResponse : Environment := ⟨0, fun object => object != .response, []⟩

/-- `StoreRead` of the root leaves its request. -/
theorem storeRead_leaves_request : ¬ (Operation.read none none [47]).LeavesNothing noResponse :=
  not_leavesNothing (by decide) (by decide)

end XenBus.Store.Lifetime
