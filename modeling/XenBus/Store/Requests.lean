import XenBus.Foundations.MachineInt
import XenBus.Foundations.Ring
import XenBus.Foundations.Transition
import XenBus.Status

/-!
# Sending requests to the store

`store.c`: a request is a header and up to seven segments of payload. `StoreSendRequests` copies the
requests of the submitted list to the request ring, segment by segment; where the ring is full it stops,
and `Offset`, `Index` and the list itself say where the next poll goes on.

An event is a critical section: a request is prepared, put on the submitted list, the list is sent as
far as the ring allows, or an answered request leaves the pending list. The backend takes bytes between
events and, within a poll, before each copy; how many is an argument of the event. A copy is done in
one step: it moves what the index that it reads leaves room for, whatever the backend does meanwhile
(`Rings.Send.Inv.reports`).

`framed_of_reaches`: what has been written to the ring are the frames of the requests, in the order in
which they were submitted, up to some byte; the requests whose frame is complete, and no others, have
gone to the pending list.
-/

namespace XenBus.Store.Requests

open MachineInt Transition

/-! ## Requests -/

/-- `struct xsd_sockmsg`. -/
structure Sockmsg where
  type : ℕ
  req_id : ℕ
  tx_id : ℕ
  len : ℕ

/-- The bytes of a `uint32_t`. -/
def le32 (x : ℕ) : List UInt8 :=
  [UInt8.ofNat x, UInt8.ofNat (x / 256), UInt8.ofNat (x / 65536), UInt8.ofNat (x / 16777216)]

/-- The bytes of a header. -/
def Sockmsg.bytes (msg : Sockmsg) : List UInt8 :=
  le32 msg.type ++ le32 msg.req_id ++ le32 msg.tx_id ++ le32 msg.len

/-- What the `Data` of a segment points to: the header of its request, or data of the caller. -/
inductive Pointer
  | header
  | data (bytes : List UInt8)

/-- `XENBUS_STORE_SEGMENT`. -/
structure Segment where
  Data : Pointer
  Offset : ℕ
  Length : ℕ

/-- `XENBUS_STORE_REQUEST_STATE`. -/
inductive RequestState
  | INVALID
  | PREPARED
  | SUBMITTED
  | PENDING
  | COMPLETED
  deriving DecidableEq

/-- `XENBUS_STORE_REQUEST`; `Count` is the length of `Segment`. -/
structure Request where
  State : RequestState
  Header : Sockmsg
  Segment : List Segment
  Index : ℕ

def Request.Count (req : Request) : ℕ := req.Segment.length

/-- The bytes at a pointer of the request. -/
def Request.deref (req : Request) : Pointer → List UInt8
  | .header => req.Header.bytes
  | .data bytes => bytes

/-- A transaction, as far as requests use it. -/
structure Transaction where
  Id : ℕ
  Active : Bool

/-- The loop over the arguments of `StorePrepareRequest`, with `Header.len` and the segments so far. -/
def addSegments : List (List UInt8) → ℕ → List Segment → Option (ℕ × List Segment)
  | [], len, segments => some (len, segments)
  | Data :: args, len, segments =>
    if 8 ≤ segments.length then none
    else if 4294967296 ≤ len + Data.length ∨ 4096 < len + Data.length then none
    else addSegments args (len + Data.length) (segments ++ [⟨.data Data, 0, Data.length⟩])

/-- `StorePrepareRequest`, with the new `Context->RequestId`, which is a `USHORT`. -/
def storePrepareRequest (RequestId : ℕ) (transaction : Option Transaction) (type : ℕ)
    (args : List (List UInt8)) : Option Request × ℕ :=
  match transaction with
  | some ⟨_, false⟩ => (none, RequestId)
  | _ =>
    let Id := (transaction.map Transaction.Id).getD 0
    let request := (addSegments args 0 [⟨.header, 0, 16⟩]).map fun (len, segments) =>
      { State := .PREPARED, Header := ⟨type, RequestId, Id, len⟩, Segment := segments, Index := 0 }
    (request, (RequestId + 1) % 65536)

/-! ## The request ring -/

/-- The part of `struct xenstore_domain_interface` that requests use, with what the backend has taken
from it. -/
structure Channel where
  req : ℕ → UInt8
  req_prod : UInt32
  req_cons : UInt32
  taken : List UInt8

/-- The bytes in the ring. -/
def Channel.queue (ch : Channel) : List UInt8 :=
  Ring.contents 4294967296 1024 ch.req ch.req_prod.toNat ch.req_cons.toNat

/-- All bytes that have been written to the ring. -/
def Channel.written (ch : Channel) : List UInt8 := ch.taken ++ ch.queue

/-- The number of bytes in the ring. -/
def Channel.available (ch : Channel) : ℕ :=
  Ring.available 4294967296 ch.req_prod.toNat ch.req_cons.toNat

/-- The backend takes up to `k` bytes. -/
def Channel.take (ch : Channel) (k : ℕ) : Channel :=
  { ch with
    req_cons := UInt32.ofNat ((ch.req_cons.toNat + min k ch.available) % 4294967296)
    taken := ch.taken ++ ch.queue.take k }

/-- `StoreCopyToRing`, which returns the number of bytes copied. -/
def storeCopyToRing (ch : Channel) (Data : List UInt8) : ℕ × Channel :=
  let (Offset, req, prod) :=
    Ring.copyIn 4294967296 1024 ch.req_cons.toNat Data.length ch.req ch.req_prod.toNat Data
  (Offset, { ch with req := req, req_prod := UInt32.ofNat prod })

/-! ## Sending -/

/-- `StoreSendSegment`, for a segment of `req`: its status, the segment, the bytes copied, the ring. -/
def storeSendSegment (ch : Channel) (req : Request) (segment : Segment) :
    Status × Segment × ℕ × Channel :=
  let (Copied, ch) := storeCopyToRing ch
    (((req.deref segment.Data).drop segment.Offset).take (ulongSub segment.Length segment.Offset))
  let segment := { segment with Offset := (segment.Offset + Copied) % 4294967296 }
  (if segment.Offset = segment.Length then .success else .unsuccessful, segment, Copied, ch)

/-- What a poll carries along: the ring, the bytes that the backend takes before each of the copies to
come, and `Written`. -/
structure Poll where
  ch : Channel
  backend : List ℕ
  Written : ℕ

/-- The inner loop of `StoreSendRequests`, `while (Request->Index < Request->Count)`. -/
def sendSegments : ℕ → Poll → Request → Poll × Request
  | 0, poll, req => (poll, req)
  | fuel + 1, poll, req =>
    match req.Segment[req.Index]? with
    | none => (poll, req)
    | some segment =>
      let (status, segment, Copied, ch) :=
        storeSendSegment (poll.ch.take (poll.backend.headD 0)) req segment
      let poll := ⟨ch, poll.backend.tail, (poll.Written + Copied) % 4294967296⟩
      let req := { req with Segment := req.Segment.set req.Index segment }
      if status ≠ .success then (poll, req)
      else sendSegments fuel poll { req with Index := req.Index + 1 }

/-- `StoreSendRequests`: the poll, the submitted and the pending list. -/
def storeSendRequests : Poll → List Request → List Request → Poll × List Request × List Request
  | poll, [], Pending => (poll, [], Pending)
  | poll, req :: Submitted, Pending =>
    let (poll, req) := sendSegments req.Count poll req
    if req.Index < req.Count then (poll, req :: Submitted, Pending)
    else storeSendRequests poll Submitted (Pending ++ [{ req with State := .PENDING }])

/-! ## The system -/

/-- The part of `XENBUS_STORE_CONTEXT` that requests use, the requests that have been prepared, and in
the order of the events the requests that have been submitted and those that have become pending. -/
structure State where
  RequestId : ℕ
  prepared : List Request
  SubmittedList : List Request
  PendingList : List Request
  ch : Channel
  submitted : List Request
  pended : List Request

inductive Event
  | prepare (transaction : Option Transaction) (type : ℕ) (args : List (List UInt8))
  /-- The critical section of `StoreSubmitRequest`, up to its poll. -/
  | submit (i : ℕ)
  /-- `StoreSendRequests`, in any poll. -/
  | send (backend : List ℕ)
  | take (k : ℕ)
  /-- The response to a pending request. -/
  | answered (i : ℕ)

/-- One event. -/
def step (s : State) : Event → Option State
  | .prepare transaction type args =>
    let (request, RequestId) := storePrepareRequest s.RequestId transaction type args
    some { s with RequestId := RequestId, prepared := s.prepared ++ request.toList }
  | .submit i =>
    s.prepared[i]?.map fun req =>
      { s with
        prepared := s.prepared.eraseIdx i
        SubmittedList := s.SubmittedList ++ [{ req with State := .SUBMITTED }]
        submitted := s.submitted ++ [req] }
  | .send backend =>
    let (poll, Submitted, Pending) := storeSendRequests ⟨s.ch, backend, 0⟩ s.SubmittedList s.PendingList
    some { s with
      ch := poll.ch
      SubmittedList := Submitted
      PendingList := Pending
      pended := s.pended ++ Pending.drop s.PendingList.length }
  | .take k => some { s with ch := s.ch.take k }
  | .answered i => some { s with PendingList := s.PendingList.eraseIdx i }

/-- No request yet. -/
def init (ch : Channel) (RequestId : ℕ) : State := ⟨RequestId, [], [], [], ch, [], []⟩

/-! ## Frames -/

/-- What the segments of a request point to, and their lengths. Sending changes neither. -/
def Request.shape (req : Request) : List (Pointer × ℕ) :=
  req.Segment.map fun segment => (segment.Data, segment.Length)

/-- The bytes of a request on the wire: its header and its payload. -/
def Request.frame (req : Request) : List UInt8 := (req.shape.map fun p => req.deref p.1).flatten

/-- The bytes of a request that have not been copied yet. -/
def Request.remaining (req : Request) : List UInt8 :=
  ((req.Segment.drop req.Index).map fun segment =>
    (req.deref segment.Data).drop segment.Offset).flatten

/-- The segments of a request point to as many bytes as they say, and `Header.len` counts those of the
payload. -/
structure Request.WellFormed (req : Request) : Prop where
  length : ∀ p ∈ req.shape, p.2 = (req.deref p.1).length
  small : ∀ p ∈ req.shape, p.2 ≤ 4096
  header : ∃ payload, req.shape = (.header, 16) :: payload ∧
    req.Header.len = (payload.map Prod.snd).sum
  offset : ∀ segment ∈ req.Segment, segment.Offset ≤ segment.Length
  count : req.Count ≤ 8
  index : req.Index ≤ req.Count

/-- A segment of payload that has not been sent. -/
def payloadSegment (Data : List UInt8) : Segment := ⟨.data Data, 0, Data.length⟩

theorem addSegments_eq {args : List (List UInt8)} {len len' : ℕ} {segments segments' : List Segment}
    (hlen : len ≤ 4096) (hcount : segments.length ≤ 8)
    (h : addSegments args len segments = some (len', segments')) :
    segments' = segments ++ args.map payloadSegment ∧
      len' = len + (args.map List.length).sum ∧ len' ≤ 4096 ∧ segments'.length ≤ 8 := by
  induction args generalizing len segments with
  | nil =>
    obtain ⟨rfl, rfl⟩ : len = len' ∧ segments = segments' := by simpa [addSegments] using h
    simp [hlen, hcount]
  | cons Data args ih =>
    rw [addSegments] at h
    split_ifs at h with hfull hlong
    obtain ⟨rfl, rfl, hle, hle'⟩ := ih (by omega) (by rw [List.length_append]; simp; omega) h
    refine ⟨?_, ?_, hle, hle'⟩
    · rw [List.map_cons, List.append_assoc]
      rfl
    · rw [List.map_cons, List.sum_cons]
      omega

theorem Sockmsg.length_bytes (msg : Sockmsg) : msg.bytes.length = 16 := rfl

/-- **A prepared request is well formed**; it has the given payload, and nothing of it has been sent. -/
theorem storePrepareRequest_spec {RequestId type : ℕ} {transaction : Option Transaction}
    {args : List (List UInt8)} {req : Request}
    (h : (storePrepareRequest RequestId transaction type args).1 = some req) :
    req.WellFormed ∧ req.Segment = ⟨.header, 0, 16⟩ :: args.map payloadSegment ∧ req.Index = 0 := by
  obtain ⟨Id, hmap⟩ : ∃ Id, (addSegments args 0 [⟨.header, 0, 16⟩]).map (fun (len, segments) =>
      { State := .PREPARED, Header := ⟨type, RequestId, Id, len⟩, Segment := segments, Index := 0 }) =
      some req := by
    unfold storePrepareRequest at h
    split at h
    · simp at h
    · exact ⟨_, h⟩
  obtain ⟨⟨len, segments⟩, hadd, rfl⟩ := Option.map_eq_some_iff.mp hmap
  obtain ⟨rfl, rfl, hle, hcount⟩ := addSegments_eq (Nat.zero_le _) (by simp) hadd
  have hshape : ([⟨.header, 0, 16⟩] ++ args.map payloadSegment : List Segment).map
      (fun segment => (segment.Data, segment.Length)) =
      (Pointer.header, 16) :: args.map fun Data => (Pointer.data Data, Data.length) := by
    rw [List.map_append, List.map_map]
    rfl
  refine ⟨⟨?_, ?_, ⟨_, hshape, ?_⟩, ?_, hcount, Nat.zero_le _⟩, rfl, rfl⟩
  · intro p hp
    obtain rfl | hp := List.mem_cons.mp (show p ∈ _ :: _ from hshape.subst hp)
    · rfl
    · obtain ⟨Data, -, rfl⟩ := List.mem_map.mp hp
      rfl
  · intro p hp
    obtain rfl | hp := List.mem_cons.mp (show p ∈ _ :: _ from hshape.subst hp)
    · decide
    · obtain ⟨Data, hData, rfl⟩ := List.mem_map.mp hp
      have hsum := List.single_le_sum (fun _ _ => Nat.zero_le _) _
        (List.mem_map_of_mem (f := List.length) hData)
      show Data.length ≤ 4096
      omega
  · show 0 + (args.map List.length).sum = _
    rw [List.map_map, Nat.zero_add]
    rfl
  · intro segment hsegment
    obtain hhead | htail := List.mem_append.mp hsegment
    · obtain rfl := List.mem_singleton.mp hhead
      exact Nat.zero_le _
    · obtain ⟨Data, -, rfl⟩ := List.mem_map.mp htail
      exact Nat.zero_le _

/-! ## One copy -/

/-- What the backend takes has been written all the same. -/
theorem Channel.take_spec (ch : Channel) (hroom : ch.available ≤ 1024) (k : ℕ) :
    (ch.take k).written = ch.written ∧ (ch.take k).available ≤ 1024 := by
  have hprod := ch.req_prod.toNat_lt
  have hcons := ch.req_cons.toNat_lt
  have hcons' : (ch.take k).req_cons.toNat = (ch.req_cons.toNat + min k ch.available) % 4294967296 :=
    UInt32.toNat_ofNat_of_lt' (Nat.mod_lt _ (by decide))
  have hqueue : (ch.take k).queue = ch.queue.drop (min k ch.available) := by
    rw [Channel.queue, hcons']
    exact Ring.contents_advance ch.req (by decide) hprod hcons (min_le_right _ _)
  have havail : (ch.take k).available = ch.available - min k ch.available := by
    rw [Channel.available, hcons']
    exact Ring.available_advance hprod hcons (min_le_right _ _)
  have htake : ch.queue.take k = ch.queue.take (min k ch.available) := by
    rw [List.take_eq_take_min, Channel.queue, Ring.length_contents]
    rfl
  refine ⟨?_, by omega⟩
  show ch.taken ++ ch.queue.take k ++ (ch.take k).queue = ch.taken ++ ch.queue
  rw [hqueue, htake, List.append_assoc, List.take_append_drop]

/-- `StoreCopyToRing` writes the front of the data. -/
theorem storeCopyToRing_spec (ch : Channel) (hroom : ch.available ≤ 1024) (Data : List UInt8) :
    (storeCopyToRing ch Data).1 ≤ Data.length ∧
      (storeCopyToRing ch Data).2.written = ch.written ++ Data.take (storeCopyToRing ch Data).1 ∧
      (storeCopyToRing ch Data).2.available ≤ 1024 := by
  have hprod := ch.req_prod.toNat_lt
  have hcons := ch.req_cons.toNat_lt
  obtain ⟨n, hn⟩ : ∃ n, n = min Data.length (1024 - ch.available) := ⟨_, rfl⟩
  obtain ⟨req, hcopy, hqueue⟩ := Ring.copyIn_eq (M := 4294967296) (N := 1024) (by decide) (by decide)
    ch.req hprod hcons hroom le_rfl hn
  have heq : storeCopyToRing ch Data = (n, { ch with
      req := req
      req_prod := UInt32.ofNat ((ch.req_prod.toNat + n) % 4294967296) }) := by
    rw [storeCopyToRing, hcopy]
  have hprod' : (UInt32.ofNat ((ch.req_prod.toNat + n) % 4294967296)).toNat =
      (ch.req_prod.toNat + n) % 4294967296 :=
    UInt32.toNat_ofNat_of_lt' (Nat.mod_lt _ (by decide))
  have havail : Ring.available 4294967296 ((ch.req_prod.toNat + n) % 4294967296) ch.req_cons.toNat =
      ch.available + n := Ring.available_produce (by unfold Channel.available at hn hroom; omega)
  rw [heq]
  refine ⟨by omega, ?_, ?_⟩
  · show ch.taken ++ Ring.contents 4294967296 1024 req (UInt32.ofNat _).toNat ch.req_cons.toNat = _
    rw [hprod', hqueue, Channel.written, List.append_assoc]
    rfl
  · show Ring.available 4294967296 (UInt32.ofNat _).toNat ch.req_cons.toNat ≤ 1024
    rw [hprod', havail]
    omega

/-- `StoreSendSegment` writes the front of what is left of the segment; it succeeds iff nothing is left
then. -/
theorem storeSendSegment_spec (ch : Channel) (hroom : ch.available ≤ 1024) (req : Request)
    (segment : Segment) (hlength : segment.Length = (req.deref segment.Data).length)
    (hoffset : segment.Offset ≤ segment.Length) (hsmall : segment.Length ≤ 4096) :
    ∃ status Offset Copied ch', storeSendSegment ch req segment =
        (status, { segment with Offset := Offset }, Copied, ch') ∧
      Offset ≤ segment.Length ∧ ch'.available ≤ 1024 ∧
      ch'.written ++ (req.deref segment.Data).drop Offset =
        ch.written ++ (req.deref segment.Data).drop segment.Offset ∧
      (status = .success ↔ Offset = segment.Length) := by
  have hrest : ((req.deref segment.Data).drop segment.Offset).take
      (ulongSub segment.Length segment.Offset) = (req.deref segment.Data).drop segment.Offset := by
    rw [ulongSub_of_le hoffset, hlength, List.take_of_length_le (by rw [List.length_drop])]
  obtain ⟨hle, hwritten, hroom'⟩ :=
    storeCopyToRing_spec ch hroom ((req.deref segment.Data).drop segment.Offset)
  obtain ⟨Copied, hCopied⟩ :
    ∃ n, n = (storeCopyToRing ch ((req.deref segment.Data).drop segment.Offset)).1 := ⟨_, rfl⟩
  rw [← hCopied] at hle hwritten
  rw [List.length_drop, ← hlength] at hle
  have hwrap : (segment.Offset + Copied) % 4294967296 = segment.Offset + Copied := by omega
  refine ⟨if segment.Offset + Copied = segment.Length then .success else .unsuccessful,
    segment.Offset + Copied, Copied, _, ?_, by omega, hroom', ?_, ?_⟩
  · rw [storeSendSegment, hrest]
    simp only [← hCopied, hwrap]
  · rw [hwritten, List.append_assoc, ← List.drop_drop, List.take_append_drop]
  · split_ifs with hdone <;> simp [hdone]

/-! ## One request -/

/-- A request whose current segment has been sent up to `Offset`. -/
def Request.upTo (req : Request) (segment : Requests.Segment) (Offset : ℕ) : Request :=
  { req with Segment := req.Segment.set req.Index { segment with Offset := Offset } }

variable {req : Request} {segment : Requests.Segment} {Offset : ℕ}

theorem Request.shape_upTo (hsegment : req.Segment[req.Index]? = some segment) :
    (req.upTo segment Offset).shape = req.shape := by
  obtain ⟨hlt, rfl⟩ := List.getElem?_eq_some_iff.mp hsegment
  apply List.ext_getElem
  · simp [Request.shape, Request.upTo]
  · intro i hi hi'
    by_cases heq : req.Index = i
    · subst heq
      simp [Request.shape, Request.upTo]
    · simp [Request.shape, Request.upTo, heq]

theorem Request.frame_upTo (hsegment : req.Segment[req.Index]? = some segment) :
    (req.upTo segment Offset).frame = req.frame := by
  rw [Request.frame, Request.shape_upTo hsegment]
  rfl

theorem Request.WellFormed.upTo (h : req.WellFormed)
    (hsegment : req.Segment[req.Index]? = some segment) (hOffset : Offset ≤ segment.Length) :
    (req.upTo segment Offset).WellFormed := by
  have hshape : (req.upTo segment Offset).shape = req.shape := Request.shape_upTo hsegment
  have hcount : (req.upTo segment Offset).Count = req.Count := List.length_set
  refine ⟨?_, ?_, ?_, ?_, hcount ▸ h.count, hcount ▸ h.index⟩
  · rw [hshape]
    exact h.length
  · rw [hshape]
    exact h.small
  · rw [hshape]
    exact h.header
  · intro segment' hmem
    obtain hmem | rfl := List.mem_or_eq_of_mem_set hmem
    · exact h.offset segment' hmem
    · exact hOffset

/-- What remains of a request are the rest of its current segment and the segments after that. -/
theorem Request.remaining_eq (hsegment : req.Segment[req.Index]? = some segment) :
    req.remaining = (req.deref segment.Data).drop segment.Offset ++
      { req with Index := req.Index + 1 }.remaining := by
  obtain ⟨hlt, rfl⟩ := List.getElem?_eq_some_iff.mp hsegment
  rw [Request.remaining, List.drop_eq_getElem_cons hlt]
  rfl

theorem Request.remaining_upTo (hsegment : req.Segment[req.Index]? = some segment) (Offset : ℕ) :
    (req.upTo segment Offset).remaining = (req.deref segment.Data).drop Offset ++
      { req with Index := req.Index + 1 }.remaining ∧
    { req.upTo segment Offset with Index := req.Index + 1 }.remaining =
      { req with Index := req.Index + 1 }.remaining := by
  obtain ⟨hlt, rfl⟩ := List.getElem?_eq_some_iff.mp hsegment
  have hnext : { req.upTo req.Segment[req.Index] Offset with Index := req.Index + 1 }.remaining =
      { req with Index := req.Index + 1 }.remaining := by
    show (((req.Segment.set req.Index _).drop (req.Index + 1)).map _).flatten = _
    rw [List.drop_set_of_lt (Nat.lt_succ_self _)]
    rfl
  have hget : (req.upTo req.Segment[req.Index] Offset).Segment[req.Index]? =
      some { req.Segment[req.Index] with Offset := Offset } := List.getElem?_set_self hlt
  refine ⟨?_, hnext⟩
  rw [← hnext]
  exact Request.remaining_eq hget

/-- What the inner loop does to a poll and a request. -/
structure Sent (poll : Poll) (req : Request) (poll' : Poll) (req' : Request) : Prop where
  wellFormed : req'.WellFormed
  frame : req'.frame = req.frame
  room : poll'.ch.available ≤ 1024
  flow : poll'.ch.written ++ req'.remaining = poll.ch.written ++ req.remaining
  /-- It stops with bytes of the request still to be copied, or at its end. -/
  stuck : req'.Index < req'.Count → req'.remaining ≠ []

/-- The request that the inner loop is done with. -/
theorem Request.WellFormed.sent_refl {poll : Poll} (h : req.WellFormed) (hroom : poll.ch.available ≤ 1024)
    (hcount : req.Count ≤ req.Index) : Sent poll req poll req :=
  ⟨h, rfl, hroom, rfl, fun hlt => absurd hlt (not_lt.mpr hcount)⟩

/-- The inner loop writes the front of what remains of the request. -/
theorem sendSegments_spec (fuel : ℕ) (poll : Poll) (req : Request) (hroom : poll.ch.available ≤ 1024)
    (h : req.WellFormed) (hfuel : req.Count ≤ req.Index + fuel) :
    Sent poll req (sendSegments fuel poll req).1 (sendSegments fuel poll req).2 := by
  induction fuel generalizing poll req with
  | zero => exact h.sent_refl hroom hfuel
  | succ fuel ih =>
    cases hsegment : req.Segment[req.Index]? with
    | none =>
      have hstop : sendSegments (fuel + 1) poll req = (poll, req) := by rw [sendSegments, hsegment]
      rw [hstop]
      exact h.sent_refl hroom (List.getElem?_eq_none_iff.mp hsegment)
    | some segment =>
      obtain ⟨hlt, hget⟩ := List.getElem?_eq_some_iff.mp hsegment
      have hmem : segment ∈ req.Segment := hget ▸ List.getElem_mem hlt
      have hp : (segment.Data, segment.Length) ∈ req.shape := List.mem_map_of_mem hmem
      obtain ⟨htaken, hroom'⟩ := poll.ch.take_spec hroom (poll.backend.headD 0)
      obtain ⟨status, Offset, Copied, ch, hsend, hOffset, hch, hwritten, hsuccess⟩ :=
        storeSendSegment_spec (poll.ch.take (poll.backend.headD 0)) hroom' req segment
          (h.length _ hp) (h.offset segment hmem) (h.small _ hp)
      have hwf : (req.upTo segment Offset).WellFormed := h.upTo hsegment hOffset
      obtain ⟨hremaining, hnext⟩ := Request.remaining_upTo hsegment Offset
      have hflow : ch.written ++ (req.upTo segment Offset).remaining =
          poll.ch.written ++ req.remaining := by
        rw [hremaining, Request.remaining_eq hsegment, ← List.append_assoc, hwritten, htaken,
          List.append_assoc]
      have hlength : (req.deref segment.Data).length = segment.Length := (h.length _ hp).symm
      by_cases hstatus : status = .success
      · -- the segment is complete: the next one
        obtain rfl := hsuccess.mp hstatus
        have hloop : sendSegments (fuel + 1) poll req = sendSegments fuel
            ⟨ch, poll.backend.tail, (poll.Written + Copied) % 4294967296⟩
            { req.upTo segment segment.Length with Index := req.Index + 1 } := by
          rw [sendSegments, hsegment]
          simp only [hsend, hstatus, ne_eq, not_true_eq_false, if_false]
          rfl
        have hempty : (req.deref segment.Data).drop segment.Length = [] :=
          List.drop_of_length_le hlength.le
        rw [hremaining, hempty, List.nil_append, ← hnext] at hflow
        have hnextwf : { req.upTo segment segment.Length with Index := req.Index + 1 }.WellFormed := by
          refine { hwf with index := ?_ }
          show req.Index + 1 ≤ (req.Segment.set req.Index _).length
          rw [List.length_set]
          exact hlt
        have hcount : ({ req.upTo segment segment.Length with Index := req.Index + 1 } : Request).Count =
            req.Count := List.length_set
        have hsent := ih ⟨ch, poll.backend.tail, (poll.Written + Copied) % 4294967296⟩
          { req.upTo segment segment.Length with Index := req.Index + 1 } hch hnextwf
          (by rw [hcount]; show req.Count ≤ req.Index + 1 + fuel; omega)
        rw [hloop]
        exact { hsent with
          frame := hsent.frame.trans (Request.frame_upTo hsegment)
          flow := hsent.flow.trans hflow }
      · have hstop : sendSegments (fuel + 1) poll req =
            (⟨ch, poll.backend.tail, (poll.Written + Copied) % 4294967296⟩,
              req.upTo segment Offset) := by
          rw [sendSegments, hsegment]
          simp only [hsend, ne_eq, hstatus, not_false_eq_true, if_true]
          rfl
        rw [hstop]
        refine ⟨hwf, Request.frame_upTo hsegment, hch, hflow, fun _ hnil => ?_⟩
        rw [hremaining] at hnil
        have hdrop := List.length_eq_zero_iff.mpr (List.append_eq_nil_iff.mp hnil).1
        rw [List.length_drop] at hdrop
        exact hstatus (hsuccess.mpr (by omega))

/-! ## The submitted list -/

/-- The frames of requests, one after the other. -/
def wire (reqs : List Request) : List UInt8 := (reqs.map Request.frame).flatten

/-- What has not been copied of requests. -/
def unsent (reqs : List Request) : List UInt8 := (reqs.map Request.remaining).flatten

/-- Between two polls: something of each submitted request is still to be copied, and of each but the
first everything. -/
structure Queued (Submitted : List Request) : Prop where
  wellFormed : ∀ req ∈ Submitted, req.WellFormed
  unfinished : ∀ req ∈ Submitted, req.remaining ≠ []
  tail : ∀ req ∈ Submitted.tail, req.remaining = req.frame

theorem Request.length_remaining_le (req : Request) : req.remaining.length ≤ req.frame.length := by
  have hsum : ((req.Segment.drop req.Index).map fun segment =>
      (req.deref segment.Data).length).sum ≤
      (req.Segment.map fun segment => (req.deref segment.Data).length).sum :=
    ((List.drop_sublist _ _).map _).sum_le_sum fun _ _ => Nat.zero_le _
  rw [Request.remaining, Request.frame, Request.shape, List.length_flatten, List.length_flatten,
    List.map_map, List.map_map, List.map_map]
  refine le_trans (List.sum_le_sum fun segment _ => ?_) hsum
  show ((req.deref segment.Data).drop segment.Offset).length ≤ _
  rw [List.length_drop]
  exact Nat.sub_le _ _

theorem Request.remaining_of_count_le (h : req.Count ≤ req.Index) : req.remaining = [] := by
  rw [Request.remaining, List.drop_of_length_le h]
  rfl

/-- What `StoreSendRequests` does to the ring and the submitted list, and the requests that it moves. -/
structure Moves (poll : Poll) (Submitted : List Request) (poll' : Poll) (Submitted' moved : List Request) :
    Prop where
  room : poll'.ch.available ≤ 1024
  queued : Queued Submitted'
  flow : poll'.ch.written ++ unsent Submitted' = poll.ch.written ++ unsent Submitted
  order : (moved ++ Submitted').map Request.frame = Submitted.map Request.frame

/-- **`StoreSendRequests`** moves the requests whose last byte it has copied to the pending list. -/
theorem storeSendRequests_spec (poll : Poll) (Submitted Pending : List Request)
    (hroom : poll.ch.available ≤ 1024) (h : Queued Submitted) :
    ∃ poll' Submitted' moved, storeSendRequests poll Submitted Pending =
        (poll', Submitted', Pending ++ moved) ∧ Moves poll Submitted poll' Submitted' moved := by
  induction Submitted generalizing poll Pending with
  | nil => exact ⟨poll, [], [], by rw [List.append_nil]; rfl, ⟨hroom, h, rfl, rfl⟩⟩
  | cons req Submitted ih =>
    obtain ⟨poll', req', hloop⟩ : ∃ poll' req', sendSegments req.Count poll req = (poll', req') :=
      ⟨_, _, rfl⟩
    have hsent := sendSegments_spec req.Count poll req hroom (h.wellFormed req List.mem_cons_self)
      (Nat.le_add_left _ _)
    rw [hloop] at hsent
    have htail : ∀ req ∈ Submitted, req.remaining = req.frame := h.tail
    by_cases hstuck : req'.Index < req'.Count
    · refine ⟨poll', req' :: Submitted, [], ?_, hsent.room, ⟨?_, ?_, htail⟩, ?_, ?_⟩
      · rw [storeSendRequests, hloop, List.append_nil]
        exact if_pos hstuck
      · intro r hr
        obtain rfl | hr := List.mem_cons.mp hr
        · exact hsent.wellFormed
        · exact h.wellFormed r (List.mem_cons_of_mem _ hr)
      · intro r hr
        obtain rfl | hr := List.mem_cons.mp hr
        · exact hsent.stuck hstuck
        · exact h.unfinished r (List.mem_cons_of_mem _ hr)
      · show poll'.ch.written ++ (req'.remaining ++ unsent Submitted) =
          poll.ch.written ++ (req.remaining ++ unsent Submitted)
        rw [← List.append_assoc, hsent.flow, List.append_assoc]
      · show req'.frame :: _ = req.frame :: _
        rw [hsent.frame]
    · have hqueued : Queued Submitted :=
        ⟨fun r hr => h.wellFormed r (List.mem_cons_of_mem _ hr),
          fun r hr => h.unfinished r (List.mem_cons_of_mem _ hr),
          fun r hr => htail r (List.mem_of_mem_tail hr)⟩
      obtain ⟨poll'', Submitted', moved, hrest, hmoves⟩ :=
        ih poll' (Pending ++ [{ req' with State := .PENDING }]) hsent.room hqueued
      have hflow := hsent.flow
      rw [Request.remaining_of_count_le (not_lt.mp hstuck), List.append_nil] at hflow
      refine ⟨poll'', Submitted', { req' with State := .PENDING } :: moved, ?_, hmoves.room,
        hmoves.queued, ?_, ?_⟩
      · rw [storeSendRequests, hloop]
        refine (if_neg hstuck).trans (hrest.trans ?_)
        rw [List.append_assoc]
        rfl
      · rw [hmoves.flow, hflow, List.append_assoc]
        rfl
      · show req'.frame :: (moved ++ Submitted').map Request.frame = req.frame :: _
        rw [hsent.frame, hmoves.order]

/-! ## The invariant -/

/-- A request of which nothing has been copied. -/
structure Request.Fresh (req : Request) : Prop where
  wellFormed : req.WellFormed
  remaining : req.remaining = req.frame

theorem Request.WellFormed.state (h : req.WellFormed) (st : RequestState) :
    { req with State := st }.WellFormed :=
  ⟨h.length, h.small, h.header, h.offset, h.count, h.index⟩

theorem Request.WellFormed.frame_ne_nil (h : req.WellFormed) : req.frame ≠ [] := by
  obtain ⟨payload, hshape, -⟩ := h.header
  intro hnil
  have hlength := congrArg List.length hnil
  rw [Request.frame, hshape, List.map_cons, List.flatten_cons, List.length_append] at hlength
  exact absurd hlength (by rw [Request.deref, Sockmsg.length_bytes]; simp)

theorem fresh_of_prepared {RequestId type : ℕ} {transaction : Option Transaction}
    {args : List (List UInt8)}
    (h : (storePrepareRequest RequestId transaction type args).1 = some req) : req.Fresh := by
  obtain ⟨hwf, hsegment, hindex⟩ := storePrepareRequest_spec h
  refine ⟨hwf, ?_⟩
  rw [Request.remaining, Request.frame, Request.shape, hindex, List.drop_zero, List.map_map]
  refine congrArg List.flatten (List.map_congr_left fun segment hmem => ?_)
  have hzero : segment.Offset = 0 := by
    rw [hsegment] at hmem
    obtain rfl | hmem := List.mem_cons.mp hmem
    · rfl
    · obtain ⟨Data, -, rfl⟩ := List.mem_map.mp hmem
      rfl
  rw [hzero, List.drop_zero]
  rfl

/-- **The invariant.** `before` is what had been written to the ring at first. -/
structure Inv (before : List UInt8) (s : Requests.State) : Prop where
  room : s.ch.available ≤ 1024
  prepared : ∀ req ∈ s.prepared, req.Fresh
  queued : Queued s.SubmittedList
  flow : s.ch.written ++ unsent s.SubmittedList = before ++ wire s.submitted
  order : (s.pended ++ s.SubmittedList).map Request.frame = s.submitted.map Request.frame
  pending : s.PendingList.Sublist s.pended
  framed : ∀ req ∈ s.submitted, req.WellFormed

variable {before : List UInt8} {s t : Requests.State}

theorem wire_append (reqs reqs' : List Request) : wire (reqs ++ reqs') = wire reqs ++ wire reqs' := by
  rw [wire, List.map_append, List.flatten_append]
  rfl

theorem unsent_append (reqs reqs' : List Request) :
    unsent (reqs ++ reqs') = unsent reqs ++ unsent reqs' := by
  rw [unsent, List.map_append, List.flatten_append]
  rfl

/-- A request is put on the submitted list. -/
theorem Inv.submit (h : Inv before s) {i : ℕ} (hreq : s.prepared[i]? = some req) :
    Inv before { s with
      prepared := s.prepared.eraseIdx i
      SubmittedList := s.SubmittedList ++ [{ req with State := .SUBMITTED }]
      submitted := s.submitted ++ [req] } := by
  have hfresh : req.Fresh := h.prepared req (List.mem_of_getElem? hreq)
  have hlast : ∀ r ∈ s.SubmittedList ++ [{ req with State := .SUBMITTED }],
      r ∈ s.SubmittedList ∨ r = { req with State := .SUBMITTED } := fun r hr => by
    simpa using hr
  refine ⟨h.room, fun r hr => h.prepared r (List.mem_of_mem_eraseIdx hr), ⟨?_, ?_, ?_⟩, ?_, ?_,
    h.pending, ?_⟩
  · intro r hr
    obtain hr | rfl := hlast r hr
    · exact h.queued.wellFormed r hr
    · exact hfresh.wellFormed.state .SUBMITTED
  · intro r hr
    obtain hr | rfl := hlast r hr
    · exact h.queued.unfinished r hr
    · show req.remaining ≠ []
      rw [hfresh.remaining]
      exact hfresh.wellFormed.frame_ne_nil
  · intro r hr
    have htail := h.queued.tail
    cases hsub : s.SubmittedList with
    | nil => simp [hsub] at hr
    | cons head rest =>
      rw [hsub] at hr htail
      obtain hr | hr := List.mem_append.mp hr
      · exact htail r hr
      · obtain rfl := List.mem_singleton.mp hr
        exact hfresh.remaining
  · show s.ch.written ++ unsent (s.SubmittedList ++ [_]) = before ++ wire (s.submitted ++ [req])
    rw [unsent_append, wire_append, ← List.append_assoc, h.flow, List.append_assoc]
    show before ++ (wire s.submitted ++ (req.remaining ++ [])) =
      before ++ (wire s.submitted ++ (req.frame ++ []))
    rw [hfresh.remaining]
  · show (s.pended ++ (s.SubmittedList ++ [_])).map Request.frame = (s.submitted ++ [req]).map _
    rw [← List.append_assoc, List.map_append, h.order, List.map_append]
    rfl
  · intro r hr
    obtain hr | hr := List.mem_append.mp hr
    · exact h.framed r hr
    · obtain rfl := List.mem_singleton.mp hr
      exact hfresh.wellFormed

/-- **An event keeps the invariant.** -/
theorem Inv.step (h : Inv before s) {e : Event} (hs : step s e = some t) : Inv before t := by
  cases e with
  | prepare transaction type args =>
    obtain rfl := Option.some.inj hs
    refine { h with prepared := fun req hreq => ?_ }
    obtain hreq | hreq := List.mem_append.mp hreq
    · exact h.prepared req hreq
    · exact fresh_of_prepared (Option.mem_toList.mp hreq)
  | submit i =>
    obtain ⟨req, hreq, rfl⟩ := Option.map_eq_some_iff.mp hs
    exact h.submit hreq
  | send backend =>
    obtain ⟨poll, Submitted, moved, hsend, hmoves⟩ :=
      storeSendRequests_spec ⟨s.ch, backend, 0⟩ s.SubmittedList s.PendingList h.room h.queued
    simp only [Requests.step, hsend, Option.some.injEq, List.drop_left] at hs
    subst hs
    refine { h with
      room := hmoves.room
      queued := hmoves.queued
      flow := hmoves.flow.trans h.flow
      order := ?_
      pending := h.pending.append_right moved }
    show (s.pended ++ moved ++ Submitted).map Request.frame = s.submitted.map Request.frame
    rw [List.append_assoc, List.map_append, hmoves.order, ← List.map_append, h.order]
  | take k =>
    obtain rfl := Option.some.inj hs
    obtain ⟨hwritten, hroom⟩ := s.ch.take_spec h.room k
    refine { h with room := hroom, flow := ?_ }
    show (s.ch.take k).written ++ _ = _
    rw [hwritten, h.flow]
  | answered i =>
    obtain rfl := Option.some.inj hs
    exact { h with pending := (List.eraseIdx_sublist _ _).trans h.pending }

/-! ## Main results -/

/-- The payload segments of a request. -/
def Request.payload (req : Request) : List (List UInt8) :=
  req.Segment.tail.map fun segment => req.deref segment.Data

/-- What the framing of requests comes to, in a state between two events. -/
structure Framed (before : List UInt8) (s : State) : Prop where
  /-- The ring has received the frames of the requests, in the order of submission, up to some byte. -/
  bytes : s.ch.written ++ unsent s.SubmittedList = before ++ wire s.submitted
  /-- Requests become pending in the order of submission. -/
  order : (s.pended ++ s.SubmittedList).map Request.frame = s.submitted.map Request.frame
  pending : s.PendingList.Sublist s.pended
  /-- A request has become pending iff its last byte has been written. -/
  moved : ∀ i < s.submitted.length, i < s.pended.length ↔
    before.length + (wire (s.submitted.take (i + 1))).length ≤ s.ch.written.length
  /-- A frame is a header, whose `len` counts the payload, and the payload. -/
  header : ∀ req ∈ s.submitted, req.frame = req.Header.bytes ++ req.payload.flatten ∧
    req.Header.len = req.payload.flatten.length

theorem Request.WellFormed.frame_eq (h : req.WellFormed) :
    req.frame = req.Header.bytes ++ req.payload.flatten ∧
      req.Header.len = req.payload.flatten.length := by
  obtain ⟨payload, hshape, hlen⟩ := h.header
  have hpayload : req.payload = payload.map fun p => req.deref p.1 := by
    have htail : req.Segment.tail.map (fun segment => (segment.Data, segment.Length)) = payload := by
      rw [List.map_tail]
      exact congrArg List.tail hshape
    rw [Request.payload, ← htail, List.map_map]
    rfl
  rw [hpayload]
  refine ⟨?_, ?_⟩
  · rw [Request.frame, hshape]
    rfl
  · rw [hlen, List.length_flatten, List.map_map]
    refine congrArg List.sum (List.map_congr_left fun p hp => ?_)
    exact h.length p (hshape ▸ List.mem_cons_of_mem _ hp)

theorem length_unsent_le (reqs : List Request) : (unsent reqs).length ≤ (wire reqs).length := by
  rw [unsent, wire, List.length_flatten, List.length_flatten, List.map_map, List.map_map]
  exact List.sum_le_sum fun req _ => req.length_remaining_le

/-- The frames of the first requests, by what has become pending and what is still submitted. -/
theorem Inv.wire_take (h : Inv before s) (i : ℕ) :
    wire (s.submitted.take i) = wire ((s.pended ++ s.SubmittedList).take i) := by
  rw [wire, wire, List.map_take, List.map_take, h.order]

theorem Inv.moved (h : Inv before s) {i : ℕ} (hi : i < s.submitted.length) :
    i < s.pended.length ↔
      before.length + (wire (s.submitted.take (i + 1))).length ≤ s.ch.written.length := by
  have hflow := congrArg List.length h.flow
  have hall : wire s.submitted = wire s.pended ++ wire s.SubmittedList := by
    rw [← wire_append, wire, ← h.order]
    rfl
  rw [hall, List.length_append, List.length_append, List.length_append] at hflow
  have hcount := congrArg List.length h.order
  rw [List.length_map, List.length_map, List.length_append] at hcount
  rw [h.wire_take]
  by_cases hlt : i < s.pended.length
  · -- the frames up to the request are among those that have become pending
    have hunsent := length_unsent_le s.SubmittedList
    have htake : s.pended = s.pended.take (i + 1) ++ s.pended.drop (i + 1) :=
      (List.take_append_drop _ _).symm
    have hpended := congrArg (fun reqs => (wire reqs).length) htake
    simp only [wire_append, List.length_append] at hpended
    have hfirst : (s.pended ++ s.SubmittedList).take (i + 1) = s.pended.take (i + 1) :=
      List.take_append_of_le_length hlt
    rw [hfirst]
    exact ⟨fun _ => by omega, fun _ => hlt⟩
  · -- the first submitted request has bytes that are not written
    refine ⟨fun hlt' => absurd hlt' hlt, fun hle => ?_⟩
    exfalso
    obtain ⟨req, rest, hsub⟩ : ∃ req rest, s.SubmittedList = req :: rest := by
      cases hsub : s.SubmittedList with
      | nil =>
        rw [hsub, List.length_nil] at hcount
        omega
      | cons req rest => exact ⟨req, rest, rfl⟩
    have hunfinished : 0 < req.remaining.length :=
      List.length_pos_iff.mpr (h.queued.unfinished req (hsub ▸ List.mem_cons_self))
    have htail : unsent rest = wire rest := by
      have htail := h.queued.tail
      rw [hsub] at htail
      exact congrArg List.flatten (List.map_congr_left htail)
    obtain ⟨k, hk⟩ := Nat.exists_eq_add_of_le (not_lt.mp hlt)
    have htake : (s.pended ++ s.SubmittedList).take (i + 1) = s.pended ++ req :: rest.take k := by
      rw [hk, Nat.add_assoc, List.take_length_add_append, hsub]
      rfl
    have hwire : ∀ reqs, (wire (req :: reqs)).length = req.frame.length + (wire reqs).length := by
      intro reqs
      exact List.length_append
    have hsubmitted : (unsent s.SubmittedList).length = req.remaining.length + (wire rest).length := by
      rw [hsub, ← htail]
      exact List.length_append
    rw [htake, wire_append, List.length_append, hwire] at hle
    rw [hsub, hwire, ← hsub, hsubmitted] at hflow
    omega

/-- **Request framing.** What is written to the request ring are the frames of the submitted requests, in
order, and a request becomes pending exactly when its frame is complete. -/
theorem framed_of_reaches {ch : Channel} {RequestId : ℕ} (hroom : ch.available ≤ 1024)
    (h : Reaches step Free (init ch RequestId) s) : Framed ch.written s := by
  have hinit : Inv ch.written (init ch RequestId) := by
    refine ⟨hroom, fun _ hreq => absurd hreq List.not_mem_nil, ⟨?_, ?_, ?_⟩, rfl, rfl, .slnil, ?_⟩
    all_goals exact fun _ hreq => absurd hreq List.not_mem_nil
  have hinv : Inv ch.written s := h.invariant hinit fun s e t hs _ hstep => hs.step hstep
  exact ⟨hinv.flow, hinv.order, hinv.pending, fun i hi => hinv.moved hi,
    fun req hreq => (hinv.framed req hreq).frame_eq⟩

/-- A ring with room for 9 bytes, whose indices are about to wrap. -/
def crowded : Channel := ⟨fun _ => 0, 1009, 4294967290, []⟩

/-- A request with an empty segment is sent in three polls; the backend takes bytes in between and, in
the last poll, before the second copy. -/
def inThreePolls : List Event :=
  [.prepare none 2 [[1, 2], [], [3]], .submit 0, .send [], .take 8, .send [], .take 100, .send [0, 1],
    .prepare (some ⟨5, true⟩) 2 [[4]], .submit 0]

theorem framed_of_reaches_three_polls : ∃ s : State,
    run step (init crowded 7) inThreePolls = some s ∧
      s.pended.length = 1 ∧ s.SubmittedList.length = 1 ∧ Framed crowded.written s := by
  obtain ⟨s, hs, hend⟩ := (Option.any_eq_true (fun s : State =>
      decide (s.pended.length = 1 ∧ s.SubmittedList.length = 1))
    (run step (init crowded 7) inThreePolls)).mp (by decide +kernel)
  obtain ⟨hpended, hsubmitted⟩ := of_decide_eq_true hend
  exact ⟨s, hs, hpended, hsubmitted, framed_of_reaches (by decide) (reaches_of_run hs)⟩

end XenBus.Store.Requests
