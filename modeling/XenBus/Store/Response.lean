import XenBus.Foundations.Ring
import XenBus.Foundations.Transition
import XenBus.Status

/-!
# Receiving responses from the store

`store.c`: the bytes that the store backend puts into the response ring are copied, as they come,
into `Context->Response`: first the 16 bytes of the header, then `Header.len` bytes into
`Data[XENSTORE_PAYLOAD_MAX]`. A complete response is handed to its request and the response is reset.

The backend may write anything to the shared page at any time. So an iteration of the loop of
`StorePollLocked` is a step with two functions, what the backend does to the page before the first
copy and between the two copies that `StoreReceiveResponse` may make; the page that a copy finds is
all that it reads. Assertions are those of the free build, that is, none; in particular
`StoreVerifyHeader` is called inside an assertion only, and is not called at all. A copy outside the
buffer that a segment points to has no result (`none`).

`length_le_iff_headerFits`: the payload segment's length stays within the buffer, and no copy leaves
its buffer, exactly as long as every header that is completed announces at most
`XENSTORE_PAYLOAD_MAX` bytes. Nothing in the code makes sure of it (`overrun_of_long_header`).
-/

namespace XenBus.Store

open Transition

/-! ## The response ring -/

/-- The part of `struct xenstore_domain_interface` that responses use. -/
structure Shared where
  rsp : Fin 1024 → UInt8
  rsp_cons : UInt32
  rsp_prod : UInt32

/-- The byte at the index `k` of the ring. -/
def Shared.cell (shared : Shared) (k : ℕ) : UInt8 := shared.rsp (Fin.ofNat 1024 k)

/-- `StoreCopyFromRing`: the bytes copied, at most `Length`, and the page with the new `rsp_cons`. -/
def storeCopyFromRing (shared : Shared) (Length : ℕ) : List UInt8 × Shared :=
  let (bytes, cons) := Ring.copyOut 4294967296 1024 shared.cell shared.rsp_prod.toNat Length
    shared.rsp_cons.toNat Length
  (bytes, { shared with rsp_cons := UInt32.ofNat cons })

/-- The number of bytes that the page offers. -/
def Shared.available (shared : Shared) : ℕ :=
  Ring.available 4294967296 shared.rsp_prod.toNat shared.rsp_cons.toNat

/-- The bytes that the page offers, from `rsp_cons` on. -/
def Shared.byte (shared : Shared) (k : ℕ) : UInt8 :=
  shared.cell ((shared.rsp_cons.toNat + k) % 1024)

/-- `StoreCopyFromRing` copies the bytes that the page offers, whatever its indices are. -/
theorem storeCopyFromRing_fst (shared : Shared) (Length : ℕ) :
    (storeCopyFromRing shared Length).1 =
      (List.range (min Length shared.available)).map shared.byte := by
  rw [storeCopyFromRing, Ring.copyOut_eq _ (by decide) (by decide) shared.rsp_prod.toNat_lt
    shared.rsp_cons.toNat_lt le_rfl]
  rfl

/-! ## Segments -/

/-- What the `Data` of a segment points to, if it is not `NULL`. -/
inductive Buffer
  | header
  | data
  deriving DecidableEq

/-- `XENBUS_STORE_SEGMENT`. -/
structure Segment where
  Data : Option Buffer
  Offset : ℕ
  Length : ℕ
  deriving DecidableEq

/-- `XENBUS_STORE_RESPONSE`, with `Header` as the bytes of the `struct xsd_sockmsg`. -/
structure Response where
  Header : Fin 16 → UInt8
  Data : Fin 4096 → UInt8
  HeaderSegment : Segment
  PayloadSegment : Segment

/-- The `uint32_t` at the offset `i` of the header. -/
def headerField (Header : Fin 16 → UInt8) (i : ℕ) : ℕ :=
  (Header (Fin.ofNat 16 i)).toNat + 256 * (Header (Fin.ofNat 16 (i + 1))).toNat +
    65536 * (Header (Fin.ofNat 16 (i + 2))).toNat +
    16777216 * (Header (Fin.ofNat 16 (i + 3))).toNat

namespace Response

/-- `Header.type`. -/
def type (resp : Response) : ℕ := headerField resp.Header 0

/-- `Header.req_id`. -/
def req_id (resp : Response) : ℕ := headerField resp.Header 4

/-- `Header.len`. -/
def len (resp : Response) : ℕ := headerField resp.Header 12

end Response

/-- `StoreResetResponse`. -/
def storeResetResponse : Response where
  Header _ := 0
  Data _ := 0
  HeaderSegment := ⟨some .header, 0, 16⟩
  PayloadSegment := ⟨none, 0, 0⟩

/-- A buffer with `bytes` at the offset `off`. -/
def overwrite {n : ℕ} (buf : Fin n → UInt8) (off : ℕ) (bytes : List UInt8) (i : Fin n) : UInt8 :=
  if off ≤ i then bytes[i.val - off]?.getD (buf i) else buf i

/-- Copy `bytes` to the offset `off` of a buffer, if they fit. -/
def copyTo {n : ℕ} (buf : Fin n → UInt8) (off : ℕ) (bytes : List UInt8) : Option (Fin n → UInt8) :=
  if off + bytes.length ≤ n then some (overwrite buf off bytes) else none

/-- Copy `bytes` to where a segment points. -/
def Response.copy (resp : Response) (segment : Segment) (bytes : List UInt8) : Option Response :=
  match segment.Data with
  | some .header =>
    (copyTo resp.Header segment.Offset bytes).map fun buf => { resp with Header := buf }
  | some .data => (copyTo resp.Data segment.Offset bytes).map fun buf => { resp with Data := buf }
  | none => none

/-- What `StoreReceiveSegment` and `StoreReceiveResponse` return and leave behind. -/
structure Received where
  status : Status
  Read : ℕ
  shared : Shared
  resp : Response

/-- `StoreReceiveSegment`, with the updated segment. `Length - Offset` is a `ULONG`. -/
def storeReceiveSegment (shared : Shared) (resp : Response) (segment : Segment) :
    Option (Received × Segment) :=
  let (bytes, shared') :=
    storeCopyFromRing shared ((segment.Length + (4294967296 - segment.Offset)) % 4294967296)
  (resp.copy segment bytes).map fun resp' =>
    let segment' := { segment with Offset := (segment.Offset + bytes.length) % 4294967296 }
    (⟨if segment'.Offset = segment'.Length then .success else .unsuccessful, bytes.length, shared',
      resp'⟩, segment')

/-- `StoreReceiveResponse` from its label `payload` on. -/
def receivePayload (shared : Shared) (resp : Response) (Read : ℕ) : Option Received :=
  (storeReceiveSegment shared resp resp.PayloadSegment).map fun (r, segment) =>
    { r with Read := Read + r.Read, resp := { r.resp with PayloadSegment := segment } }

/-- `StoreReceiveResponse`. `between` is what the backend does to the page between the copy of the
header and the copy of the payload. -/
def storeReceiveResponse (shared : Shared) (between : Shared → Shared) (resp : Response) :
    Option Received :=
  if resp.PayloadSegment.Data ≠ none then receivePayload shared resp 0
  else
    (storeReceiveSegment shared resp resp.HeaderSegment).bind fun (r, segment) =>
      let resp := { r.resp with HeaderSegment := segment }
      if r.status ≠ .success ∨ resp.len = 0 then some { r with resp := resp }
      else
        receivePayload (between r.shared)
          { resp with
            PayloadSegment := { resp.PayloadSegment with Length := resp.len, Data := some .data } }
          r.Read

/-! ## Processing a response -/

/-- The message types of `enum xsd_sockmsg_type` that `StoreIgnoreHeaderType` lists: `XS_DEBUG`,
`XS_GET_PERMS`, `XS_INTRODUCE`, `XS_RELEASE`, `XS_GET_DOMAIN_PATH`, `XS_MKDIR`,
`XS_IS_DOMAIN_INTRODUCED`, `XS_RESUME`, `XS_SET_TARGET`, `XS_RESTRICT`. -/
def storeIgnoreHeaderType (type : ℕ) : Bool := type ∈ [0, 3, 8, 9, 10, 12, 17, 18, 19, 20]

/-- `XS_WATCH_EVENT`. -/
def xsWatchEvent : ℕ := 15

/-- A request on the pending list; `Response` is the copy that completes it. -/
structure Request where
  req_id : ℕ
  Response : Option Response

/-- The part of `XENBUS_STORE_CONTEXT` that responses use, with the completed requests. -/
structure Context where
  Shared : Shared
  Response : Response
  PendingList : List Request
  Completed : List Request

/-- `StoreProcessResponse`. A watch event sets the event of its watch, which is not modelled; it
changes nothing else before the reset. Neither is the payload of the event looked at: that
`StoreProcessWatchEvent` uses the `NULL` buffer of an empty one is in `XenBus.Store.Consumers`. -/
def storeProcessResponse (ctx : Context) : Context :=
  let resp := ctx.Response
  if storeIgnoreHeaderType resp.type then { ctx with Response := storeResetResponse }
  else if resp.type = xsWatchEvent then { ctx with Response := storeResetResponse }
  else
    match ctx.PendingList.find? (·.req_id = resp.req_id) with
    | none => { ctx with Response := storeResetResponse }
    | some request =>
      { ctx with
        Response := storeResetResponse
        PendingList := ctx.PendingList.eraseP (·.req_id = resp.req_id)
        Completed := { request with Response := some resp } :: ctx.Completed }

/-! ## The system -/

/-- The part of a poll after `StoreReceiveResponse`. -/
def finish (ctx : Context) (r : Received) : Context :=
  let ctx := { ctx with Shared := r.shared, Response := r.resp }
  if r.status = .success then storeProcessResponse ctx else ctx

/-- What happens to the response: an iteration of the loop of `StorePollLocked` with what the
backend does to the page before it and between its two copies, a request that has been sent, or a
reset as on resume. -/
inductive Event
  | poll (before between : Shared → Shared)
  | sent (req_id : ℕ)
  | reset

/-- One event. -/
def step (ctx : Context) : Event → Option Context
  | .poll before between =>
    (storeReceiveResponse (before ctx.Shared) between ctx.Response).map (finish ctx)
  | .sent req_id => some { ctx with PendingList := ctx.PendingList ++ [⟨req_id, none⟩] }
  | .reset => some { ctx with Response := storeResetResponse }

/-- After `StoreAcquire`, with any page. -/
def init (shared : Shared) : Context := ⟨shared, storeResetResponse, [], []⟩

/-! ## The invariant -/

/-- Between two steps the header segment lies in the header, and the payload segment is unused or
lies in the buffer. -/
structure Receiving (resp : Response) : Prop where
  header : ∃ o ≤ 16, resp.HeaderSegment = ⟨some .header, o, 16⟩
  payload : resp.PayloadSegment = ⟨none, 0, 0⟩ ∨
    ∃ o l, o ≤ l ∧ l ≤ 4096 ∧ resp.PayloadSegment = ⟨some .data, o, l⟩

theorem receiving_reset : Receiving storeResetResponse := ⟨⟨0, by omega, rfl⟩, .inl rfl⟩

theorem Receiving.length_le {resp : Response} (h : Receiving resp) :
    resp.PayloadSegment.Length ≤ 4096 := by
  obtain hp | ⟨o, l, hol, hl, hp⟩ := h.payload
  · rw [hp]
    exact Nat.zero_le _
  · rw [hp]
    exact hl

/-- The header that the bytes received before and the bytes on the page make up. -/
def arrivedHeader (resp : Response) (shared : Shared) (i : Fin 16) : UInt8 :=
  if i < resp.HeaderSegment.Offset then resp.Header i
  else shared.byte (i - resp.HeaderSegment.Offset)

/-- If the event completes a header, the header announces at most `XENSTORE_PAYLOAD_MAX` bytes. -/
def HeaderFits (ctx : Context) : Event → Prop
  | .poll before _ =>
    ctx.Response.PayloadSegment.Data = none →
    16 ≤ ctx.Response.HeaderSegment.Offset + (before ctx.Shared).available →
    headerField (arrivedHeader ctx.Response (before ctx.Shared)) 12 ≤ 4096
  | .sent _ => True
  | .reset => True

/-- The number of bytes that a segment receives. -/
theorem length_storeCopyFromRing (shared : Shared) (Length : ℕ) :
    (storeCopyFromRing shared Length).1.length = min Length shared.available := by
  rw [storeCopyFromRing_fst, List.length_map, List.length_range]

/-- The header segment: the copy stays in the header, and the header is the one that has arrived
when it is complete. -/
theorem storeReceiveSegment_header (shared : Shared) {resp : Response} {o : ℕ} (ho : o ≤ 16)
    (hseg : resp.HeaderSegment = ⟨some .header, o, 16⟩) :
    ∃ buf shared', storeReceiveSegment shared resp ⟨some .header, o, 16⟩ =
      some (⟨if o + min (16 - o) shared.available = 16 then .success else .unsuccessful,
        min (16 - o) shared.available, shared', { resp with Header := buf }⟩,
        ⟨some .header, o + min (16 - o) shared.available, 16⟩) ∧
      (16 ≤ o + shared.available → buf = arrivedHeader resp shared) := by
  have hlen : (16 + (4294967296 - o)) % 4294967296 = 16 - o := by omega
  have hcount := length_storeCopyFromRing shared (16 - o)
  have hfits : o + min (16 - o) shared.available ≤ 16 := by omega
  have hoff : (o + min (16 - o) shared.available) % 4294967296 =
      o + min (16 - o) shared.available := by omega
  refine ⟨overwrite resp.Header o (storeCopyFromRing shared (16 - o)).1,
    (storeCopyFromRing shared (16 - o)).2, ?_, ?_⟩
  · rw [storeReceiveSegment]
    simp only [hlen, Response.copy, copyTo, hcount, hoff]
    rw [if_pos hfits]
    rfl
  · intro hcomplete
    funext i
    simp only [overwrite, arrivedHeader, hseg, storeCopyFromRing_fst]
    by_cases hi : o ≤ i.val
    · have hlt : i.val - o < min (16 - o) shared.available := by omega
      rw [if_pos hi, if_neg (by omega), List.getElem?_map, List.getElem?_range hlt]
      rfl
    · rw [if_neg hi, if_pos (by omega)]

/-- The payload segment: the copy goes through iff it stays in the buffer. -/
theorem receivePayload_eq (shared : Shared) {resp : Response} {o l : ℕ} (hol : o ≤ l)
    (hl : l < 4294967296) (hseg : resp.PayloadSegment = ⟨some .data, o, l⟩) (Read : ℕ) :
    ∃ buf shared', receivePayload shared resp Read =
      if o + min (l - o) shared.available ≤ 4096 then
        some ⟨if o + min (l - o) shared.available = l then .success else .unsuccessful,
          Read + min (l - o) shared.available, shared',
          { resp with
            Data := buf
            PayloadSegment := ⟨some .data, o + min (l - o) shared.available, l⟩ }⟩
      else none := by
  have hlen : (l + (4294967296 - o)) % 4294967296 = l - o := by omega
  have hcount := length_storeCopyFromRing shared (l - o)
  have hoff : (o + min (l - o) shared.available) % 4294967296 =
      o + min (l - o) shared.available := by omega
  refine ⟨overwrite resp.Data o (storeCopyFromRing shared (l - o)).1,
    (storeCopyFromRing shared (l - o)).2, ?_⟩
  rw [receivePayload, hseg, storeReceiveSegment]
  simp only [hlen, Response.copy, copyTo, hcount, hoff]
  by_cases hfits : o + min (l - o) shared.available ≤ 4096
  · rw [if_pos hfits, if_pos hfits]
    rfl
  · rw [if_neg hfits, if_neg hfits]
    rfl

/-- `StoreProcessResponse` resets the response. -/
theorem storeProcessResponse_response (ctx : Context) :
    (storeProcessResponse ctx).Response = storeResetResponse := by
  unfold storeProcessResponse
  dsimp only
  split_ifs
  · rfl
  · rfl
  · split <;> rfl

theorem finish_of_success (ctx : Context) {r : Received} (h : r.status = .success) :
    (finish ctx r).Response = storeResetResponse := by
  unfold finish
  rw [if_pos h, storeProcessResponse_response]

theorem finish_of_not_success (ctx : Context) {r : Received} (h : r.status ≠ .success) :
    (finish ctx r).Response = r.resp := by
  unfold finish
  rw [if_neg h]

/-- The payload fits: it is received, and the invariant holds after the poll. -/
theorem receivePayload_fits (ctx : Context) (shared : Shared) (resp : Response) {o l h : ℕ}
    (hh : h ≤ 16) (hhead : resp.HeaderSegment = ⟨some .header, h, 16⟩) (hol : o ≤ l) (hl : l ≤ 4096)
    (hseg : resp.PayloadSegment = ⟨some .data, o, l⟩) (Read : ℕ) :
    ∃ r, receivePayload shared resp Read = some r ∧ Receiving (finish ctx r).Response := by
  obtain ⟨buf, shared', heq⟩ := receivePayload_eq shared hol (by omega) hseg Read
  rw [if_pos (by omega)] at heq
  refine ⟨_, heq, ?_⟩
  by_cases hdone : o + min (l - o) shared.available = l
  · rw [finish_of_success ctx (if_pos hdone)]
    exact receiving_reset
  · rw [finish_of_not_success ctx (by rw [if_neg hdone]; simp)]
    exact ⟨⟨h, hh, hhead⟩, .inr ⟨_, l, by omega, hl, rfl⟩⟩

/-- The payload does not fit: either the copy leaves the buffer, or the segment is left with a
length that is too large. -/
theorem receivePayload_overruns (ctx : Context) (shared : Shared) {resp : Response} {l : ℕ}
    (hl : 4096 < l) (hl' : l < 4294967296) (hseg : resp.PayloadSegment = ⟨some .data, 0, l⟩)
    (Read : ℕ) {r : Received} (hr : receivePayload shared resp Read = some r) :
    4096 < (finish ctx r).Response.PayloadSegment.Length := by
  obtain ⟨buf, shared', heq⟩ := receivePayload_eq shared (Nat.zero_le l) hl' hseg Read
  rw [heq] at hr
  by_cases hfits : 0 + min (l - 0) shared.available ≤ 4096
  · rw [if_pos hfits] at hr
    obtain rfl := Option.some.inj hr
    rw [finish_of_not_success ctx (by rw [if_neg (by omega)]; simp)]
    exact hl
  · rw [if_neg hfits] at hr
    simp at hr

theorem headerField_lt (Header : Fin 16 → UInt8) (i : ℕ) : headerField Header i < 4294967296 := by
  have h0 := (Header (Fin.ofNat 16 i)).toNat_lt
  have h1 := (Header (Fin.ofNat 16 (i + 1))).toNat_lt
  have h2 := (Header (Fin.ofNat 16 (i + 2))).toNat_lt
  have h3 := (Header (Fin.ofNat 16 (i + 3))).toNat_lt
  unfold headerField
  omega

/-- A poll with the payload segment in use. -/
theorem storeReceiveResponse_payload (ctx : Context) (shared : Shared) (between : Shared → Shared)
    {resp : Response} (h : Receiving resp) (hdata : resp.PayloadSegment.Data ≠ none) :
    ∃ r, storeReceiveResponse shared between resp = some r ∧
      Receiving (finish ctx r).Response := by
  obtain ⟨o, ho, hhead⟩ := h.header
  obtain hp | ⟨o', l, hol, hl, hp⟩ := h.payload
  · exact absurd (by rw [hp]) hdata
  · rw [storeReceiveResponse, if_pos hdata]
    exact receivePayload_fits ctx shared resp ho hhead hol hl hp 0

/-- A poll that does not complete the header. -/
theorem storeReceiveResponse_partial (ctx : Context) (shared : Shared) (between : Shared → Shared)
    {resp : Response} (h : Receiving resp) (hdata : resp.PayloadSegment.Data = none)
    (hshort : resp.HeaderSegment.Offset + shared.available < 16) :
    ∃ r, storeReceiveResponse shared between resp = some r ∧
      Receiving (finish ctx r).Response := by
  obtain ⟨o, ho, hhead⟩ := h.header
  obtain ⟨buf, shared', heq, -⟩ := storeReceiveSegment_header shared ho hhead
  replace hshort : o + shared.available < 16 := by rwa [hhead] at hshort
  have hne : ¬ o + min (16 - o) shared.available = 16 := by omega
  rw [if_neg hne] at heq
  rw [storeReceiveResponse, if_neg (not_not.mpr hdata), hhead, heq]
  refine ⟨_, rfl, ?_⟩
  rw [finish_of_not_success ctx (by simp)]
  exact ⟨⟨_, by omega, rfl⟩, h.payload⟩

/-- The response once the header is complete. -/
def headed (resp : Response) (shared : Shared) : Response :=
  { resp with
    Header := arrivedHeader resp shared
    HeaderSegment := ⟨some .header, 16, 16⟩ }

/-- A poll that completes the header goes on with the payload, unless that is empty. -/
theorem storeReceiveResponse_complete (shared : Shared) (between : Shared → Shared)
    {resp : Response} (h : Receiving resp) (hdata : resp.PayloadSegment.Data = none)
    (hcomplete : 16 ≤ resp.HeaderSegment.Offset + shared.available) :
    ∃ n shared', storeReceiveResponse shared between resp =
      if headerField (arrivedHeader resp shared) 12 = 0 then
        some ⟨.success, n, shared', headed resp shared⟩
      else
        receivePayload (between shared')
          { headed resp shared with
            PayloadSegment := ⟨some .data, 0, headerField (arrivedHeader resp shared) 12⟩ } n := by
  obtain ⟨o, ho, hhead⟩ := h.header
  obtain ⟨buf, shared', heq, hbuf⟩ := storeReceiveSegment_header shared ho hhead
  replace hcomplete : 16 ≤ o + shared.available := by rwa [hhead] at hcomplete
  obtain rfl := hbuf hcomplete
  have hp : resp.PayloadSegment = ⟨none, 0, 0⟩ := by
    obtain hp | ⟨o', l, -, -, hp⟩ := h.payload
    · exact hp
    · rw [hp] at hdata
      simp at hdata
  have hfull : o + min (16 - o) shared.available = 16 := by omega
  rw [if_pos hfull, hfull] at heq
  refine ⟨min (16 - o) shared.available, shared', ?_⟩
  rw [storeReceiveResponse, if_neg (not_not.mpr hdata), hhead, heq]
  simp only [Option.bind_some, ne_eq, not_true_eq_false, false_or, hp, headed, Response.len]

/-! ## Main results -/

/-- An event whose header fits. -/
theorem step_fits {ctx : Context} (h : Receiving ctx.Response) {e : Event}
    (hfits : HeaderFits ctx e) : ∃ ctx', step ctx e = some ctx' ∧ Receiving ctx'.Response := by
  cases e with
  | sent req_id => exact ⟨_, rfl, h⟩
  | reset => exact ⟨_, rfl, receiving_reset⟩
  | poll before between =>
    have hpoll : ∀ r, storeReceiveResponse (before ctx.Shared) between ctx.Response = some r →
        step ctx (.poll before between) = some (finish ctx r) := by
      intro r hr
      rw [step, hr, Option.map_some]
    by_cases hdata : ctx.Response.PayloadSegment.Data = none
    · by_cases hcomplete : 16 ≤ ctx.Response.HeaderSegment.Offset + (before ctx.Shared).available
      · obtain ⟨n, shared', heq⟩ := storeReceiveResponse_complete _ between h hdata hcomplete
        have hlen := hfits hdata hcomplete
        split_ifs at heq with hzero
        · refine ⟨_, hpoll _ heq, ?_⟩
          rw [finish_of_success ctx rfl]
          exact receiving_reset
        · obtain ⟨r, hr, hinv⟩ := receivePayload_fits ctx (between shared')
            { headed ctx.Response (before ctx.Shared) with PayloadSegment := _ }
            le_rfl rfl (Nat.zero_le _) hlen rfl n
          exact ⟨_, hpoll r (heq.trans hr), hinv⟩
      · obtain ⟨r, hr, hinv⟩ :=
          storeReceiveResponse_partial ctx _ between h hdata (not_le.mp hcomplete)
        exact ⟨_, hpoll r hr, hinv⟩
    · obtain ⟨r, hr, hinv⟩ := storeReceiveResponse_payload ctx _ between h hdata
      exact ⟨_, hpoll r hr, hinv⟩

/-- An event whose header does not fit: it has no result, or leaves the segment with a length that
is too large. -/
theorem step_overruns {ctx ctx' : Context} (h : Receiving ctx.Response) {e : Event}
    (hfits : ¬ HeaderFits ctx e) (hs : step ctx e = some ctx') :
    4096 < ctx'.Response.PayloadSegment.Length := by
  cases e with
  | sent req_id => exact absurd trivial hfits
  | reset => exact absurd trivial hfits
  | poll before between =>
    simp only [HeaderFits, Classical.not_imp, not_le] at hfits
    obtain ⟨hdata, hcomplete, hlen⟩ := hfits
    obtain ⟨n, shared', heq⟩ := storeReceiveResponse_complete _ between h hdata hcomplete
    obtain ⟨r, hr, rfl⟩ := Option.map_eq_some_iff.mp hs
    rw [if_neg (by omega)] at heq
    exact receivePayload_overruns ctx (between shared') hlen (headerField_lt _ _) rfl n
      (heq.symm.trans hr)

/-- **The response buffer.** As long as every header that is completed announces at most
`XENSTORE_PAYLOAD_MAX` bytes, the payload segment lies in the buffer; and the next event keeps it
there and copies inside the buffers iff its header does so too. -/
theorem length_le_iff_headerFits {shared : Shared} {ctx : Context}
    (h : Reaches step HeaderFits (init shared) ctx) :
    ctx.Response.PayloadSegment.Length ≤ 4096 ∧
      ∀ e, (∃ ctx', step ctx e = some ctx' ∧ ctx'.Response.PayloadSegment.Length ≤ 4096) ↔
        HeaderFits ctx e := by
  have hinv : Receiving ctx.Response := by
    refine h.invariant (P := fun ctx => Receiving ctx.Response) receiving_reset ?_
    intro s e t hs hfits hstep
    obtain ⟨t', ht', hinv⟩ := step_fits hs hfits
    rw [hstep] at ht'
    exact Option.some.inj ht' ▸ hinv
  refine ⟨hinv.length_le, fun e => ⟨?_, ?_⟩⟩
  · rintro ⟨ctx', hs, hle⟩
    by_contra hfits
    have := step_overruns hinv hfits hs
    omega
  · intro hfits
    obtain ⟨ctx', hs, hinv'⟩ := step_fits hinv hfits
    exact ⟨ctx', hs, hinv'.length_le⟩

/-- A page with a header that announces `len` bytes (and is otherwise zero), and `n` bytes in all. -/
def announcing (len n : UInt32) : Shared where
  rsp k :=
    if k = 12 then len.toUInt8
    else if k = 13 then (len / 256).toUInt8
    else 0
  rsp_cons := 0
  rsp_prod := n

/-- A response of 3 bytes, of which 2 have arrived. -/
theorem length_le_iff_headerFits_partial : ∃ ctx,
    ctx.Response.PayloadSegment.Length ≤ 4096 ∧
      ((∃ ctx', step ctx .reset = some ctx' ∧ ctx'.Response.PayloadSegment.Length ≤ 4096) ↔
        HeaderFits ctx .reset) := by
  have hrun : ∃ ctx, step (init (announcing 3 18)) (.poll id id) = some ctx := ⟨_, rfl⟩
  obtain ⟨ctx, hctx⟩ := hrun
  have hfits : HeaderFits (init (announcing 3 18)) (.poll id id) := fun _ _ => by decide
  obtain ⟨hle, hiff⟩ := length_le_iff_headerFits (Reaches.single hfits hctx)
  exact ⟨ctx, hle, hiff .reset⟩

/-- A header that announces 5000 bytes sets the payload segment's length to 5000, and the copy of
the 5000 bytes leaves the buffer. -/
theorem overrun_of_long_header : ∃ shared ctx,
    Reaches step Free (init shared) ctx ∧ ctx.Response.PayloadSegment.Length = 5000 ∧
      step ctx (.poll (fun _ => announcing 0 5000) id) = none := by
  have hrun : ∃ ctx, step (init (announcing 5000 16)) (.poll id id) = some ctx ∧
      ctx.Response.PayloadSegment = ⟨some .data, 0, 5000⟩ := ⟨_, rfl, rfl⟩
  obtain ⟨ctx, hctx, hp⟩ := hrun
  refine ⟨announcing 5000 16, ctx, Reaches.single trivial hctx, by rw [hp], ?_⟩
  obtain ⟨buf, shared', heq⟩ := receivePayload_eq (announcing 0 5000) (by decide) (by decide) hp 0
  rw [if_neg (by decide)] at heq
  rw [step, storeReceiveResponse, if_pos (by rw [hp]; simp), heq, Option.map_none]

end XenBus.Store
