import Mathlib.Data.List.Forall2
import XenBus.Store.Response

/-!
# The stream of responses

The backend puts the bytes of a stream of messages into the response ring, as many at a time as it likes:
before an iteration of the poll loop, and between the two copies that an iteration may make. The
messages are well formed: a header, and as many bytes of payload as the header announces, at most
`XENSTORE_PAYLOAD_MAX`. The assertion on `StoreVerifyHeader`, which would refuse a payload of exactly that
length, is not part of the free build.

Between two iterations the response holds the part of the next message that has been received
(`Response.received`), and this part, followed by what is in the ring, is the front of what the stream has
left (`Inv`). So the messages that are processed are those of the stream, in order
(`processed_of_reaches`).
-/

namespace XenBus.Store.Stream

open Transition

/-! ## Messages -/

/-- A well-formed message. -/
structure Message where
  Header : Fin 16 → UInt8
  payload : List UInt8
  length_eq : payload.length = headerField Header 12
  length_le : payload.length ≤ 4096

/-- The bytes of a message. -/
def Message.bytes (m : Message) : List UInt8 := List.ofFn m.Header ++ m.payload

/-- The bytes of a stream. -/
def wire (msgs : List Message) : List UInt8 := (msgs.map Message.bytes).flatten

/-- The response holds the message. -/
structure Holds (resp : Response) (m : Message) : Prop where
  header : resp.Header = m.Header
  payload : (List.ofFn resp.Data).take m.payload.length = m.payload
  length : resp.PayloadSegment.Length = m.payload.length

/-- The bytes of the current message that have been received. -/
def received (resp : Response) : List UInt8 :=
  if resp.PayloadSegment.Data = none then (List.ofFn resp.Header).take resp.HeaderSegment.Offset
  else List.ofFn resp.Header ++ (List.ofFn resp.Data).take resp.PayloadSegment.Offset

/-! ## The system -/

/-- The bytes in the response ring. -/
def queue (shared : Shared) : List UInt8 :=
  Ring.contents 4294967296 1024 shared.cell shared.rsp_prod.toNat shared.rsp_cons.toNat

/-- The context, the responses that have been processed, the number of bytes taken from the ring, and
the `Read` of the last iteration. -/
structure State where
  ctx : Context
  processed : List Response
  taken : ℕ
  Read : Option ℕ

/-- One event, with what `StoreProcessResponse` is called for. -/
def step (s : State) : Event → Option State
  | .poll before between =>
    (storeReceiveResponse (before s.ctx.Shared) between s.ctx.Response).map fun r =>
      { ctx := finish s.ctx r
        processed := s.processed ++ if r.status = .success then [r.resp] else []
        taken := s.taken + r.Read
        Read := some r.Read }
  | e => (Store.step s.ctx e).map fun ctx => { s with ctx := ctx }

/-- The context moves as it does on its own. -/
theorem step_ctx (s : State) (e : Event) : (step s e).map State.ctx = Store.step s.ctx e := by
  cases e with
  | poll before between => rw [step, Store.step, Option.map_map]; rfl
  | sent req_id => rfl
  | reset => rfl

/-- An empty ring. -/
def init (shared : Shared) : State := ⟨Store.init shared, [], 0, none⟩

/-- `f` puts some of the bytes of the stream from position `n` on into the ring. -/
def Puts (msgs : List Message) (n : ℕ) (shared shared' : Shared) : Prop :=
  ∃ k, queue shared' = queue shared ++ ((wire msgs).drop n).take k

/-- The backend puts nothing but the stream, and the connection is not reset. -/
def Feeds (msgs : List Message) (s : State) : Event → Prop
  | .poll before between =>
    Puts msgs (s.taken + (queue s.ctx.Shared).length) s.ctx.Shared (before s.ctx.Shared) ∧
      ∀ page, Puts msgs (s.taken + (queue (before s.ctx.Shared)).length) page (between page)
  | .sent _ => True
  | .reset => False

/-! ## One copy -/

theorem length_queue (shared : Shared) : (queue shared).length = shared.available :=
  Ring.length_contents _ _ _

/-- `StoreCopyFromRing` takes the front of the queue. -/
theorem storeCopyFromRing_spec (shared : Shared) (Length : ℕ) :
    (storeCopyFromRing shared Length).1 = (queue shared).take Length ∧
      queue (storeCopyFromRing shared Length).2 = (queue shared).drop Length := by
  have hprod := shared.rsp_prod.toNat_lt
  have hcons := shared.rsp_cons.toNat_lt
  have hmin : ∀ l : List UInt8, l.length = shared.available →
      l.take Length = l.take (min Length shared.available) ∧
        l.drop Length = l.drop (min Length shared.available) := by
    intro l hl
    rw [← hl]
    exact ⟨List.take_eq_take_min, List.drop_eq_drop_min⟩
  obtain ⟨htake, hdrop⟩ := hmin (queue shared) (length_queue shared)
  constructor
  · rw [storeCopyFromRing_fst, htake]
    exact (Ring.take_contents (M := 4294967296) (N := 1024) shared.cell
      (min_le_right Length shared.available)).symm
  · have heq : (storeCopyFromRing shared Length).2.rsp_cons.toNat =
        (shared.rsp_cons.toNat + min Length shared.available) % 4294967296 := by
      rw [storeCopyFromRing, Ring.copyOut_eq _ (by decide) (by decide) hprod hcons le_rfl]
      exact UInt32.toNat_ofNat_of_lt' (Nat.mod_lt _ (by decide))
    have hadvance : Ring.contents 4294967296 1024 shared.cell shared.rsp_prod.toNat
        ((shared.rsp_cons.toNat + min Length shared.available) % 4294967296) =
        (queue shared).drop (min Length shared.available) :=
      Ring.contents_advance _ (by decide) hprod hcons (min_le_right _ _)
    rw [hdrop, ← hadvance, ← heq]
    rfl

/-- A buffer up to the end of what has been copied. -/
theorem take_overwrite {n : ℕ} (buf : Fin n → UInt8) {off : ℕ} {bytes : List UInt8}
    (hfits : off + bytes.length ≤ n) :
    (List.ofFn (overwrite buf off bytes)).take (off + bytes.length) =
      (List.ofFn buf).take off ++ bytes := by
  apply List.ext_getElem
  · simp only [List.length_take, List.length_ofFn, List.length_append]
    omega
  · intro i hi hi'
    rw [List.length_take, List.length_ofFn] at hi
    rw [List.getElem_take, List.getElem_ofFn, overwrite]
    by_cases hlt : off ≤ i
    · have hget : i - off < bytes.length := by omega
      rw [if_pos hlt, List.getElem?_eq_getElem hget, Option.getD_some,
        List.getElem_append_right (by rw [List.length_take, List.length_ofFn]; omega)]
      congr 1
      rw [List.length_take, List.length_ofFn]
      omega
    · rw [if_neg hlt, List.getElem_append_left (by rw [List.length_take, List.length_ofFn]; omega),
        List.getElem_take, List.getElem_ofFn]

/-- The header segment receives the front of the queue. -/
theorem receiveHeader_spec (shared : Shared) (resp : Response) {o : ℕ} (ho : o ≤ 16) :
    ∃ buf shared', storeReceiveSegment shared resp ⟨some .header, o, 16⟩ =
        some (⟨if o + min (16 - o) (queue shared).length = 16 then .success else .unsuccessful,
          min (16 - o) (queue shared).length, shared', { resp with Header := buf }⟩,
          ⟨some .header, o + min (16 - o) (queue shared).length, 16⟩) ∧
      (List.ofFn buf).take (o + min (16 - o) (queue shared).length) =
        (List.ofFn resp.Header).take o ++ (queue shared).take (16 - o) ∧
      queue shared' = (queue shared).drop (16 - o) := by
  have hlen : (16 + (4294967296 - o)) % 4294967296 = 16 - o := by omega
  obtain ⟨hbytes, hqueue⟩ := storeCopyFromRing_spec shared (16 - o)
  have hcount : ((queue shared).take (16 - o)).length = min (16 - o) (queue shared).length :=
    List.length_take
  have hfits : o + ((queue shared).take (16 - o)).length ≤ 16 := by omega
  have hoff : (o + min (16 - o) (queue shared).length) % 4294967296 =
      o + min (16 - o) (queue shared).length := by omega
  refine ⟨overwrite resp.Header o ((queue shared).take (16 - o)),
    (storeCopyFromRing shared (16 - o)).2, ?_, ?_, hqueue⟩
  · rw [storeReceiveSegment]
    simp only [hlen, Response.copy, copyTo, hbytes, hcount, hoff]
    rw [hcount] at hfits
    rw [if_pos hfits]
    rfl
  · rw [← hcount, take_overwrite resp.Header hfits]

/-- The payload segment receives the front of the queue. -/
theorem receivePayload_spec (shared : Shared) {resp : Response} {o l : ℕ} (hol : o ≤ l) (hl : l ≤ 4096)
    (hsegment : resp.PayloadSegment = ⟨some .data, o, l⟩) (Read : ℕ) :
    ∃ buf shared', receivePayload shared resp Read =
        some ⟨if o + min (l - o) (queue shared).length = l then .success else .unsuccessful,
          Read + min (l - o) (queue shared).length, shared',
          { resp with
            Data := buf
            PayloadSegment := ⟨some .data, o + min (l - o) (queue shared).length, l⟩ }⟩ ∧
      (List.ofFn buf).take (o + min (l - o) (queue shared).length) =
        (List.ofFn resp.Data).take o ++ (queue shared).take (l - o) ∧
      queue shared' = (queue shared).drop (l - o) := by
  have hlen : (l + (4294967296 - o)) % 4294967296 = l - o := by omega
  obtain ⟨hbytes, hqueue⟩ := storeCopyFromRing_spec shared (l - o)
  have hcount : ((queue shared).take (l - o)).length = min (l - o) (queue shared).length :=
    List.length_take
  have hfits : o + ((queue shared).take (l - o)).length ≤ 4096 := by omega
  have hoff : (o + min (l - o) (queue shared).length) % 4294967296 =
      o + min (l - o) (queue shared).length := by omega
  refine ⟨overwrite resp.Data o ((queue shared).take (l - o)),
    (storeCopyFromRing shared (l - o)).2, ?_, ?_, hqueue⟩
  · rw [receivePayload, hsegment, storeReceiveSegment]
    simp only [hlen, Response.copy, copyTo, hbytes, hcount, hoff]
    rw [hcount] at hfits
    rw [if_pos hfits]
    rfl
  · rw [← hcount, take_overwrite resp.Data hfits]

/-! ## One iteration -/

/-- The response between two iterations: within a header, or within a payload. -/
inductive Phase (resp : Response) : Prop
  | header {o : ℕ} (ho : o < 16) (hh : resp.HeaderSegment = ⟨some .header, o, 16⟩)
      (hp : resp.PayloadSegment = ⟨none, 0, 0⟩)
  | payload {o : ℕ} (ho : o < headerField resp.Header 12) (hl : headerField resp.Header 12 ≤ 4096)
      (hp : resp.PayloadSegment = ⟨some .data, o, headerField resp.Header 12⟩)

theorem received_header {resp : Response} {o : ℕ} (hh : resp.HeaderSegment = ⟨some .header, o, 16⟩)
    (hp : resp.PayloadSegment = ⟨none, 0, 0⟩) : received resp = (List.ofFn resp.Header).take o := by
  rw [received, hp, hh]
  exact if_pos rfl

theorem received_payload {resp : Response} {o l : ℕ} (hp : resp.PayloadSegment = ⟨some .data, o, l⟩) :
    received resp = List.ofFn resp.Header ++ (List.ofFn resp.Data).take o := by
  rw [received, hp]
  exact if_neg (by simp)

theorem phase_reset : Phase storeResetResponse := .header (by decide : 0 < 16) rfl rfl

theorem wire_cons (m : Message) (msgs : List Message) : wire (m :: msgs) = m.bytes ++ wire msgs := rfl

/-- A complete header is that of the next message. -/
theorem next_of_header {H : Fin 16 → UInt8} {rest : List UInt8} {todo : List Message}
    (h : List.ofFn H ++ rest <+: wire todo) :
    ∃ m todo', todo = m :: todo' ∧ m.Header = H ∧ rest <+: m.payload ++ wire todo' := by
  obtain ⟨more, hmore⟩ := h
  cases todo with
  | nil =>
    have hlength := congrArg List.length hmore
    simp only [List.length_append, List.length_ofFn, wire, List.map_nil, List.flatten_nil,
      List.length_nil] at hlength
    omega
  | cons m todo =>
    rw [wire_cons, Message.bytes, List.append_assoc, List.append_assoc] at hmore
    obtain ⟨hheader, hrest⟩ := List.append_inj hmore (by rw [List.length_ofFn, List.length_ofFn])
    exact ⟨m, todo, rfl, (List.ofFn_injective hheader).symm, more, hrest⟩

/-- What `StoreProcessResponse` is called for. -/
def processedBy (r : Received) : List Response := if r.status = .success then [r.resp] else []

/-- What an iteration comes to, which begins with `n` bytes of the messages to come. -/
structure Outcome (ctx : Context) (todo : List Message) (n : ℕ) (r : Received) : Prop where
  split : ∃ done todo', todo = done ++ todo' ∧ List.Forall₂ Holds (processedBy r) done ∧
    received (finish ctx r).Response ++ queue r.shared <+: wire todo' ∧
    n + r.Read = (wire done).length + (received (finish ctx r).Response).length
  phase : Phase (finish ctx r).Response
  drained : r.Read = 0 → queue r.shared = []

/-- An iteration that completes no message. -/
theorem Outcome.unfinished {ctx : Context} {todo : List Message} {n : ℕ} {r : Received}
    (hstatus : r.status ≠ .success) (hphase : Phase r.resp)
    (hflow : received r.resp ++ queue r.shared <+: wire todo)
    (hn : n + r.Read = (received r.resp).length) (hdrained : r.Read = 0 → queue r.shared = []) :
    Outcome ctx todo n r := by
  have hfinish := finish_of_not_success ctx hstatus
  refine ⟨⟨[], todo, rfl, ?_, ?_, ?_⟩, ?_, hdrained⟩
  · rw [processedBy, if_neg hstatus]
    exact .nil
  · rw [hfinish]
    exact hflow
  · rw [hfinish, hn]
    exact (Nat.zero_add _).symm
  · rw [hfinish]
    exact hphase

/-- An iteration that completes a message. -/
theorem Outcome.finished {ctx : Context} {m : Message} {todo : List Message} {n : ℕ} {r : Received}
    (hstatus : r.status = .success) (hholds : Holds r.resp m) (hflow : queue r.shared <+: wire todo)
    (hn : n + r.Read = m.bytes.length) (hdrained : r.Read = 0 → queue r.shared = []) :
    Outcome ctx (m :: todo) n r := by
  have hfinish := finish_of_success ctx hstatus
  have hreset : received storeResetResponse = [] := received_header (o := 0) rfl rfl
  refine ⟨⟨[m], todo, rfl, ?_, ?_, ?_⟩, ?_, hdrained⟩
  · rw [processedBy, if_pos hstatus]
    exact .cons hholds .nil
  · rw [hfinish, hreset]
    exact hflow
  · rw [hfinish, hreset, hn]
    simp [wire]
  · rw [hfinish]
    exact phase_reset

/-- The iteration receives payload. -/
theorem receivePayload_outcome (ctx : Context) (page : Shared) {resp : Response} {o n Read : ℕ}
    {todo : List Message} (ho : o < headerField resp.Header 12) (hl : headerField resp.Header 12 ≤ 4096)
    (hp : resp.PayloadSegment = ⟨some .data, o, headerField resp.Header 12⟩)
    (hflow : received resp ++ queue page <+: wire todo) (hn : n + Read = (received resp).length) :
    ∃ r, receivePayload page resp Read = some r ∧ Outcome ctx todo n r := by
  obtain ⟨buf, shared', heq, hbuf, hqueue⟩ := receivePayload_spec page ho.le hl hp Read
  refine ⟨_, heq, ?_⟩
  rw [received_payload hp] at hflow hn
  rw [List.append_assoc] at hflow
  obtain ⟨m, todo', rfl, hheader, hrest⟩ := next_of_header hflow
  have hlength := m.length_eq
  rw [hheader] at hlength
  have hdata : ((List.ofFn resp.Data).take o).length = o := by
    rw [List.length_take, List.length_ofFn]
    omega
  rw [List.length_append, List.length_ofFn, hdata] at hn
  by_cases hcomplete : o + min (headerField resp.Header 12 - o) (queue page).length =
      headerField resp.Header 12
  · have hpayload : (List.ofFn resp.Data).take o ++
        (queue page).take (headerField resp.Header 12 - o) = m.payload ∧
        (queue page).drop (headerField resp.Header 12 - o) <+: wire todo' := by
      obtain ⟨more, hmore⟩ := hrest
      rw [← List.take_append_drop (headerField resp.Header 12 - o) (queue page),
        ← List.append_assoc, List.append_assoc] at hmore
      obtain ⟨hfirst, hsecond⟩ := List.append_inj hmore (by
        rw [List.length_append, hdata, List.length_take]
        omega)
      exact ⟨hfirst, more, hsecond⟩
    rw [hcomplete] at hbuf ⊢
    refine Outcome.finished (if_pos rfl) ⟨hheader.symm, ?_, hlength.symm⟩ ?_ ?_ ?_
    · rw [hlength]
      exact hbuf.trans hpayload.1
    · show queue shared' <+: wire todo'
      rw [hqueue]
      exact hpayload.2
    · show n + (Read + min _ _) = m.bytes.length
      rw [Message.bytes, List.length_append, List.length_ofFn]
      omega
    · intro hzero
      replace hzero : Read + min (headerField resp.Header 12 - o) (queue page).length = 0 := hzero
      omega
  · refine Outcome.unfinished ?_ (.payload ?_ hl rfl) ?_ ?_ ?_
    · rw [if_neg hcomplete]
      simp
    · show o + min _ _ < headerField resp.Header 12
      omega
    · rw [received_payload rfl]
      show List.ofFn resp.Header ++ (List.ofFn buf).take (o + min _ _) ++ queue shared' <+: _
      rw [hbuf, hqueue, List.append_assoc, List.append_assoc, List.take_append_drop]
      exact hflow
    · rw [received_payload rfl]
      show n + (Read + min _ _) = (List.ofFn resp.Header ++ (List.ofFn buf).take (o + min _ _)).length
      rw [List.length_append, List.length_ofFn, List.length_take, List.length_ofFn]
      omega
    · intro hzero
      replace hzero : Read + min (headerField resp.Header 12 - o) (queue page).length = 0 := hzero
      show queue shared' = []
      rw [hqueue, List.drop_eq_nil_iff]
      omega

/-- What the ring offers of the messages to come is still their front when more of the stream comes. -/
theorem prefix_append_take {front W : List UInt8} (h : front <+: W) (k : ℕ) :
    front ++ (W.drop front.length).take k <+: W := by
  obtain ⟨more, rfl⟩ := h
  rw [List.drop_left, List.prefix_append_right_inj]
  exact List.take_prefix _ _

/-- The iteration goes on with the payload when the header is complete and announces one. -/
theorem storeReceiveResponse_header {page page₁ : Shared} (between : Shared → Shared) {resp : Response}
    {o o' n : ℕ} {buf : Fin 16 → UInt8} {st : Status}
    (hh : resp.HeaderSegment = ⟨some .header, o, 16⟩) (hp : resp.PayloadSegment = ⟨none, 0, 0⟩)
    (heq : storeReceiveSegment page resp ⟨some .header, o, 16⟩ =
      some (⟨st, n, page₁, { resp with Header := buf }⟩, ⟨some .header, o', 16⟩)) :
    storeReceiveResponse page between resp =
      if st ≠ .success ∨ headerField buf 12 = 0 then
        some ⟨st, n, page₁, { resp with Header := buf, HeaderSegment := ⟨some .header, o', 16⟩ }⟩
      else
        receivePayload (between page₁)
          { resp with
            Header := buf
            HeaderSegment := ⟨some .header, o', 16⟩
            PayloadSegment := ⟨some .data, 0, headerField buf 12⟩ } n := by
  have hnone : ¬ resp.PayloadSegment.Data ≠ none := by rw [hp]; simp
  rw [storeReceiveResponse, if_neg hnone, hh, heq, Option.bind_some]
  simp only [Response.len, hp]

/-- **An iteration** of the poll loop receives the front of the stream. `page` is the ring that it finds. -/
theorem storeReceiveResponse_outcome (ctx : Context) (page : Shared) (between : Shared → Shared)
    {resp : Response} {todo : List Message} (h : Phase resp)
    (hflow : received resp ++ queue page <+: wire todo)
    (hbetween : ∀ page', ∃ k, queue (between page') = queue page' ++
      ((wire todo).drop (received resp ++ queue page).length).take k) :
    ∃ r, storeReceiveResponse page between resp = some r ∧
      Outcome ctx todo (received resp).length r := by
  cases h with
  | payload ho hl hp =>
    rw [storeReceiveResponse, if_pos (by rw [hp]; simp)]
    exact receivePayload_outcome ctx page ho hl hp hflow rfl
  | @header o ho hh hp =>
    obtain ⟨buf, page₁, heq, hbuf, hqueue⟩ := receiveHeader_spec page resp ho.le
    have hfirst : ((List.ofFn resp.Header).take o).length = o := by
      rw [List.length_take, List.length_ofFn]
      omega
    rw [received_header hh hp] at hflow hbetween ⊢
    rw [storeReceiveResponse_header between hh hp heq]
    by_cases hcomplete : o + min (16 - o) (queue page).length = 16
    · -- the header is complete, and it is that of the next message
      have hheader : List.ofFn buf =
          (List.ofFn resp.Header).take o ++ (queue page).take (16 - o) := by
        rw [← hbuf, hcomplete, List.take_of_length_le (by rw [List.length_ofFn])]
      have hfront : List.ofFn buf ++ queue page₁ = (List.ofFn resp.Header).take o ++ queue page := by
        rw [hheader, hqueue, List.append_assoc, List.take_append_drop]
      rw [← hfront] at hflow hbetween
      obtain ⟨m, todo', rfl, hm, hrest⟩ := next_of_header hflow
      have hlength := m.length_eq
      have hle := m.length_le
      rw [hm] at hlength
      rw [if_pos hcomplete, hcomplete, hfirst]
      by_cases hzero : headerField buf 12 = 0
      · -- no payload
        refine ⟨_, if_pos (.inr hzero), ?_⟩
        rw [hzero, List.length_eq_zero_iff] at hlength
        refine Outcome.finished rfl ⟨hm.symm, ?_, ?_⟩ ?_ ?_ ?_
        · rw [hlength]
          rfl
        · rw [hlength]
          exact congrArg Segment.Length hp
        · rw [hlength] at hrest
          exact hrest
        · rw [Message.bytes, hlength, List.append_nil, List.length_ofFn]
          exact hcomplete
        · intro hread
          replace hread : min (16 - o) (queue page).length = 0 := hread
          omega
      · rw [if_neg (not_or.mpr ⟨by simp, hzero⟩)]
        obtain ⟨k, hk⟩ := hbetween page₁
        have hresp : ∀ resp' : Response, resp'.Header = buf →
            resp'.PayloadSegment = ⟨some .data, 0, headerField buf 12⟩ →
            received resp' = List.ofFn buf := fun resp' hH hP => by
          rw [received_payload hP, hH, List.take_zero, List.append_nil]
        refine receivePayload_outcome ctx (between page₁) (Nat.pos_of_ne_zero hzero) ?_ rfl ?_ ?_
        · show headerField buf 12 ≤ 4096
          omega
        · rw [hresp _ rfl rfl, hk, ← List.append_assoc]
          exact prefix_append_take hflow k
        · rw [hresp _ rfl rfl, List.length_ofFn]
          exact hcomplete
    · have hpart : received { resp with
            Header := buf
            HeaderSegment := ⟨some .header, o + min (16 - o) (queue page).length, 16⟩ } =
          (List.ofFn resp.Header).take o ++ (queue page).take (16 - o) :=
        (if_pos (congrArg Segment.Data hp)).trans hbuf
      rw [if_neg hcomplete]
      refine ⟨_, if_pos (.inl (by simp)), Outcome.unfinished (by simp) (.header ?_ rfl hp) ?_ ?_ ?_⟩
      · omega
      · show received { resp with Header := buf, HeaderSegment := _ } ++ queue page₁ <+: _
        rw [hpart, hqueue, List.append_assoc, List.take_append_drop]
        exact hflow
      · show _ = (received { resp with Header := buf, HeaderSegment := _ }).length
        rw [hpart, List.length_append, List.length_take (i := 16 - o)]
      · intro hread
        replace hread : min (16 - o) (queue page).length = 0 := hread
        show queue page₁ = []
        rw [hqueue, List.drop_eq_nil_iff]
        omega

/-! ## Main results -/

/-- **The invariant.** -/
structure Inv (msgs : List Message) (s : State) : Prop where
  split : ∃ done todo, msgs = done ++ todo ∧ List.Forall₂ Holds s.processed done ∧
    received s.ctx.Response ++ queue s.ctx.Shared <+: wire todo ∧
    s.taken = (wire done).length + (received s.ctx.Response).length
  phase : Phase s.ctx.Response
  drained : s.Read = some 0 → queue s.ctx.Shared = []

variable {msgs : List Message} {s t : State}

theorem wire_append (msgs msgs' : List Message) : wire (msgs ++ msgs') = wire msgs ++ wire msgs' := by
  rw [wire, List.map_append, List.flatten_append]
  rfl

theorem storeProcessResponse_shared (ctx : Context) : (storeProcessResponse ctx).Shared = ctx.Shared := by
  unfold storeProcessResponse
  dsimp only
  split_ifs
  · rfl
  · rfl
  · split <;> rfl

theorem finish_shared (ctx : Context) (r : Received) : (finish ctx r).Shared = r.shared := by
  unfold finish
  dsimp only
  split_ifs
  · exact storeProcessResponse_shared _
  · rfl

/-- **An event keeps the invariant.** -/
theorem Inv.step (h : Inv msgs s) {e : Event} (hG : Feeds msgs s e) (hs : step s e = some t) :
    Inv msgs t := by
  cases e with
  | reset => exact absurd hG id
  | sent req_id =>
    obtain rfl := Option.some.inj hs
    exact ⟨h.split, h.phase, h.drained⟩
  | poll before between =>
    obtain ⟨done, todo, rfl, hprocessed, hflow, htaken⟩ := h.split
    obtain ⟨⟨k, hbefore⟩, hbetween⟩ := hG
    -- the position in the stream is that in the messages to come
    have hdrop : ∀ n, (wire (done ++ todo)).drop ((wire done).length + n) = (wire todo).drop n :=
      fun n => by rw [wire_append, List.drop_length_add_append]
    have hposition : s.taken + (queue s.ctx.Shared).length =
        (wire done).length + (received s.ctx.Response ++ queue s.ctx.Shared).length := by
      rw [htaken, List.length_append]
      omega
    rw [hposition, hdrop] at hbefore
    have hflow' : received s.ctx.Response ++ queue (before s.ctx.Shared) <+: wire todo := by
      rw [hbefore, ← List.append_assoc]
      exact prefix_append_take hflow k
    have hbetween' : ∀ page', ∃ k, queue (between page') = queue page' ++ ((wire todo).drop
        (received s.ctx.Response ++ queue (before s.ctx.Shared)).length).take k := by
      intro page'
      obtain ⟨k', hk'⟩ := hbetween page'
      refine ⟨k', ?_⟩
      rw [hk', ← hdrop, List.length_append, htaken, Nat.add_assoc]
    obtain ⟨r, hr, hout⟩ :=
      storeReceiveResponse_outcome s.ctx (before s.ctx.Shared) between h.phase hflow' hbetween'
    rw [Stream.step, hr, Option.map_some] at hs
    obtain rfl := Option.some.inj hs
    obtain ⟨done', todo', rfl, hholds, hrest, hcount⟩ := hout.split
    refine ⟨⟨done ++ done', todo', (List.append_assoc _ _ _).symm, ?_, ?_, ?_⟩, hout.phase, ?_⟩
    · exact List.rel_append hprocessed hholds
    · show _ ++ queue (finish s.ctx r).Shared <+: _
      rw [finish_shared]
      exact hrest
    · show s.taken + r.Read =
        (wire (done ++ done')).length + (received (finish s.ctx r).Response).length
      rw [htaken, wire_append, List.length_append]
      omega
    · intro hread
      show queue (finish s.ctx r).Shared = []
      rw [finish_shared]
      exact hout.drained (Option.some.inj hread)

/-- What the framing of responses comes to, between two iterations of the poll loop. -/
structure Framed (msgs : List Message) (s : State) : Prop where
  /-- The messages processed are those of the stream, in order; the part of the next one that has been
  received is kept, and what is in the ring follows it. -/
  split : ∃ done todo, msgs = done ++ todo ∧ List.Forall₂ Holds s.processed done ∧
    received s.ctx.Response ++ queue s.ctx.Shared <+: wire todo ∧
    (∀ m ∈ todo.head?, received s.ctx.Response <+: m.bytes ∧ received s.ctx.Response ≠ m.bytes) ∧
    (todo = [] → received s.ctx.Response = [])
  /-- A poll ends with an iteration that reads nothing: the ring is empty then. -/
  drained : s.Read = some 0 → queue s.ctx.Shared = []

/-- What has been received of the next message is not all of it. -/
theorem received_lt {resp : Response} (h : Phase resp) {m : Message} {todo : List Message}
    (hflow : received resp <+: wire (m :: todo)) : (received resp).length < m.bytes.length := by
  cases h with
  | header ho hh hp =>
    rw [received_header hh hp, Message.bytes, List.length_take, List.length_append, List.length_ofFn,
      List.length_ofFn]
    omega
  | payload ho hl hp =>
    rw [received_payload hp] at hflow ⊢
    obtain ⟨m', todo', heq, hm, -⟩ := next_of_header hflow
    obtain ⟨rfl, rfl⟩ := List.cons.inj heq
    have hlength := m.length_eq
    rw [hm] at hlength
    rw [Message.bytes, List.length_append, List.length_append, List.length_take, List.length_ofFn,
      List.length_ofFn, List.length_ofFn]
    omega

/-- A response of 3 bytes to the request 1. -/
def short : Message where
  Header i := if i.val = 0 then 2 else if i.val = 4 then 1 else if i.val = 12 then 3 else 0
  payload := [7, 8, 9]
  length_eq := by decide
  length_le := by decide

/-- An empty response to the request 2. -/
def blank : Message where
  Header i := if i.val = 0 then 2 else if i.val = 4 then 2 else 0
  payload := []
  length_eq := by decide
  length_le := by decide

/-- A ring whose cells hold the two messages, `n` bytes of which are available. -/
def offering (n : UInt32) (shared : Shared) : Shared :=
  { shared with rsp := fun i => (wire [short, blank])[i.val]?.getD 0, rsp_prod := n }

/-- The backend does nothing between the two copies. -/
theorem puts_id (msgs : List Message) (n : ℕ) (page : Shared) : Puts msgs n page (id page) :=
  ⟨0, by rw [List.take_zero, List.append_nil]; rfl⟩

end XenBus.Store.Stream
