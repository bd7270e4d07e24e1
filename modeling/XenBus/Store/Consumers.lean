import XenBus.Foundations.CString
import XenBus.Store.Operations
import XenBus.Store.Stream

/-!
# What is done with a message

When a message has been received, `StoreProcessResponse` parses it as a watch event or hands it to its
request, and the call that waits for it checks it and takes what it needs out of its payload. The payload is
what the backend put there: nothing says that it is ended by a `NUL`, and if it is empty the payload
segment's `Data` is `NULL`. A read of the payload that is not of one of its bytes has no result here, and
neither has what reads it.

`StoreParseWatchEvent` looks at the byte before it looks at the length, and `StoreTransactionStart` leaves
it to `strtoul` to find the end. `consume_isSome_iff` says which messages are read within their payloads
(`Terminated`); all others make them read beyond, or follow `NULL` (`consume_empty`).
-/

namespace XenBus.Store.Consumers

open CString
open XenBus.Store.Stream (Message)
open XenBus.Store.Operations (Watch XS_TRANSACTION_START)

/-! ## Watch events -/

/-- `TOKEN_LENGTH`, on the two architectures. -/
def tokenLength (x86 : Bool) : ℕ := if x86 then 18 else 26

/-- The number of values of a pointer. -/
def pointerRange (x86 : Bool) : ℕ := if x86 then 4294967296 else 18446744073709551616

/-- The loop of `StoreParseWatchEvent`: what `Data` points to after it, and `Length`. -/
def scanPath : List UInt8 → ℕ → Option (List UInt8 × ℕ)
  | [], _ => none
  | b :: bs, Length => if b ≠ 0 ∧ Length ≠ 0 then scanPath bs (Length - 1) else some (b :: bs, Length)

/-- `"TOK|"`. -/
def preAmble : List UInt8 := [84, 79, 75, 124]

/-- The four bytes of the warning about the pre-amble. -/
def warnPreAmble (Data : List UInt8) : Option Unit :=
  if 4 ≤ Data.length then some () else none

/-- `StoreParseWatchEvent` from the pre-amble on: `*Caller` and `*Id`, or a failure. -/
def parseToken (x86 : Bool) (Data : List UInt8) : Option (Option (ℕ × ℕ)) := do
  let (Caller, End) ← strtoul 18446744073709551615 16 Data
  let c ← End.head?
  if c ≠ 124 then return none
  let (Id, End) ← strtoul 4294967295 16 End.tail
  let c ← End.head?
  if c ≠ 0 then return none
  return some (Caller % pointerRange x86, Id % 65536)

/-- `StoreParseWatchEvent`: `*Caller` and `*Id`, or a failure. `*Path` is `Data`. -/
def storeParseWatchEvent (x86 : Bool) (Data : List UInt8) : Option (Option (ℕ × ℕ)) := do
  let (Data, Length) ← scanPath Data Data.length
  if Length ≠ tokenLength x86 + 1 then return none
  let Data := Data.tail
  let last ← Data[tokenLength x86 - 1]?
  if last ≠ 0 then return none
  let matched ← strncmp Data preAmble 4
  if !matched then
    warnPreAmble Data
    return none
  parseToken x86 (Data.drop 4)

/-- `StoreProcessWatchEvent`, with the list of watches: the watch whose event is set. The path is read for
the messages in the log. -/
def storeProcessWatchEvent (x86 : Bool) (WatchList : List Watch) (Data : List UInt8) :
    Option (Option Watch) := do
  let some (_, Id) ← storeParseWatchEvent x86 Data | return none
  let _ ← cString Data
  return (WatchList.find? fun watch => watch.Id = Id).filter Watch.Active

/-! ## Replies -/

/-- The `NTSTATUS` values that `StoreCheckResponse` returns. -/
inductive CheckStatus
  | success
  | unsuccessful
  | quotaExceeded
  | invalidParameter
  | accessDenied
  | objectidExists
  | fileIsADirectory
  | objectNameNotFound
  | noMemory
  | insufficientResources
  | unexpectedIoError
  | directoryNotEmpty
  | notImplemented
  | mediaWriteProtected
  | pipeBusy
  | retry
  | pipeConnected
  deriving DecidableEq

/-- The bytes of a literal. -/
def literal (s : String) : List UInt8 := s.toList.map fun c => UInt8.ofNat c.toNat

/-- `xsd_errors`, with what `ERRNO_TO_STATUS` makes of the numbers. -/
def xsdErrors : List (List UInt8 × CheckStatus) :=
  [(literal "EINVAL", .invalidParameter), (literal "EACCES", .accessDenied),
    (literal "EEXIST", .objectidExists), (literal "EISDIR", .fileIsADirectory),
    (literal "ENOENT", .objectNameNotFound), (literal "ENOMEM", .noMemory),
    (literal "ENOSPC", .insufficientResources), (literal "EIO", .unexpectedIoError),
    (literal "ENOTEMPTY", .directoryNotEmpty), (literal "ENOSYS", .notImplemented),
    (literal "EROFS", .mediaWriteProtected), (literal "EBUSY", .pipeBusy), (literal "EAGAIN", .retry),
    (literal "EISCONN", .pipeConnected), (literal "E2BIG", .unsuccessful)]

/-- `XS_ERROR`. -/
def XS_ERROR : ℕ := 16

/-- `XS_READ` and `XS_DIRECTORY`. -/
def XS_READ : ℕ := 2

@[inherit_doc XS_READ] def XS_DIRECTORY : ℕ := 1

/-- The first of the texts that the error matches. -/
def matchError (Error : List UInt8) (Length : ℕ) : List (List UInt8 × CheckStatus) → Option CheckStatus
  | [] => some .unsuccessful
  | (errstring, status) :: rest =>
    (strncmp Error errstring Length).bind fun matched =>
      if matched then some status else matchError Error Length rest

/-- `StoreCheckResponse`. -/
def storeCheckResponse (type : ℕ) (Data : List UInt8) (Length : ℕ) : Option CheckStatus :=
  if type = XS_ERROR then matchError Data Length ((literal "EQUOTA", .quotaExceeded) :: xsdErrors)
  else some .success

/-- `StoreCopyPayload`, with the outcome of its allocation: the data of the buffer. -/
def storeCopyPayload (allocate : Bool) (Data : List UInt8) (Length : ℕ) : Option (Option (List UInt8)) :=
  if !allocate then some none
  else if Length ≤ Data.length then some (some (Data.take Length ++ [0, 0]))
  else none

/-! ## Messages -/

/-- What becomes of a message. -/
inductive Outcome
  | ignored
  /-- A watch event, with the watch whose event is set. -/
  | event (watch : Option Watch)
  /-- There is no request with its id. -/
  | spurious
  | failed (status : CheckStatus)
  /-- `StoreRead` and `StoreDirectory`: the buffer, if there is memory for it. -/
  | buffer (Data : Option (List UInt8))
  /-- `StoreTransactionStart`: `Transaction->Id`. -/
  | started (Id : ℕ)
  /-- The other calls. -/
  | done
  deriving DecidableEq

/-- What a call of the type does with its reply. -/
def consumeReply (request : ℕ) (allocate : Bool) (type : ℕ) (Data : List UInt8) : Option Outcome :=
  (storeCheckResponse type Data Data.length).bind fun status =>
    if status ≠ .success then some (.failed status)
    else if request = XS_TRANSACTION_START then
      (strtoul 4294967295 10 Data).map fun (Id, _) => .started Id
    else if request = XS_READ ∨ request = XS_DIRECTORY then
      (storeCopyPayload allocate Data Data.length).map .buffer
    else some .done

/-- What the driver does with a message that it has received: `StoreProcessResponse`, and the call whose
request it replies to, of which `pending` is the type. -/
def consume (x86 : Bool) (WatchList : List Watch) (pending : Option ℕ) (allocate : Bool) (m : Message) :
    Option Outcome :=
  let type := headerField m.Header 0
  if storeIgnoreHeaderType type then some .ignored
  else if type = xsWatchEvent then (storeProcessWatchEvent x86 WatchList m.payload).map .event
  else
    match pending with
    | none => some .spurious
    | some request => consumeReply request allocate type m.payload

/-- The payload ends what is read of it: that of a watch event has a `NUL`, and the reply to
`XS_TRANSACTION_START`, unless it is an error, is not a number that nothing ends. -/
structure Terminated (pending : Option ℕ) (m : Message) : Prop where
  event : headerField m.Header 0 = xsWatchEvent → 0 ∈ m.payload
  start : pending = some XS_TRANSACTION_START → storeIgnoreHeaderType (headerField m.Header 0) = false →
    headerField m.Header 0 ≠ xsWatchEvent → headerField m.Header 0 ≠ XS_ERROR → ¬ Unended m.payload

/-! ## Reading a watch event -/

variable {x86 : Bool} {Data : List UInt8}

/-- The loop leaves the payload if it has no `NUL`, as the byte is read before the length is tested. -/
theorem scanPath_eq_none (h : 0 ∉ Data) (Length : ℕ) (hle : Data.length ≤ Length) :
    scanPath Data Length = none := by
  induction Data generalizing Length with
  | nil => rfl
  | cons b bs ih =>
    rw [List.mem_cons, not_or] at h
    rw [List.length_cons] at hle
    rw [scanPath, if_pos ⟨Ne.symm h.1, by omega⟩]
    exact ih h.2 _ (by omega)

/-- Else it ends at the first one. -/
theorem scanPath_eq_some (h : 0 ∈ Data) :
    ∃ rest, scanPath Data Data.length = some (0 :: rest, rest.length + 1) := by
  induction Data with
  | nil => exact absurd h List.not_mem_nil
  | cons b bs ih =>
    rw [scanPath]
    by_cases hb : b = 0
    · subst hb
      rw [if_neg fun hne => hne.1 rfl]
      exact ⟨bs, rfl⟩
    · rw [if_pos ⟨hb, by simp⟩, List.length_cons, Nat.add_sub_cancel]
      exact ih (List.mem_of_ne_of_mem (Ne.symm hb) h)

theorem head_of_mem {l : List UInt8} (h : (0 : UInt8) ∈ l) : ∃ c, l.head? = some c := by
  cases l with
  | nil => exact absurd h List.not_mem_nil
  | cons c cs => exact ⟨c, rfl⟩

/-- A token that ends with a `NUL` is read up to it at most. -/
theorem parseToken_isSome (h : 0 ∈ Data) : (parseToken x86 Data).isSome := by
  obtain ⟨Caller, End, hCaller, hEnd⟩ := strtoul_of_nul 18446744073709551615 16 h
  obtain ⟨c, hc⟩ := head_of_mem hEnd
  simp only [parseToken, Option.bind_eq_bind, hCaller, Option.bind_some, hc]
  split_ifs with hbar
  · rfl
  · -- `*End` is the bar, so the `NUL` is behind it
    have htail : 0 ∈ End.tail := by
      obtain ⟨cs, rfl⟩ := List.head?_eq_some_iff.mp hc
      refine List.mem_of_ne_of_mem (fun heq => hbar ?_) hEnd
      rw [← heq]
      decide
    obtain ⟨Id, End', hId, hEnd'⟩ := strtoul_of_nul 4294967295 16 htail
    obtain ⟨c', hc'⟩ := head_of_mem hEnd'
    simp only [hId, Option.bind_some, hc']
    split_ifs <;> rfl

/-- **A watch event is read within its payload exactly if the payload has a NUL.** -/
theorem storeParseWatchEvent_isSome : (storeParseWatchEvent x86 Data).isSome ↔ 0 ∈ Data := by
  constructor
  · intro hsome
    by_contra hnul
    rw [storeParseWatchEvent, scanPath_eq_none hnul _ le_rfl] at hsome
    exact Bool.false_ne_true hsome
  · intro hnul
    obtain ⟨rest, hscan⟩ := scanPath_eq_some hnul
    have htoken : 18 ≤ tokenLength x86 := by
      unfold tokenLength
      split_ifs <;> omega
    simp only [storeParseWatchEvent, Option.bind_eq_bind, hscan, Option.bind_some, List.tail_cons]
    by_cases hlength : rest.length + 1 ≠ tokenLength x86 + 1
    · rw [if_pos hlength]
      rfl
    · have heq : rest.length = tokenLength x86 := by omega
      obtain ⟨last, hlast⟩ : ∃ last, rest[tokenLength x86 - 1]? = some last :=
        ⟨_, List.getElem?_eq_getElem (by omega)⟩
      obtain ⟨matched, hmatch⟩ := Option.isSome_iff_exists.mp
        (strncmp_isSome (l := rest) (n := 4) preAmble (by omega))
      rw [if_neg hlength, hlast, Option.bind_some, hmatch, Option.bind_some]
      split_ifs with hnul' hmatched
      · rfl
      · rw [warnPreAmble, if_pos (by omega)]
        rfl
      · -- the last byte is a `NUL`, and it is behind the pre-amble
        refine parseToken_isSome (List.mem_iff_getElem?.mpr ⟨tokenLength x86 - 5, ?_⟩)
        rw [List.getElem?_drop, show 4 + (tokenLength x86 - 5) = tokenLength x86 - 1 by omega, hlast]
        exact congrArg some (by_contra hnul')

/-- The path is read for the log when the event has been parsed. -/
theorem storeProcessWatchEvent_isSome (WatchList : List Watch) :
    (storeProcessWatchEvent x86 WatchList Data).isSome ↔ 0 ∈ Data := by
  have hevent := @storeParseWatchEvent_isSome x86 Data
  rw [← hevent]
  cases hparse : storeParseWatchEvent x86 Data with
  | none => simp [storeProcessWatchEvent, hparse]
  | some parsed =>
    have hnul : 0 ∈ Data := hevent.mp (by rw [hparse]; rfl)
    obtain ⟨Path, hpath⟩ := Option.isSome_iff_exists.mp (cString_isSome.mpr hnul)
    cases parsed with
    | none => simp [storeProcessWatchEvent, hparse]
    | some token => simp [storeProcessWatchEvent, hparse, hpath]

/-! ## Reading a reply -/

theorem matchError_isSome (Error : List UInt8) (table : List (List UInt8 × CheckStatus)) :
    ∃ status, matchError Error Error.length table = some status ∧
      (status = .unsuccessful ∨ status ∈ table.map Prod.snd) := by
  induction table with
  | nil => exact ⟨.unsuccessful, rfl, .inl rfl⟩
  | cons entry table ih =>
    obtain ⟨status, hmatch, hstatus⟩ := ih
    obtain ⟨matched, hmatched⟩ := Option.isSome_iff_exists.mp
      (strncmp_isSome entry.1 (le_refl Error.length))
    rw [matchError, hmatched, Option.bind_some]
    split_ifs
    · exact ⟨entry.2, rfl, .inr List.mem_cons_self⟩
    · exact ⟨status, hmatch, hstatus.imp_right (List.mem_cons_of_mem _)⟩

/-- The check of a reply reads no more than the payload, and an error does not pass it. -/
theorem storeCheckResponse_isSome (type : ℕ) (Data : List UInt8) :
    ∃ status, storeCheckResponse type Data Data.length = some status ∧
      (status = .success ↔ type ≠ XS_ERROR) := by
  unfold storeCheckResponse
  split_ifs with htype
  · obtain ⟨status, hmatch, hstatus⟩ :=
      matchError_isSome Data ((literal "EQUOTA", .quotaExceeded) :: xsdErrors)
    refine ⟨status, hmatch, iff_of_false ?_ (fun hne => hne htype)⟩
    rintro rfl
    obtain hstatus | hstatus := hstatus
    · cases hstatus
    · exact absurd hstatus (by decide)
  · exact ⟨.success, rfl, iff_of_true rfl htype⟩

theorem storeCopyPayload_isSome (allocate : Bool) (Data : List UInt8) :
    (storeCopyPayload allocate Data Data.length).isSome := by
  unfold storeCopyPayload
  rw [if_pos le_rfl]
  split_ifs <;> rfl

/-- A reply is read within its payload, but for the id of a transaction that nothing ends. -/
theorem consumeReply_isSome (request : ℕ) (allocate : Bool) (type : ℕ) (Data : List UInt8) :
    (consumeReply request allocate type Data).isSome ↔
      (request = XS_TRANSACTION_START → type ≠ XS_ERROR → ¬ Unended Data) := by
  obtain ⟨status, hcheck, hstatus⟩ := storeCheckResponse_isSome type Data
  unfold consumeReply
  rw [hcheck, Option.bind_some]
  by_cases herror : type ≠ XS_ERROR
  · rw [if_neg fun hne => hne (hstatus.mpr herror)]
    by_cases hstart : request = XS_TRANSACTION_START
    · rw [if_pos hstart, Option.isSome_map, ← strtoul_eq_none_iff 4294967295, ← ne_eq,
        Option.ne_none_iff_isSome]
      exact ⟨fun h _ _ => h, fun h => h hstart herror⟩
    · rw [if_neg hstart]
      refine iff_of_true ?_ (fun h => absurd h hstart)
      split_ifs
      · rw [Option.isSome_map]
        exact storeCopyPayload_isSome allocate Data
      · rfl
  · rw [if_pos fun hsuccess => herror (hstatus.mp hsuccess)]
    exact iff_of_true rfl fun _ hne => absurd hne herror

/-! ## Main result -/

/-- **A message is read within its payload exactly if the payload ends what is read of it.** -/
theorem consume_isSome_iff (x86 : Bool) (WatchList : List Watch) (pending : Option ℕ) (allocate : Bool)
    (m : Message) : (consume x86 WatchList pending allocate m).isSome ↔ Terminated pending m := by
  unfold consume
  dsimp only
  by_cases hignore : storeIgnoreHeaderType (headerField m.Header 0) = true
  · rw [if_pos hignore]
    refine iff_of_true rfl ⟨fun hevent => ?_, fun _ hnot => ?_⟩
    · rw [hevent] at hignore
      exact absurd hignore (by decide)
    · exact absurd (hignore.symm.trans hnot) (by decide)
  · rw [if_neg hignore]
    by_cases hevent : headerField m.Header 0 = xsWatchEvent
    · rw [if_pos hevent, Option.isSome_map, storeProcessWatchEvent_isSome]
      exact ⟨fun h => ⟨fun _ => h, fun _ _ hne => absurd hevent hne⟩, fun h => h.event hevent⟩
    · rw [if_neg hevent]
      have hfalse := Bool.eq_false_iff.mpr hignore
      cases pending with
      | none => exact iff_of_true rfl ⟨fun h => absurd h hevent, fun h => absurd h.symm (Option.some_ne_none _)⟩
      | some request =>
        dsimp only
        rw [consumeReply_isSome]
        constructor
        · exact fun h => ⟨fun h' => absurd h' hevent, fun hstart _ _ => h (Option.some.inj hstart)⟩
        · exact fun h hstart => h.start (congrArg some hstart) hfalse hevent

/-- A watch event without a payload. -/
def emptyEvent : Message where
  Header i := if i.val = 0 then 15 else 0
  payload := []
  length_eq := by decide
  length_le := Nat.zero_le _

/-- A reply to `XS_TRANSACTION_START` with the id 17, which nothing ends. -/
def seventeen : Message where
  Header i := if i.val = 0 then 6 else if i.val = 12 then 2 else 0
  payload := [49, 55]
  length_eq := by decide
  length_le := by decide

/-- An event without a payload is read at `NULL`, and the id 17 beyond its payload. -/
theorem consume_empty : consume false [] none true emptyEvent = none ∧
    consume false [] (some XS_TRANSACTION_START) true seventeen = none := by
  decide +kernel

end XenBus.Store.Consumers
