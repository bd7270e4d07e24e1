import XenBus.Ansi
import XenBus.Foundations.BoundedBuffer
import XenBus.Foundations.CString
import XenBus.Foundations.LittleEndian
import XenBus.Foundations.MachineInt

/-!
# Reading the tables

`AcpiGetXsdt` and `AcpiGetTable` (`acpi.c`) map a page at the address of a table, verify the checksum of as many
bytes as its header says, and copy them. `AcpiGetXsdt` keeps the copy of the `XSDT`, whose entries are the addresses
of the other tables.

A read that is neither in the page that is mapped nor in the copy has no result (`none`). The windows are handed
out by a `Ledger`, so a window that is unmapped twice has no result either. `safe_iff` says for which tables the
calls are safe: none that is looked for is longer than a page, and the `XSDT` has a whole header.
-/

namespace XenBus.Acpi

open Ansi CString LittleEndian MachineInt

/-! ## The functions -/

/-- The physical memory, and where the `XSDT` is. -/
structure Firmware where
  memory : ℕ → UInt8
  XsdtAddress : ℕ

abbrev PAGE_SIZE : ℕ := 4096

/-- Which mappings and which allocations succeed. -/
structure Kernel where
  map : ℕ → Bool
  allocate : ℕ → Bool

/-- `AcpiXsdt`, and what is mapped and allocated. -/
structure State where
  AcpiXsdt : Option Block
  windows : Ledger
  pool : Ledger

inductive TableStatus
  | success
  | unsuccessful
  | noMemory
  | bufferOverflow
  deriving DecidableEq

/-- The bytes of a window. -/
def window (firmware : Firmware) (Address : ℕ) : List UInt8 :=
  (List.range PAGE_SIZE).map fun i => firmware.memory (Address + i)

/-- `MmMapIoSpace(Address, PAGE_SIZE, MmCached)`. -/
def mmMapIoSpace (firmware : Firmware) (kernel : Kernel) (Address : ℕ) (windows : Ledger) :
    Option (ℕ × List UInt8) × Ledger :=
  if kernel.map windows.next then (some (windows.next, window firmware Address), windows.take)
  else (none, windows.skip)

/-- The loop of `AcpiVerifyChecksum`. -/
def checksum : List UInt8 → ℕ → UInt8 → Option UInt8
  | _, 0, Sum => some Sum
  | [], _ + 1, _ => none
  | b :: Table, n + 1, Sum => checksum Table n (Sum + b)

/-- `AcpiVerifyChecksum`. -/
def acpiVerifyChecksum (Table : List UInt8) (Length : ℕ) : Option Bool :=
  (checksum Table Length 0).map fun Sum => decide (Sum = 0)

/-- `RtlCopyMemory`. -/
def rtlCopyMemory (Destination Source : List UInt8) (Length : ℕ) : Option (List UInt8) :=
  if Length ≤ Source.length then BoundedBuffer.write Destination 0 (Source.take Length) else none

/-- `"XSDT"`. -/
def xsdt : List UInt8 := [88, 83, 68, 84]

/-- `Header.Length`. -/
def headerLength (Header : List UInt8) : Option ℕ := number Header 4 4

/-- The signature is right, and the checksum; the checksum is not verified if the signature is not right. -/
def verify (Header Signature : List UInt8) : Option Bool :=
  (strncmp Header Signature 4).bind fun equal =>
    if equal = false then some false else (headerLength Header).bind (acpiVerifyChecksum Header)

/-- `AcpiGetXsdt`. -/
def acpiGetXsdt (firmware : Firmware) (kernel : Kernel) (s : State) : Option (TableStatus × State) :=
  if s.AcpiXsdt.isSome then some (.success, s)
  else
    match mmMapIoSpace firmware kernel firmware.XsdtAddress s.windows with
    | (none, windows) => some (.unsuccessful, { s with windows := windows })
    | (some (Xsdt, bytes), windows) =>
      (verify bytes xsdt).bind fun ok =>
        if ok = false then
          (windows.give Xsdt).map fun windows => (.unsuccessful, { s with windows := windows })
        else
          (headerLength bytes).bind fun Length =>
            match allocatePoolWithTag kernel.allocate Length s.pool with
            | (none, pool) =>
              (windows.give Xsdt).map fun windows => (.noMemory, { s with windows := windows, pool := pool })
            | (some block, pool) =>
              (rtlCopyMemory block.bytes bytes Length).bind fun copy =>
                (windows.give Xsdt).map fun windows =>
                  (.success, ⟨some { block with bytes := copy }, windows, pool⟩)

/-- The number of entries of an `XSDT` of this length: the difference is a `ULONG`. -/
def entryCount (Length : ℕ) : ℕ := ulongSub Length 36 / 8

/-- The loop of `AcpiGetTable`: the table that is found is mapped. -/
def findTable (firmware : Firmware) (kernel : Kernel) (Signature AcpiXsdt : List UInt8) :
    ℕ → ℕ → Ledger → Option (Option (ℕ × List UInt8) × Ledger)
  | 0, _, windows => some (none, windows)
  | n + 1, Index, windows =>
    (number AcpiXsdt (36 + 8 * Index) 8).bind fun Address =>
      match mmMapIoSpace firmware kernel Address windows with
      | (none, windows) => some (none, windows)
      | (some (Header, bytes), windows) =>
        (verify bytes Signature).bind fun found =>
          if found then some (some (Header, bytes), windows)
          else (windows.give Header).bind (findTable firmware kernel Signature AcpiXsdt n (Index + 1))

/-- What `AcpiGetTable` returns: the status, `Buffer` and `*Length`. -/
structure Result where
  status : TableStatus
  Buffer : Option (List UInt8)
  Length : ℕ

/-- `AcpiGetTable`. -/
def acpiGetTable (firmware : Firmware) (kernel : Kernel) (Signature : List UInt8) (Buffer : Option (List UInt8))
    (Length : ℕ) (s : State) : Option (Result × State) :=
  (acpiGetXsdt firmware kernel s).bind fun (status, s) =>
    if status ≠ .success then some (⟨status, Buffer, Length⟩, s)
    else s.AcpiXsdt.bind fun block =>
      (headerLength block.bytes).bind fun XsdtLength =>
        (findTable firmware kernel Signature block.bytes (entryCount XsdtLength) 0 s.windows).bind
          fun (found, windows) =>
            match found with
            | none => some (⟨.unsuccessful, Buffer, Length⟩, { s with windows := windows })
            | some (Header, bytes) =>
              (headerLength bytes).bind fun TableLength =>
                match Buffer.filter fun _ => decide (TableLength ≤ Length) with
                | none => (windows.give Header).map fun windows =>
                    (⟨.bufferOverflow, Buffer, TableLength⟩, { s with windows := windows })
                | some Buffer => (rtlCopyMemory Buffer bytes TableLength).bind fun Buffer =>
                    (windows.give Header).map fun windows =>
                      (⟨.success, some Buffer, Length⟩, { s with windows := windows })

/-! ## Tables and pages -/

variable {firmware : Firmware} {kernel : Kernel} {Signature Table : List UInt8} {s : State}

/-- The length in the header of a table. -/
def lengthOf (Header : List UInt8) : ℕ := (headerLength Header).getD 0

/-- The page that is mapped for the `XSDT`. -/
def xsdtPage (firmware : Firmware) : List UInt8 := window firmware firmware.XsdtAddress

/-- The page that is mapped for the table of an entry of the `XSDT`. -/
def tablePage (firmware : Firmware) (Index : ℕ) : List UInt8 :=
  window firmware ((number (xsdtPage firmware) (36 + 8 * Index) 8).getD 0)

/-- There is an `XSDT`: its signature and its checksum are right. -/
def Valid (firmware : Firmware) : Prop := verify (xsdtPage firmware) xsdt = some true

/-- The signature and the checksum of the table are right. -/
def Found (firmware : Firmware) (Signature : List UInt8) (Index : ℕ) : Prop :=
  verify (tablePage firmware Index) Signature = some true

/-- No table whose checksum is verified is longer than a page, and if there is an `XSDT`, it is empty or has a whole
header. The tables are looked at up to the first that is found. -/
structure Fits (firmware : Firmware) (Signature : List UInt8) : Prop where
  xsdt_le : strncmp (xsdtPage firmware) xsdt 4 = some true → lengthOf (xsdtPage firmware) ≤ PAGE_SIZE
  xsdt_header : Valid firmware → lengthOf (xsdtPage firmware) = 0 ∨ 36 ≤ lengthOf (xsdtPage firmware)
  table_le : Valid firmware → ∀ Index, 36 + 8 * (Index + 1) ≤ lengthOf (xsdtPage firmware) →
    (∀ j < Index, ¬ Found firmware Signature j) → strncmp (tablePage firmware Index) Signature 4 = some true →
    lengthOf (tablePage firmware Index) ≤ PAGE_SIZE

/-- `AcpiXsdt` is what `AcpiGetXsdt` has made of the `XSDT`, if it is there. -/
def Cached (firmware : Firmware) (s : State) : Prop :=
  ∀ block, s.AcpiXsdt = some block → Valid firmware ∧ lengthOf (xsdtPage firmware) ≠ 0 ∧
    block.bytes = (xsdtPage firmware).take (lengthOf (xsdtPage firmware))

theorem window_length (firmware : Firmware) (Address : ℕ) : (window firmware Address).length = PAGE_SIZE := by
  rw [window, List.length_map, List.length_range]

theorem headerLength_window (firmware : Firmware) (Address : ℕ) :
    headerLength (window firmware Address) = some (lengthOf (window firmware Address)) := by
  obtain ⟨Length, h⟩ : ∃ Length, headerLength (window firmware Address) = some Length :=
    exists_number (by rw [window_length]; decide)
  rw [lengthOf, h, Option.getD_some]

theorem checksum_isSome {n : ℕ} {Sum : UInt8} : (checksum Table n Sum).isSome ↔ n ≤ Table.length := by
  induction n generalizing Table Sum with
  | zero => simp [checksum]
  | succ n ih =>
    cases Table with
    | nil => simp [checksum]
    | cons b Table => rw [checksum, ih, List.length_cons, Nat.succ_le_succ_iff]

/-- A page is verified, unless its table is longer. -/
theorem exists_verify {Address : ℕ}
    (hle : strncmp (window firmware Address) Signature 4 = some true →
      lengthOf (window firmware Address) ≤ PAGE_SIZE) :
    ∃ ok, verify (window firmware Address) Signature = some ok := by
  have hstrncmp : (strncmp (window firmware Address) Signature 4).isSome :=
    strncmp_isSome Signature (by rw [window_length]; decide)
  obtain ⟨equal, hequal⟩ := Option.isSome_iff_exists.mp hstrncmp
  rw [verify, hequal, Option.bind_some]
  cases equal with
  | false => exact ⟨false, rfl⟩
  | true =>
    have hchecksum : (checksum (window firmware Address) (lengthOf (window firmware Address)) 0).isSome :=
      checksum_isSome.mpr (by rw [window_length]; exact hle hequal)
    obtain ⟨Sum, hSum⟩ := Option.isSome_iff_exists.mp hchecksum
    exact ⟨decide (Sum = 0), by simp [headerLength_window, acpiVerifyChecksum, hSum]⟩

/-- The checksum of a table that is longer than its page is read beyond it. -/
theorem verify_eq_none {Address : ℕ} (hsigned : strncmp (window firmware Address) Signature 4 = some true)
    (hlt : PAGE_SIZE < lengthOf (window firmware Address)) : verify (window firmware Address) Signature = none := by
  have hchecksum : ¬ (checksum (window firmware Address) (lengthOf (window firmware Address)) 0).isSome := by
    rw [checksum_isSome, window_length]
    omega
  rw [verify, hsigned, Option.bind_some, if_neg (by decide), headerLength_window, Option.bind_some,
    acpiVerifyChecksum, Option.not_isSome_iff_eq_none.mp hchecksum, Option.map_none]

theorem signed_of_verify {Address : ℕ} (h : verify (window firmware Address) Signature = some true) :
    strncmp (window firmware Address) Signature 4 = some true := by
  obtain ⟨equal, hequal, h⟩ := Option.bind_eq_some_iff.mp h
  cases equal with
  | false => cases h
  | true => exact hequal

theorem le_of_verify {Address : ℕ} (h : verify (window firmware Address) Signature = some true) :
    lengthOf (window firmware Address) ≤ PAGE_SIZE := by
  by_contra hlt
  rw [verify_eq_none (signed_of_verify h) (not_le.mp hlt)] at h
  cases h

/-! ## The copy of the `XSDT` -/

/-- `AcpiGetXsdt` has mapped a page, and unmaps it. -/
theorem mmMapIoSpace_cases (firmware : Firmware) (kernel : Kernel) (Address : ℕ) (windows : Ledger) :
    (∃ windows', mmMapIoSpace firmware kernel Address windows = (none, windows') ∧ windows.Same windows') ∨
    mmMapIoSpace firmware kernel Address windows =
      (some (windows.next, window firmware Address), windows.take) := by
  unfold mmMapIoSpace
  split_ifs
  · exact .inr rfl
  · exact .inl ⟨windows.skip, rfl, windows.same_skip⟩

theorem rtlCopyMemory_replicate {Source : List UInt8} {Length : ℕ} (hle : Length ≤ Source.length) :
    rtlCopyMemory (List.replicate Length 0) Source Length = some (Source.take Length) := by
  have hlength : (Source.take Length).length = (List.replicate Length (0 : UInt8)).length := by
    rw [List.length_take_of_le hle, List.length_replicate]
  have hwrite := BoundedBuffer.write_over _ [] _ hlength
  rw [rtlCopyMemory, if_pos hle]
  rwa [List.append_nil, List.append_nil] at hwrite

theorem exists_rtlCopyMemory {Destination Source : List UInt8} {Length : ℕ} (hSource : Length ≤ Source.length)
    (hDestination : Length ≤ Destination.length) : ∃ copy, rtlCopyMemory Destination Source Length = some copy := by
  have hlength := List.length_take_of_le hSource
  obtain ⟨copy, hwrite, -⟩ := BoundedBuffer.write_of_le Destination 0 (Source.take Length) (by omega)
  exact ⟨copy, by rw [rtlCopyMemory, if_pos hSource, hwrite]⟩

theorem acpiGetXsdt_spec (kernel : Kernel) (hcached : Cached firmware s)
    (hle : strncmp (xsdtPage firmware) xsdt 4 = some true → lengthOf (xsdtPage firmware) ≤ PAGE_SIZE) :
    ∃ status s', acpiGetXsdt firmware kernel s = some (status, s') ∧ s.windows.Took s'.windows [] ∧
      Cached firmware s' ∧ status ≠ .bufferOverflow ∧ (status = .success → ∃ block, s'.AcpiXsdt = some block) := by
  unfold acpiGetXsdt
  cases hXsdt : s.AcpiXsdt with
  | some block => exact ⟨.success, s, rfl, .refl _, hcached, by simp, fun _ => ⟨block, hXsdt⟩⟩
  | none =>
    rw [if_neg (by simp)]
    rcases mmMapIoSpace_cases firmware kernel firmware.XsdtAddress s.windows with ⟨windows, heq, hsame⟩ | heq
    · exact ⟨.unsuccessful, _, by rw [heq], (Ledger.Took.refl _).same hsame, by simp [Cached], by simp, by simp⟩
    obtain ⟨windows, hgive, htook⟩ := (Ledger.Took.refl s.windows).take.give
    obtain ⟨ok, hverify⟩ := exists_verify hle
    simp only [heq, hverify, Option.bind_some]
    cases ok with
    | false =>
      rw [if_pos rfl, hgive]
      exact ⟨.unsuccessful, _, rfl, htook, by simp [Cached], by simp, by simp⟩
    | true =>
      rw [if_neg (by decide), headerLength_window, Option.bind_some]
      rcases allocatePoolWithTag_cases kernel.allocate (lengthOf (window firmware firmware.XsdtAddress)) s.pool with
        ⟨pool, hpool, -⟩ | ⟨hpos, hpool⟩
      · simp only [hpool, hgive]
        exact ⟨.noMemory, _, rfl, htook, by simp [Cached], by simp, by simp⟩
      · have hlength : lengthOf (xsdtPage firmware) ≤ (xsdtPage firmware).length :=
          (le_of_verify hverify).trans_eq (window_length firmware _).symm
        have hcopy := rtlCopyMemory_replicate hlength
        simp only [xsdtPage] at hcopy
        simp only [hpool, hcopy, Option.bind_some, hgive, Option.map_some]
        refine ⟨.success, _, rfl, htook, ?_, by simp, fun _ => ⟨_, rfl⟩⟩
        rintro block ⟨⟩
        refine ⟨hverify, hpos.ne', ?_⟩
        simp only [xsdtPage]

/-- The copy has the length of the `XSDT` in its header. -/
theorem headerLength_copy {Length : ℕ} (hle : Length ≤ PAGE_SIZE) (h : 8 ≤ Length)
    (hLength : lengthOf (xsdtPage firmware) = Length) :
    headerLength ((xsdtPage firmware).take Length) = some Length := by
  rw [headerLength, number_take (by omega) (by rw [xsdtPage, window_length]; exact hle), ← headerLength,
    xsdtPage, headerLength_window, ← xsdtPage, hLength]

/-- An entry of the copy is that of the `XSDT`. -/
theorem number_copy {Length Index : ℕ} (hle : Length ≤ PAGE_SIZE) (h : 36 + 8 * (Index + 1) ≤ Length) :
    number ((xsdtPage firmware).take Length) (36 + 8 * Index) 8 =
      some ((number (xsdtPage firmware) (36 + 8 * Index) 8).getD 0) := by
  have hpage : (xsdtPage firmware).length = PAGE_SIZE := window_length firmware _
  have hentry : 36 + 8 * Index + 8 ≤ (xsdtPage firmware).length := by omega
  obtain ⟨Address, hAddress⟩ := exists_number hentry
  rw [number_take (by omega) (by omega), hAddress, Option.getD_some]

theorem entryCount_eq {Length : ℕ} (h : 36 ≤ Length) : entryCount Length = (Length - 36) / 8 := by
  rw [entryCount, ulongSub_of_le h]

/-! ## The loop over the entries -/

/-- The first table that is found. -/
def First (firmware : Firmware) (Signature : List UInt8) (Index : ℕ) : Prop :=
  Found firmware Signature Index ∧ ∀ j < Index, ¬ Found firmware Signature j

theorem First.eq {i j : ℕ} (hi : First firmware Signature i) (hj : First firmware Signature j) : i = j := by
  rcases Nat.lt_trichotomy i j with hlt | heq | hgt
  · exact absurd hi.1 (hj.2 i hlt)
  · exact heq
  · exact absurd hj.1 (hi.2 j hgt)

/-- **The loop** unmaps every page but that of the first table that is found. -/
theorem findTable_spec (kernel : Kernel) (hfits : Fits firmware Signature) (hvalid : Valid firmware) {Length : ℕ}
    (hLength : lengthOf (xsdtPage firmware) = Length) (hle : Length ≤ PAGE_SIZE) (n Index : ℕ)
    (hn : 36 + 8 * (n + Index) ≤ Length) (hbefore : ∀ j < Index, ¬ Found firmware Signature j) (windows : Ledger) :
    ∃ found windows', findTable firmware kernel Signature ((xsdtPage firmware).take Length) n Index windows =
        some (found, windows') ∧
      (found = none → windows.Took windows' []) ∧
      ∀ Header bytes, found = some (Header, bytes) → windows.Took windows' [Header] ∧
        ∃ i, First firmware Signature i ∧ bytes = tablePage firmware i := by
  induction n generalizing Index windows with
  | zero => exact ⟨none, windows, rfl, fun _ => .refl windows, by simp⟩
  | succ n ih =>
    rw [findTable, number_copy hle (by omega), Option.bind_some]
    rcases mmMapIoSpace_cases firmware kernel ((number (xsdtPage firmware) (36 + 8 * Index) 8).getD 0) windows with
      ⟨windows', heq, hsame⟩ | heq
    · exact ⟨none, windows', by rw [heq], fun _ => (Ledger.Took.refl windows).same hsame, by simp⟩
    have hsigned := hfits.table_le hvalid Index (by omega) hbefore
    obtain ⟨found, hverify⟩ := exists_verify hsigned
    simp only [heq, hverify, Option.bind_some]
    have htook := (Ledger.Took.refl windows).take
    cases found with
    | true =>
      rw [if_pos rfl]
      refine ⟨_, _, rfl, by simp, ?_⟩
      rintro Header bytes ⟨⟩
      exact ⟨htook, Index, ⟨hverify, hbefore⟩, rfl⟩
    | false =>
      obtain ⟨windows', hgive, htook'⟩ := htook.give
      have hbefore' : ∀ j < Index + 1, ¬ Found firmware Signature j := by
        intro j hj hfound
        rcases Nat.lt_succ_iff_lt_or_eq.mp hj with hlt | rfl
        · exact hbefore j hlt hfound
        · cases hfound.symm.trans hverify
      obtain ⟨found, windows'', hfind, hnone, hsome⟩ := ih (Index + 1) (by omega) hbefore' windows'
      rw [if_neg (by decide), hgive, Option.bind_some]
      refine ⟨found, windows'', hfind, fun h => htook'.trans (hnone h), fun Header bytes h => ?_⟩
      obtain ⟨htook'', hfirst⟩ := hsome Header bytes h
      exact ⟨htook'.trans htook'', hfirst⟩

/-! ## The call -/

/-- What `AcpiGetTable` does if the tables fit. -/
theorem acpiGetTable_spec (kernel : Kernel) (hfits : Fits firmware Signature) (hcached : Cached firmware s)
    (Buffer : Option (List UInt8)) (Length : ℕ) (hBuffer : ∀ b, Buffer = some b → Length ≤ b.length) :
    ∃ result s', acpiGetTable firmware kernel Signature Buffer Length s = some (result, s') ∧
      s.windows.Took s'.windows [] ∧ Cached firmware s' ∧
      (result.status = .bufferOverflow → ∃ i, First firmware Signature i ∧
        result.Length = lengthOf (tablePage firmware i) ∧
        ∀ b, Buffer = some b → Length < lengthOf (tablePage firmware i)) := by
  obtain ⟨status, s', hget, htook, hcached', hoverflow, hsuccess⟩ := acpiGetXsdt_spec kernel hcached hfits.xsdt_le
  rw [acpiGetTable, hget, Option.bind_some]
  rcases eq_or_ne status .success with rfl | hne
  · obtain ⟨block, hblock⟩ := hsuccess rfl
    obtain ⟨hvalid, hpos, hbytes⟩ := hcached' block hblock
    have hle : lengthOf (xsdtPage firmware) ≤ PAGE_SIZE := le_of_verify hvalid
    have hheader := (hfits.xsdt_header hvalid).resolve_left hpos
    simp only [ne_eq, not_true_eq_false, if_false, hblock, Option.bind_some, hbytes]
    rw [headerLength_copy hle (by omega) rfl, Option.bind_some, entryCount_eq hheader]
    obtain ⟨found, windows, hfind, hnone, hsome⟩ := findTable_spec kernel hfits hvalid rfl hle
      ((lengthOf (xsdtPage firmware) - 36) / 8) 0 (by omega) (by simp) s'.windows
    have hcached'' : ∀ windows, Cached firmware ⟨some block, windows, s'.pool⟩ :=
      fun windows b hb => hcached' b (hblock.trans hb)
    rw [hfind, Option.bind_some]
    cases found with
    | none => exact ⟨_, _, rfl, htook.trans (hnone rfl), hcached'' windows, by simp⟩
    | some found =>
      obtain ⟨Header, bytes⟩ := found
      obtain ⟨htook', i, hfirst, hbytes'⟩ := hsome Header bytes rfl
      obtain ⟨windows', hgive, htook''⟩ := htook'.give
      have hlength : (tablePage firmware i).length = PAGE_SIZE := window_length firmware _
      have hTableLength : lengthOf (tablePage firmware i) ≤ PAGE_SIZE := le_of_verify hfirst.1
      have hheader : headerLength (tablePage firmware i) = some (lengthOf (tablePage firmware i)) :=
        headerLength_window firmware _
      simp only [hbytes', hheader, Option.bind_some]
      cases Buffer with
      | none =>
        simp only [Option.filter_none, hgive, Option.map_some]
        refine ⟨_, _, rfl, htook.trans htook'', hcached'' windows', fun _ => ⟨i, hfirst, ?_, ?_⟩⟩
        · simp only
        · intro b hb
          cases hb
      | some b =>
        have hroom := hBuffer b rfl
        rcases Nat.lt_or_ge Length (lengthOf (tablePage firmware i)) with hlt | hge
        · have hfilter : (some b).filter (fun _ => decide (lengthOf (tablePage firmware i) ≤ Length)) = none := by
            simp [hlt]
          simp only [hfilter, hgive, Option.map_some]
          refine ⟨_, _, rfl, htook.trans htook'', hcached'' windows', fun _ => ⟨i, hfirst, ?_, ?_⟩⟩
          · simp only
          · rintro b' ⟨⟩
            exact hlt
        · have hfilter : (some b).filter (fun _ => decide (lengthOf (tablePage firmware i) ≤ Length)) = some b := by
            simp [hge]
          obtain ⟨b', hcopy⟩ : ∃ b', rtlCopyMemory b (tablePage firmware i) (lengthOf (tablePage firmware i)) =
              some b' := exists_rtlCopyMemory (by omega) (by omega)
          simp only [hfilter, hcopy, Option.bind_some, hgive, Option.map_some]
          exact ⟨_, _, rfl, htook.trans htook'', hcached'' windows', by simp⟩
  · simp only [if_pos hne]
    exact ⟨_, s', rfl, htook, hcached', fun h => absurd h hoverflow⟩

/-- Each call returns, so it has read nothing but its windows and the copy of the `XSDT`, and has unmapped every
window once; the entries that are counted are in the copy; and a buffer of the length that a call without a buffer
asks for is not too small. -/
structure Safe (firmware : Firmware) (Signature : List UInt8) : Prop where
  reads : ∀ kernel s Buffer Length, Cached firmware s → (∀ b, Buffer = some b → Length ≤ b.length) →
    ∃ result s', acpiGetTable firmware kernel Signature Buffer Length s = some (result, s') ∧
      s.windows.Took s'.windows [] ∧ Cached firmware s'
  entries : ∀ s, Cached firmware s → ∀ block, s.AcpiXsdt = some block → ∀ XsdtLength,
    headerLength block.bytes = some XsdtLength → 36 + 8 * entryCount XsdtLength ≤ block.bytes.length
  sizes : ∀ kernel kernel' s s' t t' Length b sized result, Cached firmware s → Cached firmware t →
    acpiGetTable firmware kernel Signature none Length s = some (sized, s') → sized.status = .bufferOverflow →
    sized.Length ≤ b.length →
    acpiGetTable firmware kernel' Signature (some b) sized.Length t = some (result, t') →
    result.status ≠ .bufferOverflow

theorem Fits.safe (hfits : Fits firmware Signature) : Safe firmware Signature where
  reads kernel s Buffer Length hcached hBuffer := by
    obtain ⟨result, s', hcall, htook, hcached', -⟩ := acpiGetTable_spec kernel hfits hcached Buffer Length hBuffer
    exact ⟨result, s', hcall, htook, hcached'⟩
  entries s hcached block hblock XsdtLength hXsdtLength := by
    obtain ⟨hvalid, hpos, hbytes⟩ := hcached block hblock
    have hle : lengthOf (xsdtPage firmware) ≤ PAGE_SIZE := le_of_verify hvalid
    have hheader := (hfits.xsdt_header hvalid).resolve_left hpos
    rw [hbytes, headerLength_copy hle (by omega) rfl] at hXsdtLength
    obtain rfl := Option.some.inj hXsdtLength
    rw [hbytes, List.length_take_of_le (by rw [xsdtPage, window_length]; exact hle), entryCount_eq hheader]
    omega
  sizes kernel kernel' s s' t t' Length b sized result hs ht hsized hoverflow hroom hcall hagain := by
    obtain ⟨sized', s'', hsized', -, -, hfirst⟩ := acpiGetTable_spec kernel hfits hs none Length (by simp)
    obtain ⟨rfl, -⟩ := Prod.mk.inj (Option.some.inj (hsized.symm.trans hsized'))
    obtain ⟨i, hi, hLength, -⟩ := hfirst hoverflow
    obtain ⟨result', t'', hcall', -, -, hsecond⟩ := acpiGetTable_spec kernel' hfits ht (some b)
      sized.Length (by rintro b' ⟨⟩; exact hroom)
    obtain ⟨rfl, -⟩ := Prod.mk.inj (Option.some.inj (hcall.symm.trans hcall'))
    obtain ⟨j, hj, -, hlt⟩ := hsecond hagain
    have := hlt b rfl
    rw [hi.eq hj] at hLength
    omega

/-! ## The tables that do not fit -/

/-- Everything succeeds. -/
def willing : Kernel := ⟨fun _ => true, fun _ => true⟩

/-- Nothing has been read. -/
def start : State := ⟨none, .empty, .empty⟩

theorem cached_start (firmware : Firmware) : Cached firmware start := by
  rintro block ⟨⟩

/-- An `XSDT` that is longer than a page is read beyond it. -/
theorem acpiGetXsdt_eq_none (hsigned : strncmp (xsdtPage firmware) xsdt 4 = some true)
    (hlt : PAGE_SIZE < lengthOf (xsdtPage firmware)) : acpiGetXsdt firmware willing start = none := by
  have hverify : verify (window firmware firmware.XsdtAddress) xsdt = none := verify_eq_none hsigned hlt
  simp only [acpiGetXsdt, start, Option.isSome_none, Bool.false_eq_true, if_false, mmMapIoSpace, willing, if_true,
    hverify, Option.bind_none]

/-- The copy of an `XSDT`. -/
theorem acpiGetXsdt_eq_some (hvalid : Valid firmware) (hpos : lengthOf (xsdtPage firmware) ≠ 0) :
    ∃ s block, acpiGetXsdt firmware willing start = some (.success, s) ∧ s.AcpiXsdt = some block ∧
      block.bytes = (xsdtPage firmware).take (lengthOf (xsdtPage firmware)) := by
  have hlength : lengthOf (xsdtPage firmware) ≤ (xsdtPage firmware).length :=
    (le_of_verify hvalid).trans_eq (window_length firmware _).symm
  have hverify : verify (window firmware firmware.XsdtAddress) xsdt = some true := hvalid
  have hheader : headerLength (window firmware firmware.XsdtAddress) = some (lengthOf (xsdtPage firmware)) :=
    headerLength_window firmware _
  have hcopy : rtlCopyMemory (List.replicate (lengthOf (xsdtPage firmware)) 0)
      (window firmware firmware.XsdtAddress) (lengthOf (xsdtPage firmware)) =
      some ((xsdtPage firmware).take (lengthOf (xsdtPage firmware))) := rtlCopyMemory_replicate hlength
  obtain ⟨windows, hgive, -⟩ := (Ledger.Took.refl Ledger.empty).take.give
  simp only [acpiGetXsdt, start, Option.isSome_none, Bool.false_eq_true, if_false, mmMapIoSpace, willing, if_true,
    hverify, Option.bind_some, hheader, allocatePoolWithTag, if_neg hpos, hcopy, hgive, Option.map_some]
  refine ⟨_, _, rfl, rfl, ?_⟩
  simp only

/-- The entries of an `XSDT` that has no whole header are read beyond the copy. -/
theorem acpiGetTable_eq_none_of_header (Signature : List UInt8) (hvalid : Valid firmware)
    (hpos : lengthOf (xsdtPage firmware) ≠ 0) (hlt : lengthOf (xsdtPage firmware) < 36) :
    acpiGetTable firmware willing Signature none 0 start = none := by
  obtain ⟨s, block, hget, hblock, hbytes⟩ := acpiGetXsdt_eq_some hvalid hpos
  have hle : lengthOf (xsdtPage firmware) ≤ PAGE_SIZE := le_of_verify hvalid
  have hlength : block.bytes.length = lengthOf (xsdtPage firmware) := by
    rw [hbytes, List.length_take_of_le (by rw [xsdtPage, window_length]; exact hle)]
  rw [acpiGetTable, hget, Option.bind_some]
  simp only [ne_eq, not_true_eq_false, if_false, hblock, Option.bind_some]
  rcases Nat.lt_or_ge (lengthOf (xsdtPage firmware)) 8 with hshort | hlong
  · have hnone : headerLength block.bytes = none := by
      rw [headerLength, number, if_neg (by omega)]
    rw [hnone, Option.bind_none]
  · have hentry : number block.bytes (36 + 8 * 0) 8 = none := by
      rw [number, if_neg (by omega)]
    obtain ⟨n, hn⟩ : ∃ n, entryCount (lengthOf (xsdtPage firmware)) = n + 1 := by
      refine Nat.exists_eq_succ_of_ne_zero ?_
      rw [entryCount, ulongSub, if_neg (by omega)]
      omega
    have hheader := headerLength_copy hle hlong rfl
    rw [← hbytes] at hheader
    rw [hheader, Option.bind_some, hn, findTable, hentry, Option.bind_none, Option.bind_none]

/-- A table that is longer than its page is read beyond it, if none is found before. -/
theorem findTable_eq_none {Length : ℕ} (hle : Length ≤ PAGE_SIZE) {n Index i : ℕ} (hIndex : Index ≤ i)
    (hi : i < Index + n) (hn : 36 + 8 * (n + Index) ≤ Length) (hbefore : ∀ j < i, ¬ Found firmware Signature j)
    (hsigned : strncmp (tablePage firmware i) Signature 4 = some true)
    (hlong : PAGE_SIZE < lengthOf (tablePage firmware i)) (windows : Ledger) :
    findTable firmware willing Signature ((xsdtPage firmware).take Length) n Index windows = none := by
  induction n generalizing Index windows with
  | zero => omega
  | succ n ih =>
    rw [findTable, number_copy hle (by omega), Option.bind_some]
    simp only [mmMapIoSpace, willing, if_true]
    rcases hIndex.eq_or_lt with rfl | hlt
    · have hnone := verify_eq_none hsigned hlong
      rw [hnone, Option.bind_none]
    · cases hverify : verify (tablePage firmware Index) Signature with
      | none =>
        simp only [tablePage] at hverify
        rw [hverify, Option.bind_none]
      | some found =>
        have hnot : found = false := by
          cases found with
          | false => rfl
          | true => exact absurd hverify (hbefore Index hlt)
        simp only [tablePage, hnot] at hverify
        rw [hverify, Option.bind_some, if_neg (by decide)]
        cases hgive : windows.take.give windows.next with
        | none => rfl
        | some windows' => exact ih hlt (by omega) (by omega) windows'

theorem acpiGetTable_eq_none_of_table {Index : ℕ} (hvalid : Valid firmware)
    (hIndex : 36 + 8 * (Index + 1) ≤ lengthOf (xsdtPage firmware))
    (hbefore : ∀ j < Index, ¬ Found firmware Signature j)
    (hsigned : strncmp (tablePage firmware Index) Signature 4 = some true)
    (hlong : PAGE_SIZE < lengthOf (tablePage firmware Index)) :
    acpiGetTable firmware willing Signature none 0 start = none := by
  have hle : lengthOf (xsdtPage firmware) ≤ PAGE_SIZE := le_of_verify hvalid
  obtain ⟨s, block, hget, hblock, hbytes⟩ := acpiGetXsdt_eq_some hvalid (by omega)
  rw [acpiGetTable, hget, Option.bind_some]
  simp only [ne_eq, not_true_eq_false, if_false, hblock, Option.bind_some, hbytes]
  rw [headerLength_copy hle (by omega) rfl, Option.bind_some, entryCount_eq (by omega),
    findTable_eq_none hle (Nat.zero_le Index) (by omega) (by omega) hbefore hsigned hlong, Option.bind_none]

/-- **The tables are read where they are mapped** exactly if they fit. -/
theorem safe_iff (firmware : Firmware) (Signature : List UInt8) :
    Safe firmware Signature ↔ Fits firmware Signature := by
  refine ⟨fun hsafe => ?_, Fits.safe⟩
  obtain ⟨result, s', hcall, -⟩ := hsafe.reads willing start none 0 (cached_start firmware) (by simp)
  have hheader : Valid firmware → lengthOf (xsdtPage firmware) = 0 ∨ 36 ≤ lengthOf (xsdtPage firmware) := by
    intro hvalid
    by_contra hshort
    rw [not_or, not_le] at hshort
    rw [acpiGetTable_eq_none_of_header Signature hvalid hshort.1 hshort.2] at hcall
    cases hcall
  refine ⟨fun hsigned => ?_, hheader, fun hvalid Index hIndex hbefore hsigned => ?_⟩
  · by_contra hlong
    rw [acpiGetTable, acpiGetXsdt_eq_none hsigned (not_le.mp hlong)] at hcall
    cases hcall
  · by_contra hlong
    rw [acpiGetTable_eq_none_of_table hvalid hIndex hbefore hsigned (not_le.mp hlong)] at hcall
    cases hcall

/-! ## A table that is longer than a page -/

theorem window_take {k : ℕ} (hk : k ≤ PAGE_SIZE) (Address : ℕ) :
    (window firmware Address).take k = (List.range k).map fun i => firmware.memory (Address + i) := by
  rw [window, ← List.map_take, List.take_range, min_eq_left hk]

theorem checksum_take {n : ℕ} {Sum : UInt8} : checksum (Table.take n) n Sum = checksum Table n Sum := by
  induction n generalizing Table Sum with
  | zero => cases Table <;> rfl
  | succ n ih =>
    cases Table with
    | nil => rfl
    | cons b Table => exact ih

theorem lengthOf_window (Address : ℕ) :
    lengthOf (window firmware Address) = lengthOf ((List.range 8).map fun i => firmware.memory (Address + i)) := by
  rw [← window_take (by decide), lengthOf, lengthOf, headerLength, headerLength,
    number_take (by decide) (by rw [window_length]; decide)]

theorem signed_window {Address : ℕ} (hzero : 0 ∉ Signature)
    (h : (List.range Signature.length).map (fun i => firmware.memory (Address + i)) = Signature)
    (hle : Signature.length ≤ PAGE_SIZE) :
    strncmp (window firmware Address) Signature Signature.length = some true := by
  rw [strncmp_eq_true hzero, List.prefix_iff_eq_take, window_take hle]
  exact h.symm

/-- An `XSDT` whose one entry is the address 4096. -/
def oneEntry : List UInt8 :=
  [88, 83, 68, 84, 44, 0, 0, 0, 1, 128] ++ List.replicate 26 0 ++ [0, 16, 0, 0, 0, 0, 0, 0]

/-- The signature `APIC` and the length 4097. -/
def longHeader : List UInt8 := [65, 80, 73, 67, 1, 16, 0, 0]

/-- The first entry of the `XSDT` is a table that is longer than a page. -/
def crowded : Firmware where
  memory i := if i < 4096 then oneEntry.getD i 0 else longHeader.getD (i - 4096) 0
  XsdtAddress := 0

theorem not_safe_crowded : ¬ Safe crowded [65, 80, 73, 67] := by
  intro hsafe
  have hxsdt : lengthOf (xsdtPage crowded) = 44 := (lengthOf_window 0).trans (by decide)
  have hvalid : Valid crowded := by
    have hsigned : strncmp (xsdtPage crowded) xsdt 4 = some true :=
      signed_window (by decide) (by decide) (by decide)
    have hsum : checksum (xsdtPage crowded) 44 0 = some 0 := by
      rw [← checksum_take, xsdtPage, window_take (by decide)]
      decide
    have hheader : headerLength (xsdtPage crowded) = some 44 := by
      rw [xsdtPage, headerLength_window, ← hxsdt]
      rfl
    rw [Valid, verify, hsigned, Option.bind_some, if_neg (by decide), hheader, Option.bind_some, acpiVerifyChecksum,
      hsum, Option.map_some]
    rfl
  have haddress : number (xsdtPage crowded) 36 8 = some 4096 := by
    rw [← number_take (k := 44) (by decide) (by rw [xsdtPage, window_length]; decide), xsdtPage, window_take (by decide)]
    decide
  have hpage : tablePage crowded 0 = window crowded 4096 := by
    rw [tablePage, haddress, Option.getD_some]
  have hlong : lengthOf (tablePage crowded 0) = 4097 := by
    rw [hpage, lengthOf_window]
    decide
  have hsigned : strncmp (tablePage crowded 0) [65, 80, 73, 67] 4 = some true := by
    rw [hpage]
    exact signed_window (by decide) (by decide) (by decide)
  obtain ⟨result, s', hcall, -⟩ := hsafe.reads willing start none 0 (cached_start crowded) (by simp)
  rw [acpiGetTable_eq_none_of_table hvalid (by omega) (by simp) hsigned (by rw [hlong]; decide)] at hcall
  cases hcall

end XenBus.Acpi
