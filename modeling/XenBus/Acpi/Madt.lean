import XenBus.Foundations.LittleEndian

/-!
# The table of the local APICs

`SystemApicIDToProcessorID` (`system.c`) goes through the records of the `APIC` table. Each record has a byte with
its length, which is all that the walk and its end rest on: `system` has checked the signature and the checksum of
the table, and neither says anything about the records.

A read that is not in the table has no result (`none`). `answers_iff` says for which tables the walk ends without
one: a record of length 0, or one that the end of the table cuts, must not come before one with the identifier.
-/

namespace XenBus.Acpi

open LittleEndian

/-! ## The walk -/

/-- An `ACPI_MADT`: there are as many bytes as its header says, which are the fixed part at least. -/
structure Madt where
  bytes : List UInt8
  Length : number bytes 4 4 = some bytes.length
  le : 44 ≤ bytes.length

abbrev ACPI_MADT_TYPE_LOCAL_APIC : UInt8 := 0

/-- The loop of `SystemApicIDToProcessorID`, for so many records at most: the processor, or `BUG`, which is `none`.
`Offset` is a `ULONG`. -/
def walk (bytes : List UInt8) (ApicID : UInt8) : ℕ → ℕ → Option (Option UInt8)
  | 0, _ => none
  | n + 1, Offset =>
    (number bytes 4 4).bind fun TableLength =>
      if Offset < TableLength then
        (bytes[Offset + 1]?).bind fun Length =>
          (bytes[Offset]?).bind fun type =>
            if type ≠ ACPI_MADT_TYPE_LOCAL_APIC then walk bytes ApicID n ((Offset + Length.toNat) % 4294967296)
            else (bytes[Offset + 3]?).bind fun id =>
              if id = ApicID then (bytes[Offset + 2]?).map some
              else walk bytes ApicID n ((Offset + Length.toNat) % 4294967296)
      else some none

/-- `SystemApicIDToProcessorID` returns the processor, or comes to `BUG`. -/
def SystemApicIDToProcessorID (Madt : Madt) (ApicID : UInt8) (result : Option UInt8) : Prop :=
  ∃ n, walk Madt.bytes ApicID n 44 = some result

/-! ## The records -/

/-- The length of the record at the offset. -/
def recordLength (bytes : List UInt8) (Offset : ℕ) : ℕ := (bytes.getD (Offset + 1) 0).toNat

/-- The offsets of the records whose first two bytes are in the table, from the offset on. -/
def records (bytes : List UInt8) (Offset : ℕ) : List ℕ :=
  if Offset + 2 ≤ bytes.length then
    if recordLength bytes Offset = 0 then [Offset]
    else Offset :: records bytes (Offset + recordLength bytes Offset)
  else []
termination_by bytes.length - Offset

/-- The first four bytes of the record are those of a local APIC with the identifier. -/
def Matches (bytes : List UInt8) (ApicID : UInt8) (Offset : ℕ) : Prop :=
  bytes[Offset]? = some ACPI_MADT_TYPE_LOCAL_APIC ∧ bytes[Offset + 3]? = some ApicID

/-- The record is that of a local APIC with the identifier, and all of it is in the table. -/
def Complete (bytes : List UInt8) (ApicID : UInt8) (Offset : ℕ) : Prop :=
  Matches bytes ApicID Offset ∧ 8 ≤ recordLength bytes Offset ∧
    Offset + recordLength bytes Offset ≤ bytes.length

instance (bytes : List UInt8) (ApicID : UInt8) (Offset : ℕ) : Decidable (Matches bytes ApicID Offset) :=
  inferInstanceAs (Decidable (_ ∧ _))

instance (bytes : List UInt8) (ApicID : UInt8) (Offset : ℕ) : Decidable (Complete bytes ApicID Offset) :=
  inferInstanceAs (Decidable (_ ∧ _ ∧ _))

/-- The first record that matches. -/
def firstMatch (bytes : List UInt8) (ApicID : UInt8) : Option ℕ :=
  (records bytes 44).find? fun Offset => decide (Matches bytes ApicID Offset)

/-- The first complete record with the identifier. -/
def firstComplete (bytes : List UInt8) (ApicID : UInt8) : Option ℕ :=
  (records bytes 44).find? fun Offset => decide (Complete bytes ApicID Offset)

/-- The first bytes of the record that the walk reads are in the table. -/
def Readable (bytes : List UInt8) (Offset : ℕ) : Prop :=
  Offset + 2 ≤ bytes.length ∧ (bytes[Offset]? = some ACPI_MADT_TYPE_LOCAL_APIC → Offset + 4 ≤ bytes.length)

/-- The records from the offset on lead to the end of the table or to one that matches: each has a length other
than 0, its first two bytes are in the table, and if it is a local APIC, the first four. -/
inductive Leads (bytes : List UInt8) (ApicID : UInt8) : ℕ → Prop
  | past {Offset : ℕ} (h : bytes.length ≤ Offset) : Leads bytes ApicID Offset
  | here {Offset : ℕ} (h : Matches bytes ApicID Offset) : Leads bytes ApicID Offset
  | on {Offset : ℕ} (hlength : recordLength bytes Offset ≠ 0) (hreadable : Readable bytes Offset)
      (h : Leads bytes ApicID ((Offset + recordLength bytes Offset) % 4294967296)) : Leads bytes ApicID Offset

/-! ## Where the walk ends -/

variable {bytes : List UInt8} {ApicID : UInt8} {n Offset : ℕ} {result : Option UInt8}

theorem Matches.le (h : Matches bytes ApicID Offset) : Offset + 4 ≤ bytes.length := by
  have := (List.getElem?_eq_some_iff.mp h.2).1
  omega

/-- A step of the walk over the end of the table. -/
theorem walk_over (hTableLength : number bytes 4 4 = some bytes.length) (h : bytes.length ≤ Offset) :
    walk bytes ApicID (n + 1) Offset = some none := by
  rw [walk, hTableLength, Option.bind_some, if_neg h.not_gt]

/-- A step to a record that matches. -/
theorem walk_here (hTableLength : number bytes 4 4 = some bytes.length) (h : Matches bytes ApicID Offset) :
    walk bytes ApicID (n + 1) Offset = some (bytes[Offset + 2]?) := by
  have hle := h.le
  obtain ⟨htype, hid⟩ := h
  have hLength : bytes[Offset + 1]? = some bytes[Offset + 1] := List.getElem?_eq_getElem (by omega)
  have hProcessor : bytes[Offset + 2]? = some bytes[Offset + 2] := List.getElem?_eq_getElem (by omega)
  rw [walk, hTableLength, Option.bind_some, if_pos (by omega), hLength, htype, hid, hProcessor]
  simp

/-- A step to a record that does not match. -/
theorem walk_on (hTableLength : number bytes 4 4 = some bytes.length) (hnot : ¬ Matches bytes ApicID Offset)
    (hreadable : Readable bytes Offset) :
    walk bytes ApicID (n + 1) Offset =
      walk bytes ApicID n ((Offset + recordLength bytes Offset) % 4294967296) := by
  obtain ⟨hheader, hlocal⟩ := hreadable
  have htype : bytes[Offset]? = some bytes[Offset] := List.getElem?_eq_getElem (by omega)
  have hLength : bytes[Offset + 1]? = some bytes[Offset + 1] := List.getElem?_eq_getElem (by omega)
  have hrecord : recordLength bytes Offset = bytes[Offset + 1].toNat := by
    rw [recordLength, List.getD_eq_getElem?_getD, hLength, Option.getD_some]
  rw [walk, hTableLength, Option.bind_some, if_pos (by omega), hLength, htype, hrecord]
  simp only [Option.bind_some]
  rcases eq_or_ne bytes[Offset] ACPI_MADT_TYPE_LOCAL_APIC with heq | hne
  · rw [heq] at htype
    have hle := hlocal htype
    have hid : bytes[Offset + 3]? = some bytes[Offset + 3] := List.getElem?_eq_getElem (by omega)
    have hne : bytes[Offset + 3] ≠ ApicID := fun hid' => hnot ⟨htype, by rw [hid, hid']⟩
    rw [if_neg (not_not_intro heq), hid, Option.bind_some, if_neg hne]
  · rw [if_pos hne]

/-- A step to a record that the end of the table cuts. -/
theorem walk_cut (hTableLength : number bytes 4 4 = some bytes.length) (hlt : Offset < bytes.length)
    (hreadable : ¬ Readable bytes Offset) : walk bytes ApicID (n + 1) Offset = none := by
  rw [walk, hTableLength, Option.bind_some, if_pos hlt]
  rcases Nat.lt_or_ge (Offset + 1) bytes.length with hheader | hheader
  · have htype : bytes[Offset]? = some ACPI_MADT_TYPE_LOCAL_APIC := by
      by_contra hne
      exact hreadable ⟨hheader, fun htype => absurd htype hne⟩
    have hcut : bytes.length < Offset + 4 := by
      by_contra hle
      exact hreadable ⟨hheader, fun _ => not_lt.mp hle⟩
    rw [htype, List.getElem?_eq_getElem hheader]
    simp only [Option.bind_some, ne_eq, not_true_eq_false, if_false]
    rw [List.getElem?_eq_none (by omega), Option.bind_none]
  · rw [List.getElem?_eq_none hheader, Option.bind_none]

/-- Either the walk is over, or at a record that matches, or it reads a record and goes on, or it reads beyond the
end of the table. -/
theorem walk_cases (bytes : List UInt8) (ApicID : UInt8) (Offset : ℕ) :
    bytes.length ≤ Offset ∨ Matches bytes ApicID Offset ∨
      ¬ Matches bytes ApicID Offset ∧ Readable bytes Offset ∨ Offset < bytes.length ∧ ¬ Readable bytes Offset := by
  have := Nat.lt_or_ge Offset bytes.length
  tauto

theorem leads_of_walk (hTableLength : number bytes 4 4 = some bytes.length)
    (h : walk bytes ApicID n Offset = some result) (hULONG : Offset < 4294967296) : Leads bytes ApicID Offset := by
  induction n generalizing Offset with
  | zero => cases h
  | succ n ih =>
    rcases walk_cases bytes ApicID Offset with hover | hmatches | ⟨hnot, hreadable⟩ | ⟨hlt, hnot⟩
    · exact .past hover
    · exact .here hmatches
    · rw [walk_on hTableLength hnot hreadable] at h
      rcases eq_or_ne (recordLength bytes Offset) 0 with hzero | hlength
      · rw [hzero, Nat.add_zero, Nat.mod_eq_of_lt hULONG] at h
        exact ih h hULONG
      · exact .on hlength hreadable (ih h (Nat.mod_lt _ (by decide)))
    · rw [walk_cut hTableLength hlt hnot] at h
      cases h

theorem walk_of_leads (hTableLength : number bytes 4 4 = some bytes.length) (h : Leads bytes ApicID Offset) :
    ∃ n result, walk bytes ApicID n Offset = some result := by
  induction h with
  | past hover => exact ⟨1, none, walk_over hTableLength hover⟩
  | here hmatches => exact ⟨1, _, walk_here hTableLength hmatches⟩
  | @on Offset _ hreadable _ ih =>
    rcases em (Matches bytes ApicID Offset) with hmatches | hnot
    · exact ⟨1, _, walk_here hTableLength hmatches⟩
    · obtain ⟨n, result, hwalk⟩ := ih
      exact ⟨n + 1, result, by rw [walk_on hTableLength hnot hreadable, hwalk]⟩

/-- At a record of length 0 that does not match, the walk does not get on. -/
theorem walk_zero (hTableLength : number bytes 4 4 = some bytes.length) (hnot : ¬ Matches bytes ApicID Offset)
    (hreadable : Readable bytes Offset) (hzero : recordLength bytes Offset = 0) (hULONG : Offset < 4294967296)
    (n : ℕ) : walk bytes ApicID n Offset = none := by
  induction n with
  | zero => rfl
  | succ n ih => rw [walk_on hTableLength hnot hreadable, hzero, Nat.add_zero, Nat.mod_eq_of_lt hULONG, ih]

/-- What the walk returns is the processor of the first record that matches. -/
theorem walk_find {first : ℕ} (hTableLength : number bytes 4 4 = some bytes.length)
    (h : walk bytes ApicID n Offset = some result)
    (hfirst : ((records bytes Offset).find? fun Offset => decide (Matches bytes ApicID Offset)) = some first) :
    result = bytes[first + 2]? := by
  have hULONG : bytes.length < 4294967296 := number_lt hTableLength
  induction n generalizing Offset with
  | zero => cases h
  | succ n ih =>
    rw [records] at hfirst
    rcases em (Matches bytes ApicID Offset) with hmatches | hnot
    · have hheader : Offset + 2 ≤ bytes.length := by
        have := hmatches.le
        omega
      obtain rfl : Offset = first := by
        rw [if_pos hheader] at hfirst
        split_ifs at hfirst <;> simpa [hmatches] using hfirst
      rw [walk_here hTableLength hmatches] at h
      exact (Option.some.inj h).symm
    · split_ifs at hfirst with hheader hzero
      · simp [hnot] at hfirst
      · rw [List.find?_cons_of_neg (by simpa using hnot)] at hfirst
        rcases em (Readable bytes Offset) with hreadable | hcut
        · rw [walk_on hTableLength hnot hreadable] at h
          rcases Nat.lt_or_ge (Offset + recordLength bytes Offset) 4294967296 with hlt | hge
          · rw [Nat.mod_eq_of_lt hlt] at h
            exact ih h hfirst
          · -- there is no record behind the end of the table
            rw [records, if_neg (by omega)] at hfirst
            cases hfirst
        · rw [walk_cut hTableLength (by omega) hcut] at h
          cases h
      · cases hfirst

/-! ## The answer -/

/-- The call returns or comes to `BUG`, has read nothing but the table, and has returned the processor of the first
complete record with the identifier, if there is one. -/
def Answers (Madt : Madt) (ApicID : UInt8) : Prop :=
  ∃ result, SystemApicIDToProcessorID Madt ApicID result ∧
    ∀ complete, firstComplete Madt.bytes ApicID = some complete → result = Madt.bytes[complete + 2]?

/-- A record that is complete comes not before the first one that matches. -/
theorem exists_firstMatch {complete : ℕ} (h : firstComplete bytes ApicID = some complete) :
    ∃ first, firstMatch bytes ApicID = some first := by
  rw [← Option.isSome_iff_exists, firstMatch, List.find?_isSome]
  refine ⟨complete, List.mem_of_find?_eq_some h, ?_⟩
  have hcomplete := List.find?_some h
  simp only [decide_eq_true_eq] at hcomplete ⊢
  exact hcomplete.1

/-- **The walk answers** exactly if the records lead to its end, and the first one that matches has the same
processor as the first complete one. -/
theorem answers_iff (Madt : Madt) (ApicID : UInt8) :
    Answers Madt ApicID ↔ Leads Madt.bytes ApicID 44 ∧
      ∀ first complete, firstMatch Madt.bytes ApicID = some first →
        firstComplete Madt.bytes ApicID = some complete →
        Madt.bytes[first + 2]? = Madt.bytes[complete + 2]? := by
  constructor
  · rintro ⟨result, ⟨n, hwalk⟩, hresult⟩
    refine ⟨leads_of_walk Madt.Length hwalk (by decide), fun first complete hfirst hcomplete => ?_⟩
    rw [← hresult complete hcomplete]
    exact (walk_find Madt.Length hwalk hfirst).symm
  · rintro ⟨hleads, hagree⟩
    obtain ⟨n, result, hwalk⟩ := walk_of_leads Madt.Length hleads
    refine ⟨result, ⟨n, hwalk⟩, fun complete hcomplete => ?_⟩
    obtain ⟨first, hfirst⟩ := exists_firstMatch hcomplete
    rw [walk_find Madt.Length hwalk hfirst]
    exact hagree first complete hfirst hcomplete

/-- A table with the one record `1, 0`. -/
def endless : Madt where
  bytes := [65, 80, 73, 67, 46, 0, 0, 0, 0, 180] ++ List.replicate 34 0 ++ [1, 0]
  Length := by decide
  le := by decide

theorem not_answers_endless : ¬ Answers endless 0 := by
  rintro ⟨result, ⟨n, hwalk⟩, -⟩
  rw [walk_zero endless.Length (by decide) ⟨by decide, by decide⟩ (by decide) (by decide)] at hwalk
  cases hwalk

end XenBus.Acpi
