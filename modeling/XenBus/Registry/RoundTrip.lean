import XenBus.Registry.Strings

/-!
# Strings written to the registry

`RegistryAnsiToSz` and `RegistryAnsiToMultiSz` (`registry.c`) make the data of a value of the registry of an
array of strings, and `RegistrySzToAnsi` and `RegistryMultiSzToAnsi` make the array of the data.

* `roundTrips_iff`: the limit that `RegistryAnsiToSz` gives to the conversion is cast to a `UCHAR`, so a string
  of more than 126 bytes is refused.
* `multiRoundTrips_iff`: the size of the block that `RegistryAnsiToMultiSz` asks for is a `ULONG`; unless it
  wraps to less than the header, a list is refused or is read back as it was.
-/

namespace XenBus.Registry

open Terminated Ansi

/-! ## The functions -/

/-- The bytes of the characters. -/
def bytes (l : List UInt16) : List UInt8 := l.flatMap fun c : UInt16 => [c.toUInt8, (c >>> 8).toUInt8]

/-- The characters of the string. -/
def widened (page : CodePage) (s : List UInt8) : List UInt16 := s.map page.widen

/-- `RtlAnsiStringToUnicodeString`, for a destination that has a buffer: the characters that it writes, which a
`NUL` ends, if there is room for them. -/
def rtlAnsiStringToUnicodeString (page : CodePage) (MaximumLength : ℕ) (s : List UInt8) : Option (List UInt16) :=
  if 2 * (s.length + 1) ≤ MaximumLength then some (widened page s ++ [0]) else none

/-- The characters of an `ANSI_STRING`. -/
def chars (a : AnsiString) : Option (List UInt8) :=
  a.Buffer.bind fun block =>
    if a.Length ≤ block.bytes.length then some (block.bytes.take a.Length) else none

/-- `KEY_VALUE_PARTIAL_INFORMATION`, in a block of the pool: the fields before `Data` have 12 bytes. -/
structure PartialInformation where
  number : ℕ
  type : ℕ
  DataLength : ℕ
  Data : List UInt8

/-- What `RegistryAnsiToSz` and `RegistryAnsiToMultiSz` do to allocate it, for `Length` characters. The size is
a `ULONG`. -/
def allocatePartial (answers : ℕ → Bool) (type Length : ℕ) (pool : Ledger) :
    Option (Option PartialInformation × Ledger) :=
  match allocatePoolWithTag answers ((12 + 2 * Length) % 4294967296) pool with
  | (none, pool) => some (none, pool)
  | (some block, pool) =>
    if block.bytes.length < 12 then none
    else some (some ⟨block.number, type, 2 * Length % 4294967296, block.bytes.drop 12⟩, pool)

/-- `RegistryAnsiToSz`. -/
def registryAnsiToSz (page : CodePage) (answers : ℕ → Bool) (Ansi : AnsiString) (pool : Ledger) :
    Option (Option PartialInformation × Ledger) :=
  (allocatePartial answers REG_SZ (Ansi.Length + 1) pool).bind fun (info, pool) =>
    match info with
    | none => some (none, pool)
    | some info =>
      (chars Ansi).bind fun s =>
        match rtlAnsiStringToUnicodeString page (info.DataLength % 256) s with
        | none => (pool.give info.number).map fun pool => (none, pool)
        | some units =>
          (BoundedBuffer.write info.Data 0 (bytes units)).map fun Data => (some { info with Data := Data }, pool)

/-- The first loop of `RegistryAnsiToMultiSz`. `Length` is a `ULONG`; so is the index, which is not followed to the
end of 2 ^ 32 entries. -/
def totalLength (Length : ℕ) : List AnsiString → Option ℕ
  | [] => none
  | a :: entries =>
    match a.Buffer with
    | none => some Length
    | some _ => totalLength ((Length + a.Length + 1) % 4294967296) entries

/-- The second loop of `RegistryAnsiToMultiSz`: where `Unicode.Buffer` is in the data after it, unless a
conversion fails. It has no result if the assertion does not hold. The index is that of the first loop. -/
def writeStrings (page : CodePage) : List AnsiString → ℕ → ℕ → List UInt8 → Option (Option (ℕ × List UInt8))
  | [], _, _, _ => none
  | a :: entries, Buffer, MaximumLength, Data =>
    match a.Buffer with
    | none => some (some (Buffer, Data))
    | some _ =>
      (chars a).bind fun s =>
        match rtlAnsiStringToUnicodeString page MaximumLength s with
        | none => some none
        | some units =>
          (BoundedBuffer.write Data Buffer (bytes units)).bind fun Data =>
            let Length := s.length
            if MaximumLength < (Length + 1) * 2 then none
            else writeStrings page entries (Buffer + (Length + 1) * 2)
              (MaximumLength - (Length + 1) * 2 % 65536) Data

/-- `RegistryAnsiToMultiSz`. -/
def registryAnsiToMultiSz (page : CodePage) (answers : ℕ → Bool) (Ansi : List AnsiString) (pool : Ledger) :
    Option (Option PartialInformation × Ledger) :=
  (totalLength 1 Ansi).bind fun Length =>
    (allocatePartial answers REG_MULTI_SZ Length pool).bind fun (info, pool) =>
      match info with
      | none => some (none, pool)
      | some info =>
        (writeStrings page Ansi 0 (info.DataLength % 65536) info.Data).bind fun written =>
          match written with
          | none => (pool.give info.number).map fun pool => (none, pool)
          | some (Buffer, Data) =>
            (BoundedBuffer.write Data Buffer (bytes [0])).map fun Data => (some { info with Data := Data }, pool)

/-! ## Bytes and characters -/

variable {page : CodePage} {answers : ℕ → Bool} {pool : Ledger} {s : List UInt8} {ss : List (List UInt8)}
  {a : AnsiString} {entries : List AnsiString}

theorem bytes_append (l m : List UInt16) : bytes (l ++ m) = bytes l ++ bytes m := List.flatMap_append

theorem bytes_length (l : List UInt16) : (bytes l).length = 2 * l.length := by
  induction l with
  | nil => rfl
  | cons c l ih =>
    rw [bytes, List.flatMap_cons, List.length_append, ← bytes, ih, List.length_cons]
    simp only [List.length_cons, List.length_nil]
    omega

/-- **The characters are read back** from their bytes. -/
theorem wchars_bytes (l : List UInt16) : wchars (bytes l) = l := by
  induction l with
  | nil => rfl
  | cons c l ih =>
    have hc : UInt16.ofNat (c.toUInt8.toNat + 256 * (c >>> 8).toUInt8.toNat) = c := by
      rw [← UInt16.toNat_inj]
      have hlt := c.toNat_lt
      simp only [UInt16.toNat_ofNat', UInt16.toNat_toUInt8, UInt16.toNat_shiftRight, UInt16.reduceToNat,
        Nat.reduceMod, Nat.shiftRight_eq_div_pow, Nat.reducePow]
      omega
    have hcons : bytes (c :: l) = c.toUInt8 :: (c >>> 8).toUInt8 :: bytes l := rfl
    rw [hcons, wchars, hc, ih]

theorem zero_notMem_widened (hs : 0 ∉ s) : 0 ∉ widened page s := by
  intro h
  obtain ⟨b, hb, hzero⟩ := List.mem_map.mp h
  exact page.widen_ne_zero b (fun h0 => hs (h0 ▸ hb)) hzero

theorem narrow_widened (hs : 0 ∉ s) : (widened page s).map page.narrow = s := by
  rw [widened, List.map_map]
  refine (List.map_congr_left fun b hb => ?_).trans (List.map_id s)
  exact page.narrow_widen b fun h0 => hs (h0 ▸ hb)

theorem proper_widened (page : CodePage) (hss : Proper ss) : Proper (ss.map (widened page)) := by
  intro t ht
  obtain ⟨s, hs, rfl⟩ := List.mem_map.mp ht
  refine ⟨fun hnil => (hss s hs).1 ?_, zero_notMem_widened (hss s hs).2⟩
  exact List.map_eq_nil_iff.mp hnil

theorem joined_widened_length (ss : List (List UInt8)) :
    (joined (ss.map (widened page))).length = (joined ss).length := by
  simp [joined_length, widened, Function.comp_def]

/-- The `ANSI_STRING` is that of the string. -/
def Holds (s : List UInt8) (a : AnsiString) : Prop :=
  a.Length = s.length ∧ s.length < 65536 ∧ ∃ block, a.Buffer = some block ∧ s <+: block.bytes

theorem Holds.chars_eq (h : Holds s a) : chars a = some s := by
  obtain ⟨hLength, -, block, hBuffer, hprefix⟩ := h
  rw [chars, hBuffer, Option.bind_some, hLength, if_pos hprefix.length_le, ← List.prefix_iff_eq_take.mp hprefix]

/-- **A string that has been read back** is a copy of the one that has been written. -/
theorem copies_of_entry (hs : 0 ∉ s) (hlength : s.length ≤ 32766) (h : Entry page.toRtl (widened page s) a) :
    Copies s a := by
  obtain ⟨hLength, hMaximumLength, number, data, hBuffer, hdata, hprefix⟩ := h
  have hwidened : (widened page s).length = s.length := List.length_map _
  rw [hwidened, Nat.mod_eq_of_lt (by omega)] at hLength hMaximumLength
  have hwritten : page.toRtl.unicodeStringToAnsiString a.MaximumLength (rtlInitUnicodeString (widened page s)) =
      s ++ [0] := by
    rw [rtlInitUnicodeString, List.take_of_length_le (by omega)]
    change (if (widened page s).length < a.MaximumLength then _ else _) = _
    rw [if_pos (by omega), narrow_widened hs]
  rw [hwritten] at hprefix
  have heq : s ++ [0] = data := hprefix.eq_of_length (by simp [hdata, hMaximumLength])
  exact ⟨hLength, hMaximumLength, number, by rw [hBuffer, heq]⟩

/-- There is no memory, or the block is too small for the fields before `Data`, or it is allocated. -/
theorem allocatePartial_cases (answers : ℕ → Bool) (type Length : ℕ) (pool : Ledger) :
    (∃ pool', allocatePartial answers type Length pool = some (none, pool') ∧ pool.Same pool' ∧
      (answers pool.next = true → (12 + 2 * Length) % 4294967296 = 0)) ∨
    (answers pool.next = true ∧ (12 + 2 * Length) % 4294967296 ≠ 0 ∧ (12 + 2 * Length) % 4294967296 < 12 ∧
      allocatePartial answers type Length pool = none) ∨
    (12 ≤ (12 + 2 * Length) % 4294967296 ∧ allocatePartial answers type Length pool =
      some (some ⟨pool.next, type, 2 * Length % 4294967296,
        List.replicate ((12 + 2 * Length) % 4294967296 - 12) 0⟩, pool.take)) := by
  unfold allocatePartial allocatePoolWithTag
  generalize (12 + 2 * Length) % 4294967296 = NumberOfBytes
  rcases eq_or_ne NumberOfBytes 0 with rfl | hne
  · exact .inl ⟨pool, rfl, .refl pool, fun _ => rfl⟩
  rw [if_neg hne]
  cases hanswer : answers pool.next with
  | false => exact .inl ⟨pool.skip, rfl, pool.same_skip, fun h => absurd h (by simp)⟩
  | true =>
    rw [if_pos rfl]
    simp only [List.length_replicate, List.drop_replicate]
    rcases Nat.lt_or_ge NumberOfBytes 12 with hlt | hge
    · exact .inr (.inl ⟨trivial, hne, hlt, if_pos hlt⟩)
    · exact .inr (.inr ⟨hge, if_neg hge.not_gt⟩)

theorem allocatePartial_of_lt (type : ℕ) {Length : ℕ} (hLength : 12 + 2 * Length < 4294967296)
    (hanswer : answers pool.next = true) : allocatePartial answers type Length pool =
      some (some ⟨pool.next, type, 2 * Length, List.replicate (2 * Length) 0⟩, pool.take) := by
  have hsize := Nat.mod_eq_of_lt hLength
  rcases allocatePartial_cases answers type Length pool with
    ⟨-, -, -, hzero⟩ | ⟨-, -, hlt, -⟩ | ⟨-, heq⟩
  · have := hzero hanswer
    omega
  · omega
  · rw [heq, hsize, Nat.add_sub_cancel_left, Nat.mod_eq_of_lt (show 2 * Length < 4294967296 by omega)]

/-! ## A string -/

/-- The string is made into the data of a value, and is read back from them. -/
def RoundTrips (page : CodePage) (answers : ℕ → Bool) (a : AnsiString) (s : List UInt8) (pool : Ledger) : Prop :=
  ∃ info pool', registryAnsiToSz page answers a pool = some (some info, pool') ∧
    info.DataLength = 2 * (s.length + 1) ∧ info.Data = bytes (widened page s ++ [0]) ∧
    ∃ ansi pool'' made, registrySzToAnsi page.toRtl answers (wchars info.Data) pool' = some (some ansi, pool'') ∧
      ansi.Entries = [made, .zero] ∧ Copies s made

/-- What `RegistryAnsiToSz` returns. -/
theorem registryAnsiToSz_eq (page : CodePage) (hHolds : Holds s a) (hanswer : answers pool.next = true) :
    registryAnsiToSz page answers a pool =
      if 2 * (s.length + 1) ≤ 2 * (s.length + 1) % 256 then
        some (some ⟨pool.next, REG_SZ, 2 * (s.length + 1), bytes (widened page s ++ [0])⟩, pool.take)
      else (pool.take.give pool.next).map fun pool => (none, pool) := by
  have hchars := hHolds.chars_eq
  obtain ⟨hLength, hlt, -⟩ := hHolds
  have hwrite : BoundedBuffer.write (List.replicate (2 * (s.length + 1)) 0) 0 (bytes (widened page s ++ [0])) =
      some (bytes (widened page s ++ [0])) := by
    have hitems : (bytes (widened page s ++ [0])).length =
        (List.replicate (2 * (s.length + 1)) (0 : UInt8)).length := by
      simp [bytes_length, widened]
    have hover := BoundedBuffer.write_over _ [] _ hitems
    rwa [List.append_nil, List.append_nil] at hover
  rw [registryAnsiToSz, hLength, allocatePartial_of_lt REG_SZ (by omega) hanswer, Option.bind_some]
  simp only [hchars, Option.bind_some, rtlAnsiStringToUnicodeString]
  by_cases hroom : 2 * (s.length + 1) ≤ 2 * (s.length + 1) % 256
  · simp only [if_pos hroom]
    rw [hwrite, Option.map_some]
  · simp only [if_neg hroom]

/-- **A string is written and read back** exactly if it has 126 bytes at most. -/
theorem roundTrips_iff (page : CodePage) (pool : Ledger) (hs : 0 ∉ s) (hlength : s.length ≤ 32766)
    (hHolds : Holds s a) (hanswers : ∀ i, answers i = true) :
    RoundTrips page answers a s pool ↔ s.length ≤ 126 := by
  have heq := registryAnsiToSz_eq page hHolds (hanswers pool.next)
  constructor
  · rintro ⟨info, pool', hsome, -⟩
    by_contra hlong
    rw [heq, if_neg (by omega)] at hsome
    obtain ⟨pool₁, _, hnone⟩ := Option.map_eq_some_iff.mp hsome
    cases (Prod.mk.inj hnone).1
  · intro hshort
    rw [if_pos (by omega)] at heq
    have hstring : 0 ∉ widened page s := zero_notMem_widened hs
    have hsplit : widened page s ++ [0] = joined [widened page s] ++ [] := by simp
    have hcopier : ∀ t ∈ [widened page s], Copier (copyAnsi page.toRtl answers) (Entry page.toRtl) t :=
      List.forall_mem_singleton.mpr (copier_copyAnsi page.toRtl answers hstring)
    refine ⟨_, _, heq, rfl, rfl, ?_⟩
    rw [wchars_bytes, hsplit]
    obtain ⟨r, pool', hcopy, -, hr⟩ := copyArray_spec hcopier answers [] pool.take (by simp)
    cases r with
    | none =>
      refine absurd hcopy (copyArray_ne_none (List.forall_mem_singleton.mpr fun rest pool => ?_) (by simp)
        (hanswers _) [])
      have hcopied : Copied answers pool.next (widened page s) := by
        refine ⟨?_, hanswers _⟩
        rw [widened, List.length_map]
        omega
      obtain ⟨b, hb, -⟩ := copyAnsi_of_copied page.toRtl hstring hcopied rest
      exact ⟨b, _, hb⟩
    | some ansi =>
      obtain ⟨made, hallocated, hmade⟩ := hr ansi rfl
      obtain ⟨b, hb, rfl⟩ : ∃ b, Entry page.toRtl (widened page s) b ∧ made = [b] := by
        cases hmade with
        | cons hb hnil =>
          cases hnil
          exact ⟨_, hb, rfl⟩
      exact ⟨ansi, pool', b, hcopy, hallocated.Entries, copies_of_entry hs hlength hb⟩

/-- The string `Xen`. -/
theorem roundTrips_xen :
    RoundTrips latin1 (fun _ => true) ⟨3, 4, some ⟨0, [88, 101, 110, 0]⟩⟩ [88, 101, 110] .empty :=
  (roundTrips_iff latin1 .empty (by decide) (by decide) ⟨rfl, by decide, _, rfl, by decide⟩ fun _ => rfl).mpr
    (by decide)

/-- A string of 127 bytes is refused: the limit of 256 is cast to 0. -/
theorem not_roundTrips_long :
    ¬ RoundTrips latin1 (fun _ => true) ⟨127, 128, some ⟨0, List.replicate 127 65 ++ [0]⟩⟩ (List.replicate 127 65)
      .empty := by
  have hlength : (List.replicate 127 (65 : UInt8)).length = 127 := List.length_replicate
  have hHolds : Holds (List.replicate 127 65) ⟨127, 128, some ⟨0, List.replicate 127 65 ++ [0]⟩⟩ :=
    ⟨hlength.symm, by rw [hlength]; decide, _, rfl, List.prefix_append _ _⟩
  rintro ⟨info, pool', hsome, -⟩
  rw [registryAnsiToSz_eq latin1 hHolds rfl, if_neg (by rw [hlength]; decide)] at hsome
  obtain ⟨pool₁, _, hnone⟩ := Option.map_eq_some_iff.mp hsome
  cases (Prod.mk.inj hnone).1

/-! ## A list of strings -/

theorem totalLength_eq (h : List.Forall₂ Holds ss entries) {Length : ℕ} (hLength : Length < 4294967296) :
    totalLength Length (entries ++ [.zero]) = some ((Length + (joined ss).length) % 4294967296) := by
  induction h generalizing Length with
  | nil => simp [totalLength, AnsiString.zero, Nat.mod_eq_of_lt hLength]
  | cons hHolds _ ih =>
    obtain ⟨hLen, -, block, hBuffer, -⟩ := hHolds
    simp only [List.cons_append, totalLength, hBuffer]
    rw [ih (Nat.mod_lt _ (by decide)), joined_cons, List.length_append, List.length_cons, hLen]
    simp only [Option.some.injEq]
    omega

/-- **The strings are written one after the other** if there is room for them all, and a conversion fails
otherwise. -/
theorem writeStrings_cases (page : CodePage) (h : List.Forall₂ Holds ss entries) (held rest : List UInt8)
    (MaximumLength : ℕ)
    (hroom : MaximumLength ≤ rest.length) (hUSHORT : MaximumLength < 65536) :
    2 * (joined ss).length ≤ MaximumLength ∧
      writeStrings page (entries ++ [.zero]) held.length MaximumLength (held ++ rest) =
        some (some (held.length + 2 * (joined ss).length,
          held ++ bytes (joined (ss.map (widened page))) ++ rest.drop (2 * (joined ss).length))) ∨
    MaximumLength < 2 * (joined ss).length ∧
      writeStrings page (entries ++ [.zero]) held.length MaximumLength (held ++ rest) = some none := by
  induction h generalizing held rest MaximumLength with
  | nil => exact .inl ⟨Nat.zero_le _, by simp [writeStrings, AnsiString.zero, bytes]⟩
  | @cons s a ss entries hHolds _ ih =>
    have hchars := hHolds.chars_eq
    obtain ⟨-, -, block, hBuffer, -⟩ := hHolds
    have hjoined : (joined (s :: ss)).length = s.length + 1 + (joined ss).length := by
      simp only [joined_cons, List.length_append, List.length_cons]
      omega
    simp only [List.cons_append, writeStrings, hBuffer, hchars, Option.bind_some, rtlAnsiStringToUnicodeString]
    rcases Nat.lt_or_ge MaximumLength (2 * (s.length + 1)) with hlt | hle
    · exact .inr ⟨by omega, by rw [if_neg (by omega)]⟩
    · have hitems : (bytes (widened page s ++ [0])).length = 2 * (s.length + 1) := by
        simp [bytes_length, widened]
      have hwrite := BoundedBuffer.write_append held rest (bytes (widened page s ++ [0])) (by omega)
      have hoffset : held.length + (s.length + 1) * 2 = (held ++ bytes (widened page s ++ [0])).length := by
        rw [List.length_append, hitems]
        omega
      have hleft : MaximumLength - (s.length + 1) * 2 % 65536 = MaximumLength - 2 * (s.length + 1) := by omega
      have hsplit : bytes (joined ((s :: ss).map (widened page))) =
          bytes (widened page s ++ [0]) ++ bytes (joined (ss.map (widened page))) := by
        rw [← bytes_append]
        simp
      rw [if_pos hle]
      simp only [hwrite, Option.bind_some]
      rw [if_neg (by omega), hoffset, hleft, hitems]
      rcases ih (held ++ bytes (widened page s ++ [0])) (rest.drop (2 * (s.length + 1)))
        (MaximumLength - 2 * (s.length + 1)) (by rw [List.length_drop]; omega) (by omega) with
        ⟨hfits, heq⟩ | ⟨hfits, heq⟩
      · refine .inl ⟨by omega, ?_⟩
        rw [heq, hsplit, List.drop_drop, ← hoffset, hjoined]
        simp only [List.append_assoc, Option.some.injEq, Prod.mk.injEq]
        refine ⟨by omega, ?_⟩
        rw [Nat.mul_add 2 (s.length + 1)]
      · exact .inr ⟨by omega, heq⟩

/-- The number of bytes that `RegistryAnsiToMultiSz` asks for. -/
def asked (ss : List (List UInt8)) : ℕ := (2 * (joined ss).length + 14) % 4294967296

/-- The list of strings is refused, and the block freed, or it is made into the data of a value, all of them,
and is read back from them. -/
def MultiRoundTrips (page : CodePage) (answers : ℕ → Bool) (entries : List AnsiString) (ss : List (List UInt8))
    (pool : Ledger) : Prop :=
  ∃ r pool', registryAnsiToMultiSz page answers (entries ++ [.zero]) pool = some (r, pool') ∧
    (r = none → pool'.held = pool.held) ∧
    ∀ info, r = some info → info.Data.length = info.DataLength ∧
      ∃ ansi pool'' made, registryMultiSzToAnsi page.toRtl (fun _ => true) (wchars info.Data) pool' =
          some (some ansi, pool'') ∧
        ansi.Entries = made ++ [.zero] ∧ List.Forall₂ Copies ss made

theorem copies_of_entries (hss : Proper ss) (hshort : ∀ s ∈ ss, s.length ≤ 32766)
    (h : List.Forall₂ (fun s b => Entry page.toRtl (widened page s) b) ss entries) :
    List.Forall₂ Copies ss entries := by
  induction h with
  | nil => exact .nil
  | cons hentry _ ih =>
    obtain ⟨⟨-, hs⟩, hss⟩ := proper_cons.mp hss
    obtain ⟨hlength, hshort⟩ := List.forall_mem_cons.mp hshort
    exact .cons (copies_of_entry hs hlength hentry) (ih hss hshort)

/-- A list that has been written is read back. -/
theorem read_back (page : CodePage) (hss : Proper ss) (hshort : (joined ss).length < 32768) (pool : Ledger) :
    ∃ ansi pool' made, registryMultiSzToAnsi page.toRtl (fun _ => true)
        (joined (ss.map (widened page)) ++ [0]) pool = some (some ansi, pool') ∧
      ansi.Entries = made ++ [.zero] ∧ List.Forall₂ Copies ss made := by
  have hproper := proper_widened page hss
  have hCount := length_le_joined ss
  obtain ⟨r, pool', hcopy, -, hr⟩ := copyArray_spec
    (fun t ht => copier_copyAnsi page.toRtl (fun _ => true) (hproper t ht).2) (fun _ => true) [0] pool
    (by rw [List.length_map]; omega)
  have hread : registryMultiSzToAnsi page.toRtl (fun _ => true) (joined (ss.map (widened page)) ++ [0]) pool =
      some (r, pool') := by
    rw [registryMultiSzToAnsi, countStrings_joined 0 hproper, Option.bind_some, Nat.zero_add]
    exact hcopy
  cases r with
  | none =>
    refine absurd hcopy (copyArray_ne_none (fun t ht rest pool => ?_) (by rw [List.length_map]; omega) rfl [0])
    obtain ⟨s, hs, rfl⟩ := List.mem_map.mp ht
    have hcopied : Copied (fun _ => true) pool.next (widened page s) := by
      have hlt := length_lt_joined hs
      refine ⟨?_, rfl⟩
      rw [widened, List.length_map]
      omega
    obtain ⟨b, hb, -⟩ := copyAnsi_of_copied page.toRtl (zero_notMem_widened (hss s hs).2) hcopied rest
    exact ⟨b, _, hb⟩
  | some ansi =>
    obtain ⟨made, hallocated, hmade⟩ := hr ansi rfl
    refine ⟨ansi, pool', made, hread, hallocated.Entries, ?_⟩
    rw [List.forall₂_map_left_iff] at hmade
    exact copies_of_entries hss (fun s hs => by have := length_lt_joined hs; omega) hmade

/-- A block that has no room for the fields before `Data` is written to all the same. -/
theorem registryAnsiToMultiSz_eq_none (hHolds : List.Forall₂ Holds ss entries) (hanswer : answers pool.next = true)
    (hne : asked ss ≠ 0) (hlt : asked ss < 12) :
    registryAnsiToMultiSz page answers (entries ++ [.zero]) pool = none := by
  unfold asked at hne hlt
  rw [registryAnsiToMultiSz, totalLength_eq hHolds (by decide), Option.bind_some]
  rcases allocatePartial_cases answers REG_MULTI_SZ ((1 + (joined ss).length) % 4294967296) pool with
    ⟨-, -, -, hzero⟩ | ⟨-, -, -, heq⟩ | ⟨hge, -⟩
  · have := hzero hanswer
    omega
  · rw [heq, Option.bind_none]
  · omega

/-- **A list of strings is refused or read back as it was** exactly if the block, where it is allocated, has
room for the fields before `Data`. -/
theorem multiRoundTrips_iff (page : CodePage) (answers : ℕ → Bool) (pool : Ledger) (hss : Proper ss)
    (hHolds : List.Forall₂ Holds ss entries) :
    MultiRoundTrips page answers entries ss pool ↔
      (answers pool.next = true → asked ss = 0 ∨ 12 ≤ asked ss) := by
  have hasked : (12 + 2 * ((1 + (joined ss).length) % 4294967296)) % 4294967296 = asked ss := by
    unfold asked
    omega
  constructor
  · rintro ⟨r, pool', hsome, -⟩ hanswer
    by_contra hsmall
    rw [registryAnsiToMultiSz_eq_none hHolds hanswer (by omega) (by omega)] at hsome
    cases hsome
  intro hlarge
  unfold MultiRoundTrips
  rw [registryAnsiToMultiSz, totalLength_eq hHolds (by decide), Option.bind_some]
  rcases allocatePartial_cases answers REG_MULTI_SZ ((1 + (joined ss).length) % 4294967296) pool with
    ⟨pool', heq, hsame, -⟩ | ⟨hanswer, hne, hlt, -⟩ | ⟨hge, heq⟩
  · exact ⟨none, pool', by rw [heq]; rfl, fun _ => hsame.held, by simp⟩
  · have := hlarge hanswer
    omega
  · rw [hasked] at hge heq
    have hData : asked ss - 12 = 2 * ((1 + (joined ss).length) % 4294967296) % 4294967296 := by
      unfold asked at hge ⊢
      omega
    rw [heq, hData]
    generalize hDataLength : 2 * ((1 + (joined ss).length) % 4294967296) % 4294967296 = DataLength
    have hwrite := writeStrings_cases page hHolds [] (List.replicate DataLength 0)
      (DataLength % 65536) (by rw [List.length_replicate]; omega) (by omega)
    rw [List.nil_append, List.length_nil, List.nil_append, Nat.zero_add] at hwrite
    simp only [Option.bind_some]
    rcases hwrite with ⟨hfits, hwritten⟩ | ⟨-, hwritten⟩
    · -- there is room for all strings, so neither the length nor the limit has been cut
      have hexact : DataLength = 2 * (joined ss).length + 2 := by omega
      have hlast : BoundedBuffer.write (bytes (joined (ss.map (widened page))) ++
          (List.replicate DataLength 0).drop (2 * (joined ss).length)) (2 * (joined ss).length) (bytes [0]) =
          some (bytes (joined (ss.map (widened page)) ++ [0])) := by
        have hheld : (bytes (joined (ss.map (widened page)))).length = 2 * (joined ss).length := by
          rw [bytes_length, joined_widened_length]
        have hrest : (List.replicate DataLength (0 : UInt8)).drop (2 * (joined ss).length) = [0, 0] := by
          rw [List.drop_replicate, hexact, Nat.add_sub_cancel_left]
          rfl
        have hwrite := BoundedBuffer.write_append (bytes (joined (ss.map (widened page)))) [0, 0] (bytes [0])
          (by decide)
        rw [hheld] at hwrite
        rw [hrest, hwrite, bytes_append]
        simp [bytes]
      refine ⟨some ⟨pool.next, REG_MULTI_SZ, DataLength, bytes (joined (ss.map (widened page)) ++ [0])⟩, pool.take,
        by simp only [hwritten, Option.bind_some, hlast, Option.map_some], by simp, ?_⟩
      intro info hinfo
      obtain rfl := Option.some.inj hinfo
      refine ⟨?_, ?_⟩
      · simp only [bytes_length, List.length_append, joined_widened_length, List.length_singleton]
        omega
      · simp only [wchars_bytes]
        exact read_back page hss (by omega) pool.take
    · obtain ⟨pool', hgive, htook⟩ := ((Ledger.Took.refl pool).take).give
      exact ⟨none, pool', by simp only [hwritten, Option.bind_some, hgive, Option.map_some],
        fun _ => htook.held_eq, by simp⟩

/-- The strings `vif` and `Xen`. -/
def twoStrings : List AnsiString :=
  [⟨3, 4, some ⟨0, [118, 105, 102, 0]⟩⟩, ⟨3, 3, some ⟨1, [88, 101, 110]⟩⟩]

/-- They are not refused: the value has 18 bytes. -/
theorem multiRoundTrips_two :
    MultiRoundTrips latin1 (fun _ => true) twoStrings [[118, 105, 102], [88, 101, 110]] .empty ∧
      (registryAnsiToMultiSz latin1 (fun _ => true) (twoStrings ++ [.zero]) .empty).map
        (fun r => r.1.map PartialInformation.DataLength) = some (some 18) := by
  refine ⟨?_, by decide +kernel⟩
  refine (multiRoundTrips_iff latin1 (fun _ => true) .empty (by simp [Proper]) ?_).mpr fun _ => .inr (by decide)
  exact .cons ⟨rfl, by decide, _, rfl, by decide⟩ (.cons ⟨rfl, by decide, _, rfl, by decide⟩ .nil)

/-- A buffer of 65535 bytes `A`, which all strings of a list share. -/
def buffer : Block := ⟨0, List.replicate 65535 65⟩

theorem holds_buffer {n : ℕ} (hn : n ≤ 65535) : Holds (List.replicate n 65) ⟨n, n, some buffer⟩ := by
  have hlength : (List.replicate n (65 : UInt8)).length = n := List.length_replicate
  refine ⟨hlength.symm, by omega, buffer, rfl, List.replicate (65535 - n) 65, ?_⟩
  rw [← List.replicate_add, Nat.add_sub_cancel' hn]
  rfl

/-- The last string of a list has `last` bytes, and the `n` others have 65535. -/
theorem exists_many (last : ℕ) (hpos : 0 < last) (hlast : last ≤ 65535) (n : ℕ) :
    ∃ entries ss, Proper ss ∧ List.Forall₂ Holds ss entries ∧ (joined ss).length = 65536 * n + (last + 1) := by
  have hproper : ∀ {k}, 0 < k → List.replicate k (65 : UInt8) ≠ [] ∧ 0 ∉ List.replicate k (65 : UInt8) := by
    intro k hk
    refine ⟨fun hnil => ?_, fun hmem => ?_⟩
    · rw [List.replicate_eq_nil_iff] at hnil
      omega
    · cases List.eq_of_mem_replicate hmem
  induction n with
  | zero =>
    refine ⟨[_], [List.replicate last 65], proper_cons.mpr ⟨hproper hpos, by simp [Proper]⟩,
      .cons (holds_buffer hlast) .nil, ?_⟩
    rw [joined_cons, joined_nil, List.length_append, List.length_replicate]
    simp only [List.length_cons, List.length_nil]
    omega
  | succ n ih =>
    obtain ⟨entries, ss, hss, hHolds, hlength⟩ := ih
    refine ⟨_, List.replicate 65535 65 :: ss, proper_cons.mpr ⟨hproper (by omega), hss⟩,
      .cons (holds_buffer le_rfl) hHolds, ?_⟩
    rw [joined_cons, List.length_append, List.length_cons, List.length_replicate, hlength]
    omega

/-- Strings of 2 ^ 31 - 6 bytes with their `NUL`s: a block of two bytes is asked for. -/
theorem not_multiRoundTrips_long : ∃ entries ss, Proper ss ∧ List.Forall₂ Holds ss entries ∧
    (joined ss).length = 2147483642 ∧ ¬ MultiRoundTrips latin1 (fun _ => true) entries ss .empty := by
  obtain ⟨entries, ss, hss, hHolds, hlength⟩ := exists_many 65529 (by omega) (by omega) 32767
  have hlength' : (joined ss).length = 2147483642 := by omega
  have hasked : asked ss = 2 := by
    rw [asked, hlength']
  refine ⟨entries, ss, hss, hHolds, hlength', ?_⟩
  rintro ⟨r, pool', hsome, -⟩
  rw [registryAnsiToMultiSz_eq_none hHolds rfl (by omega) (by omega)] at hsome
  cases hsome

end XenBus.Registry
