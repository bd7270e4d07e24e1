import XenBus.Ansi
import XenBus.Foundations.BoundedBuffer

/-!
# Strings of the registry

`RegistryQuerySzValue` (`registry.c`) reads a value of the registry into a buffer, and
`RegistrySzToAnsi` or `RegistryMultiSzToAnsi` makes an array of strings of its data. They look for the ends of
the strings with `wcslen`, which does not know how long the data are.

A read beyond the data has no result (`none`), nor has a write beyond a block of the pool.
`registryQuerySzValue_isSome_iff` says for which values there is a result.
-/

namespace XenBus.Registry

open Terminated Ansi

/-! ## The functions -/

/-- The `WCHAR`s that are in the bytes as a whole. -/
def wchars : List UInt8 → List UInt16
  | low :: high :: rest => UInt16.ofNat (low.toNat + 256 * high.toNat) :: wchars rest
  | _ => []

/-- `KEY_VALUE_PARTIAL_INFORMATION`, as `ZwQueryValueKey` returns it: there are `DataLength` bytes of data. -/
structure KeyValue where
  type : ℕ
  Data : List UInt8

abbrev REG_SZ : ℕ := 1

abbrev REG_MULTI_SZ : ℕ := 7

/-- `RtlUnicodeStringToAnsiString`, for a destination that has a buffer: what it writes, of the `MaximumLength`
and the characters. It writes no more than `MaximumLength` bytes. -/
structure Rtl where
  unicodeStringToAnsiString : ℕ → List UInt16 → List UInt8
  bounded : ∀ MaximumLength s, (unicodeStringToAnsiString MaximumLength s).length ≤ MaximumLength

/-- `RtlInitUnicodeString`: the characters of a string, of which it takes 32766. -/
def rtlInitUnicodeString (s : List UInt16) : List UInt16 := s.take 32766

/-- The part that `RegistrySzToAnsi` and the loop of `RegistryMultiSzToAnsi` share: the entry for the string at
`Buffer`, and where `Buffer` is after it. -/
def copyAnsi (rtl : Rtl) (answers : ℕ → Bool) (Buffer : List UInt16) (pool : Ledger) :
    Option (Option AnsiString × List UInt16 × Ledger) :=
  (string Buffer).bind fun s =>
    let Length := s.length
    let MaximumLength := (Length + 1) % 65536
    match allocatePoolWithTag answers MaximumLength pool with
    | (none, pool) => some (none, Buffer, pool)
    | (some block, pool) =>
      (BoundedBuffer.write block.bytes 0
          (rtl.unicodeStringToAnsiString MaximumLength (rtlInitUnicodeString s))).map fun bytes =>
        (some ⟨Length % 65536, MaximumLength, some { block with bytes := bytes }⟩, Buffer.drop (Length + 1), pool)

/-- `RegistrySzToAnsi`. -/
def registrySzToAnsi (rtl : Rtl) (answers : ℕ → Bool) (Buffer : List UInt16) (pool : Ledger) :
    Option (Option AnsiArray × Ledger) :=
  copyArray (copyAnsi rtl answers) answers 1 Buffer pool

/-- The first loop of `RegistryMultiSzToAnsi`, from `Index` on. -/
def countStrings (Count : ℕ) (Buffer : List UInt16) : Option ℕ :=
  match h : string Buffer with
  | none => none
  | some s =>
    let Length := s.length
    if Length = 0 then some Count else countStrings (Count + 1) (Buffer.drop (Length + 1))
termination_by Buffer.length
decreasing_by
  obtain ⟨-, rest, rfl⟩ := string_eq_some h
  simp only [List.length_drop, List.length_append, List.length_cons]
  omega

/-- `RegistryMultiSzToAnsi`. -/
def registryMultiSzToAnsi (rtl : Rtl) (answers : ℕ → Bool) (Buffer : List UInt16) (pool : Ledger) :
    Option (Option AnsiArray × Ledger) :=
  (countStrings 0 Buffer).bind fun Count => copyArray (copyAnsi rtl answers) answers Count Buffer pool

/-- What `RegistryQuerySzValue` is answered. -/
structure Answers where
  /-- Which allocations from the pool succeed. -/
  allocate : ℕ → Bool
  /-- `RtlAnsiStringToUnicodeString` has memory for the name. -/
  unicode : Bool
  /-- The size that the first `ZwQueryValueKey` asks for. -/
  Size : Option ℕ
  /-- The value that the second one returns. -/
  Value : Option KeyValue

/-- The `switch` of `RegistryQuerySzValue`. -/
def toAnsi (rtl : Rtl) (answers : ℕ → Bool) (Value : KeyValue) (pool : Ledger) :
    Option (Option AnsiArray × Ledger) :=
  if Value.type = REG_SZ then registrySzToAnsi rtl answers (wchars Value.Data) pool
  else if Value.type = REG_MULTI_SZ then registryMultiSzToAnsi rtl answers (wchars Value.Data) pool
  else some (none, pool)

/-- `RegistryQuerySzValue`: the type and the array, if it succeeds. -/
def registryQuerySzValue (rtl : Rtl) (answers : Answers) (pool : Ledger) :
    Option (Option (ℕ × AnsiArray) × Ledger) :=
  if answers.unicode = false then some (none, pool.skip)
  else
    let Unicode := pool.next
    match answers.Size with
    | none => (pool.take.give Unicode).map fun pool => (none, pool)
    | some Size =>
      match allocatePoolWithTag answers.allocate Size pool.take with
      | (none, pool) => (pool.give Unicode).map fun pool => (none, pool)
      | (some block, pool) =>
        match answers.Value with
        | none => (pool.giveAll [block.number, Unicode]).map fun pool => (none, pool)
        | some Value =>
          (toAnsi rtl answers.allocate Value pool).bind fun (array, pool) =>
            (pool.giveAll [block.number, Unicode]).map fun pool => (array.map fun a => (Value.type, a), pool)

/-! ## Copying -/

variable {rtl : Rtl} {answers : ℕ → Bool} {pool : Ledger} {s : List UInt16} {ss : List (List UInt16)}
  {l rest : List UInt16} {Count : ℕ}

/-- A string of this length is copied: the buffer is allocated, and its length is not 0. -/
def Copied (answers : ℕ → Bool) (number : ℕ) (s : List UInt16) : Prop :=
  (s.length + 1) % 65536 ≠ 0 ∧ answers number = true

/-- What the entry for a string is. -/
def Entry (rtl : Rtl) (s : List UInt16) (a : AnsiString) : Prop :=
  a.Length = s.length % 65536 ∧ a.MaximumLength = (s.length + 1) % 65536 ∧
    ∃ number bytes, a.Buffer = some ⟨number, bytes⟩ ∧ bytes.length = a.MaximumLength ∧
      rtl.unicodeStringToAnsiString a.MaximumLength (rtlInitUnicodeString s) <+: bytes

theorem copyAnsi_of_not_copied (rtl : Rtl) (hs : 0 ∉ s) (h : ¬ Copied answers pool.next s) (rest : List UInt16) :
    ∃ pool', copyAnsi rtl answers (s ++ 0 :: rest) pool = some (none, s ++ 0 :: rest, pool') ∧ pool.Same pool' := by
  simp only [copyAnsi, string_append hs, Option.bind_some]
  rcases allocatePoolWithTag_cases answers ((s.length + 1) % 65536) pool with ⟨pool', heq, hsame⟩ | ⟨hpos, heq⟩
  · exact ⟨pool', by rw [heq], hsame⟩
  · refine absurd ⟨hpos.ne', ?_⟩ h
    simp only [allocatePoolWithTag, if_neg hpos.ne'] at heq
    split_ifs at heq with hanswer
    · exact hanswer
    · cases (Prod.mk.inj heq).1

theorem copyAnsi_of_copied (rtl : Rtl) (hs : 0 ∉ s) (h : Copied answers pool.next s) (rest : List UInt16) :
    ∃ a, copyAnsi rtl answers (s ++ 0 :: rest) pool = some (some a, rest, pool.take) ∧
      Makes (Entry rtl) pool s a := by
  obtain ⟨hne, hanswer⟩ := h
  have hbounded := rtl.bounded ((s.length + 1) % 65536) (rtlInitUnicodeString s)
  obtain ⟨bytes, hwrite, hlength, hprefix⟩ :=
    BoundedBuffer.write_of_le (List.replicate ((s.length + 1) % 65536) 0) 0
      (rtl.unicodeStringToAnsiString ((s.length + 1) % 65536) (rtlInitUnicodeString s))
      (by rw [List.length_replicate]; omega)
  rw [List.length_replicate] at hlength
  rw [List.take_zero, List.nil_append, Nat.zero_add] at hprefix
  have hdrop : (s ++ 0 :: rest).drop (s.length + 1) = rest := by simp
  refine ⟨⟨s.length % 65536, (s.length + 1) % 65536, some ⟨pool.next, bytes⟩⟩, ?_,
    ⟨rfl, rfl, _, bytes, rfl, hlength, ?_⟩, rfl⟩
  · simp only [copyAnsi, string_append hs, Option.bind_some, allocatePoolWithTag, if_neg hne, if_pos hanswer,
      hwrite, Option.map_some, hdrop]
  · rw [← hprefix]
    exact List.take_prefix _ _

theorem copier_copyAnsi (rtl : Rtl) (answers : ℕ → Bool) (hs : 0 ∉ s) :
    Copier (copyAnsi rtl answers) (Entry rtl) s := by
  intro rest pool
  by_cases h : Copied answers pool.next s
  · exact .inr (copyAnsi_of_copied rtl hs h rest)
  · obtain ⟨pool', heq, hsame⟩ := copyAnsi_of_not_copied rtl hs h rest
    exact .inl ⟨_, pool', heq, hsame⟩

/-! ## Counting -/

theorem countStrings_joined (Count : ℕ) (hss : Proper ss) (rest : List UInt16) :
    countStrings Count (joined ss ++ 0 :: rest) = some (Count + ss.length) := by
  induction ss generalizing Count with
  | nil =>
    rw [countStrings]
    simp [string]
  | cons s ss ih =>
    obtain ⟨⟨hne, hs⟩, hss⟩ := proper_cons.mp hss
    have hsplit : joined (s :: ss) ++ 0 :: rest = s ++ 0 :: (joined ss ++ 0 :: rest) := by simp
    have hdrop : (s ++ 0 :: (joined ss ++ 0 :: rest)).drop (s.length + 1) = joined ss ++ 0 :: rest := by simp
    rw [hsplit, countStrings]
    split
    · rename_i hnone
      rw [string_append hs] at hnone
      cases hnone
    · rename_i t hsome
      obtain rfl := Option.some.inj ((string_append hs _).symm.trans hsome)
      rw [if_neg (by simpa using hne), hdrop, ih (Count + 1) hss, List.length_cons]
      simp only [Option.some.injEq]
      omega

/-- **The strings can be counted** exactly if the list of them is ended. -/
theorem ended_of_countStrings (h : (countStrings Count l).isSome) : Ended l := by
  induction hn : l.length using Nat.strong_induction_on generalizing l Count with
  | _ n ih =>
    rw [countStrings] at h
    split at h
    · cases h
    · rename_i s hsome
      obtain ⟨hs, rest, rfl⟩ := string_eq_some hsome
      simp only at h
      split_ifs at h with hzero
      · obtain rfl := List.length_eq_zero_iff.mp hzero
        exact ⟨[], rest, by simp [Proper], rfl⟩
      · have hdrop : (s ++ 0 :: rest).drop (s.length + 1) = rest := by simp
        rw [hdrop] at h
        rw [List.length_append, List.length_cons] at hn
        obtain ⟨ss, rest', hss, rfl⟩ := ih rest.length (by omega) h rfl
        exact ⟨s :: ss, rest', proper_cons.mpr ⟨⟨by simpa using hzero, hs⟩, hss⟩, by simp⟩

/-! ## Room for the entries -/

/-- There is room for all entries, or no memory for the string of one that there is room for. -/
def Roomy (answers : ℕ → Bool) (room first next : ℕ) (ss : List (List UInt16)) : Prop :=
  first + ss.length ≤ room ∨ ∃ i s, ss[i]? = some s ∧ first + i < room ∧ ¬ Copied answers (next + i) s

theorem roomy_cons {room first next : ℕ} (hcopied : Copied answers next s) :
    Roomy answers room first next (s :: ss) ↔ Roomy answers room (first + 1) (next + 1) ss := by
  refine or_congr (by rw [List.length_cons]; omega) ?_
  constructor
  · rintro ⟨i, t, ht, hi, hnot⟩
    cases i with
    | zero =>
      obtain rfl := Option.some.inj ht
      exact absurd hcopied hnot
    | succ i => exact ⟨i, t, ht, by omega, by rwa [Nat.add_right_comm, Nat.add_assoc]⟩
  · rintro ⟨i, t, ht, hi, hnot⟩
    exact ⟨i + 1, t, ht, by omega, by rwa [Nat.add_right_comm, Nat.add_assoc] at hnot⟩

/-- **The strings are copied within the array** exactly if there is room for the entries that are made. -/
theorem copyStrings_cases {pool₀ : Ledger} {number room : ℕ} {entries : List AnsiString}
    (hss : ∀ s ∈ ss, 0 ∉ s) (rest : List UInt16) (hle : entries.length ≤ room)
    (htook : pool₀.Took pool (number :: numbers entries)) :
    (Roomy answers room entries.length pool.next ss ∧
      ∃ r pool' is, copyStrings (copyAnsi rtl answers) number room ss.length entries (joined ss ++ rest) pool =
        some (r, pool') ∧ pool₀.Took pool' is) ∨
    ¬ Roomy answers room entries.length pool.next ss ∧
      copyStrings (copyAnsi rtl answers) number room ss.length entries (joined ss ++ rest) pool = none := by
  induction ss generalizing entries pool with
  | nil => exact .inl ⟨.inl hle, _, pool, _, rfl, htook⟩
  | cons s ss ih =>
    obtain ⟨hs, hss⟩ := List.forall_mem_cons.mp hss
    have hsplit : joined (s :: ss) ++ rest = s ++ 0 :: (joined ss ++ rest) := by simp
    rw [hsplit, List.length_cons, copyStrings]
    rcases hle.lt_or_eq with hlt | heq
    · rw [if_neg hlt.not_ge]
      by_cases hcopied : Copied answers pool.next s
      · obtain ⟨a, hcopy, hmakes⟩ := copyAnsi_of_copied rtl hs hcopied (joined ss ++ rest)
        have htook' : pool₀.Took pool.take (number :: numbers (entries ++ [a])) := by
          rw [numbers_append hmakes.Buffer]
          exact htook.take_last
        have hlength : (entries ++ [a]).length = entries.length + 1 := List.length_append
        rw [roomy_cons hcopied, hcopy, Option.bind_some]
        rw [← hlength]
        exact ih hss (by omega) htook'
      · -- `fail2`
        obtain ⟨pool', hcopy, hsame⟩ := copyAnsi_of_not_copied rtl hs hcopied (joined ss ++ rest)
        obtain ⟨pool'', hgive, hheld⟩ := (htook.same hsame).unwind
        refine .inl ⟨.inr ⟨0, s, rfl, hlt, hcopied⟩, none, pool'', [], ?_, hheld⟩
        simp only [hcopy, Option.bind_some, hgive, Option.map_some]
    · rw [if_pos heq.ge]
      refine .inr ⟨?_, rfl⟩
      rintro (hall | ⟨i, t, -, hi, -⟩)
      · rw [List.length_cons] at hall
        omega
      · omega

/-- There is no memory for the array, or room in it. -/
def Fits (answers : ℕ → Bool) (next : ℕ) (ss : List (List UInt16)) : Prop :=
  16 * (ss.length + 1) % 4294967296 = 0 ∨ answers next = false ∨
    Roomy answers (room (ss.length + 1)) 0 (next + 1) ss

/-- There is room for fewer than 2 ^ 28 strings. -/
theorem fits_of_lt {next : ℕ} (h : ss.length + 1 < 268435456) : Fits answers next ss := by
  refine .inr (.inr (.inl ?_))
  rw [room]
  omega

theorem copyArray_cases (rtl : Rtl) (answers : ℕ → Bool) (pool : Ledger) (hss : ∀ s ∈ ss, 0 ∉ s)
    (rest : List UInt16) :
    (Fits answers pool.next ss ∧
      ∃ r pool' is, copyArray (copyAnsi rtl answers) answers ss.length (joined ss ++ rest) pool =
        some (r, pool') ∧ pool.Took pool' is) ∨
    ¬ Fits answers pool.next ss ∧
      copyArray (copyAnsi rtl answers) answers ss.length (joined ss ++ rest) pool = none := by
  unfold copyArray allocatePoolWithTag
  split_ifs with hzero hanswer
  · exact .inl ⟨.inl hzero, none, pool, [], rfl, .refl pool⟩
  · have htook : pool.Took pool.take (pool.next :: numbers []) := (Ledger.Took.refl pool).take
    have hfits : Fits answers pool.next ss ↔ Roomy answers (room (ss.length + 1)) 0 (pool.next + 1) ss := by
      simp [Fits, hzero, hanswer]
    rw [hfits]
    exact copyStrings_cases hss rest (Nat.zero_le _) htook
  · exact .inl ⟨.inr (.inl (Bool.eq_false_iff.mpr hanswer)), none, pool.skip, [], rfl,
      (Ledger.Took.refl pool).same pool.same_skip⟩

/-! ## Reading a value -/

theorem registrySzToAnsi_cases :
    ((answers pool.next = true → 0 ∈ l) ∧
      ∃ r pool' is, registrySzToAnsi rtl answers l pool = some (r, pool') ∧ pool.Took pool' is) ∨
    ¬ (answers pool.next = true → 0 ∈ l) ∧ registrySzToAnsi rtl answers l pool = none := by
  by_cases hzero : 0 ∈ l
  · obtain ⟨s, hstring⟩ := Option.isSome_iff_exists.mp (string_isSome.mpr hzero)
    obtain ⟨hs, rest, rfl⟩ := string_eq_some hstring
    have hsplit : joined [s] ++ rest = s ++ 0 :: rest := by simp
    rcases copyArray_cases rtl answers pool (List.forall_mem_singleton.mpr hs) rest with h | ⟨hnot, -⟩
    · rw [hsplit] at h
      exact .inl ⟨fun _ => hzero, h.2⟩
    · exact absurd (fits_of_lt (by simp)) hnot
  · have hstring : string l = none := Option.eq_none_iff_forall_ne_some.mpr fun s hs =>
      hzero (string_isSome.mp (Option.isSome_of_eq_some hs))
    unfold registrySzToAnsi copyArray allocatePoolWithTag
    cases hanswer : answers pool.next with
    | true =>
      refine .inr ⟨fun h => hzero (h rfl), ?_⟩
      simp only [Nat.reduceAdd, Nat.reduceMul, Nat.reduceMod, Nat.reduceEqDiff, if_true, if_false, copyStrings,
        copyAnsi, hstring, Option.bind_none, ite_self]
    | false =>
      refine .inl ⟨fun h => absurd h (by simp), none, pool.skip, [], rfl, ?_⟩
      exact (Ledger.Took.refl pool).same pool.same_skip

theorem registryMultiSzToAnsi_cases :
    ((∃ ss rest, Proper ss ∧ l = joined ss ++ 0 :: rest ∧ Fits answers pool.next ss) ∧
      ∃ r pool' is, registryMultiSzToAnsi rtl answers l pool = some (r, pool') ∧ pool.Took pool' is) ∨
    ¬ (∃ ss rest, Proper ss ∧ l = joined ss ++ 0 :: rest ∧ Fits answers pool.next ss) ∧
      registryMultiSzToAnsi rtl answers l pool = none := by
  unfold registryMultiSzToAnsi
  by_cases hended : Ended l
  · obtain ⟨ss, rest, hss, rfl⟩ := hended
    rw [countStrings_joined 0 hss, Option.bind_some, Nat.zero_add]
    rcases copyArray_cases rtl answers pool (fun s hs => (hss s hs).2) (0 :: rest) with
      ⟨hfits, h⟩ | ⟨hnot, h⟩
    · exact .inl ⟨⟨ss, rest, hss, rfl, hfits⟩, h⟩
    · refine .inr ⟨?_, h⟩
      rintro ⟨ts, rest', hts, heq, hfits⟩
      -- the strings are those that have been counted, and the array is copied in the same way
      have hlength : ss.length = ts.length := by
        have hcount := countStrings_joined 0 hss rest
        rw [heq, countStrings_joined 0 hts] at hcount
        simpa using hcount.symm
      rw [heq, hlength] at h
      rcases copyArray_cases rtl answers pool (fun s hs => (hts s hs).2) (0 :: rest') with
        ⟨-, r, pool', is, hsome, -⟩ | ⟨hnot', -⟩
      · cases h.symm.trans hsome
      · exact hnot' hfits
  · refine .inr ⟨?_, ?_⟩
    · rintro ⟨ss, rest, hss, heq, -⟩
      exact hended ⟨ss, rest, hss, heq⟩
    · have hnone : countStrings 0 l = none := by
        rw [← Option.not_isSome_iff_eq_none]
        exact fun h => hended (ended_of_countStrings h)
      rw [hnone, Option.bind_none]

/-- The strings of the value end in its data: a `WCHAR` that is `NUL`, or a list that is ended, with room for
the entries. Nothing is read of a `REG_SZ` unless there is memory for the array. -/
def InBounds (answers : ℕ → Bool) (next : ℕ) (Value : KeyValue) : Prop :=
  (Value.type = REG_SZ → answers next = true → 0 ∈ wchars Value.Data) ∧
    (Value.type = REG_MULTI_SZ →
      ∃ ss rest, Proper ss ∧ wchars Value.Data = joined ss ++ 0 :: rest ∧ Fits answers next ss)

theorem toAnsi_cases (rtl : Rtl) (answers : ℕ → Bool) (pool : Ledger) (Value : KeyValue) :
    (InBounds answers pool.next Value ∧
      ∃ r pool' is, toAnsi rtl answers Value pool = some (r, pool') ∧ pool.Took pool' is) ∨
    ¬ InBounds answers pool.next Value ∧ toAnsi rtl answers Value pool = none := by
  unfold toAnsi
  split_ifs with hsz hmulti
  · have hiff : InBounds answers pool.next Value ↔ (answers pool.next = true → 0 ∈ wchars Value.Data) :=
      ⟨fun h => h.1 hsz, fun h => ⟨fun _ => h, fun hmulti => absurd (hsz.symm.trans hmulti) (by decide)⟩⟩
    rw [hiff]
    exact registrySzToAnsi_cases
  · have hiff : InBounds answers pool.next Value ↔
        ∃ ss rest, Proper ss ∧ wchars Value.Data = joined ss ++ 0 :: rest ∧ Fits answers pool.next ss :=
      ⟨fun h => h.2 hmulti, fun h => ⟨fun h' => absurd h' hsz, fun _ => h⟩⟩
    rw [hiff]
    exact registryMultiSzToAnsi_cases
  · exact .inl ⟨⟨fun h => absurd h hsz, fun h => absurd h hmulti⟩, none, pool, [], rfl, .refl pool⟩

/-- The call gets as far as to the data. -/
def Queried (answers : Answers) (next : ℕ) (Value : KeyValue) : Prop :=
  answers.unicode = true ∧ (∃ Size, answers.Size = some Size ∧ Size ≠ 0) ∧ answers.allocate (next + 1) = true ∧
    answers.Value = some Value

/-- **A value is read within its data**, and nothing is written beyond a block, exactly if the data end its
strings and there is room for the entries. -/
theorem registryQuerySzValue_isSome_iff (rtl : Rtl) (answers : Answers) (pool : Ledger) :
    (registryQuerySzValue rtl answers pool).isSome ↔
      ∀ Value, Queried answers pool.next Value → InBounds answers.allocate (pool.next + 2) Value := by
  have hUnicode : pool.Took pool.take [pool.next] := (Ledger.Took.refl pool).take
  unfold registryQuerySzValue
  cases hunicode : answers.unicode with
  | false => exact iff_of_true rfl fun _ h => absurd (hunicode.symm.trans h.1) (by simp)
  | true =>
    rw [if_neg (by simp)]
    cases hSize : answers.Size with
    | none =>
      obtain ⟨pool', hgive, -⟩ := hUnicode.give
      refine iff_of_true (by simp [hgive]) fun Value h => ?_
      obtain ⟨-, ⟨Size, hSome, -⟩, -⟩ := h
      cases hSize.symm.trans hSome
    | some Size =>
      simp only
      rcases allocatePoolWithTag_cases answers.allocate Size pool.take with ⟨pool₁, heq, hsame⟩ | ⟨hpos, heq⟩
      · obtain ⟨pool', hgive, -⟩ := (hUnicode.same hsame).give
        refine iff_of_true (by simp [heq, hgive]) fun Value h => ?_
        obtain ⟨-, ⟨Size', hSome, hne⟩, hallocate, -⟩ := h
        obtain rfl := Option.some.inj (hSize.symm.trans hSome)
        have hallocate' : answers.allocate pool.take.next = true := hallocate
        simp only [allocatePoolWithTag, if_neg hne, if_pos hallocate'] at heq
        cases (Prod.mk.inj heq).1
      · have hallocate : answers.allocate (pool.next + 1) = true := by
          simp only [allocatePoolWithTag, if_neg hpos.ne'] at heq
          split_ifs at heq with hanswer
          · exact hanswer
          · cases (Prod.mk.inj heq).1
        have hblock : pool.Took pool.take.take [pool.take.next, pool.next] := hUnicode.take
        simp only [heq]
        cases hValue : answers.Value with
        | none =>
          obtain ⟨pool', hgive, -⟩ :=
            (hblock.perm (List.Perm.of_eq (List.append_nil _).symm)).giveAll
          refine iff_of_true (by simp [hgive]) fun Value h => ?_
          cases hValue.symm.trans h.2.2.2
        | some Value =>
          have hqueried : (∀ Value', Queried answers pool.next Value' →
              InBounds answers.allocate (pool.next + 2) Value') ↔
              InBounds answers.allocate (pool.next + 2) Value := by
            constructor
            · intro h
              exact h Value ⟨hunicode, ⟨Size, hSize, hpos.ne'⟩, hallocate, hValue⟩
            · intro h Value' h'
              obtain rfl := Option.some.inj (hValue.symm.trans h'.2.2.2)
              exact h
          rw [hqueried]
          rcases toAnsi_cases rtl answers.allocate pool.take.take Value with
            ⟨hin, r, pool', is, hsome, htook⟩ | ⟨hnot, hnone⟩
          · obtain ⟨pool'', hgive, -⟩ := ((hblock.trans htook).perm List.perm_append_comm).giveAll
            exact iff_of_true (by simp [hsome, hgive]) hin
          · exact iff_of_false (by simp [hnone]) hnot

/-- A code page that has one character for each byte but `NUL`, and the byte for it. -/
structure CodePage where
  widen : UInt8 → UInt16
  narrow : UInt16 → UInt8
  narrow_widen : ∀ b, b ≠ 0 → narrow (widen b) = b
  widen_ne_zero : ∀ b, b ≠ 0 → widen b ≠ 0

/-- `RtlUnicodeStringToAnsiString` with the code page: it writes the string and a `NUL`, or nothing if there is
no room for them. -/
def CodePage.toRtl (page : CodePage) : Rtl where
  unicodeStringToAnsiString MaximumLength s := if s.length < MaximumLength then s.map page.narrow ++ [0] else []
  bounded MaximumLength s := by
    split_ifs
    · rw [List.length_append, List.length_map, List.length_singleton]
      omega
    · exact Nat.zero_le _

/-- The first 256 characters. -/
def latin1 : CodePage where
  widen := UInt8.toUInt16
  narrow := UInt16.toUInt8
  narrow_widen b _ := UInt8.toUInt8_toUInt16 b
  widen_ne_zero b hb h := hb (by rw [← UInt8.toUInt8_toUInt16 b, h]; rfl)

/-- The data of a `REG_SZ` are the one character `A`. -/
theorem registryQuerySzValue_unended :
    registryQuerySzValue latin1.toRtl ⟨fun _ => true, true, some 14, some ⟨REG_SZ, [65, 0]⟩⟩ .empty = none := by
  rfl

end XenBus.Registry
