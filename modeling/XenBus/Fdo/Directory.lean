import XenBus.Ansi
import XenBus.Foundations.BoundedBuffer
import XenBus.Fdo.Classes

/-!
# Directories

`FdoMultiSzToUpcaseAnsi` (`fdo.c`) makes an array of strings of the payload of a reply to `XS_DIRECTORY`, to
which `StoreCopyPayload` has added two `NUL`s. It counts the strings up to the first two `NUL`s in a row, and
then copies as many.

The lengths of an `ANSI_STRING` are `USHORT`s. A string of 65536 bytes is copied to a buffer of one byte
(`copyUpcase_eq_none`), and the size of the array is a `ULONG`; but the payload of a message is shorter than
4096 bytes. `fdoMultiSzToUpcaseAnsi_spec` is for all payloads that the types have room for.
-/

namespace XenBus.Fdo.Directory

open Terminated Ansi

/-! ## The function -/

/-- `__toupper`. -/
def toupper (Character : UInt8) : UInt8 :=
  if Character < 97 ∨ 122 < Character then Character else 65 + Character - 97

/-- The first loop of `FdoMultiSzToUpcaseAnsi`, from `Index` on: the number of strings, and the bytes as they
are after it. `Index` is a `LONG`. -/
def countStrings : ℕ → ℕ → List UInt8 → Option (ℕ × List UInt8)
  | _, _, [] => none
  | Index, Count, b :: Buffer =>
    if Index = 2147483647 then none
    else if b = 0 then
      match Buffer with
      | [] => none
      | c :: _ =>
        if c = 0 then some (Count + 1, b :: Buffer)
        else (countStrings (Index + 1) (Count + 1) Buffer).map fun (Count, Buffer) => (Count, b :: Buffer)
    else (countStrings (Index + 1) Count Buffer).map fun (Count, Buffer) => (Count, toupper b :: Buffer)

/-- The body of the second loop: the entry, and where `Buffer` is after it. -/
def copyUpcase (answers : ℕ → Bool) (Buffer : List UInt8) (pool : Ledger) :
    Option (Option AnsiString × List UInt8 × Ledger) :=
  (string Buffer).bind fun s =>
    let Length := s.length % 4294967296
    let MaximumLength := (Length + 1) % 65536
    match allocatePoolWithTag answers MaximumLength pool with
    | (none, pool) => some (none, Buffer, pool)
    | (some block, pool) =>
      (BoundedBuffer.write block.bytes 0 (Buffer.take Length)).map fun bytes =>
        (some ⟨Length % 65536, MaximumLength, some { block with bytes := bytes }⟩, Buffer.drop (Length + 1), pool)

/-- `FdoMultiSzToUpcaseAnsi`: the array, and the bytes of the buffer after it. -/
def fdoMultiSzToUpcaseAnsi (answers : ℕ → Bool) (Buffer : List UInt8) (pool : Ledger) :
    Option (Option AnsiArray × List UInt8 × Ledger) :=
  (countStrings 0 0 Buffer).bind fun (Count, Buffer) =>
    (copyArray (copyUpcase answers) answers Count Buffer pool).map fun (ansi, pool) => (ansi, Buffer, pool)

/-! ## Counting -/

variable {answers : ℕ → Bool} {pool : Ledger} {s rest : List UInt8} {ss : List (List UInt8)}
  {Index Count : ℕ}

/-- The string in upper case. -/
def upcase (s : List UInt8) : List UInt8 := s.map toupper

/-- What holds of all bytes can be checked for one after the other. -/
theorem forall_byte {P : UInt8 → Prop} (h : ∀ n : Fin 256, P (.ofNat n)) (b : UInt8) : P b := by
  have hb := h ⟨b.toNat, b.toNat_lt⟩
  rwa [UInt8.ofNat_toNat] at hb

theorem toupper_eq_zero {b : UInt8} : toupper b = 0 ↔ b = 0 := by
  unfold toupper
  split_ifs with h
  · exact Iff.rfl
  · simp only [UInt8.lt_iff_toNat_lt, UInt8.reduceToNat, not_or, not_lt] at h
    have hb := b.toNat_lt
    refine iff_of_false (fun heq => ?_) (fun heq => ?_) <;>
      have htoNat := congrArg UInt8.toNat heq <;>
      simp only [UInt8.toNat_sub, UInt8.toNat_add, UInt8.reduceToNat] at htoNat <;>
      omega

theorem zero_mem_upcase : 0 ∈ upcase s ↔ 0 ∈ s := by
  simp [upcase, toupper_eq_zero]

theorem upcase_joined (ss : List (List UInt8)) : upcase (joined ss) = joined (ss.map upcase) := by
  induction ss with
  | nil => rfl
  | cons s ss ih =>
    rw [List.map_cons, joined_cons, joined_cons, ← ih]
    simp only [upcase, List.map_append, List.map_cons, toupper_eq_zero.mpr]

theorem countStrings_of_ne {b : UInt8} (hb : b ≠ 0) (hIndex : Index < 2147483647) (Buffer : List UInt8) :
    countStrings Index Count (b :: Buffer) =
      (countStrings (Index + 1) Count Buffer).map fun (Count, Buffer) => (Count, toupper b :: Buffer) := by
  rw [countStrings.eq_def]
  simp only [if_neg hIndex.ne, if_neg hb]

theorem countStrings_append (hs : 0 ∉ s) (hIndex : Index + s.length ≤ 2147483647) (rest : List UInt8) :
    countStrings Index Count (s ++ 0 :: rest) =
      (countStrings (Index + s.length) Count (0 :: rest)).map
        fun (Count, Buffer) => (Count, upcase s ++ Buffer) := by
  induction s generalizing Index with
  | nil => simp [upcase]
  | cons b s ih =>
    obtain ⟨hb, hs⟩ := not_or.mp (mt List.mem_cons.mpr hs)
    rw [List.length_cons] at hIndex
    rw [List.cons_append, countStrings_of_ne (Ne.symm hb) (by omega), ih hs (by omega), Option.map_map,
      List.length_cons, Nat.add_right_comm, Nat.add_assoc]
    rfl

/-- **The strings are counted** up to the two `NUL`s, and they are in upper case then. -/
theorem countStrings_joined (hs : 0 ∉ s) (hss : Proper ss)
    (hIndex : Index + (joined (s :: ss)).length ≤ 2147483647) (rest : List UInt8) :
    countStrings Index Count (joined (s :: ss) ++ 0 :: rest) =
      some (Count + (s :: ss).length, upcase (joined (s :: ss)) ++ 0 :: rest) := by
  induction ss generalizing s Index Count with
  | nil =>
    simp only [joined_cons, joined_nil, List.length_append, List.length_cons, List.length_nil] at hIndex
    have hBuffer : joined [s] ++ 0 :: rest = s ++ 0 :: 0 :: rest := by simp
    rw [hBuffer, countStrings_append hs (by omega), countStrings, if_neg (by omega), if_pos rfl]
    simp [upcase, toupper_eq_zero.mpr]
  | cons t ss ih =>
    obtain ⟨⟨hne, ht⟩, hss⟩ := proper_cons.mp hss
    rw [joined_cons] at hIndex
    simp only [List.length_append, List.length_cons] at hIndex
    have hBuffer : joined (s :: t :: ss) ++ 0 :: rest = s ++ 0 :: (joined (t :: ss) ++ 0 :: rest) := by simp
    obtain ⟨c, tail, hc, hhead⟩ := head_ne_zero (proper_cons.mpr ⟨⟨hne, ht⟩, hss⟩) (by simp) (0 :: rest)
    rw [hBuffer, countStrings_append hs (by omega), hhead, countStrings, if_neg (by omega), if_pos rfl]
    simp only [hc, if_false]
    rw [← hhead, ih ht hss (by omega)]
    simp [upcase, toupper_eq_zero.mpr]
    omega

/-! ## Copying -/

theorem copier_copyUpcase (answers : ℕ → Bool) (hs : 0 ∉ s) (hlength : s.length < 65536) :
    Copier (copyUpcase answers) Copies s := by
  intro rest pool
  have hLength : s.length % 4294967296 = s.length := Nat.mod_eq_of_lt (by omega)
  simp only [copyUpcase, string_append hs, Option.bind_some, hLength]
  rcases allocatePoolWithTag_cases answers ((s.length + 1) % 65536) pool with ⟨pool', heq, hsame⟩ | ⟨hpos, heq⟩
  · exact .inl ⟨_, pool', by rw [heq], hsame⟩
  · have hMaximumLength : (s.length + 1) % 65536 = s.length + 1 := by omega
    rw [hMaximumLength] at heq ⊢
    have hwrite : BoundedBuffer.write (List.replicate (s.length + 1) 0) 0 s = some (s ++ [0]) := by
      have hreplicate : List.replicate (s.length + 1) (0 : UInt8) = List.replicate s.length 0 ++ [0] :=
        List.replicate_succ'
      rw [hreplicate]
      exact BoundedBuffer.write_over _ _ _ List.length_replicate.symm
    refine .inr ⟨⟨s.length, s.length + 1, some ⟨pool.next, s ++ [0]⟩⟩, ?_, ⟨rfl, rfl, _, rfl⟩, rfl⟩
    have hdrop : (s ++ 0 :: rest).drop (s.length + 1) = rest := by simp
    simp only [heq, List.take_left, hwrite, Option.map_some, Nat.mod_eq_of_lt hlength, hdrop]

/-- A longer string is copied beyond its buffer. -/
theorem copyUpcase_eq_none (pool : Ledger) (hs : 0 ∉ s) (hlong : 65536 ≤ s.length)
    (hlength : s.length < 4294967296) (hMaximumLength : (s.length + 1) % 65536 ≠ 0) (hanswers : answers pool.next = true) (rest : List UInt8) :
    copyUpcase answers (s ++ 0 :: rest) pool = none := by
  have hLength : s.length % 4294967296 = s.length := Nat.mod_eq_of_lt hlength
  simp only [copyUpcase, string_append hs, Option.bind_some, hLength, allocatePoolWithTag,
    if_neg hMaximumLength, if_pos hanswers, List.take_left]
  rw [BoundedBuffer.write_of_lt, Option.map_none]
  rw [List.length_replicate]
  omega

/-! ## The array -/

/-- A string of the buffer is one of the payload. -/
theorem infix_payload {payload : List UInt8} (hs : 0 ∉ s) (h : s <:+: payload ++ [0, 0]) : s <:+: payload := by
  have hzero : ∀ t : List UInt8, (∀ b ∈ t, b = 0) → t <:+: s → t = [] := by
    intro t ht hts
    cases t with
    | nil => rfl
    | cons b t => exact absurd (hts.subset (by simp [ht b])) hs
  rcases List.infix_append_iff.mp h with hpayload | hnuls | ⟨t, u, rfl, ht, hu⟩
  · exact hpayload
  · rw [hzero s (fun b hb => by simpa using hnuls.subset hb) (List.infix_refl s)]
    exact List.nil_infix
  · rw [hzero u (fun b hb => by simpa using hu.subset hb) (List.suffix_append t u).isInfix, List.append_nil]
    exact ht.isInfix

/-- **The function on a buffer that is split into strings.** -/
theorem fdoMultiSzToUpcaseAnsi_joined (answers : ℕ → Bool) (pool : Ledger) (hs : 0 ∉ s) (hss : Proper ss)
    (hlength : (joined (s :: ss)).length + 1 < 268435456) (hshort : ∀ t ∈ s :: ss, t.length < 65536)
    (rest : List UInt8) :
    ∃ ansi pool', fdoMultiSzToUpcaseAnsi answers (joined (s :: ss) ++ 0 :: rest) pool =
        some (ansi, upcase (joined (s :: ss)) ++ 0 :: rest, pool') ∧
      (ansi = none → pool'.held = pool.held) ∧
      ∀ a, ansi = some a → ∃ made, Allocated pool pool' a made ∧
        List.Forall₂ Copies ((s :: ss).map upcase) made := by
  have hnul : ∀ t ∈ s :: ss, 0 ∉ t := List.forall_mem_cons.mpr ⟨hs, fun t ht => (hss t ht).2⟩
  have hcopy : ∀ t ∈ (s :: ss).map upcase, Copier (copyUpcase answers) Copies t := by
    intro t ht
    obtain ⟨t, hmem, rfl⟩ := List.mem_map.mp ht
    exact copier_copyUpcase answers (zero_mem_upcase.not.mpr (hnul t hmem)) (by simpa [upcase] using hshort t hmem)
  have hCount : (s :: ss).length ≤ (joined (s :: ss)).length := length_le_joined (s :: ss)
  obtain ⟨ansi, pool', heq, hspec⟩ :=
    copyArray_spec hcopy answers (0 :: rest) pool (by rw [List.length_map]; omega)
  rw [List.length_map, ← upcase_joined] at heq
  refine ⟨ansi, pool', ?_, hspec⟩
  rw [fdoMultiSzToUpcaseAnsi, countStrings_joined hs hss (by omega), Option.bind_some]
  simp only [Nat.zero_add, heq, Option.map_some]

/-- A string is copied if there is memory. -/
theorem copyUpcase_of_lt (hs : 0 ∉ s) (hlength : s.length < 65535) (rest : List UInt8) (pool : Ledger) :
    ∃ a pool', copyUpcase (fun _ => true) (s ++ 0 :: rest) pool = some (some a, rest, pool') := by
  rcases copier_copyUpcase (fun _ => true) hs (by omega) rest pool with
    ⟨Buffer, pool', heq, -⟩ | ⟨a, heq, -⟩
  · have hMaximumLength : (s.length % 4294967296 + 1) % 65536 ≠ 0 := by omega
    simp only [copyUpcase, string_append hs, Option.bind_some, allocatePoolWithTag, if_neg hMaximumLength,
      if_true] at heq
    obtain ⟨bytes, -, hnone⟩ := Option.map_eq_some_iff.mp heq
    cases (Prod.mk.inj hnone).1
  · exact ⟨a, _, heq⟩

/-- There is an array if there is memory. -/
theorem fdoMultiSzToUpcaseAnsi_array (pool : Ledger) (hs : 0 ∉ s) (hss : Proper ss)
    (hlength : (joined (s :: ss)).length + 1 < 268435456) (hshort : ∀ t ∈ s :: ss, t.length < 65535)
    (rest : List UInt8) :
    ∃ ansi made Buffer pool', fdoMultiSzToUpcaseAnsi (fun _ => true) (joined (s :: ss) ++ 0 :: rest) pool =
        some (some ansi, Buffer, pool') ∧
      Allocated pool pool' ansi made ∧ List.Forall₂ Copies ((s :: ss).map upcase) made := by
  obtain ⟨ansi, pool', heq, -, hsome⟩ := fdoMultiSzToUpcaseAnsi_joined (fun _ => true) pool hs hss hlength
    (fun t ht => by have := hshort t ht; omega) rest
  cases ansi with
  | some ansi =>
    obtain ⟨made, hallocated, hmade⟩ := hsome ansi rfl
    exact ⟨ansi, made, _, pool', heq, hallocated, hmade⟩
  | none =>
    have hCount : (s :: ss).length ≤ (joined (s :: ss)).length := length_le_joined (s :: ss)
    rw [fdoMultiSzToUpcaseAnsi, countStrings_joined hs hss (by omega), Option.bind_some] at heq
    obtain ⟨result, hcopy, hnone⟩ := Option.map_eq_some_iff.mp heq
    obtain ⟨ansi, pool''⟩ := result
    obtain rfl : ansi = none := (Prod.mk.inj hnone).1
    have hmap : ((s :: ss).map upcase).length = (s :: ss).length := List.length_map _
    rw [upcase_joined, Nat.zero_add, ← hmap] at hcopy
    have hroom : ((s :: ss).map upcase).length + 1 < 268435456 := by
      rw [List.length_map]
      omega
    refine absurd hcopy (copyArray_ne_none (fun t ht rest pool => ?_) hroom rfl (0 :: rest))
    obtain ⟨u, hu, rfl⟩ := List.mem_map.mp ht
    have hnul : ∀ t ∈ s :: ss, 0 ∉ t := List.forall_mem_cons.mpr ⟨hs, fun t ht => (hss t ht).2⟩
    exact copyUpcase_of_lt (zero_mem_upcase.not.mpr (hnul u hu)) (by simpa [upcase] using hshort u hu) rest pool

/-- **`FdoMultiSzToUpcaseAnsi` stays in the buffer**, and frees what it has allocated or returns an array; of a
payload that is a list of strings, the array is that of their copies in upper case. -/
theorem fdoMultiSzToUpcaseAnsi_spec (answers : ℕ → Bool) (payload : List UInt8) (pool : Ledger)
    (hlength : payload.length + 2 < 268435456) (hshort : ∀ s, s <:+: payload → 0 ∉ s → s.length < 65536) :
    ∃ ansi Buffer pool', fdoMultiSzToUpcaseAnsi answers (payload ++ [0, 0]) pool = some (ansi, Buffer, pool') ∧
      Buffer.length = payload.length + 2 ∧ (ansi = none → pool'.held = pool.held) ∧
      ∀ a, ansi = some a → ∃ made, Allocated pool pool' a made ∧
        ∀ ss, ss ≠ [] → Proper ss → payload = joined ss → List.Forall₂ Copies (ss.map upcase) made := by
  obtain ⟨s, ss, rest, hs, hss, hsplit⟩ := exists_joined (List.infix_append' payload [0, 0] [])
  rw [List.append_nil] at hsplit
  have hnul : ∀ t ∈ s :: ss, 0 ∉ t := List.forall_mem_cons.mpr ⟨hs, fun t ht => (hss t ht).2⟩
  have hshort' : ∀ t ∈ s :: ss, t.length < 65536 := fun t ht =>
    hshort t (infix_payload (hnul t ht) (hsplit ▸ infix_joined ht (0 :: rest))) (hnul t ht)
  have hsplit' := congrArg List.length hsplit
  simp only [List.length_append, List.length_cons, List.length_nil] at hsplit'
  obtain ⟨ansi, pool', heq, hnone, hsome⟩ :=
    fdoMultiSzToUpcaseAnsi_joined answers pool hs hss (by omega) hshort' rest
  refine ⟨ansi, _, pool', by rw [hsplit, heq], ?_, hnone, fun a ha => ?_⟩
  · simp only [upcase, List.length_append, List.length_map, List.length_cons]
    omega
  obtain ⟨made, hallocated, hmade⟩ := hsome a ha
  refine ⟨made, hallocated, fun ts hne hts hpayload => ?_⟩
  -- the strings of the payload are those of the buffer
  cases ts with
  | nil => exact absurd rfl hne
  | cons t ts =>
    have hts' := proper_cons.mp hts
    have hshortts : ∀ u ∈ t :: ts, u.length < 65536 := fun u hu =>
      hshort u (hpayload ▸ by simpa using infix_joined hu []) (hts u hu).2
    have hpayload' : payload ++ [0, 0] = joined (t :: ts) ++ 0 :: [0] := by rw [hpayload]
    have hlength' := congrArg List.length hpayload
    obtain ⟨ansi', pool'', heq', -, hsome'⟩ :=
      fdoMultiSzToUpcaseAnsi_joined answers pool hts'.1.2 hts'.2 (by omega) hshortts [0]
    rw [← hpayload', hsplit, heq] at heq'
    obtain ⟨rfl, -⟩ := Prod.mk.inj (Option.some.inj heq')
    obtain ⟨made', hallocated', hmade'⟩ := hsome' a ha
    have hEntries := hallocated.Entries.symm.trans hallocated'.Entries
    rwa [List.append_cancel_right hEntries]

/-- `vif` and `Vbd`, each with its `NUL`. -/
def twoClasses : List UInt8 := [118, 105, 102, 0, 86, 98, 100, 0]

/-- They are copied as `VIF` and `VBD`. -/
theorem fdoMultiSzToUpcaseAnsi_two :
    ∃ a Buffer pool' made, fdoMultiSzToUpcaseAnsi (fun _ => true) (twoClasses ++ [0, 0]) .empty =
        some (some a, Buffer, pool') ∧
      Buffer.length = 10 ∧ Allocated .empty pool' a made ∧
      List.Forall₂ Copies [[86, 73, 70], [86, 66, 68]] made := by
  obtain ⟨ansi, Buffer, pool', heq, hlength, -, hsome⟩ :=
    fdoMultiSzToUpcaseAnsi_spec (fun _ => true) twoClasses .empty (by decide) fun s hs _ => by
      have hle := hs.length_le
      have h8 : twoClasses.length = 8 := rfl
      omega
  have hanswer : (fdoMultiSzToUpcaseAnsi (fun _ => true) (twoClasses ++ [0, 0]) .empty).map
      (fun r => r.1.isSome) = some true := by
    decide +kernel
  rw [heq] at hanswer
  obtain ⟨a, rfl⟩ := Option.isSome_iff_exists.mp (Option.some.inj hanswer)
  obtain ⟨made, hallocated, hmade⟩ := hsome a rfl
  exact ⟨a, Buffer, pool', made, heq, hlength, hallocated,
    hmade [[118, 105, 102], [86, 98, 100]] (by decide) (by simp [Proper]) rfl⟩

/-- With a longer string the function writes beyond a block. -/
theorem fdoMultiSzToUpcaseAnsi_eq_none (hs : 0 ∉ s) (hlong : 65536 ≤ s.length) (hLONG : s.length < 2147483647)
    (hMaximumLength : (s.length + 1) % 65536 ≠ 0) (hanswers : ∀ i, answers i = true) :
    fdoMultiSzToUpcaseAnsi answers (s ++ [0, 0]) pool = none := by
  have hBuffer : s ++ [0, 0] = joined [s] ++ 0 :: [] := by simp
  have hlength : (upcase s).length = s.length := List.length_map _
  have hcopy := copyUpcase_eq_none pool.take (zero_mem_upcase.not.mpr hs) (by omega) (by omega)
    (by rwa [hlength]) (hanswers _) [0]
  have hLength : (joined [s]).length = s.length + 1 := by simp
  have hupper : upcase (joined [s]) ++ 0 :: [] = upcase s ++ [0, 0] := by
    simp [upcase, toupper_eq_zero.mpr]
  have hallocate : allocatePoolWithTag answers (16 * (1 + 1) % 4294967296) pool =
      (some ⟨pool.next, List.replicate 32 0⟩, pool.take) := by
    simp [allocatePoolWithTag, hanswers]
  have hroom : ¬ room (1 + 1) ≤ ([] : List AnsiString).length := by decide
  rw [fdoMultiSzToUpcaseAnsi, hBuffer, countStrings_joined hs (by simp [Proper]) (by omega), Option.bind_some]
  simp only [copyArray, List.length_singleton, Nat.zero_add, hallocate, hupper, copyStrings, if_neg hroom, hcopy,
    Option.bind_none, Option.map_none]

/-- A string of 65536 bytes, which is not one of a message. -/
theorem fdoMultiSzToUpcaseAnsi_long :
    fdoMultiSzToUpcaseAnsi (fun _ => true) (List.replicate 65536 97 ++ [0, 0]) .empty = none := by
  have hlength : (List.replicate 65536 (97 : UInt8)).length = 65536 := List.length_replicate
  have hnul : (0 : UInt8) ∉ List.replicate 65536 97 := fun hmem => by
    cases List.eq_of_mem_replicate hmem
  revert hlength hnul
  generalize List.replicate 65536 (97 : UInt8) = s
  intro hlength hnul
  exact fdoMultiSzToUpcaseAnsi_eq_none hnul (by omega) (by omega) (by rw [hlength]; decide) fun _ => rfl

/-! ## The names of the devices -/

/-- The character of a byte. -/
def char (b : UInt8) : Char := Char.ofNat b.toNat

theorem toupper_char (b : UInt8) : Classes.toupper (char b) = char (toupper b) := by
  revert b
  exact forall_byte (by decide +kernel)

/-- **The names that `FdoScan` gets** are those that have been copied. -/
theorem splitUpcase_joined (hs : 0 ∉ s) (hss : Proper ss) (rest : List UInt8) :
    Classes.splitUpcase [] ((joined (s :: ss) ++ 0 :: rest).map char) =
      ((s :: ss).map upcase).map (·.map char) := by
  have hchar : ∀ b : UInt8, char b = Classes.nul ↔ b = 0 := by
    exact forall_byte (by decide +kernel)
  have hnul : ∀ t : List UInt8, 0 ∉ t → Classes.nul ∉ t.map char := by
    intro t ht hmem
    obtain ⟨b, hb, heq⟩ := List.mem_map.mp hmem
    exact ht ((hchar b).mp heq ▸ hb)
  have hupcase : ∀ t : List UInt8, Classes.upcase (t.map char) = (upcase t).map char := by
    intro t
    simp only [Classes.upcase, upcase, List.map_map]
    exact List.map_congr_left fun b _ => toupper_char b
  induction ss generalizing s with
  | nil =>
    have hBuffer : joined [s] ++ 0 :: rest = s ++ 0 :: 0 :: rest := by simp
    rw [hBuffer, List.map_append, List.map_cons, (hchar 0).mpr rfl, Classes.splitUpcase_append (hnul s hs),
      List.map_cons, (hchar 0).mpr rfl, hupcase]
    simp
  | cons t ss ih =>
    obtain ⟨⟨hne, ht⟩, hss⟩ := proper_cons.mp hss
    obtain ⟨c, tail, hc, hhead⟩ := head_ne_zero (proper_cons.mpr ⟨⟨hne, ht⟩, hss⟩) (by simp) (0 :: rest)
    have hBuffer : joined (s :: t :: ss) ++ 0 :: rest = s ++ 0 :: (joined (t :: ss) ++ 0 :: rest) := by simp
    have hrest := ih ht hss
    rw [hhead, List.map_cons] at hrest
    rw [hBuffer, hhead, List.map_append, List.map_cons, (hchar 0).mpr rfl, Classes.splitUpcase_append (hnul s hs),
      List.map_cons, hupcase]
    simp only [mt (hchar c).mp hc, if_false, hrest]
    simp

end XenBus.Fdo.Directory
