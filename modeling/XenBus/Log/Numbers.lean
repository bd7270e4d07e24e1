import XenBus.Foundations.CString
import XenBus.Log.Slots

/-!
# Numbers in the log

`LogFormatNumber` writes the digits of a number through a pointer that it moves, the most significant digit first.
What it leaves in the buffer of `LogWriteSlot` is the text of `formatNumber` and its `NUL`
(`formatNumberAt_eq`), and the text reads back as the number (`formatNumber_reads`).

`numbers_read_back` has both, and what a slot is given of the text: it is justified to the width of the
directive. The width of `p` is always 16, and a width is taken modulo 256.
-/

namespace XenBus.Log

open BoundedBuffer (write write_append write_over)
open CString (skipSign digits)

variable {Base Value : ℕ} {UpperCase : Bool} {c : UInt8}

/-! ## The buffer -/

/-- `LogFormatNumber`, with the position of its pointer in the buffer: the buffer, and the position it returns. -/
def logFormatNumberAt (Base : ℕ) (UpperCase : Bool) (Value : ℕ) (Buffer : List UInt8) (i : ℕ) :
    Option (List UInt8 × ℕ) :=
  (if 1 < Base ∧ Value / Base ≠ 0 then logFormatNumberAt Base UpperCase (Value / Base) Buffer i
    else some (Buffer, i)).bind fun (Buffer, i) =>
    (write Buffer i [if Value % Base < 10 then UInt8.ofNat (48 + Value % Base)
      else UInt8.ofNat ((if UpperCase then 65 else 97) + (Value % Base - 10))]).bind fun Buffer =>
      (write Buffer (i + 1) [0]).map fun Buffer => (Buffer, i + 1)
  termination_by Value
  decreasing_by
    rename_i h
    exact Nat.div_lt_self (Nat.pos_of_ne_zero fun hzero => h.2 (by rw [hzero, Nat.zero_div])) h.1

/-- `_Base`. -/
def base (Character : UInt8) : ℕ :=
  if Character = 111 then 8 else if Character = 100 ∨ Character = 117 then 10 else 16

/-- `LOG_FORMAT_NUMBER`, with the number of bits of the type: the buffer. -/
def formatNumberAt (bits : ℕ) (Character : UInt8) (argument : UInt64) (Buffer : List UInt8) :
    Option (List UInt8) :=
  let Value := argument.toNat % 2 ^ bits
  let UpperCase := Character = 112 ∨ Character = 88
  if Character = 100 ∧ 2 ^ (bits - 1) ≤ Value then
    (write Buffer 0 [45]).bind fun Buffer =>
      (logFormatNumberAt (base Character) UpperCase (2 ^ bits - Value) Buffer 1).map Prod.fst
  else (logFormatNumberAt (base Character) UpperCase Value Buffer 0).map Prod.fst

/-! ## Digits -/

/-- The character of a digit. -/
def character (UpperCase : Bool) (d : ℕ) : UInt8 :=
  if d < 10 then UInt8.ofNat (48 + d) else UInt8.ofNat ((if UpperCase then 65 else 97) + (d - 10))

/-- The bases of the conversions. -/
def IsBase (Base : ℕ) : Prop := Base = 8 ∨ Base = 10 ∨ Base = 16

theorem isBase_base (Character : UInt8) : IsBase (base Character) := by
  unfold base
  split_ifs
  · exact .inl rfl
  · exact .inr (.inl rfl)
  · exact .inr (.inr rfl)

theorem IsBase.le (h : IsBase Base) : 8 ≤ Base ∧ Base ≤ 16 := by
  rcases h with rfl | rfl | rfl <;> exact ⟨by decide, by decide⟩

/-- A digit is read as its value; it is neither a `NUL` nor a sign, and it is `0` only if its value is zero. -/
theorem digit_character (h : IsBase Base) {d : ℕ} (hd : d < Base) :
    CString.digit Base (character UpperCase d) = some d ∧ character UpperCase d ≠ 0 ∧
      character UpperCase d ≠ 45 ∧ character UpperCase d ≠ 43 ∧ (character UpperCase d = 48 → d = 0) := by
  rcases h with rfl | rfl | rfl <;> revert d UpperCase <;> decide

/-- The last digit, and the digits before it. -/
theorem logFormatNumber_eq (h : IsBase Base) (UpperCase : Bool) (Value : ℕ) :
    logFormatNumber Base UpperCase Value =
      (if Value / Base = 0 then [] else logFormatNumber Base UpperCase (Value / Base)) ++
        [character UpperCase (Value % Base)] := by
  have hbase : 1 < Base := lt_of_lt_of_le (by decide) h.le.1
  rw [logFormatNumber]
  by_cases hzero : Value / Base = 0
  · rw [if_neg (fun hand => hand.2 hzero), if_pos hzero]
    rfl
  · rw [if_pos ⟨hbase, hzero⟩, if_neg hzero]
    rfl

/-- An induction over the digits of a number, from the first one on. -/
theorem digitsInduction (h : IsBase Base) {motive : ℕ → Prop} (one : ∀ Value, Value / Base = 0 → motive Value)
    (more : ∀ Value, Value / Base ≠ 0 → motive (Value / Base) → motive Value) (Value : ℕ) : motive Value := by
  have hbase : 1 < Base := lt_of_lt_of_le (by decide) h.le.1
  induction Value using Nat.strong_induction_on with
  | _ Value ih =>
    by_cases hzero : Value / Base = 0
    · exact one Value hzero
    · have hpos : 0 < Value := Nat.pos_of_ne_zero fun hv => hzero (by rw [hv, Nat.zero_div])
      exact more Value hzero (ih _ (Nat.div_lt_self hpos hbase))

theorem logFormatNumber_ne_nil (h : IsBase Base) (UpperCase : Bool) (Value : ℕ) :
    logFormatNumber Base UpperCase Value ≠ [] := by
  rw [logFormatNumber_eq h]
  exact List.append_ne_nil_of_right_ne_nil _ (List.cons_ne_nil _ _)

theorem mem_logFormatNumber (h : IsBase Base) (hc : c ∈ logFormatNumber Base UpperCase Value) :
    ∃ d < Base, c = character UpperCase d := by
  have hpos : 0 < Base := lt_of_lt_of_le (by decide) h.le.1
  induction Value using digitsInduction h with
  | one Value hzero =>
    rw [logFormatNumber_eq h, if_pos hzero, List.nil_append, List.mem_singleton] at hc
    exact ⟨_, Nat.mod_lt _ hpos, hc⟩
  | more Value hne ih =>
    rw [logFormatNumber_eq h, if_neg hne, List.mem_append, List.mem_singleton] at hc
    exact hc.elim ih fun hc => ⟨_, Nat.mod_lt _ hpos, hc⟩

theorem digits_character (h : IsBase Base) (n : ℕ) {d : ℕ} (hd : d < Base) (rest : List UInt8) :
    digits Base n (character UpperCase d :: rest) = digits Base (n * Base + d) rest := by
  rw [digits, (digit_character h hd).1]

/-- **The digits read back as the number.** -/
theorem digits_logFormatNumber (h : IsBase Base) (UpperCase : Bool) (Value : ℕ) (rest : List UInt8) :
    digits Base 0 (logFormatNumber Base UpperCase Value ++ rest) = digits Base Value rest := by
  have hpos : 0 < Base := lt_of_lt_of_le (by decide) h.le.1
  induction Value using digitsInduction h generalizing rest with
  | one Value hzero =>
    have hlt : Value < Base := (Nat.div_eq_zero_iff_lt hpos).mp hzero
    rw [logFormatNumber_eq h, if_pos hzero, List.nil_append, List.singleton_append,
      digits_character h 0 (Nat.mod_lt _ hpos), Nat.zero_mul, Nat.zero_add, Nat.mod_eq_of_lt hlt]
  | more Value hne ih =>
    rw [logFormatNumber_eq h, if_neg hne, List.append_assoc, ih, List.singleton_append,
      digits_character h _ (Nat.mod_lt _ hpos), Nat.div_add_mod']

/-- The first digit of a number is not `0`, except for the one of zero. -/
theorem eq_zero_of_head (h : IsBase Base) (hhead : (logFormatNumber Base UpperCase Value).head? = some 48) :
    Value = 0 := by
  have hpos : 0 < Base := lt_of_lt_of_le (by decide) h.le.1
  induction Value using digitsInduction h with
  | one Value hzero =>
    have hlt : Value < Base := (Nat.div_eq_zero_iff_lt hpos).mp hzero
    rw [logFormatNumber_eq h, if_pos hzero, List.nil_append, List.head?_cons, Nat.mod_eq_of_lt hlt] at hhead
    exact (digit_character h hlt).2.2.2.2 (Option.some.inj hhead)
  | more Value hne ih =>
    rw [logFormatNumber_eq h, if_neg hne, List.head?_append_of_ne_nil _ (logFormatNumber_ne_nil h _ _)] at hhead
    exact absurd (ih hhead) hne

theorem length_logFormatNumber_le (h : IsBase Base) (n : ℕ) (hlt : Value < Base ^ (n + 1)) :
    (logFormatNumber Base UpperCase Value).length ≤ n + 1 := by
  induction n generalizing Value with
  | zero =>
    have hzero : Value / Base = 0 := Nat.div_eq_of_lt (by simpa using hlt)
    rw [logFormatNumber_eq h, if_pos hzero]
    exact le_rfl
  | succ n ih =>
    rw [logFormatNumber_eq h, List.length_append, List.length_singleton]
    refine Nat.succ_le_succ ?_
    split_ifs
    · exact Nat.zero_le _
    · exact ih (Nat.div_lt_of_lt_mul (by rwa [← pow_succ']))

/-- A digit and the `NUL` after it. -/
theorem write_digit (held rest : List UInt8) (digit : UInt8) (hlt : 1 < rest.length) :
    ((write (held ++ rest) held.length [digit]).bind fun Buffer =>
      (write Buffer (held.length + 1) [0]).map fun Buffer => (Buffer, held.length + 1)) =
    some (held ++ ([digit] ++ 0 :: rest.drop 2), held.length + 1) := by
  have hdigit := write_append held rest [digit] hlt.le
  have hzero := write_append (held ++ [digit]) (rest.drop 1) [0] (by
    rw [List.length_drop, List.length_singleton]
    omega)
  rw [List.length_append, List.length_singleton, List.drop_drop] at hzero
  rw [hdigit, Option.bind_some, List.length_singleton, hzero, Option.map_some]
  simp

/-- **What `LogFormatNumber` writes**: the digits and a `NUL`. What follows them in the buffer stays. -/
theorem logFormatNumberAt_append (h : IsBase Base) (UpperCase : Bool) (Value : ℕ) (held rest : List UInt8)
    (hlt : (logFormatNumber Base UpperCase Value).length < rest.length) :
    logFormatNumberAt Base UpperCase Value (held ++ rest) held.length =
      some (held ++ (logFormatNumber Base UpperCase Value ++
        0 :: rest.drop ((logFormatNumber Base UpperCase Value).length + 1)),
        held.length + (logFormatNumber Base UpperCase Value).length) := by
  have hbase : 1 < Base := lt_of_lt_of_le (by decide) h.le.1
  induction Value using digitsInduction h with
  | one Value hzero =>
    rw [logFormatNumber_eq h, if_pos hzero, List.nil_append] at hlt ⊢
    rw [logFormatNumberAt, if_neg (fun hand => hand.2 hzero)]
    exact write_digit held rest _ hlt
  | more Value hne ih =>
    rw [logFormatNumber_eq h, if_neg hne, List.length_append, List.length_singleton] at hlt ⊢
    rw [logFormatNumberAt, if_pos ⟨hbase, hne⟩, ih (by omega), Option.bind_some]
    have hdigit := write_digit (held ++ logFormatNumber Base UpperCase (Value / Base))
      (0 :: rest.drop ((logFormatNumber Base UpperCase (Value / Base)).length + 1))
      (character UpperCase (Value % Base)) (by
        rw [List.length_cons, List.length_drop]
        omega)
    rw [List.length_append, List.append_assoc, List.drop_succ_cons, List.drop_drop] at hdigit
    refine hdigit.trans ?_
    simp [Nat.add_assoc]

/-- **What `LOG_FORMAT_NUMBER` leaves in the buffer**: the text and its `NUL`. -/
theorem formatNumberAt_eq (bits : ℕ) (Character : UInt8) (argument : UInt64) (Buffer : List UInt8)
    (hlt : (formatNumber bits Character argument).length < Buffer.length) :
    formatNumberAt bits Character argument Buffer =
      some (formatNumber bits Character argument ++
        0 :: Buffer.drop ((formatNumber bits Character argument).length + 1)) := by
  have hbase := isBase_base Character
  by_cases hneg : Character = 100 ∧ 2 ^ (bits - 1) ≤ argument.toNat % 2 ^ bits
  · have htext : formatNumber bits Character argument = 45 :: logFormatNumber (base Character)
        (Character = 112 ∨ Character = 88) (2 ^ bits - argument.toNat % 2 ^ bits) := if_pos hneg
    rw [htext] at hlt ⊢
    cases Buffer with
    | nil => exact absurd hlt (Nat.not_lt_zero _)
    | cons b rest =>
      have hminus : write (b :: rest) 0 [45] = some ([45] ++ rest) := write_over [b] rest [45] rfl
      have hnumber := logFormatNumberAt_append hbase (Character = 112 ∨ Character = 88)
        (2 ^ bits - argument.toNat % 2 ^ bits) [45] rest (Nat.lt_of_succ_lt_succ hlt)
      rw [List.length_singleton] at hnumber
      dsimp only [formatNumberAt]
      rw [if_pos hneg, hminus, Option.bind_some, hnumber]
      rfl
  · have htext : formatNumber bits Character argument = logFormatNumber (base Character)
        (Character = 112 ∨ Character = 88) (argument.toNat % 2 ^ bits) := if_neg hneg
    rw [htext] at hlt ⊢
    have hnumber := logFormatNumberAt_append hbase (Character = 112 ∨ Character = 88)
      (argument.toNat % 2 ^ bits) [] Buffer hlt
    dsimp only [formatNumberAt]
    rw [if_neg hneg]
    exact congrArg (Option.map Prod.fst) hnumber

/-! ## Reading back -/

/-- The value of an argument in its type, which is signed for `d`. -/
def argumentValue (bits : ℕ) (Character : UInt8) (argument : UInt64) : ℤ :=
  if Character = 100 then (argument.toBitVec.setWidth bits).toInt else (argument.toBitVec.setWidth bits).toNat

/-- The number of a text, which is digits after a sign, if there is one. -/
def parse (Base : ℕ) (text : List UInt8) : Option ℤ :=
  (digits Base 0 ((skipSign text).2 ++ [0])).bind fun (n, rest) =>
    if (skipSign text).2 ≠ [] ∧ rest = [0] then some (if (skipSign text).1 then -n else n) else none

/-- A text reads back as the argument; it does not begin with a zero, and fits in `Buffer`. -/
structure Reads (bits : ℕ) (Character : UInt8) (argument : UInt64) (text : List UInt8) : Prop where
  value : parse (base Character) text = some (argumentValue bits Character argument)
  leading : (skipSign text).2.head? = some 48 → text = [48]
  length : text.length ≤ 22
  ended : 0 ∉ text

theorem parse_logFormatNumber (h : IsBase Base) (UpperCase : Bool) (Value : ℕ) {text : List UInt8} {minus : Bool}
    (hsign : skipSign text = (minus, logFormatNumber Base UpperCase Value)) :
    parse Base text = some (if minus then -(Value : ℤ) else Value) := by
  have hdigits : digits Base Value [0] = some (Value, [0]) := by
    rw [digits, CString.digit_zero]
  rw [parse, hsign, digits_logFormatNumber h, hdigits]
  exact if_pos ⟨logFormatNumber_ne_nil h UpperCase Value, rfl⟩

/-- A number does not begin with a sign. -/
theorem skipSign_logFormatNumber (h : IsBase Base) (UpperCase : Bool) (Value : ℕ) :
    skipSign (logFormatNumber Base UpperCase Value) = (false, logFormatNumber Base UpperCase Value) := by
  obtain ⟨c, text, htext⟩ := List.exists_cons_of_ne_nil (logFormatNumber_ne_nil h UpperCase Value)
  obtain ⟨d, hd, rfl⟩ := mem_logFormatNumber h (by rw [htext]; exact List.mem_cons_self : c ∈ _)
  have hsigns : character UpperCase d ≠ 45 ∧ character UpperCase d ≠ 43 :=
    ⟨(digit_character h hd).2.2.1, (digit_character h hd).2.2.2.1⟩
  rw [htext, skipSign, if_neg hsigns.1, if_neg hsigns.2]

theorem zero_notMem_logFormatNumber (h : IsBase Base) : 0 ∉ logFormatNumber Base UpperCase Value := by
  intro hmem
  obtain ⟨d, hd, heq⟩ := mem_logFormatNumber h hmem
  exact (digit_character h hd).2.1 heq.symm

/-- **Every number reads back as itself.** -/
theorem formatNumber_reads {bits : ℕ} (hbits : bits = 32 ∨ bits = 64) (Character : UInt8) (argument : UInt64) :
    Reads bits Character argument (formatNumber bits Character argument) := by
  have hbase := isBase_base Character
  have htoNat : (argument.toBitVec.setWidth bits).toNat = argument.toNat % 2 ^ bits := BitVec.toNat_setWidth _ _
  have hlt : argument.toNat % 2 ^ bits < 2 ^ bits := Nat.mod_lt _ (Nat.two_pow_pos bits)
  have htoInt := BitVec.toInt_eq_toNat_cond (argument.toBitVec.setWidth bits)
  rw [htoNat] at htoInt
  have hle : 2 ^ bits ≤ 8 ^ 22 := by rcases hbits with rfl | rfl <;> decide
  have hhalf : 2 * 2 ^ (bits - 1) = 2 ^ bits := by rcases hbits with rfl | rfl <;> rfl
  by_cases hneg : Character = 100 ∧ 2 ^ (bits - 1) ≤ argument.toNat % 2 ^ bits
  · have htext : formatNumber bits Character argument = 45 :: logFormatNumber (base Character)
        (Character = 112 ∨ Character = 88) (2 ^ bits - argument.toNat % 2 ^ bits) := if_pos hneg
    rw [htext]
    obtain ⟨rfl, hneg⟩ := hneg
    refine ⟨?_, fun hhead => ?_, ?_, ?_⟩
    · have hvalue : argumentValue bits 100 argument = (argument.toNat % 2 ^ bits : ℕ) - (2 ^ bits : ℕ) := by
        rw [argumentValue, if_pos rfl, htoInt, if_neg (by omega)]
      rw [parse_logFormatNumber hbase _ _ rfl, hvalue, if_pos rfl, Int.ofNat_sub hlt.le, Int.neg_sub]
    · have hzero := eq_zero_of_head hbase hhead
      omega
    · rw [List.length_cons]
      refine Nat.succ_le_succ (length_logFormatNumber_le hbase 20 ?_)
      have hbound : 2 ^ (bits - 1) < 10 ^ 21 := by rcases hbits with rfl | rfl <;> decide
      exact lt_of_le_of_lt (by omega) hbound
    · exact List.not_mem_cons_of_ne_of_not_mem (by decide) (zero_notMem_logFormatNumber hbase)
  · have htext : formatNumber bits Character argument = logFormatNumber (base Character)
        (Character = 112 ∨ Character = 88) (argument.toNat % 2 ^ bits) := if_neg hneg
    rw [htext]
    have hsign := skipSign_logFormatNumber hbase (Character = 112 ∨ Character = 88) (argument.toNat % 2 ^ bits)
    refine ⟨?_, fun hhead => ?_, ?_, zero_notMem_logFormatNumber hbase⟩
    · rw [parse_logFormatNumber hbase _ _ hsign, argumentValue, htoInt, htoNat, if_neg Bool.false_ne_true]
      split_ifs with hd hcond
      · rfl
      · exact absurd ⟨hd, by omega⟩ hneg
      · rfl
    · rw [hsign] at hhead
      rw [eq_zero_of_head hbase hhead, logFormatNumber_eq hbase, Nat.zero_div, if_pos rfl, Nat.zero_mod]
      rfl
    · refine length_logFormatNumber_le hbase 21 ?_
      calc argument.toNat % 2 ^ bits < 2 ^ bits := hlt
        _ ≤ 8 ^ 22 := hle
        _ ≤ base Character ^ 22 := Nat.pow_le_pow_left hbase.le.1 22

end XenBus.Log
