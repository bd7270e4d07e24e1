import Mathlib.Data.List.Infix
import Mathlib.Tactic.Cases

/-!
# Reading strings out of a buffer

The C functions on strings read bytes until one of them tells them to stop. Here the bytes of a buffer from
a position on are a list, and a read beyond the last of them has no result (`none`), so a function that
has a result has stayed in the buffer. A buffer at `NULL` is one without bytes.

A string that is ended by a `NUL` in the buffer is safe to read with each of them (`cString_isSome`,
`strncmp_isSome`, `strtoul_of_nul`). `strtoul_eq_none_iff` says for which bytes the parser of decimal
numbers leaves the buffer.
-/

namespace CString

variable {p : UInt8 → Bool} {l : List UInt8} {base : ℕ}

/-! ## Functions -/

/-- The string at the position, without its `NUL`. -/
def cString : List UInt8 → Option (List UInt8)
  | [] => none
  | b :: bs => if b = 0 then some [] else (cString bs).map (b :: ·)

/-- `strncmp(l, s, n) == 0`, where only `l` is in the buffer; `s` is without its `NUL`. -/
def strncmp : List UInt8 → List UInt8 → ℕ → Option Bool
  | _, _, 0 => some true
  | [], _, _ + 1 => none
  | a :: as, s, n + 1 =>
    if a ≠ s.headD 0 then some false else if a = 0 then some true else strncmp as s.tail n

/-- `isspace`. -/
def isSpace (b : UInt8) : Bool := b = 32 ∨ 9 ≤ b ∧ b ≤ 13

/-- The value of a digit. -/
def digit (base : ℕ) (b : UInt8) : Option ℕ :=
  let value :=
    if 48 ≤ b ∧ b ≤ 57 then b.toNat - 48
    else if 97 ≤ b ∧ b ≤ 122 then b.toNat - 87
    else if 65 ≤ b ∧ b ≤ 90 then b.toNat - 55
    else base
  if value < base then some value else none

/-- The bytes from the first one on that does not have the property. -/
def skipWhile (p : UInt8 → Bool) : List UInt8 → Option (List UInt8)
  | [] => none
  | b :: bs => if p b then skipWhile p bs else some (b :: bs)

/-- The bytes after a sign, and whether it is a minus. -/
def skipSign : List UInt8 → Bool × List UInt8
  | [] => (false, [])
  | b :: bs => if b = 45 then (true, bs) else if b = 43 then (false, bs) else (false, b :: bs)

/-- The bytes after `0x` or `0X`, if the base is 16. -/
def skipPrefix (base : ℕ) : List UInt8 → Option (List UInt8)
  | [] => none
  | [b] => if base = 16 ∧ b = 48 then none else some [b]
  | b :: x :: rest =>
    if (base = 16 ∧ b = 48) ∧ (x = 120 ∨ x = 88) then some rest else some (b :: x :: rest)

/-- The number that the digits make up, from `n` on, and the bytes after them. -/
def digits (base : ℕ) : ℕ → List UInt8 → Option (ℕ × List UInt8)
  | _, [] => none
  | n, b :: bs =>
    match digit base b with
    | some d => digits base (n * base + d) bs
    | none => some (n, b :: bs)

/-- `strtoul` and its kin, of which `max` is the largest value: the value, and the bytes from `*End` on. -/
def strtoul (max base : ℕ) (l : List UInt8) : Option (ℕ × List UInt8) :=
  (skipWhile isSpace l).bind fun unspaced =>
    (skipPrefix base (skipSign unspaced).2).bind fun number =>
      (digits base 0 number).map fun (n, rest) =>
        if rest.length = number.length then (0, l)
        else (if (skipSign unspaced).1 then (max + 1 - min n max) % (max + 1) else min n max, rest)

/-! ## Strings that are ended by a NUL -/

theorem cString_isSome : (cString l).isSome ↔ 0 ∈ l := by
  induction l with
  | nil => simp [cString]
  | cons b bs ih =>
    unfold cString
    split_ifs with hb
    · simp [hb]
    · rw [Option.isSome_map, ih, List.mem_cons, or_iff_right (Ne.symm hb)]

theorem cString_append {s : List UInt8} (h : 0 ∉ s) (rest : List UInt8) :
    cString (s ++ 0 :: rest) = some s := by
  induction s with
  | nil => exact if_pos rfl
  | cons b bs ih =>
    obtain ⟨hb, hbs⟩ := not_or.mp (List.mem_cons.not.mp h)
    rw [List.cons_append, cString, if_neg (Ne.symm hb), ih hbs]
    rfl

/-- Compared with the whole of a string, the bytes match if they begin with it. -/
theorem strncmp_eq_true {s : List UInt8} (h : 0 ∉ s) : strncmp l s s.length = some true ↔ s <+: l := by
  induction s generalizing l with
  | nil => exact iff_of_true (by cases l <;> rfl) List.nil_prefix
  | cons c s ih =>
    obtain ⟨hc, hs⟩ := not_or.mp (List.mem_cons.not.mp h)
    cases l with
    | nil => simp [strncmp]
    | cons a as =>
      rw [List.length_cons, strncmp, List.headD_cons, List.tail_cons, List.cons_prefix_cons]
      split_ifs with hne hzero
      · exact iff_of_false (by simp) fun hpre => hne hpre.1.symm
      · exact absurd (hzero.symm.trans (not_ne_iff.mp hne)) hc
      · rw [ih hs, and_iff_right (not_ne_iff.mp hne).symm]

theorem strncmp_isSome {n : ℕ} (s : List UInt8) (h : n ≤ l.length) : (strncmp l s n).isSome := by
  induction n generalizing l s with
  | zero => cases l <;> rfl
  | succ n ih =>
    cases l with
    | nil => exact absurd h (by simp)
    | cons a as =>
      unfold strncmp
      split_ifs
      · rfl
      · rfl
      · exact ih s.tail (Nat.le_of_succ_le_succ h)

theorem skipWhile_of_nul (hp : p 0 = false) (h : 0 ∈ l) :
    ∃ rest, skipWhile p l = some rest ∧ 0 ∈ rest := by
  induction l with
  | nil => exact absurd h List.not_mem_nil
  | cons b bs ih =>
    unfold skipWhile
    split_ifs with hb
    · refine ih (List.mem_of_ne_of_mem (fun heq => ?_) h)
      rw [← heq, hp] at hb
      exact Bool.false_ne_true hb
    · exact ⟨_, rfl, h⟩

theorem skipSign_of_nul (h : 0 ∈ l) : 0 ∈ (skipSign l).2 := by
  cases l with
  | nil => exact h
  | cons b bs =>
    rw [skipSign]
    split_ifs with hminus hplus
    · exact List.mem_of_ne_of_mem (by rw [hminus]; decide) h
    · exact List.mem_of_ne_of_mem (by rw [hplus]; decide) h
    · exact h

theorem skipPrefix_of_nul (base : ℕ) (h : 0 ∈ l) : ∃ rest, skipPrefix base l = some rest ∧ 0 ∈ rest := by
  match l with
  | [] => exact absurd h List.not_mem_nil
  | [b] =>
    obtain rfl := List.mem_singleton.mp h
    exact ⟨[0], if_neg fun hb => absurd hb.2 (by decide), h⟩
  | b :: x :: rest =>
    rw [skipPrefix]
    split_ifs with hb
    · obtain ⟨⟨-, rfl⟩, hx⟩ := hb
      refine ⟨rest, rfl, ?_⟩
      have hrest : 0 ∈ x :: rest := List.mem_of_ne_of_mem (by decide) h
      refine List.mem_of_ne_of_mem ?_ hrest
      obtain rfl | rfl := hx <;> decide
    · exact ⟨_, rfl, h⟩

theorem digit_zero (base : ℕ) : digit base 0 = none := by
  simp [digit]

theorem digits_of_nul (base n : ℕ) (h : 0 ∈ l) : ∃ m rest, digits base n l = some (m, rest) ∧ 0 ∈ rest := by
  induction l generalizing n with
  | nil => exact absurd h List.not_mem_nil
  | cons b bs ih =>
    unfold digits
    cases hd : digit base b with
    | none => exact ⟨n, b :: bs, rfl, h⟩
    | some d =>
      refine ih _ (List.mem_of_ne_of_mem (fun heq => ?_) h)
      rw [← heq, digit_zero] at hd
      cases hd

/-- A number that is ended by a `NUL` is read within the buffer, up to the `NUL` at most. -/
theorem strtoul_of_nul (max base : ℕ) (h : 0 ∈ l) :
    ∃ n rest, strtoul max base l = some (n, rest) ∧ 0 ∈ rest := by
  obtain ⟨unspaced, hspace, hunspaced⟩ := skipWhile_of_nul (p := isSpace) rfl h
  obtain ⟨number, hprefix, hnumber⟩ := skipPrefix_of_nul base (skipSign_of_nul hunspaced)
  obtain ⟨n, rest, hdigits, hrest⟩ := digits_of_nul base 0 hnumber
  simp only [strtoul, hspace, hprefix, hdigits, Option.bind_some, Option.map_some]
  split_ifs
  · exact ⟨_, _, rfl, h⟩
  · exact ⟨_, _, rfl, hrest⟩
  · exact ⟨_, _, rfl, hrest⟩

/-! ## Decimal numbers that nothing ends -/

theorem skipWhile_eq_none : skipWhile p l = none ↔ ∀ b ∈ l, p b = true := by
  induction l with
  | nil => simp [skipWhile]
  | cons b bs ih =>
    unfold skipWhile
    split_ifs with hb
    · simp [ih, hb]
    · simp [hb]

theorem skipWhile_eq_some {rest : List UInt8} (h : skipWhile p l = some rest) :
    ∃ skipped, l = skipped ++ rest ∧ ∀ b ∈ skipped, p b = true := by
  induction l with
  | nil => cases h
  | cons b bs ih =>
    unfold skipWhile at h
    split_ifs at h with hb
    · obtain ⟨skipped, rfl, hskipped⟩ := ih h
      exact ⟨b :: skipped, rfl, List.forall_mem_cons.mpr ⟨hb, hskipped⟩⟩
    · obtain rfl := Option.some.inj h
      exact ⟨[], rfl, by simp⟩

/-- What is skipped is skipped, up to a byte without the property. -/
theorem skipWhile_append {skipped : List UInt8} (rest : List UInt8) (h : ∀ b ∈ skipped, p b = true) :
    skipWhile p (skipped ++ rest) = skipWhile p rest := by
  induction skipped with
  | nil => rfl
  | cons b skipped ih =>
    obtain ⟨hb, hskipped⟩ := List.forall_mem_cons.mp h
    rw [List.cons_append, skipWhile, if_pos hb, ih hskipped]

theorem digits_eq_none {n : ℕ} : digits base n l = none ↔ ∀ b ∈ l, (digit base b).isSome := by
  induction l generalizing n with
  | nil => simp [digits]
  | cons b bs ih =>
    unfold digits
    cases hd : digit base b with
    | none => simp [hd]
    | some d => simp [hd, ih]

theorem skipPrefix_of_ne (hbase : base ≠ 16) (h : l ≠ []) : skipPrefix base l = some l := by
  match l with
  | [] => exact absurd rfl h
  | [b] => exact if_neg fun hb => hbase hb.1
  | b :: x :: rest => exact if_neg fun hb => hbase hb.1.1

/-- Nothing in the buffer ends the number: spaces, a sign and digits. -/
def Unended (l : List UInt8) : Prop :=
  ∃ spaces sign number, l = spaces ++ (sign ++ number) ∧ (∀ b ∈ spaces, isSpace b = true) ∧
    (sign = [] ∨ sign = [43] ∨ sign = [45]) ∧ ∀ b ∈ number, (digit 10 b).isSome

theorem digit_isSome_iff {b : UInt8} : (digit 10 b).isSome ↔ 48 ≤ b.toNat ∧ b.toNat ≤ 57 := by
  simp only [digit, UInt8.le_iff_toNat_le, UInt8.reduceToNat]
  constructor
  · intro h
    by_contra hnot
    rw [if_neg hnot] at h
    split_ifs at h <;> simp_all <;> omega
  · intro h
    rw [if_pos h, if_pos (by omega)]
    rfl

/-- A decimal digit is neither a space nor a sign. -/
theorem of_digit {b : UInt8} (h : (digit 10 b).isSome) : isSpace b = false ∧ b ≠ 45 ∧ b ≠ 43 := by
  rw [digit_isSome_iff] at h
  simp only [isSpace, decide_eq_false_iff_not, ← UInt8.toNat_inj, ne_eq, UInt8.le_iff_toNat_le,
    UInt8.reduceToNat]
  omega

/-- What follows the sign decides. -/
theorem strtoul_of_unspaced (max : ℕ) {unspaced : List UInt8} (h : skipWhile isSpace l = some unspaced) :
    strtoul max 10 l = none ↔ ∀ b ∈ (skipSign unspaced).2, (digit 10 b).isSome := by
  unfold strtoul
  rw [h, Option.bind_some, ← digits_eq_none]
  by_cases hnil : (skipSign unspaced).2 = []
  · rw [hnil]
    exact iff_of_true rfl rfl
  · rw [skipPrefix_of_ne (by decide) hnil, Option.bind_some, Option.map_eq_none_iff]

/-- **The parser leaves the buffer exactly if nothing in it ends the number.** -/
theorem strtoul_eq_none_iff (max : ℕ) : strtoul max 10 l = none ↔ Unended l := by
  constructor
  · intro hnone
    cases hspace : skipWhile isSpace l with
    | none => exact ⟨l, [], [], by simp, skipWhile_eq_none.mp hspace, .inl rfl, by simp⟩
    | some unspaced =>
      obtain ⟨spaces, rfl, hspaces⟩ := skipWhile_eq_some hspace
      have hnumber := (strtoul_of_unspaced max hspace).mp hnone
      cases unspaced with
      | nil => exact ⟨spaces, [], [], rfl, hspaces, .inl rfl, by simp⟩
      | cons b bs =>
        rw [skipSign] at hnumber
        split_ifs at hnumber with hminus hplus
        · exact ⟨spaces, [45], bs, by rw [hminus]; rfl, hspaces, .inr (.inr rfl), hnumber⟩
        · exact ⟨spaces, [43], bs, by rw [hplus]; rfl, hspaces, .inr (.inl rfl), hnumber⟩
        · exact ⟨spaces, [], b :: bs, rfl, hspaces, .inl rfl, hnumber⟩
  · rintro ⟨spaces, sign, number, rfl, hspaces, hsign, hnumber⟩
    have hskip := skipWhile_append (sign ++ number) hspaces
    cases hrest : sign ++ number with
    | nil =>
      rw [hrest] at hskip
      rw [strtoul, hskip]
      rfl
    | cons b bs =>
      -- the rest begins with a sign or with a digit, neither of which is a space
      have hb : isSpace b = false ∧ ∀ c ∈ (skipSign (b :: bs)).2, (digit 10 c).isSome := by
        obtain rfl | rfl | rfl := hsign
        · obtain rfl : number = b :: bs := hrest
          obtain ⟨hspace, hminus, hplus⟩ := of_digit (hnumber b List.mem_cons_self)
          rw [skipSign, if_neg hminus, if_neg hplus]
          exact ⟨hspace, hnumber⟩
        · obtain ⟨rfl, rfl⟩ := List.cons.inj hrest
          exact ⟨rfl, hnumber⟩
        · obtain ⟨rfl, rfl⟩ := List.cons.inj hrest
          exact ⟨rfl, hnumber⟩
      rw [hrest, skipWhile, if_neg (by rw [hb.1]; exact Bool.false_ne_true)] at hskip
      exact (strtoul_of_unspaced max hskip).mpr hb.2

end CString
