import XenBus.Foundations.CString
import Mathlib.Tactic.Ring

/-!
# Printing numbers, and reading them back

A number is printed in a fixed number of hexadecimal digits, the first one first, and the parsers of
`CString` read it back, up to a byte that is not a digit (`strtoul_hex`). The other way round, what a parser
reads is a text that, on its own, is read as the same number (`strtoul_reads`).
-/

namespace CString

variable {l text rest : List UInt8} {base n m : ℕ}

/-! ## Printing -/

/-- An upper-case hexadecimal digit. -/
def hexDigit (d : ℕ) : UInt8 := UInt8.ofNat (if d < 10 then 48 + d else 55 + d)

/-- The last `width` hexadecimal digits of a number. -/
def hex : ℕ → ℕ → List UInt8
  | 0, _ => []
  | width + 1, n => hex width (n / 16) ++ [hexDigit (n % 16)]

theorem length_hex (width n : ℕ) : (hex width n).length = width := by
  induction width generalizing n with
  | zero => rfl
  | succ width ih => rw [hex, List.length_append, ih, List.length_singleton]

theorem mem_hex {width : ℕ} {b : UInt8} (h : b ∈ hex width n) : ∃ d < 16, b = hexDigit d := by
  induction width generalizing n with
  | zero => exact absurd h List.not_mem_nil
  | succ width ih =>
    rw [hex, List.mem_append, List.mem_singleton] at h
    rcases h with hinit | rfl
    · exact ih hinit
    · exact ⟨n % 16, Nat.mod_lt _ (by decide), rfl⟩

/-- A digit is read as its value, and is neither a space nor a sign nor the `x` of a prefix nor `NUL`. -/
theorem digit_hexDigit {d : ℕ} (h : d < 16) : digit 16 (hexDigit d) = some d ∧ isSpace (hexDigit d) = false ∧
    hexDigit d ≠ 45 ∧ hexDigit d ≠ 43 ∧ hexDigit d ≠ 120 ∧ hexDigit d ≠ 88 ∧ hexDigit d ≠ 0 := by
  revert d
  decide

theorem digits_append_hex (width : ℕ) (acc : ℕ) (hn : n < 16 ^ width) (rest : List UInt8) :
    digits 16 acc (hex width n ++ rest) = digits 16 (acc * 16 ^ width + n) rest := by
  induction width generalizing n rest with
  | zero =>
    obtain rfl : n = 0 := by omega
    rw [hex, List.nil_append, pow_zero, Nat.mul_one, Nat.add_zero]
  | succ width ih =>
    have hdigit := (digit_hexDigit (Nat.mod_lt n (show 16 > 0 by decide))).1
    have hdiv : n / 16 < 16 ^ width := Nat.div_lt_of_lt_mul (by rwa [pow_succ, Nat.mul_comm] at hn)
    rw [hex, List.append_assoc, ih hdiv, List.singleton_append, digits, hdigit]
    show digits 16 _ rest = _
    congr 1
    have := Nat.div_add_mod n 16
    rw [pow_succ, Nat.add_mul, Nat.mul_assoc]
    omega

theorem skipWhile_of_head {p : UInt8 → Bool} {b : UInt8} {bs : List UInt8} (h : p b = false) :
    skipWhile p (b :: bs) = some (b :: bs) :=
  if_neg (by rw [h]; exact Bool.false_ne_true)

/-- A number of digits, one at least, behind spaces, a sign and a prefix. -/
theorem strtoul_of_digits {unspaced number : List UInt8} (max : ℕ)
    (hspace : skipWhile isSpace l = some unspaced)
    (hnumbers : skipPrefix base (skipSign unspaced).2 = some number)
    (hdigits : digits base 0 number = some (m, rest)) (hlength : rest.length ≠ number.length) :
    strtoul max base l =
      some (if (skipSign unspaced).1 then (max + 1 - min m max) % (max + 1) else min m max, rest) := by
  simp only [strtoul, hspace, hnumbers, hdigits, Option.bind_some, Option.map_some, if_neg hlength]

/-- **A number that has been printed is read back.** -/
theorem strtoul_hex (width max : ℕ) {b : UInt8} (hwidth : 0 < width) (hn : n < 16 ^ width) (hmax : n ≤ max)
    (hb : digit 16 b = none) (hx : b ≠ 120 ∧ b ≠ 88) (rest : List UInt8) :
    strtoul max 16 (hex width n ++ b :: rest) = some (n, b :: rest) := by
  have hlength := length_hex width n
  have hdigits : digits 16 0 (hex width n ++ b :: rest) = some (n, b :: rest) := by
    rw [digits_append_hex width 0 hn, Nat.zero_mul, Nat.zero_add, digits, hb]
  cases hhex : hex width n with
  | nil =>
    rw [hhex] at hlength
    exact absurd hlength hwidth.ne
  | cons c cs =>
    have hall : ∀ a ∈ c :: cs, ∃ d < 16, a = hexDigit d := fun a ha => mem_hex (hhex ▸ ha)
    obtain ⟨d, hd, rfl⟩ := hall c List.mem_cons_self
    obtain ⟨-, hspace, hminus, hplus, -⟩ := digit_hexDigit hd
    rw [hhex] at hdigits
    -- the byte behind the first digit is no `x`: it is another digit or the byte that ends the number
    have hnumbers : skipPrefix 16 (hexDigit d :: cs ++ b :: rest) = some (hexDigit d :: cs ++ b :: rest) := by
      cases cs with
      | nil => exact if_neg fun hpre => hpre.2.elim hx.1 hx.2
      | cons x cs =>
        obtain ⟨d', hd', rfl⟩ := hall x (List.mem_cons_of_mem _ List.mem_cons_self)
        obtain ⟨-, -, -, -, hx120, hx88, -⟩ := digit_hexDigit hd'
        exact if_neg fun hpre => hpre.2.elim hx120 hx88
    have hskip : skipWhile isSpace (hexDigit d :: cs ++ b :: rest) = some (hexDigit d :: cs ++ b :: rest) :=
      skipWhile_of_head hspace
    have hsign : skipSign (hexDigit d :: cs ++ b :: rest) = (false, hexDigit d :: cs ++ b :: rest) := by
      rw [List.cons_append, skipSign, if_neg hminus, if_neg hplus]
    have hshorter : (b :: rest).length ≠ (hexDigit d :: cs ++ b :: rest).length := by
      rw [List.length_append, List.length_cons (a := hexDigit d)]
      omega
    rw [strtoul_of_digits max hskip (by rw [hsign]; exact hnumbers) hdigits hshorter, hsign,
      Nat.min_eq_left hmax]
    rfl

/-! ## What is read -/

/-- What is skipped has no `NUL`. -/
theorem not_mem_of_isSpace {spaces : List UInt8} (h : ∀ b ∈ spaces, isSpace b = true) : 0 ∉ spaces :=
  fun hzero => absurd (h 0 hzero) (by decide)

theorem skipWhile_head {p : UInt8 → Bool} (h : skipWhile p l = some rest) :
    ∃ b bs, rest = b :: bs ∧ p b = false := by
  induction l with
  | nil => cases h
  | cons b bs ih =>
    unfold skipWhile at h
    split_ifs at h with hb
    · exact ih h
    · exact ⟨b, bs, (Option.some.inj h).symm, Bool.eq_false_iff.mpr hb⟩

/-- A sign is taken whatever stands behind it, and if there is none, the first byte says so. -/
theorem skipSign_split (l : List UInt8) : ∃ sign, l = sign ++ (skipSign l).2 ∧ 0 ∉ sign ∧
    ∀ c cs, (skipSign l).2.head? = some c → skipSign (sign ++ c :: cs) = ((skipSign l).1, c :: cs) := by
  cases l with
  | nil => exact ⟨[], rfl, List.not_mem_nil, fun c cs hc => by cases hc⟩
  | cons b bs =>
    rw [skipSign]
    split_ifs with hminus hplus
    · exact ⟨[45], by rw [hminus]; rfl, by decide, fun c cs _ => rfl⟩
    · exact ⟨[43], by rw [hplus]; rfl, by decide, fun c cs _ => rfl⟩
    · refine ⟨[], rfl, List.not_mem_nil, fun c cs hc => ?_⟩
      obtain rfl : b = c := Option.some.inj hc
      rw [List.nil_append, skipSign, if_neg hminus, if_neg hplus]

/-- So is a prefix, and if there is none, the bytes up to the end of the digits say so. -/
theorem skipPrefix_split {number ds : List UInt8} {d : UInt8} (h : skipPrefix base l = some number)
    (hnumber : number = d :: ds ++ rest) (hrest : rest ≠ []) :
    ∃ before, l = before ++ number ∧ 0 ∉ before ∧
      skipPrefix base (before ++ (d :: ds ++ [0])) = some (d :: ds ++ [0]) := by
  match l with
  | [] => cases h
  | [b] =>
    rw [skipPrefix] at h
    split_ifs at h
    rw [← Option.some.inj h] at hnumber
    have hlength := congrArg List.length hnumber
    have hpos := List.length_pos_iff.mpr hrest
    simp only [List.length_append, List.length_cons, List.length_nil] at hlength
    omega
  | b :: x :: tail =>
    rw [skipPrefix] at h
    split_ifs at h with hpre
    · obtain rfl := Option.some.inj h
      refine ⟨[b, x], rfl, ?_, if_pos hpre⟩
      obtain ⟨⟨-, rfl⟩, rfl | rfl⟩ := hpre <;> decide
    · obtain rfl := Option.some.inj h
      refine ⟨[], rfl, List.not_mem_nil, ?_⟩
      obtain ⟨rfl, htail⟩ := List.cons.inj hnumber
      cases ds with
      | nil => exact if_neg fun hzero => absurd hzero.2 (by decide)
      | cons y ds =>
        obtain ⟨rfl, -⟩ := List.cons.inj htail
        exact if_neg hpre

theorem digits_split (h : digits base n l = some (m, rest)) :
    ∃ ds, l = ds ++ rest ∧ rest ≠ [] ∧ 0 ∉ ds ∧ digits base n (ds ++ [0]) = some (m, [0]) := by
  induction l generalizing n with
  | nil => cases h
  | cons b bs ih =>
    unfold digits at h
    cases hd : digit base b with
    | none =>
      rw [hd] at h
      obtain ⟨rfl, rfl⟩ := Prod.mk.inj (Option.some.inj h)
      exact ⟨[], rfl, List.cons_ne_nil _ _, List.not_mem_nil, by rw [List.nil_append, digits, digit_zero]⟩
    | some d =>
      rw [hd] at h
      obtain ⟨ds, rfl, hne, hzero, hread⟩ := ih h
      refine ⟨b :: ds, rfl, hne, fun hmem => ?_, by rw [List.cons_append, digits, hd]; exact hread⟩
      rcases List.mem_cons.mp hmem with rfl | hmem
      · rw [digit_zero] at hd
        cases hd
      · exact hzero hmem

/-- **What is read as a number is, on its own, a text of this number.** -/
theorem strtoul_reads {max : ℕ} (h : strtoul max base l = some (n, rest)) :
    ∃ text, l = text ++ rest ∧ 0 ∉ text ∧ strtoul max base (text ++ [0]) = some (n, [0]) := by
  obtain ⟨unspaced, hspace, hunspaced⟩ := Option.bind_eq_some_iff.mp h
  obtain ⟨number, hnumbers, hnumber⟩ := Option.bind_eq_some_iff.mp hunspaced
  obtain ⟨⟨m, rest'⟩, hdigits, hread⟩ := Option.map_eq_some_iff.mp hnumber
  obtain ⟨ds, rfl, hne, hzero, hends⟩ := digits_split hdigits
  cases ds with
  | nil =>
    -- without a digit nothing is read, and neither is it of the empty text
    obtain ⟨rfl, rfl⟩ := Prod.mk.inj ((if_pos rfl).symm.trans hread)
    refine ⟨[], rfl, List.not_mem_nil, ?_⟩
    simp [strtoul, skipWhile, isSpace, skipSign, skipPrefix, digits, digit_zero]
  | cons d ds =>
    have hlength : ∀ tail : List UInt8, tail.length ≠ (d :: ds ++ tail).length := by
      intro tail
      rw [List.length_append, List.length_cons]
      omega
    rw [strtoul_of_digits max hspace hnumbers hdigits (hlength _)] at h
    obtain ⟨hvalue, rfl⟩ := Prod.mk.inj (Option.some.inj h)
    obtain ⟨spaces, rfl, hspaces⟩ := skipWhile_eq_some hspace
    obtain ⟨b, bs, rfl, hb⟩ := skipWhile_head hspace
    obtain ⟨sign, hsign, hsign0, hsigned⟩ := skipSign_split (b :: bs)
    obtain ⟨before, hbefore, hbefore0, hbehind⟩ := skipPrefix_split hnumbers rfl hne
    -- the byte behind the sign, and that behind the spaces, are the same with the digits cut off behind
    obtain ⟨c, cs, hc⟩ := List.exists_cons_of_ne_nil (l := before ++ d :: ds) (by simp)
    have hnext : skipSign (sign ++ (before ++ (d :: ds ++ [0]))) =
        ((skipSign (b :: bs)).1, before ++ (d :: ds ++ [0])) := by
      rw [← List.append_assoc before, hc]
      refine hsigned c _ ?_
      rw [hbefore, ← List.append_assoc before, hc]
      rfl
    have hskip : skipWhile isSpace (spaces ++ (sign ++ (before ++ (d :: ds ++ [0])))) =
        some (sign ++ (before ++ (d :: ds ++ [0]))) := by
      obtain ⟨a, as, ha⟩ := List.exists_cons_of_ne_nil (l := sign ++ (before ++ d :: ds)) (by simp)
      have hfirst := hsign
      rw [hbefore, ← List.append_assoc before, ← List.append_assoc sign, ha] at hfirst
      obtain ⟨rfl, -⟩ := List.cons.inj hfirst
      rw [skipWhile_append _ hspaces, ← List.append_assoc before, ← List.append_assoc sign, ha]
      exact skipWhile_of_head hb
    refine ⟨spaces ++ (sign ++ (before ++ d :: ds)), ?_, ?_, ?_⟩
    · rw [hsign, hbefore]
      simp only [List.append_assoc]
    · simp only [List.mem_append, not_or]
      exact ⟨not_mem_of_isSpace hspaces, hsign0, hbefore0, hzero⟩
    · simp only [List.append_assoc]
      rw [strtoul_of_digits max hskip (by rw [hnext]; exact hbehind) hends (hlength _), hnext, hvalue]

end CString
