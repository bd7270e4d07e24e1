import Mathlib.Data.List.Infix
import Mathlib.Tactic.Cases
import Mathlib.Algebra.GroupWithZero.Nat

/-!
# Strings that are ended by a zero

A string is read up to the first unit that is zero, and a read beyond the buffer has no result (`none`). A
buffer may hold several strings, each with its zero (`joined`); such a list of strings is ended by one more
zero, so by two in a row.

* `string_isSome`: which strings end.
* `exists_joined`: what comes before two zeros in a row is a list of strings of which only the first may be
  empty.
-/

namespace Terminated

variable {α : Type*} [Zero α]

/-- The strings, each followed by a zero. -/
def joined (ss : List (List α)) : List α := ss.flatMap (· ++ [0])

/-- The strings are not empty, and there is no zero in them. -/
def Proper (ss : List (List α)) : Prop := ∀ s ∈ ss, s ≠ [] ∧ 0 ∉ s

/-- The buffer begins with a list of strings and the zero that ends it. -/
def Ended (l : List α) : Prop := ∃ ss rest, Proper ss ∧ l = joined ss ++ 0 :: rest

variable {l s rest : List α} {ss : List (List α)}

@[simp] theorem joined_nil : joined ([] : List (List α)) = [] := rfl

@[simp] theorem joined_cons (s : List α) (ss : List (List α)) : joined (s :: ss) = s ++ 0 :: joined ss := by
  simp [joined]

theorem proper_cons : Proper (s :: ss) ↔ (s ≠ [] ∧ 0 ∉ s) ∧ Proper ss := List.forall_mem_cons

theorem joined_length (ss : List (List α)) : (joined ss).length = (ss.map (·.length + 1)).sum := by
  induction ss with
  | nil => rfl
  | cons s ss ih =>
    rw [joined_cons, List.map_cons, List.sum_cons, ← ih]
    simp only [List.length_append, List.length_cons]
    omega

theorem length_le_joined (ss : List (List α)) : ss.length ≤ (joined ss).length := by
  induction ss with
  | nil => exact le_rfl
  | cons s ss ih =>
    rw [joined_cons, List.length_append, List.length_cons, List.length_cons]
    omega

theorem joined_append (ss ts : List (List α)) : joined (ss ++ ts) = joined ss ++ joined ts :=
  List.flatMap_append

theorem infix_joined (hs : s ∈ ss) (rest : List α) : s <:+: joined ss ++ rest := by
  obtain ⟨before, after, rfl⟩ := List.append_of_mem hs
  exact ⟨joined before, 0 :: joined after ++ rest, by simp [joined_append]⟩

theorem length_lt_joined (hs : s ∈ ss) : s.length < (joined ss).length := by
  obtain ⟨before, after, rfl⟩ := List.append_of_mem hs
  simp only [joined_append, joined_cons, List.length_append, List.length_cons]
  omega

/-- A list of strings does not begin with a zero. -/
theorem head_ne_zero (hss : Proper ss) (hne : ss ≠ []) (rest : List α) :
    ∃ c tail, c ≠ 0 ∧ joined ss ++ rest = c :: tail := by
  cases ss with
  | nil => exact absurd rfl hne
  | cons s ss =>
    obtain ⟨⟨hs, hzero⟩, -⟩ := proper_cons.mp hss
    obtain ⟨c, s, rfl⟩ := List.exists_cons_of_ne_nil hs
    exact ⟨c, s ++ 0 :: joined ss ++ rest, fun hc => hzero (by simp [hc]), by simp⟩

/-! ## Reading -/

section Reading

variable [DecidableEq α]

/-- The string at the position, without its zero. -/
def string : List α → Option (List α)
  | [] => none
  | c :: l => if c = 0 then some [] else (string l).map (c :: ·)

theorem string_append (h : 0 ∉ s) (rest : List α) : string (s ++ 0 :: rest) = some s := by
  induction s with
  | nil => exact if_pos rfl
  | cons c s ih =>
    obtain ⟨hc, hs⟩ := not_or.mp (mt List.mem_cons.mpr h)
    rw [List.cons_append, string, if_neg (Ne.symm hc), ih hs]
    rfl

theorem string_isSome : (string l).isSome ↔ 0 ∈ l := by
  induction l with
  | nil => simp [string]
  | cons c l ih =>
    unfold string
    split_ifs with hc
    · simp [hc]
    · rw [Option.isSome_map, ih, List.mem_cons, or_iff_right (Ne.symm hc)]

/-- What is read is in the buffer, with a zero after it. -/
theorem string_eq_some (h : string l = some s) : 0 ∉ s ∧ ∃ rest, l = s ++ 0 :: rest := by
  induction l generalizing s with
  | nil => cases h
  | cons c l ih =>
    unfold string at h
    split_ifs at h with hc
    · obtain rfl := Option.some.inj h
      exact ⟨List.not_mem_nil, l, by rw [hc]; rfl⟩
    · obtain ⟨t, ht, rfl⟩ := Option.map_eq_some_iff.mp h
      obtain ⟨hzero, rest, rfl⟩ := ih ht
      exact ⟨not_or.mpr ⟨Ne.symm hc, hzero⟩ ∘ List.mem_cons.mp, rest, rfl⟩

end Reading

/-! ## Two zeros in a row -/

/-- **What comes before two zeros in a row** is a list of strings of which only the first may be empty. -/
theorem exists_joined (h : [0, 0] <:+: l) :
    ∃ s ss rest, 0 ∉ s ∧ Proper ss ∧ l = joined (s :: ss) ++ 0 :: rest := by
  classical
  induction l with
  | nil => simp at h
  | cons c l ih =>
    rcases List.infix_cons_iff.mp h with hprefix | hinfix
    · obtain ⟨rest, hrest⟩ := hprefix
      obtain ⟨rfl, rfl⟩ := List.cons.inj hrest
      exact ⟨[], [], rest, List.not_mem_nil, by simp [Proper], rfl⟩
    · obtain ⟨s, ss, rest, hs, hss, rfl⟩ := ih hinfix
      rcases eq_or_ne c 0 with rfl | hc
      · -- the zero ends an empty string, and what follows is not empty unless there are two zeros
        cases s with
        | nil => exact ⟨[], [], joined ss ++ 0 :: rest, List.not_mem_nil, by simp [Proper], rfl⟩
        | cons d s =>
          exact ⟨[], (d :: s) :: ss, rest, List.not_mem_nil, proper_cons.mpr ⟨⟨by simp, hs⟩, hss⟩, rfl⟩
      · exact ⟨c :: s, ss, rest, not_or.mpr ⟨hc.symm, hs⟩ ∘ List.mem_cons.mp, hss, rfl⟩

end Terminated
