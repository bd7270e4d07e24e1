import Mathlib.Data.List.Basic

/-!
# The tokens of a string

Some units separate, and the tokens are the maximal runs of the others, from the first to the last. Units that
separate may come before the first token and after the last one, and several of them between two tokens.

`exists_token`: a string has no token, or begins with one, after units that separate.
-/

namespace Tokens

variable {α : Type*} {p : α → Bool} {l t before : List α} {d : α}

/-- The tokens of a string. -/
def tokens (p : α → Bool) (l : List α) : List (List α) := (l.splitOnP p).filter (!·.isEmpty)

@[simp] theorem tokens_nil : tokens p [] = [] := rfl

/-- What separates is left out. -/
theorem tokens_cons (hd : p d = true) (l : List α) : tokens p (d :: l) = tokens p l := by
  simp [tokens, List.splitOnP_cons_eq_if_modifyHead, hd]

theorem tokens_append (hbefore : ∀ c ∈ before, p c = true) (l : List α) : tokens p (before ++ l) = tokens p l := by
  induction before with
  | nil => rfl
  | cons c before ih =>
    obtain ⟨hc, hbefore⟩ := List.forall_mem_cons.mp hbefore
    rw [List.cons_append, tokens_cons hc, ih hbefore]

theorem tokens_eq_nil (h : ∀ c ∈ l, p c = true) : tokens p l = [] := by
  have heq := tokens_append h []
  rwa [List.append_nil, tokens_nil] at heq

/-- The last token. -/
theorem tokens_token (hne : t ≠ []) (ht : ∀ c ∈ t, p c = false) : tokens p t = [t] := by
  simp [tokens, List.splitOnP_eq_singleton ht, hne]

/-- A token before another string. -/
theorem tokens_token_append (hne : t ≠ []) (ht : ∀ c ∈ t, p c = false) (hd : p d = true) (l : List α) :
    tokens p (t ++ d :: l) = t :: tokens p l := by
  simp [tokens, List.splitOnP_append_cons_of_forall_mem ht d hd, hne]

/-- A run of units that do not separate comes first, which is all or is ended by one that does. -/
theorem exists_run (p : α → Bool) (l : List α) :
    ∃ t, (∀ c ∈ t, p c = false) ∧ (l = t ∨ ∃ d rest, p d = true ∧ l = t ++ d :: rest) := by
  induction l with
  | nil => exact ⟨[], by simp, .inl rfl⟩
  | cons c l ih =>
    cases hc : p c with
    | true => exact ⟨[], by simp, .inr ⟨c, l, hc, rfl⟩⟩
    | false =>
      obtain ⟨t, ht, hl⟩ := ih
      refine ⟨c :: t, List.forall_mem_cons.mpr ⟨hc, ht⟩, hl.imp (congrArg _) ?_⟩
      rintro ⟨d, rest, hd, rfl⟩
      exact ⟨d, rest, hd, rfl⟩

/-- **A string has no token**, or begins with one. -/
theorem exists_token (p : α → Bool) (l : List α) :
    (∀ c ∈ l, p c = true) ∨
    ∃ before t, (∀ c ∈ before, p c = true) ∧ t ≠ [] ∧ (∀ c ∈ t, p c = false) ∧
      (l = before ++ t ∨ ∃ d rest, p d = true ∧ l = before ++ t ++ d :: rest) := by
  induction l with
  | nil => exact .inl (by simp)
  | cons c l ih =>
    cases hc : p c with
    | true =>
      rcases ih with hall | ⟨before, t, hbefore, hne, ht, hl⟩
      · exact .inl (List.forall_mem_cons.mpr ⟨hc, hall⟩)
      · refine .inr ⟨c :: before, t, List.forall_mem_cons.mpr ⟨hc, hbefore⟩, hne, ht, hl.imp (congrArg _) ?_⟩
        rintro ⟨d, rest, hd, rfl⟩
        exact ⟨d, rest, hd, rfl⟩
    | false =>
      obtain ⟨t, ht, hl⟩ := exists_run p l
      refine .inr ⟨[], c :: t, by simp, by simp, List.forall_mem_cons.mpr ⟨hc, ht⟩, hl.imp (congrArg _) ?_⟩
      rintro ⟨d, rest, hd, rfl⟩
      exact ⟨d, rest, hd, rfl⟩

end Tokens
