import XenBus.Foundations.Tokens
import XenBus.Foundations.Terminated
import Mathlib.Data.UInt

/-!
# Tokens of a buffer

`__strtok_r` and `__wcstok_r` (`util.h`) return the tokens of a buffer one after the other: each call ends its
token with a `NUL`, and where the next call goes on is kept in `Context`. A read or a write that is not in the
memory has no result (`none`).

`strtok_spec`: what a call does to the text that is left. `strtok_tokenises`: what all the calls return.
-/

namespace XenBus.Strtok

open Terminated Tokens

/-! ## The functions -/

section Functions

variable {α : Type*} [Zero α] [DecidableEq α]

/-- The loops of `__strtok_r`: the first position from which on a unit is `NUL` or not skipped. -/
def skip (skipped : α → Bool) : List α → ℕ → Option ℕ
  | [], _ => none
  | c :: l, i => if c ≠ 0 ∧ skipped c = true then skip skipped l (i + 1) else some i

/-- `strchr(Delimiter, c) != NULL`, for a unit that is not `NUL`. -/
def separates (Delimiter : List α) (c : α) : Bool := decide (c ∈ Delimiter)

/-- `__strtok_r` and `__wcstok_r`: the token, `*Context` and the memory. Pointers are positions in the memory, and
`NULL` is `none`. -/
def strtok (Buffer : Option ℕ) (Delimiter : List α) (Context : Option ℕ) (memory : List α) :
    Option (Option ℕ × Option ℕ × List α) :=
  let Context := Buffer.or Context
  match Context with
  | none => some (none, Context, memory)
  | some Token =>
    (skip (separates Delimiter) (memory.drop Token) Token).bind fun Token =>
      (memory[Token]?).bind fun c =>
        if c = 0 then some (none, Context, memory)
        else (skip (fun c => !separates Delimiter c) (memory.drop (Token + 1)) (Token + 1)).bind fun End =>
          (memory[End]?).bind fun c =>
            if c ≠ 0 then some (some Token, some (End + 1), memory.set End 0)
            else some (some Token, some End, memory)

end Functions

/-- `__strtok_r`. -/
def strtokR : Option ℕ → List UInt8 → Option ℕ → List UInt8 → Option (Option ℕ × Option ℕ × List UInt8) := strtok

/-- `__wcstok_r`. -/
def wcstokR : Option ℕ → List UInt16 → Option ℕ → List UInt16 → Option (Option ℕ × Option ℕ × List UInt16) :=
  strtok

/-! ## One call -/

variable {α : Type*} {memory text t before rest Delimiter : List α} {Context : ℕ} {d : α}

theorem getElem?_length (l rest : List α) (c : α) : (l ++ c :: rest)[l.length]? = some c := by
  simp

/-- The memory before `i` stays. -/
structure Kept (i : ℕ) (memory memory' : List α) : Prop where
  length : memory'.length = memory.length
  take : memory'.take i = memory.take i

theorem kept_of_token (held after : List α) (hne : t ≠ []) (d e : α) :
    Kept (held.length + 1) (held ++ (before ++ (t ++ d :: after))) (held ++ (before ++ (t ++ e :: after))) := by
  have hpos := List.length_pos_iff.mpr hne
  refine ⟨by simp, ?_⟩
  have htake : ∀ d, (held ++ (before ++ (t ++ d :: after))).take (held.length + 1) =
      (held ++ (before ++ t)).take (held.length + 1) := by
    intro d
    have hsplit : held ++ (before ++ (t ++ d :: after)) = (held ++ (before ++ t)) ++ d :: after := by simp
    rw [hsplit, List.take_append_of_le_length]
    simp only [List.length_append]
    omega
  rw [htake d, htake e]

variable [Zero α]

/-- The text from the position on, which a `NUL` ends. -/
def Unread (memory : List α) (Context : ℕ) (text : List α) : Prop :=
  0 ∉ text ∧ ∃ rest, memory.drop Context = text ++ 0 :: rest

theorem Unread.lt (h : Unread memory Context text) : Context < memory.length := by
  obtain ⟨-, rest, hdrop⟩ := h
  have hlength := congrArg List.length hdrop
  simp only [List.length_drop, List.length_append, List.length_cons] at hlength
  omega

theorem Unread.exists_eq (h : Unread memory Context text) :
    ∃ held rest, held.length = Context ∧ memory = held ++ (text ++ 0 :: rest) := by
  obtain ⟨rest, hdrop⟩ := h.2
  refine ⟨memory.take Context, rest, List.length_take_of_le h.lt.le, ?_⟩
  rw [← hdrop, List.take_append_drop]

theorem unread_append (held rest : List α) (htext : 0 ∉ text) :
    Unread (held ++ (text ++ 0 :: rest)) held.length text :=
  ⟨htext, rest, List.drop_left⟩

variable [DecidableEq α]

/-- A `NUL` after the buffer ends the text, if there is none in it. -/
theorem unread_takeWhile (rest : List α) (hle : Context ≤ memory.length) :
    Unread (memory ++ 0 :: rest) Context ((memory.drop Context).takeWhile (· ≠ 0)) := by
  rw [Unread, List.drop_append_of_le_length hle]
  refine ⟨fun hmem => by simpa using List.all_eq_true.mp List.all_takeWhile 0 hmem, ?_⟩
  induction memory.drop Context with
  | nil => exact ⟨rest, rfl⟩
  | cons c l ih =>
    rcases eq_or_ne c 0 with rfl | hc
    · exact ⟨l ++ 0 :: rest, by simp⟩
    · obtain ⟨rest', heq⟩ := ih
      refine ⟨rest', ?_⟩
      rw [List.takeWhile_cons_of_pos (by simpa using hc), List.cons_append, heq, List.cons_append]

theorem skip_append {skipped : α → Bool} (h : ∀ c ∈ t, c ≠ 0 ∧ skipped c = true) {c : α}
    (hc : c = 0 ∨ skipped c = false) (rest : List α) (i : ℕ) :
    skip skipped (t ++ c :: rest) i = some (i + t.length) := by
  induction t generalizing i with
  | nil =>
    refine if_neg ?_
    rcases hc with rfl | hc
    · simp
    · simp [hc]
  | cons b t ih =>
    obtain ⟨hb, ht⟩ := List.forall_mem_cons.mp h
    rw [List.cons_append, skip, if_pos hb, ih ht, List.length_cons, Nat.add_right_comm, Nat.add_assoc]

theorem skip_ge {skipped : α → Bool} {i j : ℕ} (h : skip skipped text i = some j) : i ≤ j := by
  induction text generalizing i with
  | nil => cases h
  | cons c text ih =>
    unfold skip at h
    split_ifs at h
    · exact (Nat.le_succ i).trans (ih h)
    · exact (Option.some.inj h).le

/-- The calls get on. -/
theorem strtok_lt {Context Context' : Option ℕ} {Token : ℕ} {memory' : List α}
    (h : strtok none Delimiter Context memory = some (some Token, Context', memory')) :
    memory'.length - Context'.getD 0 < memory.length - Context.getD 0 := by
  cases Context with
  | none => simp [strtok] at h
  | some i =>
    simp only [strtok, Option.none_or, Option.bind_eq_some_iff] at h
    obtain ⟨Start, hStart, c, hc, h⟩ := h
    have hle := skip_ge hStart
    have hlt := (List.getElem?_eq_some_iff.mp hc).1
    split_ifs at h
    · cases h
    · obtain ⟨End, hEnd, h⟩ := Option.bind_eq_some_iff.mp h
      obtain ⟨c', -, h⟩ := Option.bind_eq_some_iff.mp h
      have hle' := skip_ge hEnd
      split_ifs at h
      all_goals
        simp only [Option.some.injEq, Prod.mk.injEq] at h
        obtain ⟨-, rfl, rfl⟩ := h
        simp only [List.length_set, Option.getD_some]
        omega

/-- There is no token: the context is not changed. -/
theorem strtok_of_all (held rest : List α) (htext : 0 ∉ text)
    (hall : ∀ c ∈ text, separates Delimiter c = true) :
    strtok none Delimiter (some held.length) (held ++ (text ++ 0 :: rest)) =
      some (none, some held.length, held ++ (text ++ 0 :: rest)) := by
  have hskip := skip_append (fun c hc => ⟨fun h0 => htext (h0 ▸ hc), hall c hc⟩) (.inl rfl) rest held.length
  have hget : (held ++ (text ++ 0 :: rest))[held.length + text.length]? = some 0 := by
    rw [← List.append_assoc, ← List.length_append, getElem?_length]
  simp only [strtok, Option.none_or, List.drop_left, hskip, Option.bind_some, hget, if_true]

/-- There is a token, which `d` ends. -/
theorem strtok_of_token (held after : List α) (hbefore : ∀ c ∈ before, c ≠ 0 ∧ separates Delimiter c = true)
    (hne : t ≠ []) (ht : ∀ c ∈ t, c ≠ 0 ∧ separates Delimiter c = false)
    (hd : d = 0 ∨ separates Delimiter d = true) :
    strtok none Delimiter (some held.length) (held ++ (before ++ (t ++ d :: after))) =
      some (some (held.length + before.length),
        some (held.length + before.length + t.length + if d = 0 then 0 else 1),
        held ++ (before ++ (t ++ 0 :: after))) := by
  obtain ⟨c, t, rfl⟩ := List.exists_cons_of_ne_nil hne
  obtain ⟨⟨hc0, hc⟩, ht⟩ := List.forall_mem_cons.mp ht
  have hToken : held.length + before.length = (held ++ before).length := List.length_append.symm
  have hEnd : (held ++ before).length + 1 + t.length = (held ++ (before ++ c :: t)).length := by
    simp only [List.length_append, List.length_cons]
    omega
  have hstart := skip_append hbefore (.inr hc) (t ++ d :: after) held.length
  have hskip : skip (fun c => !separates Delimiter c) (t ++ d :: after) ((held ++ before).length + 1) =
      some ((held ++ before).length + 1 + t.length) := by
    refine skip_append (fun b hb => ⟨(ht b hb).1, ?_⟩) (hd.imp_right fun hd => ?_) after _
    · rw [(ht b hb).2, Bool.not_false]
    · rw [hd, Bool.not_true]
  have hget : (held ++ (before ++ c :: (t ++ d :: after)))[(held ++ before).length]? = some c := by
    rw [← List.append_assoc, getElem?_length]
  have hdrop : (held ++ (before ++ c :: (t ++ d :: after))).drop ((held ++ before).length + 1) =
      t ++ d :: after := by
    rw [← List.append_assoc, List.drop_append]
    simp
  have hsplit : ∀ d, held ++ (before ++ c :: (t ++ d :: after)) = (held ++ (before ++ c :: t)) ++ d :: after := by
    simp
  have hget' : (held ++ (before ++ c :: (t ++ d :: after)))[(held ++ (before ++ c :: t)).length]? = some d := by
    rw [hsplit, getElem?_length]
  have hset : (held ++ (before ++ c :: (t ++ d :: after))).set (held ++ (before ++ c :: t)).length 0 =
      held ++ (before ++ c :: (t ++ 0 :: after)) := by
    rw [hsplit, hsplit, List.set_append_right _ _ le_rfl, Nat.sub_self, List.set_cons_zero]
  have hlength : (held ++ before).length + (c :: t).length = (held ++ (before ++ c :: t)).length := by
    simp only [List.length_append]
    omega
  rw [List.cons_append, List.cons_append, hToken, hlength]
  simp only [strtok, Option.none_or, List.drop_left, hstart, Option.bind_some, hToken, hget, if_neg hc0, hdrop,
    hskip, hEnd, hget', hset]
  rcases eq_or_ne d 0 with rfl | hd0
  · simp
  · simp [hd0]

theorem string_of_token (held after : List α) (ht : 0 ∉ t) :
    string ((held ++ (before ++ (t ++ 0 :: after))).drop (held.length + before.length)) = some t := by
  rw [← List.append_assoc, ← List.length_append, List.drop_left, string_append ht]

/-- A token whose `NUL` is in the memory that stays can still be read. -/
theorem string_kept {memory' : List α} {Token i : ℕ} (h : string (memory.drop Token) = some t)
    (hkept : Kept i memory memory') (hle : Token + t.length < i) : string (memory'.drop Token) = some t := by
  obtain ⟨hzero, rest, hdrop⟩ := string_eq_some h
  have htake : ∀ l : List α, (l.drop Token).take (t.length + 1) = ((l.take i).drop Token).take (t.length + 1) := by
    intro l
    rw [List.drop_take, List.take_take, min_eq_left (by omega)]
  have hread := htake memory'
  rw [hkept.take, ← htake memory, hdrop] at hread
  have hsplit : t ++ 0 :: rest = t ++ [0] ++ rest := by simp
  rw [hsplit, List.take_left' (by simp)] at hread
  rw [← List.take_append_drop (t.length + 1) (memory'.drop Token), hread, List.append_assoc]
  exact string_append hzero _

/-- The first call is like the others: it begins at the buffer. -/
theorem strtok_some (Buffer : ℕ) (Context : Option ℕ) :
    strtok (some Buffer) Delimiter Context memory = strtok none Delimiter (some Buffer) memory := rfl

/-- **What a call does to the text that is left**: there is no token, and nothing changes, or the first token is
returned, and the text after it is left. -/
theorem strtok_spec (Delimiter : List α) (h : Unread memory Context text) :
    (tokens (separates Delimiter) text = [] ∧
      strtok none Delimiter (some Context) memory = some (none, some Context, memory)) ∨
    ∃ t text' Token Context' memory', tokens (separates Delimiter) text = t :: tokens (separates Delimiter) text' ∧
      strtok none Delimiter (some Context) memory = some (some Token, some Context', memory') ∧
      Unread memory' Context' text' ∧ string (memory'.drop Token) = some t ∧
      (∀ c ∈ t, separates Delimiter c = false) ∧ Context < Context' ∧ Token + t.length ≤ Context' ∧
      Kept (Context + 1) memory memory' := by
  obtain ⟨held, rest, rfl, rfl⟩ := h.exists_eq
  have htext := h.1
  have hne : ∀ {c}, c ∈ text → c ≠ 0 := fun hc h0 => htext (h0 ▸ hc)
  rcases exists_token (separates Delimiter) text with hall | ⟨before, t, hbefore, ht0, ht, hl⟩
  · exact .inl ⟨tokens_eq_nil hall, strtok_of_all held rest htext hall⟩
  have hsub : ∀ {c}, c ∈ before ++ t → c ≠ 0 := by
    rintro c hc rfl
    rcases hl with rfl | ⟨d, text', -, rfl⟩
    · exact htext hc
    · exact htext (List.mem_append_left _ hc)
  have hbefore' := fun c hc => And.intro (hsub (List.mem_append_left t hc)) (hbefore c hc)
  have ht' := fun c hc => And.intro (hsub (List.mem_append_right before hc)) (ht c hc)
  have hzero : 0 ∉ t := fun hmem => (ht' 0 hmem).1 rfl
  have hpos := List.length_pos_iff.mpr ht0
  rcases hl with rfl | ⟨d, text', hd, rfl⟩
  · -- the `NUL` of the buffer ends the token
    have hcall := strtok_of_token held rest hbefore' ht0 ht' (.inl rfl)
    rw [if_pos rfl, Nat.add_zero] at hcall
    rw [List.append_assoc]
    refine .inr ⟨t, [], _, _, _, ?_, hcall, ?_, string_of_token held rest hzero, ht, by omega, le_rfl,
      kept_of_token held rest ht0 0 0⟩
    · rw [tokens_append hbefore, tokens_token ht0 ht, tokens_nil]
    · have hunread : Unread (held ++ (before ++ t) ++ ([] ++ 0 :: rest)) (held ++ (before ++ t)).length [] :=
        unread_append (held ++ (before ++ t)) rest List.not_mem_nil
      simpa [Nat.add_assoc] using hunread
  · have hd0 : d ≠ 0 := by
      rintro rfl
      simp at htext
    have htext' : 0 ∉ text' := fun hmem => htext (by simp [hmem])
    have hcall := strtok_of_token held (text' ++ 0 :: rest) hbefore' ht0 ht' (.inr hd)
    rw [if_neg hd0] at hcall
    have hsplit : before ++ t ++ d :: text' ++ 0 :: rest = before ++ (t ++ d :: (text' ++ 0 :: rest)) := by simp
    rw [hsplit]
    refine .inr ⟨t, text', _, _, _, ?_, hcall, ?_, string_of_token held _ hzero, ht, by omega, by omega,
      kept_of_token held _ ht0 d 0⟩
    · rw [List.append_assoc, tokens_append hbefore, tokens_token_append ht0 ht hd]
    · have hunread := unread_append (held ++ (before ++ (t ++ [0]))) rest htext'
      simpa [Nat.add_assoc] using hunread

/-! ## All the calls -/

/-- `n` calls of `strtok`, the first with `Buffer` and the others with `NULL`: what they return, and the memory. -/
def calls {α : Type*} (tok : Option ℕ → List α → Option ℕ → List α → Option (Option ℕ × Option ℕ × List α))
    (Delimiter : List α) : ℕ → Option ℕ → Option ℕ → List α → Option (List (Option ℕ) × List α)
  | 0, _, _, memory => some ([], memory)
  | n + 1, Buffer, Context, memory =>
    (tok Buffer Delimiter Context memory).bind fun (Token, Context, memory) =>
      (calls tok Delimiter n none Context memory).map fun (Tokens, memory) => (Token :: Tokens, memory)

omit [DecidableEq α] in
/-- Some of the units that separate have become `NUL`. -/
def Cut (Delimiter text text' : List α) : Prop :=
  List.Forall₂ (fun c d => d = c ∨ c ∈ Delimiter ∧ d = 0) text text'

omit [DecidableEq α] in
theorem cut_refl (Delimiter text : List α) : Cut Delimiter text text := List.forall₂_same.mpr fun _ _ => .inl rfl

/-- Without a token, all the calls return `NULL`. -/
theorem calls_of_all (held rest : List α) (htext : 0 ∉ text) (hall : ∀ c ∈ text, separates Delimiter c = true)
    (n : ℕ) :
    calls strtok Delimiter n none (some held.length) (held ++ (text ++ 0 :: rest)) =
      some (List.replicate n none, held ++ (text ++ 0 :: rest)) := by
  induction n with
  | zero => rfl
  | succ n ih => simp only [calls, strtok_of_all held rest htext hall, Option.bind_some, ih, Option.map_some,
      List.replicate_succ]

theorem range_succ_map_getElem? {β : Type*} (b : β) (l : List β) (n : ℕ) :
    (List.range (n + 1)).map ((b :: l)[·]?) = some b :: (List.range n).map (l[·]?) := by
  rw [List.range_succ_eq_map, List.map_cons, List.map_map]
  rfl

/-- What the calls find in a text: where the tokens begin, in their order, and for any number of calls the text
as it is after them, in which the tokens that have been returned are strings. -/
structure Found (Delimiter held text : List α) (positions : List ℕ) : Prop where
  length : positions.length = (tokens (separates Delimiter) text).length
  ge : ∀ p ∈ positions, held.length ≤ p
  increasing : positions.Pairwise (· < ·)
  found : ∀ n rest, ∃ text', calls strtok Delimiter n none (some held.length) (held ++ (text ++ 0 :: rest)) =
      some ((List.range n).map (positions[·]?), held ++ (text' ++ 0 :: rest)) ∧ Cut Delimiter text text' ∧
    ∀ i p t, i < n → positions[i]? = some p → (tokens (separates Delimiter) text)[i]? = some t →
      string ((held ++ (text' ++ 0 :: rest)).drop p) = some t

theorem found_of_all (held : List α) (htext : 0 ∉ text) (hall : ∀ c ∈ text, separates Delimiter c = true) :
    Found Delimiter held text [] where
  length := by rw [tokens_eq_nil hall, List.length_nil, List.length_nil]
  ge := List.forall_mem_nil _
  increasing := List.Pairwise.nil
  found n rest := by
    refine ⟨text, ?_, cut_refl Delimiter text, fun i p t _ hp => by simp at hp⟩
    have hnone : (List.range n).map (([] : List ℕ)[·]?) = List.replicate n none := by simp
    rw [calls_of_all held rest htext hall, hnone]

/-- A call that returns the first token, and leaves `text` after `held'`. -/
theorem Found.cons {held held' whole : List α} {positions : List ℕ} (mid before t : List α)
    (h : Found Delimiter held' text positions)
    (htokens : tokens (separates Delimiter) whole = t :: tokens (separates Delimiter) text)
    (hcall : ∀ rest, strtok none Delimiter (some held.length) (held ++ (whole ++ 0 :: rest)) =
      some (some (held.length + before.length), some held'.length, held' ++ (text ++ 0 :: rest)))
    (hmid : ∀ text' rest, held' ++ (text' ++ 0 :: rest) = held ++ (mid ++ text' ++ 0 :: rest))
    (hcut : ∀ text', Cut Delimiter text text' → Cut Delimiter whole (mid ++ text'))
    (hstring : ∀ text' rest, Cut Delimiter text text' →
      string ((held' ++ (text' ++ 0 :: rest)).drop (held.length + before.length)) = some t)
    (hlt : held.length + before.length < held'.length) :
    Found Delimiter held whole ((held.length + before.length) :: positions) where
  length := by rw [htokens, List.length_cons, List.length_cons, h.length]
  ge := List.forall_mem_cons.mpr ⟨Nat.le_add_right _ _, fun p hp => by have hle := h.ge p hp; omega⟩
  increasing := List.pairwise_cons.mpr ⟨fun p hp => hlt.trans_le (h.ge p hp), h.increasing⟩
  found n rest := by
    cases n with
    | zero => exact ⟨whole, rfl, cut_refl Delimiter whole, fun i p t hi => absurd hi (Nat.not_lt_zero i)⟩
    | succ n =>
      obtain ⟨text', heq, htext', hstrings⟩ := h.found n rest
      refine ⟨mid ++ text', ?_, hcut text' htext', fun i p u hi hp hu => ?_⟩
      · simp only [calls, hcall, Option.bind_some, heq, Option.map_some]
        rw [range_succ_map_getElem?, hmid]
      · rw [← hmid]
        rw [htokens] at hu
        cases i with
        | zero =>
          obtain rfl := Option.some.inj hp
          obtain rfl := Option.some.inj hu
          exact hstring text' rest htext'
        | succ i => exact hstrings i p u (Nat.lt_of_succ_lt_succ hi) hp hu

/-- **The calls find the tokens of every text.** -/
theorem exists_found (Delimiter held : List α) (htext : 0 ∉ text) :
    ∃ positions, Found Delimiter held text positions := by
  induction hn : text.length using Nat.strong_induction_on generalizing held text with
  | _ n ih =>
    have hne : ∀ {c}, c ∈ text → c ≠ 0 := fun hc h0 => htext (h0 ▸ hc)
    rcases exists_token (separates Delimiter) text with hall | ⟨before, t, hbefore, ht0, ht, hl⟩
    · exact ⟨[], found_of_all held htext hall⟩
    have hpos := List.length_pos_iff.mpr ht0
    have hsub : ∀ {c}, c ∈ before ++ t → c ≠ 0 := by
      rintro c hc rfl
      rcases hl with rfl | ⟨d, text', -, rfl⟩
      · exact htext hc
      · exact htext (List.mem_append_left _ hc)
    have hbefore' := fun c hc => And.intro (hsub (List.mem_append_left t hc)) (hbefore c hc)
    have ht' := fun c hc => And.intro (hsub (List.mem_append_right before hc)) (ht c hc)
    have hzero : 0 ∉ t := fun hmem => (ht' 0 hmem).1 rfl
    rcases hl with rfl | ⟨d, text', hd, rfl⟩
    · -- the `NUL` of the buffer ends the last token
      obtain ⟨positions, hfound⟩ := ih 0 (by simp only [List.length_append] at hn; omega) (held ++ (before ++ t))
        (List.not_mem_nil (a := (0 : α))) rfl
      have hmid : ∀ text' rest : List α, held ++ (before ++ t) ++ (text' ++ 0 :: rest) =
          held ++ (before ++ t ++ text' ++ 0 :: rest) := by simp
      refine ⟨_, Found.cons (before ++ t) before t hfound ?_ (fun rest => ?_) hmid ?_ ?_ ?_⟩
      · rw [tokens_append hbefore, tokens_token ht0 ht, tokens_nil]
      · have hcall := strtok_of_token held rest hbefore' ht0 ht' (.inl rfl)
        rw [if_pos rfl, Nat.add_zero] at hcall
        simpa [Nat.add_assoc] using hcall
      · intro text' htext'
        obtain rfl := List.forall₂_nil_left_iff.mp htext'
        rw [List.append_nil]
        exact cut_refl Delimiter _
      · intro text' rest htext'
        obtain rfl := List.forall₂_nil_left_iff.mp htext'
        have hsplit : held ++ (before ++ t) ++ ([] ++ 0 :: rest) = held ++ (before ++ (t ++ 0 :: rest)) := by simp
        rw [hsplit]
        exact string_of_token held rest hzero
      · simp only [List.length_append]
        omega
    · have hd0 : d ≠ 0 := by
        rintro rfl
        simp at htext
      have htext' : 0 ∉ text' := fun hmem => htext (by simp [hmem])
      obtain ⟨positions, hfound⟩ := ih text'.length
        (by simp only [List.length_append, List.length_cons] at hn; omega)
        (held ++ (before ++ (t ++ [0]))) htext' rfl
      have hmid : ∀ text' rest : List α, held ++ (before ++ (t ++ [0])) ++ (text' ++ 0 :: rest) =
          held ++ (before ++ t ++ [0] ++ text' ++ 0 :: rest) := by simp
      refine ⟨_, Found.cons (before ++ t ++ [0]) before t hfound ?_ (fun rest => ?_) hmid ?_ ?_ ?_⟩
      · rw [List.append_assoc, tokens_append hbefore, tokens_token_append ht0 ht hd]
      · have hcall := strtok_of_token held (text' ++ 0 :: rest) hbefore' ht0 ht' (.inr hd)
        rw [if_neg hd0] at hcall
        simpa [Nat.add_assoc] using hcall
      · intro text'' hcut
        have hcons : Cut Delimiter (d :: text') ([0] ++ text'') := .cons (.inr ⟨of_decide_eq_true hd, rfl⟩) hcut
        rw [List.append_assoc (before ++ t)]
        exact List.rel_append (cut_refl Delimiter (before ++ t)) hcons
      · intro text'' rest _
        have hsplit : held ++ (before ++ (t ++ [0])) ++ (text'' ++ 0 :: rest) =
            held ++ (before ++ (t ++ 0 :: (text'' ++ 0 :: rest))) := by simp
        rw [hsplit]
        exact string_of_token held _ hzero
      · simp only [List.length_append, List.length_singleton]
        omega

/-- The calls return the tokens of a text that a `NUL` ends, where they are in it and in their order, and then
`NULL`; they do not access what is behind that `NUL`, and change nothing but units that separate, into `NUL`s. -/
def Tokenises {α : Type*} [Zero α] [DecidableEq α]
    (tok : Option ℕ → List α → Option ℕ → List α → Option (Option ℕ × Option ℕ × List α)) : Prop :=
  ∀ (Delimiter text : List α) (Context : Option ℕ), 0 ∉ text →
    ∃ positions : List ℕ, positions.length = (tokens (separates Delimiter) text).length ∧
      positions.Pairwise (· < ·) ∧
      ∀ n rest, ∃ text', calls tok Delimiter n (some 0) Context (text ++ 0 :: rest) =
          some ((List.range n).map (positions[·]?), text' ++ 0 :: rest) ∧ Cut Delimiter text text' ∧
        ∀ i p t, i < n → positions[i]? = some p → (tokens (separates Delimiter) text)[i]? = some t →
          string ((text' ++ 0 :: rest).drop p) = some t

/-- **`__strtok_r` and `__wcstok_r` return the tokens.** -/
theorem strtok_tokenises : Tokenises strtokR ∧ Tokenises wcstokR := by
  have hall : ∀ {α : Type} [Zero α] [DecidableEq α], Tokenises (strtok : Option ℕ → List α → _) := by
    intro α _ _ Delimiter text Context htext
    obtain ⟨positions, hfound⟩ := exists_found Delimiter [] htext
    refine ⟨positions, hfound.length, hfound.increasing, fun n rest => ?_⟩
    obtain ⟨text', hcalls, hcut, hstrings⟩ := hfound.found n rest
    refine ⟨text', ?_, hcut, hstrings⟩
    cases n with
    | zero =>
      obtain ⟨-, hmemory⟩ := Prod.mk.inj (Option.some.inj hcalls)
      exact congrArg (fun memory => some (([] : List (Option ℕ)), memory)) hmemory
    | succ n => exact hcalls
  exact ⟨hall, hall⟩

end XenBus.Strtok
