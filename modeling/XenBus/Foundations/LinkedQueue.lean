import Mathlib.Data.List.Nodup
import Mathlib.Data.List.Infix
import Mathlib.Logic.Function.Basic

/-!
# A queue linked through its members

One producer and one consumer share a list whose members carry its links: `next` leads from a member
to the one behind it, and a key whose `linked` is clear is not in the list. The producer links a key
behind the last one while that one is in the list, and otherwise writes it to `head` and raises
`signal`. The consumer takes note of the signal, starts at `head` and follows the links; it stops at a
member without a successor, and does not look at `head` again before the next signal.

* `Chain next a l`: the list that is met from `a` on along the links.
* `LinkedQueue.Inv` relates the cells to what has entered the queue and what has been taken from it, and
  each access of either side preserves it (`Inv.enter` to `Inv.unlink`).
* What is taken is a prefix of what has entered (`Inv.prefix_of_taken`); a key is linked exactly while it
  has entered and has not been taken (`Inv.linked_iff`); and when no signal is left, everything that has
  been completed has been taken (`Inv.prefix_of_completed`).
-/

/-! ## Chains -/

section Chain

variable {K : Type*} [Zero K] {next next' : K → K} {a b t : K} {l : List K}

/-- The keys that are met from `a` on along the links, up to `0`. -/
def Chain (next : K → K) : K → List K → Prop
  | a, [] => a = 0
  | a, k :: l => a = k ∧ k ≠ 0 ∧ Chain next (next k) l

namespace Chain

theorem ne_nil (h : Chain next a l) (ha : a ≠ 0) : l ≠ [] := by
  rintro rfl
  exact ha h

theorem ne_zero (h : Chain next a l) (hl : l ≠ []) : a ≠ 0 := by
  cases l with
  | nil => exact absurd rfl hl
  | cons k l => exact h.1 ▸ h.2.1

/-- Only the links of the members count. -/
theorem congr (h : Chain next a l) (hn : ∀ k ∈ l, next' k = next k) : Chain next' a l := by
  induction l generalizing a with
  | nil => exact h
  | cons k l ih =>
    refine ⟨h.1, h.2.1, ?_⟩
    rw [hn k List.mem_cons_self]
    exact ih h.2.2 fun j hj => hn j (List.mem_cons_of_mem _ hj)

/-- A key is linked behind the last one. -/
theorem append [DecidableEq K] (h : Chain next a (l ++ [t])) (hl : (l ++ [t]).Nodup) (hb : b ≠ 0)
    (hnb : next b = 0) (hbt : b ≠ t) : Chain (Function.update next t b) a (l ++ [t] ++ [b]) := by
  induction l generalizing a with
  | nil =>
    refine ⟨h.1, h.2.1, ?_⟩
    rw [Function.update_self]
    refine ⟨rfl, hb, ?_⟩
    rw [Function.update_of_ne hbt]
    exact hnb
  | cons k l ih =>
    have hkt : k ≠ t := by
      rintro rfl
      exact (List.nodup_cons.mp hl).1 (List.mem_append_right _ (List.mem_singleton_self _))
    refine ⟨h.1, h.2.1, ?_⟩
    rw [Function.update_of_ne hkt]
    exact ih h.2.2 (List.nodup_cons.mp hl).2

end Chain

end Chain

/-! ## Last members -/

theorem List.getLastD_append_singleton {K : Type*} (l : List K) (a d : K) :
    (l ++ [a]).getLastD d = a := by
  rw [List.getLastD_eq_getLast?, List.getLast?_append, List.getLast?_singleton]
  rfl

/-- The last member of a list that does not end in the empty list. -/
theorem List.exists_getLastD_append {K : Type*} (u l : List K) (d : K) (hl : l ≠ []) :
    ∃ l', l = l' ++ [(u ++ l).getLastD d] := by
  rcases List.eq_nil_or_concat l with rfl | ⟨l', t, rfl⟩
  · exact absurd rfl hl
  · refine ⟨l', ?_⟩
    rw [List.concat_eq_append, ← List.append_assoc, List.getLastD_append_singleton]

/-! ## The queue -/

/-- Where the producer is. -/
inductive Entry (K : Type*)
  /-- Not in the queue. -/
  | out
  /-- The key is marked as linked: the tail is looked at next. -/
  | entered (k : K)
  /-- The tail was `t`. -/
  | behind (k t : K)
  /-- There is no tail in the list: the head is written next. -/
  | alone (k : K)
  /-- The signal comes next. -/
  | headed (k : K)
  /-- The key becomes the tail next. -/
  | joined (k : K)

namespace Entry

variable {K : Type*}

/-- The key that is marked as linked and cannot be met yet. -/
def joining : Entry K → List K
  | .entered k | .behind k _ | .alone k => [k]
  | _ => []

/-- The key of the producer. -/
def inside : Entry K → List K
  | .out => []
  | .entered k | .behind k _ | .alone k | .headed k | .joined k => [k]

end Entry

/-- The cells of the queue, where its producer is, and what has happened to it. -/
@[ext]
structure LinkedQueue (K : Type*) where
  linked : K → Bool
  next : K → K
  head : K
  /-- Where the consumer is in the list, or `0`. -/
  cursor : K
  signal : Bool
  /-- The signal has been taken note of, and the list behind it not yet been emptied. -/
  noticed : Bool
  tail : K
  entry : Entry K
  /-- The keys that have been marked as linked. -/
  entered : List K
  /-- Those that the producer has finished with. -/
  completed : List K
  /-- Those that the consumer has unlinked. -/
  taken : List K

namespace LinkedQueue

variable {K : Type*}

/-! ### The producer -/

/-- The key is marked as linked. -/
def enter [DecidableEq K] (s : LinkedQueue K) (k : K) : LinkedQueue K :=
  { s with
    linked := Function.update s.linked k true
    entry := .entered k
    entered := s.entered ++ [k] }

/-- The producer goes on. -/
def goto (s : LinkedQueue K) (entry : Entry K) : LinkedQueue K := { s with entry := entry }

/-- The key is linked behind the tail. -/
def join [DecidableEq K] (s : LinkedQueue K) (k t : K) : LinkedQueue K :=
  { s with next := Function.update s.next t k, entry := .joined k }

/-- The key is the head. -/
def putHead (s : LinkedQueue K) (k : K) : LinkedQueue K := { s with head := k, entry := .headed k }

/-- The signal is raised. -/
def raise (s : LinkedQueue K) (k : K) : LinkedQueue K :=
  { s with signal := true, entry := .joined k }

/-- The key is the tail. -/
def complete (s : LinkedQueue K) (k : K) : LinkedQueue K :=
  { s with tail := k, entry := .out, completed := s.completed ++ [k] }

/-! ### The consumer -/

/-- The signal is read and reset. -/
def exchange (s : LinkedQueue K) : LinkedQueue K :=
  { s with signal := false, noticed := s.noticed || s.signal }

/-- The list is entered at the head. -/
def start (s : LinkedQueue K) : LinkedQueue K := { s with cursor := s.head }

/-- The member at the cursor is unlinked. -/
def unlink [DecidableEq K] [Zero K] (s : LinkedQueue K) : LinkedQueue K :=
  { s with
    linked := Function.update s.linked s.cursor false
    next := Function.update s.next s.cursor 0
    cursor := s.next s.cursor
    noticed := s.noticed && decide (s.next s.cursor ≠ 0)
    taken := s.taken ++ [s.cursor] }

/-! ### The invariant -/

variable [Zero K]

/-- The keys of `l` are those that the links lead to. -/
structure Holds (s : LinkedQueue K) (l : List K) : Prop where
  entered : s.entered = s.taken ++ l ++ s.entry.joining
  completed : s.entered = s.completed ++ s.entry.inside
  ne_zero : ∀ k ∈ s.entered, k ≠ 0
  nodup : (l ++ s.entry.joining).Nodup
  linked : ∀ k, s.linked k = true ↔ k ∈ l ++ s.entry.joining
  next : ∀ k ∉ l, s.next k = 0
  tail : s.tail = s.completed.getLastD 0
  behind : ∀ k t, s.entry = .behind k t → t = s.tail ∧ t ≠ 0 ∧ t ≠ k
  alone : ∀ k, s.entry = .alone k → l = []
  headed : ∀ k, s.entry = .headed k →
    l = [k] ∧ s.next k = 0 ∧ s.head = k ∧ s.cursor = 0 ∧ s.signal = false ∧ s.noticed = false
  walking : s.cursor ≠ 0 → Chain s.next s.cursor l ∧ s.noticed = true
  waiting : s.cursor = 0 → s.signal = true ∨ s.noticed = true → l ≠ [] ∧ Chain s.next s.head l
  /-- There is one signal for each list. -/
  once : s.noticed = true → s.signal = false
  resting : s.cursor = 0 → s.signal = false → s.noticed = false → l = [] ∨ ∃ k, s.entry = .headed k

/-- The state of a queue that only its own accesses have changed. -/
def Inv (s : LinkedQueue K) : Prop := ∃ l, s.Holds l

/-- Before anything has entered. -/
def empty : LinkedQueue K :=
  ⟨fun _ => false, fun _ => 0, 0, 0, false, false, 0, .out, [], [], []⟩

theorem inv_empty : (empty : LinkedQueue K).Inv := by
  refine ⟨[], ⟨rfl, rfl, ?_, List.nodup_nil, ?_, fun _ _ => rfl, rfl, ?_, ?_, ?_, ?_, ?_, ?_, ?_⟩⟩
  · intro k hk
    exact absurd hk List.not_mem_nil
  · intro k
    exact iff_of_false (by simp [empty]) List.not_mem_nil
  · intro k t h
    exact absurd h nofun
  · exact fun _ _ => rfl
  · intro k h
    exact absurd h nofun
  · intro h
    exact absurd rfl h
  · rintro - (h | h) <;> exact absurd h Bool.false_ne_true
  · intro h
    exact absurd h Bool.false_ne_true
  · exact fun _ _ _ => .inl rfl

namespace Holds

variable {s : LinkedQueue K} {l : List K} {k t : K}

/-- The tail is the last member of the list, if there is one. -/
theorem tail_eq (h : s.Holds l) (hj : s.entry.joining = [k]) (hi : s.entry.inside = [k])
    (hl : l ≠ []) : ∃ l', l = l' ++ [s.tail] := by
  have he : s.completed = s.taken ++ l := by
    have := h.completed.symm.trans h.entered
    rw [hj, hi] at this
    exact List.append_cancel_right this
  rw [h.tail, he]
  exact List.exists_getLastD_append _ _ _ hl

/-- A tail that is not in the list is not the tail of a list. -/
theorem eq_nil (h : s.Holds l) (hj : s.entry.joining = [k]) (hi : s.entry.inside = [k])
    (ht : s.tail = 0 ∨ s.tail = k ∨ s.linked s.tail = false) : l = [] := by
  by_contra hl
  obtain ⟨l', hl'⟩ := h.tail_eq hj hi hl
  have hmem : s.tail ∈ l := hl' ▸ List.mem_append_right _ (List.mem_singleton_self _)
  rcases ht with ht | ht | ht
  · refine h.ne_zero s.tail ?_ ht
    rw [h.entered]
    exact List.mem_append_left _ (List.mem_append_right _ hmem)
  · have := h.nodup
    rw [hj] at this
    exact (List.disjoint_of_nodup_append this) hmem (ht ▸ List.mem_singleton_self _)
  · rw [(h.linked s.tail).mpr (List.mem_append_left _ hmem)] at ht
    exact absurd ht nofun

end Holds

namespace Inv

variable {s : LinkedQueue K} {k t : K}

theorem enter [DecidableEq K] (h : s.Inv) (he : s.entry = .out) (hk : s.linked k = false) (h0 : k ≠ 0) :
    (s.enter k).Inv := by
  obtain ⟨l, h⟩ := h
  have hj : s.entry.joining = [] := by rw [he]; rfl
  have hkl : k ∉ l := fun hmem => by
    rw [(h.linked k).mpr (List.mem_append_left _ hmem)] at hk
    exact absurd hk nofun
  have hentered : s.entered = s.taken ++ l := by rw [h.entered, hj, List.append_nil]
  refine ⟨l, ⟨?_, ?_, ?_, ?_, ?_, h.next, h.tail, nofun, nofun, nofun, h.walking, h.waiting, h.once,
    ?_⟩⟩
  · exact congrArg (· ++ [k]) hentered
  · have := h.completed
    rw [he] at this
    exact congrArg (· ++ [k]) (this.trans (List.append_nil _))
  · intro j hmem
    rcases List.mem_append.mp hmem with hmem | hmem
    · exact h.ne_zero j hmem
    · exact List.mem_singleton.mp hmem ▸ h0
  · have hnd := h.nodup
    rw [hj, List.append_nil] at hnd
    exact hnd.append (List.nodup_singleton k) (List.disjoint_singleton.mpr hkl)
  · intro j
    change Function.update s.linked k true j = true ↔ j ∈ l ++ [k]
    by_cases hjk : j = k
    · subst hjk
      simp
    · rw [Function.update_of_ne hjk, h.linked, hj]
      simp [hjk]
  · intro hc hs hn
    rcases h.resting hc hs hn with hl | ⟨j, hj⟩
    · exact .inl hl
    · rw [he] at hj
      exact absurd hj nofun

/-- The producer goes on with its key, to look at the tail or to be alone. -/
theorem goto (h : s.Inv) {e : Entry K} (hj : s.entry.joining = [k]) (hi : s.entry.inside = [k])
    (hj' : e.joining = [k]) (hi' : e.inside = [k])
    (hb : ∀ j t, e = .behind j t → t = s.tail ∧ t ≠ 0 ∧ t ≠ j)
    (ha : ∀ j, e = .alone j → s.tail = 0 ∨ s.tail = k ∨ s.linked s.tail = false) :
    (s.goto e).Inv := by
  obtain ⟨l, h⟩ := h
  refine ⟨l, ⟨?_, ?_, h.ne_zero, ?_, ?_, h.next, h.tail, hb, ?_, ?_, h.walking, h.waiting, h.once,
    ?_⟩⟩
  · exact h.entered.trans (by rw [hj, ← hj']; rfl)
  · exact h.completed.trans (by rw [hi, ← hi']; rfl)
  · have hnd := h.nodup
    rwa [hj, ← hj'] at hnd
  · intro j
    have hlj := h.linked j
    rwa [hj, ← hj'] at hlj
  · intro j hej
    exact h.eq_nil hj hi (ha j hej)
  · rintro j rfl
    exact absurd hj' nofun
  · intro hc hs hn
    rcases h.resting hc hs hn with hl | ⟨j, hej⟩
    · exact .inl hl
    · rw [hej] at hj
      exact absurd hj nofun

theorem join [DecidableEq K] (h : s.Inv) (he : s.entry = .behind k t) (ht : s.linked t = true) :
    (s.join k t).Inv := by
  obtain ⟨l, h⟩ := h
  have hj : s.entry.joining = [k] := by rw [he]; rfl
  have hi : s.entry.inside = [k] := by rw [he]; rfl
  obtain ⟨htail, ht0, htk⟩ := h.behind k t he
  have hnd : (l ++ [k]).Nodup := hj ▸ h.nodup
  have hmem : t ∈ l := by
    rcases List.mem_append.mp ((h.linked t).mp ht) with hmem | hmem
    · exact hmem
    · rw [hj] at hmem
      exact absurd (List.mem_singleton.mp hmem) htk
  have hkl : k ∉ l := fun hmem => List.disjoint_of_nodup_append hnd hmem (List.mem_singleton_self k)
  have hk0 : k ≠ 0 := by
    apply h.ne_zero
    rw [h.entered, hj]
    exact List.mem_append_right _ (List.mem_singleton_self k)
  -- the tail is the last member of the list, and the chain grows behind it
  obtain ⟨l', hl'⟩ := h.tail_eq hj hi (List.ne_nil_of_mem hmem)
  rw [← htail] at hl'
  have happend : ∀ a, Chain s.next a l → Chain (Function.update s.next t k) a (l ++ [k]) := by
    intro a hc
    rw [hl'] at hc ⊢
    exact hc.append (hl' ▸ hnd.of_append_left) hk0 (h.next k hkl) (Ne.symm htk)
  refine ⟨l ++ [k], ⟨?_, ?_, h.ne_zero, ?_, ?_, ?_, h.tail, nofun, nofun, nofun, ?_, ?_, h.once,
    ?_⟩⟩
  · change s.entered = s.taken ++ (l ++ [k]) ++ []
    rw [List.append_nil, ← List.append_assoc, h.entered, hj]
  · exact h.completed.trans (by rw [hi]; rfl)
  · exact (List.append_nil (l ++ [k])).symm ▸ hnd
  · intro j
    have hlj := h.linked j
    rw [hj] at hlj
    change s.linked j = true ↔ j ∈ l ++ [k] ++ []
    rwa [List.append_nil]
  · intro j hjl
    change Function.update s.next t k j = 0
    have hjt : j ≠ t := by
      rintro rfl
      exact hjl (List.mem_append_left _ hmem)
    rw [Function.update_of_ne hjt]
    exact h.next j fun hjl' => hjl (List.mem_append_left _ hjl')
  · exact fun hc => ⟨happend _ (h.walking hc).1, (h.walking hc).2⟩
  · exact fun hc hs => ⟨by simp, happend _ (h.waiting hc hs).2⟩
  · intro hc hs hn
    rcases h.resting hc hs hn with hl | ⟨j, hej⟩
    · rw [hl] at hmem
      exact absurd hmem List.not_mem_nil
    · rw [he] at hej
      exact absurd hej nofun

theorem putHead (h : s.Inv) (he : s.entry = .alone k) : (s.putHead k).Inv := by
  obtain ⟨l, h⟩ := h
  obtain rfl := h.alone k he
  have hj : s.entry.joining = [k] := by rw [he]; rfl
  have hi : s.entry.inside = [k] := by rw [he]; rfl
  have hcursor : s.cursor = 0 := by
    by_contra hc
    exact (h.walking hc).1.ne_nil hc rfl
  have hquiet : s.signal = false ∧ s.noticed = false := by
    constructor
    · by_contra hs
      exact (h.waiting hcursor (.inl (eq_true_of_ne_false hs))).1 rfl
    · by_contra hn
      exact (h.waiting hcursor (.inr (eq_true_of_ne_false hn))).1 rfl
  refine ⟨[k], ⟨?_, ?_, h.ne_zero, List.nodup_singleton k, ?_, ?_, h.tail, nofun, nofun, ?_, ?_, ?_,
    h.once, ?_⟩⟩
  · change s.entered = s.taken ++ [k] ++ []
    rw [List.append_nil, h.entered, hj, List.append_nil]
  · exact h.completed.trans (by rw [hi]; rfl)
  · intro j
    have hlj := h.linked j
    rw [hj] at hlj
    exact hlj
  · exact fun j _ => h.next j List.not_mem_nil
  · rintro j ⟨⟩
    exact ⟨rfl, h.next k List.not_mem_nil, rfl, hcursor, hquiet⟩
  · exact fun hc => absurd hcursor hc
  · rintro - (hs | hn)
    · exact absurd (hs.symm.trans hquiet.1) nofun
    · exact absurd (hn.symm.trans hquiet.2) nofun
  · exact fun _ _ _ => .inr ⟨k, rfl⟩

theorem raise (h : s.Inv) (he : s.entry = .headed k) : (s.raise k).Inv := by
  obtain ⟨l, h⟩ := h
  obtain ⟨rfl, hnext, hhead, hcursor, -, hnoticed⟩ := h.headed k he
  have hj : s.entry.joining = [] := by rw [he]; rfl
  have hi : s.entry.inside = [k] := by rw [he]; rfl
  have hk0 : k ≠ 0 := by
    apply h.ne_zero
    rw [h.completed, hi]
    exact List.mem_append_right _ (List.mem_singleton_self k)
  refine ⟨[k], ⟨?_, ?_, h.ne_zero, List.nodup_singleton k, ?_, h.next, h.tail, nofun, nofun, nofun, ?_,
    ?_, ?_, ?_⟩⟩
  · exact h.entered.trans (by rw [hj]; rfl)
  · exact h.completed.trans (by rw [hi]; rfl)
  · intro j
    have hlj := h.linked j
    rw [hj] at hlj
    exact hlj
  · exact fun hc => absurd hcursor hc
  · exact fun _ _ => ⟨List.cons_ne_nil _ _, hhead, hk0, hnext⟩
  · intro hn
    exact absurd (hnoticed.symm.trans hn) nofun
  · intro _ hs
    exact absurd hs nofun

theorem complete (h : s.Inv) (he : s.entry = .joined k) : (s.complete k).Inv := by
  obtain ⟨l, h⟩ := h
  have hj : s.entry.joining = [] := by rw [he]; rfl
  have hi : s.entry.inside = [k] := by rw [he]; rfl
  refine ⟨l, ⟨?_, ?_, h.ne_zero, ?_, ?_, h.next, ?_, nofun, nofun, nofun, h.walking, h.waiting, h.once,
    ?_⟩⟩
  · exact h.entered.trans (by rw [hj]; rfl)
  · change s.entered = s.completed ++ [k] ++ []
    rw [List.append_nil, h.completed, hi]
  · have hnd := h.nodup
    rwa [hj] at hnd
  · intro j
    have hlj := h.linked j
    rw [hj] at hlj
    exact hlj
  · exact (List.getLastD_append_singleton _ _ _).symm
  · intro hc hs hn
    rcases h.resting hc hs hn with hl | ⟨j, hej⟩
    · exact .inl hl
    · rw [he] at hej
      exact absurd hej nofun

theorem exchange (h : s.Inv) : s.exchange.Inv := by
  obtain ⟨l, h⟩ := h
  have hor : s.exchange.noticed = true → s.signal = true ∨ s.noticed = true := fun hn =>
    (Bool.or_eq_true _ _ ▸ hn).symm
  refine ⟨l, ⟨h.entered, h.completed, h.ne_zero, h.nodup, h.linked, h.next, h.tail, h.behind, h.alone,
    ?_, ?_, ?_, fun _ => rfl, ?_⟩⟩
  · intro k he
    obtain ⟨hl, hnext, hhead, hcursor, hsignal, hnoticed⟩ := h.headed k he
    refine ⟨hl, hnext, hhead, hcursor, rfl, ?_⟩
    change (s.noticed || s.signal) = false
    rw [hnoticed, hsignal]
    rfl
  · intro hc
    refine ⟨(h.walking hc).1, ?_⟩
    change (s.noticed || s.signal) = true
    rw [(h.walking hc).2, Bool.true_or]
  · rintro hc (hs | hn)
    · exact absurd hs nofun
    · exact h.waiting hc (hor hn)
  · intro hc _ hn
    obtain ⟨hn, hs⟩ := Bool.or_eq_false_iff.mp hn
    exact h.resting hc hs hn

theorem start (h : s.Inv) (hc : s.cursor = 0) (hn : s.noticed = true) : s.start.Inv := by
  obtain ⟨l, h⟩ := h
  obtain ⟨hl, hchain⟩ := h.waiting hc (.inr hn)
  refine ⟨l, ⟨h.entered, h.completed, h.ne_zero, h.nodup, h.linked, h.next, h.tail, h.behind, h.alone,
    ?_, fun _ => ⟨hchain, hn⟩, ?_, h.once, ?_⟩⟩
  · intro k he
    obtain ⟨-, -, -, -, -, hnoticed⟩ := h.headed k he
    exact absurd (hnoticed.symm.trans hn) nofun
  · exact fun hhead => absurd hhead (hchain.ne_zero hl)
  · exact fun hhead => absurd hhead (hchain.ne_zero hl)

theorem unlink [DecidableEq K] (h : s.Inv) (hc : s.cursor ≠ 0) : s.unlink.Inv := by
  obtain ⟨l, h⟩ := h
  obtain ⟨hchain, hn⟩ := h.walking hc
  cases l with
  | nil => exact absurd hchain hc
  | cons k l =>
    obtain ⟨hk, hk0, hrest⟩ := hchain
    have hnd : (k :: (l ++ s.entry.joining)).Nodup := h.nodup
    have hkl : k ∉ l ++ s.entry.joining := (List.nodup_cons.mp hnd).1
    -- the links of the other members stay
    have hrest' : Chain s.unlink.next (s.next k) l := hrest.congr fun j hj => by
      have hjk : j ≠ s.cursor := by
        rintro rfl
        exact hkl (List.mem_append_left _ (hk ▸ hj))
      exact Function.update_of_ne hjk _ _
    have hcursor : s.unlink.cursor = s.next k := congrArg s.next hk
    have hnoticed : s.unlink.noticed = decide (s.next k ≠ 0) := by
      change (s.noticed && decide (s.next s.cursor ≠ 0)) = _
      rw [hn, hk, Bool.true_and]
    refine ⟨l, ⟨?_, h.completed, h.ne_zero, (List.nodup_cons.mp hnd).2, ?_, ?_, h.tail, h.behind, ?_, ?_,
      ?_, ?_, ?_, ?_⟩⟩
    · change s.entered = s.taken ++ [s.cursor] ++ l ++ s.entry.joining
      rw [h.entered, hk, List.append_assoc s.taken [k] l]
      rfl
    · intro j
      change Function.update s.linked s.cursor false j = true ↔ _
      by_cases hj : j = s.cursor
      · subst hj
        rw [Function.update_self, hk]
        exact iff_of_false nofun hkl
      · rw [Function.update_of_ne hj, h.linked]
        exact List.mem_cons.trans (or_iff_right (hk ▸ hj))
    · intro j hj
      change Function.update s.next s.cursor 0 j = 0
      by_cases hjk : j = s.cursor
      · rw [hjk, Function.update_self]
      · rw [Function.update_of_ne hjk]
        apply h.next
        intro hmem
        rcases List.mem_cons.mp hmem with rfl | hmem
        · exact hjk hk.symm
        · exact hj hmem
    · intro j he
      exact absurd (h.alone j he) (List.cons_ne_nil _ _)
    · intro j he
      obtain ⟨-, -, -, hcursor, -⟩ := h.headed j he
      exact absurd hcursor hc
    · intro h0
      rw [hcursor] at h0 ⊢
      exact ⟨hrest', hnoticed.trans (decide_eq_true h0)⟩
    · intro h0 hs
      rw [hcursor] at h0
      rcases hs with hs | hs
      · exact absurd (hs.symm.trans (h.once hn)) nofun
      · rw [hnoticed] at hs
        exact absurd h0 (of_decide_eq_true hs)
    · exact fun _ => h.once hn
    · intro h0 _ _
      rw [hcursor] at h0
      refine .inl ?_
      by_contra hl
      exact hrest.ne_zero hl h0

/-! ### What follows -/

/-- **What is taken has entered, in this order.** -/
theorem prefix_of_taken (h : s.Inv) : s.taken <+: s.entered := by
  obtain ⟨l, h⟩ := h
  rw [h.entered, List.append_assoc]
  exact List.prefix_append _ _

/-- **A key is linked exactly while it has entered and has not been taken**, and then once. -/
theorem linked_iff (h : s.Inv) :
    (s.entered.drop s.taken.length).Nodup ∧
      ∀ k, s.linked k = true ↔ k ∈ s.entered.drop s.taken.length := by
  obtain ⟨l, h⟩ := h
  rw [h.entered, List.append_assoc, List.drop_left]
  exact ⟨h.nodup, h.linked⟩

/-- The consumer is at the key that is to be taken next. -/
theorem cursor_next [DecidableEq K] (h : s.Inv) (hc : s.cursor ≠ 0) :
    s.linked s.cursor = true ∧ s.taken ++ [s.cursor] <+: s.entered := by
  have hu := (h.unlink hc).prefix_of_taken
  obtain ⟨l, h⟩ := h
  obtain ⟨hchain, -⟩ := h.walking hc
  cases l with
  | nil => exact absurd hchain hc
  | cons k l => exact ⟨(h.linked _).mpr (hchain.1 ▸ List.mem_cons_self), hu⟩

/-- There is a list behind a signal. -/
theorem head_ne_zero (h : s.Inv) (hc : s.cursor = 0) (hn : s.noticed = true) : s.head ≠ 0 := by
  obtain ⟨l, h⟩ := h
  obtain ⟨hl, hchain⟩ := h.waiting hc (.inr hn)
  exact hchain.ne_zero hl

/-- The tail that the producer has looked at is the tail still. -/
theorem behind_tail (h : s.Inv) (he : s.entry = .behind k t) :
    t = s.tail ∧ t ≠ 0 ∧ t ≠ k := by
  obtain ⟨l, h⟩ := h
  exact h.behind k t he

/-- The tail has entered. -/
theorem tail_mem (h : s.Inv) (ht : s.tail ≠ 0) : s.tail ∈ s.entered := by
  obtain ⟨l, h⟩ := h
  rw [h.completed]
  apply List.mem_append_left
  rw [h.tail] at ht ⊢
  rcases List.eq_nil_or_concat s.completed with hc | ⟨l', k, hc⟩
  · rw [hc] at ht
    exact absurd rfl ht
  · rw [hc, List.concat_eq_append, List.getLastD_append_singleton]
    exact List.mem_append_right _ (List.mem_singleton_self k)

theorem noticed_of_cursor (h : s.Inv) (hc : s.cursor ≠ 0) : s.noticed = true := by
  obtain ⟨l, h⟩ := h
  exact (h.walking hc).2

/-- **No signal, nothing left**: what the producer has finished with has been taken. -/
theorem prefix_of_completed (h : s.Inv) (hn : s.noticed = false) (hs : s.signal = false) :
    s.cursor = 0 ∧ s.completed <+: s.taken := by
  have hc : s.cursor = 0 := by
    by_contra hc
    exact absurd ((h.noticed_of_cursor hc).symm.trans hn) nofun
  obtain ⟨l, h⟩ := h
  refine ⟨hc, ?_⟩
  rcases h.resting hc hs hn with rfl | ⟨k, he⟩
  · -- everything that can be met has been taken
    have heq : s.taken ++ s.entry.joining = s.completed ++ s.entry.inside := by
      rw [← h.completed, h.entered, List.append_nil]
    cases hentry : s.entry <;> rw [hentry] at heq
    case out => exact (List.append_cancel_right heq) ▸ List.prefix_rfl
    case headed | joined => exact ⟨_, heq.symm.trans (List.append_nil _)⟩
    all_goals exact (List.append_cancel_right heq) ▸ List.prefix_rfl
  · obtain ⟨rfl, -⟩ := h.headed k he
    have heq : s.taken ++ [k] = s.completed ++ [k] := by
      have := h.entered.symm.trans h.completed
      rwa [he, show (Entry.headed k).joining = [] from rfl, List.append_nil] at this
    exact (List.append_cancel_right heq) ▸ List.prefix_rfl

end Inv

end LinkedQueue
