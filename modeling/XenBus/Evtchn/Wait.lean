import Mathlib.Data.List.Basic
import Mathlib.Logic.Function.Iterate
import XenBus.Foundations.MachineInt

/-!
# Waiting for the next event

`EvtchnPoll` counts the events of a channel in `Channel->Count`, a `ULONG`. `EvtchnWait` waits until the count
has come to a value, and compares the two after it has extended them to 64 bits. Who waits for the next event
(`EvtchnWaitVersion5`, `StoreSubmitRequest`) takes the count and waits for the one that follows it.

`wait_satisfied_iff` says from which counts on this works, and for how many events: while the count does not
wrap. A count of `2 ^ 32 - 1` is followed by 0, for which nobody has to wait; and when the count wraps
between two looks of the waiter, it waits on (`evtchnWait_endless`).
-/

namespace XenBus.Evtchn.Wait

open MachineInt

/-! ## Counting and waiting -/

/-- `Channel->Count++`. -/
def increment (Count : ℕ) : ℕ := (Count + 1) % 4294967296

/-- `Channel->Count` when `k` more events have been counted. -/
def counted (Count k : ℕ) : ℕ := increment^[k] Count

/-- What is waited for by a caller that has seen the count: `Count + 1`, a `ULONG`. -/
def next (Count : ℕ) : ℕ := (Count + 1) % 4294967296

/-- The condition of `EvtchnWait`, `(LONG64)Count - (LONG64)Channel->Count <= 0`. -/
def satisfied (Count ChannelCount : ℕ) : Bool := decide (long64 ((Count : ℤ) - ChannelCount) ≤ 0)

/-- What `EvtchnWait` returns. -/
inductive Status
  | success
  | timeout
  deriving DecidableEq

/-- `Timeout` has passed: it is absolute, relative, or immediate; `none` is `NULL`. -/
def timedOut (Timeout : Option ℤ) (Start Now : ℤ) : Bool :=
  match Timeout with
  | none => false
  | some Timeout =>
    if 0 < Timeout then decide (Timeout < Now)
    else if Timeout < 0 then decide (long64 (-Timeout) < long64 (Now - Start))
    else true

/-- What a turn of the loop of `EvtchnWait` finds: `Channel->Count`, and the time. -/
structure Turn where
  Count : ℕ
  Now : ℤ

/-- `EvtchnWait`, for the turns of its loop: no result if it is still waiting after them. -/
def evtchnWait (Count : ℕ) (Timeout : Option ℤ) (Start : ℤ) : List Turn → Option Status
  | [] => none
  | turn :: turns =>
    if satisfied Count turn.Count then some .success
    else if timedOut Timeout Start turn.Now then some .timeout
    else evtchnWait Count Timeout Start turns

variable {c k : ℕ}

theorem counted_eq (hc : c < 4294967296) (k : ℕ) : counted c k = (c + k) % 4294967296 := by
  induction k with
  | zero => exact (Nat.mod_eq_of_lt hc).symm
  | succ k ih =>
    rw [counted, Function.iterate_succ_apply', ← counted, ih, increment]
    omega

theorem satisfied_iff {Count ChannelCount : ℕ} (h : Count < 4294967296) (h' : ChannelCount < 4294967296) :
    satisfied Count ChannelCount = true ↔ Count ≤ ChannelCount := by
  rw [satisfied, long64_of_mem (by omega) (by omega), decide_eq_true_iff]
  omega

/-! ## The next event -/

/-- The count does not wrap from the value that was seen up to that after `k` more events, nor does the one
that is waited for: if that is 0, any event is enough. -/
def Unwrapped (c k : ℕ) : Prop := if c = 4294967295 then 1 ≤ k else c + k < 4294967296

instance (c k : ℕ) : Decidable (Unwrapped c k) := inferInstanceAs (Decidable (ite _ _ _))

theorem satisfied_next_iff (c k : ℕ) (hc : c < 4294967296) (hk : k < 2147483648) :
    (satisfied (next c) (counted c k) = true ↔ 1 ≤ k) ↔ Unwrapped c k := by
  rw [next, counted_eq hc, satisfied_iff (Nat.mod_lt _ (by omega)) (Nat.mod_lt _ (by omega)), Unwrapped]
  split_ifs with hlast
  · subst hlast
    omega
  · rw [Nat.mod_eq_of_lt (show c + 1 < 4294967296 by omega)]
    omega

/-- A call of `EvtchnWait` without a timeout, while the count does not wrap: it is over when one of its turns
has come after an event. -/
theorem evtchnWait_of_unwrapped {Start : ℤ} {turns : List (ℕ × ℤ)} (hc : c < 4294967296)
    (h : ∀ turn ∈ turns, turn.1 < 2147483648 ∧ Unwrapped c turn.1) :
    evtchnWait (next c) none Start (turns.map fun turn => ⟨counted c turn.1, turn.2⟩) =
      if ∃ turn ∈ turns, 1 ≤ turn.1 then some .success else none := by
  induction turns with
  | nil => simp [evtchnWait]
  | cons turn turns ih =>
    obtain ⟨⟨hk, hunwrapped⟩, hrest⟩ := List.forall_mem_cons.1 h
    have hturn := (satisfied_next_iff c turn.1 hc hk).2 hunwrapped
    have hsplit : (∃ t ∈ turn :: turns, 1 ≤ t.1) ↔ 1 ≤ turn.1 ∨ ∃ t ∈ turns, 1 ≤ t.1 :=
      List.exists_mem_cons_iff _ _ _
    rw [List.map_cons, evtchnWait, ih hrest]
    by_cases hone : 1 ≤ turn.1
    · rw [if_pos (hturn.2 hone), if_pos (hsplit.2 (.inl hone))]
    · have hfalse : satisfied (next c) (counted c turn.1) = false := Bool.eq_false_iff.2 (mt hturn.1 hone)
      simp only [hfalse, timedOut, Bool.false_eq_true, if_false, hsplit, hone, false_or]

/-- Events that the waiter first looks for when the count has wrapped do not end its call. -/
theorem evtchnWait_endless {Start : ℤ} {turns : List (ℕ × ℤ)} (hc : c < 4294967295)
    (h : ∀ turn ∈ turns, turn.1 < 2147483648 ∧ 4294967296 ≤ c + turn.1) :
    evtchnWait (next c) none Start (turns.map fun turn => ⟨counted c turn.1, turn.2⟩) = none := by
  induction turns with
  | nil => rfl
  | cons turn turns ih =>
    obtain ⟨⟨hk, hwrapped⟩, hrest⟩ := List.forall_mem_cons.1 h
    have hnot : ¬ Unwrapped c turn.1 := by
      rw [Unwrapped, if_neg (by omega)]
      omega
    have hturn : satisfied (next c) (counted c turn.1) = false := by
      by_contra htrue
      exact hnot ((satisfied_next_iff c turn.1 (by omega) hk).1
        ⟨fun _ => by omega, fun _ => Bool.not_eq_false _ ▸ htrue⟩)
    rw [List.map_cons, evtchnWait, ih hrest]
    simp [hturn, timedOut]

/-- **Waiting for the next event works exactly as long as the count does not wrap**: `EvtchnWait` finds its
condition satisfied if and only if there has been an event. -/
theorem wait_satisfied_iff (c k : ℕ) (hc : c < 4294967296) (hk : k < 2147483648) :
    (satisfied (next c) (counted c k) = true ↔ 1 ≤ k) ↔ Unwrapped c k :=
  satisfied_next_iff c k hc hk

theorem wait_satisfied_iff_first : satisfied (next 0) (counted 0 1) = true ↔ 1 ≤ 1 :=
  (wait_satisfied_iff 0 1 (by omega) (by omega)).2 (by decide)

/-- **The wrap.** After a count of `2 ^ 32 - 1` the wait is over before there has been an event, and after
the count before that one two events do not end it. -/
theorem wait_wraps :
    satisfied (next 4294967295) (counted 4294967295 0) = true ∧
      satisfied (next 4294967294) (counted 4294967294 2) = false := by
  decide

end XenBus.Evtchn.Wait
