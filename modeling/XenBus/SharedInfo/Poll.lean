import Mathlib.Data.List.Range
import Mathlib.Data.List.Nodup
import XenBus.Foundations.Bitmap
import XenBus.Foundations.Transition

/-!
# The two-level poll

`SharedInfoEvtchnPoll`: the scan of the words that the hypervisor shares with the guest, from the position
that the poll before it has left. The words do not change while they are scanned; the selector word is
exchanged with zero at the start. `fuel` bounds the turns of a loop, and a loop that is not done with them has
no result.

A word is always scanned from its first bit on, because the saved position is that of a first bit
(`Aligned`). So all ports of a selector are handled when it is met, the selector is cleared, and no selector
is met twice: the events are those of the raised ports, once around from the saved position
(`polled_once`).
-/

namespace XenBus.SharedInfo.Poll

open Transition

/-- `XENBUS_SHARED_INFO_EVTCHN_PER_SELECTOR`. -/
abbrev PER_SELECTOR : ℕ := 64

/-- `XENBUS_SHARED_INFO_EVTCHN_SELECTOR_COUNT`. -/
abbrev SELECTOR_COUNT : ℕ := 64

/-- `evtchn_pending_sel` of the vCPU, and the words of the ports. -/
structure Shared where
  evtchn_pending_sel : BitVec PER_SELECTOR
  evtchn_pending : ℕ → BitVec PER_SELECTOR
  evtchn_mask : ℕ → BitVec PER_SELECTOR

/-- `XENBUS_SHARED_INFO_PROCESSOR`: whether `Vcpu` is not `NULL`, and `Port`. -/
structure Processor where
  Vcpu : Bool
  Port : ℕ

/-- `PortMask` at its start. -/
def Shared.portMask (shared : Shared) (SelectorBit : ℕ) : BitVec PER_SELECTOR :=
  shared.evtchn_pending SelectorBit &&& ~~~shared.evtchn_mask SelectorBit

/-- The loop over the ports of a selector: the ports whose `Event` is called, and `PortMask` after it. -/
def pollPorts (SelectorBit : ℕ) :
    (fuel : ℕ) → (PortMask : BitVec PER_SELECTOR) → (PortBit : ℕ) → Option (List ℕ × BitVec PER_SELECTOR)
  | 0, _, _ => none
  | fuel + 1, PortMask, PortBit =>
    if PortMask ≠ 0 ∧ PortBit < PER_SELECTOR then
      if PortMask.getLsbD PortBit then
        (pollPorts SelectorBit fuel (Bitmap.clearBit PortMask PortBit) (PortBit + 1)).map
          fun (ports, PortMask) => ((SelectorBit * PER_SELECTOR + PortBit) :: ports, PortMask)
      else pollPorts SelectorBit fuel PortMask (PortBit + 1)
    else some ([], PortMask)

/-- A turn of the loop over the selectors, for the selector of `Port`: the ports whose `Event` is called, and
`SelectorMask` after it. -/
def pollSelector (shared : Shared) (SelectorMask : BitVec PER_SELECTOR) (Port : ℕ) :
    Option (List ℕ × BitVec PER_SELECTOR) :=
  let SelectorBit := Port / PER_SELECTOR
  let PortBit := Port % PER_SELECTOR
  if SelectorMask.getLsbD SelectorBit then
    (pollPorts SelectorBit (PER_SELECTOR + 1) (shared.portMask SelectorBit) PortBit).map
      fun (ports, PortMask) =>
        (ports, if PortMask = 0 then Bitmap.clearBit SelectorMask SelectorBit else SelectorMask)
  else some ([], SelectorMask)

/-- `Port` at the end of a turn. -/
def nextPort (Port : ℕ) : ℕ :=
  let Port := (Port / PER_SELECTOR + 1) * PER_SELECTOR
  if SELECTOR_COUNT * PER_SELECTOR ≤ Port then 0 else Port

/-- The loop over the selectors: the ports whose `Event` is called, and `Port` after it. -/
def pollSelectors (shared : Shared) :
    (fuel : ℕ) → (SelectorMask : BitVec PER_SELECTOR) → (Port : ℕ) → Option (List ℕ × ℕ)
  | 0, _, _ => none
  | fuel + 1, SelectorMask, Port =>
    if SelectorMask = 0 then some ([], Port)
    else
      (pollSelector shared SelectorMask Port).bind fun (ports, SelectorMask) =>
        (pollSelectors shared fuel SelectorMask (nextPort Port)).map
          fun (more, Port) => (ports ++ more, Port)

/-- `SharedInfoEvtchnPoll`: `DoneSomething`, the ports whose `Event` is called, and the processor after it. -/
def sharedInfoEvtchnPoll (fuel : ℕ) (shared : Shared) (Event : ℕ → Bool) (processor : Processor) :
    Option (Bool × List ℕ × Processor) :=
  if processor.Vcpu then
    (pollSelectors shared fuel shared.evtchn_pending_sel processor.Port).map
      fun (ports, Port) => (ports.any Event, ports, { processor with Port := Port })
  else some (false, [], processor)

variable {shared : Shared} {M m : BitVec PER_SELECTOR} {s b n fuel : ℕ}

/-! ## The ports of a selector -/

/-- The ports of a selector from the bit `b` on whose bits are set. -/
def portsFrom (s : ℕ) (m : BitVec PER_SELECTOR) (b : ℕ) : List ℕ :=
  ((List.range' b (PER_SELECTOR - b)).filter m.getLsbD).map (s * PER_SELECTOR + ·)

theorem portsFrom_zero (s b : ℕ) : portsFrom s 0 b = [] := by
  rw [portsFrom, List.filter_eq_nil_iff.2 fun i _ => by simp, List.map_nil]

theorem portsFrom_succ (hb : b < PER_SELECTOR) : portsFrom s m b =
    if m.getLsbD b then (s * PER_SELECTOR + b) :: portsFrom s m (b + 1) else portsFrom s m (b + 1) := by
  obtain ⟨k, hk⟩ : ∃ k, PER_SELECTOR - b = k + 1 := ⟨PER_SELECTOR - b - 1, by omega⟩
  rw [portsFrom, hk, List.range'_succ, List.filter_cons, portsFrom,
    show PER_SELECTOR - (b + 1) = k by omega]
  split_ifs <;> rfl

/-- A bit below those that are looked at. -/
theorem portsFrom_clearBit (s : ℕ) (m : BitVec PER_SELECTOR) (b : ℕ) :
    portsFrom s (Bitmap.clearBit m b) (b + 1) = portsFrom s m (b + 1) := by
  rw [portsFrom, portsFrom]
  congr 1
  refine List.filter_congr fun i hi => Bitmap.getLsbD_clearBit_of_ne ?_
  have := (List.mem_range'_1.1 hi).1
  omega

theorem eq_zero_of_getLsbD (h : ∀ i < PER_SELECTOR, m.getLsbD i = false) : m = 0 := by
  refine BitVec.eq_of_getLsbD_eq fun i hi => ?_
  rw [h i hi]
  simp

/-- **The loop over the ports of a word**: from a bit below which none is set, all ports are handled, and
`PortMask` is then zero. -/
theorem pollPorts_eq (hb : b ≤ PER_SELECTOR) (hm : ∀ i < b, m.getLsbD i = false)
    (hfuel : PER_SELECTOR < b + fuel) : pollPorts s fuel m b = some (portsFrom s m b, 0) := by
  induction fuel generalizing m b with
  | zero => omega
  | succ fuel ih =>
    rw [pollPorts]
    by_cases hzero : m = 0
    · rw [if_neg fun h => h.1 hzero, hzero, portsFrom_zero]
    · have hlt : b < PER_SELECTOR := by
        by_contra hge
        exact hzero (eq_zero_of_getLsbD fun i hi => hm i (by omega))
      rw [if_pos ⟨hzero, hlt⟩, portsFrom_succ hlt]
      split_ifs with hbit
      · have hclear : ∀ i < b + 1, (Bitmap.clearBit m b).getLsbD i = false := by
          intro i hi
          rcases Nat.eq_or_lt_of_le (Nat.le_of_lt_succ hi) with rfl | hib
          · exact Bitmap.getLsbD_clearBit_self m i
          · rw [Bitmap.getLsbD_clearBit_of_ne (by omega)]
            exact hm i hib
        rw [ih hlt hclear (by omega), portsFrom_clearBit]
        rfl
      · refine ih hlt (fun i hi => ?_) (by omega)
        rcases Nat.eq_or_lt_of_le (Nat.le_of_lt_succ hi) with rfl | hib
        · exact Bool.eq_false_iff.2 hbit
        · exact hm i hib

/-! ## Once around -/

/-- The saved position is that of the first port of a selector. -/
def Aligned (Port : ℕ) : Prop := PER_SELECTOR ∣ Port ∧ Port < SELECTOR_COUNT * PER_SELECTOR

theorem aligned_iff {Port : ℕ} : Aligned Port ↔ ∃ s < SELECTOR_COUNT, Port = s * PER_SELECTOR := by
  simp only [Aligned, PER_SELECTOR, SELECTOR_COUNT]
  constructor
  · rintro ⟨⟨s, rfl⟩, hlt⟩
    exact ⟨s, by omega, by omega⟩
  · rintro ⟨s, hs, rfl⟩
    exact ⟨⟨s, by omega⟩, by omega⟩

/-- The selector after `s`. -/
def succ (s : ℕ) : ℕ := if s + 1 = SELECTOR_COUNT then 0 else s + 1

theorem succ_lt (h : s < SELECTOR_COUNT) : succ s < SELECTOR_COUNT := by
  rw [succ]
  split_ifs <;> omega

theorem nextPort_mul (h : s < SELECTOR_COUNT) : nextPort (s * PER_SELECTOR) = succ s * PER_SELECTOR := by
  simp only [nextPort, succ, PER_SELECTOR, SELECTOR_COUNT] at *
  rw [Nat.mul_div_cancel s (by omega)]
  split_ifs <;> omega

/-- The selectors, once around from `s`. -/
def around (s : ℕ) : List ℕ := List.range' s (SELECTOR_COUNT - s) ++ List.range s

theorem around_eq (h : s < SELECTOR_COUNT) :
    ∃ rest, s ∉ rest ∧ around s = s :: rest ∧ around (succ s) = rest ++ [s] := by
  obtain ⟨k, hk⟩ : ∃ k, SELECTOR_COUNT - s = k + 1 := ⟨SELECTOR_COUNT - s - 1, by omega⟩
  refine ⟨List.range' (s + 1) k ++ List.range s, ?_, ?_, ?_⟩
  · rw [List.mem_append, List.mem_range'_1, List.mem_range]
    omega
  · rw [around, hk, List.range'_succ, List.cons_append]
  · rw [around, succ]
    split_ifs with hlast
    · obtain rfl : k = 0 := by omega
      rw [List.range'_zero, List.nil_append, List.range_zero, List.append_nil, Nat.sub_zero, ← hlast,
        ← List.range_eq_range', List.range_succ]
    · rw [show SELECTOR_COUNT - (s + 1) = k by omega, List.range_succ, List.append_assoc]

/-- The raised ports of the selectors in the list whose bits are set. -/
def visited (shared : Shared) (M : BitVec PER_SELECTOR) (l : List ℕ) : List ℕ :=
  (l.filter M.getLsbD).flatMap fun s => portsFrom s (shared.portMask s) 0

theorem visited_append (M : BitVec PER_SELECTOR) (l l' : List ℕ) :
    visited shared M (l ++ l') = visited shared M l ++ visited shared M l' := by
  rw [visited, List.filter_append, List.flatMap_append]
  rfl

theorem visited_zero (l : List ℕ) : visited shared 0 l = [] := by
  rw [visited, List.filter_eq_nil_iff.2 fun i _ => by simp, List.flatMap_nil]

theorem visited_single (M : BitVec PER_SELECTOR) (s : ℕ) : visited shared M [s] =
    if M.getLsbD s then portsFrom s (shared.portMask s) 0 else [] := by
  rw [visited, List.filter_cons, List.filter_nil]
  split_ifs
  · exact List.append_nil _
  · rfl

theorem visited_clearBit {l : List ℕ} (h : s ∉ l) :
    visited shared (Bitmap.clearBit M s) l = visited shared M l := by
  have hfilter : l.filter (Bitmap.clearBit M s).getLsbD = l.filter M.getLsbD :=
    List.filter_congr fun i hi => Bitmap.getLsbD_clearBit_of_ne fun heq => h (heq ▸ hi)
  rw [visited, visited, hfilter]

/-- A turn of the loop over the selectors: the ports of the selector are handled, and it is cleared. -/
theorem pollSelector_eq (shared : Shared) (M : BitVec PER_SELECTOR) (s : ℕ) :
    pollSelector shared M (s * PER_SELECTOR) = some (visited shared M [s], Bitmap.clearBit M s) := by
  have hdiv : s * PER_SELECTOR / PER_SELECTOR = s := Nat.mul_div_cancel s (by decide)
  have hmod : s * PER_SELECTOR % PER_SELECTOR = 0 := Nat.mul_mod_left s PER_SELECTOR
  rw [pollSelector, hdiv, hmod, visited_single]
  split_ifs with hbit
  · rw [pollPorts_eq (Nat.zero_le _) (fun i hi => absurd hi (Nat.not_lt_zero i)) (by omega)]
    simp
  · have hclear : Bitmap.clearBit M s = M := by
      refine BitVec.eq_of_getLsbD_eq fun i _ => ?_
      rw [Bitmap.getLsbD_clearBit]
      by_cases heq : s = i
      · subst heq
        simp [Bool.eq_false_iff.2 hbit]
      · simp [heq]
    rw [hclear]

/-- What a turn handles and what is left is what there was. -/
theorem visited_turn (shared : Shared) (M : BitVec PER_SELECTOR) (hs : s < SELECTOR_COUNT) :
    visited shared M [s] ++ visited shared (Bitmap.clearBit M s) (around (succ s)) =
      visited shared M (around s) := by
  obtain ⟨rest, hnot, hs', hsucc⟩ := around_eq hs
  have hself : visited shared (Bitmap.clearBit M s) [s] = [] := by
    rw [visited_single, Bitmap.getLsbD_clearBit_self]
    rfl
  rw [hsucc, visited_append, hself, List.append_nil, visited_clearBit hnot, hs', ← visited_append]
  rfl

theorem pollSelectors_zero (shared : Shared) (hfuel : 0 < fuel) {Port : ℕ} :
    pollSelectors shared fuel 0 Port = some ([], Port) := by
  obtain ⟨f, rfl⟩ : ∃ f, fuel = f + 1 := ⟨fuel - 1, by omega⟩
  rw [pollSelectors, if_pos rfl]

/-- **The loop over the selectors**, where those that are set are met within `n` turns. -/
theorem pollSelectors_eq (shared : Shared) (hs : s < SELECTOR_COUNT)
    (hM : ∀ j < SELECTOR_COUNT, M.getLsbD j = true → (j + SELECTOR_COUNT - s) % SELECTOR_COUNT < n) :
    ∃ t < SELECTOR_COUNT, ∀ fuel, n < fuel →
      pollSelectors shared fuel M (s * PER_SELECTOR) =
        some (visited shared M (around s), t * PER_SELECTOR) := by
  induction n generalizing M s with
  | zero =>
    refine ⟨s, hs, fun fuel hfuel => ?_⟩
    obtain rfl : M = 0 := eq_zero_of_getLsbD fun j hj => Bool.eq_false_iff.2 fun hbit =>
      absurd (hM j hj hbit) (Nat.not_lt_zero _)
    rw [pollSelectors_zero shared hfuel, visited_zero]
  | succ n ih =>
    by_cases hM0 : M = 0
    · refine ⟨s, hs, fun fuel hfuel => ?_⟩
      rw [hM0, pollSelectors_zero shared (by omega), visited_zero]
    · have hleft : ∀ j < SELECTOR_COUNT, (Bitmap.clearBit M s).getLsbD j = true →
          (j + SELECTOR_COUNT - succ s) % SELECTOR_COUNT < n := by
        intro j hj hbit
        rw [Bitmap.getLsbD_clearBit, Bool.and_eq_true, Bool.not_eq_true', decide_eq_false_iff_not] at hbit
        have hdist := hM j hj hbit.1
        have hne := hbit.2
        simp only [succ, SELECTOR_COUNT] at *
        split_ifs <;> omega
      obtain ⟨t, ht, hrest⟩ := ih (succ_lt hs) hleft
      refine ⟨t, ht, fun fuel hfuel => ?_⟩
      obtain ⟨f, rfl⟩ : ∃ f, fuel = f + 1 := ⟨fuel - 1, by omega⟩
      rw [pollSelectors, if_neg hM0, pollSelector_eq, Option.bind_some, nextPort_mul hs,
        ← visited_turn shared M hs]
      simp only [hrest f (by omega), Option.map_some]

/-! ## The raised ports -/

/-- The port is pending and not masked, and the bit of its selector is set. -/
def Shared.raised (shared : Shared) (Port : ℕ) : Bool :=
  shared.evtchn_pending_sel.getLsbD (Port / PER_SELECTOR) && Bitmap.get shared.evtchn_pending Port &&
    !Bitmap.get shared.evtchn_mask Port

/-- The ports, once around from the saved position. -/
def portsAround (Port : ℕ) : List ℕ :=
  List.range' Port (SELECTOR_COUNT * PER_SELECTOR - Port) ++ List.range Port

theorem raised_mul_add (shared : Shared) (s : ℕ) {i : ℕ} (hi : i < PER_SELECTOR) :
    shared.raised (s * PER_SELECTOR + i) =
      (shared.evtchn_pending_sel.getLsbD s && (shared.portMask s).getLsbD i) := by
  have hdiv : (s * PER_SELECTOR + i) / PER_SELECTOR = s := by
    simp only [PER_SELECTOR] at *
    omega
  have hmod : (s * PER_SELECTOR + i) % PER_SELECTOR = i := by
    simp only [PER_SELECTOR] at *
    omega
  rw [Shared.raised, Bitmap.get, Bitmap.get, hdiv, hmod, Shared.portMask, BitVec.getLsbD_and,
    BitVec.getLsbD_not, decide_eq_true hi, Bool.true_and, Bool.and_assoc]

/-- The raised ports of `k` selectors from `s` on. -/
theorem visited_range' (shared : Shared) (s k : ℕ) :
    visited shared shared.evtchn_pending_sel (List.range' s k) =
      (List.range' (s * PER_SELECTOR) (k * PER_SELECTOR)).filter shared.raised := by
  induction k generalizing s with
  | zero => simp [visited]
  | succ k ih =>
    have hone : visited shared shared.evtchn_pending_sel [s] =
        (List.range' (s * PER_SELECTOR) PER_SELECTOR).filter shared.raised := by
      have hports : List.range' (s * PER_SELECTOR) PER_SELECTOR =
          (List.range' 0 PER_SELECTOR).map (s * PER_SELECTOR + ·) := by
        rw [List.map_add_range', Nat.add_zero]
      have hraised : (List.range' 0 PER_SELECTOR).filter (shared.raised ∘ (s * PER_SELECTOR + ·)) =
          (List.range' 0 PER_SELECTOR).filter fun i =>
            shared.evtchn_pending_sel.getLsbD s && (shared.portMask s).getLsbD i :=
        List.filter_congr fun i hi => raised_mul_add shared s (by simpa using (List.mem_range'_1.1 hi).2)
      rw [visited_single, portsFrom, hports, List.filter_map, hraised, Nat.sub_zero]
      cases shared.evtchn_pending_sel.getLsbD s <;> simp
    rw [List.range'_succ, ← List.singleton_append, visited_append, ih, hone, Nat.add_mul, Nat.one_mul,
      Nat.add_mul, Nat.one_mul, Nat.add_comm (k * PER_SELECTOR), ← List.range'_append_1, List.filter_append]

theorem visited_around (shared : Shared) (s : ℕ) :
    visited shared shared.evtchn_pending_sel (around s) =
      (portsAround (s * PER_SELECTOR)).filter shared.raised := by
  have hbefore : List.range (s * PER_SELECTOR) = List.range' (0 * PER_SELECTOR) (s * PER_SELECTOR) := by
    rw [List.range_eq_range', Nat.zero_mul]
  have hafter : (SELECTOR_COUNT - s) * PER_SELECTOR = SELECTOR_COUNT * PER_SELECTOR - s * PER_SELECTOR :=
    Nat.sub_mul _ _ _
  rw [around, visited_append, visited_range', List.range_eq_range', visited_range', portsAround, hbefore,
    hafter, List.filter_append]

theorem nodup_portsAround (Port : ℕ) : (portsAround Port).Nodup := by
  refine List.nodup_append.2 ⟨List.nodup_range', List.nodup_range, ?_⟩
  intro i hi j hj heq
  have hle := (List.mem_range'_1.1 hi).1
  have hlt := List.mem_range.1 hj
  omega

theorem mem_portsAround {Port p : ℕ} (h : Port ≤ SELECTOR_COUNT * PER_SELECTOR) :
    p ∈ portsAround Port ↔ p < SELECTOR_COUNT * PER_SELECTOR := by
  rw [portsAround, List.mem_append, List.mem_range'_1, List.mem_range]
  omega

/-- Each raised port is met once. -/
theorem count_raised (shared : Shared) {Port : ℕ} (h : Port ≤ SELECTOR_COUNT * PER_SELECTOR) (p : ℕ) :
    ((portsAround Port).filter shared.raised).count p =
      if p < SELECTOR_COUNT * PER_SELECTOR ∧ shared.raised p = true then 1 else 0 := by
  simp only [((nodup_portsAround Port).filter _).count, List.mem_filter, mem_portsAround h]

/-! ## Polls -/

/-- **`SharedInfoEvtchnPoll`** from the saved position of a selector: it ends within one turn for each
selector, and its events are those of the raised ports. -/
theorem sharedInfoEvtchnPoll_eq (shared : Shared) (Event : ℕ → Bool) {processor : Processor}
    (h : Aligned processor.Port) : ∃ Port, Aligned Port ∧ ∀ fuel, SELECTOR_COUNT < fuel →
      sharedInfoEvtchnPoll fuel shared Event processor =
        some (if processor.Vcpu then
          (((portsAround processor.Port).filter shared.raised).any Event,
            (portsAround processor.Port).filter shared.raised, { processor with Port := Port })
        else (false, [], processor)) := by
  obtain ⟨s, hs, hPort⟩ := aligned_iff.1 h
  obtain ⟨t, ht, hpoll⟩ := pollSelectors_eq (M := shared.evtchn_pending_sel) shared hs
    fun j hj _ => Nat.mod_lt _ (by decide)
  refine ⟨t * PER_SELECTOR, aligned_iff.2 ⟨t, ht, rfl⟩, fun fuel hfuel => ?_⟩
  rw [sharedInfoEvtchnPoll]
  split_ifs
  · rw [hPort, hpoll fuel hfuel, visited_around shared s]
    rfl
  · rfl

/-- A poll, with the words as it finds them. -/
def pollStep (Event : ℕ → Bool) (processor : Processor) (shared : Shared) : Option Processor :=
  (sharedInfoEvtchnPoll (SELECTOR_COUNT + 1) shared Event processor).map fun result => result.2.2

theorem Aligned.pollStep {Event : ℕ → Bool} {processor processor' : Processor} (h : Aligned processor.Port)
    (hstep : pollStep Event processor shared = some processor') : Aligned processor'.Port := by
  obtain ⟨Port, hPort, hpoll⟩ := sharedInfoEvtchnPoll_eq shared Event h
  rw [Poll.pollStep, hpoll _ (Nat.lt_succ_self _), Option.map_some, Option.some.injEq] at hstep
  subst hstep
  split_ifs
  · exact hPort
  · exact h

/-- **The two-level poll visits every raised port exactly once.** Whatever the polls before have left as the
saved position, it is that of the first port of a selector; from there, a poll ends, calls `Event` once for
each raised port and for no other, in increasing order once around, and leaves such a position. -/
theorem polled_once :
    (∀ (Event : ℕ → Bool) (Vcpu : Bool) (processor : Processor),
      Reaches (pollStep Event) Free ⟨Vcpu, 0⟩ processor → Aligned processor.Port) ∧
    ∀ (shared : Shared) (Event : ℕ → Bool) (processor : Processor), Aligned processor.Port →
      ∃ DoneSomething ports processor',
        (∀ fuel, SELECTOR_COUNT < fuel →
          sharedInfoEvtchnPoll fuel shared Event processor = some (DoneSomething, ports, processor')) ∧
        Aligned processor'.Port ∧ DoneSomething = ports.any Event ∧
        (processor.Vcpu = true → ports = (portsAround processor.Port).filter shared.raised ∧
          ∀ p, ports.count p =
            if p < SELECTOR_COUNT * PER_SELECTOR ∧ shared.raised p = true then 1 else 0) ∧
        (processor.Vcpu = false → ports = []) := by
  constructor
  · intro Event Vcpu processor hreach
    exact hreach.invariant (P := fun processor => Aligned processor.Port) ⟨⟨0, rfl⟩, Nat.succ_pos _⟩
      fun _ _ _ h _ hstep => h.pollStep hstep
  · intro shared Event processor h
    obtain ⟨Port, hPort, hpoll⟩ := sharedInfoEvtchnPoll_eq shared Event h
    cases hVcpu : processor.Vcpu with
    | true =>
      simp only [hVcpu, if_true] at hpoll
      refine ⟨_, _, _, hpoll, hPort, rfl, fun _ => ⟨rfl, count_raised shared h.2.le⟩, fun hfalse => ?_⟩
      cases hfalse
    | false =>
      simp only [hVcpu, Bool.false_eq_true, if_false] at hpoll
      refine ⟨_, _, _, hpoll, h, rfl, fun htrue => ?_, fun _ => rfl⟩
      cases htrue

/-- Three raised ports, and a fourth that is masked. -/
def fourPorts : Shared := ⟨3, fun s => if s = 0 then 5 else 6, fun s => if s = 0 then 0 else 4⟩

theorem polled_once_four : ∃ DoneSomething ports processor',
    sharedInfoEvtchnPoll 65 fourPorts (fun _ => true) ⟨true, 64⟩ = some (DoneSomething, ports, processor') ∧
      Aligned processor'.Port ∧ ports.count 65 = 1 ∧ ports.count 66 = 0 := by
  obtain ⟨DoneSomething, ports, processor', hpoll, hPort, -, hports, -⟩ :=
    polled_once.2 fourPorts (fun _ => true) ⟨true, 64⟩ ⟨by decide, by decide⟩
  obtain ⟨-, hcount⟩ := hports rfl
  exact ⟨DoneSomething, ports, processor', hpoll 65 (by decide), hPort,
    (hcount 65).trans (by decide), (hcount 66).trans (by decide)⟩

end XenBus.SharedInfo.Poll
