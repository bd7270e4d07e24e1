import Mathlib.Data.BitVec
import XenBus.Evtchn.Fifo
import XenBus.Foundations.LinkedQueue

/-!
# FIFO queues are drained without loss or repetition

Each queue of the vCPU is a `LinkedQueue` (`queueOf`): its producer is the enqueue that is between the
linked bit and the tail, if there is one, and its consumer is the poll, whose place in the list is what
`EvtchnFifoPollPriority` has in `Port` or `Head`, and otherwise `Context->Head`. An access of either
side is the access of one queue, and changes nothing of the others.
-/

namespace XenBus.Evtchn.Fifo

open Bitmap Transition

variable {ι : Type} {p : Config} {s s' : State ι} {o : ℕ → Option ι}

/-! ## The queue of a priority -/

/-- Where the producer of the queue is. -/
def Enqueue.entry : Enqueue → Entry ULONG
  | .readTail Port => .entered Port
  | .tailWord Port Tail | .tailLink Port Tail _ => .behind Port Tail
  | .writeHead Port => .alone Port
  | .setReady Port => .headed Port
  | .writeTail Port => .joined Port
  | .idle | .setPending _ | .testMasked _ | .setLinked _ => .out

/-- Where the poll is in the list of the priority, if it has it in a local variable. -/
def Poll.cursor (q : ℕ) : Poll → Option ULONG
  | .word Priority Port _ | .compare Priority Port _ _ => if Priority = q then some Port else none
  | .testMasked Priority _ Head _ | .testPending Priority _ Head _ | .event Priority _ Head _
  | .store Priority Head _ => if Priority = q then some Head else none
  | .returned _ | .exchange _ | .cached _ _ | .control _ _ => none

/-- `Ready` of the poll. -/
def Poll.Ready : Poll → ULONG
  | .returned _ => 0
  | .exchange l | .cached _ l | .control _ l | .word _ _ l | .compare _ _ _ l | .testMasked _ _ _ l
  | .testPending _ _ _ l | .event _ _ _ l | .store _ _ l => l.Ready

/-- The queue of the priority `q`, with its producer at `e`. -/
def queueOf (p : Config) (s : State ι) (q : ℕ) (e : Entry ULONG) : LinkedQueue ULONG where
  linked Port := testFlag (s.EventWord Port) LINKED && decide (p.priority Port = q)
  next Port := if p.priority Port = q then link (s.EventWord Port) else 0
  head := s.head q
  cursor := (s.poll.cursor q).getD (s.Head q)
  signal := s.ready.getLsbD q
  noticed := s.poll.Ready.getLsbD q
  tail := s.tail q
  entry := e
  entered := s.enqueued q
  completed := s.completed q
  taken := s.unlinked q

/-- The producer of the queue, whose owner is `o q`. -/
def entryOf (s : State ι) (o : ℕ → Option ι) (q : ℕ) : Entry ULONG :=
  match o q with
  | none => .out
  | some i => (s.pc i).entry

/-! ## Changes of one word -/

section Words

variable {Port w : ULONG} {q : ℕ} {e : Entry ULONG}

theorem setWord_self : (s.setWord Port w).EventWord Port = w := by
  unfold State.setWord
  exact Function.update_self ..

theorem setWord_of_ne {P : ULONG} (h : P ≠ Port) : (s.setWord Port w).EventWord P = s.EventWord P := by
  unfold State.setWord
  exact Function.update_of_ne h ..

theorem linked_setWord : (queueOf p (s.setWord Port w) q e).linked =
    Function.update (queueOf p s q e).linked Port (testFlag w LINKED && decide (p.priority Port = q)) := by
  funext P
  by_cases hP : P = Port
  · subst hP
    rw [Function.update_self]
    exact congrArg (fun v => testFlag v LINKED && _) setWord_self
  · rw [Function.update_of_ne hP]
    exact congrArg (fun v => testFlag v LINKED && _) (setWord_of_ne hP)

theorem next_setWord : (queueOf p (s.setWord Port w) q e).next =
    Function.update (queueOf p s q e).next Port (if p.priority Port = q then link w else 0) := by
  funext P
  by_cases hP : P = Port
  · subst hP
    rw [Function.update_self]
    exact congrArg (fun v => if p.priority P = q then link v else 0) setWord_self
  · rw [Function.update_of_ne hP]
    exact congrArg (fun v => if p.priority P = q then link v else 0)
      (setWord_of_ne hP)

/-- The word of a port of another queue does not count. -/
theorem queueOf_setWord_of_ne (h : p.priority Port ≠ q) :
    queueOf p (s.setWord Port w) q e = queueOf p s q e := by
  have hl : (queueOf p s q e).linked Port = (testFlag w LINKED && decide (p.priority Port = q)) := by
    simp [queueOf, h]
  have hn : (queueOf p s q e).next Port = (if p.priority Port = q then link w else 0) := by
    simp [queueOf, h]
  ext1 <;> try rfl
  · rw [linked_setWord, ← hl, Function.update_eq_self]
  · rw [next_setWord, ← hn, Function.update_eq_self]

/-- Neither do the other flags. -/
theorem queueOf_setWord_of_eq (hf : testFlag w LINKED = testFlag (s.EventWord Port) LINKED)
    (hl : link w = link (s.EventWord Port)) : queueOf p (s.setWord Port w) q e = queueOf p s q e := by
  ext1 <;> try rfl
  · rw [linked_setWord, hf]
    exact Function.update_eq_self Port (queueOf p s q e).linked
  · rw [next_setWord, hl]
    exact Function.update_eq_self Port (queueOf p s q e).next

end Words

/-! ## Who is at which queue -/

/-- `o` names the enqueue that is at each queue. -/
structure Owners (p : Config) (pc : ι → Enqueue) (o : ℕ → Option ι) : Prop where
  owns : ∀ i Port, (pc i).inside = some Port → o (p.priority Port) = some i
  owned : ∀ q i, o q = some i → ∃ Port, (pc i).inside = some Port ∧ p.priority Port = q

namespace Owners

variable [DecidableEq ι] {pc : ι → Enqueue} {i : ι} {e : Enqueue} {Port : ULONG}

/-- An enqueue moves on without entering or leaving its queue. -/
theorem stay (h : Owners p pc o) (he : e.inside = (pc i).inside) :
    Owners p (Function.update pc i e) o where
  owns j P hP := by
    by_cases hj : j = i
    · subst hj
      rw [Function.update_self, he] at hP
      exact h.owns j P hP
    · rw [Function.update_of_ne hj] at hP
      exact h.owns j P hP
  owned q j hq := by
    obtain ⟨P, hP, hPq⟩ := h.owned q j hq
    refine ⟨P, ?_, hPq⟩
    by_cases hj : j = i
    · subst hj
      rw [Function.update_self, he, hP]
    · rw [Function.update_of_ne hj, hP]

theorem enter (h : Owners p pc o) (he : e.inside = some Port) (hi : (pc i).inside = none)
    (hfree : o (p.priority Port) = none) :
    Owners p (Function.update pc i e) (Function.update o (p.priority Port) (some i)) where
  owns j P hP := by
    by_cases hj : j = i
    · subst hj
      rw [Function.update_self, he] at hP
      obtain rfl := Option.some.inj hP
      exact Function.update_self ..
    · rw [Function.update_of_ne hj] at hP
      have hne : p.priority P ≠ p.priority Port := fun heq => by
        have := h.owns j P hP
        rw [heq, hfree] at this
        exact absurd this nofun
      rw [Function.update_of_ne hne]
      exact h.owns j P hP
  owned q j hq := by
    by_cases hqe : q = p.priority Port
    · subst hqe
      rw [Function.update_self] at hq
      obtain rfl := Option.some.inj hq
      exact ⟨Port, by rw [Function.update_self, he], rfl⟩
    · rw [Function.update_of_ne hqe] at hq
      obtain ⟨P, hP, hPq⟩ := h.owned q j hq
      have hj : j ≠ i := by
        rintro rfl
        rw [hi] at hP
        exact absurd hP nofun
      exact ⟨P, by rw [Function.update_of_ne hj, hP], hPq⟩

theorem leave (h : Owners p pc o) (he : e.inside = none) (hi : (pc i).inside = some Port) :
    Owners p (Function.update pc i e) (Function.update o (p.priority Port) none) where
  owns j P hP := by
    by_cases hj : j = i
    · subst hj
      rw [Function.update_self, he] at hP
      exact absurd hP nofun
    · rw [Function.update_of_ne hj] at hP
      have hne : p.priority P ≠ p.priority Port := fun heq => by
        have h1 := h.owns j P hP
        rw [heq, h.owns i Port hi] at h1
        exact hj (Option.some.inj h1).symm
      rw [Function.update_of_ne hne]
      exact h.owns j P hP
  owned q j hq := by
    have hqe : q ≠ p.priority Port := by
      rintro rfl
      rw [Function.update_self] at hq
      exact absurd hq nofun
    rw [Function.update_of_ne hqe] at hq
    obtain ⟨P, hP, hPq⟩ := h.owned q j hq
    have hj : j ≠ i := by
      rintro rfl
      rw [hi] at hP
      obtain rfl := Option.some.inj hP
      exact hqe hPq.symm
    exact ⟨P, by rw [Function.update_of_ne hj, hP], hPq⟩

end Owners

/-! ## The invariant -/

/-- What the local variables of the poll are, by where it is. -/
def PollOk (s : State ι) : Poll → Prop
  | .returned _ => ∀ q, s.Head q = 0 ∧ s.lastRead q <+: s.unlinked q
  | .exchange _ | .store _ _ _ => True
  | .cached Priority l => l.Ready.getLsbD Priority = true
  | .control Priority l => l.Ready.getLsbD Priority = true ∧ s.Head Priority = 0
  | .word _ Port _ | .compare _ Port _ _ => Port ≠ 0
  | .testMasked Priority Port _ _ => (s.unlinked Priority).getLast? = some Port
  | .testPending Priority Port _ _ =>
    (s.unlinked Priority).getLast? = some Port ∧ testFlag (s.EventWord Port) MASKED = false
  | .event Priority Port _ _ =>
    (s.unlinked Priority).getLast? = some Port ∧ testFlag (s.EventWord Port) MASKED = false ∧
      testFlag (s.EventWord Port) PENDING = true

/-- The queues are in order, whoever is at them. -/
structure Inv (p : Config) (s : State ι) (o : ℕ → Option ι) : Prop where
  owners : Owners p s.pc o
  port : ∀ i Port, (s.pc i).port = some Port → IsPort Port
  /-- The word that the hypervisor has read of the tail was linked. -/
  old : ∀ i Port Tail Old, s.pc i = .tailLink Port Tail Old → testFlag Old LINKED = true
  priority : ∀ q, ∀ Port ∈ s.enqueued q, p.priority Port = q
  queue : ∀ q, (queueOf p s q (entryOf s o q)).Inv
  poll : PollOk s s.poll

theorem inv_init : Inv p (init : State ι) fun _ => none where
  owners := ⟨nofun, nofun⟩
  port := nofun
  old := nofun
  priority := nofun
  queue q := by
    have hlinked : (queueOf p (init : State ι) q .out).linked = fun _ => false := by
      funext Port
      have hclear : testFlag (setBit 0 MASKED) LINKED = false := by decide
      exact Bool.and_eq_false_imp.mpr fun h => absurd (hclear.symm.trans h) nofun
    have hnext : (queueOf p (init : State ι) q .out).next = fun _ => 0 := by
      funext Port
      have hclear : link (setBit 0 MASKED) = 0 := by decide
      exact ite_eq_right_iff.mpr fun _ => hclear
    have heq : queueOf p (init : State ι) q .out = LinkedQueue.empty := by
      ext1 <;> first | exact hlinked | exact hnext | rfl | simp [queueOf, init, Poll.Ready, LinkedQueue.empty]
    exact heq ▸ LinkedQueue.inv_empty
  poll _ := ⟨rfl, List.prefix_rfl⟩

/-! ## Accesses of the hypervisor -/

section Enqueues

variable [DecidableEq ι] {i : ι} {e : Enqueue}

/-- An enqueue that is not at the queue `q`, or does not change where it is there, leaves the producer
of that queue where it is. -/
theorem entryOf_stay {o' : ℕ → Option ι} (h : Owners p s.pc o)
    (hpc : s'.pc = Function.update s.pc i e) {q : ℕ} (ho' : o' q = o q)
    (he : (∃ Port, (s.pc i).inside = some Port ∧ p.priority Port = q) → e.entry = (s.pc i).entry) :
    entryOf s' o' q = entryOf s o q := by
  unfold entryOf
  rw [hpc, ho']
  cases ho : o q with
  | none => rfl
  | some j =>
    by_cases hj : j = i
    · subst hj
      exact (congrArg Enqueue.entry (Function.update_self ..)).trans (he (h.owned q j ho))
    · exact congrArg Enqueue.entry (Function.update_of_ne hj ..)

omit [DecidableEq ι] in
theorem entryOf_none {q : ℕ} (ho : o q = none) : entryOf s o q = .out := by
  unfold entryOf
  rw [ho]

omit [DecidableEq ι] in
/-- The producer of the queue that the enqueue is at. -/
theorem entryOf_self {q : ℕ} (ho : o q = some i) : entryOf s o q = (s.pc i).entry := by
  unfold entryOf
  rw [ho]

/-- What the steps of an enqueue leave alone. -/
structure Kept (s s' : State ι) : Prop where
  Head : s'.Head = s.Head
  lastRead : s'.lastRead = s.lastRead
  unlinked : s'.unlinked = s.unlinked
  masked : ∀ Port, testFlag (s.EventWord Port) MASKED = false →
    testFlag (s'.EventWord Port) MASKED = false
  pending : ∀ Port, testFlag (s.EventWord Port) PENDING = true →
    testFlag (s'.EventWord Port) PENDING = true

omit [DecidableEq ι] in
theorem PollOk.kept (hk : Kept s s') {poll : Poll} (h : PollOk s poll) : PollOk s' poll := by
  unfold PollOk at h ⊢
  rw [hk.Head, hk.lastRead, hk.unlinked]
  cases poll
  case testPending => exact ⟨h.1, hk.masked _ h.2⟩
  case event => exact ⟨h.1, hk.masked _ h.2.1, hk.pending _ h.2.2⟩
  all_goals exact h

omit [DecidableEq ι] in
theorem Kept.of_word {Port w : ULONG} (hH : s'.Head = s.Head) (hr : s'.lastRead = s.lastRead)
    (hu : s'.unlinked = s.unlinked) (hw : s'.EventWord = Function.update s.EventWord Port w)
    (hm : testFlag (s.EventWord Port) MASKED = false → testFlag w MASKED = false)
    (hp : testFlag (s.EventWord Port) PENDING = true → testFlag w PENDING = true) : Kept s s' := by
  refine ⟨hH, hr, hu, ?_, ?_⟩ <;> intro P hP <;> rw [hw]
  all_goals
    by_cases hPP : P = Port
    · subst hPP
      rw [Function.update_self]
      first | exact hm hP | exact hp hP
    · rwa [Function.update_of_ne hPP]

omit [DecidableEq ι] in
theorem Kept.same (hH : s'.Head = s.Head) (hr : s'.lastRead = s.lastRead)
    (hu : s'.unlinked = s.unlinked) (hw : s'.EventWord = s.EventWord) : Kept s s' :=
  ⟨hH, hr, hu, fun _ h => hw ▸ h, fun _ h => hw ▸ h⟩

/-- An enqueue changes the queue `q₀` only. -/
theorem Inv.queues {o' : ℕ → Option ι} {q₀ : ℕ} (h : Inv p s o)
    (hpc : s'.pc = Function.update s.pc i e)
    (hi : ∀ Port, (s.pc i).inside = some Port → p.priority Port = q₀) (ho' : ∀ q ≠ q₀, o' q = o q)
    (hframe : ∀ q ≠ q₀, ∀ E, queueOf p s' q E = queueOf p s q E)
    (hq : (queueOf p s' q₀ (entryOf s' o' q₀)).Inv) (q : ℕ) :
    (queueOf p s' q (entryOf s' o' q)).Inv := by
  by_cases hqq : q = q₀
  · exact hqq ▸ hq
  · have hent : entryOf s' o' q = entryOf s o q := by
      apply entryOf_stay h.owners hpc (ho' q hqq)
      rintro ⟨Port, hin, hP⟩
      exact absurd (hP.symm.trans (hi Port hin)) hqq
    rw [hent, hframe q hqq]
    exact h.queue q

/-- An enqueue that is at no queue, or stays where it is, changes none. -/
theorem Inv.queues_same (h : Inv p s o) (hpc : s'.pc = Function.update s.pc i e)
    (he : e.entry = (s.pc i).entry) (hframe : ∀ q E, queueOf p s' q E = queueOf p s q E) (q : ℕ) :
    (queueOf p s' q (entryOf s' o q)).Inv := by
  rw [entryOf_stay h.owners hpc rfl fun _ => he, hframe]
  exact h.queue q

/-- An enqueue takes a step at its queue. -/
theorem Inv.queues_at {Port : ULONG} (h : Inv p s o) (hpc : s'.pc = Function.update s.pc i e)
    (hin : (s.pc i).inside = some Port)
    (hframe : ∀ q ≠ p.priority Port, ∀ E, queueOf p s' q E = queueOf p s q E)
    (hq : (queueOf p s (p.priority Port) (s.pc i).entry).Inv →
      (queueOf p s' (p.priority Port) e.entry).Inv) (q : ℕ) :
    (queueOf p s' q (entryOf s' o q)).Inv := by
  have ho := h.owners.owns i Port hin
  apply h.queues hpc _ (fun _ _ => rfl) hframe
  · have hent : entryOf s' o (p.priority Port) = e.entry := by
      rw [entryOf_self ho, hpc]
      exact congrArg Enqueue.entry (Function.update_self ..)
    rw [hent]
    apply hq
    rw [← entryOf_self ho]
    exact h.queue _
  · intro P hP
    rw [hin] at hP
    exact congrArg p.priority (Option.some.inj hP).symm

/-- What a step of an enqueue preserves, from what it does to the queues. -/
theorem Inv.enqueue {o' : ℕ → Option ι} (h : Inv p s o) (hpc : s'.pc = Function.update s.pc i e)
    (howners : Owners p s'.pc o') (hport : e.port = none ∨ e.port = (s.pc i).port)
    (hold : ∀ Port Tail Old, e = .tailLink Port Tail Old → testFlag Old LINKED = true)
    (hk : Kept s s') (hpoll : s'.poll = s.poll)
    (hpr : ∀ q, ∀ Port ∈ s'.enqueued q, p.priority Port = q)
    (hq : ∀ q, (queueOf p s' q (entryOf s' o' q)).Inv) : Inv p s' o' where
  owners := howners
  port j P hP := by
    rw [hpc] at hP
    by_cases hj : j = i
    · subst hj
      rw [Function.update_self] at hP
      rcases hport with hport | hport
      · exact absurd (hport.symm.trans hP) nofun
      · exact h.port j P (hport ▸ hP)
    · rw [Function.update_of_ne hj] at hP
      exact h.port j P hP
  old j P T O hj := by
    rw [hpc] at hj
    by_cases hji : j = i
    · subst hji
      rw [Function.update_self] at hj
      exact hold P T O hj
    · rw [Function.update_of_ne hji] at hj
      exact h.old j P T O hj
  priority := hpr
  queue := hq
  poll := hpoll ▸ h.poll.kept hk

omit [DecidableEq ι] in
theorem clash_false (hw : ∀ j, clash p (s.pc i) (s.pc j) = false) {Port : ULONG}
    (hi : s.pc i = .setLinked Port) (h : Owners p s.pc o) : o (p.priority Port) = none := by
  by_contra ho
  obtain ⟨j, hj⟩ := Option.ne_none_iff_exists'.mp ho
  obtain ⟨P, hP, hPq⟩ := h.owned _ j hj
  have := hw j
  rw [hi] at this
  simp [clash, hP, hPq] at this

/-- Before the linked bit an enqueue changes other flags only. -/
theorem Inv.setPending {Port : ULONG} (h : Inv p s o) (hi : s.pc i = .setPending Port)
    (he : e = .idle ∨ e = .testMasked Port) :
    Inv p ((s.setWord Port (setBit (s.EventWord Port) PENDING)).goto i e) o := by
  have hframe : ∀ q E, queueOf p ((s.setWord Port (setBit (s.EventWord Port) PENDING)).goto i e) q E =
      queueOf p s q E := fun q E =>
    queueOf_setWord_of_eq ((testFlag_setBit (by decide)).trans (by simp [PENDING, LINKED]))
      (link_setBit (by decide))
  refine h.enqueue rfl ?_ ?_ ?_ ?_ rfl h.priority ?_
  · apply h.owners.stay
    rcases he with rfl | rfl <;> rw [hi] <;> rfl
  · rcases he with rfl | rfl
    · exact .inl rfl
    · exact .inr (by rw [hi]; rfl)
  · rintro P T O rfl
    rcases he with he | he <;> exact absurd he nofun
  · refine Kept.of_word rfl rfl rfl rfl ?_ ?_ <;> intro hP <;>
      rw [testFlag_setBit (by decide), hP] <;> rfl
  · refine h.queues_same rfl ?_ hframe
    rcases he with rfl | rfl <;> rw [hi] <;> rfl

/-- A local step before the linked bit. -/
theorem Inv.test {Port : ULONG} (h : Inv p s o) (hi : s.pc i = .testMasked Port ∨ s.pc i = .setLinked Port)
    (he : e = .idle ∨ e = .setLinked Port) : Inv p (s.goto i e) o := by
  have hentry : e.entry = (s.pc i).entry ∧ e.inside = (s.pc i).inside := by
    rcases he with rfl | rfl <;> rcases hi with hi | hi <;> rw [hi] <;> exact ⟨rfl, rfl⟩
  refine h.enqueue rfl (h.owners.stay hentry.2) ?_ ?_ (.same rfl rfl rfl rfl) rfl h.priority
    (h.queues_same rfl hentry.1 fun _ _ => rfl)
  · rcases he with rfl | rfl
    · exact .inl rfl
    · rcases hi with hi | hi <;> exact .inr (hi ▸ rfl)
  · rintro P T O rfl
    rcases he with he | he <;> exact absurd he nofun

/-- The linked bit is set: the enqueue is at its queue. -/
theorem Inv.setLinked {Port : ULONG} (h : Inv p s o) (hi : s.pc i = .setLinked Port)
    (hfree : o (p.priority Port) = none) (hl : testFlag (s.EventWord Port) LINKED = false)
    (hs : s' = { s.setWord Port (setBit (s.EventWord Port) LINKED) with
      enqueued := Function.update s.enqueued (p.priority Port)
        (s.enqueued (p.priority Port) ++ [Port]) }.goto i (.readTail Port)) :
    Inv p s' (Function.update o (p.priority Port) (some i)) := by
  subst hs
  have hin : (s.pc i).inside = none := by rw [hi]; rfl
  have hP : IsPort Port := h.port i Port (by rw [hi]; rfl)
  refine h.enqueue rfl (h.owners.enter rfl hin hfree) (.inr (by rw [hi]; rfl))
    (fun _ _ _ he => absurd he Enqueue.noConfusion) ?_ rfl ?_ ?_
  · refine Kept.of_word rfl rfl rfl rfl ?_ ?_ <;> intro hP <;>
      rw [testFlag_setBit (by decide), hP] <;> rfl
  · intro q P hmem
    change P ∈ Function.update s.enqueued _ _ q at hmem
    by_cases hq : q = p.priority Port
    · subst hq
      rw [Function.update_self] at hmem
      rcases List.mem_append.mp hmem with hmem | hmem
      · exact h.priority _ P hmem
      · exact congrArg p.priority (List.mem_singleton.mp hmem)
    · rw [Function.update_of_ne hq] at hmem
      exact h.priority q P hmem
  · refine h.queues rfl (fun P hPi => absurd (hin.symm.trans hPi) nofun)
      (fun q hq => Function.update_of_ne hq ..) ?_ ?_
    · intro q hq E
      rw [← queueOf_setWord_of_ne (s := s) (w := setBit (s.EventWord Port) LINKED) (Ne.symm hq)]
      ext1 <;> try rfl
      exact Function.update_of_ne hq ..
    · have hout := h.queue (p.priority Port)
      rw [entryOf_none hfree] at hout
      have hent : ∀ t : State ι, t.pc i = .readTail Port →
          entryOf t (Function.update o (p.priority Port) (some i)) (p.priority Port) =
            .entered Port := by
        intro t ht
        rw [entryOf_self (Function.update_self ..), ht]
        rfl
      rw [hent _ (Function.update_self ..)]
      have hlinked : (queueOf p s (p.priority Port) .out).linked Port = false := by
        change (testFlag _ _ && _) = false
        rw [hl, Bool.false_and]
      convert hout.enter rfl hlinked hP.1 using 1
      ext1 <;> try rfl
      · refine (linked_setWord (e := .out)).trans ?_
        rw [testFlag_setBit (by decide), decide_eq_true rfl, decide_eq_true rfl, Bool.or_true]
        rfl
      · refine (next_setWord (e := .out)).trans ?_
        rw [link_setBit (by decide)]
        exact Function.update_eq_self Port (queueOf p s (p.priority Port) .out).next
      · exact Function.update_self ..

/-- An enqueue that is at its queue takes a step there and stays. -/
theorem Inv.move {Port : ULONG} (h : Inv p s o) (hin : (s.pc i).inside = some Port)
    (hport : (s.pc i).port = some Port) (hpc : s'.pc = Function.update s.pc i e)
    (hein : e.inside = some Port) (hep : e.port = some Port)
    (hold : ∀ Port Tail Old, e = .tailLink Port Tail Old → testFlag Old LINKED = true)
    (hk : Kept s s') (hpoll : s'.poll = s.poll) (hen : s'.enqueued = s.enqueued)
    (hframe : ∀ q ≠ p.priority Port, ∀ E, queueOf p s' q E = queueOf p s q E)
    (hq : (queueOf p s (p.priority Port) (s.pc i).entry).Inv →
      (queueOf p s' (p.priority Port) e.entry).Inv) : Inv p s' o :=
  h.enqueue hpc (hpc ▸ h.owners.stay (hein.trans hin.symm)) (.inr (hep.trans hport.symm)) hold hk hpoll
    (fun q P hmem => h.priority q P (hen ▸ hmem)) (h.queues_at hpc hin hframe hq)

/-- The enqueue looks at the tail. -/
theorem Inv.look {Port : ULONG} (h : Inv p s o) (hin : (s.pc i).inside = some Port)
    (hport : (s.pc i).port = some Port) (hj : (s.pc i).entry.joining = [Port])
    (hi : (s.pc i).entry.inside = [Port]) (hein : e.inside = some Port) (hep : e.port = some Port)
    (hej : e.entry.joining = [Port]) (hei : e.entry.inside = [Port])
    (hold : ∀ Port Tail Old, e = .tailLink Port Tail Old → testFlag Old LINKED = true)
    (hb : (queueOf p s (p.priority Port) (s.pc i).entry).Inv →
      ∀ j t, e.entry = .behind j t → t = s.tail (p.priority Port) ∧ t ≠ 0 ∧ t ≠ j)
    (ha : (queueOf p s (p.priority Port) (s.pc i).entry).Inv → ∀ j, e.entry = .alone j →
      s.tail (p.priority Port) = 0 ∨ s.tail (p.priority Port) = Port ∨
        testFlag (s.EventWord (s.tail (p.priority Port))) LINKED = false) :
    Inv p (s.goto i e) o := by
  refine h.move hin hport rfl hein hep hold (.same rfl rfl rfl rfl) rfl rfl (fun _ _ _ => rfl) ?_
  intro hinv
  refine hinv.goto hj hi hej hei (hb hinv) fun j hje => ?_
  rcases ha hinv j hje with h0 | hP | hl
  · exact .inl h0
  · exact .inr (.inl hP)
  · exact .inr (.inr (Bool.and_eq_false_imp.mpr fun h => absurd (hl.symm.trans h) nofun))

/-- The port is linked behind the tail. -/
theorem Inv.tailLink {Port Tail Old : ULONG} (h : Inv p s o) (hi : s.pc i = .tailLink Port Tail Old)
    (hw : s.EventWord Tail = Old) :
    Inv p ((s.setWord Tail (setLink Old Port)).goto i (.writeTail Port)) o := by
  have hin : (s.pc i).inside = some Port := by rw [hi]; rfl
  have hport : (s.pc i).port = some Port := by rw [hi]; rfl
  have hP : IsPort Port := h.port i Port hport
  have hl : testFlag Old LINKED = true := h.old i Port Tail Old hi
  have hflag : ∀ Flag, 17 ≤ Flag → Flag < 32 →
      testFlag (setLink Old Port) Flag = testFlag (s.EventWord Tail) Flag := fun Flag h17 h32 => by
    rw [testFlag_setLink hP h17 h32, hw]
  -- the tail is a port of the same queue
  have hent : (s.pc i).entry = .behind Port Tail := by rw [hi]; rfl
  have hqueue : (queueOf p s (p.priority Port) (s.pc i).entry).Inv := by
    rw [← entryOf_self (h.owners.owns i Port hin)]
    exact h.queue _
  obtain ⟨htail, ht0, -⟩ := hqueue.behind_tail hent
  have hprio : p.priority Tail = p.priority Port := by
    apply h.priority
    exact htail ▸ hqueue.tail_mem (htail ▸ ht0)
  refine h.move hin hport rfl rfl rfl nofun ?_ rfl rfl ?_ ?_
  · refine Kept.of_word rfl rfl rfl rfl ?_ ?_ <;> intro hf <;> rw [hflag _ (by decide) (by decide)] <;>
      exact hf
  · intro q hq E
    exact queueOf_setWord_of_ne fun heq => hq (heq.symm.trans hprio)
  · intro hinv
    have hlinked : (queueOf p s (p.priority Port) (s.pc i).entry).linked Tail = true := by
      change (testFlag (s.EventWord Tail) LINKED && decide (p.priority Tail = p.priority Port)) = true
      rw [hw, hl, hprio, decide_eq_true rfl]
      rfl
    convert hinv.join hent hlinked using 1
    ext1 <;> try rfl
    · refine (linked_setWord (e := .joined Port)).trans ?_
      rw [hflag _ (by decide) (by decide)]
      exact Function.update_eq_self Tail (queueOf p s (p.priority Port) (.joined Port)).linked
    · refine (next_setWord (e := .joined Port)).trans ?_
      rw [hprio, if_pos rfl, link_setLink hP]
      rfl

/-- The port is the head. -/
theorem Inv.writeHead {Port : ULONG} (h : Inv p s o) (hi : s.pc i = .writeHead Port) :
    Inv p ({ s with head := Function.update s.head (p.priority Port) Port }.goto i (.setReady Port))
      o := by
  have hent : (s.pc i).entry = .alone Port := by rw [hi]; rfl
  refine h.move (by rw [hi]; rfl) (by rw [hi]; rfl) rfl rfl rfl nofun (.same rfl rfl rfl rfl) rfl rfl ?_
    ?_
  · intro q hq E
    ext1 <;> try rfl
    exact Function.update_of_ne hq ..
  · intro hinv
    convert hinv.putHead hent using 1
    ext1 <;> try rfl
    exact Function.update_self ..

/-- The bit of the queue is set. -/
theorem Inv.setReady {Port : ULONG} (h : Inv p s o) (hi : s.pc i = .setReady Port) :
    Inv p ({ s with ready := setBit s.ready (p.priority Port) }.goto i (.writeTail Port)) o := by
  have hent : (s.pc i).entry = .headed Port := by rw [hi]; rfl
  have hlt : p.priority Port < 32 := (p.priority_lt Port).trans (by decide)
  refine h.move (by rw [hi]; rfl) (by rw [hi]; rfl) rfl rfl rfl nofun (.same rfl rfl rfl rfl) rfl rfl ?_
    ?_
  · intro q hq E
    ext1 <;> try rfl
    refine (getLsbD_setBit _ _ _).trans ?_
    rw [decide_eq_false (Ne.symm hq), Bool.and_false, Bool.or_false]
    rfl
  · intro hinv
    convert hinv.raise hent using 1
    ext1 <;> try rfl
    exact getLsbD_setBit_self _ hlt

/-- The port is the tail, and the enqueue has left the queue. -/
theorem Inv.writeTail {Port : ULONG} (h : Inv p s o) (hi : s.pc i = .writeTail Port)
    (hs : s' = { s with
      tail := Function.update s.tail (p.priority Port) Port
      completed := Function.update s.completed (p.priority Port)
        (s.completed (p.priority Port) ++ [Port]) }.goto i .idle) :
    Inv p s' (Function.update o (p.priority Port) none) := by
  subst hs
  have hin : (s.pc i).inside = some Port := by rw [hi]; rfl
  have hent : (s.pc i).entry = .joined Port := by rw [hi]; rfl
  refine h.enqueue rfl (h.owners.leave rfl hin) (.inl rfl)
    (fun _ _ _ he => absurd he Enqueue.noConfusion) (.same rfl rfl rfl rfl) rfl h.priority ?_
  refine h.queues rfl ?_ (fun q hq => Function.update_of_ne hq ..) ?_ ?_
  · intro P hP
    rw [hin] at hP
    exact congrArg p.priority (Option.some.inj hP).symm
  · intro q hq E
    ext1 <;> try rfl
    · exact Function.update_of_ne hq ..
    · exact Function.update_of_ne hq ..
  · have hinv := h.queue (p.priority Port)
    rw [entryOf_self (h.owners.owns i Port hin)] at hinv
    rw [entryOf_none (Function.update_self ..)]
    convert hinv.complete hent using 1
    ext1 <;> try rfl
    · exact Function.update_self ..
    · exact Function.update_self ..

/-- **Each access of an enqueue** keeps the queues in order. -/
theorem Inv.enqueueStep (h : Inv p s o) (hw : ∀ j, clash p (s.pc i) (s.pc j) = false)
    (hs : Fifo.enqueueStep p s i (s.pc i) = some s') : ∃ o', Inv p s' o' := by
  cases hi : s.pc i <;> rw [hi] at hs <;> simp only [Fifo.enqueueStep] at hs
  case idle => exact absurd hs nofun
  case setPending Port =>
    obtain rfl := Option.some.inj hs
    refine ⟨o, h.setPending hi ?_⟩
    split_ifs
    · exact .inl rfl
    · exact .inr rfl
  case testMasked Port =>
    obtain rfl := Option.some.inj hs
    refine ⟨o, h.test (.inl hi) ?_⟩
    split_ifs
    · exact .inl rfl
    · exact .inr rfl
  case setLinked Port =>
    split_ifs at hs with hl
    · obtain rfl := Option.some.inj hs
      exact ⟨o, h.test (.inr hi) (.inl rfl)⟩
    · exact ⟨_, h.setLinked hi (clash_false hw hi h.owners) (eq_false_of_ne_true hl)
        (Option.some.inj hs).symm⟩
  case readTail Port =>
    obtain rfl := Option.some.inj hs
    refine ⟨o, ?_⟩
    split_ifs with ht
    · refine h.look (by rw [hi]; rfl) (by rw [hi]; rfl) (by rw [hi]; rfl) (by rw [hi]; rfl) rfl rfl rfl
        rfl nofun nofun ?_
      rintro - j ⟨⟩
      exact ht.imp_right .inl
    · refine h.look (by rw [hi]; rfl) (by rw [hi]; rfl) (by rw [hi]; rfl) (by rw [hi]; rfl) rfl rfl rfl
        rfl nofun ?_ nofun
      rintro - j t ⟨⟩
      exact ⟨rfl, not_or.mp ht⟩
  case tailWord Port Tail =>
    obtain rfl := Option.some.inj hs
    have hent : (s.pc i).entry = .behind Port Tail := by rw [hi]; rfl
    refine ⟨o, ?_⟩
    split_ifs with hl
    · refine h.look (by rw [hi]; rfl) (by rw [hi]; rfl) (by rw [hi]; rfl) (by rw [hi]; rfl) rfl rfl rfl
        rfl ?_ ?_ nofun
      · rintro P T O ⟨⟩
        exact hl
      · rintro hinv j t ⟨⟩
        exact hinv.behind_tail hent
    · refine h.look (by rw [hi]; rfl) (by rw [hi]; rfl) (by rw [hi]; rfl) (by rw [hi]; rfl) rfl rfl rfl
        rfl nofun nofun ?_
      rintro hinv j ⟨⟩
      have htail : Tail = s.tail (p.priority Port) := (hinv.behind_tail hent).1
      exact .inr (.inr (htail ▸ eq_false_of_ne_true hl))
  case tailLink Port Tail Old =>
    split_ifs at hs with hw'
    · obtain rfl := Option.some.inj hs
      exact ⟨o, h.tailLink hi hw'⟩
    · obtain rfl := Option.some.inj hs
      have hent : (s.pc i).entry = .behind Port Tail := by rw [hi]; rfl
      refine ⟨o, h.look (by rw [hi]; rfl) (by rw [hi]; rfl) (by rw [hi]; rfl) (by rw [hi]; rfl) rfl rfl
        rfl rfl nofun ?_ nofun⟩
      rintro hinv j t ⟨⟩
      exact hinv.behind_tail hent
  case writeHead Port =>
    obtain rfl := Option.some.inj hs
    exact ⟨o, h.writeHead hi⟩
  case setReady Port =>
    obtain rfl := Option.some.inj hs
    exact ⟨o, h.setReady hi⟩
  case writeTail Port => exact ⟨_, h.writeTail hi (Option.some.inj hs).symm⟩

end Enqueues

/-! ## Accesses of the poll -/

/-- What a step of the poll preserves, from what it does to the queues. -/
theorem Inv.consume (h : Inv p s o) (hpc : s'.pc = s.pc) (hen : s'.enqueued = s.enqueued)
    (hpoll : PollOk s' s'.poll) (hq : ∀ q E, (queueOf p s q E).Inv → (queueOf p s' q E).Inv) :
    Inv p s' o where
  owners := hpc ▸ h.owners
  port i P hP := h.port i P (hpc ▸ hP)
  old i P T O hi := h.old i P T O (hpc ▸ hi)
  priority q P hmem := h.priority q P (hen ▸ hmem)
  queue q := by
    have hent : entryOf s' o q = entryOf s o q := by
      unfold entryOf
      rw [hpc]
    rw [hent]
    exact hq q _ (h.queue q)
  poll := hpoll

/-- A step of the poll that changes only where it is. -/
theorem Inv.local (h : Inv p s o) {poll : Poll} (hR : poll.Ready = s.poll.Ready)
    (hc : ∀ q, (poll.cursor q).getD (s.Head q) = (s.poll.cursor q).getD (s.Head q))
    (hpoll : PollOk s poll) : Inv p { s with poll := poll } o := by
  have hk : Kept s { s with poll := poll } := .same rfl rfl rfl rfl
  refine h.consume rfl rfl (hpoll.kept hk) fun q E hinv => ?_
  convert hinv using 1
  ext1 <;> try rfl
  · exact hc q
  · exact congrArg (BitVec.getLsbD · q) hR

theorem scan_cursor (l : Locals) (q : ℕ) : (scan l).cursor q = none := by
  unfold scan
  cases bitScanReverse l.Ready <;> rfl

theorem scan_Ready (l : Locals) (q : ℕ) : (scan l).Ready.getLsbD q = l.Ready.getLsbD q := by
  unfold scan
  cases hb : bitScanReverse l.Ready with
  | none => exact (getLsbD_of_bitScanReverse_eq_none hb q).symm ▸ BitVec.getLsbD_zero
  | some Priority => rfl

/-- `ready` is read and reset. -/
theorem Inv.exchange (h : Inv p s o) {l : Locals} (hp : s.poll = .exchange l) :
    Inv p { s with
      ready := 0
      lastRead := s.completed
      poll := scan ⟨l.Ready ||| s.ready, l.DoneSomething⟩ } o := by
  have hex : ∀ q E, queueOf p { s with
      ready := 0
      lastRead := s.completed
      poll := scan ⟨l.Ready ||| s.ready, l.DoneSomething⟩ } q E = (queueOf p s q E).exchange := by
    intro q E
    ext1 <;> try rfl
    · change ((scan _).cursor q).getD (s.Head q) = (s.poll.cursor q).getD (s.Head q)
      rw [scan_cursor, hp]
      rfl
    · exact BitVec.getLsbD_zero
    · change (scan _).Ready.getLsbD q = (s.poll.Ready.getLsbD q || s.ready.getLsbD q)
      rw [scan_Ready, hp, BitVec.getLsbD_or]
      rfl
  refine h.consume rfl rfl ?_ fun q E hinv => hex q E ▸ hinv.exchange
  cases hb : bitScanReverse (l.Ready ||| s.ready) with
  | none =>
    have hscan : scan ⟨l.Ready ||| s.ready, l.DoneSomething⟩ = .returned l.DoneSomething := by
      unfold scan
      rw [hb]
    simp only [hscan]
    intro q
    -- no bit is left: every queue is at rest
    have hinv := (h.queue q).exchange
    have hn : (queueOf p s q (entryOf s o q)).exchange.noticed = false := by
      have := getLsbD_of_bitScanReverse_eq_none hb q
      rw [BitVec.getLsbD_or] at this
      change (s.poll.Ready.getLsbD q || s.ready.getLsbD q) = false
      rwa [hp]
    obtain ⟨hc, hpre⟩ := hinv.prefix_of_completed hn rfl
    change (s.poll.cursor q).getD (s.Head q) = 0 at hc
    rw [hp] at hc
    exact ⟨hc, hpre⟩
  | some Priority =>
    have hscan : scan ⟨l.Ready ||| s.ready, l.DoneSomething⟩ =
        .cached Priority ⟨l.Ready ||| s.ready, l.DoneSomething⟩ := by
      unfold scan
      rw [hb]
    simp only [hscan]
    exact getLsbD_of_bitScanReverse hb

/-- The list is entered at `head`. -/
theorem Inv.control (h : Inv p s o) {Priority : ℕ} {l : Locals} (hp : s.poll = .control Priority l) :
    Inv p { s with poll := .word Priority (s.head Priority) l } o := by
  obtain ⟨hready, hhead⟩ : l.Ready.getLsbD Priority = true ∧ s.Head Priority = 0 := by
    have := h.poll
    rwa [hp] at this
  have hc : ∀ E, (queueOf p s Priority E).cursor = 0 := fun E => by
    change (s.poll.cursor Priority).getD (s.Head Priority) = 0
    rw [hp]
    exact hhead
  have hn : ∀ E, (queueOf p s Priority E).noticed = true := fun E => by
    change s.poll.Ready.getLsbD Priority = true
    rw [hp]
    exact hready
  refine h.consume rfl rfl ((h.queue Priority).head_ne_zero (hc _) (hn _)) fun q E hinv => ?_
  by_cases hq : Priority = q
  · subst hq
    convert hinv.start (hc E) (hn E) using 1
    ext1 <;> try rfl
    · change ((Poll.word Priority (s.head Priority) l).cursor Priority).getD _ = s.head Priority
      rw [Poll.cursor, if_pos rfl]
      rfl
    · change l.Ready.getLsbD Priority = s.poll.Ready.getLsbD Priority
      rw [hp]
      rfl
  · convert hinv using 1
    ext1 <;> try rfl
    · change ((Poll.word Priority (s.head Priority) l).cursor q).getD _ = (s.poll.cursor q).getD _
      rw [Poll.cursor, if_neg hq, hp]
      rfl
    · change l.Ready.getLsbD q = s.poll.Ready.getLsbD q
      rw [hp]
      rfl

/-- Where the poll holds a port of the priority, the port is the oldest one that has not been unlinked,
and it is linked. -/
theorem Inv.at_cursor (h : Inv p s o) {Priority : ℕ} {Port : ULONG}
    (hc : s.poll.cursor Priority = some Port) (h0 : Port ≠ 0) :
    testFlag (s.EventWord Port) LINKED = true ∧ p.priority Port = Priority ∧
      s.unlinked Priority ++ [Port] <+: s.enqueued Priority := by
  have hcur : (queueOf p s Priority (entryOf s o Priority)).cursor = Port := by
    change (s.poll.cursor Priority).getD (s.Head Priority) = Port
    rw [hc]
    rfl
  obtain ⟨hl, hpre⟩ := (h.queue Priority).cursor_next (hcur ▸ h0)
  rw [hcur] at hl hpre
  obtain ⟨hl, hprio⟩ := Bool.and_eq_true_iff.mp hl
  exact ⟨hl, of_decide_eq_true hprio, hpre⟩

/-- The port is unlinked. -/
theorem Inv.unlink (h : Inv p s o) {Priority : ℕ} {Port Old : ULONG} {l : Locals}
    (hp : s.poll = .compare Priority Port Old l) (hw : s.EventWord Port = Old) :
    Inv p { s.setWord Port (unlink Old) with
      unlinked := Function.update s.unlinked Priority (s.unlinked Priority ++ [Port])
      poll := .testMasked Priority Port (link Old)
        { l with Ready := if link Old = 0 then clearBit l.Ready Priority else l.Ready } } o := by
  have h0 : Port ≠ 0 := by
    have := h.poll
    rwa [hp] at this
  have hcur : s.poll.cursor Priority = some Port := by
    rw [hp]
    exact if_pos rfl
  obtain ⟨-, hprio, -⟩ := h.at_cursor hcur h0
  have hcursor : ∀ E, (queueOf p s Priority E).cursor = Port := fun E => by
    change (s.poll.cursor Priority).getD _ = Port
    rw [hcur]
    rfl
  have hnext : ∀ E, (queueOf p s Priority E).next Port = link Old := fun E => by
    change (if p.priority Port = Priority then link (s.EventWord Port) else 0) = _
    rw [if_pos hprio, hw]
  refine h.consume rfl rfl ?_ fun q E hinv => ?_
  · change (Function.update s.unlinked Priority _ Priority).getLast? = some Port
    rw [Function.update_self, List.getLast?_append, List.getLast?_singleton]
    rfl
  · by_cases hq : Priority = q
    · subst hq
      convert hinv.unlink (hcursor E ▸ h0) using 1
      ext1 <;> try rfl
      · refine (linked_setWord (e := E)).trans ?_
        rw [testFlag_unlink (by decide) (by decide), LinkedQueue.unlink, hcursor,
          decide_eq_false (not_not.mpr rfl), Bool.and_false]
        rfl
      · refine (next_setWord (e := E)).trans ?_
        rw [link_unlink, ite_self, LinkedQueue.unlink, hcursor]
      · change ((Poll.testMasked Priority Port (link Old) _).cursor Priority).getD _ = _
        rw [Poll.cursor, if_pos rfl, LinkedQueue.unlink, hcursor, hnext]
        rfl
      · change (if link Old = 0 then clearBit l.Ready Priority else l.Ready).getLsbD Priority = _
        rw [LinkedQueue.unlink, hcursor, hnext]
        change _ = (s.poll.Ready.getLsbD Priority && _)
        rw [hp]
        by_cases hlink : link Old = 0
        · rw [if_pos hlink, getLsbD_clearBit_self, decide_eq_false (not_not.mpr hlink), Bool.and_false]
        · rw [if_neg hlink, decide_eq_true hlink, Bool.and_true]
          rfl
      · change Function.update s.unlinked Priority _ Priority = _
        rw [Function.update_self, LinkedQueue.unlink, hcursor]
        rfl
    · have hsame := queueOf_setWord_of_ne (p := p) (s := s) (w := Fifo.unlink Old) (e := E) (hprio ▸ hq)
      rw [← hsame] at hinv
      convert hinv using 1
      ext1 <;> try rfl
      · change ((Poll.testMasked Priority Port (link Old) _).cursor q).getD _ = (s.poll.cursor q).getD _
        rw [Poll.cursor, if_neg hq, hp, Poll.cursor, if_neg hq]
      · change (if link Old = 0 then clearBit l.Ready Priority else l.Ready).getLsbD q = _
        change _ = s.poll.Ready.getLsbD q
        rw [hp]
        split_ifs
        · exact getLsbD_clearBit_of_ne hq
        · rfl
      · exact Function.update_of_ne (Ne.symm hq) ..

/-- `Context->Head` is stored. -/
theorem Inv.store (h : Inv p s o) {Priority : ℕ} {Head : ULONG} {l : Locals}
    (hp : s.poll = .store Priority Head l) :
    Inv p { s with
      Head := Function.update s.Head Priority Head
      poll := .exchange l } o := by
  refine h.consume rfl rfl trivial fun q E hinv => ?_
  convert hinv using 1
  ext1 <;> try rfl
  · change Function.update s.Head Priority Head q = (s.poll.cursor q).getD (s.Head q)
    rw [hp, Poll.cursor]
    by_cases hq : Priority = q
    · subst hq
      rw [Function.update_self, if_pos rfl]
      rfl
    · rw [Function.update_of_ne (Ne.symm hq), if_neg hq]
      rfl
  · change l.Ready.getLsbD q = s.poll.Ready.getLsbD q
    rw [hp]
    rfl

/-- **Each access of the poll** keeps the queues in order. -/
theorem Inv.pollStep (h : Inv p s o) {answer : Bool} (hs : Fifo.pollStep s answer s.poll = some s') :
    Inv p s' o := by
  have hpoll := h.poll
  cases hp : s.poll <;> rw [hp] at hs hpoll <;> simp only [Fifo.pollStep] at hs
  case returned => exact absurd hs nofun
  case exchange l =>
    obtain rfl := Option.some.inj hs
    exact h.exchange hp
  case cached Priority l =>
    obtain rfl := Option.some.inj hs
    split_ifs with h0
    · exact h.local (hp ▸ rfl) (fun q => hp ▸ rfl) ⟨hpoll, h0⟩
    · refine h.local (hp ▸ rfl) (fun q => ?_) h0
      rw [hp, Poll.cursor]
      by_cases hq : Priority = q
      · subst hq
        rw [if_pos rfl]
        rfl
      · rw [if_neg hq]
        rfl
  case control Priority l =>
    obtain rfl := Option.some.inj hs
    exact h.control hp
  case word Priority Port l =>
    obtain rfl := Option.some.inj hs
    exact h.local (hp ▸ rfl) (fun q => hp ▸ rfl) hpoll
  case compare Priority Port Old l =>
    by_cases hw : s.EventWord Port = Old
    · rw [if_pos hw] at hs
      obtain rfl := Option.some.inj hs
      exact h.unlink hp hw
    · rw [if_neg hw] at hs
      obtain rfl := Option.some.inj hs
      exact h.local (hp ▸ rfl) (fun q => hp ▸ rfl) hpoll
  case testMasked Priority Port Head l =>
    obtain rfl := Option.some.inj hs
    split_ifs with hm
    · exact h.local (hp ▸ rfl) (fun q => hp ▸ rfl) trivial
    · exact h.local (hp ▸ rfl) (fun q => hp ▸ rfl) ⟨hpoll, eq_false_of_ne_true hm⟩
  case testPending Priority Port Head l =>
    obtain rfl := Option.some.inj hs
    split_ifs with hm
    · exact h.local (hp ▸ rfl) (fun q => hp ▸ rfl) ⟨hpoll.1, hpoll.2, hm⟩
    · exact h.local (hp ▸ rfl) (fun q => hp ▸ rfl) trivial
  case event Priority Port Head l =>
    obtain rfl := Option.some.inj hs
    exact h.local (hp ▸ rfl) (fun q => hp ▸ rfl) trivial
  case store Priority Head l =>
    obtain rfl := Option.some.inj hs
    exact h.store hp

/-! ## Runs -/

/-- A flag of a word other than its linked bit changes. -/
theorem Inv.setWord (h : Inv p s o) {Port w : ULONG}
    (hf : testFlag w LINKED = testFlag (s.EventWord Port) LINKED) (hl : link w = link (s.EventWord Port))
    (hpoll : PollOk (s.setWord Port w) s.poll) : Inv p (s.setWord Port w) o :=
  h.consume rfl rfl hpoll fun _ _ hinv => queueOf_setWord_of_eq hf hl ▸ hinv

/-- Between polls the words do not matter to the poll. -/
theorem PollOk.of_not_running {poll : Poll} (h : PollOk s poll)
    (hk : s'.Head = s.Head ∧ s'.lastRead = s.lastRead ∧ s'.unlinked = s.unlinked)
    (hr : poll.running = false) : PollOk s' poll := by
  cases poll with
  | returned b =>
    unfold PollOk at h ⊢
    rwa [hk.1, hk.2.1, hk.2.2]
  | _ => exact absurd hr nofun

/-- **Every step** keeps the queues in order. -/
theorem Inv.step [DecidableEq ι] {a : Action ι} (h : Inv p s o) (hw : Within p s a)
    (hs : Fifo.step p s a = some s') : ∃ o', Inv p s' o' := by
  cases a <;> simp only [Fifo.step] at hs
  case event i Port =>
    split_ifs at hs with hi
    obtain rfl := Option.some.inj hs
    have hnone : (s.pc i).inside = none := by rw [hi.1]; rfl
    refine ⟨o, h.owners.stay (hnone ▸ rfl), ?_, ?_, h.priority, ?_, ?_⟩
    · intro j P hP
      change (Function.update s.pc i _ j).port = some P at hP
      by_cases hj : j = i
      · subst hj
        rw [Function.update_self] at hP
        exact Option.some.inj hP ▸ hi.2
      · rw [Function.update_of_ne hj] at hP
        exact h.port j P hP
    · intro j P T O hj
      change Function.update s.pc i _ j = _ at hj
      by_cases hji : j = i
      · subst hji
        rw [Function.update_self] at hj
        exact absurd hj Enqueue.noConfusion
      · rw [Function.update_of_ne hji] at hj
        exact h.old j P T O hj
    · exact h.queues_same rfl (by rw [hi.1]; rfl) fun _ _ => rfl
    · exact h.poll.kept (.same rfl rfl rfl rfl)
  case enqueue i => exact h.enqueueStep hw hs
  case poll =>
    split_ifs at hs with hr
    obtain rfl := Option.some.inj hs
    have hret : ∃ b, s.poll = .returned b := by
      cases hp : s.poll with
      | returned b => exact ⟨b, rfl⟩
      | _ => exact absurd (hp ▸ rfl) hr
    obtain ⟨b, hp⟩ := hret
    exact ⟨o, h.local (hp ▸ rfl) (fun q => hp ▸ rfl) trivial⟩
  case run answer => exact ⟨o, h.pollStep hs⟩
  case ack Port =>
    obtain rfl := Option.some.inj hs
    refine ⟨o, h.setWord ?_ (link_clearBit (by decide)) ?_⟩
    · rw [testFlag_clearBit]
      exact Bool.and_true _
    · exact h.poll.of_not_running ⟨rfl, rfl, rfl⟩ hw
  case mask Port =>
    obtain rfl := Option.some.inj hs
    refine ⟨o, h.setWord ?_ (link_setBit (by decide)) ?_⟩
    · rw [testFlag_setBit (by decide)]
      exact Bool.or_false _
    · exact h.poll.of_not_running ⟨rfl, rfl, rfl⟩ hw
  case unmask Port =>
    obtain rfl := Option.some.inj hs
    have hk : Kept s (s.setWord Port (clearBit (s.EventWord Port) MASKED)) := by
      refine .of_word rfl rfl rfl rfl ?_ ?_ <;> intro hP <;> rw [testFlag_clearBit, hP] <;> rfl
    refine ⟨o, h.setWord ?_ (link_clearBit (by decide)) (h.poll.kept hk)⟩
    rw [testFlag_clearBit]
    exact Bool.and_true _

variable [DecidableEq ι]

theorem inv_of_reaches (h : Reaches (step p) (Within p) init s) : ∃ o, Inv p s o :=
  h.invariant (P := fun s => ∃ o, Inv p s o) ⟨_, inv_init⟩ fun _ _ _ ⟨_, hi⟩ hw hs => hi.step hw hs

/-- **Drained without loss or repetition**: in every run in which the enqueues of a queue are one at a
time at it, what has been unlinked of a queue is what has been linked to it first, in this order; the
ports that are linked are the others, each of them once, and the port that the poll is about to unlink
is the oldest of them. `Event` is called for the port that has just been unlinked, while it is unmasked
and pending. After a poll `Context->Head` is 0 for every priority, and every enqueue that was complete
when `ready` was last read has been unlinked. -/
theorem drained_in_order (h : Reaches (step p) (Within p) init s) :
    (∀ q, s.unlinked q <+: s.enqueued q ∧
      ((s.enqueued q).drop (s.unlinked q).length).Nodup ∧
      ∀ Port, p.priority Port = q →
        (testFlag (s.EventWord Port) LINKED = true ↔
          Port ∈ (s.enqueued q).drop (s.unlinked q).length)) ∧
    (∀ Priority Port Old l, s.poll = .compare Priority Port Old l →
      testFlag (s.EventWord Port) LINKED = true ∧ p.priority Port = Priority ∧
        s.unlinked Priority ++ [Port] <+: s.enqueued Priority) ∧
    (∀ Priority Port Head l, s.poll = .event Priority Port Head l →
      (s.unlinked Priority).getLast? = some Port ∧ testFlag (s.EventWord Port) MASKED = false ∧
        testFlag (s.EventWord Port) PENDING = true) ∧
    ∀ DoneSomething, s.poll = .returned DoneSomething →
      ∀ q, s.Head q = 0 ∧ s.lastRead q <+: s.unlinked q := by
  obtain ⟨o, hi⟩ := inv_of_reaches h
  have hpoll := hi.poll
  refine ⟨fun q => ?_, ?_, ?_, ?_⟩
  · obtain ⟨hnd, hl⟩ := (hi.queue q).linked_iff
    refine ⟨(hi.queue q).prefix_of_taken, hnd, fun Port hP => ?_⟩
    refine Iff.trans ?_ (hl Port)
    change _ ↔ (testFlag _ _ && decide (p.priority Port = q)) = true
    rw [hP, decide_eq_true rfl, Bool.and_true]
  · intro Priority Port Old l hp
    rw [hp] at hpoll
    exact hi.at_cursor (hp ▸ if_pos rfl) hpoll
  · intro Priority Port Head l hp
    rwa [hp] at hpoll
  · intro b hp
    rwa [hp] at hpoll

/-- Two ports of one queue. -/
def config : Config := ⟨fun _ => 7, fun _ => by decide⟩

/-- A port is enqueued. While the poll is about to unlink it, another port is linked to it, so that the poll has to
read the word of the first once more; it then goes on to the second, which becomes the tail meanwhile. -/
def interleaved : List (Action Bool) :=
  List.flatten [[.unmask 5, .unmask 6, .event true 5, .event false 6], List.replicate 7 (.enqueue true),
    List.replicate 3 (.enqueue false), [.poll], List.replicate 4 (.run true),
    List.replicate 3 (.enqueue false), List.replicate 6 (.run true), [.enqueue false],
    List.replicate 10 (.run true)]

/-- Two enqueues are at the queue at a time: both see no tail and write `head`. -/
def overlap : List (Action Bool) :=
  List.flatten [[.unmask 5, .unmask 6, .event true 5, .event false 6],
    List.replicate 3 (.enqueue true), List.replicate 3 (.enqueue false),
    [.enqueue true, .enqueue false, .enqueue true, .enqueue false],
    List.replicate 2 (.enqueue true), List.replicate 2 (.enqueue false), [.poll],
    List.replicate 10 (.run true)]

theorem drained_in_order_of_two : ∃ s : State Bool,
    Reaches (step config) (Within config) init s ∧ s.poll = .returned true ∧ s.unlinked 7 = [5, 6] ∧
      s.lastRead 7 = [5, 6] ∧ s.Head 7 = 0 ∧ s.lastRead 7 <+: s.unlinked 7 := by
  have hrun : (guardedRun (step config) (Within config) (init : State Bool) interleaved).map
      (fun s => (s.poll, s.unlinked 7, s.lastRead 7)) = some (.returned true, [5, 6], [5, 6]) := by decide +kernel
  obtain ⟨s, hs, hv⟩ := Option.map_eq_some_iff.mp hrun
  have h := reaches_of_guardedRun hs
  obtain ⟨hpoll, hunlinked, hlast⟩ : s.poll = .returned true ∧ s.unlinked 7 = [5, 6] ∧ s.lastRead 7 = [5, 6] := by
    simpa only [Prod.mk.injEq] using hv
  exact ⟨s, h, hpoll, hunlinked, hlast, (drained_in_order h).2.2.2 true hpoll 7⟩

/-- Enqueues that are at the queue at the same time lose a port: it is linked, its enqueue was complete
before `ready` was last read, and the poll has returned without it. -/
theorem lost_enqueue : ∃ s : State Bool, Reaches (step config) Free init s ∧
    s.poll = .returned true ∧ 5 ∈ s.lastRead 7 ∧ 5 ∉ s.unlinked 7 ∧
    testFlag (s.EventWord 5) LINKED = true := by
  have hrun : (run (step config) (init : State Bool) overlap).map (fun s =>
      (s.poll, decide (5 ∈ s.lastRead 7), decide (5 ∈ s.unlinked 7), testFlag (s.EventWord 5) LINKED)) =
      some (.returned true, true, false, true) := by decide
  obtain ⟨s, hs, hv⟩ := Option.map_eq_some_iff.mp hrun
  obtain ⟨hpoll, hlast, hunlinked, hlinked⟩ : s.poll = .returned true ∧ decide (5 ∈ s.lastRead 7) = true ∧
      decide (5 ∈ s.unlinked 7) = false ∧ testFlag (s.EventWord 5) LINKED = true := by
    simpa only [Prod.mk.injEq] using hv
  exact ⟨s, reaches_of_run hs, hpoll, of_decide_eq_true hlast, of_decide_eq_false hunlinked, hlinked⟩

end XenBus.Evtchn.Fifo
