import XenBus.Foundations.Transition
import XenBus.Foundations.MachineInt
import Mathlib.Algebra.Order.BigOperators.Group.Finset

/-!
# The bucket lock of the hash table

`__HashTableBucketLock` and `HashTableBucketUnlock` (`hash_table.c`) implement a reader/writer lock
in one `LONG`: bit 0 is the writer, the bits above it count the readers. Any number of CPUs run the
two functions, each once, with one step for each read of `Bucket->Lock` and one for each
compare-exchange.

A writer's compare-exchange may set the writer bit while readers are inside; it then goes round the
loop and expects the bit that it has set itself to be clear. So the bucket can end up with the writer
bit set and nobody inside, and every CPU that wants it spins forever
(`not_responsive_reader_writer`). The same end is reached when a compare-exchange that goes through
was computed from a word that had the writer bit set (`New` then has the bit of the writer that has
left, or lacks the caller's own). `responsive_of_clean` shows that these are the only ways: in every
run in which no such compare-exchange succeeds, the lock word counts exactly the CPUs inside
(`Accounts`), and a free bucket is acquired by any waiting CPU in at most three steps.
-/

namespace XenBus.HashTable

open MachineInt Transition

/-- Where a CPU is in `__HashTableBucketLock` and `HashTableBucketUnlock`. -/
inductive Pc
  /-- Before the read of `Bucket->Lock` in the loop of `__HashTableBucketLock`. -/
  | lockRead
  /-- Before the compare-exchange of that loop, with the value that was read. -/
  | lockExchange (Lock : ℤ)
  /-- In the critical section, or before the read in the loop of `HashTableBucketUnlock`. -/
  | holding
  /-- Before the compare-exchange of that loop, with the value that was read. -/
  | unlockExchange (Lock : ℤ)
  /-- `HashTableBucketUnlock` has returned. -/
  | done
  deriving DecidableEq

/-- The CPU is inside: the lock has returned and the unlock has not taken effect. -/
def Pc.Holds : Pc → Prop
  | .holding | .unlockExchange _ => True
  | _ => False

/-- The CPU is in the loop of `__HashTableBucketLock`. -/
def Pc.Waits : Pc → Prop
  | .lockRead | .lockExchange _ => True
  | _ => False

instance : DecidablePred Pc.Holds := fun pc => by cases pc <;> unfold Pc.Holds <;> infer_instance

instance : DecidablePred Pc.Waits := fun pc => by cases pc <;> unfold Pc.Waits <;> infer_instance

/-- `XENBUS_HASH_TABLE_BUCKET.Lock` and the CPUs at it. `claimed` is a ghost: the CPU's
compare-exchange has set the writer bit with readers inside, and the CPU is still waiting. -/
structure State (ι : Type*) where
  Lock : ℤ
  pc : ι → HashTable.Pc
  claimed : ι → Bool

/-- Before any CPU has started. -/
def State.init (ι : Type*) : State ι := ⟨0, fun _ => .lockRead, fun _ => false⟩

/-! ## The two loops -/

/-- `Readers`, after the caller has been counted. -/
def lockReaders (Writer : Bool) (Lock : ℤ) : ℤ := if Writer then Lock / 2 else Lock / 2 + 1

/-- `Writers`, after the caller has been counted. -/
def lockWriters (Writer : Bool) (Lock : ℤ) : ℤ := if Writer then Lock % 2 + 1 else Lock % 2

/-- `Old` in the lock loop: there must be no existing writer. The shift undoes the one that made
`Readers`, so it does not wrap. -/
def lockOld (Lock : ℤ) : ℤ := Lock / 2 * 2

/-- `New` in the lock loop. -/
def lockNew (Writer : Bool) (Lock : ℤ) : ℤ :=
  long32 (lockReaders Writer Lock * 2 + lockWriters Writer Lock % 2)

/-- `Old` in the unlock loop. -/
def unlockOld (Lock : ℤ) : ℤ := Lock / 2 * 2 + Lock % 2

/-- `New` in the unlock loop. -/
def unlockNew (Writer : Bool) (Lock : ℤ) : ℤ :=
  if Writer then long32 (Lock / 2 * 2 + (Lock % 2 - 1) % 2)
  else long32 ((Lock / 2 - 1) * 2 + Lock % 2)

variable {ι : Type*} [DecidableEq ι]

/-- The CPU `i` moves to `pc`. -/
def State.goto (s : State ι) (i : ι) (pc : HashTable.Pc) : State ι :=
  { s with pc := Function.update s.pc i pc }

/-- The ghost of the CPU `i`. -/
def State.claim (s : State ι) (i : ι) (b : Bool) : State ι :=
  { s with claimed := Function.update s.claimed i b }

variable (Writer : ι → Bool)

/-- One step of the CPU `i`, which is a writer if `Writer i`. -/
def step (s : State ι) (i : ι) : Option (State ι) :=
  match s.pc i with
  | .lockRead => some (s.goto i (.lockExchange s.Lock))
  | .lockExchange Lock =>
    if s.Lock = lockOld Lock then
      let t := { s with Lock := lockNew (Writer i) Lock }
      if !Writer i || lockReaders (Writer i) Lock = 0 then
        some ((t.goto i .holding).claim i false)
      else
        some ((t.goto i .lockRead).claim i (s.claimed i || Lock % 2 = 0))
    else
      some (s.goto i .lockRead)
  | .holding => some (s.goto i (.unlockExchange s.Lock))
  | .unlockExchange Lock =>
    if s.Lock = unlockOld Lock then
      some ({ s with Lock := unlockNew (Writer i) Lock }.goto i .done)
    else
      some (s.goto i .holding)
  | .done => none

/-- If no CPU is inside, then a waiting CPU that is scheduled alone gets inside. -/
def Responsive (s : State ι) : Prop :=
  (∀ i, ¬ (s.pc i).Holds) → ∀ i, (s.pc i).Waits →
    ∃ n t, run (step Writer) s (List.replicate n i) = some t ∧ (t.pc i).Holds

/-- The compare-exchange of the lock loop that `i` is about to make does not go through, or is
computed from a word without the writer bit: for a writer the word `0` (no reader inside), for a
reader one whose reader count does not wrap. A writer that read the writer bit and a reader count
exchanges the word for itself, which is harmless. -/
def Clean (s : State ι) (i : ι) : Prop :=
  match s.pc i with
  | .lockExchange Lock => s.Lock = lockOld Lock →
      if Writer i then Lock = 0 ∨ (Lock % 2 = 1 ∧ Lock / 2 ≠ 0) else Lock % 2 = 0 ∧ Lock ≠ -2
  | _ => True

/-! ## The lock word counts the CPUs inside -/

/-- What a CPU adds to the reader count. -/
def readerShare (Writer : Bool) (pc : Pc) : ℤ := if pc.Holds ∧ Writer = false then 1 else 0

/-- What a CPU adds to the writer bit. -/
def writerShare (Writer : Bool) (pc : Pc) : ℤ := if pc.Holds ∧ Writer = true then 1 else 0

theorem readerShare_nonneg (w : Bool) (pc : Pc) : 0 ≤ readerShare w pc := by
  unfold readerShare
  split <;> omega

theorem writerShare_nonneg (w : Bool) (pc : Pc) : 0 ≤ writerShare w pc := by
  unfold writerShare
  split <;> omega

variable [Fintype ι]

/-- The number of readers inside. -/
def readers (s : State ι) : ℤ := ∑ i, readerShare (Writer i) (s.pc i)

/-- The number of writers inside. -/
def writers (s : State ι) : ℤ := ∑ i, writerShare (Writer i) (s.pc i)

/-- The word is twice the number of readers inside, plus one if a writer is inside. -/
structure Accounts (s : State ι) : Prop where
  word : s.Lock = long32 (2 * readers Writer s + writers Writer s)
  readers_lt : readers Writer s < 2147483648
  writers_le : writers Writer s ≤ 1

omit [DecidableEq ι] in
theorem readers_nonneg (s : State ι) : 0 ≤ readers Writer s :=
  Finset.sum_nonneg fun i _ => readerShare_nonneg (Writer i) (s.pc i)

omit [DecidableEq ι] in
theorem writers_nonneg (s : State ι) : 0 ≤ writers Writer s :=
  Finset.sum_nonneg fun i _ => writerShare_nonneg (Writer i) (s.pc i)

/-- The CPUs inside after the CPU `i` has moved to `pc`. -/
theorem readers_move {s t : State ι} {i : ι} {pc : Pc} (h : t.pc = Function.update s.pc i pc) :
    readers Writer t =
      readers Writer s - readerShare (Writer i) (s.pc i) + readerShare (Writer i) pc := by
  rw [readers, h]
  exact sum_update (fun j pc => readerShare (Writer j) pc) s.pc i pc

theorem writers_move {s t : State ι} {i : ι} {pc : Pc} (h : t.pc = Function.update s.pc i pc) :
    writers Writer t =
      writers Writer s - writerShare (Writer i) (s.pc i) + writerShare (Writer i) pc := by
  rw [writers, h]
  exact sum_update (fun j pc => writerShare (Writer j) pc) s.pc i pc

variable {Writer}

/-- A step that neither changes the word nor takes the CPU in or out of the bucket. -/
theorem Accounts.stay {s t : State ι} {i : ι} {pc : Pc} (h : Accounts Writer s)
    (hPc : t.pc = Function.update s.pc i pc) (hLock : t.Lock = s.Lock)
    (hpc : pc.Holds ↔ (s.pc i).Holds) : Accounts Writer t := by
  have hr : readers Writer t = readers Writer s := by
    rw [readers_move Writer hPc]
    simp only [readerShare, hpc]
    omega
  have hw : writers Writer t = writers Writer s := by
    rw [writers_move Writer hPc]
    simp only [writerShare, hpc]
    omega
  exact ⟨by rw [hLock, hr, hw]; exact h.word, hr ▸ h.readers_lt, hw ▸ h.writers_le⟩

/-- A clean compare-exchange that lets the CPU in. -/
theorem Accounts.enter {s t : State ι} {i : ι} {Lock : ℤ} (h : Accounts Writer s)
    (hi : s.pc i = .lockExchange Lock) (hc : Clean Writer s i) (he : s.Lock = lockOld Lock)
    (hd : Writer i = false ∨ Lock / 2 = 0) (hPc : t.pc = Function.update s.pc i .holding)
    (hLock : t.Lock = lockNew (Writer i) Lock) : Accounts Writer t := by
  have hr := readers_move Writer hPc
  have hw := writers_move Writer hPc
  have hr0 := readers_nonneg Writer s
  have hw0 := writers_nonneg Writer s
  have hword := h.word
  have hlt := h.readers_lt
  have hle := h.writers_le
  simp only [Clean, hi] at hc
  replace hc := hc he
  rw [he] at hword
  cases hW : Writer i <;>
    simp only [hi, hW, readerShare, writerShare, Pc.Holds, and_true, and_false, if_true,
      if_false, reduceCtorEq, Bool.false_eq_true, true_or, false_or] at hr hw hc hd
  · -- a reader: the word was even, so no writer is inside, and the count does not wrap
    simp only [lockOld, lockNew, lockReaders, lockWriters, hW, Bool.false_eq_true, if_false,
      long32] at hword hLock hc
    exact ⟨by rw [hLock, hr, hw, long32]; omega, by omega, by omega⟩
  · -- a writer: the word was `0`, so nobody is inside
    simp only [lockOld, lockNew, lockReaders, lockWriters, hW, if_true, long32] at hword hLock
    exact ⟨by rw [hLock, hr, hw, long32]; omega, by omega, by omega⟩

/-- The compare-exchange of the unlock loop takes the CPU out. -/
theorem Accounts.leave {s t : State ι} {i : ι} {Lock : ℤ} (h : Accounts Writer s)
    (hi : s.pc i = .unlockExchange Lock) (he : s.Lock = unlockOld Lock)
    (hPc : t.pc = Function.update s.pc i .done) (hLock : t.Lock = unlockNew (Writer i) Lock) :
    Accounts Writer t := by
  have hr := readers_move Writer hPc
  have hw := writers_move Writer hPc
  have hr0 := readers_nonneg Writer t
  have hw0 := writers_nonneg Writer t
  have hword := h.word
  have hlt := h.readers_lt
  have hle := h.writers_le
  rw [he] at hword
  cases hW : Writer i <;>
    simp only [hi, hW, readerShare, writerShare, Pc.Holds, and_true, and_false, if_true,
      if_false, reduceCtorEq, Bool.false_eq_true] at hr hw
  · simp only [unlockOld, unlockNew, hW, Bool.false_eq_true, if_false, long32] at hword hLock
    exact ⟨by rw [hLock, hr, hw, long32]; omega, by omega, by omega⟩
  · -- the CPU itself is the one writer inside
    simp only [unlockOld, unlockNew, hW, if_true, long32] at hword hLock
    exact ⟨by rw [hLock, hr, hw, long32]; omega, by omega, by omega⟩

/-- **A clean step keeps the account.** -/
theorem Accounts.step {s t : State ι} {i : ι} (h : Accounts Writer s) (hc : Clean Writer s i)
    (hs : step Writer s i = some t) : Accounts Writer t := by
  cases hi : s.pc i with
  | lockRead =>
    simp only [HashTable.step, hi, Option.some.injEq] at hs
    subst hs
    exact h.stay rfl rfl (by simp [hi, Pc.Holds])
  | lockExchange Lock =>
    simp only [HashTable.step, hi] at hs
    split at hs
    · rename_i he
      split at hs
      · rename_i hd
        obtain rfl := Option.some.inj hs
        have hd' : Writer i = false ∨ Lock / 2 = 0 := by
          cases hW : Writer i <;> simp_all [lockReaders]
        exact h.enter hi hc he hd' rfl rfl
      · -- the exchange went through but a writer has to go round again: the word is unchanged
        rename_i hd
        obtain rfl := Option.some.inj hs
        have hW : Writer i = true := by
          cases hW : Writer i <;> simp_all
        simp only [Clean, hi, hW, if_true] at hc
        simp only [lockReaders, hW, if_true, Bool.not_true, Bool.false_or, decide_eq_true_eq] at hd
        have hodd := hc he
        refine h.stay rfl ?_ (by simp [hi, Pc.Holds])
        change lockNew (Writer i) Lock = s.Lock
        have hword := h.word
        rw [he] at hword ⊢
        simp only [lockNew, lockOld, lockReaders, lockWriters, hW, if_true, long32] at hword ⊢
        omega
    · obtain rfl := Option.some.inj hs
      exact h.stay rfl rfl (by simp [hi, Pc.Holds])
  | holding =>
    simp only [HashTable.step, hi, Option.some.injEq] at hs
    subst hs
    exact h.stay rfl rfl (by simp [hi, Pc.Holds])
  | unlockExchange Lock =>
    simp only [HashTable.step, hi] at hs
    split at hs
    · rename_i he
      obtain rfl := Option.some.inj hs
      exact h.leave hi he rfl rfl
    · obtain rfl := Option.some.inj hs
      exact h.stay rfl rfl (by simp [hi, Pc.Holds])
  | done => simp [HashTable.step, hi] at hs

omit [DecidableEq ι] in
theorem accounts_init : Accounts Writer (State.init ι) := by
  have hr : readers Writer (State.init ι) = 0 :=
    Finset.sum_eq_zero fun i _ => by simp [State.init, readerShare, Pc.Holds]
  have hw : writers Writer (State.init ι) = 0 :=
    Finset.sum_eq_zero fun i _ => by simp [State.init, writerShare, Pc.Holds]
  exact ⟨by rw [hr, hw]; rfl, by omega, by omega⟩

omit [DecidableEq ι] in
/-- The lock word is `0` whenever nobody is inside. -/
theorem Accounts.lock_eq_zero {s : State ι} (h : Accounts Writer s)
    (hfree : ∀ i, ¬ (s.pc i).Holds) : s.Lock = 0 := by
  have hr : readers Writer s = 0 :=
    Finset.sum_eq_zero fun i _ => by simp [readerShare, hfree i]
  have hw : writers Writer s = 0 :=
    Finset.sum_eq_zero fun i _ => by simp [writerShare, hfree i]
  rw [h.word, hr, hw]
  rfl

/-! ## Progress -/

omit [Fintype ι]

variable (Writer) in
/-- A CPU that starts the loop at a free word is inside after one read and one exchange. -/
theorem acquires_of_lockRead {s : State ι} {i : ι} (hLock : s.Lock = 0) (hi : s.pc i = .lockRead) :
    ∃ t, run (step Writer) s (List.replicate 2 i) = some t ∧ (t.pc i).Holds := by
  set s' := s.goto i (.lockExchange 0) with hs'
  have h1 : step Writer s i = some s' := by
    simp only [HashTable.step, hi, hLock, hs']
  have h2 : step Writer s' i =
      some (({ s' with Lock := lockNew (Writer i) 0 }.goto i .holding).claim i false) := by
    have hi' : s'.pc i = .lockExchange 0 := by simp [hs', State.goto]
    have hLock' : s'.Lock = lockOld 0 := hLock
    have hd : (!Writer i || decide (lockReaders (Writer i) 0 = 0)) = true := by
      cases Writer i <;> rfl
    simp only [HashTable.step, hi', hLock', if_true, hd]
  refine ⟨_, by rw [List.replicate, List.replicate, run, h1, Option.bind_some, run, h2]; rfl, ?_⟩
  simp [State.goto, State.claim, Pc.Holds]

/-- **Any waiting CPU acquires a free word**, whatever it has read before. -/
theorem acquires_of_lock_eq_zero {s : State ι} {i : ι} (hLock : s.Lock = 0)
    (hi : (s.pc i).Waits) :
    ∃ n t, run (step Writer) s (List.replicate n i) = some t ∧ (t.pc i).Holds := by
  cases hpc : s.pc i with
  | lockRead =>
    obtain ⟨t, ht⟩ := acquires_of_lockRead Writer hLock hpc
    exact ⟨2, t, ht⟩
  | lockExchange Lock =>
    by_cases he : s.Lock = lockOld Lock
    · have hd : (!Writer i || decide (lockReaders (Writer i) Lock = 0)) = true := by
        cases hW : Writer i
        · rfl
        · simp only [lockOld] at he
          simp only [lockReaders, if_true, Bool.not_true, Bool.false_or, decide_eq_true_eq]
          omega
      refine ⟨1, (({ s with Lock := lockNew (Writer i) Lock }.goto i .holding).claim i false),
        ?_, ?_⟩
      · simp [run, HashTable.step, hpc, he, hd]
      · simp [State.goto, State.claim, Pc.Holds]
    · have hstep : step Writer s i = some (s.goto i .lockRead) := by
        simp [HashTable.step, hpc, he]
      obtain ⟨t, hrun, ht⟩ := acquires_of_lockRead Writer (s := s.goto i .lockRead)
        (i := i) hLock (by simp [State.goto])
      exact ⟨3, t, by rw [List.replicate_succ, run, hstep, Option.bind_some, hrun], ht⟩
  | holding => simp [hpc, Pc.Waits] at hi
  | unlockExchange Lock => simp [hpc, Pc.Waits] at hi
  | done => simp [hpc, Pc.Waits] at hi

/-- **Bucket lock progress.** In every run, of any number of readers and writers, in which every
compare-exchange of the lock loop that goes through is clean, a bucket that nobody holds is acquired
by every waiting CPU that is scheduled alone. -/
theorem responsive_of_clean [Fintype ι] (Writer : ι → Bool) (s : State ι)
    (h : Reaches (step Writer) (Clean Writer) (State.init ι) s) : Responsive Writer s := by
  have hs : Accounts Writer s :=
    h.invariant accounts_init fun _ _ _ hs hc hst => hs.step hc hst
  intro hfree i hi
  exact acquires_of_lock_eq_zero (hs.lock_eq_zero hfree) hi

/-- A reader has been inside and has left, and a writer that is about to start gets inside. -/
theorem responsive_of_clean_reader_writer : ∃ s,
    Reaches (step fun i : Fin 2 => decide (i = 1)) (Clean fun i : Fin 2 => decide (i = 1)) (State.init (Fin 2)) s ∧
      s.pc 0 = .done ∧
      ∃ n t, run (step fun i : Fin 2 => decide (i = 1)) s (List.replicate n 1) = some t ∧ (t.pc 1).Holds := by
  have hrun : Reaches (step fun i : Fin 2 => decide (i = 1)) (Clean fun i : Fin 2 => decide (i = 1))
      (State.init (Fin 2)) ⟨0, Function.update (Function.update (Function.update (Function.update
        (fun _ => .lockRead) 0 (.lockExchange 0)) 0 .holding) 0 (.unlockExchange 2)) 0 .done,
        Function.update (fun _ => false) 0 false⟩ :=
    reaches_cons (a := 0) trivial rfl <|
    reaches_cons (a := 0) (fun _ => ⟨rfl, by decide⟩) rfl <|
    reaches_cons (a := 0) trivial rfl <|
    reaches_cons (a := 0) trivial rfl <| .refl _
  have hfree := responsive_of_clean _ _ hrun
  refine ⟨_, hrun, rfl, hfree ?_ 1 trivial⟩
  rw [Fin.forall_fin_two]
  exact ⟨id, id⟩

/-! ## Claiming the writer bit with a reader inside -/

/-- A writer bit that belongs to nobody inside is never cleared by a CPU that waits for it. -/
theorem spins_of_lock_eq_one {i : ι} (n : ℕ) : ∀ {s t : State ι}, s.Lock = 1 →
    s.pc i = .lockRead ∨ s.pc i = .lockExchange 1 →
    run (step Writer) s (List.replicate n i) = some t → ¬ (t.pc i).Holds := by
  induction n with
  | zero =>
    intro s t _ hi h
    obtain rfl := Option.some.inj h
    rcases hi with hi | hi <;> simp [hi, Pc.Holds]
  | succ n ih =>
    intro s t hLock hi h
    obtain ⟨u, hu, h⟩ := Option.bind_eq_some_iff.mp h
    rcases hi with hi | hi
    · simp only [HashTable.step, hi, hLock, Option.some.injEq] at hu
      subst hu
      exact ih (s := s.goto i (.lockExchange 1)) hLock (.inr (by simp [State.goto])) h
    · have he : ¬ s.Lock = lockOld 1 := by
        rw [hLock]
        decide
      simp only [HashTable.step, hi, he, if_false, Option.some.injEq] at hu
      subst hu
      exact ih (s := s.goto i .lockRead) hLock (.inl (by simp [State.goto])) h

/-- **The lock can freeze with nobody inside**: a reader gets in, a writer reads the word and sets
the writer bit, the reader leaves; the writer then waits for its own bit for ever. -/
theorem not_responsive_reader_writer :
    ¬ ∀ s, Reaches (step fun i : Fin 2 => decide (i = 1)) Free (State.init (Fin 2)) s →
      Responsive (fun i : Fin 2 => decide (i = 1)) s := by
  intro h
  obtain ⟨s, hs⟩ : ∃ s, run (step fun i : Fin 2 => decide (i = 1)) (State.init (Fin 2))
      [0, 0, 1, 1, 0, 0] = some s := ⟨_, rfl⟩
  have hLock : s.Lock = 1 := by
    obtain rfl := Option.some.inj hs
    rfl
  have hPc : s.pc 0 = .done ∧ s.pc 1 = .lockRead := by
    obtain rfl := Option.some.inj hs
    exact ⟨rfl, rfl⟩
  have hfree : ∀ i, ¬ (s.pc i).Holds := by
    rw [Fin.forall_fin_two, hPc.1, hPc.2]
    exact ⟨id, id⟩
  obtain ⟨n, t, hrun, ht⟩ := h s (reaches_of_run hs) hfree 1 (by simp [hPc.2, Pc.Waits])
  exact spins_of_lock_eq_one n hLock (.inl hPc.2) hrun ht

end XenBus.HashTable
