import XenBus.HashTable.BucketLock

/-!
# Mutual exclusion at a bucket

The word of the bucket lock is twice the number of readers inside, plus one for the writer that is inside
or has claimed the bucket and waits (`Encodes`). A step keeps this if it does not exchange a word that
was computed while another writer had its bit in it (`Fresh`); one that does makes the word wrong
(`not_encodes_of_not_fresh`), and then two writers can be inside at once (`two_writers`).
-/

namespace XenBus.HashTable

open MachineInt Transition

variable {ι : Type*} [DecidableEq ι] (Writer : ι → Bool)

/-- The compare-exchange of the lock loop that `i` is about to make does not go through, or it leaves the
bit of a writer as it is in the word: the word that was read has no writer bit, or it has readers and
the caller is a writer, which puts the bit back out again. The reader count stays below `2 ^ 30`. -/
def Fresh (s : State ι) (i : ι) : Prop :=
  match s.pc i with
  | .lockExchange Lock => s.Lock = lockOld Lock →
      if Writer i then Lock % 2 = 0 ∨ Lock / 2 ≠ 0 else Lock % 2 = 0 ∧ Lock ≠ 2147483646
  | _ => True

/-- A writer that has set the writer bit and waits for the readers to leave. -/
def claimShare (claimed : Bool) : ℤ := if claimed then 1 else 0

variable [Fintype ι]

/-- The number of writers that have set the writer bit and wait. -/
def claims (s : State ι) : ℤ := ∑ i, claimShare (s.claimed i)

/-- The word counts the CPUs inside, and the one that waits with its bit set. -/
structure Encodes (s : State ι) : Prop where
  word : s.Lock = 2 * readers Writer s + (writers Writer s + claims s)
  one : writers Writer s + claims s ≤ 1
  alone : writers Writer s = 1 → readers Writer s = 0
  readers_lt : readers Writer s < 1073741824
  waiting : ∀ i, s.claimed i = true → Writer i = true ∧ (s.pc i).Waits

omit [DecidableEq ι] in
theorem claims_nonneg (s : State ι) : 0 ≤ claims s := by
  apply Finset.sum_nonneg
  intro i _
  unfold claimShare
  split <;> omega

theorem claims_claim (s : State ι) (i : ι) (b : Bool) :
    claims (s.claim i b) = claims s - claimShare (s.claimed i) + claimShare b :=
  sum_update (fun _ b => claimShare b) s.claimed i b

omit [DecidableEq ι] in
/-- Where no writer waits, none has a claim. -/
theorem claimed_eq_false (s : State ι) (h : claims s = 0) (i : ι) : s.claimed i = false := by
  have hnonneg : ∀ j ∈ Finset.univ, 0 ≤ claimShare (s.claimed j) := fun j _ => by
    unfold claimShare
    split <;> omega
  have hi := (Finset.sum_eq_zero_iff_of_nonneg hnonneg).mp h i (Finset.mem_univ i)
  unfold claimShare at hi
  split at hi
  · cases hi
  · simp_all

omit [DecidableEq ι] in
theorem holds_le_writers (s : State ι) {i : ι} (hi : (s.pc i).Holds) (hW : Writer i = true) :
    1 ≤ writers Writer s := by
  have hle := Finset.single_le_sum (f := fun j => writerShare (Writer j) (s.pc j))
    (fun j _ => writerShare_nonneg (Writer j) (s.pc j)) (Finset.mem_univ i)
  rwa [writerShare, if_pos ⟨hi, hW⟩] at hle

omit [DecidableEq ι] in
theorem holds_le_readers (s : State ι) {i : ι} (hi : (s.pc i).Holds) (hW : Writer i = false) :
    1 ≤ readers Writer s := by
  have hle := Finset.single_le_sum (f := fun j => readerShare (Writer j) (s.pc j))
    (fun j _ => readerShare_nonneg (Writer j) (s.pc j)) (Finset.mem_univ i)
  rwa [readerShare, if_pos ⟨hi, hW⟩] at hle

/-- Two writers inside count as two. -/
theorem two_le_writers (s : State ι) {i j : ι} (hij : i ≠ j) (hi : (s.pc i).Holds)
    (hj : (s.pc j).Holds) (hWi : Writer i = true) (hWj : Writer j = true) : 2 ≤ writers Writer s := by
  have hpair : writerShare (Writer i) (s.pc i) + writerShare (Writer j) (s.pc j) ≤ writers Writer s := by
    rw [← Finset.sum_pair (f := fun j => writerShare (Writer j) (s.pc j)) hij]
    exact Finset.sum_le_sum_of_subset_of_nonneg (Finset.subset_univ _)
      fun k _ _ => writerShare_nonneg (Writer k) (s.pc k)
  simpa [writerShare, hi, hj, hWi, hWj] using hpair

omit [DecidableEq ι] in
/-- A writer that waits with its bit set counts as one. -/
theorem one_le_claims (s : State ι) {i : ι} (hi : s.claimed i = true) : 1 ≤ claims s := by
  have hle := Finset.single_le_sum (f := fun j => claimShare (s.claimed j))
    (fun j _ => by unfold claimShare; split <;> omega) (Finset.mem_univ i)
  rwa [hi] at hle

variable {Writer} {s t : State ι} {i : ι}

/-- A step that neither changes the word nor takes the CPU in or out of the bucket. -/
theorem Encodes.stay {pc : Pc} (h : Encodes Writer s) (hpc : pc.Holds ↔ (s.pc i).Holds)
    (hwaits : pc.Waits ↔ (s.pc i).Waits) : Encodes Writer (s.goto i pc) := by
  have hr : readers Writer (s.goto i pc) = readers Writer s := by
    rw [readers_move Writer rfl]
    simp only [readerShare, hpc]
    omega
  have hw : writers Writer (s.goto i pc) = writers Writer s := by
    rw [writers_move Writer rfl]
    simp only [writerShare, hpc]
    omega
  constructor
  case word => rw [hr, hw]; exact h.word
  case one => rw [hw]; exact h.one
  case alone => rw [hr, hw]; exact h.alone
  case readers_lt => rw [hr]; exact h.readers_lt
  case waiting =>
    intro j hj
    obtain ⟨hW, hj⟩ := h.waiting j hj
    refine ⟨hW, ?_⟩
    by_cases hji : j = i
    · subst hji
      change (Function.update s.pc j pc j).Waits
      rwa [Function.update_self, hwaits]
    · change (Function.update s.pc i pc j).Waits
      rwa [Function.update_of_ne hji]

/-- The claims of the other CPUs are not touched. -/
theorem Encodes.waiting_claim (h : Encodes Writer s) {pc : Pc} {b : Bool} {u : State ι}
    (hpc : u.pc = Function.update s.pc i pc) (hclaimed : u.claimed = Function.update s.claimed i b)
    (hi : b = true → Writer i = true ∧ pc.Waits) (j : ι) (hj : u.claimed j = true) :
    Writer j = true ∧ (u.pc j).Waits := by
  rw [hpc]
  rw [hclaimed] at hj
  by_cases hji : j = i
  · subst hji
    rw [Function.update_self] at hj ⊢
    exact hi hj
  · rw [Function.update_of_ne hji] at hj ⊢
    exact h.waiting j hj

/-- A compare-exchange that lets the CPU in. The word that was read is even, so nobody has the bit. -/
theorem Encodes.enter {Lock : ℤ} (h : Encodes Writer s) (hi : s.pc i = .lockExchange Lock)
    (hf : Fresh Writer s i) (he : s.Lock = lockOld Lock)
    (hd : Writer i = false ∨ Lock / 2 = 0) :
    Encodes Writer
      (({ s with Lock := lockNew (Writer i) Lock }.goto i .holding).claim i false) := by
  set u := ({ s with Lock := lockNew (Writer i) Lock }.goto i .holding).claim i false with hu
  have hr := readers_move (s := s) Writer (rfl : u.pc = Function.update s.pc i .holding)
  have hw := writers_move (s := s) Writer (rfl : u.pc = Function.update s.pc i .holding)
  have hr0 := readers_nonneg Writer s
  have hw0 := writers_nonneg Writer s
  have hc0 := claims_nonneg s
  have hword := h.word
  have hone := h.one
  have hlt := h.readers_lt
  simp only [Fresh, hi] at hf
  replace hf := hf he
  rw [he] at hword
  simp only [lockOld] at hword
  have hfree : writers Writer s = 0 ∧ claims s = 0 := by omega
  have hc : claims u = 0 := by
    have hclaims := claims_claim ({ s with Lock := lockNew (Writer i) Lock }.goto i .holding) i false
    have hi' : s.claimed i = false := claimed_eq_false s hfree.2 i
    change claims u = claims s - claimShare (s.claimed i) + claimShare false at hclaims
    rw [hclaims, hi', hfree.2]
    rfl
  have hLock : u.Lock = lockNew (Writer i) Lock := rfl
  have hwaiting : ∀ j, u.claimed j = true → Writer j = true ∧ (u.pc j).Waits :=
    h.waiting_claim (u := u) rfl rfl (by simp)
  cases hW : Writer i <;>
    simp only [hi, hW, readerShare, writerShare, Pc.Holds, and_true, and_false, if_true,
      if_false, reduceCtorEq, Bool.false_eq_true, true_or, false_or] at hr hw hf hd
  · simp only [lockNew, lockReaders, lockWriters, hW, Bool.false_eq_true, if_false, long32] at hLock
    exact ⟨by rw [hLock, hr, hw, hc]; omega, by omega, by omega, by omega, hwaiting⟩
  · simp only [lockNew, lockReaders, lockWriters, hW, if_true, long32] at hLock
    exact ⟨by rw [hLock, hr, hw, hc]; omega, by omega, by omega, by omega, hwaiting⟩

/-- A compare-exchange of a writer that has to wait for the readers. -/
theorem Encodes.claim {Lock : ℤ} (h : Encodes Writer s) (hi : s.pc i = .lockExchange Lock)
    (hW : Writer i = true) (he : s.Lock = lockOld Lock) :
    Encodes Writer (({ s with Lock := lockNew (Writer i) Lock }.goto i .lockRead).claim i
      (s.claimed i || Lock % 2 = 0)) := by
  set b : Bool := s.claimed i || Lock % 2 = 0 with hb
  set u := ({ s with Lock := lockNew (Writer i) Lock }.goto i .lockRead).claim i b with hu
  have hr := readers_move (s := s) Writer (rfl : u.pc = Function.update s.pc i .lockRead)
  have hw := writers_move (s := s) Writer (rfl : u.pc = Function.update s.pc i .lockRead)
  have hr0 := readers_nonneg Writer s
  have hw0 := writers_nonneg Writer s
  have hc0 := claims_nonneg s
  have hword := h.word
  have hone := h.one
  have hlt := h.readers_lt
  rw [he] at hword
  simp only [lockOld] at hword
  have hfree : writers Writer s = 0 ∧ claims s = 0 := by omega
  have hc : claims u = claimShare b := by
    have hclaims := claims_claim ({ s with Lock := lockNew (Writer i) Lock }.goto i .lockRead) i b
    have hi' : s.claimed i = false := claimed_eq_false s hfree.2 i
    change claims u = claims s - claimShare (s.claimed i) + claimShare b at hclaims
    rw [hclaims, hi', hfree.2]
    simp [claimShare]
  have hLock : u.Lock = lockNew (Writer i) Lock := rfl
  have hwaiting : ∀ j, u.claimed j = true → Writer j = true ∧ (u.pc j).Waits :=
    h.waiting_claim (u := u) rfl rfl fun _ => ⟨hW, trivial⟩
  have hbit : claimShare b = 1 - Lock % 2 := by
    have hi' : s.claimed i = false := claimed_eq_false s hfree.2 i
    rw [hb, hi', Bool.false_or]
    by_cases hodd : Lock % 2 = 0
    · simp [claimShare, hodd]
    · simp only [claimShare, hodd, decide_false, Bool.false_eq_true, if_false]
      omega
  simp only [hi, hW, readerShare, writerShare, Pc.Holds, and_true, if_false, false_and] at hr hw
  simp only [lockNew, lockReaders, lockWriters, hW, if_true, long32] at hLock
  exact ⟨by rw [hLock, hr, hw, hc, hbit]; omega, by omega, by omega, by omega, hwaiting⟩

/-- The compare-exchange of the unlock loop takes the CPU out. -/
theorem Encodes.leave {Lock : ℤ} (h : Encodes Writer s) (hi : s.pc i = .unlockExchange Lock)
    (he : s.Lock = unlockOld Lock) :
    Encodes Writer ({ s with Lock := unlockNew (Writer i) Lock }.goto i .done) := by
  set u := { s with Lock := unlockNew (Writer i) Lock }.goto i .done with hu
  have hr := readers_move (s := s) Writer (rfl : u.pc = Function.update s.pc i .done)
  have hw := writers_move (s := s) Writer (rfl : u.pc = Function.update s.pc i .done)
  have hr0 := readers_nonneg Writer u
  have hw0 := writers_nonneg Writer u
  have hc0 := claims_nonneg s
  have hc : claims u = claims s := rfl
  have hword := h.word
  have hone := h.one
  have halone := h.alone
  have hlt := h.readers_lt
  have hLock : u.Lock = unlockNew (Writer i) Lock := rfl
  have hwaiting : ∀ j, u.claimed j = true → Writer j = true ∧ (u.pc j).Waits := by
    intro j hj
    obtain ⟨hW, hwaits⟩ := h.waiting j hj
    refine ⟨hW, ?_⟩
    have hji : j ≠ i := by
      rintro rfl
      rw [hi] at hwaits
      exact hwaits
    change (Function.update s.pc i .done j).Waits
    rwa [Function.update_of_ne hji]
  rw [he] at hword
  simp only [unlockOld] at hword
  cases hW : Writer i <;>
    simp only [hi, hW, readerShare, writerShare, Pc.Holds, and_true, and_false, if_true,
      if_false, reduceCtorEq, Bool.false_eq_true] at hr hw
  · simp only [unlockNew, hW, Bool.false_eq_true, if_false, long32] at hLock
    exact ⟨by rw [hLock, hr, hw, hc]; omega, by omega, by omega, by omega, hwaiting⟩
  · -- the CPU itself is the one writer inside
    simp only [unlockNew, hW, if_true, long32] at hLock
    exact ⟨by rw [hLock, hr, hw, hc]; omega, by omega, by omega, by omega, hwaiting⟩

/-- **A fresh step keeps the encoding.** -/
theorem Encodes.step (h : Encodes Writer s) (hf : Fresh Writer s i)
    (hs : HashTable.step Writer s i = some t) : Encodes Writer t := by
  cases hi : s.pc i with
  | lockRead =>
    simp only [HashTable.step, hi, Option.some.injEq] at hs
    subst hs
    exact h.stay (by simp [hi, Pc.Holds]) (by simp [hi, Pc.Waits])
  | lockExchange Lock =>
    simp only [HashTable.step, hi] at hs
    split_ifs at hs with he hd
    · obtain rfl := Option.some.inj hs
      have hd' : Writer i = false ∨ Lock / 2 = 0 := by
        cases hW : Writer i
        · exact .inl rfl
        · simp only [hW, lockReaders, if_true, Bool.not_true, Bool.false_or, decide_eq_true_eq] at hd
          exact .inr hd
      exact h.enter hi hf he hd'
    · obtain rfl := Option.some.inj hs
      simp only [Bool.or_eq_true, Bool.not_eq_true', decide_eq_true_eq, not_or, Bool.not_eq_false] at hd
      exact h.claim hi hd.1 he
    · obtain rfl := Option.some.inj hs
      exact h.stay (by simp [hi, Pc.Holds]) (by simp [hi, Pc.Waits])
  | holding =>
    simp only [HashTable.step, hi, Option.some.injEq] at hs
    subst hs
    exact h.stay (by simp [hi, Pc.Holds]) (by simp [hi, Pc.Waits])
  | unlockExchange Lock =>
    simp only [HashTable.step, hi] at hs
    split_ifs at hs with he
    · obtain rfl := Option.some.inj hs
      exact h.leave hi he
    · obtain rfl := Option.some.inj hs
      exact h.stay (by simp [hi, Pc.Holds]) (by simp [hi, Pc.Waits])
  | done => simp [HashTable.step, hi] at hs

omit [DecidableEq ι] in
theorem encodes_init : Encodes Writer (State.init ι) := by
  have hr : readers Writer (State.init ι) = 0 :=
    Finset.sum_eq_zero fun i _ => by simp [State.init, readerShare, Pc.Holds]
  have hw : writers Writer (State.init ι) = 0 :=
    Finset.sum_eq_zero fun i _ => by simp [State.init, writerShare, Pc.Holds]
  have hc : claims (State.init ι) = 0 :=
    Finset.sum_eq_zero fun i _ => by simp [State.init, claimShare]
  exact ⟨by rw [hr, hw, hc]; rfl, by omega, by omega, by omega, fun i hi => by cases hi⟩

/-! ## The result -/

variable (Writer) in
/-- What the exchange of the unlock loop does to the word: a writer takes out its own bit, a reader takes
itself off the count. -/
def UnlockSafe (s : State ι) (i : ι) (Lock : ℤ) : Prop :=
  if Writer i then
    s.Lock % 2 = 1 ∧ unlockNew (Writer i) Lock = s.Lock - 1 ∧
      ∀ j, j ≠ i → Writer j = true → ¬ (s.pc j).Holds ∧ s.claimed j = false
  else 1 ≤ s.Lock / 2 ∧ unlockNew (Writer i) Lock = s.Lock - 2

variable (Writer) in
/-- The bucket is held by one writer or by readers, the word says by whom, and whoever leaves takes out
no more than it has put in. -/
structure Exclusive (s : State ι) : Prop where
  writer : ∀ i j, Writer i = true → Writer j = true → (s.pc i).Holds → (s.pc j).Holds → i = j
  reader : ∀ i j, Writer i = false → Writer j = true → (s.pc i).Holds → ¬ (s.pc j).Holds
  word : s.Lock = 2 * readers Writer s +
    if ∃ i, Writer i = true ∧ ((s.pc i).Holds ∨ s.claimed i = true ∧ (s.pc i).Waits) then 1 else 0
  unlock : ∀ i Lock, s.pc i = .unlockExchange Lock → s.Lock = unlockOld Lock →
    UnlockSafe Writer s i Lock

theorem Encodes.writer_unique (h : Encodes Writer s) {j : ι} (hWi : Writer i = true)
    (hWj : Writer j = true) (hi : (s.pc i).Holds) (hj : (s.pc j).Holds) : i = j := by
  by_contra hij
  have htwo := two_le_writers Writer s hij hi hj hWi hWj
  have hone := h.one
  have hc0 := claims_nonneg s
  omega

omit [DecidableEq ι] in
theorem Encodes.no_reader (h : Encodes Writer s) {j : ι} (hWi : Writer i = false)
    (hWj : Writer j = true) (hi : (s.pc i).Holds) : ¬ (s.pc j).Holds := by
  intro hj
  have hr := holds_le_readers Writer s hi hWi
  have hw := holds_le_writers Writer s hj hWj
  have hone := h.one
  have hc0 := claims_nonneg s
  have halone := h.alone (by omega)
  omega

omit [DecidableEq ι] in
/-- The bit is that of a writer inside, or of one that waits. -/
theorem Encodes.bit (h : Encodes Writer s) : writers Writer s + claims s =
    if ∃ i, Writer i = true ∧ ((s.pc i).Holds ∨ s.claimed i = true ∧ (s.pc i).Waits) then 1 else 0 := by
  have hone := h.one
  have hw0 := writers_nonneg Writer s
  have hc0 := claims_nonneg s
  split_ifs with hex
  · obtain ⟨i, hW, hi | ⟨hi, -⟩⟩ := hex
    · have hw := holds_le_writers Writer s hi hW
      omega
    · have hc := one_le_claims s hi
      omega
  · have hw : writers Writer s = 0 := by
      apply Finset.sum_eq_zero
      intro i _
      rw [writerShare, if_neg]
      exact fun h => hex ⟨i, h.2, .inl h.1⟩
    have hc : claims s = 0 := by
      apply Finset.sum_eq_zero
      intro i _
      rw [claimShare, if_neg]
      intro hi
      obtain ⟨hW, hwaits⟩ := h.waiting i hi
      exact hex ⟨i, hW, .inr ⟨hi, hwaits⟩⟩
    omega

theorem Encodes.unlock (h : Encodes Writer s) {Lock : ℤ} (hi : s.pc i = .unlockExchange Lock)
    (he : s.Lock = unlockOld Lock) : UnlockSafe Writer s i Lock := by
  have hword := h.word
  have hone := h.one
  have halone := h.alone
  have hlt := h.readers_lt
  have hr0 := readers_nonneg Writer s
  have hw0 := writers_nonneg Writer s
  have hc0 := claims_nonneg s
  have hin : (s.pc i).Holds := by rw [hi]; trivial
  rw [he] at hword
  unfold UnlockSafe
  cases hW : Writer i
  · have hr := holds_le_readers Writer s hin hW
    simp only [he, unlockOld, unlockNew, Bool.false_eq_true, if_false, long32] at hword ⊢
    omega
  · have hw := holds_le_writers Writer s hin hW
    rw [if_pos rfl]
    refine ⟨?_, ?_, fun j hji hWj => ⟨fun hj => ?_, ?_⟩⟩
    · simp only [he, unlockOld] at hword ⊢
      omega
    · simp only [he, unlockOld, unlockNew, if_true, long32] at hword ⊢
      omega
    · exact hji (h.writer_unique hWj hW hj hin)
    · exact claimed_eq_false s (by omega) j

theorem Encodes.exclusive (h : Encodes Writer s) : Exclusive Writer s where
  writer _ _ := h.writer_unique
  reader _ _ := h.no_reader
  word := by rw [← h.bit]; exact h.word
  unlock _ _ := h.unlock

/-- **The bucket lock excludes.** In every run, of any number of readers and writers, in which every
compare-exchange of the lock loop that goes through is fresh, a writer is alone inside and the word
encodes who is. -/
theorem exclusive_of_fresh (Writer : ι → Bool) (s : State ι)
    (h : Reaches (HashTable.step Writer) (Fresh Writer) (State.init ι) s) : Exclusive Writer s := by
  have hs : Encodes Writer s :=
    h.invariant encodes_init fun _ _ _ hs hf hst => hs.step hf hst
  exact hs.exclusive

/-- A reader is inside and a writer has set its bit and waits. -/
theorem exclusive_of_fresh_claimed : ∃ s : State (Fin 2),
    Reaches (HashTable.step fun i => decide (i = 1)) (Fresh fun i => decide (i = 1)) (State.init (Fin 2)) s ∧
    s.Lock = 3 ∧ s.claimed 1 = true ∧ Exclusive (fun i => decide (i = 1)) s := by
  have h : ∃ s : State (Fin 2),
      Reaches (HashTable.step fun i => decide (i = 1)) (Fresh fun i => decide (i = 1)) (State.init (Fin 2)) s ∧
      s.Lock = 3 ∧ s.claimed 1 = true :=
    ⟨_, reaches_cons (a := 0) trivial rfl <|
      reaches_cons (a := 0) (fun _ => ⟨rfl, by decide⟩) rfl <|
      reaches_cons (a := 1) trivial rfl <|
      reaches_cons (a := 1) (fun _ => .inl rfl) rfl <| .refl _, rfl, rfl⟩
  obtain ⟨s, hs, hLock, hclaimed⟩ := h
  exact ⟨s, hs, hLock, hclaimed, exclusive_of_fresh _ s hs⟩

/-- A step that is not fresh makes the word wrong. -/
theorem not_encodes_of_not_fresh (h : Encodes Writer s) (hf : ¬ Fresh Writer s i)
    (hs : HashTable.step Writer s i = some t) :
    t.Lock ≠ 2 * readers Writer t + (writers Writer t + claims t) := by
  cases hi : s.pc i with
  | lockExchange Lock =>
    simp only [Fresh, hi] at hf
    by_cases he : s.Lock = lockOld Lock
    · simp only [he, true_imp_iff] at hf
      have hword := h.word
      have hone := h.one
      have hlt := h.readers_lt
      have hr0 := readers_nonneg Writer s
      have hw0 := writers_nonneg Writer s
      have hc0 := claims_nonneg s
      rw [he] at hword
      simp only [lockOld] at hword
      have hfree : writers Writer s = 0 ∧ claims s = 0 := by omega
      simp only [HashTable.step, hi, he, if_true] at hs
      have hd : (!Writer i || decide (lockReaders (Writer i) Lock = 0)) = true := by
        cases hW : Writer i
        · rfl
        · rw [hW, if_pos rfl] at hf
          simp only [lockReaders, if_true, Bool.not_true, Bool.false_or, decide_eq_true_eq]
          omega
      rw [if_pos hd] at hs
      obtain rfl := Option.some.inj hs
      set u := ({ s with Lock := lockNew (Writer i) Lock }.goto i .holding).claim i false with hu
      have hr := readers_move (s := s) Writer (rfl : u.pc = Function.update s.pc i .holding)
      have hw := writers_move (s := s) Writer (rfl : u.pc = Function.update s.pc i .holding)
      have hc : 0 ≤ claims u := claims_nonneg u
      have hLock : u.Lock = lockNew (Writer i) Lock := rfl
      cases hW : Writer i <;>
        simp only [hi, hW, readerShare, writerShare, Pc.Holds, and_true, and_false, if_true,
          if_false, reduceCtorEq, Bool.false_eq_true] at hr hw hf
      · simp only [lockNew, lockReaders, lockWriters, hW, Bool.false_eq_true, if_false, long32] at hLock
        have hcu : claims u ≤ 0 := by
          have hclaims := claims_claim ({ s with Lock := lockNew (Writer i) Lock }.goto i .holding) i false
          change claims u = claims s - claimShare (s.claimed i) + claimShare false at hclaims
          rw [hclaims, claimed_eq_false s hfree.2 i, hfree.2]
          decide
        rw [hLock, hr, hw]
        omega
      · simp only [lockNew, lockReaders, lockWriters, hW, if_true, long32] at hLock
        rw [hLock, hr, hw]
        omega
    · exact absurd (fun h => absurd h he) hf
  | _ => exact absurd (by rw [Fresh, hi]; trivial) hf

/-- **Two writers are inside at once**: the second reads the word while the first is inside, and exchanges
`0` for `0` when the first has left; the third finds the word free. -/
theorem two_writers : ∃ s : State (Fin 3),
    Reaches (HashTable.step fun _ => true) Free (State.init (Fin 3)) s ∧
      (s.pc 1).Holds ∧ (s.pc 2).Holds ∧ ¬ Exclusive (fun _ => true) s := by
  obtain ⟨s, hs, hone, htwo⟩ : ∃ s, run (HashTable.step fun _ => true) (State.init (Fin 3))
      [0, 0, 1, 0, 0, 1, 2, 2] = some s ∧ (s.pc 1).Holds ∧ (s.pc 2).Holds :=
    ⟨_, rfl, trivial, trivial⟩
  refine ⟨s, reaches_of_run hs, hone, htwo, fun h => ?_⟩
  exact absurd (h.writer 1 2 rfl rfl hone htwo) (by decide)

end XenBus.HashTable
