import XenBus.Store.Sections

/-!
# No transaction crosses a suspend

The backend forgets its transactions when the guest is suspended, and may use their ids again. The early
callback clears `Active` in the transactions on the list, and a call on such a transaction fails:
`StoreTransactionEnd` with `STATUS_RETRY`, any other with `STATUS_UNSUCCESSFUL`.

`no_id_crosses`: in every run in which no suspend falls between the two sections of a call within a
transaction, nor before the section that makes a new transaction active (`Clear`), every request on the
ring was put there before the first suspend after its id was obtained. A suspend in either of these places
lets a request go out with an id of the backend before it (`id_crosses`).
-/

namespace XenBus.Store.Operations

open Requests Transition

variable {ι : Type} {s s' : State ι}

/-! ## The property -/

/-- The request belongs to no transaction, or its id was obtained from the backend after so many
suspends. -/
def Timely (Obtained : ℕ → Option (ℕ × ℕ)) (epoch : ℕ) (Request : Requests.Request) (Transaction : Option ℕ) :
    Prop :=
  (Transaction = none ∧ Request.Header.tx_id = 0) ∨
    ∃ id, Transaction = some id ∧ Obtained id = some (Request.Header.tx_id, epoch)

/-- The suspends that fall in no window: every request that is prepared and not submitted belongs to no
transaction, and no transaction waits to be made active. -/
def Clear (s : State ι) : Action ι → Prop
  | .early => ∀ t, (∀ op Request, s.pc t = .submit op Request → op.Transaction = none) ∧
    ∀ id, s.pc t ≠ .activate id
  | _ => True

/-- What a call on a transaction from before the suspend returns. -/
def Op.refusal : Op → Status
  | .finish .. => .retry
  | _ => .unsuccessful

/-! ## The invariant -/

/-- The transaction that the call starts. -/
def Op.starting : Op → Option ℕ
  | .start id => some id
  | _ => none

/-- The transaction that the thread is starting, while the backend has not given its id. -/
def Pc.starting : Pc → Option ℕ
  | .prepare op | .submit op _ | .wait op => op.starting
  | _ => none

/-- The invariant. -/
structure Current (s : State ι) : Prop where
  ring : ∀ e ∈ s.ring, Timely s.Obtained e.epoch e.Request e.Transaction
  submitted : ∀ r ∈ s.SubmittedList, Timely s.Obtained s.epoch r.1 r.2
  prepared : ∀ t op Request, s.pc t = .submit op Request →
    Timely s.Obtained s.epoch Request op.Transaction
  lock : s.Lock = none → s.SubmittedList = []
  active : ∀ id transaction, s.Transactions id = some transaction → transaction.Active = true →
    s.Obtained id = some (transaction.Id, s.epoch) ∧ id ∈ s.TransactionList
  activating : ∀ t id, s.pc t = .activate id → ∃ Id, s.Obtained id = some (Id, s.epoch) ∧
    ∀ transaction, s.Transactions id = some transaction → transaction.Id = Id
  starting : ∀ t id, (s.pc t).starting = some id → s.Obtained id = none ∧ id < s.next
  apart : ∀ t t' id, (s.pc t).starting = some id → (s.pc t').starting = some id → t = t'
  fresh : ∀ id, s.next ≤ id → s.Obtained id = none

theorem current_init (RequestId WatchId : ℕ) : Current (init RequestId WatchId : State ι) where
  ring _ h := by simp [init] at h
  submitted _ h := by simp [init] at h
  prepared _ _ _ h := by simp [init] at h
  lock _ := rfl
  active _ _ h := by simp [init] at h
  activating _ _ h := by simp [init] at h
  starting _ _ h := by simp [init, Pc.starting] at h
  apart _ _ _ h := by simp [init, Pc.starting] at h
  fresh _ _ := rfl

/-! ## What a section does to the transactions -/

section

variable [DecidableEq ι] {t : ι} {choice : Choice} {pc : Pc}

/-- The ids that the backend has given. -/
theorem Access.obtained (hacc : Access s t choice pc s') :
    s'.Obtained = s.Obtained ∨ ∃ id Id, pc = .wait (.start id) ∧ s'.pc t = .activate id ∧
      s'.Obtained = Function.update s.Obtained id (some (Id, s.epoch)) ∧
      s'.Transactions = Function.update s.Transactions id (some ⟨Id, false⟩) := by
  cases hacc
  case started id Id _ => exact .inr ⟨id, Id, rfl, goto_pc .., rfl, rfl⟩
  case unprepared op _ _ _ _ _ _ => cases op <;> exact .inl rfl
  case noMemory op _ | failed op _ _ => cases op <;> exact .inl rfl
  all_goals exact .inl rfl

/-- What goes to the ring. -/
theorem Access.sends (hacc : Access s t choice pc s') :
    (s'.ring = s.ring ∧ s'.SubmittedList = s.SubmittedList) ∨ s' = storePollLocked s ∨
      ∃ op Request, pc = .submit op Request ∧ s'.ring = s.ring ∧
        s'.SubmittedList = s.SubmittedList ++ [(Request, op.Transaction)] := by
  cases hacc
  case polled => exact .inr (.inl rfl)
  case submitted op Request => exact .inr (.inr ⟨op, Request, rfl, rfl, rfl⟩)
  case unprepared op _ _ _ _ _ _ => cases op <;> exact .inl ⟨rfl, rfl⟩
  case noMemory op _ | failed op _ _ => cases op <;> exact .inl ⟨rfl, rfl⟩
  all_goals exact .inl ⟨rfl, rfl⟩

/-- The lock is held while there are submitted requests. -/
theorem Access.lock (hacc : Access s t choice pc s') (h : s.Lock = none → s.SubmittedList = [])
    (hlock : s'.Lock = none) : s'.SubmittedList = [] := by
  cases hacc
  case polled => rfl
  case submitted => cases hlock
  case unprepared op _ _ _ _ _ _ => cases op <;> exact h hlock
  case noMemory op _ => cases op <;> exact h hlock
  case failed op _ hsubmitted => cases op <;> exact hsubmitted
  case started hsubmitted | finished hsubmitted | watched hsubmitted _ | unwatched hsubmitted _ =>
    exact hsubmitted
  all_goals exact h hlock

/-- A request that waits to be submitted has just been prepared. -/
theorem Access.submits (hacc : Access s t choice pc s') (hpc : s.pc t = pc) {op : Op}
    {Request : Requests.Request} (h : s'.pc t = .submit op Request) :
    pc = .prepare op ∧ Prepared s op Request ∧ s'.Obtained = s.Obtained := by
  cases hacc
  case prepared hprepared =>
    rw [goto_pc] at h
    cases h
    exact ⟨rfl, hprepared, rfl⟩
  case polled =>
    rw [show (storePollLocked s).pc t = s.pc t from rfl, hpc] at h
    cases h
  case unprepared =>
    rw [unprepared_pc] at h
    cases h
  case noMemory | failed =>
    obtain hret | ⟨w, hundo⟩ := failed_pc _ t _ _
    · cases hret.symm.trans h
    · cases hundo.symm.trans h
  all_goals rw [goto_pc] at h; cases h

/-- A thread goes on starting the transaction that it has begun to start, and comes to its activation
when the backend has given the id. -/
theorem Access.starts (hacc : Access s t choice pc s') (hpc : s.pc t = pc) {id : ℕ}
    (h : (s'.pc t).starting = some id) : pc.starting = some id ∧ s'.Obtained = s.Obtained := by
  cases hacc
  case prepared op _ _ _ =>
    rw [goto_pc] at h
    exact ⟨h, rfl⟩
  case submitted op _ =>
    rw [goto_pc] at h
    exact ⟨h, rfl⟩
  case polled =>
    rw [show (storePollLocked s).pc t = s.pc t from rfl, hpc] at h
    exact ⟨h, rfl⟩
  case unprepared =>
    rw [unprepared_pc] at h
    cases h
  case noMemory | failed =>
    obtain hret | ⟨w, hundo⟩ := failed_pc _ t _ _
    · rw [hret] at h
      cases h
    · rw [hundo] at h
      cases h
  all_goals rw [goto_pc] at h; cases h

theorem Access.activates (hacc : Access s t choice pc s') (hpc : s.pc t = pc) {id : ℕ}
    (h : s'.pc t = .activate id) : ∃ Id, s'.Obtained id = some (Id, s.epoch) ∧
      s'.Transactions id = some ⟨Id, false⟩ := by
  cases hacc
  case started Id _ =>
    rw [goto_pc] at h
    cases h
    exact ⟨Id, Function.update_self .., Function.update_self ..⟩
  case polled =>
    rw [show (storePollLocked s).pc t = s.pc t from rfl, hpc] at h
    cases h
  case unprepared =>
    rw [unprepared_pc] at h
    cases h
  case noMemory | failed =>
    obtain hret | ⟨w, hundo⟩ := failed_pc _ t _ _
    · cases hret.symm.trans h
    · cases hundo.symm.trans h
  all_goals rw [goto_pc] at h; cases h

/-- The memory of a transaction after a section: as it was, as the backend has started it, or active
and on the list. -/
theorem Access.transactions (hacc : Access s t choice pc s') {id : ℕ} {transaction : Transaction}
    (h : s'.Transactions id = some transaction) :
    (s.Transactions id = some transaction ∧ (id ∈ s.TransactionList → id ∈ s'.TransactionList)) ∨
      (∃ Id, transaction = ⟨Id, false⟩ ∧ s'.Obtained id = some (Id, s.epoch)) ∨
      ∃ Active, pc = .activate id ∧ s.Transactions id = some ⟨transaction.Id, Active⟩ ∧
        id ∈ s'.TransactionList ∧ s'.Obtained = s.Obtained := by
  have hset : ∀ {j : ℕ} {o : Option Transaction},
      Function.update s.Transactions j o id = some transaction →
      (id = j ∧ o = some transaction) ∨ (id ≠ j ∧ s.Transactions id = some transaction) := by
    intro j o h
    by_cases hid : id = j
    · subst hid
      exact .inl ⟨rfl, by rwa [Function.update_self] at h⟩
    · exact .inr ⟨hid, by rwa [Function.update_of_ne hid] at h⟩
  cases hacc
  case ended | closed =>
    obtain ⟨_, hnone⟩ | ⟨hne, hsame⟩ := hset h
    · cases hnone
    · exact .inl ⟨hsame, (List.mem_erase_of_ne hne).mpr⟩
  case started j Id _ =>
    obtain ⟨rfl, heq⟩ | ⟨_, hsame⟩ := hset h
    · cases heq
      exact .inr (.inl ⟨Id, rfl, Function.update_self ..⟩)
    · exact .inl ⟨hsame, fun hmem => hmem⟩
  case activated j tr htr =>
    obtain ⟨rfl, heq⟩ | ⟨_, hsame⟩ := hset h
    · cases heq
      exact .inr (.inr ⟨tr.Active, rfl, htr, List.mem_append_right _ List.mem_cons_self, rfl⟩)
    · exact .inl ⟨hsame, List.mem_append_left _⟩
  case unprepared op _ _ _ _ _ _ =>
    cases op
    case start j =>
      obtain ⟨_, hnone⟩ | ⟨_, hsame⟩ := hset h
      · cases hnone
      · exact .inl ⟨hsame, fun hmem => hmem⟩
    all_goals exact .inl ⟨h, fun hmem => hmem⟩
  case noMemory op _ | failed op _ _ =>
    cases op
    case start j =>
      obtain ⟨_, hnone⟩ | ⟨_, hsame⟩ := hset h
      · cases hnone
      · exact .inl ⟨hsame, fun hmem => hmem⟩
    all_goals exact .inl ⟨h, fun hmem => hmem⟩
  all_goals exact .inl ⟨h, fun hmem => hmem⟩

/-! ## The steps keep the invariant -/

omit [DecidableEq ι] in
/-- An id that the backend gives does not change those it has given. -/
theorem Timely.update {Obtained : ℕ → Option (ℕ × ℕ)} {epoch : ℕ} {Request : Requests.Request}
    {Transaction : Option ℕ} (h : Timely Obtained epoch Request Transaction) {id : ℕ}
    (hnone : Obtained id = none) (o : Option (ℕ × ℕ)) :
    Timely (Function.update Obtained id o) epoch Request Transaction := by
  obtain hno | ⟨j, hj, hgot⟩ := h
  · exact .inl hno
  · have hne : j ≠ id := by
      rintro rfl
      rw [hnone] at hgot
      cases hgot
    exact .inr ⟨j, hj, by rwa [Function.update_of_ne hne]⟩

omit [DecidableEq ι] in
/-- A prepared request is timely. -/
theorem Current.timely (h : Current s) {op : Op} {Request : Requests.Request}
    (hprepared : Prepared s op Request) :
    Timely s.Obtained s.epoch Request op.Transaction := by
  obtain hno | ⟨id, hid, htransaction⟩ := hprepared
  · exact .inl hno
  · exact .inr ⟨id, hid, (h.active id _ htransaction rfl).1⟩

theorem Current.access (h : Current s) (hacc : Access s t choice pc s') (hpc : s.pc t = pc) :
    Current s' := by
  have hframe := hacc.frame
  -- the ids given so far stay, and a new one is for a transaction that has none
  have hkeep : ∀ {epoch : ℕ} {Request : Requests.Request} {Transaction : Option ℕ},
      Timely s.Obtained epoch Request Transaction → Timely s'.Obtained epoch Request Transaction := by
    intro epoch Request Transaction htimely
    obtain hsame | ⟨id, Id, rfl, -, hobtained, -⟩ := hacc.obtained
    · rwa [hsame]
    · rw [hobtained]
      exact htimely.update (h.starting t id (by rw [hpc]; rfl)).1 _
  have hgiven : ∀ {id : ℕ} {o : ℕ × ℕ}, s.Obtained id = some o → s'.Obtained id = some o := by
    intro id o hid
    obtain hsame | ⟨j, Id, rfl, -, hobtained, -⟩ := hacc.obtained
    · rwa [hsame]
    · have hne : id ≠ j := by
        rintro rfl
        rw [(h.starting t id (by rw [hpc]; rfl)).1] at hid
        cases hid
      rwa [hobtained, Function.update_of_ne hne]
  have hbegun : ∀ {j : ι} {id : ℕ}, (s'.pc j).starting = some id → (s.pc j).starting = some id := by
    intro j id hj
    by_cases hjt : j = t
    · subst hjt
      rw [hpc]
      exact (hacc.starts hpc hj).1
    · rwa [hframe.pc j hjt] at hj
  have hsubmitted : ∀ r ∈ s.SubmittedList, Timely s'.Obtained s.epoch r.1 r.2 := fun r hr =>
    hkeep (h.submitted r hr)
  constructor
  case ring =>
    intro e he
    obtain ⟨hring, -⟩ | rfl | ⟨_, _, -, hring, -⟩ := hacc.sends
    · exact hkeep (h.ring e (hring ▸ he))
    · obtain he | he := List.mem_append.mp he
      · exact hkeep (h.ring e he)
      · obtain ⟨r, hr, rfl⟩ := List.mem_map.mp he
        exact hsubmitted r hr
    · exact hkeep (h.ring e (hring ▸ he))
  case submitted =>
    intro r hr
    rw [hframe.epoch]
    obtain ⟨-, hlist⟩ | rfl | ⟨op, Request, rfl, -, hlist⟩ := hacc.sends
    · exact hsubmitted r (hlist ▸ hr)
    · cases hr
    · rw [hlist] at hr
      obtain hr | hr := List.mem_append.mp hr
      · exact hsubmitted r hr
      · obtain rfl := List.mem_singleton.mp hr
        exact hkeep (h.prepared t op Request hpc)
  case prepared =>
    intro j op Request hj
    rw [hframe.epoch]
    by_cases hjt : j = t
    · subst hjt
      obtain ⟨-, hprepared, -⟩ := hacc.submits hpc hj
      exact hkeep (h.timely hprepared)
    · rw [hframe.pc j hjt] at hj
      exact hkeep (h.prepared j op Request hj)
  case lock => exact hacc.lock h.lock
  case active =>
    intro id transaction htransaction hactive
    rw [hframe.epoch]
    obtain ⟨hsame, hmem⟩ | ⟨Id, rfl, -⟩ | ⟨_, rfl, hsome, hmem, hobtained⟩ :=
      hacc.transactions htransaction
    · obtain ⟨hid, hlist⟩ := h.active id transaction hsame hactive
      exact ⟨hgiven hid, hmem hlist⟩
    · cases hactive
    · obtain ⟨Id, hId, htr⟩ := h.activating t id hpc
      rw [hobtained, hId, ← htr _ hsome]
      exact ⟨rfl, hmem⟩
  case activating =>
    intro j id hj
    rw [hframe.epoch]
    by_cases hjt : j = t
    · subst hjt
      obtain ⟨Id, hId, hsome⟩ := hacc.activates hpc hj
      refine ⟨Id, hId, fun transaction htransaction => ?_⟩
      rw [hsome] at htransaction
      cases htransaction
      rfl
    · rw [hframe.pc j hjt] at hj
      obtain ⟨Id, hId, hall⟩ := h.activating j id hj
      refine ⟨Id, hgiven hId, fun transaction htransaction => ?_⟩
      obtain ⟨hsame, -⟩ | ⟨Id', rfl, hId'⟩ | ⟨Active, -, hsome, -⟩ := hacc.transactions htransaction
      · exact hall _ hsame
      · have heq := (hgiven hId).symm.trans hId'
        cases heq
        rfl
      · exact hall ⟨transaction.Id, Active⟩ hsome
  case starting =>
    intro j id hj
    rw [hframe.next]
    obtain ⟨hnone, hlt⟩ := h.starting j id (hbegun hj)
    refine ⟨?_, hlt⟩
    obtain hsame | ⟨i, Id, rfl, hactivate, hobtained, -⟩ := hacc.obtained
    · rwa [hsame]
    · have hne : id ≠ i := by
        rintro rfl
        obtain rfl := h.apart j t id (hbegun hj) (by rw [hpc]; rfl)
        rw [hactivate] at hj
        cases hj
      rwa [hobtained, Function.update_of_ne hne]
  case apart => exact fun j j' id hj hj' => h.apart j j' id (hbegun hj) (hbegun hj')
  case fresh =>
    intro id hid
    rw [hframe.next] at hid
    obtain hsame | ⟨i, Id, rfl, -, hobtained, -⟩ := hacc.obtained
    · rw [hsame]
      exact h.fresh id hid
    · have hlt := (h.starting t i (by rw [hpc]; rfl)).2
      rw [hobtained, Function.update_of_ne (by omega)]
      exact h.fresh id hid

/-- A thread comes to the start of a call: what the call allocates has not been used. -/
theorem Current.enter {pc' : Pc} (h : Current s) (hpc : s'.pc = Function.update s.pc t pc')
    (hfirst : pc'.starting = none ∨ pc'.starting = some s.next ∧ s'.next = s.next + 1)
    (hsubmit : ∀ op Request, pc' ≠ .submit op Request) (hactivate : ∀ id, pc' ≠ .activate id)
    (htransactions : ∀ id transaction, s'.Transactions id = some transaction →
      s.Transactions id = some transaction ∨ id = s.next ∧ transaction.Active = false)
    (hnext : s.next ≤ s'.next) (hring : s'.ring = s.ring) (hlist : s'.SubmittedList = s.SubmittedList)
    (hlock : s'.Lock = s.Lock) (hepoch : s'.epoch = s.epoch) (hobtained : s'.Obtained = s.Obtained)
    (htlist : s'.TransactionList = s.TransactionList) : Current s' := by
  have hself : s'.pc t = pc' := by rw [hpc, Function.update_self]
  have hother : ∀ j, j ≠ t → s'.pc j = s.pc j := fun j hj => by rw [hpc, Function.update_of_ne hj]
  have hused : ∀ {j : ι} {id : ℕ}, (s.pc j).starting = some id → id ≠ s.next := fun hj =>
    ((h.starting _ _ hj).2).ne
  constructor
  case ring => rw [hring, hobtained]; exact h.ring
  case submitted => rw [hlist, hobtained, hepoch]; exact h.submitted
  case lock => rw [hlock, hlist]; exact h.lock
  case prepared =>
    intro j op Request hj
    by_cases hjt : j = t
    · subst hjt
      exact absurd (hself.symm.trans hj) (hsubmit op Request)
    · rw [hobtained, hepoch]
      exact h.prepared j op Request ((hother j hjt).symm.trans hj)
  case active =>
    intro id transaction htransaction hactive
    rw [hobtained, hepoch, htlist]
    obtain hsame | ⟨-, hinactive⟩ := htransactions id transaction htransaction
    · exact h.active id transaction hsame hactive
    · rw [hinactive] at hactive
      cases hactive
  case activating =>
    intro j id hj
    by_cases hjt : j = t
    · subst hjt
      exact absurd (hself.symm.trans hj) (hactivate id)
    · obtain ⟨Id, hId, hall⟩ := h.activating j id ((hother j hjt).symm.trans hj)
      rw [hobtained, hepoch]
      refine ⟨Id, hId, fun transaction htransaction => ?_⟩
      obtain hsame | ⟨rfl, -⟩ := htransactions id transaction htransaction
      · exact hall transaction hsame
      · rw [h.fresh _ le_rfl] at hId
        cases hId
  case starting =>
    intro j id hj
    rw [hobtained]
    by_cases hjt : j = t
    · subst hjt
      rw [hself] at hj
      obtain hno | ⟨hnew, hsucc⟩ := hfirst
      · rw [hno] at hj
        cases hj
      · obtain rfl := Option.some.inj (hnew.symm.trans hj)
        exact ⟨h.fresh _ le_rfl, by omega⟩
    · rw [hother j hjt] at hj
      obtain ⟨hnone, hlt⟩ := h.starting j id hj
      exact ⟨hnone, by omega⟩
  case apart =>
    intro j j' id hj hj'
    have hnew : ∀ {i : ι}, i = t → (s'.pc i).starting = some id → id = s.next := by
      rintro i rfl hi
      rw [hself] at hi
      obtain hno | ⟨hnew, -⟩ := hfirst
      · rw [hno] at hi
        cases hi
      · exact Option.some.inj (hi.symm.trans hnew)
    by_cases hjt : j = t
    · by_cases hjt' : j' = t
      · rw [hjt, hjt']
      · rw [hother j' hjt'] at hj'
        exact absurd (hnew hjt hj) (hused hj')
    · rw [hother j hjt] at hj
      by_cases hjt' : j' = t
      · exact absurd (hnew hjt' hj') (hused hj)
      · rw [hother j' hjt'] at hj'
        exact h.apart j j' id hj hj'
  case fresh =>
    intro id hid
    rw [hobtained]
    exact h.fresh id (hnext.trans hid)

theorem Current.call {call : Call} (h : Current s) (hs : callStep s t call = some s') : Current s' := by
  cases call with
  | access type args Transaction =>
    obtain rfl := Option.some.inj hs
    exact h.enter (t := t) rfl (.inl rfl) (by simp) (by simp) (fun _ _ htr => .inl htr) le_rfl rfl rfl
      rfl rfl rfl rfl
  | start =>
    obtain rfl := Option.some.inj hs
    refine h.enter (t := t) rfl (.inr ⟨rfl, rfl⟩) (by simp) (by simp) (fun id transaction htr => ?_)
      (Nat.le_succ _) rfl rfl rfl rfl rfl rfl
    change Function.update s.Transactions s.next _ id = some transaction at htr
    by_cases hid : id = s.next
    · subst hid
      rw [Function.update_self] at htr
      cases htr
      exact .inr ⟨rfl, rfl⟩
    · rw [Function.update_of_ne hid] at htr
      exact .inl htr
  | finish id Commit =>
    obtain rfl := Option.some.inj hs
    exact h.enter (t := t) rfl (.inl rfl) (by simp) (by simp) (fun _ _ htr => .inl htr) le_rfl rfl rfl
      rfl rfl rfl rfl
  | add Caller Path =>
    simp only [callStep] at hs
    split_ifs at hs
    obtain rfl := Option.some.inj hs
    exact h.enter (t := t) rfl (.inl rfl) (by simp) (by simp) (fun _ _ htr => .inl htr)
      (Nat.le_succ _) rfl rfl rfl rfl rfl rfl
  | remove w =>
    simp only [callStep] at hs
    split_ifs at hs
    obtain rfl := Option.some.inj hs
    exact h.enter (t := t) rfl (.inl rfl) (by simp) (by simp) (fun _ _ htr => .inl htr) le_rfl rfl rfl
      rfl rfl rfl rfl

omit [DecidableEq ι] in
/-- The requests that a poll puts on the ring are timely. -/
theorem Current.poll (h : Current s) : Current (storePollLocked s) :=
  { h with
    ring := fun e he => by
      obtain he | he := List.mem_append.mp he
      · exact h.ring e he
      · obtain ⟨r, hr, rfl⟩ := List.mem_map.mp he
        exact h.submitted r hr
    submitted := fun _ hr => by cases hr
    lock := fun _ => rfl }

omit [DecidableEq ι] in
theorem Current.early (h : Current s) (hlock : s.Lock = none) (hclear : Clear s (.early : Action ι)) :
    Current (suspendEarly s) where
  ring := h.ring
  submitted r hr := by
    change r ∈ s.SubmittedList at hr
    rw [h.lock hlock] at hr
    cases hr
  prepared t op Request hpc := by
    obtain hno | ⟨id, hid, -⟩ := h.prepared t op Request hpc
    · exact .inl hno
    · rw [(hclear t).1 op Request hpc] at hid
      cases hid
  lock := h.lock
  active id transaction htransaction hactive := by
    change deactivate _ _ _ id = _ at htransaction
    unfold deactivate at htransaction
    split_ifs at htransaction with hmem
    · obtain ⟨_, _, rfl⟩ := Option.map_eq_some_iff.mp htransaction
      cases hactive
    · exact absurd (h.active id transaction htransaction hactive).2 hmem
  activating t id hpc := absurd hpc ((hclear t).2 id)
  starting := h.starting
  apart := h.apart
  fresh := h.fresh

theorem Current.step {a : Action ι} (h : Current s) (hclear : Clear s a) (hs : step s a = some s') :
    Current s' := by
  cases a with
  | call t call =>
    simp only [Operations.step] at hs
    split_ifs at hs
    exact h.call hs
  | run t choice =>
    simp only [Operations.step] at hs
    split_ifs at hs
    exact h.access (runStep_cases hs) rfl
  | poll =>
    simp only [Operations.step] at hs
    split_ifs at hs
    obtain rfl := Option.some.inj hs
    exact h.poll
  | early =>
    simp only [Operations.step] at hs
    split_ifs at hs with hfree
    obtain rfl := Option.some.inj hs
    simp only [not_or, not_not] at hfree
    exact h.early hfree.2 hclear
  | late =>
    simp only [Operations.step] at hs
    split_ifs at hs
    obtain rfl := Option.some.inj hs
    exact { h with }

/-! ## The result -/

omit [DecidableEq ι] in
/-- The memory of a transaction from before the suspend, if it has not been freed, is not active. -/
theorem Current.inactive (h : Current s) {id Id epoch : ℕ} {transaction : Transaction}
    (hobtained : s.Obtained id = some (Id, epoch)) (hepoch : epoch < s.epoch)
    (htransaction : s.Transactions id = some transaction) : transaction.Active = false := by
  rw [Bool.eq_false_iff]
  intro hactive
  have heq := hobtained.symm.trans (h.active id transaction htransaction hactive).1
  cases heq
  exact lt_irrefl _ hepoch

/-- A call on a transaction from before the suspend fails, and sends nothing. -/
theorem Current.refused (h : Current s) {op : Op} {id Id epoch : ℕ} (hpc : s.pc t = .prepare op)
    (hop : op.Transaction = some id) (hobtained : s.Obtained id = some (Id, epoch))
    (hepoch : epoch < s.epoch) (hs : Operations.step s (.run t choice) = some s') :
    s'.pc t = .returned op.refusal ∧ s'.ring = s.ring ∧ s'.SubmittedList = s.SubmittedList := by
  simp only [Operations.step, hpc, runStep] at hs
  split_ifs at hs
  cases op with
  | finish id' Commit =>
    obtain rfl := Option.some.inj hop
    obtain ⟨transaction, htransaction, hs⟩ := Option.bind_eq_some_iff.mp hs
    rw [if_neg (by rw [h.inactive hobtained hepoch htransaction]; decide)] at hs
    obtain rfl := Option.some.inj hs
    exact ⟨goto_pc .., rfl, rfl⟩
  | access type args Transaction =>
    obtain rfl : Transaction = some id := hop
    obtain ⟨_, hrequest, rfl⟩ := Option.map_eq_some_iff.mp hs
    obtain ⟨⟨Id', Active⟩, htransaction, rfl⟩ := Option.map_eq_some_iff.mp hrequest
    obtain rfl : Active = false := h.inactive hobtained hepoch htransaction
    exact ⟨goto_pc .., rfl, rfl⟩
  | start | add | remove => cases hop

/-- **No id crosses a suspend.** In every run in which no suspend falls in a window, every request on the
ring that belongs to a transaction was put there before the first suspend after its id was obtained, and
a call on a transaction from before the last suspend fails. -/
theorem no_id_crosses {RequestId WatchId : ℕ}
    (h : Reaches Operations.step Clear (init RequestId WatchId : State ι) s) :
    (∀ e ∈ s.ring, Timely s.Obtained e.epoch e.Request e.Transaction) ∧
      ∀ t op id Id epoch, s.pc t = .prepare op → op.Transaction = some id →
        s.Obtained id = some (Id, epoch) → epoch < s.epoch →
          ∀ choice s', Operations.step s (.run t choice) = some s' →
            s'.pc t = .returned op.refusal ∧ s'.ring = s.ring ∧
              s'.SubmittedList = s.SubmittedList := by
  have hcurrent : Current s := h.invariant (current_init RequestId WatchId) fun _ _ _ h hclear hs => h.step hclear hs
  exact ⟨hcurrent.ring, fun _ _ _ _ _ hpc hop hobtained hepoch _ _ hs =>
    hcurrent.refused hpc hop hobtained hepoch hs⟩

end

/-! ## Runs -/

/-- A thread starts a transaction, and the backend gives it the id 7. -/
def obtaining : List (Action Unit) :=
  [.call () .start, .run () .submit, .run () .submit, .run () .poll, .run () (.answer .success 7)]

/-- It starts one that becomes active. -/
def starting : List (Action Unit) := obtaining ++ [.run () .submit]

/-- It calls `StoreRead` within it, as far as the request is prepared. -/
def reading : List (Action Unit) := [.call () (.access 2 [[47], [0]] (some 0)), .run () .submit]

/-- The request is put on the ring, and answered. -/
def submitting : List (Action Unit) := [.run () .submit, .run () .poll, .run () (.answer .success 0)]

/-- A test for `Clear`, with one thread. -/
def clear (s : State Unit) : Action Unit → Bool
  | .early =>
    match s.pc () with
    | .submit op _ => op.Transaction = none
    | .activate _ => false
    | _ => true
  | _ => true

theorem clear_of_clear {s : State Unit} {a : Action Unit} (h : clear s a = true) : Clear s a := by
  cases a
  case early =>
    refine fun _ => ⟨fun op Request hpc => ?_, fun id hpc => ?_⟩
    · change s.pc () = _ at hpc
      rw [clear, hpc] at h
      exact of_decide_eq_true h
    · change s.pc () = _ at hpc
      rw [clear, hpc] at h
      cases h
  all_goals trivial

/-- A transaction is used, the guest suspended, and the transaction used again. -/
theorem no_id_crosses_run : ∃ s : State Unit, Reaches Operations.step Clear (init 65535 0) s ∧
    s.epoch = 1 ∧ s.ring.length = 2 ∧ s.Obtained 0 = some (7, 0) ∧
      (∀ e ∈ s.ring, Timely s.Obtained e.epoch e.Request e.Transaction) ∧
        ∃ s', Operations.step s (.run () .submit) = some s' ∧ s'.pc () = .returned .retry := by
  obtain ⟨s, hs, hepoch, hlength, hobtained, hpc, s', hs'⟩ : ∃ s : State Unit,
      guardedRun Operations.step (fun s a => clear s a = true) (init 65535 0)
        (starting ++ reading ++ submitting ++ [.early, .late, .call () (.finish 0 true)]) = some s ∧
      s.epoch = 1 ∧ s.ring.length = 2 ∧ s.Obtained 0 = some (7, 0) ∧
        s.pc () = .prepare (.finish 0 true) ∧ ∃ s', Operations.step s (.run () .submit) = some s' :=
    ⟨_, rfl, rfl, rfl, rfl, rfl, _, rfl⟩
  have h := (reaches_of_guardedRun hs).mono fun _ _ => clear_of_clear
  obtain ⟨hring, hrefused⟩ := no_id_crosses h
  exact ⟨s, h, hepoch, hlength, hobtained, hring, s', hs',
    (hrefused () _ 0 7 0 hpc rfl hobtained (by omega) _ s' hs').1⟩

/-- **An id crosses a suspend** that falls after `StorePrepareRequest`, or before the section that makes the
transaction active; and where none does, `StoreRead` in a transaction from before the suspend does not return
`STATUS_RETRY`. -/
theorem id_crosses :
    (∃ s : State Unit, Reaches Operations.step Free (init 0 0) s ∧ s.Obtained 0 = some (7, 0) ∧
      ∃ e ∈ s.ring, e.Request.Header.tx_id = 7 ∧ e.Transaction = some 0 ∧ e.epoch = 1) ∧
    (∃ s : State Unit, Reaches Operations.step Free (init 0 0) s ∧ s.Obtained 0 = some (7, 0) ∧ s.epoch = 1 ∧
      (s.Transactions 0).any Transaction.Active ∧
        ∃ s' : State Unit, Reaches Operations.step Free s s' ∧
          ∃ e ∈ s'.ring, e.Request.Header.tx_id = 7 ∧ e.Transaction = some 0 ∧ e.epoch = 1) ∧
    ∃ s : State Unit, Reaches Operations.step Clear (init 0 0) s ∧ s.Obtained 0 = some (7, 0) ∧ s.epoch = 1 ∧
      s.pc () = .prepare (.access 2 [[47], [0]] (some 0)) ∧
        ∃ s', Operations.step s (.run () .submit) = some s' ∧ s'.pc () = .returned .unsuccessful := by
  refine ⟨?_, ?_, ?_⟩
  · obtain ⟨s, hs, hobtained, e, he, htx, htransaction, hepoch⟩ : ∃ s : State Unit,
        run Operations.step (init 0 0)
          (starting ++ reading ++ [.early, .late, .run () .submit, .run () .poll]) = some s ∧
        s.Obtained 0 = some (7, 0) ∧
          ∃ e ∈ s.ring, e.Request.Header.tx_id = 7 ∧ e.Transaction = some 0 ∧ e.epoch = 1 :=
      ⟨_, rfl, rfl, _, List.mem_cons_of_mem _ List.mem_cons_self, rfl, rfl, rfl⟩
    exact ⟨s, reaches_of_run hs, hobtained, e, he, htx, htransaction, hepoch⟩
  · obtain ⟨s, hs, hobtained, hepoch, hactive, s', hs', e, he, htx, htransaction, hlate⟩ : ∃ s : State Unit,
        run Operations.step (init 0 0) (obtaining ++ [.early, .late, .run () .submit]) = some s ∧
        s.Obtained 0 = some (7, 0) ∧ s.epoch = 1 ∧ (s.Transactions 0).any Transaction.Active ∧
          ∃ s', run Operations.step s (reading ++ [.run () .submit, .run () .poll]) = some s' ∧
            ∃ e ∈ s'.ring, e.Request.Header.tx_id = 7 ∧ e.Transaction = some 0 ∧ e.epoch = 1 :=
      ⟨_, rfl, rfl, rfl, rfl, _, rfl, _, List.mem_cons_of_mem _ List.mem_cons_self, rfl, rfl, rfl⟩
    exact ⟨s, reaches_of_run hs, hobtained, hepoch, hactive, s', reaches_of_run hs', e, he, htx, htransaction,
      hlate⟩
  · obtain ⟨s, hs, hrest⟩ : ∃ s : State Unit,
        guardedRun Operations.step (fun s a => clear s a = true) (init 0 0)
          (starting ++ [.early, .late, .call () (.access 2 [[47], [0]] (some 0))]) = some s ∧
        s.Obtained 0 = some (7, 0) ∧ s.epoch = 1 ∧
          s.pc () = .prepare (.access 2 [[47], [0]] (some 0)) ∧
            ∃ s', Operations.step s (.run () .submit) = some s' ∧ s'.pc () = .returned .unsuccessful :=
      ⟨_, rfl, rfl, rfl, rfl, _, rfl, rfl⟩
    exact ⟨s, (reaches_of_guardedRun hs).mono fun _ _ => clear_of_clear, hrest⟩

end XenBus.Store.Operations
