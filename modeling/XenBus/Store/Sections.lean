import XenBus.Store.Operations

/-!
# What a section of a call can do

`Access` lists the critical sections of the calls and the steps in `StoreSubmitRequest`, each with the
place where it starts and the state after it; `runStep_cases` says that there are no others. A request is
prepared within an active transaction or within none (`Prepared`).
-/

namespace XenBus.Store.Operations

open Requests

variable {ι : Type} {s s' : State ι}

/-- The id in a prepared request is that of its transaction, which is active. -/
theorem storePrepareRequest_tx_id {RequestId type : ℕ} {transaction : Option Transaction}
    {args : List (List UInt8)} {req : Requests.Request}
    (h : (storePrepareRequest RequestId transaction type args).1 = some req) :
    (transaction = none ∧ req.Header.tx_id = 0) ∨
      ∃ Id, transaction = some ⟨Id, true⟩ ∧ req.Header.tx_id = Id := by
  unfold storePrepareRequest at h
  split at h
  · cases h
  next hactive =>
    obtain ⟨⟨len, segments⟩, -, rfl⟩ := Option.map_eq_some_iff.mp h
    cases transaction with
    | none => exact .inl ⟨rfl, rfl⟩
    | some transaction =>
      obtain ⟨Id, _ | _⟩ := transaction
      · exact absurd rfl (hactive Id)
      · exact .inr ⟨Id, rfl, rfl⟩

/-- The request has been prepared for the call: within an active transaction if it is within one. -/
def Prepared (s : State ι) (op : Op) (Request : Requests.Request) : Prop :=
  (op.Transaction = none ∧ Request.Header.tx_id = 0) ∨
    ∃ id, op.Transaction = some id ∧ s.Transactions id = some ⟨Request.Header.tx_id, true⟩

/-- A call within a transaction has that transaction's memory in hand. -/
theorem request_transaction {op : Op} {type : ℕ} {args : List (List UInt8)}
    {transaction : Option Transaction} (h : request s op = some (type, args, transaction)) :
    (op.Transaction = none ∧ transaction = none) ∨
      ∃ id tr, op.Transaction = some id ∧ s.Transactions id = some tr ∧ transaction = some tr := by
  unfold request at h
  split at h
  case h_1 | h_3 =>
    cases h
    exact .inl ⟨rfl, rfl⟩
  case h_2 | h_4 =>
    obtain ⟨tr, htr, heq⟩ := Option.map_eq_some_iff.mp h
    cases heq
    exact .inr ⟨_, tr, rfl, htr, rfl⟩
  case h_5 | h_6 =>
    obtain ⟨_, _, heq⟩ := Option.map_eq_some_iff.mp h
    cases heq
    exact .inl ⟨rfl, rfl⟩

theorem prepared_of_request {op : Op} {type : ℕ} {args : List (List UInt8)}
    {transaction : Option Transaction} (hrequest : request s op = some (type, args, transaction))
    {RequestId : ℕ} {req : Requests.Request}
    (h : (storePrepareRequest RequestId transaction type args).1 = some req) : Prepared s op req := by
  obtain ⟨hop, rfl⟩ | ⟨id, tr, hop, htr, rfl⟩ := request_transaction hrequest
  · obtain ⟨_, htx⟩ | ⟨_, heq, _⟩ := storePrepareRequest_tx_id h
    · exact .inl ⟨hop, htx⟩
    · cases heq
  · obtain ⟨heq, _⟩ | ⟨Id, heq, rfl⟩ := storePrepareRequest_tx_id h
    · cases heq
    · cases heq
      exact .inr ⟨id, hop, htr⟩

variable [DecidableEq ι]

/-- The sections of a thread, and its steps in `StoreSubmitRequest`, from a place to a state. -/
inductive Access (s : State ι) (t : ι) (choice : Choice) : Pc → State ι → Prop
  | inserted {w Id : ℕ} {watch : Watch} (hwatch : s.Watches w = some watch)
      (hId : storeFindWatch s Id = none) :
      Access s t choice (.insert w) ({ s.setWatch w (some { watch with Id := Id, Active := true }) with
        WatchId := (Id + 1) % 65536
        WatchList := s.WatchList ++ [w] }.goto t (.prepare (.add w)))
  | ended {id : ℕ} {Commit : Bool} {transaction : Transaction}
      (htransaction : s.Transactions id = some transaction) (hactive : transaction.Active = false) :
      Access s t choice (.prepare (.finish id Commit)) ((s.endTransaction id).goto t (.returned .retry))
  | gone {w : ℕ} {watch : Watch} (hwatch : s.Watches w = some watch)
      (hactive : watch.Active = false) :
      Access s t choice (.prepare (.remove w)) ((s.dropWatch w).goto t (.returned .success))
  | prepared {op : Op} {Request : Requests.Request} {RequestId : ℕ} (hprepared : Prepared s op Request) :
      Access s t choice (.prepare op) ({ s with RequestId := RequestId }.goto t (.submit op Request))
  | unprepared {op : Op} {type RequestId : ℕ} {args : List (List UInt8)}
      {transaction : Option Transaction} (hrequest : request s op = some (type, args, transaction))
      (hnone : (storePrepareRequest s.RequestId transaction type args).1 = none) :
      Access s t choice (.prepare op) (unprepared { s with RequestId := RequestId } t op)
  | noMemory {op : Op} {Request : Requests.Request} :
      Access s t choice (.submit op Request) (failed s t .noMemory op)
  | submitted {op : Op} {Request : Requests.Request} : Access s t choice (.submit op Request) ({ s with
      Lock := some t
      SubmittedList := s.SubmittedList ++ [(Request, op.Transaction)] }.goto t (.wait op))
  | polled {op : Op} : Access s t choice (.wait op) (storePollLocked s)
  | failed {op : Op} {status : Status} (hsubmitted : s.SubmittedList = []) :
      Access s t choice (.wait op) (failed { s with Lock := none } t status op)
  | started {id Id : ℕ} (hsubmitted : s.SubmittedList = []) :
      Access s t choice (.wait (.start id)) ({ s.setTransaction id (some ⟨Id, false⟩) with
        Lock := none
        Obtained := Function.update s.Obtained id (some (Id, s.epoch)) }.goto t (.activate id))
  | finished {id : ℕ} {Commit : Bool} {status : Status} (hsubmitted : s.SubmittedList = []) :
      Access s t choice (.wait (.finish id Commit)) ({ s with Lock := none }.goto t (.close id status))
  | watched {w Id : ℕ} {watch : Watch} (hchoice : choice = .answer .success Id)
      (hsubmitted : s.SubmittedList = []) (hwatch : s.Watches w = some watch) :
      Access s t choice (.wait (.add w)) (({ s with
        Lock := none
        registrations := Function.update s.registrations watch.key true }.own w true).goto t
          (.returned .success))
  | unwatched {w : ℕ} {watch : Watch} (hsubmitted : s.SubmittedList = [])
      (hwatch : s.Watches w = some watch) :
      Access s t choice (.wait (.remove w)) ({ s with
        Lock := none
        registrations := Function.update s.registrations watch.key false }.goto t (.drop w))
  | activated {id : ℕ} {transaction : Transaction}
      (htransaction : s.Transactions id = some transaction) :
      Access s t choice (.activate id) ({ s.setTransaction id (some { transaction with Active := true }) with
        TransactionList := s.TransactionList ++ [id] }.goto t (.returned .success))
  | closed {id : ℕ} {status : Status} :
      Access s t choice (.close id status) ((s.endTransaction id).goto t (.returned status))
  | undone {w : ℕ} {status : Status} :
      Access s t choice (.undo w status) ((s.dropWatch w).goto t (.returned status))
  | dropped {w : ℕ} : Access s t choice (.drop w) ((s.dropWatch w).goto t (.returned .success))

theorem prepare_cases {t : ι} {choice : Choice} {op : Op} (h : prepare s t op = some s') :
    Access s t choice (.prepare op) s' := by
  obtain ⟨⟨type, args, transaction⟩, hrequest, heq⟩ := Option.map_eq_some_iff.mp h
  simp only at heq
  split at heq
  next hnone =>
    subst heq
    exact .unprepared hrequest hnone
  next Request hsome =>
    subst heq
    exact .prepared (prepared_of_request hrequest hsome)

theorem answered_cases {t : ι} {status : Status} {Id : ℕ} {op : Op} (hsubmitted : s.SubmittedList = [])
    (h : answered { s with Lock := none } t status Id op = some s') :
    Access s t (.answer status Id) (.wait op) s' := by
  cases op with
  | access type args Transaction =>
    obtain rfl := Option.some.inj h
    exact .failed hsubmitted
  | start id =>
    simp only [answered] at h
    split_ifs at h <;> obtain rfl := Option.some.inj h
    · exact .started hsubmitted
    · exact .failed hsubmitted
  | finish id Commit =>
    simp only [answered] at h
    split_ifs at h <;> obtain rfl := Option.some.inj h
    · exact .finished hsubmitted
    · exact .failed hsubmitted
  | add w =>
    simp only [answered] at h
    split_ifs at h with hsuccess
    · obtain ⟨watch, hwatch, rfl⟩ := Option.map_eq_some_iff.mp h
      exact .watched (by rw [hsuccess]) hsubmitted hwatch
    · obtain rfl := Option.some.inj h
      exact .failed hsubmitted
  | remove w =>
    simp only [answered] at h
    split_ifs at h
    · obtain ⟨watch, hwatch, rfl⟩ := Option.map_eq_some_iff.mp h
      exact .unwatched hsubmitted hwatch
    · obtain rfl := Option.some.inj h
      exact .failed hsubmitted

omit [DecidableEq ι] in
theorem nextWatchId_spec {n Id Id' : ℕ} (h : nextWatchId s n Id = some Id') :
    storeFindWatch s Id' = none := by
  induction n generalizing Id with
  | zero => cases h
  | succ n ih =>
    unfold nextWatchId at h
    split_ifs at h with hfree
    · obtain rfl := Option.some.inj h
      exact hfree
    · exact ih h

theorem runStep_cases {t : ι} {choice : Choice} {pc : Pc} (h : runStep s t choice pc = some s') :
    Access s t choice pc s' := by
  cases pc with
  | idle => cases h
  | returned => cases h
  | wait op =>
    cases choice with
    | answer status Id =>
      simp only [runStep] at h
      split_ifs at h with hsubmitted
      exact answered_cases hsubmitted h
    | noMemory | submit | poll =>
      obtain rfl := Option.some.inj h
      exact .polled
  | submit op Request =>
    cases choice with
    | noMemory =>
      obtain rfl := Option.some.inj h
      exact .noMemory
    | submit | poll | answer =>
      simp only [runStep] at h
      split_ifs at h
      obtain rfl := Option.some.inj h
      exact .submitted
  | insert w =>
    simp only [runStep] at h
    split_ifs at h
    obtain ⟨watch, hwatch, h⟩ := Option.bind_eq_some_iff.mp h
    obtain ⟨Id, hId, rfl⟩ := Option.map_eq_some_iff.mp h
    exact .inserted hwatch (nextWatchId_spec hId)
  | prepare op =>
    simp only [runStep] at h
    split_ifs at h
    cases op with
    | finish id Commit =>
      obtain ⟨transaction, htransaction, h⟩ := Option.bind_eq_some_iff.mp h
      split_ifs at h with hactive
      · exact prepare_cases h
      · obtain rfl := Option.some.inj h
        exact .ended htransaction (Bool.eq_false_iff.mpr hactive)
    | remove w =>
      obtain ⟨watch, hwatch, h⟩ := Option.bind_eq_some_iff.mp h
      split_ifs at h with hactive
      · exact prepare_cases h
      · obtain rfl := Option.some.inj h
        exact .gone hwatch (Bool.eq_false_iff.mpr hactive)
    | access | start | add => exact prepare_cases h
  | activate id =>
    simp only [runStep] at h
    split_ifs at h
    obtain ⟨transaction, htransaction, rfl⟩ := Option.map_eq_some_iff.mp h
    exact .activated htransaction
  | close id status =>
    simp only [runStep] at h
    split_ifs at h
    obtain ⟨_, _, rfl⟩ := Option.map_eq_some_iff.mp h
    exact .closed
  | undo w status =>
    simp only [runStep] at h
    split_ifs at h
    obtain ⟨_, _, rfl⟩ := Option.map_eq_some_iff.mp h
    exact .undone
  | drop w =>
    simp only [runStep] at h
    split_ifs at h
    obtain ⟨_, _, rfl⟩ := Option.map_eq_some_iff.mp h
    exact .dropped

/-! ## Where a section leads -/

section

variable {t : ι} {choice : Choice} {pc : Pc}

@[simp] theorem goto_pc (s : State ι) (t : ι) (pc : Pc) : (s.goto t pc).pc t = pc :=
  Function.update_self ..

theorem unprepared_pc (s : State ι) (t : ι) (op : Op) :
    (unprepared s t op).pc t = .returned .unsuccessful := by
  cases op <;> exact goto_pc ..

theorem failed_pc (s : State ι) (t : ι) (status : Status) (op : Op) :
    (failed s t status op).pc t = .returned status ∨ ∃ w, (failed s t status op).pc t = .undo w status := by
  cases op
  case add w => exact .inr ⟨w, goto_pc ..⟩
  all_goals exact .inl (goto_pc ..)

/-- What a section leaves alone. -/
structure Frame (t : ι) (s s' : State ι) : Prop where
  pc : ∀ j, j ≠ t → s'.pc j = s.pc j
  epoch : s'.epoch = s.epoch
  next : s'.next = s.next
  captured : s'.captured = s.captured
  signalled : s'.Signalled = s.Signalled

theorem Access.frame (hacc : Access s t choice pc s') : Frame t s s' := by
  have hupdate : ∀ (pc : Pc) j, j ≠ t → Function.update s.pc t pc j = s.pc j :=
    fun pc j hj => Function.update_of_ne hj _ _
  cases hacc
  case polled => exact ⟨fun _ _ => rfl, rfl, rfl, rfl, rfl⟩
  case unprepared op _ _ _ _ _ _ => cases op <;> exact ⟨hupdate _, rfl, rfl, rfl, rfl⟩
  case noMemory op _ | failed op _ _ => cases op <;> exact ⟨hupdate _, rfl, rfl, rfl, rfl⟩
  all_goals exact ⟨hupdate _, rfl, rfl, rfl, rfl⟩

end

end XenBus.Store.Operations
