import Mathlib.Data.List.Nodup
import XenBus.Log.Slots

/-!
# What the dispositions receive

The messages are numbered in the order in which they are enqueued. The flush with a number is that of the
message with this number, so there is at most one flush of a message, and the flushes come in the order of
the messages. A flush has a call for each of the dispositions then registered that has the level in its
mask, and no others; a registration has at most one entry (`Distinct`), hence one call.

Registrations are told apart by the operations that made them. `Delivered` is about all the calls of a run.
What is registered is the array of entries: an entry is put where none was in use, it stays there until it
is removed, and a flush is for the entries of the array at that moment (`Registers`). That a flush comes in
time is about its operation too (`Timely`).
-/

namespace XenBus.Log

variable {dbg : Bool} {dispositions : List Disposition} {s : State} {done pending : List Message}
  {op : Operation}

/-! ## Registrations -/

/-- No two of the entries in use are of one registration. -/
def Distinct (dispositions : List Disposition) : Prop :=
  ((dispositions.filter (·.Mask ≠ 0)).map Disposition.Registration).Nodup

/-- The dispositions of a run: now, and at each flush. -/
structure Registered (s : State) : Prop where
  length : s.Context.Disposition.length = nrDispositions
  distinct : Distinct s.Context.Disposition
  le : ∀ d ∈ s.Context.Disposition, d.Registration ≤ s.operations
  flushes : ∀ flush ∈ s.flushes, Distinct flush.Disposition

/-- A new disposition takes the place of one that is not in use. -/
theorem addDisposition_eq_some {new : Disposition} {added : List Disposition}
    (h : addDisposition new dispositions = some added) :
    ∃ before d after, dispositions = before ++ d :: after ∧ d.Mask = 0 ∧ added = before ++ new :: after := by
  induction dispositions generalizing added with
  | nil => cases h
  | cons d ds ih =>
    rw [addDisposition] at h
    split_ifs at h with hMask
    · exact ⟨[], d, ds, rfl, hMask, (Option.some.inj h).symm⟩
    · obtain ⟨added', hadded, rfl⟩ := Option.map_eq_some_iff.mp h
      obtain ⟨before, d', after, rfl, hMask', rfl⟩ := ih hadded
      exact ⟨d :: before, d', after, rfl, hMask', rfl⟩

/-- It is put where the entry was. -/
theorem addDisposition_eq_set {new : Disposition} {added : List Disposition}
    (h : addDisposition new dispositions = some added) :
    ∃ i d, dispositions[i]? = some d ∧ d.Mask = 0 ∧ added = dispositions.set i new := by
  obtain ⟨before, d, after, rfl, hMask, rfl⟩ := addDisposition_eq_some h
  refine ⟨before.length, d, ?_, hMask, ?_⟩
  · rw [List.getElem?_append_right (le_refl _), Nat.sub_self, List.getElem?_cons_zero]
  · rw [List.set_append_right _ _ (le_refl _), Nat.sub_self, List.set_cons_zero]

/-- If an entry is free, the new disposition gets one. -/
theorem exists_addDisposition (new : Disposition) (h : ∃ d ∈ dispositions, d.Mask = 0) :
    ∃ added, addDisposition new dispositions = some added := by
  induction dispositions with
  | nil =>
    obtain ⟨d, hd, -⟩ := h
    exact absurd hd List.not_mem_nil
  | cons d ds ih =>
    rw [addDisposition]
    split_ifs with hMask
    · exact ⟨_, rfl⟩
    · obtain ⟨d', hd', hMask'⟩ := h
      obtain rfl | hd' := List.mem_cons.mp hd'
      · exact absurd hMask' hMask
      · obtain ⟨added, hadded⟩ := ih ⟨d', hd', hMask'⟩
        exact ⟨d :: added, by rw [hadded]; rfl⟩

/-- Entries in a place where the one before was not in use. -/
theorem distinct_append_cons {before after : List Disposition} {d : Disposition} :
    Distinct (before ++ d :: after) → ∀ new, new.Mask = 0 ∨
      (∀ d' ∈ before ++ after, d'.Registration ≠ new.Registration) → Distinct (before ++ new :: after) := by
  intro h new hnew
  have hold : Distinct (before ++ after) := by
    refine List.Nodup.sublist (List.Sublist.map _ (List.Sublist.filter _ ?_)) h
    exact List.Sublist.append (List.Sublist.refl _) (List.sublist_cons_self _ _)
  unfold Distinct at hold ⊢
  rw [List.filter_append] at hold ⊢
  by_cases hMask : new.Mask = 0
  · rwa [List.filter_cons_of_neg (by simpa using hMask)]
  · rw [List.filter_cons_of_pos (by simpa using hMask), List.map_append, List.map_cons, List.nodup_middle,
      ← List.map_append, List.nodup_cons]
    refine ⟨fun hmem => ?_, hold⟩
    obtain ⟨d', hd', heq⟩ := List.mem_map.mp hmem
    rw [← List.filter_append] at hd'
    exact (hnew.resolve_left hMask) d' (List.mem_of_mem_filter hd') heq

/-- A list with an entry replaced. -/
theorem set_eq_self_or {α : Type*} (l : List α) (i : ℕ) (a : α) :
    l.set i a = l ∨ ∃ before b after, l = before ++ b :: after ∧ l.set i a = before ++ a :: after := by
  by_cases h : i < l.length
  · exact .inr ⟨l.take i, l[i], l.drop (i + 1), by simp, List.set_eq_take_append_cons_drop.trans (if_pos h)⟩
  · exact .inl (List.set_eq_of_length_le (Nat.le_of_not_lt h))

/-- The dispositions after an operation: as they were, or one of them replaced by a new one or by one that
is not in use. -/
theorem dispositions_cases (op : Operation) (Registration : ℕ) (dispositions : List Disposition) :
    op.dispositions Registration dispositions = dispositions ∨
      ∃ before d after new, dispositions = before ++ d :: after ∧
        op.dispositions Registration dispositions = before ++ new :: after ∧
        (new = .zero ∨ new.Registration = Registration) := by
  cases op with
  | addDisposition printed Mask Function Argument =>
    unfold Operation.dispositions
    dsimp only
    split_ifs
    · exact .inl rfl
    · cases hadd : addDisposition ⟨Mask, Function, Argument, Registration⟩ dispositions with
      | none => exact .inl rfl
      | some added =>
        obtain ⟨before, d, after, heq, -, rfl⟩ := addDisposition_eq_some hadd
        exact .inr ⟨before, d, after, _, heq, rfl, .inr rfl⟩
  | removeDisposition Disposition =>
    cases Disposition with
    | none => exact .inl rfl
    | some Index =>
      obtain heq | ⟨before, d, after, heq, hset⟩ := set_eq_self_or dispositions Index .zero
      · exact .inl heq
      · exact .inr ⟨before, d, after, _, heq, hset, .inl rfl⟩
  | _ => exact .inl rfl

/-- The entries stay distinct. -/
theorem distinct_dispositions (op : Operation) {n : ℕ} (hdistinct : Distinct dispositions)
    (hle : ∀ d ∈ dispositions, d.Registration ≤ n) :
    Distinct (op.dispositions (n + 1) dispositions) ∧
      ∀ d ∈ op.dispositions (n + 1) dispositions, d.Registration ≤ n + 1 := by
  obtain heq | ⟨before, d, after, new, rfl, heq, hnew⟩ := dispositions_cases op (n + 1) dispositions
  · rw [heq]
    exact ⟨hdistinct, fun d hd => (hle d hd).trans (Nat.le_succ n)⟩
  · have hothers : ∀ d' ∈ before ++ after, d'.Registration ≤ n := by
      intro d' hd'
      refine hle d' ?_
      rw [List.mem_append, List.mem_cons]
      exact (List.mem_append.mp hd').imp_right .inr
    rw [heq]
    refine ⟨distinct_append_cons hdistinct new ?_, fun d' hd' => ?_⟩
    · obtain rfl | hRegistration := hnew
      · exact .inl rfl
      · exact .inr fun d' hd' => by have := hothers d' hd'; omega
    · rw [List.mem_append, List.mem_cons, or_left_comm, ← List.mem_append] at hd'
      obtain rfl | hd' := hd'
      · obtain rfl | hRegistration := hnew
        · exact Nat.zero_le _
        · exact hRegistration.le
      · exact (hothers d' hd').trans (Nat.le_succ n)

/-- The array keeps its length. -/
theorem length_dispositions (op : Operation) (Registration : ℕ) (dispositions : List Disposition) :
    (op.dispositions Registration dispositions).length = dispositions.length := by
  obtain heq | ⟨before, d, after, new, rfl, heq, -⟩ := dispositions_cases op Registration dispositions
  · rw [heq]
  · rw [heq, List.length_append, List.length_append, List.length_cons, List.length_cons]

theorem registered_initial : Registered initial := by
  refine ⟨rfl, List.nodup_nil, fun d hd => ?_, fun flush hflush => absurd hflush List.not_mem_nil⟩
  rw [List.eq_of_mem_replicate hd]
  exact Nat.zero_le _

/-! ## The calls of a flush -/

/-- The call of a disposition with a message. -/
def Message.call (m : Message) (d : Disposition) : Call :=
  ⟨d.Registration, d.Function, d.Argument, m.text, m.text.length⟩

/-- The message is due to the registration at its flush. -/
def due (Registration : ℕ) (m : Message) (flush : Flush) : Bool :=
  flush.Disposition.any fun d => d.Registration == Registration && matching m.Level d

/-- The calls of a registration. -/
def callsTo (Registration : ℕ) (calls : List Call) : List Call :=
  calls.filter (·.Registration = Registration)

variable {m : Message}

theorem mask_ne_zero {Level : UInt32} {d : Disposition} (h : matching Level d = true) : d.Mask ≠ 0 := by
  intro hMask
  rw [matching, hMask, UInt32.and_zero] at h
  exact absurd h (by decide)

/-- One entry of a list of distinct ones. -/
theorem filter_registration {l : List Disposition} (h : (l.map Disposition.Registration).Nodup)
    {d : Disposition} (hd : d ∈ l) : l.filter (·.Registration = d.Registration) = [d] := by
  induction l with
  | nil => exact absurd hd List.not_mem_nil
  | cons a l ih =>
    rw [List.map_cons, List.nodup_cons] at h
    obtain rfl | hmem := List.mem_cons.mp hd
    · rw [List.filter_cons_of_pos (by simp)]
      refine congrArg (d :: ·) (List.filter_eq_nil_iff.mpr fun a ha heq => h.1 ?_)
      rw [← of_decide_eq_true heq]
      exact List.mem_map_of_mem ha
    · rw [List.filter_cons_of_neg]
      · exact ih h.2 hmem
      · intro heq
        rw [of_decide_eq_true heq] at h
        exact h.1 (List.mem_map_of_mem hmem)

/-- **The calls of a flush**: one of each registration to which the message is due. -/
theorem callsTo_flush (hdistinct : Distinct dispositions) {d : Disposition} (hd : d ∈ dispositions)
    (hmatching : matching m.Level d = true) :
    callsTo d.Registration (m.flush dispositions).calls = [m.call d] := by
  have hsublist : List.Sublist (dispositions.filter (matching m.Level))
      (dispositions.filter (·.Mask ≠ 0)) :=
    List.monotone_filter_right _ fun a ha => by simpa using mask_ne_zero ha
  have hfilter := filter_registration (List.Nodup.sublist (hsublist.map _) hdistinct)
    (List.mem_filter.mpr ⟨hd, hmatching⟩)
  calc callsTo d.Registration (m.flush dispositions).calls
      = ((dispositions.filter (matching m.Level)).filter (·.Registration = d.Registration)).map m.call := by
        rw [callsTo, Message.flush, List.filter_map]
        rfl
    _ = [m.call d] := by rw [hfilter]; rfl

theorem callsTo_flush_of_not_due {Registration : ℕ}
    (h : due Registration m (m.flush dispositions) = false) :
    callsTo Registration (m.flush dispositions).calls = [] := by
  refine List.filter_eq_nil_iff.mpr fun call hcall heq => ?_
  obtain ⟨d, hd, rfl⟩ := List.mem_map.mp hcall
  obtain ⟨hmem, hmatching⟩ := List.mem_filter.mp hd
  have hany : due Registration m (m.flush dispositions) = true :=
    List.any_eq_true.mpr ⟨d, hmem, by rw [hmatching, Bool.and_true]; simpa using heq⟩
  rw [h] at hany
  exact absurd hany (by decide)

/-- What a registration receives at the flush of a message. -/
theorem map_text_callsTo_flush (hdistinct : Distinct dispositions) (Registration : ℕ) :
    (callsTo Registration (m.flush dispositions).calls).map Call.text =
      if due Registration m (m.flush dispositions) then [m.text] else [] := by
  cases hdue : due Registration m (m.flush dispositions) with
  | true =>
    obtain ⟨d, hd, heq⟩ := List.any_eq_true.mp hdue
    obtain ⟨hRegistration, hmatching⟩ := Bool.and_eq_true_iff.mp heq
    obtain rfl := eq_of_beq hRegistration
    rw [callsTo_flush hdistinct hd hmatching]
    rfl
  | false =>
    rw [callsTo_flush_of_not_due hdue]
    rfl

/-! ## Delivery -/

/-- What a registration has received, in the order of the calls. -/
def received (Registration : ℕ) (flushes : List Flush) : List (List UInt8) :=
  (callsTo Registration (flushes.flatMap Flush.calls)).map Call.text

/-- Every message is delivered as it should be: the flushes are those of the first messages and the others
are pending (`count`), each in a slot that has its text and nothing else (`pending`). At the flush of a
message, each disposition then registered with a mask that has the level is called once, with exactly the
text (`once`), and no others are called (`only`). A registration has received the messages that were due to
it at their flushes, in the order in which they were enqueued (`order`). -/
structure Delivered (s : State) : Prop where
  count : s.flushes.length + s.Context.Pending = s.messages.length
  pending : Holds (s.messages.drop s.flushes.length) s.Context
  once : ∀ (k : ℕ) m flush, s.messages[k]? = some m → s.flushes[k]? = some flush →
    ∀ d ∈ flush.Disposition, matching m.Level d = true →
      callsTo d.Registration flush.calls = [m.call d]
  only : ∀ (k : ℕ) m flush, s.messages[k]? = some m → s.flushes[k]? = some flush →
    ∀ call ∈ flush.calls, ∃ d ∈ flush.Disposition, matching m.Level d = true ∧ call = m.call d
  order : ∀ Registration, received Registration s.flushes =
    ((s.messages.zip s.flushes).filter fun p => due Registration p.1 p.2).map (·.1.text)

/-- The flushes come in time: at the end of `LogCchVPrintf` and of `LogDpc` every message has been flushed,
and at the end of a `LogDebugPrint` that has found all slots taken, every message before its own. -/
def Timely (dbg : Bool) (op : Operation) (s s' : State) : Prop :=
  s.stopped = false → s'.stopped = false →
    match op with
    | .cchVPrintf .. => s'.flushes.length = s'.messages.length
    | .dpc => s'.flushes.length = s'.messages.length
    | .debugPrint .. =>
      op.message dbg ≠ none → s.Context.Pending = nrSlots → s'.flushes.length = s.messages.length
    | _ => True

/-- What an operation does with the entries: one that is in use stays as it is unless it is removed (`kept`,
`removed`), a new disposition gets an entry that was not in use if there is one (`added`), and there are no
others (`only`). The flushes are for the entries in the array then (`flushed`). -/
structure Registers (op : Operation) (s s' : State) : Prop where
  kept : ∀ (i : ℕ) (d : Disposition), s.Context.Disposition[i]? = some d → d.Mask ≠ 0 →
    op ≠ .removeDisposition (some i) → s'.Context.Disposition[i]? = some d
  removed : ∀ i : ℕ, op = .removeDisposition (some i) → s.stopped = false → i < nrDispositions →
    s'.Context.Disposition[i]? = some .zero
  added : ∀ printed Mask Function Argument, op = .addDisposition printed Mask Function Argument →
    s.stopped = false → Mask ≠ 0 → (∃ d ∈ s.Context.Disposition, d.Mask = 0) →
      ∃ (i : ℕ) (d : Disposition), s.Context.Disposition[i]? = some d ∧ d.Mask = 0 ∧
        s'.Context.Disposition[i]? = some ⟨Mask, Function, Argument, s'.operations⟩
  only : ∀ (i : ℕ) (d : Disposition), s'.Context.Disposition[i]? = some d → d.Mask ≠ 0 →
    s.Context.Disposition[i]? = some d ∨
      ∃ printed Mask Function Argument, op = .addDisposition printed Mask Function Argument ∧
        d = ⟨Mask, Function, Argument, s'.operations⟩
  flushed : ∃ more, s'.flushes = s.flushes ++ more ∧
    ∀ flush ∈ more, flush.Disposition = s.Context.Disposition

/-- The flush with the number of a message is the flush of this message. -/
theorem flush_of_getElem? (h : Inv s done pending) {k : ℕ} {m : Message} {flush : Flush}
    (hm : s.messages[k]? = some m) (hflush : s.flushes[k]? = some flush) :
    flush = m.flush flush.Disposition := by
  obtain ⟨hk, hget⟩ := List.getElem?_eq_some_iff.mp hflush
  have hdone : k < done.length := by rw [h.flushes.length_eq]; exact hk
  rw [h.messages, List.getElem?_append_left hdone, List.getElem?_eq_getElem hdone] at hm
  rw [← Option.some.inj hm, ← hget]
  exact h.flushes.get hdone hk

/-- What a registration has received from the flushes of messages. -/
theorem received_eq {flushes : List Flush} (Registration : ℕ) (pending : List Message)
    (hflushes : List.Forall₂ (fun m flush => flush = Message.flush flush.Disposition m) done flushes)
    (hdistinct : ∀ flush ∈ flushes, Distinct flush.Disposition) :
    received Registration flushes =
      (((done ++ pending).zip flushes).filter fun p => due Registration p.1 p.2).map (·.1.text) := by
  induction hflushes with
  | nil => rw [List.zip_nil_right]; rfl
  | @cons m flush done flushes heq _ ih =>
    obtain ⟨hflush, hrest⟩ := List.forall_mem_cons.mp hdistinct
    have hhead : (callsTo Registration flush.calls).map Call.text =
        if due Registration m flush then [m.text] else [] := by
      rw [heq]
      exact map_text_callsTo_flush hflush Registration
    have hsplit : received Registration (flush :: flushes) =
        (callsTo Registration flush.calls).map Call.text ++ received Registration flushes := by
      rw [received, List.flatMap_cons, callsTo, List.filter_append, List.map_append]
      rfl
    rw [hsplit, hhead, ih hrest, List.cons_append, List.zip_cons_cons, List.filter_cons]
    cases due Registration m flush with
    | true => rfl
    | false => rfl

theorem delivered_of_inv (h : Inv s done pending) (hregistered : Registered s) : Delivered s := by
  have hlength : s.flushes.length = done.length := h.flushes.length_eq.symm
  constructor
  · rw [hlength, h.holds.Pending, h.messages, List.length_append]
  · rw [hlength, h.messages, List.drop_left]
    exact h.holds
  · intro k m flush hm hflush d hd hmatching
    rw [flush_of_getElem? h hm hflush]
    exact callsTo_flush (hregistered.flushes flush (List.mem_of_getElem? hflush)) hd hmatching
  · intro k m flush hm hflush call hcall
    rw [flush_of_getElem? h hm hflush] at hcall
    obtain ⟨d, hd, rfl⟩ := List.mem_map.mp hcall
    obtain ⟨hmem, hmatching⟩ := List.mem_filter.mp hd
    exact ⟨d, hmem, hmatching, rfl⟩
  · intro Registration
    rw [h.messages]
    exact received_eq Registration pending h.flushes hregistered.flushes

/-! ## Steps -/

theorem step_registered (hregistered : Registered s) {s' : State} {more : List Message}
    (hflushes : s'.flushes = s.flushes ++ more.map (Message.flush s.Context.Disposition))
    (hdispositions : s'.Context.Disposition = op.dispositions (s.operations + 1) s.Context.Disposition)
    (hoperations : s'.operations = s.operations + 1) : Registered s' := by
  obtain ⟨hdistinct, hle⟩ := distinct_dispositions op hregistered.distinct hregistered.le
  refine ⟨?_, by rwa [hdispositions], by rwa [hdispositions, hoperations], fun flush hflush => ?_⟩
  · rw [hdispositions, length_dispositions, hregistered.length]
  rw [hflushes] at hflush
  obtain hflush | hflush := List.mem_append.mp hflush
  · exact hregistered.flushes flush hflush
  · obtain ⟨m, -, rfl⟩ := List.mem_map.mp hflush
    exact hregistered.distinct

/-- An entry of an array after another has been put in a place. -/
theorem getElem?_set_cases {i j : ℕ} {d new : Disposition}
    (h : (dispositions.set j new)[i]? = some d) : i = j ∧ d = new ∨ dispositions[i]? = some d := by
  rw [List.getElem?_set] at h
  split_ifs at h with hij hlt
  · exact .inl ⟨hij.symm, (Option.some.inj h).symm⟩
  · exact .inr h

theorem getElem?_set_of_eq {i : ℕ} {d : Disposition} (new : Disposition)
    (h : dispositions[i]? = some d) : (dispositions.set i new)[i]? = some new :=
  List.getElem?_set_self (List.getElem?_eq_some_iff.mp h).1

/-- An operation that leaves the entries as they are: no removal, and no addition for which there is an
entry. -/
theorem registers_of_eq {s' : State} (heq : s'.Context.Disposition = s.Context.Disposition)
    (hflushed : ∃ more, s'.flushes = s.flushes ++ more ∧
      ∀ flush ∈ more, flush.Disposition = s.Context.Disposition)
    (hremove : ∀ i, op = .removeDisposition (some i) → s.stopped = true)
    (hadd : ∀ printed Mask Function Argument, op = .addDisposition printed Mask Function Argument →
      s.stopped = true ∨ Mask = 0 ∨ ∀ d ∈ s.Context.Disposition, d.Mask ≠ 0) : Registers op s s' := by
  constructor
  · intro i d h _ _
    rwa [heq]
  · intro i hop hrunning _
    rw [hremove i hop] at hrunning
    cases hrunning
  · intro printed Mask Function Argument hop hrunning hMask hfree
    obtain ⟨d, hd, hzero⟩ := hfree
    obtain hstopped | hMask' | hinuse := hadd _ _ _ _ hop
    · rw [hstopped] at hrunning
      cases hrunning
    · exact absurd hMask' hMask
    · exact absurd hzero (hinuse d hd)
  · intro i d h _
    rw [heq] at h
    exact .inl h
  · exact hflushed

/-- The entries after an operation, one case per operation that changes them. -/
theorem step_registers (hlength : s.Context.Disposition.length = nrDispositions) {s' : State}
    {more : List Message}
    (hflushes : s'.flushes = s.flushes ++ more.map (Message.flush s.Context.Disposition))
    (hdispositions : s'.Context.Disposition = op.dispositions (s.operations + 1) s.Context.Disposition)
    (hoperations : s'.operations = s.operations + 1) : Registers op s s' := by
  have hflushed : ∃ more, s'.flushes = s.flushes ++ more ∧
      ∀ flush ∈ more, flush.Disposition = s.Context.Disposition := by
    refine ⟨_, hflushes, fun flush hflush => ?_⟩
    obtain ⟨m, -, rfl⟩ := List.mem_map.mp hflush
    rfl
  rw [← hoperations] at hdispositions
  cases op with
  | addDisposition printed Mask Function Argument =>
    rw [Operation.dispositions] at hdispositions
    by_cases hMask : Mask = 0
    · rw [if_pos hMask] at hdispositions
      refine registers_of_eq hdispositions hflushed nofun ?_
      rintro _ _ _ _ ⟨⟩
      exact .inr (.inl hMask)
    rw [if_neg hMask] at hdispositions
    cases hadd : addDisposition ⟨Mask, Function, Argument, s'.operations⟩ s.Context.Disposition with
    | none =>
      rw [hadd, Option.getD_none] at hdispositions
      refine registers_of_eq hdispositions hflushed nofun ?_
      rintro _ _ _ _ ⟨⟩
      refine .inr (.inr fun d hd hzero => ?_)
      obtain ⟨added, hadded⟩ := exists_addDisposition ⟨Mask, Function, Argument, s'.operations⟩ ⟨d, hd, hzero⟩
      rw [hadd] at hadded
      cases hadded
    | some added =>
      obtain ⟨j, free, hfree, hzero, rfl⟩ := addDisposition_eq_set hadd
      rw [hadd, Option.getD_some] at hdispositions
      refine ⟨fun i d h hinuse _ => ?_, nofun, ?_, fun i d h _ => ?_, hflushed⟩
      · rw [hdispositions, List.getElem?_set_ne, h]
        rintro rfl
        rw [hfree] at h
        obtain rfl := Option.some.inj h
        exact hinuse hzero
      · rintro _ _ _ _ ⟨⟩ - - -
        exact ⟨j, free, hfree, hzero, by rw [hdispositions, getElem?_set_of_eq _ hfree]⟩
      · rw [hdispositions] at h
        obtain ⟨-, rfl⟩ | h := getElem?_set_cases h
        · exact .inr ⟨_, _, _, _, rfl, rfl⟩
        · exact .inl h
  | removeDisposition Disposition =>
    cases Disposition with
    | none => exact registers_of_eq hdispositions hflushed nofun nofun
    | some j =>
      rw [Operation.dispositions] at hdispositions
      refine ⟨fun i d h _ hne => ?_, ?_, nofun, fun i d h hinuse => ?_, hflushed⟩
      · rw [hdispositions, List.getElem?_set_ne, h]
        rintro rfl
        exact hne rfl
      · rintro _ ⟨⟩ - hlt
        rw [hdispositions, List.getElem?_set_self (by rwa [hlength])]
      · rw [hdispositions] at h
        obtain ⟨-, rfl⟩ | h := getElem?_set_cases h
        · exact absurd rfl hinuse
        · exact .inl h
  | _ => exact registers_of_eq hdispositions hflushed nofun nofun

/-- One operation of a run. -/
theorem step_delivered (h : Inv s done pending) (hregistered : Registered s) (hfits : op.Fits dbg) :
    ∃ s', step dbg s op = some s' ∧ (∃ done' pending', Inv s' done' pending') ∧ Registered s' ∧
      Registers op s s' ∧ Timely dbg op s s' := by
  by_cases hstopped : s.stopped = true
  · exact ⟨s, if_pos hstopped, ⟨done, pending, h⟩, hregistered, registers_of_eq rfl
      ⟨[], (List.append_nil _).symm, fun _ hmem => absurd hmem List.not_mem_nil⟩ (fun _ _ => hstopped)
      (fun _ _ _ _ _ => .inl hstopped),
      fun hrunning => by
        rw [hstopped] at hrunning
        cases hrunning⟩
  · obtain ⟨s', more, rest, hstep, hinv, hflushes, hdispositions, hoperations, hflushed⟩ :=
      step_inv h (Bool.not_eq_true _ ▸ hstopped) hfits
    refine ⟨s', hstep, ⟨_, _, hinv⟩, step_registered hregistered hflushes hdispositions hoperations,
      step_registers hregistered.length hflushes hdispositions hoperations, fun _ hreturned => ?_⟩
    have hcount : s'.flushes.length + rest.length = s'.messages.length := by
      rw [hinv.messages, List.length_append, hinv.flushes.length_eq]
    cases op with
    | cchVPrintf memory Level Count Format Arguments =>
      obtain rfl : rest = [] := hflushed (by rw [hreturned]; rfl)
      exact hcount
    | dpc =>
      obtain rfl : rest = [] := hflushed
      exact hcount
    | debugPrint Ansi Level =>
      intro hmessage hfull
      obtain rfl := hflushed hmessage (h.holds.Pending.symm.trans hfull)
      rw [← hinv.flushes.length_eq, h.messages]
    | addDisposition => trivial
    | removeDisposition => trivial

/-! ## Main result -/

/-- **Every message is delivered once to each disposition, in order and in time**, in every run in which
what `LogDebugPrint` writes fits into a buffer. The dispositions are those that are registered: the entries
change by each operation as they should. -/
theorem delivered_once_in_order (dbg : Bool) (ops : List Operation) (op : Operation)
    (hfits : ∀ op' ∈ ops ++ [op], op'.Fits dbg) :
    ∃ s s', run dbg ops = some s ∧ step dbg s op = some s' ∧ Delivered s ∧ Delivered s' ∧
      Registers op s s' ∧ Timely dbg op s s' := by
  obtain ⟨s, hrun, ⟨done, pending, hinv⟩, hregistered⟩ := run_induction
    (P := fun s => (∃ done pending, Inv s done pending) ∧ Registered s)
    ⟨⟨[], [], inv_initial⟩, registered_initial⟩ (fun s op hP hfits => by
      obtain ⟨⟨done, pending, hinv⟩, hregistered⟩ := hP
      obtain ⟨s', hstep, hinv', hregistered', -⟩ := step_delivered hinv hregistered hfits
      exact ⟨s', hstep, hinv', hregistered'⟩) ops fun op' hop' => hfits op' (List.mem_append_left _ hop')
  obtain ⟨s', hstep, ⟨done', pending', hinv'⟩, hregistered', hregisters, htimely⟩ := step_delivered hinv
    hregistered (hfits op (List.mem_append_right _ (List.mem_singleton_self _)))
  exact ⟨s, s', hrun, hstep, delivered_of_inv hinv hregistered, delivered_of_inv hinv' hregistered',
    hregisters, htimely⟩

/-- A disposition that receives a message of each writer, and its removal. -/
theorem delivered_once_in_order_twoMessages : ∃ s s', run false twoMessages = some s ∧
    step false s (.removeDisposition (some 0)) = some s' ∧ Delivered s ∧ Delivered s' ∧
    Registers (.removeDisposition (some 0)) s s' ∧ Timely false (.removeDisposition (some 0)) s s' ∧
    s.flushes.map Flush.calls =
      [[⟨1, 1, 2, [120, 101, 110, 10], 4⟩], [⟨1, 1, 2, [104, 105], 2⟩]] := by
  obtain ⟨s, s', hrun, hstep, hs, hs', hregisters, htimely⟩ :=
    delivered_once_in_order false twoMessages (.removeDisposition (some 0)) (fun op hop => by
      obtain hop | hop := List.mem_append.mp hop
      · exact fits_twoMessages op hop
      · rw [List.mem_singleton.mp hop]
        trivial)
  have hcalls := calls_twoMessages
  rw [hrun] at hcalls
  exact ⟨s, s', hrun, hstep, hs, hs', hregisters, htimely, Option.some.inj hcalls⟩

end XenBus.Log
