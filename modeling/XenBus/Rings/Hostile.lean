import XenBus.Rings.Model

/-!
# The shared rings beside a hostile peer

Here the peer keeps to nothing: between any two accesses of a routine it writes what it likes to the cells
and to both indices, which need have no relation to each other. `Available` can then be any 32-bit value,
and the copy is held in place by the two other minima alone.

The four routines are taken together: `Routine` is what a run needs to know of one, `Routine.Sound` what
an access of it does, and `contained_of_reaches` the bounds of all its copies in every run.
`copies_contained` has the four as its instances.
-/

namespace XenBus.Rings

open Transition

variable {β σ : Type*} {M N : ℕ}

/-! ## A routine and its copies -/

/-- A copy between `Index` in the ring and `Offset` in a buffer of `Length` bytes. -/
structure Copy where
  Index : ℕ
  Offset : ℕ
  CopyLength : ℕ
  Length : ℕ
  deriving DecidableEq

/-- The copy inside the ring and inside the buffer. -/
def Copy.Inside (N : ℕ) (c : Copy) : Prop :=
  c.Index + c.CopyLength ≤ N ∧ c.Offset + c.CopyLength ≤ c.Length

/-- The copy that the next access makes, if it makes one; `Available` is computed from the routine's
index and the peer's. -/
def Pc.copy (N : ℕ) (Available : ℕ → ℕ → ℕ) : Pc β → Option Copy
  | .loop Data own peer Offset Length =>
    if Length = 0 ∨ Available own peer = 0 then none
    else some ⟨own % N, Offset, min (min Length (Available own peer)) (N - own % N), Data.length⟩
  | _ => none

/-- How many accesses a call has yet to make, at most. -/
def Pc.rank : Pc β → ℕ
  | .idle => 0
  | .readPeer Data _ => Data.length + 2
  | .loop _ _ _ _ Length => Length + 1

/-- What is copied and what is left are the buffer. -/
def Pc.Good : Pc β → Prop
  | .loop Data _ _ Offset Length => Offset + Length = Data.length
  | _ => True

/-- A routine with its ring, as the peer meets it. -/
structure Routine (β σ : Type*) where
  cells : σ → ℕ → β
  pc : σ → Pc β
  calls : σ → List (List β × ℕ)
  Available : ℕ → ℕ → ℕ
  call : σ → List β → Option σ
  cpu : σ → Option σ
  write : σ → (ℕ → β) → ℕ → ℕ → σ

/-- A routine that puts bytes, of which `step` is a step. -/
def sending (step : Send β → SendAct β → Option (Send β)) (M N : ℕ) : Routine β (Send β) where
  cells := Send.cells
  pc := Send.pc
  calls := Send.calls
  Available := Ring.room M N
  call s Data := step s (.call Data)
  cpu s := step s .cpu
  write s cells prod cons := { s with cells := cells, prod := prod, cons := cons }

/-- A routine that takes bytes, of which `step` is a step. -/
def receiving (step : Receive β → ReceiveAct β → Option (Receive β)) (M : ℕ) :
    Routine β (Receive β) where
  cells := Receive.cells
  pc := Receive.pc
  calls := Receive.calls
  Available own peer := Ring.available M peer own
  call s Data := step s (.call Data)
  cpu s := step s .cpu
  write s cells prod cons := { s with cells := cells, prod := prod, cons := cons }

/-! ## The system -/

/-- The ring, with the copies that have been made. -/
structure Hostile (σ : Type*) where
  ring : σ
  copies : List Copy

inductive HostileAct (β : Type*)
  | call (Data : List β)
  /-- The next access of the call. -/
  | cpu
  /-- The peer writes to the page. -/
  | write (cells : ℕ → β) (prod cons : ℕ)

/-- One access of the routine, or what the peer does between two of them. -/
def hostileStep (r : Routine β σ) (M N : ℕ) (s : Hostile σ) : HostileAct β → Option (Hostile σ)
  | .call Data => (r.call s.ring Data).map fun t => { s with ring := t }
  | .cpu => (r.cpu s.ring).map fun t =>
      ⟨t, s.copies ++ ((r.pc s.ring).copy N r.Available).toList⟩
  | .write cells prod cons =>
    if prod < M ∧ cons < M then
      some { s with
        ring := r.write s.ring (fun i => if i < N then cells i else r.cells s.ring i) prod cons }
    else none

/-- An access of a call under way. -/
def isCpu : HostileAct β → Bool
  | .cpu => true
  | _ => false

/-- A new call. -/
def isCall : HostileAct β → Bool
  | .call _ => true
  | _ => false

/-- **Every copy is in bounds, and every call ends.** The memory beyond the ring stays as `cells` has it,
no call reports more than its buffer holds, a call under way can make its next access whatever the peer has
done, and it makes only so many. -/
structure Contained (r : Routine β σ) (M N : ℕ) (cells : ℕ → β) (s : Hostile σ) : Prop where
  inside : ∀ c ∈ s.copies, c.Inside N
  beyond : ∀ i, N ≤ i → r.cells s.ring i = cells i
  reported : ∀ c ∈ r.calls s.ring, c.2 ≤ c.1.length
  proceeds : r.pc s.ring ≠ .idle → (hostileStep r M N s .cpu).isSome
  ends : ∀ as t, run (hostileStep r M N) s as = some t → as.all (fun a => !isCall a) →
    as.countP isCpu ≤ (r.pc s.ring).rank

/-! ## What an access does -/

/-- What the accesses of a routine do to its point, to the calls that have returned and to the cells. -/
structure Routine.Sound (r : Routine β σ) (N : ℕ) : Prop where
  call : ∀ {s t Data}, r.call s Data = some t → (∃ own, r.pc t = .readPeer Data own) ∧
    r.calls t = r.calls s ∧ r.cells t = r.cells s
  idle : ∀ {s}, r.pc s = .idle → r.cpu s = none
  readPeer : ∀ {s Data own}, r.pc s = .readPeer Data own → ∃ t peer, r.cpu s = some t ∧
    r.pc t = .loop Data own peer 0 Data.length ∧ r.calls t = r.calls s ∧ r.cells t = r.cells s
  leave : ∀ {s Data own peer Offset Length}, r.pc s = .loop Data own peer Offset Length →
    (r.pc s).copy N r.Available = none → ∃ t, r.cpu s = some t ∧ r.pc t = .idle ∧
      r.calls t = r.calls s ++ [(Data, Offset)] ∧ r.cells t = r.cells s
  copy : ∀ {s Data own peer Offset Length}, r.pc s = .loop Data own peer Offset Length →
    Offset + Length = Data.length → ∀ c, (r.pc s).copy N r.Available = some c →
    ∃ t Data' own', r.cpu s = some t ∧
      r.pc t = .loop Data' own' peer (Offset + c.CopyLength) (Length - c.CopyLength) ∧
      Data'.length = Data.length ∧ r.calls t = r.calls s ∧
      ∀ i, N ≤ i → r.cells t i = r.cells s i
  write : ∀ s cells prod cons, r.pc (r.write s cells prod cons) = r.pc s ∧
    r.calls (r.write s cells prod cons) = r.calls s ∧ r.cells (r.write s cells prod cons) = cells

section Copy

variable {Available : ℕ → ℕ → ℕ} {Data : List β} {own peer Offset Length : ℕ} {c : Copy}

theorem Pc.end_of_copy (h : (Pc.loop Data own peer Offset Length).copy N Available = none) :
    Length = 0 ∨ Available own peer = 0 := by
  by_contra hnot
  exact absurd ((if_neg hnot).symm.trans h) (Option.some_ne_none _)

theorem Pc.of_copy (h : (Pc.loop Data own peer Offset Length).copy N Available = some c) :
    ¬ (Length = 0 ∨ Available own peer = 0) ∧
      c = ⟨own % N, Offset, min (min Length (Available own peer)) (N - own % N), Data.length⟩ := by
  by_cases hend : Length = 0 ∨ Available own peer = 0
  · exact absurd ((if_pos hend).symm.trans h) (Option.some_ne_none c).symm
  · exact ⟨hend, (Option.some.inj ((if_neg hend).symm.trans h)).symm⟩

/-- The three minima: at most what is left, at most what there is, and to the end of the ring. -/
theorem Pc.copy_bounds (hN : 0 < N)
    (h : (Pc.loop Data own peer Offset Length).copy N Available = some c) :
    c.Index + c.CopyLength ≤ N ∧ c.Offset = Offset ∧ c.Length = Data.length ∧
      0 < c.CopyLength ∧ c.CopyLength ≤ Length := by
  have hindex : own % N < N := Nat.mod_lt _ hN
  obtain ⟨hend, rfl⟩ := Pc.of_copy h
  refine ⟨?_, rfl, rfl, ?_, ?_⟩
  · dsimp only
    omega
  · dsimp only
    omega
  · dsimp only
    omega

/-- What `RtlCopyMemory` stores into the ring is what the copy says. -/
theorem copyTo_of_copy {s : Send β} (hpc : s.pc = .loop Data own peer Offset Length)
    (h : (Pc.loop Data own peer Offset Length).copy N (Ring.room M N) = some c) :
    copyTo M N s .cpu = some { s with
      cells := Ring.store s.cells c.Index ((Data.drop c.Offset).take c.CopyLength)
      pc := .loop Data ((own + c.CopyLength) % M) peer (Offset + c.CopyLength) (Length - c.CopyLength) } := by
  obtain ⟨hend, rfl⟩ := Pc.of_copy h
  simp only [copyTo, hpc, if_neg hend]

/-- What `RtlCopyMemory` takes from the ring is what the copy says. -/
theorem copyFrom_of_copy {s : Receive β} (hpc : s.pc = .loop Data own peer Offset Length)
    (h : (Pc.loop Data own peer Offset Length).copy N (fun own peer => Ring.available M peer own) = some c) :
    copyFrom M N s .cpu = some { s with
      pc := .loop
        (splice Data c.Offset ((List.range c.CopyLength).map fun k => s.cells (c.Index + k)))
        ((own + c.CopyLength) % M) peer (Offset + c.CopyLength) (Length - c.CopyLength) } := by
  obtain ⟨hend, rfl⟩ := Pc.of_copy h
  simp only [copyFrom, hpc, if_neg hend]

end Copy

/-- A block at `Index`, of which no cell lies beyond the ring, is stored in the ring. -/
theorem store_beyond {cells : ℕ → β} {Index i : ℕ} {block : List β} (h : Index + block.length ≤ N)
    (hi : N ≤ i) : Ring.store cells Index block i = cells i := by
  unfold Ring.store
  rw [List.getElem?_eq_none (by omega), Option.getD_none, ite_self]

/-- A block that ends inside the buffer leaves its length. -/
theorem length_splice {Data block : List β} {Offset : ℕ} (h : Offset + block.length ≤ Data.length) :
    (splice Data Offset block).length = Data.length := by
  unfold splice
  simp only [List.length_append, List.length_take, List.length_drop]
  omega

theorem sound_sending (hN : 0 < N) : (sending (copyTo M N : Send β → _) M N).Sound N where
  call := by
    intro s t Data h
    simp only [sending, copyTo] at h
    split at h
    · split_ifs at h
      obtain rfl := Option.some.inj h
      exact ⟨⟨_, rfl⟩, rfl, rfl⟩
    · cases h
  idle := by
    intro s hpc
    change s.pc = _ at hpc
    simp only [sending, copyTo, hpc]
  readPeer := by
    intro s Data own hpc
    change s.pc = _ at hpc
    simp only [sending, copyTo, hpc]
    exact ⟨_, _, rfl, rfl, rfl, rfl⟩
  leave := by
    intro s Data own peer Offset Length hpc hcopy
    change s.pc = _ at hpc
    simp only [sending, hpc] at hcopy
    have hend := Pc.end_of_copy hcopy
    simp only [sending, copyTo, hpc, if_pos hend]
    exact ⟨_, rfl, rfl, rfl, rfl⟩
  copy := by
    intro s Data own peer Offset Length hpc hlength c hcopy
    change s.pc = _ at hpc
    simp only [sending, hpc] at hcopy
    obtain ⟨hin, -, -, -, -⟩ := Pc.copy_bounds hN hcopy
    refine ⟨_, _, _, copyTo_of_copy hpc hcopy, rfl, rfl, rfl, fun i hi => store_beyond ?_ hi⟩
    rw [List.length_take]
    omega
  write _ _ _ _ := ⟨rfl, rfl, rfl⟩

theorem sound_receiving (hN : 0 < N) : (receiving (copyFrom M N : Receive β → _) M).Sound N where
  call := by
    intro s t Data h
    simp only [receiving, copyFrom] at h
    split at h
    · split_ifs at h
      obtain rfl := Option.some.inj h
      exact ⟨⟨_, rfl⟩, rfl, rfl⟩
    · cases h
  idle := by
    intro s hpc
    change s.pc = _ at hpc
    simp only [receiving, copyFrom, hpc]
  readPeer := by
    intro s Data own hpc
    change s.pc = _ at hpc
    simp only [receiving, copyFrom, hpc]
    exact ⟨_, _, rfl, rfl, rfl, rfl⟩
  leave := by
    intro s Data own peer Offset Length hpc hcopy
    change s.pc = _ at hpc
    simp only [receiving, hpc] at hcopy
    have hend := Pc.end_of_copy hcopy
    simp only [receiving, copyFrom, hpc, if_pos hend]
    exact ⟨_, rfl, rfl, rfl, rfl⟩
  copy := by
    intro s Data own peer Offset Length hpc hlength c hcopy
    change s.pc = _ at hpc
    simp only [receiving, hpc] at hcopy
    obtain ⟨-, hoffset, -, -, hle⟩ := Pc.copy_bounds hN hcopy
    refine ⟨_, _, _, copyFrom_of_copy hpc hcopy, rfl, length_splice ?_, rfl, fun i _ => rfl⟩
    rw [List.length_map, List.length_range]
    omega
  write _ _ _ _ := ⟨rfl, rfl, rfl⟩

/-! ## Runs -/

/-- The invariant of all runs. -/
structure Hostile.Inv (r : Routine β σ) (N : ℕ) (cells : ℕ → β) (s : Hostile σ) : Prop where
  inside : ∀ c ∈ s.copies, c.Inside N
  beyond : ∀ i, N ≤ i → r.cells s.ring i = cells i
  reported : ∀ c ∈ r.calls s.ring, c.2 ≤ c.1.length
  good : (r.pc s.ring).Good

section Run

variable {r : Routine β σ} {cells : ℕ → β} {s t : Hostile σ}

/-- An access of the routine: it keeps the invariant, and the call has fewer to make. -/
theorem Hostile.Inv.cpu (hr : r.Sound N) (hN : 0 < N) (h : s.Inv r N cells) (hpc : r.pc s.ring ≠ .idle) :
    ∃ t, hostileStep r M N s .cpu = some t ∧ t.Inv r N cells ∧
      (r.pc t.ring).rank < (r.pc s.ring).rank := by
  have hgood := h.good
  unfold hostileStep
  cases hat : r.pc s.ring with
  | idle => exact absurd hat hpc
  | readPeer Data own =>
    obtain ⟨t, peer, hcpu, hpct, hcalls, hcells⟩ := hr.readPeer hat
    rw [hcpu]
    refine ⟨_, rfl, ⟨?_, ?_, ?_, ?_⟩, ?_⟩
    · simpa [Pc.copy] using h.inside
    · exact fun i hi => (congrFun hcells i).trans (h.beyond i hi)
    · exact hcalls ▸ h.reported
    · show (r.pc t).Good
      rw [hpct]
      exact Nat.zero_add _
    · show (r.pc t).rank < _
      rw [hpct]
      exact Nat.lt_succ_self _
  | loop Data own peer Offset Length =>
    rw [hat] at hgood
    have hlength : Offset + Length = Data.length := hgood
    cases hcopy : (r.pc s.ring).copy N r.Available with
    | none =>
      obtain ⟨t, hcpu, hpct, hcalls, hcells⟩ := hr.leave hat hcopy
      rw [← hat, hcopy, hcpu]
      refine ⟨_, rfl, ⟨?_, ?_, ?_, ?_⟩, ?_⟩
      · simpa using h.inside
      · exact fun i hi => (congrFun hcells i).trans (h.beyond i hi)
      · show ∀ c ∈ r.calls t, c.2 ≤ c.1.length
        rw [hcalls]
        intro c hc
        obtain hc | hc := List.mem_append.mp hc
        · exact h.reported c hc
        · rw [List.mem_singleton.mp hc]
          show Offset ≤ Data.length
          omega
      · show (r.pc t).Good
        rw [hpct]
        trivial
      · show (r.pc t).rank < _
        rw [hpct, hat]
        exact Nat.zero_lt_succ _
    | some c =>
      obtain ⟨t, Data', own', hcpu, hpct, hdata, hcalls, hcells⟩ := hr.copy hat hlength c hcopy
      have hbounds := hcopy
      rw [hat] at hbounds
      obtain ⟨hin, hoffset, hbuffer, hpos, hle⟩ := Pc.copy_bounds hN hbounds
      rw [← hat, hcopy, hcpu]
      refine ⟨_, rfl, ⟨?_, ?_, ?_, ?_⟩, ?_⟩
      · intro c' hc'
        obtain hc' | hc' := List.mem_append.mp hc'
        · exact h.inside c' hc'
        · obtain rfl := List.mem_singleton.mp hc'
          exact ⟨hin, by omega⟩
      · exact fun i hi => (hcells i hi).trans (h.beyond i hi)
      · exact hcalls ▸ h.reported
      · show (r.pc t).Good
        rw [hpct]
        show Offset + c.CopyLength + (Length - c.CopyLength) = Data'.length
        omega
      · show (r.pc t).rank < _
        rw [hpct, hat]
        show Length - c.CopyLength + 1 < Length + 1
        omega

theorem Hostile.Inv.step (hr : r.Sound N) (hN : 0 < N) (h : s.Inv r N cells) {a : HostileAct β}
    (hs : hostileStep r M N s a = some t) : t.Inv r N cells ∧
      (isCall a = false → (r.pc t.ring).rank + [a].countP isCpu ≤ (r.pc s.ring).rank) := by
  cases a with
  | call Data =>
    obtain ⟨ring, hcall, rfl⟩ := Option.map_eq_some_iff.mp hs
    obtain ⟨⟨own, hpc⟩, hcalls, hcells⟩ := hr.call hcall
    refine ⟨⟨h.inside, ?_, ?_, ?_⟩, fun hnot => absurd hnot (by simp [isCall])⟩
    · exact fun i hi => (congrFun hcells i).trans (h.beyond i hi)
    · exact hcalls ▸ h.reported
    · show (r.pc ring).Good
      rw [hpc]
      trivial
  | cpu =>
    have hpc : r.pc s.ring ≠ .idle := by
      intro hidle
      simp only [hostileStep, hr.idle hidle, Option.map_none] at hs
      cases hs
    obtain ⟨t', hcpu, hinv, hrank⟩ := h.cpu hr hN hpc
    obtain rfl := Option.some.inj (hcpu.symm.trans hs)
    exact ⟨hinv, fun _ => hrank⟩
  | write page prod cons =>
    simp only [hostileStep] at hs
    split_ifs at hs
    obtain rfl := Option.some.inj hs
    obtain ⟨hpc, hcalls, hcells⟩ :=
      hr.write s.ring (fun i => if i < N then page i else r.cells s.ring i) prod cons
    refine ⟨⟨h.inside, fun i hi => ?_, hcalls ▸ h.reported, hpc ▸ h.good⟩, fun _ => ?_⟩
    · show r.cells (r.write _ _ _ _) i = _
      rw [hcells]
      exact (if_neg (by omega)).trans (h.beyond i hi)
    · exact (congrArg Pc.rank hpc).le

/-- Without a new call, a run makes no more accesses than the call under way has yet to make. -/
theorem Hostile.Inv.ends (hr : r.Sound N) (hN : 0 < N) (as : List (HostileAct β)) :
    ∀ {s t : Hostile σ}, s.Inv r N cells → run (hostileStep r M N) s as = some t →
      as.all (fun a => !isCall a) → as.countP isCpu ≤ (r.pc s.ring).rank := by
  induction as with
  | nil => exact fun _ _ _ => Nat.zero_le _
  | cons a as ih =>
    intro s t h hrun hall
    obtain ⟨u, hu, hrun⟩ := Option.bind_eq_some_iff.mp hrun
    rw [List.all_cons, Bool.and_eq_true, Bool.not_eq_true'] at hall
    obtain ⟨hinv, hrank⟩ := h.step hr hN hu
    have hrest := ih hinv hrun hall.2
    have hfirst := hrank hall.1
    calc (a :: as).countP isCpu = [a].countP isCpu + as.countP isCpu :=
          @List.countP_append _ isCpu [a] as
      _ ≤ [a].countP isCpu + (r.pc u.ring).rank := Nat.add_le_add_left hrest _
      _ ≤ (r.pc s.ring).rank := by omega

/-- **Copies beside a hostile peer are contained**, for any routine. -/
theorem contained_of_reaches (hr : r.Sound N) (hN : 0 < N) {ring : σ} (hpc : r.pc ring = .idle)
    (hcalls : r.calls ring = []) (h : Reaches (hostileStep r M N) Free ⟨ring, []⟩ s) :
    Contained r M N (r.cells ring) s := by
  have hstart : (⟨ring, []⟩ : Hostile σ).Inv r N (r.cells ring) := by
    refine ⟨fun c hc => absurd hc List.not_mem_nil, fun _ _ => rfl, ?_, ?_⟩
    · show ∀ c ∈ r.calls ring, _
      rw [hcalls]
      exact fun c hc => absurd hc List.not_mem_nil
    · show (r.pc ring).Good
      rw [hpc]
      trivial
  have hinv : s.Inv r N (r.cells ring) := h.invariant hstart fun s a t hs _ hstep => (hs.step hr hN hstep).1
  refine ⟨hinv.inside, hinv.beyond, hinv.reported, fun hpc => ?_,
    fun as t hrun hall => hinv.ends hr hN as hrun hall⟩
  obtain ⟨t, ht, -⟩ := hinv.cpu (M := M) hr hN hpc
  rw [ht]
  rfl

end Run

/-! ## The four routines -/

/-- A run beside a hostile peer, from any indices. -/
abbrev Run (r : Routine UInt8 σ) (N : ℕ) (start : σ) : Hostile σ → Prop :=
  Reaches (hostileStep r 4294967296 N) Free ⟨start, []⟩

/-- **The copies of the four routines stay in bounds beside any peer**, and end. -/
theorem copies_contained (cells : ℕ → UInt8) (prod cons : ℕ) :
    (∀ s, Run (sending storeCopyToRing 4294967296 1024) 1024 (Send.start cells prod cons) s →
      Contained (sending storeCopyToRing 4294967296 1024) 4294967296 1024 cells s) ∧
    (∀ s, Run (receiving storeCopyFromRing 4294967296) 1024
        (Receive.start 4294967296 1024 cells prod cons) s →
      Contained (receiving storeCopyFromRing 4294967296) 4294967296 1024 cells s) ∧
    (∀ s, Run (sending consoleCopyToOut 4294967296 2048) 2048 (Send.start cells prod cons) s →
      Contained (sending consoleCopyToOut 4294967296 2048) 4294967296 2048 cells s) ∧
    ∀ s, Run (receiving consoleCopyFromIn 4294967296) 1024
        (Receive.start 4294967296 1024 cells prod cons) s →
      Contained (receiving consoleCopyFromIn 4294967296) 4294967296 1024 cells s := by
  refine ⟨fun s h => ?_, fun s h => ?_, fun s h => ?_, fun s h => ?_⟩
  · exact contained_of_reaches (sound_sending (by decide)) (by decide) rfl rfl h
  · exact contained_of_reaches (sound_receiving (by decide)) (by decide) rfl rfl h
  · exact contained_of_reaches (sound_sending (by decide)) (by decide) rfl rfl h
  · exact contained_of_reaches (sound_receiving (by decide)) (by decide) rfl rfl h

/-- Two calls with 5 bytes each. The peer's index is 3 million ahead of the ring when the first call looks
at it, and behind when the second does; the own index is changed under both. -/
def hostileCalls (prod cons : ℕ) : List (HostileAct UInt8) :=
  [.write (fun _ => 255) prod cons, .call [1, 2, 3, 4, 5], .cpu, .write (fun _ => 255) 7 0, .cpu, .cpu,
    .cpu, .call [1, 2, 3, 4, 5], .write (fun _ => 0) 4294967295 4294967295, .cpu, .cpu, .cpu]

theorem copies_contained_hostileCalls :
    (∃ s, run (hostileStep (sending storeCopyToRing 4294967296 1024) 4294967296 1024)
        ⟨Send.start (fun _ => 0) 0 0, []⟩ (hostileCalls 1021 3000000) = some s ∧
      s.copies = [⟨1021, 0, 3, 5⟩, ⟨0, 3, 2, 5⟩, ⟨2, 0, 5, 5⟩] ∧
      Contained (sending storeCopyToRing 4294967296 1024) 4294967296 1024 (fun _ => 0) s) ∧
    ∃ s, run (hostileStep (receiving consoleCopyFromIn 4294967296) 4294967296 1024)
        ⟨Receive.start 4294967296 1024 (fun _ => 0) 0 0, []⟩ (hostileCalls 3000000 1021) = some s ∧
      s.copies = [⟨1021, 0, 3, 5⟩, ⟨0, 3, 2, 5⟩, ⟨2, 0, 5, 5⟩] ∧
      Contained (receiving consoleCopyFromIn 4294967296) 4294967296 1024 (fun _ => 0) s := by
  obtain ⟨hto, -, -, hfrom⟩ := copies_contained (fun _ => 0) 0 0
  constructor
  · obtain ⟨s, hs, hcopies⟩ := (Option.any_eq_true (fun s : Hostile (Send UInt8) =>
        decide (s.copies = [⟨1021, 0, 3, 5⟩, ⟨0, 3, 2, 5⟩, ⟨2, 0, 5, 5⟩]))
      (run (hostileStep (sending storeCopyToRing 4294967296 1024) 4294967296 1024)
        ⟨Send.start (fun _ => 0) 0 0, []⟩ (hostileCalls 1021 3000000))).mp (by decide +kernel)
    exact ⟨s, hs, of_decide_eq_true hcopies, hto s (reaches_of_run hs)⟩
  · obtain ⟨s, hs, hcopies⟩ := (Option.any_eq_true (fun s : Hostile (Receive UInt8) =>
        decide (s.copies = [⟨1021, 0, 3, 5⟩, ⟨0, 3, 2, 5⟩, ⟨2, 0, 5, 5⟩]))
      (run (hostileStep (receiving consoleCopyFromIn 4294967296) 4294967296 1024)
        ⟨Receive.start 4294967296 1024 (fun _ => 0) 0 0, []⟩ (hostileCalls 3000000 1021))).mp
        (by decide +kernel)
    exact ⟨s, hs, of_decide_eq_true hcopies, hfrom s (reaches_of_run hs)⟩

end XenBus.Rings
