import XenBus.Rings.Model

/-!
# The shared rings lose nothing

Between two steps the bytes that one side has put, in order, are those that the other side has taken,
followed by the queue in the ring (`Send.Inv.flow`, `Receive.Inv.flow`). What carries the proof while a
call is under way is that its own index runs ahead of the shared one by `Offset`, over cells that belong
to it: the peer's index, which it has looked at once, can only have moved in its favour.

`rings_lossless`: this holds of all four routines, through every interleaving with the peer.
-/

namespace XenBus.Rings

open Transition

variable {β : Type*} {M N : ℕ}

/-! ## The guest puts bytes -/

/-- The loop of a call that puts bytes: `Offset` bytes lie in free cells behind `prod`. -/
structure Send.Filling (M N : ℕ) (s : Send β) (Data : List β) (own peer Offset Length : ℕ) : Prop where
  peer_lt : peer < M
  own_eq : own = (s.prod + Offset) % M
  length : Offset + Length = Data.length
  seen : Ring.available M s.prod s.cons ≤ Ring.available M s.prod peer
  fits : Ring.available M s.prod peer + Offset ≤ N
  copied : (List.range Offset).map (fun k => s.cells ((s.prod + k) % N)) = Data.take Offset

/-- What holds of a call at each of its points. -/
def Send.At (M N : ℕ) (s : Send β) : Prop :=
  match s.pc with
  | .idle => True
  | .readPeer _ own => own = s.prod
  | .loop Data own peer Offset Length => s.Filling M N Data own peer Offset Length

/-- **The invariant of a ring that the guest fills.** -/
structure Send.Inv (M N : ℕ) (before : List β) (s : Send β) : Prop where
  prod_lt : s.prod < M
  cons_lt : s.cons < M
  bounded : Ring.available M s.prod s.cons ≤ N
  ahead_le : s.ahead ≤ Ring.available M s.prod s.cons
  flow : ∃ consumed, s.sent before = consumed ++ Ring.contents M N s.cells s.prod s.cons ∧
    s.taken = consumed ++ (Ring.contents M N s.cells s.prod s.cons).take s.ahead
  reported : ∀ c ∈ s.calls, c.2 ≤ c.1.length
  pc : s.At M N

variable {before : List β} {s t : Send β}

theorem Send.sent_return (s : Send β) (before : List β) (c : List β × ℕ) {t : Send β}
    (ht : t.calls = s.calls ++ [c]) : t.sent before = s.sent before ++ moved c := by
  rw [Send.sent, ht, List.map_append, List.flatten_append, ← List.append_assoc]
  simp [Send.sent]

/-- The block that a call copies goes to the free cells behind what it has copied so far. -/
theorem Send.Inv.copy (hNM : N ∣ M) (hlt : N < M) (h : s.Inv M N before) {Data : List β}
    {own peer Offset Length n : ℕ} (hpc : s.pc = .loop Data own peer Offset Length)
    (hlen : n ≤ Length) (hroom : n ≤ Ring.room M N own peer) (hidx : n ≤ N - own % N) :
    Send.Inv M N before { s with
      cells := Ring.store s.cells (own % N) ((Data.drop Offset).take n)
      pc := .loop Data ((own + n) % M) peer (Offset + n) (Length - n) } := by
  have hat := h.pc
  rw [Send.At, hpc] at hat
  obtain ⟨hpeer, rfl, hlength, hseen, hfits, hcopied⟩ := hat
  have hM : 0 < M := by omega
  have hN : 0 < N := Nat.pos_of_dvd_of_pos hNM hM
  have hprod := h.prod_lt
  have hcons := h.cons_lt
  have hown : Ring.available M ((s.prod + Offset) % M) peer =
      Ring.available M s.prod peer + Offset := Ring.available_produce (by omega)
  rw [Ring.room_eq hlt (Nat.mod_lt _ hM) hpeer (by omega), hown] at hroom
  have hindex : (s.prod + Offset) % M % N = (s.prod + Offset) % N := Nat.mod_mod_of_dvd _ hNM
  have hblock : ((Data.drop Offset).take n).length = n := by
    rw [List.length_take, List.length_drop]
    omega
  have hcell : (s.prod + Offset) % N < N := Nat.mod_lt _ hN
  rw [hindex] at hidx ⊢
  -- the cells that the peer may read are not touched
  have hfrom : (s.prod + Offset) % N =
      (s.cons + (Ring.available M s.prod s.cons + Offset)) % N := Ring.producer_cell hNM hcons _
  have hkeep : Ring.contents M N
      (Ring.store s.cells ((s.prod + Offset) % N) ((Data.drop Offset).take n)) s.prod s.cons =
      Ring.contents M N s.cells s.prod s.cons := by
    apply Ring.contents_congr
    intro k hk
    rw [hfrom, Ring.store_cell s.cells (by omega) (by omega) (by omega), if_neg (by omega)]
  refine ⟨hprod, hcons, h.bounded, h.ahead_le, ?_, h.reported, ?_⟩
  · show ∃ consumed, s.sent before = consumed ++ Ring.contents M N _ s.prod s.cons ∧
      s.taken = consumed ++ (Ring.contents M N _ s.prod s.cons).take s.ahead
    rw [hkeep]
    exact h.flow
  · refine ⟨hpeer, ?_, ?_, hseen, ?_, ?_⟩
    · rw [Nat.mod_add_mod, Nat.add_assoc]
    · omega
    · show Ring.available M s.prod peer + (Offset + n) ≤ N
      omega
    · have hold : (List.range Offset).map (fun k => Ring.store s.cells ((s.prod + Offset) % N)
          ((Data.drop Offset).take n) ((s.prod + k) % N)) = Data.take Offset := by
        rw [← hcopied]
        apply List.map_congr_left
        intro k hk
        rw [List.mem_range] at hk
        rw [Ring.store_cell s.cells (by omega) (by omega) (by omega), if_neg (by omega)]
      have hnew : (List.range n).map (fun k => Ring.store s.cells ((s.prod + Offset) % N)
          ((Data.drop Offset).take n) ((s.prod + (Offset + k)) % N)) = (Data.drop Offset).take n := by
        apply List.ext_getElem
        · rw [List.length_map, List.length_range, hblock]
        · intro k hk hk'
          rw [List.length_map, List.length_range] at hk
          rw [List.getElem_map, List.getElem_range,
            Ring.store_cell s.cells (by omega) (by omega) (by omega), if_pos (by omega),
            Nat.add_sub_cancel_left, List.getElem?_eq_getElem hk', Option.getD_some]
      rw [List.range_add, List.map_append, List.map_map, List.take_add]
      exact congrArg₂ _ hold hnew

/-- A call that returns has moved `prod` over what it has copied. -/
theorem Send.Inv.publish (hNM : N ∣ M) (hlt : N < M) (h : s.Inv M N before) {Data : List β}
    {own peer Offset Length : ℕ} (hpc : s.pc = .loop Data own peer Offset Length) :
    Send.Inv M N before { s with
        prod := own
        pc := .idle
        calls := s.calls ++ [(Data, Offset)] } ∧
      Ring.contents M N s.cells own s.cons =
        Ring.contents M N s.cells s.prod s.cons ++ moved (Data, Offset) := by
  have hat := h.pc
  rw [Send.At, hpc] at hat
  obtain ⟨hpeer, rfl, hlength, hseen, hfits, hcopied⟩ := hat
  have hM : 0 < M := by omega
  have hahead := h.ahead_le
  have havail : Ring.available M ((s.prod + Offset) % M) s.cons =
      Ring.available M s.prod s.cons + Offset := Ring.available_produce (by omega)
  have hqueue : Ring.contents M N s.cells ((s.prod + Offset) % M) s.cons =
      Ring.contents M N s.cells s.prod s.cons ++ moved (Data, Offset) := by
    rw [Ring.contents_produce s.cells hNM h.cons_lt (by omega), hcopied]
    rfl
  refine ⟨⟨Nat.mod_lt _ hM, h.cons_lt, ?_, ?_, ?_, ?_, trivial⟩, hqueue⟩
  · show Ring.available M ((s.prod + Offset) % M) s.cons ≤ N
    omega
  · show s.ahead ≤ Ring.available M ((s.prod + Offset) % M) s.cons
    omega
  · obtain ⟨consumed, hsent, htaken⟩ := h.flow
    refine ⟨consumed, ?_, ?_⟩
    · rw [s.sent_return before (Data, Offset) rfl, hsent]
      show _ = consumed ++ Ring.contents M N s.cells ((s.prod + Offset) % M) s.cons
      rw [hqueue, List.append_assoc]
    · show s.taken = consumed ++ (Ring.contents M N s.cells ((s.prod + Offset) % M) s.cons).take s.ahead
      rw [hqueue, List.take_append_of_le_length (by rwa [Ring.length_contents])]
      exact htaken
  · intro c hc
    obtain hc | hc := List.mem_append.mp hc
    · exact h.reported c hc
    · obtain rfl := List.mem_singleton.mp hc
      show Offset ≤ Data.length
      omega

/-- A call that returns has moved all that the index it has seen leaves room for: as if it had been
done in one step when it read that index. -/
theorem Send.Inv.reports (hlt : N < M) (h : s.Inv M N before) {Data : List β}
    {own peer Offset Length : ℕ} (hpc : s.pc = .loop Data own peer Offset Length)
    (hdone : Length = 0 ∨ Ring.room M N own peer = 0) :
    Offset = min Data.length (N - Ring.available M s.prod peer) := by
  have hat := h.pc
  rw [Send.At, hpc] at hat
  obtain ⟨hpeer, rfl, hlength, -, hfits, -⟩ := hat
  have hown : Ring.available M ((s.prod + Offset) % M) peer =
      Ring.available M s.prod peer + Offset := Ring.available_produce (by omega)
  rw [Ring.room_eq hlt (Nat.mod_lt _ (by omega)) hpeer (by omega), hown] at hdone
  omega

/-- What the peer does to its own index does not concern a call. -/
theorem Send.At.of_peer (h : s.At M N) (hcells : t.cells = s.cells) (hprod : t.prod = s.prod)
    (hpc : t.pc = s.pc)
    (hle : Ring.available M t.prod t.cons ≤ Ring.available M s.prod s.cons) : t.At M N := by
  unfold Send.At at h ⊢
  rw [hpc]
  cases hs : s.pc with
  | idle => trivial
  | readPeer Data own =>
    rw [hs] at h
    exact h.trans hprod.symm
  | loop Data own peer Offset Length =>
    rw [hs] at h
    obtain ⟨hpeer, hown, hlength, hseen, hfits, hcopied⟩ := h
    refine ⟨hpeer, ?_, hlength, ?_, ?_, ?_⟩
    · rw [hprod]
      exact hown
    · rw [hprod] at hle ⊢
      exact hle.trans hseen
    · rw [hprod]
      exact hfits
    · rw [hprod, hcells]
      exact hcopied

/-- The peer takes the next byte of the queue. -/
theorem Send.Inv.peerRead (h : s.Inv M N before)
    (hlt : s.ahead < Ring.available M s.prod s.cons) :
    Send.Inv M N before { s with
      ahead := s.ahead + 1
      taken := s.taken ++ [s.cells ((s.cons + s.ahead) % N)] } := by
  refine ⟨h.prod_lt, h.cons_lt, h.bounded, hlt, ?_, h.reported, h.pc.of_peer rfl rfl rfl le_rfl⟩
  obtain ⟨consumed, hsent, htaken⟩ := h.flow
  refine ⟨consumed, hsent, ?_⟩
  show s.taken ++ _ = consumed ++ (Ring.contents M N s.cells s.prod s.cons).take (s.ahead + 1)
  rw [htaken, Ring.take_contents s.cells hlt, Ring.take_contents s.cells hlt.le, List.range_succ,
    List.map_append, List.append_assoc]
  rfl

/-- The peer moves `cons` over bytes that it has taken. -/
theorem Send.Inv.peerAdvance (hNM : N ∣ M) (h : s.Inv M N before) {n : ℕ} (hn : n ≤ s.ahead) :
    Send.Inv M N before { s with ahead := s.ahead - n, cons := (s.cons + n) % M } := by
  have hprod := h.prod_lt
  have hcons := h.cons_lt
  have hahead := h.ahead_le
  have hbounded := h.bounded
  have havail : Ring.available M s.prod ((s.cons + n) % M) = Ring.available M s.prod s.cons - n :=
    Ring.available_advance hprod hcons (by omega)
  refine ⟨hprod, Nat.mod_lt _ (by omega), ?_, ?_, ?_, h.reported, ?_⟩
  · show Ring.available M s.prod ((s.cons + n) % M) ≤ N
    omega
  · show s.ahead - n ≤ Ring.available M s.prod ((s.cons + n) % M)
    omega
  · obtain ⟨consumed, hsent, htaken⟩ := h.flow
    obtain ⟨r, hr⟩ := Nat.exists_eq_add_of_le hn
    have hqueue : Ring.contents M N s.cells s.prod ((s.cons + n) % M) = _ :=
      Ring.contents_advance s.cells hNM hprod hcons (by omega)
    refine ⟨consumed ++ (Ring.contents M N s.cells s.prod s.cons).take n, ?_, ?_⟩
    · show s.sent before = _ ++ Ring.contents M N s.cells s.prod ((s.cons + n) % M)
      rw [hqueue, List.append_assoc, List.take_append_drop]
      exact hsent
    · show s.taken = _ ++ (Ring.contents M N s.cells s.prod ((s.cons + n) % M)).take (s.ahead - n)
      rw [hqueue, List.append_assoc, hr, Nat.add_sub_cancel_left, ← List.take_add, ← hr]
      exact htaken
  · refine Send.At.of_peer h.pc rfl rfl rfl ?_
    show Ring.available M s.prod ((s.cons + n) % M) ≤ Ring.available M s.prod s.cons
    omega

/-- **A step keeps the invariant.** -/
theorem Send.Inv.step (hNM : N ∣ M) (hlt : N < M) (h : s.Inv M N before) {a : SendAct β}
    (hs : copyTo M N s a = some t) : t.Inv M N before := by
  cases a with
  | call Data =>
    cases hpc : s.pc with
    | idle =>
      simp only [copyTo, hpc] at hs
      split_ifs at hs
      obtain rfl := Option.some.inj hs
      exact { h with pc := rfl }
    | readPeer Data own => simp [copyTo, hpc] at hs
    | loop Data own peer Offset Length => simp [copyTo, hpc] at hs
  | cpu =>
    cases hpc : s.pc with
    | idle => simp [copyTo, hpc] at hs
    | readPeer Data own =>
      simp only [copyTo, hpc, Option.some.injEq] at hs
      subst hs
      have hat := h.pc
      rw [Send.At, hpc] at hat
      obtain rfl : own = s.prod := hat
      refine { h with pc := ⟨h.cons_lt, ?_, Nat.zero_add _, le_rfl, h.bounded, rfl⟩ }
      rw [Nat.add_zero, Nat.mod_eq_of_lt h.prod_lt]
    | loop Data own peer Offset Length =>
      simp only [copyTo, hpc] at hs
      split_ifs at hs with hdone
      · obtain rfl := Option.some.inj hs
        exact (h.publish hNM hlt hpc).1
      · obtain rfl := Option.some.inj hs
        exact h.copy hNM hlt hpc (by omega) (by omega) (by omega)
  | peerRead =>
    simp only [copyTo] at hs
    split_ifs at hs with hlt'
    obtain rfl := Option.some.inj hs
    exact h.peerRead hlt'
  | peerAdvance n =>
    simp only [copyTo] at hs
    split_ifs at hs with hn
    obtain rfl := Option.some.inj hs
    exact h.peerAdvance hNM hn

/-- Nothing has been lost on a ring that the guest fills. -/
structure Send.Lossless (M N : ℕ) (before : List β) (s : Send β) : Prop where
  prefix_sent : s.taken <+: s.sent before
  queue : s.sent before =
    s.taken.take (s.taken.length - s.ahead) ++ Ring.contents M N s.cells s.prod s.cons
  reported : ∀ c ∈ s.calls, c.2 ≤ c.1.length
  moves : ∀ t c, copyTo M N s .cpu = some t → t.calls = s.calls ++ [c] →
    Ring.contents M N t.cells t.prod t.cons =
        Ring.contents M N s.cells s.prod s.cons ++ moved c ∧
      Ring.available M t.prod t.cons = Ring.available M s.prod s.cons + c.2

/-- The step with which a call returns. -/
theorem Send.Inv.moves (hNM : N ∣ M) (hlt : N < M) (h : s.Inv M N before) {c : List β × ℕ}
    (hs : copyTo M N s .cpu = some t) (hc : t.calls = s.calls ++ [c]) :
    Ring.contents M N t.cells t.prod t.cons = Ring.contents M N s.cells s.prod s.cons ++ moved c ∧
      Ring.available M t.prod t.cons = Ring.available M s.prod s.cons + c.2 := by
  cases hpc : s.pc with
  | idle => simp [copyTo, hpc] at hs
  | readPeer Data own =>
    simp only [copyTo, hpc, Option.some.injEq] at hs
    subst hs
    exact absurd hc (by simp)
  | loop Data own peer Offset Length =>
    simp only [copyTo, hpc] at hs
    split_ifs at hs with hdone
    · obtain rfl := Option.some.inj hs
      obtain rfl : (Data, Offset) = c := by simpa using hc
      obtain ⟨hinv, hqueue⟩ := h.publish hNM hlt hpc
      have hle : Offset ≤ Data.length := hinv.reported (Data, Offset) (by simp)
      refine ⟨hqueue, ?_⟩
      have hlength := congrArg List.length hqueue
      rw [List.length_append, Ring.length_contents, Ring.length_contents, moved, List.length_take,
        min_eq_left hle] at hlength
      exact hlength
    · obtain rfl := Option.some.inj hs
      exact absurd hc (by simp)

theorem Send.Inv.lossless (hNM : N ∣ M) (hlt : N < M) (h : s.Inv M N before) :
    s.Lossless M N before := by
  obtain ⟨consumed, hsent, htaken⟩ := h.flow
  have hahead := h.ahead_le
  have hconsumed : s.taken.take (s.taken.length - s.ahead) = consumed := by
    rw [htaken, List.length_append, List.length_take, Ring.length_contents, min_eq_left hahead,
      Nat.add_sub_cancel, List.take_left]
  refine ⟨?_, ?_, h.reported, fun t c hs hc => h.moves hNM hlt hs hc⟩
  · rw [htaken, hsent]
    exact (List.prefix_append_right_inj consumed).mpr (List.take_prefix _ _)
  · rw [hconsumed]
    exact hsent

theorem Send.inv_start {cells : ℕ → β} {prod cons : ℕ} (hprod : prod < M) (hcons : cons < M)
    (hN : Ring.available M prod cons ≤ N) :
    (Send.start cells prod cons).Inv M N (Ring.contents M N cells prod cons) := by
  refine ⟨hprod, hcons, hN, Nat.zero_le _, ⟨[], ?_, rfl⟩, fun c hc => ?_, trivial⟩
  · exact List.append_nil _
  · exact absurd hc List.not_mem_nil

/-- A ring that the guest fills loses nothing. -/
theorem send_lossless (hNM : N ∣ M) (hlt : N < M) {cells : ℕ → β} {prod cons : ℕ} (hprod : prod < M)
    (hcons : cons < M) (hN : Ring.available M prod cons ≤ N)
    (h : Reaches (copyTo M N) Free (Send.start cells prod cons) s) :
    s.Lossless M N (Ring.contents M N cells prod cons) := by
  have hinv : s.Inv M N (Ring.contents M N cells prod cons) :=
    h.invariant (Send.inv_start hprod hcons hN) fun s a t hs _ hstep => hs.step hNM hlt hstep
  exact hinv.lossless hNM hlt

/-! ## The guest takes bytes -/

/-- The loop of a call that takes bytes: the first `Offset` bytes of the queue lie in the buffer. -/
structure Receive.Emptying (M N : ℕ) (s : Receive β) (Data : List β) (own peer Offset Length : ℕ) :
    Prop where
  peer_lt : peer < M
  own_eq : own = (s.cons + Offset) % M
  length : Offset + Length = Data.length
  seen : Ring.available M peer s.cons ≤ Ring.available M s.prod s.cons
  fits : Offset ≤ Ring.available M peer s.cons
  copied : Data.take Offset = (Ring.contents M N s.cells s.prod s.cons).take Offset

/-- What holds of a call at each of its points. -/
def Receive.At (M N : ℕ) (s : Receive β) : Prop :=
  match s.pc with
  | .idle => True
  | .readPeer _ own => own = s.cons
  | .loop Data own peer Offset Length => s.Emptying M N Data own peer Offset Length

/-- The cells that the peer has written beyond `prod`. -/
def Receive.unpublished (N : ℕ) (s : Receive β) : List β :=
  (List.range s.ahead).map fun k => s.cells ((s.prod + k) % N)

/-- **The invariant of a ring that the peer fills.** -/
structure Receive.Inv (M N : ℕ) (s : Receive β) : Prop where
  prod_lt : s.prod < M
  cons_lt : s.cons < M
  bounded : Ring.available M s.prod s.cons + s.ahead ≤ N
  flow : s.put = s.got ++ Ring.contents M N s.cells s.prod s.cons ++ s.unpublished N
  reported : ∀ c ∈ s.calls, c.2 ≤ c.1.length
  pc : s.At M N

variable {r r' : Receive β}

theorem Receive.got_return (r : Receive β) (c : List β × ℕ) {r' : Receive β}
    (hr : r'.calls = r.calls ++ [c]) : r'.got = r.got ++ moved c := by
  rw [Receive.got, hr, List.map_append, List.flatten_append]
  simp [Receive.got]

/-- The queue only grows under the peer's steps, which does not concern a call. -/
theorem Receive.At.of_peer (h : r.At M N) (hcons : r'.cons = r.cons) (hpc : r'.pc = r.pc)
    (more : List β) (hqueue : Ring.contents M N r'.cells r'.prod r'.cons =
      Ring.contents M N r.cells r.prod r.cons ++ more) : r'.At M N := by
  have hlength := congrArg List.length hqueue
  rw [List.length_append, Ring.length_contents, Ring.length_contents] at hlength
  unfold Receive.At at h ⊢
  rw [hpc]
  cases hr : r.pc with
  | idle => trivial
  | readPeer Data own =>
    rw [hr] at h
    exact h.trans hcons.symm
  | loop Data own peer Offset Length =>
    rw [hr] at h
    obtain ⟨hpeer, hown, hlen, hseen, hfits, hcopied⟩ := h
    refine ⟨hpeer, ?_, hlen, ?_, ?_, ?_⟩
    · rw [hcons]
      exact hown
    · rw [hcons] at hlength ⊢
      omega
    · rw [hcons]
      exact hfits
    · rw [hqueue, List.take_append_of_le_length (by rw [Ring.length_contents]; omega)]
      exact hcopied

/-- The block that a call copies is the next part of the queue. -/
theorem Receive.Inv.copy (hNM : N ∣ M) (h : r.Inv M N) {Data : List β}
    {own peer Offset Length n : ℕ} (hpc : r.pc = .loop Data own peer Offset Length)
    (hlen : n ≤ Length) (havail : n ≤ Ring.available M peer own) (hidx : n ≤ N - own % N) :
    Receive.Inv M N { r with
      pc := .loop (splice Data Offset ((List.range n).map fun k => r.cells (own % N + k)))
        ((own + n) % M) peer (Offset + n) (Length - n) } := by
  have hat := h.pc
  rw [Receive.At, hpc] at hat
  obtain ⟨hpeer, rfl, hlength, hseen, hfits, hcopied⟩ := hat
  rw [Ring.available_advance hpeer h.cons_lt hfits] at havail
  have hindex : (r.cons + Offset) % M % N = (r.cons + Offset) % N := Nat.mod_mod_of_dvd _ hNM
  rw [hindex] at hidx ⊢
  have htake : Data.length = (Data.take Offset).length + (Data.length - Offset) := by
    rw [List.length_take]
    omega
  have hblock : (List.range n).map (fun k => r.cells ((r.cons + Offset) % N + k)) =
      (List.range n).map fun k => r.cells ((r.cons + (Offset + k)) % N) := by
    apply List.map_congr_left
    intro k hk
    rw [List.mem_range] at hk
    have hwithin : ((r.cons + Offset) % N + k) % N = (r.cons + Offset) % N + k :=
      Nat.mod_eq_of_lt (by omega)
    rw [← hwithin, Nat.mod_add_mod, Nat.add_assoc]
  refine { h with pc := ⟨hpeer, ?_, ?_, hseen, ?_, ?_⟩ }
  · rw [Nat.mod_add_mod, Nat.add_assoc]
  · simp only [splice, List.length_append, List.length_map, List.length_range, List.length_drop]
    omega
  · show Offset + n ≤ Ring.available M peer r.cons
    omega
  · show (splice Data Offset _).take (Offset + n) =
      (Ring.contents M N r.cells r.prod r.cons).take (Offset + n)
    have hfront : (Data.take Offset ++ (List.range n).map fun k =>
        r.cells ((r.cons + Offset) % N + k)).length = Offset + n := by
      rw [List.length_append, List.length_take, List.length_map, List.length_range]
      omega
    rw [splice, List.take_left' hfront, hblock, hcopied, Ring.take_contents r.cells (by omega),
      Ring.take_contents r.cells (by omega), List.range_add, List.map_append, List.map_map]
    rfl

/-- A call that returns has moved `cons` over what it has copied. -/
theorem Receive.Inv.release (hNM : N ∣ M) (h : r.Inv M N) {Data : List β}
    {own peer Offset Length : ℕ} (hpc : r.pc = .loop Data own peer Offset Length) :
    Receive.Inv M N { r with
        cons := own
        pc := .idle
        calls := r.calls ++ [(Data, Offset)] } ∧
      Ring.contents M N r.cells r.prod r.cons =
        moved (Data, Offset) ++ Ring.contents M N r.cells r.prod own := by
  have hat := h.pc
  rw [Receive.At, hpc] at hat
  obtain ⟨hpeer, rfl, hlength, hseen, hfits, hcopied⟩ := hat
  have hprod := h.prod_lt
  have hcons := h.cons_lt
  have hbounded := h.bounded
  have hadvance : Ring.available M r.prod ((r.cons + Offset) % M) =
      Ring.available M r.prod r.cons - Offset :=
    Ring.available_advance hprod hcons (by omega)
  have hqueue : Ring.contents M N r.cells r.prod r.cons =
      moved (Data, Offset) ++ Ring.contents M N r.cells r.prod ((r.cons + Offset) % M) := by
    rw [Ring.contents_advance r.cells hNM hprod hcons (by omega), moved, hcopied,
      List.take_append_drop]
  refine ⟨⟨hprod, Nat.mod_lt _ (by omega), ?_, ?_, ?_, trivial⟩, hqueue⟩
  · show Ring.available M r.prod ((r.cons + Offset) % M) + r.ahead ≤ N
    omega
  · rw [r.got_return (Data, Offset) rfl]
    show r.put = _ ++ Ring.contents M N r.cells r.prod ((r.cons + Offset) % M) ++ r.unpublished N
    rw [h.flow, hqueue, List.append_assoc r.got (moved (Data, Offset))]
  · intro c hc
    obtain hc | hc := List.mem_append.mp hc
    · exact h.reported c hc
    · obtain rfl := List.mem_singleton.mp hc
      show Offset ≤ Data.length
      omega

/-- A call that returns has moved all that the index it has seen offers: as if it had been done in one
step when it read that index. -/
theorem Receive.Inv.reports (h : r.Inv M N) {Data : List β} {own peer Offset Length : ℕ}
    (hpc : r.pc = .loop Data own peer Offset Length)
    (hdone : Length = 0 ∨ Ring.available M peer own = 0) :
    Offset = min Data.length (Ring.available M peer r.cons) := by
  have hat := h.pc
  rw [Receive.At, hpc] at hat
  obtain ⟨hpeer, rfl, hlength, -, hfits, -⟩ := hat
  rw [Ring.available_advance hpeer h.cons_lt hfits] at hdone
  omega

/-- The peer writes the next free cell. -/
theorem Receive.Inv.peerWrite (hNM : N ∣ M) (h : r.Inv M N) (b : β)
    (hlt : Ring.available M r.prod r.cons + r.ahead < N) :
    Receive.Inv M N { r with
      cells := Ring.store r.cells ((r.prod + r.ahead) % N) [b]
      ahead := r.ahead + 1
      put := r.put ++ [b] } := by
  have hprod := h.prod_lt
  have hcons := h.cons_lt
  have hcell : (r.prod + r.ahead) % N < N := Nat.mod_lt _ (by omega)
  have hfrom : (r.prod + r.ahead) % N =
      (r.cons + (Ring.available M r.prod r.cons + r.ahead)) % N := Ring.producer_cell hNM hcons _
  have hone : [b].length = 1 := rfl
  have hkeep : Ring.contents M N (Ring.store r.cells ((r.prod + r.ahead) % N) [b]) r.prod r.cons =
      Ring.contents M N r.cells r.prod r.cons := by
    apply Ring.contents_congr
    intro k hk
    rw [hfrom, Ring.store_cell r.cells (by omega) (by omega) (by omega), if_neg (by omega)]
  have hahead : (List.range (r.ahead + 1)).map (fun k =>
      Ring.store r.cells ((r.prod + r.ahead) % N) [b] ((r.prod + k) % N)) =
      r.unpublished N ++ [b] := by
    rw [List.range_succ, List.map_append]
    refine congrArg₂ _ (List.map_congr_left fun k hk => ?_) ?_
    · rw [List.mem_range] at hk
      rw [Ring.store_cell r.cells (by omega) (by omega) (by omega), if_neg (by omega)]
    · rw [List.map_singleton, Ring.store_cell r.cells (by omega) (by omega) (by omega),
        if_pos le_rfl, Nat.sub_self]
      rfl
  refine ⟨hprod, hcons, ?_, ?_, h.reported, ?_⟩
  · show Ring.available M r.prod r.cons + (r.ahead + 1) ≤ N
    omega
  · show r.put ++ [b] = r.got ++ Ring.contents M N _ r.prod r.cons ++ (List.range (r.ahead + 1)).map _
    rw [hkeep, hahead, h.flow, List.append_assoc]
  · exact Receive.At.of_peer h.pc rfl rfl [] (hkeep.trans (List.append_nil _).symm)

/-- The peer moves `prod` over bytes that it has written. -/
theorem Receive.Inv.peerAdvance (hNM : N ∣ M) (hlt : N < M) (h : r.Inv M N) {n : ℕ}
    (hn : n ≤ r.ahead) :
    Receive.Inv M N { r with ahead := r.ahead - n, prod := (r.prod + n) % M } := by
  have hprod := h.prod_lt
  have hcons := h.cons_lt
  have hbounded := h.bounded
  have havail : Ring.available M ((r.prod + n) % M) r.cons = Ring.available M r.prod r.cons + n :=
    Ring.available_produce (by omega)
  have hqueue : Ring.contents M N r.cells ((r.prod + n) % M) r.cons = _ :=
    Ring.contents_produce r.cells hNM hcons (by omega)
  have hcell : ∀ k, ((r.prod + n) % M + k) % N = (r.prod + (n + k)) % N := by
    intro k
    rw [Nat.add_mod, Nat.mod_mod_of_dvd _ hNM, ← Nat.add_mod, Nat.add_assoc]
  obtain ⟨m, hm⟩ := Nat.exists_eq_add_of_le hn
  refine ⟨Nat.mod_lt _ (by omega), hcons, ?_, ?_, h.reported, ?_⟩
  · show Ring.available M ((r.prod + n) % M) r.cons + (r.ahead - n) ≤ N
    omega
  · show r.put = r.got ++ Ring.contents M N r.cells ((r.prod + n) % M) r.cons ++
      (List.range (r.ahead - n)).map fun k => r.cells (((r.prod + n) % M + k) % N)
    have hflow := h.flow
    rw [Receive.unpublished, hm, List.range_add, List.map_append, List.map_map] at hflow
    rw [hqueue, hm, Nat.add_sub_cancel_left, hflow]
    simp only [hcell, List.append_assoc, Function.comp_def]
  · exact Receive.At.of_peer h.pc rfl rfl _ hqueue

/-- **A step keeps the invariant.** -/
theorem Receive.Inv.step (hNM : N ∣ M) (hlt : N < M) (h : r.Inv M N) {a : ReceiveAct β}
    (hr : copyFrom M N r a = some r') : r'.Inv M N := by
  cases a with
  | call Data =>
    cases hpc : r.pc with
    | idle =>
      simp only [copyFrom, hpc] at hr
      split_ifs at hr
      obtain rfl := Option.some.inj hr
      exact { h with pc := rfl }
    | readPeer Data own => simp [copyFrom, hpc] at hr
    | loop Data own peer Offset Length => simp [copyFrom, hpc] at hr
  | cpu =>
    cases hpc : r.pc with
    | idle => simp [copyFrom, hpc] at hr
    | readPeer Data own =>
      simp only [copyFrom, hpc, Option.some.injEq] at hr
      subst hr
      have hat := h.pc
      rw [Receive.At, hpc] at hat
      obtain rfl : own = r.cons := hat
      refine { h with pc := ⟨h.prod_lt, ?_, Nat.zero_add _, le_rfl, Nat.zero_le _, rfl⟩ }
      rw [Nat.add_zero, Nat.mod_eq_of_lt h.cons_lt]
    | loop Data own peer Offset Length =>
      simp only [copyFrom, hpc] at hr
      split_ifs at hr with hdone
      · obtain rfl := Option.some.inj hr
        exact (h.release hNM hpc).1
      · obtain rfl := Option.some.inj hr
        exact h.copy hNM hpc (by omega) (by omega) (by omega)
  | peerWrite b =>
    simp only [copyFrom] at hr
    split_ifs at hr with hfree
    obtain rfl := Option.some.inj hr
    exact h.peerWrite hNM b hfree
  | peerAdvance n =>
    simp only [copyFrom] at hr
    split_ifs at hr with hn
    obtain rfl := Option.some.inj hr
    exact h.peerAdvance hNM hlt hn

/-- Nothing has been lost on a ring that the peer fills. -/
structure Receive.Lossless (M N : ℕ) (r : Receive β) : Prop where
  prefix_put : r.got <+: r.put
  queue : r.put = r.got ++ Ring.contents M N r.cells r.prod r.cons ++ r.unpublished N
  reported : ∀ c ∈ r.calls, c.2 ≤ c.1.length
  moves : ∀ r' c, copyFrom M N r .cpu = some r' → r'.calls = r.calls ++ [c] →
    Ring.contents M N r.cells r.prod r.cons =
        moved c ++ Ring.contents M N r'.cells r'.prod r'.cons ∧
      Ring.available M r.prod r.cons = c.2 + Ring.available M r'.prod r'.cons

/-- The step with which a call returns. -/
theorem Receive.Inv.moves (hNM : N ∣ M) (h : r.Inv M N) {c : List β × ℕ}
    (hr : copyFrom M N r .cpu = some r') (hc : r'.calls = r.calls ++ [c]) :
    Ring.contents M N r.cells r.prod r.cons =
        moved c ++ Ring.contents M N r'.cells r'.prod r'.cons ∧
      Ring.available M r.prod r.cons = c.2 + Ring.available M r'.prod r'.cons := by
  cases hpc : r.pc with
  | idle => simp [copyFrom, hpc] at hr
  | readPeer Data own =>
    simp only [copyFrom, hpc, Option.some.injEq] at hr
    subst hr
    exact absurd hc (by simp)
  | loop Data own peer Offset Length =>
    simp only [copyFrom, hpc] at hr
    split_ifs at hr with hdone
    · obtain rfl := Option.some.inj hr
      obtain rfl : (Data, Offset) = c := by simpa using hc
      obtain ⟨hinv, hqueue⟩ := h.release hNM hpc
      have hle : Offset ≤ Data.length := hinv.reported (Data, Offset) (by simp)
      refine ⟨hqueue, ?_⟩
      have hlength := congrArg List.length hqueue
      rw [List.length_append, Ring.length_contents, Ring.length_contents, moved, List.length_take,
        min_eq_left hle] at hlength
      exact hlength
    · obtain rfl := Option.some.inj hr
      exact absurd hc (by simp)

theorem Receive.Inv.lossless (hNM : N ∣ M) (h : r.Inv M N) : r.Lossless M N := by
  refine ⟨?_, h.flow, h.reported, fun r' c hr hc => h.moves hNM hr hc⟩
  rw [h.flow, List.append_assoc]
  exact List.prefix_append _ _

/-- A ring that the peer fills loses nothing. -/
theorem receive_lossless (hNM : N ∣ M) (hlt : N < M) {cells : ℕ → β} {prod cons : ℕ}
    (hprod : prod < M) (hcons : cons < M) (hN : Ring.available M prod cons ≤ N)
    (h : Reaches (copyFrom M N) Free (Receive.start M N cells prod cons) r) : r.Lossless M N := by
  have hstart : (Receive.start M N cells prod cons).Inv M N := by
    refine ⟨hprod, hcons, hN, ?_, fun c hc => absurd hc List.not_mem_nil, trivial⟩
    exact (List.append_nil _).symm
  have hinv : r.Inv M N := h.invariant hstart fun r a r' hr _ hstep => hr.step hNM hlt hstep
  exact hinv.lossless hNM

/-! ## Main results -/

/-- **The four shared rings are lossless bounded queues.** -/
theorem rings_lossless {cells : ℕ → UInt8} {prod cons : ℕ} (hprod : prod < 4294967296)
    (hcons : cons < 4294967296) :
    (Ring.available 4294967296 prod cons ≤ 1024 → ∀ s,
        Reaches storeCopyToRing Free (Send.start cells prod cons) s →
        s.Lossless 4294967296 1024 (Ring.contents 4294967296 1024 cells prod cons)) ∧
      (Ring.available 4294967296 prod cons ≤ 2048 → ∀ s,
        Reaches consoleCopyToOut Free (Send.start cells prod cons) s →
        s.Lossless 4294967296 2048 (Ring.contents 4294967296 2048 cells prod cons)) ∧
      (Ring.available 4294967296 prod cons ≤ 1024 → ∀ r,
        Reaches storeCopyFromRing Free (Receive.start 4294967296 1024 cells prod cons) r →
        r.Lossless 4294967296 1024) ∧
      (Ring.available 4294967296 prod cons ≤ 1024 → ∀ r,
        Reaches consoleCopyFromIn Free (Receive.start 4294967296 1024 cells prod cons) r →
        r.Lossless 4294967296 1024) := by
  have hstore : 1024 ∣ 4294967296 := by decide
  have hout : 2048 ∣ 4294967296 := by decide
  refine ⟨fun hN s h => ?_, fun hN s h => ?_, fun hN r h => ?_, fun hN r h => ?_⟩
  · exact send_lossless hstore (by decide) hprod hcons hN h
  · exact send_lossless hout (by decide) hprod hcons hN h
  · exact receive_lossless hstore (by decide) hprod hcons hN h
  · exact receive_lossless hstore (by decide) hprod hcons hN h

/-- Six bytes before both indices wrap and the ring ends, 10 bytes are put while the peer reads. -/
def sendAcrossWrap : List (SendAct UInt8) :=
  [.call [1, 2, 3, 4, 5, 6, 7, 8, 9, 10], .cpu, .cpu, .cpu, .cpu, .peerRead, .peerRead,
    .peerAdvance 1]

/-- The peer puts 10 bytes there, of which it has published 8 when the guest takes up to 9. -/
def receiveAcrossWrap : List (ReceiveAct UInt8) :=
  [.peerWrite 1, .peerWrite 2, .peerWrite 3, .peerWrite 4, .peerWrite 5, .peerWrite 6, .peerWrite 7,
    .peerWrite 8, .call (List.replicate 9 0), .peerAdvance 8, .cpu, .peerWrite 9, .cpu, .peerWrite 10,
    .cpu, .cpu]

theorem rings_lossless_across_wrap :
    (∃ s, run storeCopyToRing (Send.start (fun _ => 0) 4294967290 4294967290) sendAcrossWrap = some s ∧
      s.taken = [1, 2] ∧ s.prod = 4 ∧
      s.Lossless 4294967296 1024
        (Ring.contents 4294967296 1024 (fun _ => 0) 4294967290 4294967290)) ∧
    ∃ r, run storeCopyFromRing (Receive.start 4294967296 1024 (fun _ => 0) 4294967290 4294967290)
        receiveAcrossWrap = some r ∧
      r.got = [1, 2, 3, 4, 5, 6, 7, 8] ∧ r.Lossless 4294967296 1024 := by
  have hmain := @rings_lossless (fun _ => 0) 4294967290 4294967290 (by decide) (by decide)
  obtain ⟨hsend, -, hreceive, -⟩ := hmain
  constructor
  · obtain ⟨s, hs, hend⟩ := (Option.any_eq_true (fun s : Send UInt8 =>
        decide (s.taken = [1, 2] ∧ s.prod = 4))
      (run storeCopyToRing (Send.start (fun _ => 0) 4294967290 4294967290) sendAcrossWrap)).mp
      (by decide +kernel)
    obtain ⟨htaken, hprod⟩ := of_decide_eq_true hend
    exact ⟨s, hs, htaken, hprod, hsend (by decide) s (reaches_of_run hs)⟩
  · obtain ⟨r, hr, hend⟩ := (Option.any_eq_true (fun r : Receive UInt8 =>
        decide (r.got = [1, 2, 3, 4, 5, 6, 7, 8]))
      (run storeCopyFromRing (Receive.start 4294967296 1024 (fun _ => 0) 4294967290 4294967290)
        receiveAcrossWrap)).mp (by decide +kernel)
    exact ⟨r, hr, of_decide_eq_true hend, hreceive (by decide) r (reaches_of_run hr)⟩

end XenBus.Rings
