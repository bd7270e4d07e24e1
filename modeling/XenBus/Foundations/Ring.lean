import Mathlib.Data.List.Basic
import Mathlib.Data.Nat.ModEq
import Mathlib.Data.List.Range
import Mathlib.Tactic.Linarith

/-!
# Copying out of a ring

A ring of `N` cells has a consumer and a producer index that run freely modulo `M`, where `N`
divides `M`; a cell is found at an index modulo `N`. `copyOut` copies in chunks that end at the last
cell of the ring, as a loop around `memcpy` does. Whatever the two indices are, the chunks together
are the cells from the consumer index on, in order (`copyOut_eq`).

`contents` is the queue that a ring holds: the cells from the consumer index up to the producer index.
Its rules say what moving an index and storing a block do to it. `copyIn` is the loop of the producer:
the chunks come at the end of the queue, in order, as far as there is room (`copyIn_eq`).
-/

namespace Ring

variable {β : Type*} (M N : ℕ)

/-- The number of cells from `cons` to `prod`, modulo `M`. -/
def available (prod cons : ℕ) : ℕ := (prod + (M - cons)) % M

/-- Copy at most `length` cells, from `cons` on, in chunks. -/
def copyOut (cells : ℕ → β) (prod : ℕ) : (fuel cons length : ℕ) → List β × ℕ
  | 0, cons, _ => ([], cons)
  | fuel + 1, cons, length =>
    if length = 0 then ([], cons)
    else if available M prod cons = 0 then ([], cons)
    else
      let index := cons % N
      let copyLength := min (min length (available M prod cons)) (N - index)
      let (rest, cons') :=
        copyOut cells prod fuel ((cons + copyLength) % M) (length - copyLength)
      ((List.range copyLength).map (fun k => cells (index + k)) ++ rest, cons')

variable {M N}

theorem available_of_le {prod cons : ℕ} (hp : prod < M) (h : cons ≤ prod) :
    available M prod cons = prod - cons := by
  have heq : prod + (M - cons) = prod - cons + M := by omega
  rw [available, heq, Nat.add_mod_right, Nat.mod_eq_of_lt (by omega)]

theorem available_of_lt {prod cons : ℕ} (hc : cons < M) (h : prod < cons) :
    available M prod cons = prod + M - cons := by
  have heq : prod + (M - cons) = prod + M - cons := by omega
  rw [available, heq, Nat.mod_eq_of_lt (by omega)]

/-- Cells that have been copied are no longer available. -/
theorem available_advance {prod cons n : ℕ} (hp : prod < M) (hc : cons < M)
    (hn : n ≤ available M prod cons) :
    available M prod ((cons + n) % M) = available M prod cons - n := by
  by_cases hle : cons ≤ prod
  · rw [available_of_le hp hle] at hn ⊢
    rw [Nat.mod_eq_of_lt (by omega), available_of_le hp (by omega)]
    omega
  · rw [available_of_lt hc (by omega)] at hn ⊢
    by_cases hwrap : cons + n < M
    · rw [Nat.mod_eq_of_lt hwrap, available_of_lt hwrap (by omega)]
      omega
    · -- the consumer index wraps on the way
      have hmod : (cons + n) % M = cons + n - M := by
        rw [Nat.mod_eq_sub_mod (by omega), Nat.mod_eq_of_lt (by omega)]
      rw [hmod, available_of_le hp (by omega)]
      omega

/-- **The chunks are the cells from `cons` on, in order.** -/
theorem copyOut_eq (cells : ℕ → β) {prod fuel cons length : ℕ} (hN : 0 < N) (hNM : N ∣ M)
    (hp : prod < M) (hc : cons < M) (hfuel : length ≤ fuel) :
    copyOut M N cells prod fuel cons length =
      ((List.range (min length (available M prod cons))).map fun k => cells ((cons + k) % N),
        (cons + min length (available M prod cons)) % M) := by
  have hM : 0 < M := by omega
  induction fuel generalizing cons length with
  | zero =>
    obtain rfl : length = 0 := by omega
    simp [copyOut, Nat.mod_eq_of_lt hc]
  | succ fuel ih =>
    by_cases hl : length = 0
    · simp [copyOut, hl, Nat.mod_eq_of_lt hc]
    · by_cases ha : available M prod cons = 0
      · simp [copyOut, ha, Nat.mod_eq_of_lt hc]
      · have hidx : cons % N < N := Nat.mod_lt _ hN
        obtain ⟨n, hn⟩ :
          ∃ n, n = min (min length (available M prod cons)) (N - cons % N) := ⟨_, rfl⟩
        have hrest : min (length - n) (available M prod ((cons + n) % M)) =
            min length (available M prod cons) - n := by
          rw [available_advance hp hc (by omega)]
          omega
        have hsplit : min length (available M prod cons) =
            n + (min length (available M prod cons) - n) := by omega
        have hfirst : (List.range n).map (fun k => cells (cons % N + k)) =
            (List.range n).map fun k => cells ((cons + k) % N) := by
          apply List.map_congr_left
          intro k hk
          have hk' := List.mem_range.mp hk
          have hmod : (cons + k) % N = cons % N + k := by
            rw [Nat.add_mod, Nat.mod_eq_of_lt (show k < N by omega), Nat.mod_eq_of_lt (by omega)]
          rw [hmod]
        have hcell : ∀ k, ((cons + n) % M + k) % N = (cons + (n + k)) % N := by
          intro k
          rw [Nat.add_mod, Nat.mod_mod_of_dvd _ hNM, ← Nat.add_mod, Nat.add_assoc]
        rw [copyOut, if_neg hl, if_neg ha]
        simp only [← hn]
        rw [ih (Nat.mod_lt _ hM) (by omega), hrest, hfirst]
        conv_rhs => rw [hsplit, List.range_add, List.map_append, List.map_map]
        simp only [hcell, Function.comp_def, Nat.mod_add_mod, Nat.add_assoc]

/-! ## The queue in a ring -/

/-- The number of cells that are free, as the producer computes it. -/
def room (M N prod cons : ℕ) : ℕ := (cons + N + (M - prod)) % M

/-- The cells from `cons` up to `prod`, in order. -/
def contents (M N : ℕ) (cells : ℕ → β) (prod cons : ℕ) : List β :=
  (List.range (available M prod cons)).map fun k => cells ((cons + k) % N)

/-- The cells after a block has been copied to `index`. -/
def store (cells : ℕ → β) (index : ℕ) (block : List β) (k : ℕ) : β :=
  if index ≤ k then block[k - index]?.getD (cells k) else cells k

theorem length_contents (cells : ℕ → β) (prod cons : ℕ) :
    (contents M N cells prod cons).length = available M prod cons := by
  rw [contents, List.length_map, List.length_range]

theorem room_eq {prod cons : ℕ} (hNM : N < M) (hp : prod < M) (hc : cons < M)
    (h : available M prod cons ≤ N) : room M N prod cons = N - available M prod cons := by
  by_cases hle : cons ≤ prod
  · rw [available_of_le hp hle] at h ⊢
    have heq : cons + N + (M - prod) = N - (prod - cons) + M := by omega
    rw [room, heq, Nat.add_mod_right, Nat.mod_eq_of_lt (by omega)]
  · -- the producer index has wrapped, the consumer index has not
    rw [available_of_lt hc (by omega)] at h ⊢
    have heq : cons + N + (M - prod) = N - (prod + M - cons) + M + M := by omega
    rw [room, heq, Nat.add_mod_right, Nat.add_mod_right, Nat.mod_eq_of_lt (by omega)]

/-- Cells that have been produced are available. -/
theorem available_produce {prod cons n : ℕ} (hn : available M prod cons + n < M) :
    available M ((prod + n) % M) cons = available M prod cons + n := by
  have heq : (prod + n) % M + (M - cons) ≡ prod + (M - cons) + n [MOD M] := by
    calc (prod + n) % M + (M - cons) ≡ prod + n + (M - cons) [MOD M] :=
          (Nat.mod_modEq _ _).add_right _
      _ = prod + (M - cons) + n := by omega
  rw [available, heq, Nat.add_mod, ← available, Nat.mod_eq_of_lt (show n < M by omega),
    Nat.mod_eq_of_lt hn]

/-- A cell beyond the producer index, counted from the consumer index. -/
theorem producer_cell {prod cons : ℕ} (hNM : N ∣ M) (hc : cons < M) (k : ℕ) :
    (prod + k) % N = (cons + (available M prod cons + k)) % N := by
  have hmod : cons + available M prod cons ≡ prod [MOD M] := by
    calc cons + available M prod cons ≡ cons + (prod + (M - cons)) [MOD M] :=
          (Nat.mod_modEq _ _).add_left _
      _ = prod + M := by omega
      _ ≡ prod [MOD M] := Nat.add_mod_right _ _
  rw [← Nat.add_assoc]
  exact ((hmod.of_dvd hNM).add_right k).symm

/-- What has been taken is the front of the queue. -/
theorem contents_advance (cells : ℕ → β) {prod cons n : ℕ} (hNM : N ∣ M) (hp : prod < M)
    (hc : cons < M) (hn : n ≤ available M prod cons) :
    contents M N cells prod ((cons + n) % M) = (contents M N cells prod cons).drop n := by
  have hcell : ∀ k, ((cons + n) % M + k) % N = (cons + (n + k)) % N := by
    intro k
    rw [Nat.add_mod, Nat.mod_mod_of_dvd _ hNM, ← Nat.add_mod, Nat.add_assoc]
  obtain ⟨r, hr⟩ := Nat.exists_eq_add_of_le hn
  unfold contents
  rw [available_advance hp hc hn, hr, Nat.add_sub_cancel_left, List.range_add, List.map_append,
    List.map_map, List.drop_left' (by rw [List.length_map, List.length_range])]
  simp only [hcell, Function.comp_def]

/-- What has been produced comes at the end of the queue. -/
theorem contents_produce (cells : ℕ → β) {prod cons n : ℕ} (hNM : N ∣ M) (hc : cons < M)
    (hn : available M prod cons + n < M) :
    contents M N cells ((prod + n) % M) cons =
      contents M N cells prod cons ++ (List.range n).map fun k => cells ((prod + k) % N) := by
  unfold contents
  rw [available_produce hn, List.range_add, List.map_append, List.map_map]
  congr 1
  exact List.map_congr_left fun k _ => congrArg cells (producer_cell hNM hc k).symm

/-- The queue depends on its cells only. -/
theorem contents_congr {cells cells' : ℕ → β} {prod cons : ℕ}
    (h : ∀ k < available M prod cons, cells' ((cons + k) % N) = cells ((cons + k) % N)) :
    contents M N cells' prod cons = contents M N cells prod cons :=
  List.map_congr_left fun k hk => h k (List.mem_range.mp hk)

/-- The first elements of the queue. -/
theorem take_contents (cells : ℕ → β) {prod cons n : ℕ} (hn : n ≤ available M prod cons) :
    (contents M N cells prod cons).take n =
      (List.range n).map fun k => cells ((cons + k) % N) := by
  rw [contents, ← List.map_take, List.take_range, min_eq_left hn]

/-- **A block stored at the position `i`**, counted from any base, changes the cells at the positions
from `i` on and no other. -/
theorem store_cell (cells : ℕ → β) {base i p : ℕ} {block : List β} (hp : p < N)
    (hi : i + block.length ≤ N) (hblock : (base + i) % N + block.length ≤ N) :
    store cells ((base + i) % N) block ((base + p) % N) =
      if i ≤ p then block[p - i]?.getD (cells ((base + p) % N)) else cells ((base + p) % N) := by
  have hN : 0 < N := by omega
  have hlt : (base + p) % N < N := Nat.mod_lt _ hN
  have hlt' : (base + i) % N < N := Nat.mod_lt _ hN
  have hnone : ∀ k, block.length ≤ k → block[k]? = none := fun k hk => List.getElem?_eq_none hk
  have hlap : ∀ x d, x < N → d ≤ N → N ≤ x + d → (x + d) % N = x + d - N := fun x d hx hd hle => by
    rw [Nat.mod_eq_sub_mod hle, Nat.mod_eq_of_lt (by omega)]
  unfold store
  by_cases hle : i ≤ p
  · have hshift : (base + p) % N = ((base + i) % N + (p - i)) % N := by
      rw [Nat.mod_add_mod]
      congr 1
      omega
    rw [if_pos hle]
    by_cases hwrap : (base + i) % N + (p - i) < N
    · rw [Nat.mod_eq_of_lt hwrap] at hshift
      rw [if_pos (by omega), show (base + p) % N - (base + i) % N = p - i by omega]
    · -- the position lies beyond the block, on the next lap
      rw [hlap _ _ hlt' (by omega) (by omega)] at hshift
      rw [if_neg (by omega), hnone (p - i) (by omega), Option.getD_none]
  · have hshift : (base + i) % N = ((base + p) % N + (i - p)) % N := by
      rw [Nat.mod_add_mod]
      congr 1
      omega
    rw [if_neg hle]
    by_cases hwrap : (base + p) % N + (i - p) < N
    · rw [Nat.mod_eq_of_lt hwrap] at hshift
      rw [if_neg (by omega)]
    · rw [hlap _ _ hlt (by omega) (by omega)] at hshift
      rw [if_pos (by omega), hnone _ (by omega), Option.getD_none]

/-- **A block stored at the producer index**, which then moves over it, comes at the end of the queue. -/
theorem contents_store (hNM : N ∣ M) (hlt : N < M) (cells : ℕ → β) {prod cons : ℕ} {block : List β}
    (hc : cons < M) (hfits : available M prod cons + block.length ≤ N)
    (hblock : prod % N + block.length ≤ N) :
    contents M N (store cells (prod % N) block) ((prod + block.length) % M) cons =
      contents M N cells prod cons ++ block := by
  rw [contents_produce _ hNM hc (by omega)]
  have hprod : prod % N = (cons + (available M prod cons + 0)) % N := producer_cell hNM hc 0
  refine congrArg₂ _ (contents_congr fun k hk => ?_) (List.ext_getElem ?_ fun k hk hk' => ?_)
  · rw [hprod, store_cell cells (by omega) (by omega) (by omega), if_neg (by omega)]
  · rw [List.length_map, List.length_range]
  · have hzero : prod % N = (prod + 0) % N := rfl
    rw [List.getElem_map, List.getElem_range, hzero, store_cell cells (by omega) (by omega) hblock,
      if_pos (Nat.zero_le k), Nat.sub_zero, List.getElem?_eq_getElem hk', Option.getD_some]

/-- Copy data to the ring in chunks, as far as there is room: the number of elements copied, the cells
and the producer index. -/
def copyIn (M N : ℕ) (cons : ℕ) : (fuel : ℕ) → (ℕ → β) → (prod : ℕ) → List β → ℕ × (ℕ → β) × ℕ
  | 0, cells, prod, _ => (0, cells, prod)
  | fuel + 1, cells, prod, data =>
    if data.length = 0 then (0, cells, prod)
    else if room M N prod cons = 0 then (0, cells, prod)
    else
      let index := prod % N
      let copyLength := min (min data.length (room M N prod cons)) (N - index)
      let (n, rest) := copyIn M N cons fuel (store cells index (data.take copyLength))
        ((prod + copyLength) % M) (data.drop copyLength)
      (copyLength + n, rest)

/-- The next chunk and what remains of the `n` elements, where `v` of the `N` cells are taken and `i` is the
index. -/
theorem chunk {length v i n : ℕ} (hn : n = min length (N - v)) (hl : length ≠ 0) (hv : v < N) (hi : i < N) :
    ∃ m k, min (min length (N - v)) (N - i) = m ∧ n = m + k ∧ 0 < m ∧ m + k ≤ length ∧ i + m ≤ N ∧
      v + (m + k) ≤ N ∧ k = min (length - m) (N - (v + m)) := by
  obtain ⟨m, hm⟩ : ∃ m, m = min n (N - i) := ⟨_, rfl⟩
  have hpos : 0 < n := hn ▸ lt_min (Nat.pos_of_ne_zero hl) (Nat.sub_pos_of_lt hv)
  have hmn : m ≤ n := hm.trans_le (min_le_left _ _)
  obtain ⟨k, hk⟩ := Nat.exists_eq_add_of_le hmn
  have hrest : n - m = min (length - m) (N - (v + m)) := by
    rw [← Nat.sub_sub, Nat.sub_min_sub_right, ← hn]
  refine ⟨m, k, by rw [hm, hn], hk, hm ▸ lt_min hpos (Nat.sub_pos_of_lt hi), ?_, ?_, ?_, by omega⟩
  · exact hk ▸ hn.trans_le (min_le_left _ _)
  · have hle : m ≤ N - i := hm.trans_le (min_le_right _ _)
    omega
  · have hle : n ≤ N - v := hn.trans_le (min_le_right _ _)
    omega

/-- **The chunks are the front of the data, as far as there is room**; they come at the end of the
queue. -/
theorem copyIn_eq (hNM : N ∣ M) (hlt : N < M) {prod cons fuel n : ℕ} (cells : ℕ → β) {data : List β}
    (hp : prod < M) (hc : cons < M) (hN : available M prod cons ≤ N) (hfuel : data.length ≤ fuel)
    (hn : n = min data.length (N - available M prod cons)) :
    ∃ cells', copyIn M N cons fuel cells prod data = (n, cells', (prod + n) % M) ∧
      contents M N cells' ((prod + n) % M) cons = contents M N cells prod cons ++ data.take n := by
  have hM : 0 < M := by omega
  have hpos : 0 < N := Nat.pos_of_dvd_of_pos hNM hM
  induction fuel generalizing cells prod data n with
  | zero =>
    obtain rfl : n = 0 := by omega
    have hzero : (prod + 0) % M = prod := Nat.mod_eq_of_lt hp
    rw [hzero, List.take_zero, List.append_nil]
    exact ⟨cells, rfl, rfl⟩
  | succ fuel ih =>
    have hroom := room_eq hlt hp hc hN
    by_cases hstop : data.length = 0 ∨ room M N prod cons = 0
    · obtain rfl : n = 0 := by omega
      have hzero : (prod + 0) % M = prod := Nat.mod_eq_of_lt hp
      rw [hzero, List.take_zero, List.append_nil]
      refine ⟨cells, ?_, rfl⟩
      rw [copyIn]
      split_ifs with hl hfull
      · rfl
      · rfl
      · exact absurd hstop (not_or.mpr ⟨hl, hfull⟩)
    · obtain ⟨hl, hfull⟩ := not_or.mp hstop
      have hidx : prod % N < N := Nat.mod_lt _ hpos
      have hspace : available M prod cons < N := by
        rw [hroom] at hfull
        exact Nat.lt_of_sub_ne_zero hfull
      obtain ⟨m, k, hm, rfl, hone, hdata, hblock, hfits, hrest⟩ := chunk hn hl hspace hidx
      have hchunk : min (min data.length (room M N prod cons)) (N - prod % N) = m := by rw [hroom, hm]
      have htake : (data.take m).length = m := List.length_take_of_le (by omega)
      have hdrop : (data.drop m).length = data.length - m := List.length_drop
      have havail : available M ((prod + m) % M) cons = available M prod cons + m :=
        available_produce (by omega)
      have hstore : contents M N (store cells (prod % N) (data.take m))
          ((prod + (data.take m).length) % M) cons = _ :=
        contents_store hNM hlt cells hc (by omega) (by omega)
      rw [htake] at hstore
      rw [← hdrop, ← havail] at hrest
      obtain ⟨cells', hcopy, hqueue⟩ := ih (store cells (prod % N) (data.take m))
        (Nat.mod_lt (prod + m) hM) (by omega) (show (data.drop m).length ≤ fuel by omega) hrest
      have hindex : ((prod + m) % M + k) % M = (prod + (m + k)) % M := by
        rw [Nat.mod_add_mod, Nat.add_assoc]
      rw [hindex] at hcopy hqueue
      refine ⟨cells', ?_, ?_⟩
      · rw [copyIn, if_neg hl, if_neg hfull]
        simp only [hchunk, hcopy]
      · rw [hqueue, hstore, List.append_assoc, List.take_add]

end Ring
