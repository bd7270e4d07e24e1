import Mathlib.Data.Finset.Basic
import Mathlib.Data.Finset.Lattice.Lemmas
import Mathlib.Data.List.Nodup

/-!
# A ledger of what has been handed out

Blocks of memory, handles and mappings are numbered in the order in which they are handed out, and a ledger
holds the numbers of those that have not been given back. Giving back what is not held has no result
(`none`), so a function that has a result has given nothing back twice.

`Took l l' is` says that between the two ledgers exactly `is` have been handed out and are still held.
-/

/-- The next number, and the numbers that are held. -/
structure Ledger where
  next : ℕ
  held : Finset ℕ
  lt : ∀ i ∈ held, i < next

namespace Ledger

/-- `next` is handed out. -/
def take (l : Ledger) : Ledger where
  next := l.next + 1
  held := insert l.next l.held
  lt i hi := by
    rcases Finset.mem_insert.mp hi with rfl | hi
    · exact Nat.lt_succ_self _
    · exact Nat.lt_succ_of_lt (l.lt i hi)

/-- A number is left out. -/
def skip (l : Ledger) : Ledger where
  next := l.next + 1
  held := l.held
  lt i hi := Nat.lt_succ_of_lt (l.lt i hi)

/-- What is left when `i` is not held any more. -/
def drop (l : Ledger) (i : ℕ) : Ledger where
  next := l.next
  held := l.held.erase i
  lt j hj := l.lt j (Finset.mem_of_mem_erase hj)

/-- `i` is given back. -/
def give (l : Ledger) (i : ℕ) : Option Ledger := if i ∈ l.held then some (l.drop i) else none

/-- The numbers are given back, one after the other. -/
def giveAll (l : Ledger) : List ℕ → Option Ledger
  | [] => some l
  | i :: is => (l.give i).bind fun l => l.giveAll is

/-- Nothing is held. -/
def empty : Ledger := ⟨0, ∅, fun _ hi => absurd hi (Finset.notMem_empty _)⟩

/-- Between the two ledgers, `is` have been handed out, and nothing else has changed. -/
structure Took (l l' : Ledger) (is : List ℕ) : Prop where
  next_le : l.next ≤ l'.next
  held : l'.held = l.held ∪ is.toFinset
  nodup : is.Nodup
  new : ∀ i ∈ is, l.next ≤ i

/-- The same is held. -/
structure Same (l l' : Ledger) : Prop where
  next_le : l.next ≤ l'.next
  held : l'.held = l.held

variable {l l' : Ledger} {i : ℕ} {is js : List ℕ}

theorem Same.refl (l : Ledger) : Same l l := ⟨le_rfl, rfl⟩

theorem same_skip (l : Ledger) : Same l l.skip := ⟨Nat.le_succ _, rfl⟩

namespace Took

theorem refl (l : Ledger) : Took l l [] := ⟨le_rfl, by simp, List.nodup_nil, by simp⟩

theorem mem (h : Took l l' is) (hi : i ∈ is) : i ∈ l'.held := by
  rw [h.held]
  exact Finset.mem_union_right _ (List.mem_toFinset.mpr hi)

/-- The order does not matter. -/
theorem perm (h : Took l l' is) (hperm : is.Perm js) : Took l l' js where
  next_le := h.next_le
  held := by rw [h.held, List.toFinset_eq_of_perm _ _ hperm]
  nodup := hperm.nodup_iff.mp h.nodup
  new i hi := h.new i (hperm.mem_iff.mpr hi)

/-- The next number is handed out. -/
theorem take (h : Took l l' is) : Took l l'.take (l'.next :: is) where
  next_le := h.next_le.trans (Nat.le_succ _)
  held := by
    rw [List.toFinset_cons, Finset.union_insert, ← h.held]
    rfl
  nodup := List.nodup_cons.mpr ⟨fun hmem => Nat.lt_irrefl _ (l'.lt _ (h.mem hmem)), h.nodup⟩
  new := List.forall_mem_cons.mpr ⟨h.next_le, h.new⟩

theorem same {l'' : Ledger} (h : Took l l' is) (h' : Same l' l'') : Took l l'' is :=
  ⟨h.next_le.trans h'.next_le, h'.held.trans h.held, h.nodup, h.new⟩

/-- One after the other. -/
theorem trans {l'' : Ledger} (h : Took l l' is) (h' : Took l' l'' js) : Took l l'' (js ++ is) where
  next_le := h.next_le.trans h'.next_le
  held := by rw [h'.held, h.held, List.toFinset_append, Finset.union_assoc, Finset.union_comm is.toFinset]
  nodup := by
    refine List.nodup_append.mpr ⟨h'.nodup, h.nodup, fun i hi j hj heq => ?_⟩
    have hlt := l'.lt j (h.mem hj)
    have hle := h'.new i hi
    omega
  new i hi := (List.mem_append.mp hi).elim (fun hj => h.next_le.trans (h'.new i hj)) (h.new i)

/-- **What has been handed out can be given back**, once. -/
theorem give (h : Took l l' (i :: is)) : ∃ l'', l'.give i = some l'' ∧ Took l l'' is := by
  obtain ⟨hi, hnodup⟩ := List.nodup_cons.mp h.nodup
  refine ⟨_, if_pos (h.mem List.mem_cons_self), h.next_le, ?_, hnodup,
    fun j hj => h.new j (List.mem_cons_of_mem _ hj)⟩
  have hnew : i ∉ l.held := fun hmem => (l.lt i hmem).not_ge (h.new i List.mem_cons_self)
  change l'.held.erase i = _
  rw [h.held, List.toFinset_cons, Finset.union_insert, Finset.erase_insert]
  simp [hnew, hi]

theorem giveAll (h : Took l l' (is ++ js)) : ∃ l'', l'.giveAll is = some l'' ∧ Took l l'' js := by
  induction is generalizing l' with
  | nil => exact ⟨l', rfl, h⟩
  | cons i is ih =>
    obtain ⟨l₁, hgive, h₁⟩ := h.give
    obtain ⟨l₂, hgiveAll, h₂⟩ := ih h₁
    exact ⟨l₂, by rw [Ledger.giveAll, hgive, Option.bind_some, hgiveAll], h₂⟩

/-- The next number comes last. -/
theorem take_last (h : Took l l' (i :: is)) : Took l l'.take (i :: (is ++ [l'.next])) := by
  refine h.take.perm ?_
  exact (List.Perm.swap _ _ _).trans (.cons _ (List.perm_append_singleton _ _).symm)

/-- The first number is given back last, as after a failure. -/
theorem unwind (h : Took l l' (i :: is)) :
    ∃ l'', l'.giveAll (is.reverse ++ [i]) = some l'' ∧ Took l l'' [] := by
  have hperm : (i :: is).Perm (is.reverse ++ [i] ++ []) := by
    rw [List.append_nil]
    exact (List.perm_append_comm.trans (.cons _ (List.reverse_perm _))).symm
  exact (h.perm hperm).giveAll

/-- Nothing has been handed out that has not been given back. -/
theorem held_eq (h : Took l l' []) : l'.held = l.held := by
  rw [h.held, List.toFinset_nil, Finset.union_empty]

end Took

end Ledger
