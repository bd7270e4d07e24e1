import Mathlib.Data.List.SplitBy

/-!
# Runs of consecutive numbers

A run is its first number and how many numbers it has. The maximal runs of a list put together are the list, and
no two neighbours among them can be merged: they are the list, split where a number does not follow the one
before it (`Maximal.splitBy_eq`).
-/

namespace Runs

variable {l : List ℕ} {runs : List (ℕ × ℕ)} {first n : ℕ}

/-- The numbers of a run. -/
def numbers (run : ℕ × ℕ) : List ℕ := List.range' run.1 run.2

/-- `runs` are the maximal runs of `l`, in their order. -/
structure Maximal (l : List ℕ) (runs : List (ℕ × ℕ)) : Prop where
  covers : runs.flatMap numbers = l
  pos : ∀ run ∈ runs, 0 < run.2
  apart : runs.IsChain fun run next => run.1 + run.2 ≠ next.1

theorem numbers_ne_nil {run : ℕ × ℕ} (h : 0 < run.2) : numbers run ≠ [] := by
  rw [numbers, ne_eq, List.range'_eq_nil_iff]
  exact h.ne'

theorem head_numbers {run : ℕ × ℕ} (h : 0 < run.2) : (numbers run).head (numbers_ne_nil h) = run.1 := by
  obtain ⟨first, _ | n⟩ := run
  · exact absurd h (lt_irrefl 0)
  · rfl

theorem getLast_numbers {run : ℕ × ℕ} (h : 0 < run.2) :
    (numbers run).getLast (numbers_ne_nil h) + 1 = run.1 + run.2 := by
  obtain ⟨first, _ | n⟩ := run
  · exact absurd h (lt_irrefl 0)
  · simp only [numbers, List.getLast_range']
    omega

theorem maximal_nil : Maximal [] [] := ⟨rfl, List.forall_mem_nil _, List.isChain_nil⟩

/-- A list begins with the first number of its first run. -/
theorem Maximal.head?_eq (h : Maximal l runs) : l.head? = runs.head?.map Prod.fst := by
  cases runs with
  | nil => rw [← h.covers]; rfl
  | cons run runs =>
    have hpos := h.pos run List.mem_cons_self
    rw [← h.covers, List.flatMap_cons, List.head?_append_of_ne_nil _ (numbers_ne_nil hpos),
      List.head?_eq_some_head (numbers_ne_nil hpos), head_numbers hpos]
    rfl

/-- A run in front of a list that does not go on with it. -/
theorem Maximal.cons (h : Maximal l runs) (hpos : 0 < n) (hne : ∀ q ∈ l.head?, first + n ≠ q) :
    Maximal (numbers (first, n) ++ l) ((first, n) :: runs) where
  covers := by rw [List.flatMap_cons, h.covers]
  pos := List.forall_mem_cons.mpr ⟨hpos, h.pos⟩
  apart := by
    refine List.isChain_cons.mpr ⟨fun next hnext => hne next.1 ?_, h.apart⟩
    rw [h.head?_eq]
    exact Option.mem_map_of_mem Prod.fst hnext

theorem isChain_numbers (run : ℕ × ℕ) : (numbers run).IsChain fun p q => (q == p + 1) = true := by
  obtain ⟨first, n⟩ := run
  exact (List.isChain_range' first n 1).imp fun p q h => beq_iff_eq.mpr h

/-- **The maximal runs are the list, split where a number does not follow the one before it.** -/
theorem Maximal.splitBy_eq (h : Maximal l runs) : l.splitBy (fun p q => q == p + 1) = runs.map numbers := by
  refine List.splitBy_eq_iff.mpr ⟨?_, fun hnil => ?_, fun m hm => ?_, ?_⟩
  · rw [← h.covers, List.flatMap_def]
  · obtain ⟨run, hrun, heq⟩ := List.mem_map.mp hnil
    exact numbers_ne_nil (h.pos run hrun) heq
  · obtain ⟨run, -, rfl⟩ := List.mem_map.mp hm
    exact isChain_numbers run
  · rw [List.isChain_map]
    refine h.apart.imp_of_mem_imp fun run next hrun hnext hne => ?_
    have hpos := h.pos run hrun
    have hpos' := h.pos next hnext
    refine ⟨numbers_ne_nil hpos, numbers_ne_nil hpos', ?_⟩
    rw [head_numbers hpos', getLast_numbers hpos]
    exact beq_eq_false_iff_ne.mpr (Ne.symm hne)

end Runs
