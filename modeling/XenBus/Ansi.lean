import XenBus.Foundations.Ledger
import XenBus.Foundations.Terminated
import Mathlib.Data.UInt

/-!
# Arrays of strings

`FdoMultiSzToUpcaseAnsi` (`fdo.c`) and `RegistryMultiSzToAnsi` (`registry.c`) return an array of
`ANSI_STRING`, each with a buffer of its own, that is ended by one whose buffer is `NULL`. Both copy one string
after the other in the same way, and give everything back when there is no memory for a copy
(`copyArray_spec`); `FdoFreeAnsi` and `RegistryFreeSzValue` free such an array (`Allocated.free`).

The blocks of the pool are numbered, and a `Ledger` holds the numbers of those that have been allocated.
-/

namespace XenBus.Ansi

open Terminated

/-! ## The functions -/

/-- A block of the pool. -/
structure Block where
  number : ℕ
  bytes : List UInt8

/-- `__AllocatePoolWithTag`. Which allocations succeed is told by `answers`. -/
def allocatePoolWithTag (answers : ℕ → Bool) (NumberOfBytes : ℕ) (pool : Ledger) : Option Block × Ledger :=
  if NumberOfBytes = 0 then (none, pool)
  else if answers pool.next then (some ⟨pool.next, List.replicate NumberOfBytes 0⟩, pool.take)
  else (none, pool.skip)

/-- `ANSI_STRING`. The two lengths are `USHORT`s. -/
structure AnsiString where
  Length : ℕ
  MaximumLength : ℕ
  Buffer : Option Block

/-- The entry of an array that has been allocated and not been written. -/
def AnsiString.zero : AnsiString := ⟨0, 0, none⟩

/-- `PANSI_STRING`, for an array. -/
structure AnsiArray where
  number : ℕ
  Entries : List AnsiString

/-- The buffers of the strings. -/
def numbers (entries : List AnsiString) : List ℕ := entries.filterMap fun a => a.Buffer.map Block.number

/-- The number of entries in an array that has been allocated for `Count` of them: an `ANSI_STRING` has 16 bytes,
and the number of bytes is a `ULONG`. -/
def room (Count : ℕ) : ℕ := 16 * Count % 4294967296 / 16

/-- The loop over the strings of a buffer, and `fail2`. The first entries have been written, and `n` are left;
`copy` makes the next one, unless there is no memory. -/
def copyStrings {α : Type*} (copy : List α → Ledger → Option (Option AnsiString × List α × Ledger))
    (number room : ℕ) : ℕ → List AnsiString → List α → Ledger → Option (Option AnsiArray × Ledger)
  | 0, entries, _, pool => some (some ⟨number, entries ++ List.replicate (room - entries.length) .zero⟩, pool)
  | n + 1, entries, Buffer, pool =>
    if room ≤ entries.length then none
    else (copy Buffer pool).bind fun (entry, Buffer, pool) =>
      match entry with
      | none => (pool.giveAll ((numbers entries).reverse ++ [number])).map fun pool => (none, pool)
      | some a => copyStrings copy number room n (entries ++ [a]) Buffer pool

/-- The array for `Count` strings and its end, and the loop over the strings. -/
def copyArray {α : Type*} (copy : List α → Ledger → Option (Option AnsiString × List α × Ledger))
    (answers : ℕ → Bool) (Count : ℕ) (Buffer : List α) (pool : Ledger) : Option (Option AnsiArray × Ledger) :=
  match allocatePoolWithTag answers (16 * (Count + 1) % 4294967296) pool with
  | (none, pool) => some (none, pool)
  | (some block, pool) => copyStrings copy block.number (room (Count + 1)) Count [] Buffer pool

/-- The loop of `FdoFreeAnsi`. -/
def freeBuffers : List AnsiString → Ledger → Option Ledger
  | [], _ => none
  | a :: entries, pool =>
    match a.Buffer with
    | none => some pool
    | some block => (pool.give block.number).bind (freeBuffers entries)

/-- `FdoFreeAnsi`, `RegistryFreeSzValue`. -/
def freeAnsi (ansi : AnsiArray) (pool : Ledger) : Option Ledger :=
  (freeBuffers ansi.Entries pool).bind fun pool => pool.give ansi.number

/-! ## What they do -/

variable {α : Type*} {answers : ℕ → Bool} {n number : ℕ} {pool pool₀ : Ledger} {is : List ℕ}
  {entries : List AnsiString}

/-- An allocation takes a block, or nothing. -/
theorem allocatePoolWithTag_cases (answers : ℕ → Bool) (n : ℕ) (pool : Ledger) :
    (∃ pool', allocatePoolWithTag answers n pool = (none, pool') ∧ pool.Same pool') ∨
    0 < n ∧ allocatePoolWithTag answers n pool = (some ⟨pool.next, List.replicate n 0⟩, pool.take) := by
  unfold allocatePoolWithTag
  split_ifs with hn hanswer
  · exact .inl ⟨pool, rfl, .refl pool⟩
  · exact .inr ⟨Nat.pos_of_ne_zero hn, rfl⟩
  · exact .inl ⟨pool.skip, rfl, pool.same_skip⟩

/-- The entry has been made of the string: `R` says how, and the buffer is the next block. -/
structure Makes (R : List α → AnsiString → Prop) (pool : Ledger) (s : List α) (a : AnsiString) : Prop where
  rel : R s a
  Buffer : a.Buffer.map Block.number = some pool.next

theorem numbers_append {a : AnsiString} (h : a.Buffer.map Block.number = some n) :
    numbers (entries ++ [a]) = numbers entries ++ [n] := by
  simp [numbers, h]

/-- The entry is a copy of the string, which a `NUL` ends. -/
def Copies (s : List UInt8) (a : AnsiString) : Prop :=
  a.Length = s.length ∧ a.MaximumLength = s.length + 1 ∧ ∃ number, a.Buffer = some ⟨number, s ++ [0]⟩

/-- `copy` makes an entry of the string, whatever follows it, unless there is no memory. -/
def Copier [Zero α] (copy : List α → Ledger → Option (Option AnsiString × List α × Ledger))
    (R : List α → AnsiString → Prop) (s : List α) : Prop :=
  ∀ rest pool, (∃ Buffer pool', copy (s ++ 0 :: rest) pool = some (none, Buffer, pool') ∧ pool.Same pool') ∨
    ∃ a, copy (s ++ 0 :: rest) pool = some (some a, rest, pool.take) ∧ Makes R pool s a

/-- The array is ended by an entry whose `Buffer` is `NULL`, and it and the buffers of the others are what has
been allocated. -/
structure Allocated (pool pool' : Ledger) (ansi : AnsiArray) (made : List AnsiString) : Prop where
  Entries : ansi.Entries = made ++ [.zero]
  Buffer : ∀ a ∈ made, a.Buffer.isSome
  took : pool.Took pool' (ansi.number :: numbers made)

section Copying

variable [Zero α] {copy : List α → Ledger → Option (Option AnsiString × List α × Ledger)}
  {R : List α → AnsiString → Prop} {ss : List (List α)}

/-- **Copying the strings** of a buffer makes an entry of each of them, or gives everything back. -/
theorem copyStrings_spec (hcopy : ∀ s ∈ ss, Copier copy R s) (rest : List α) {room : ℕ}
    (hroom : room = entries.length + ss.length + 1) (hBuffer : ∀ a ∈ entries, a.Buffer.isSome)
    (htook : pool₀.Took pool (number :: numbers entries)) :
    (∃ pool', copyStrings copy number room ss.length entries (joined ss ++ rest) pool = some (none, pool') ∧
      pool₀.Took pool' []) ∨
    ∃ ansi made pool', copyStrings copy number room ss.length entries (joined ss ++ rest) pool =
        some (some ansi, pool') ∧ List.Forall₂ R ss made ∧ Allocated pool₀ pool' ansi (entries ++ made) := by
  induction ss generalizing entries pool with
  | nil =>
    refine .inr ⟨_, [], pool, rfl, .nil, ⟨?_, by simpa using hBuffer, by simpa using htook⟩⟩
    have hone : room - entries.length = 1 := by
      rw [hroom]
      simp
    rw [hone, List.append_nil]
    rfl
  | cons s ss ih =>
    obtain ⟨hs, hss⟩ := List.forall_mem_cons.mp hcopy
    have hsplit : joined (s :: ss) ++ rest = s ++ 0 :: (joined ss ++ rest) := by simp
    rw [List.length_cons] at hroom
    rw [hsplit, List.length_cons, copyStrings, if_neg (by omega)]
    rcases hs (joined ss ++ rest) pool with ⟨Buffer, pool', heq, hsame⟩ | ⟨a, heq, hmakes⟩
    · -- what has been copied is freed, and then the array
      obtain ⟨pool'', hgive, hheld⟩ := (htook.same hsame).unwind
      exact .inl ⟨pool'', by simp only [heq, Option.bind_some, hgive, Option.map_some], hheld⟩
    · have htook' : pool₀.Took pool.take (number :: numbers (entries ++ [a])) := by
        rw [numbers_append hmakes.Buffer]
        exact htook.take_last
      have hsome : a.Buffer.isSome := by
        rw [← Option.isSome_map, hmakes.Buffer]
        rfl
      have hBuffer' : ∀ b ∈ entries ++ [a], b.Buffer.isSome :=
        List.forall_mem_append.mpr ⟨hBuffer, List.forall_mem_singleton.mpr hsome⟩
      simp only [heq, Option.bind_some]
      rcases ih hss (by rw [hroom, List.length_append, List.length_singleton]; omega) hBuffer' htook' with
        ⟨pool', heq', hheld⟩ | ⟨ansi, made, pool', heq', hmade, hallocated⟩
      · exact .inl ⟨pool', heq', hheld⟩
      · rw [List.append_assoc, List.singleton_append] at hallocated
        exact .inr ⟨ansi, a :: made, pool', heq', .cons hmakes.rel hmade, hallocated⟩

/-- **Copying an array** of fewer than 2 ^ 28 strings. -/
theorem copyArray_spec (hcopy : ∀ s ∈ ss, Copier copy R s) (answers : ℕ → Bool) (rest : List α) (pool : Ledger)
    (hCount : ss.length + 1 < 268435456) :
    ∃ ansi pool', copyArray copy answers ss.length (joined ss ++ rest) pool = some (ansi, pool') ∧
      (ansi = none → pool'.held = pool.held) ∧
      ∀ a, ansi = some a → ∃ made, Allocated pool pool' a made ∧ List.Forall₂ R ss made := by
  unfold copyArray
  rcases allocatePoolWithTag_cases answers (16 * (ss.length + 1) % 4294967296) pool with
    ⟨pool', heq, hsame⟩ | ⟨-, heq⟩
  · exact ⟨none, pool', by rw [heq], fun _ => hsame.held, by simp⟩
  · have htook : pool.Took pool.take (pool.next :: numbers []) := (Ledger.Took.refl pool).take
    have hroom : room (ss.length + 1) = ([] : List AnsiString).length + ss.length + 1 := by
      rw [room, List.length_nil]
      omega
    rcases copyStrings_spec hcopy rest hroom (by simp) htook with
      ⟨pool', heq', htook'⟩ | ⟨ansi, made, pool', heq', hmade, hallocated⟩
    · exact ⟨none, pool', by rw [heq]; exact heq', fun _ => htook'.held_eq, by simp⟩
    · refine ⟨some ansi, pool', by rw [heq]; exact heq', by simp, fun a ha => ⟨made, ?_, hmade⟩⟩
      obtain rfl := Option.some.inj ha
      exact hallocated

/-- Nothing fails if `copy` makes an entry of each string. -/
theorem copyStrings_ne_none (hcopy : ∀ s ∈ ss, ∀ rest pool, ∃ a pool', copy (s ++ 0 :: rest) pool =
      some (some a, rest, pool')) (rest : List α) {number room : ℕ} {pool' : Ledger} :
    copyStrings copy number room ss.length entries (joined ss ++ rest) pool ≠ some (none, pool') := by
  induction ss generalizing entries pool with
  | nil =>
    intro heq
    cases heq
  | cons s ss ih =>
    obtain ⟨hs, hss⟩ := List.forall_mem_cons.mp hcopy
    intro heq
    have hsplit : joined (s :: ss) ++ rest = s ++ 0 :: (joined ss ++ rest) := by simp
    obtain ⟨a, pool₁, ha⟩ := hs (joined ss ++ rest) pool
    rw [hsplit, List.length_cons, copyStrings, ha] at heq
    split_ifs at heq
    exact ih hss heq

theorem copyArray_ne_none {answers : ℕ → Bool} (hcopy : ∀ s ∈ ss, ∀ rest pool, ∃ a pool',
      copy (s ++ 0 :: rest) pool = some (some a, rest, pool')) (hCount : ss.length + 1 < 268435456)
    (hanswer : answers pool.next = true) (rest : List α) {pool' : Ledger} :
    copyArray copy answers ss.length (joined ss ++ rest) pool ≠ some (none, pool') := by
  unfold copyArray allocatePoolWithTag
  rw [if_neg (by omega), if_pos hanswer]
  exact copyStrings_ne_none hcopy rest

end Copying

theorem freeBuffers_spec (hBuffers : ∀ a ∈ entries, a.Buffer.isSome)
    (htook : pool₀.Took pool (numbers entries ++ is)) :
    ∃ pool', freeBuffers (entries ++ [.zero]) pool = some pool' ∧ pool₀.Took pool' is := by
  induction entries generalizing pool with
  | nil => exact ⟨pool, rfl, htook⟩
  | cons a entries ih =>
    obtain ⟨ha, hentries⟩ := List.forall_mem_cons.mp hBuffers
    obtain ⟨block, hblock⟩ := Option.isSome_iff_exists.mp ha
    have hnumbers : numbers (a :: entries) = block.number :: numbers entries := by simp [numbers, hblock]
    rw [hnumbers] at htook
    obtain ⟨pool₁, hgive, htook₁⟩ := htook.give
    obtain ⟨pool', hfree, htook'⟩ := ih hentries htook₁
    refine ⟨pool', ?_, htook'⟩
    simp only [List.cons_append, freeBuffers, hblock, hgive, Option.bind_some, hfree]

/-- **Freeing an array** gives back every buffer and the array, each once. -/
theorem Allocated.free {ansi : AnsiArray} (h : Allocated pool₀ pool ansi entries) :
    ∃ pool', freeAnsi ansi pool = some pool' ∧ pool'.held = pool₀.held := by
  have htook : pool₀.Took pool (numbers entries ++ [ansi.number]) :=
    h.took.perm (List.perm_append_singleton _ _).symm
  obtain ⟨pool₁, hfree, htook₁⟩ := freeBuffers_spec h.Buffer htook
  obtain ⟨pool', hgive, htook'⟩ := htook₁.give
  exact ⟨pool', by rw [freeAnsi, h.Entries, hfree, Option.bind_some, hgive], htook'.held_eq⟩

end XenBus.Ansi
