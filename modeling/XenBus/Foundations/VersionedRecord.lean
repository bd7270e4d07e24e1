import Mathlib.Data.List.Basic
import Mathlib.Tactic.Linarith

/-!
# Records with a version

A record that one side updates and the other reads without a lock. The version is incremented before an
update and after it, so it is odd while the record changes; the reader samples it before and after it has
read the fields. The counter of the increments here is unbounded, and the version is its value modulo the
size of the word: with fewer updates than make the word come round, equal and even samples mean that
nothing has changed in between (`count_eq_of_version_eq`, `Later.record_eq`).
-/

namespace VersionedRecord

variable {R : Type*}

/-- A record, the number of increments of its version, and what the completed updates have left. -/
structure Cell (R : Type*) where
  count : ℕ
  record : R
  completed : List R

/-- A record that nobody updates, with some even count. -/
def Cell.fresh (n : ℕ) (r : R) : Cell R := ⟨2 * n, r, [r]⟩

/-- The version, a 32-bit word. -/
def Cell.version (c : Cell R) : ℕ := c.count % 4294967296

/-- An update begins. -/
def Cell.enter (c : Cell R) : Option (Cell R) :=
  if c.count % 2 = 0 then some { c with count := c.count + 1 } else none

/-- The record is written while an update is in progress. -/
def Cell.write (c : Cell R) (f : R → R) : Option (Cell R) :=
  if c.count % 2 = 1 then some { c with record := f c.record } else none

/-- An update is completed. -/
def Cell.leave (c : Cell R) : Option (Cell R) :=
  if c.count % 2 = 1 then some ⟨c.count + 1, c.record, c.completed ++ [c.record]⟩ else none

variable {c d d' : Cell R}

/-- Between two updates, the record is what one of them has left. -/
def Cell.Sound (c : Cell R) : Prop := c.count % 2 = 0 → c.record ∈ c.completed

theorem Cell.sound_fresh (n : ℕ) (r : R) : (Cell.fresh n r).Sound := fun _ => List.mem_singleton_self r

/-- `d` is `c` at a later time. -/
structure Later (c d : Cell R) : Prop where
  count_le : c.count ≤ d.count
  record_eq : d.count = c.count → c.count % 2 = 0 → d.record = c.record
  completed : ∀ r ∈ c.completed, r ∈ d.completed

theorem Later.refl (c : Cell R) : Later c c := ⟨le_rfl, fun _ _ => rfl, fun _ => id⟩

theorem Later.trans (h : Later c d) (h' : Later d d') : Later c d' where
  count_le := h.count_le.trans h'.count_le
  record_eq hcount heven := by
    have hle := h.count_le
    have hle' := h'.count_le
    have hcd : d.count = c.count := by omega
    rw [h'.record_eq (hcount.trans hcd.symm) (by omega), h.record_eq hcd heven]
  completed r hr := h'.completed r (h.completed r hr)

theorem Cell.enter_spec (h : d.enter = some d') : d'.Sound ∧ Later d d' ∧ d'.count = d.count + 1 := by
  unfold Cell.enter at h
  split_ifs at h with heven
  obtain rfl := Option.some.inj h
  refine ⟨fun hodd => ?_, ⟨Nat.le_succ _, fun hcount => ?_, fun _ => id⟩, rfl⟩
  · change (d.count + 1) % 2 = 0 at hodd
    omega
  · change d.count + 1 = d.count at hcount
    omega

theorem Cell.write_spec {f : R → R} (h : d.write f = some d') :
    d'.Sound ∧ Later d d' ∧ d'.count = d.count := by
  unfold Cell.write at h
  split_ifs at h with hodd
  obtain rfl := Option.some.inj h
  refine ⟨fun heven => ?_, ⟨le_rfl, fun _ heven => ?_, fun _ => id⟩, rfl⟩
  · change d.count % 2 = 0 at heven
    omega
  · omega

theorem Cell.leave_spec (h : d.leave = some d') :
    d'.Sound ∧ Later d d' ∧ d'.count = d.count + 1 ∧ d.count % 2 = 1 := by
  unfold Cell.leave at h
  split_ifs at h with hodd
  obtain rfl := Option.some.inj h
  refine ⟨fun _ => List.mem_append_right _ (List.mem_singleton_self _),
    ⟨Nat.le_succ _, fun hcount => ?_, fun r hr => List.mem_append_left _ hr⟩, rfl, hodd⟩
  change d.count + 1 = d.count at hcount
  omega

/-- The number of updates that have begun between two moments. -/
def begun (c d : Cell R) : ℕ := (d.count + 1) / 2 - (c.count + 1) / 2

/-- With fewer than `2 ^ 31` updates in between, equal versions mean equal counts. -/
theorem count_eq_of_version_eq (h : Later c d) (heven : c.count % 2 = 0) (hversion : d.version = c.version)
    (hbegun : begun c d < 2147483648) : d.count = c.count := by
  have hle := h.count_le
  unfold Cell.version at hversion
  unfold begun at hbegun
  omega

end VersionedRecord
