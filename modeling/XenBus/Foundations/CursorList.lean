import Mathlib.Data.List.Basic

/-!
# A circular list with an anchor and a cursor

The intrusive doubly linked lists of the C code are circular: a list head (the *anchor*) that is no
element, and the elements between its `Flink` and its `Blink`. A list with a cursor into it is seen
here from the cursor: the elements before it, nearest first, and those from it on. The cursor is at
the anchor when no element is left from it on.

`insertAfter` and `insertBefore` put a new element next to the cursor and move the cursor to it;
`removeForward` and `removeBackward` take the element at the cursor out and move the cursor to the
next, or to the previous element, skipping the anchor. `unlinkToNext` and `unlinkToPrevious` do not
skip it. `searchForward` and `searchBackward` move the cursor up to an element with a property, or to
the anchor.
-/

/-- A circular list with an anchor, seen from a cursor. -/
@[ext] structure CursorList (α : Type*) where
  /-- The elements before the cursor, nearest first. -/
  Before : List α
  /-- The element at the cursor and those after it; `[]` when the cursor is at the anchor. -/
  After : List α
  deriving DecidableEq, Repr

namespace CursorList

variable {α : Type*} (l : CursorList α) (x : α)

/-- The elements in list order. -/
def toList : List α := l.Before.reverse ++ l.After

/-- The empty list, the cursor at the anchor. -/
def empty : CursorList α := ⟨[], []⟩

/-- Insert `x` after the cursor and move the cursor to it. The element after the anchor is the
first one. -/
def insertAfter : CursorList α :=
  match l.After with
  | [] => ⟨[], x :: l.Before.reverse⟩
  | a :: as => ⟨a :: l.Before, x :: as⟩

/-- Insert `x` before the cursor and move the cursor to it. -/
def insertBefore : CursorList α := ⟨l.Before, x :: l.After⟩

/-- Remove the element at the cursor; the cursor moves to the next element, from the last one to the
first one. -/
def removeForward : CursorList α :=
  match l.After with
  | [] => l
  | [_] => ⟨[], l.Before.reverse⟩
  | _ :: a :: as => ⟨l.Before, a :: as⟩

/-- Remove the element at the cursor; the cursor moves to the previous element, from the first one
to the last one. -/
def removeBackward : CursorList α :=
  match l.After with
  | [] => l
  | _ :: as =>
    match l.Before with
    | b :: bs => ⟨bs, b :: as⟩
    | [] =>
      match as.reverse with
      | [] => empty
      | a :: rest => ⟨rest, [a]⟩

/-- Remove the element at the cursor; the cursor moves to what follows it. -/
def unlinkToNext : CursorList α := ⟨l.Before, l.After.tail⟩

/-- Remove the element at the cursor; the cursor moves to what precedes it. -/
def unlinkToPrevious : CursorList α :=
  match l.Before with
  | b :: bs => ⟨bs, b :: l.After.tail⟩
  | [] => ⟨l.After.tail.reverse, []⟩

/-- The search forwards, from between `before` and the second list on. -/
def seekForward (p : α → Bool) (before : List α) : List α → CursorList α
  | [] => ⟨before, []⟩
  | a :: as => if p a then ⟨before, a :: as⟩ else seekForward p (a :: before) as

/-- The search backwards, from the element `a` on. -/
def seekBackward (p : α → Bool) : List α → α → List α → CursorList α
  | [], a, as => if p a then ⟨[], a :: as⟩ else ⟨(a :: as).reverse, []⟩
  | b :: bs, a, as => if p a then ⟨b :: bs, a :: as⟩ else seekBackward p bs b (a :: as)

/-- Move the cursor to the next element until `p` holds of the one at the cursor. -/
def searchForward (p : α → Bool) : CursorList α := seekForward p l.Before l.After

/-- Move the cursor to the previous element until `p` holds of the one at the cursor. -/
def searchBackward (p : α → Bool) : CursorList α :=
  match l.After with
  | [] => l
  | a :: as => seekBackward p l.Before a as

@[simp] theorem toList_mk (bs as : List α) : (⟨bs, as⟩ : CursorList α).toList = bs.reverse ++ as :=
  rfl

@[simp] theorem toList_empty : (empty : CursorList α).toList = [] := rfl

@[simp] theorem insertAfter_cons (bs as : List α) (a : α) :
    (⟨bs, a :: as⟩ : CursorList α).insertAfter x = ⟨a :: bs, x :: as⟩ := rfl

@[simp] theorem insertAfter_anchor (bs : List α) :
    (⟨bs, []⟩ : CursorList α).insertAfter x = ⟨[], x :: bs.reverse⟩ := rfl

@[simp] theorem insertBefore_mk (bs as : List α) :
    (⟨bs, as⟩ : CursorList α).insertBefore x = ⟨bs, x :: as⟩ := rfl

@[simp] theorem toList_removeForward (bs as : List α) (a : α) :
    (⟨bs, a :: as⟩ : CursorList α).removeForward.toList = bs.reverse ++ as := by
  cases as <;> simp [removeForward]

/-- The cursor is at an element after `removeForward`, if there is one. -/
theorem removeForward_after (bs as : List α) (a : α) (h : bs.reverse ++ as ≠ []) :
    (⟨bs, a :: as⟩ : CursorList α).removeForward.After ≠ [] := by
  cases as with
  | nil => simpa [removeForward] using h
  | cons => simp [removeForward]

@[simp] theorem removeBackward_cons (bs as : List α) (a b : α) :
    (⟨b :: bs, a :: as⟩ : CursorList α).removeBackward = ⟨bs, b :: as⟩ := rfl

@[simp] theorem toList_unlinkToNext (bs as : List α) (a : α) :
    (⟨bs, a :: as⟩ : CursorList α).unlinkToNext.toList = bs.reverse ++ as := rfl

@[simp] theorem toList_unlinkToPrevious (bs as : List α) (a : α) :
    (⟨bs, a :: as⟩ : CursorList α).unlinkToPrevious.toList = bs.reverse ++ as := by
  cases bs <;> simp [unlinkToPrevious]

/-- A search forwards passes over the elements without the property. -/
theorem seekForward_spec (p : α → Bool) (before after : List α) : ∃ as as',
    after = as ++ as' ∧ seekForward p before after = ⟨as.reverse ++ before, as'⟩ ∧
      (∀ a ∈ as, p a = false) ∧ ∀ a ∈ as'.head?, p a = true := by
  induction after generalizing before with
  | nil => exact ⟨[], [], rfl, rfl, by simp, by simp⟩
  | cons a after ih =>
    unfold seekForward
    by_cases hp : p a = true
    · rw [if_pos hp]
      exact ⟨[], a :: after, rfl, rfl, by simp, by simpa using hp⟩
    · obtain ⟨as, as', rfl, hseek, hpass, hstop⟩ := ih (a :: before)
      rw [if_neg hp, hseek]
      refine ⟨a :: as, as', rfl, by simp, fun x hx => ?_, hstop⟩
      obtain rfl | hx := List.mem_cons.mp hx
      · exact Bool.not_eq_true _ ▸ hp
      · exact hpass x hx

/-- A search backwards that finds nothing ends at the anchor, one that finds an element at it. -/
theorem seekBackward_spec (p : α → Bool) (before : List α) (a : α) (after : List α) :
    ((∀ x ∈ a :: before, p x = false) ∧
      seekBackward p before a after = ⟨(before.reverse ++ a :: after).reverse, []⟩) ∨
    ∃ bs x bs', a :: before = bs ++ x :: bs' ∧ p x = true ∧ (∀ y ∈ bs, p y = false) ∧
      seekBackward p before a after = ⟨bs', x :: (bs.reverse ++ after)⟩ := by
  induction before generalizing a after with
  | nil =>
    unfold seekBackward
    by_cases hp : p a = true
    · rw [if_pos hp]
      exact .inr ⟨[], a, [], rfl, hp, by simp, rfl⟩
    · rw [if_neg hp]
      refine .inl ⟨fun x hx => ?_, rfl⟩
      rw [List.mem_singleton.mp hx]
      exact Bool.not_eq_true _ ▸ hp
  | cons b before ih =>
    unfold seekBackward
    by_cases hp : p a = true
    · rw [if_pos hp]
      exact .inr ⟨[], a, b :: before, rfl, hp, by simp, rfl⟩
    · rw [if_neg hp]
      have hfalse : p a = false := Bool.not_eq_true _ ▸ hp
      obtain ⟨hpass, hseek⟩ | ⟨bs, x, bs', heq, hx, hpass, hseek⟩ := ih b (a :: after)
      · refine .inl ⟨fun x hx => ?_, by rw [hseek]; simp⟩
        obtain rfl | hx := List.mem_cons.mp hx
        · exact hfalse
        · exact hpass x hx
      · refine .inr ⟨a :: bs, x, bs', by rw [heq]; rfl, hx, fun y hy => ?_, by rw [hseek]; simp⟩
        obtain rfl | hy := List.mem_cons.mp hy
        · exact hfalse
        · exact hpass y hy

end CursorList
