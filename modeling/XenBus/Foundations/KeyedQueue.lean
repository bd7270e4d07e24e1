import Mathlib.Data.List.Basic
import Mathlib.Data.List.Nodup

/-!
# One list for the queues of many keys

A list of items, each with a key and a value, holds a queue of values for every key: the values of the
items with that key, in the order of the list (`queue`). An item that is appended goes to the end of the
queue of its key, the first item with a key is the head of that queue, and neither the one nor the
removal of the other touches the queue of another key.
-/

namespace KeyedQueue

variable {α κ β : Type*} [DecidableEq κ] {entry entry' : α → Option (κ × β)} {k k' : κ} {l : List α}
  {x : α} {v : β}

/-- The value of an item if it has the key. -/
def valueOf (entry : α → Option (κ × β)) (k : κ) (x : α) : Option β :=
  (entry x).bind fun e => if e.1 = k then some e.2 else none

/-- The queue of a key. -/
def queue (entry : α → Option (κ × β)) (k : κ) (l : List α) : List β := l.filterMap (valueOf entry k)

theorem valueOf_self (h : entry x = some (k, v)) : valueOf entry k x = some v := by simp [valueOf, h]

theorem valueOf_of_ne (h : entry x = some (k', v)) (hk : k' ≠ k) : valueOf entry k x = none := by
  simp [valueOf, h, hk]

theorem queue_append (l l' : List α) : queue entry k (l ++ l') = queue entry k l ++ queue entry k l' :=
  List.filterMap_append

theorem queue_cons_of_none (h : valueOf entry k x = none) : queue entry k (x :: l) = queue entry k l :=
  List.filterMap_cons_none h

theorem queue_cons_of_some (h : valueOf entry k x = some v) :
    queue entry k (x :: l) = v :: queue entry k l := List.filterMap_cons_some h

/-- Only what the items of the list hold matters. -/
theorem queue_congr (h : ∀ x ∈ l, entry x = entry' x) : queue entry k l = queue entry' k l :=
  List.filterMap_congr fun x hx => by rw [valueOf, valueOf, h x hx]

theorem queue_eq_nil (h : ∀ x ∈ l, valueOf entry k x = none) : queue entry k l = [] :=
  List.filterMap_eq_nil_iff.mpr h

/-- An item is appended to the queue of its key. -/
theorem queue_concat (h : entry x = some (k, v)) :
    queue entry k (l ++ [x]) = queue entry k l ++ [v] := by
  rw [queue_append, queue_cons_of_some (valueOf_self h)]
  rfl

theorem queue_concat_of_ne (h : entry x = some (k', v)) (hk : k' ≠ k) :
    queue entry k (l ++ [x]) = queue entry k l := by
  rw [queue_append, queue_cons_of_none (valueOf_of_ne h hk)]
  exact List.append_nil _

/-! ## The first item with a key -/

/-- The first item with a key is the head of its queue, and the queue without it is the tail. -/
theorem queue_split {pre post : List α} (hpre : ∀ y ∈ pre, valueOf entry k y = none)
    (h : entry x = some (k, v)) :
    queue entry k (pre ++ x :: post) = v :: queue entry k (pre ++ post) := by
  rw [queue_append, queue_append, queue_eq_nil hpre, queue_cons_of_some (valueOf_self h)]
  rfl

/-- The removal of an item leaves the queues of the other keys as they are. -/
theorem queue_split_of_ne {pre post : List α} (h : entry x = some (k', v)) (hk : k' ≠ k) :
    queue entry k (pre ++ x :: post) = queue entry k (pre ++ post) := by
  rw [queue_append, queue_append, queue_cons_of_none (valueOf_of_ne h hk)]

end KeyedQueue
