import Mathlib.Data.List.Nodup

/-!
# Lists of nodes with keys

A doubly linked list of nodes, each known by a key (its address): a pointer to a node is a key, and a
pointer to the list head is `none`. The operations look a node up, replace it, unlink it and follow its
forward link; on a list with distinct keys they act on the one node with the key, which is what the
lemmas say for a list split at that node.
-/

namespace KeyedList

variable {α κ : Type*} [DecidableEq κ] (key : α → κ)

/-- The node that `k` points at. -/
def lookup (l : List α) (k : κ) : Option α := l.find? fun x => key x = k

/-- The list with the contents of the node of `y` changed to `y`. -/
def replace (l : List α) (y : α) : List α := l.map fun x => if key x = key y then y else x

/-- The list without the node that `k` points at. -/
def unlink (l : List α) (k : κ) : List α := l.filter fun x => key x ≠ k

/-- Where the forward link of the node that `k` points at leads. -/
def next : List α → κ → Option κ
  | [], _ => none
  | x :: l, k => if key x = k then l.head?.map key else next l k

variable {key} {pre post l : List α} {x y : α} {k : κ}

omit [DecidableEq κ] in
/-- The keys on the two sides of a node differ from its own. -/
theorem ne_of_nodup (h : ((pre ++ x :: post).map key).Nodup) :
    (∀ z ∈ pre, key z ≠ key x) ∧ ∀ z ∈ post, key z ≠ key x := by
  rw [List.map_append, List.map_cons] at h
  obtain ⟨-, hpost, hdisj⟩ := List.nodup_append.mp h
  refine ⟨fun z hz => ?_, fun z hz heq => ?_⟩
  · exact hdisj _ (List.mem_map_of_mem hz) _ List.mem_cons_self
  · exact (List.nodup_cons.mp hpost).1 (heq ▸ List.mem_map_of_mem hz)

theorem lookup_append (h : ((pre ++ x :: post).map key).Nodup) :
    lookup key (pre ++ x :: post) (key x) = some x := by
  have hpre : pre.find? (fun z => key z = key x) = none := by
    rw [List.find?_eq_none]
    intro z hz
    simpa using (ne_of_nodup h).1 z hz
  simp [lookup, List.find?_append, hpre]

theorem lookup_eq_some (h : (l.map key).Nodup) (hx : x ∈ l) : lookup key l (key x) = some x := by
  obtain ⟨pre, post, rfl⟩ := List.append_of_mem hx
  exact lookup_append h

theorem mem_of_lookup (h : lookup key l k = some x) : x ∈ l ∧ key x = k :=
  ⟨List.mem_of_find?_eq_some h, by simpa using List.find?_some h⟩

theorem replace_of_ne (h : ∀ z ∈ l, key z ≠ key y) : replace key l y = l := by
  rw [replace]
  conv_rhs => rw [← List.map_id l]
  exact List.map_congr_left fun z hz => if_neg (h z hz)

theorem replace_append (h : ((pre ++ x :: post).map key).Nodup) (hy : key y = key x) :
    replace key (pre ++ x :: post) y = pre ++ y :: post := by
  obtain ⟨hpre, hpost⟩ := ne_of_nodup h
  have hpre' := replace_of_ne fun z hz => hy ▸ hpre z hz
  have hpost' := replace_of_ne fun z hz => hy ▸ hpost z hz
  rw [replace] at hpre' hpost' ⊢
  rw [List.map_append, List.map_cons, hpre', hpost', if_pos hy.symm]

theorem map_replace (l : List α) (y : α) : (replace key l y).map key = l.map key := by
  rw [replace, List.map_map]
  refine List.map_congr_left fun z _ => ?_
  show key (if key z = key y then y else z) = key z
  split_ifs with h
  · exact h.symm
  · rfl

theorem unlink_append (h : ((pre ++ x :: post).map key).Nodup) :
    unlink key (pre ++ x :: post) (key x) = pre ++ post := by
  obtain ⟨hpre, hpost⟩ := ne_of_nodup h
  have hpre' : pre.filter (fun z => key z ≠ key x) = pre :=
    List.filter_eq_self.mpr fun z hz => by simpa using hpre z hz
  have hpost' : post.filter (fun z => key z ≠ key x) = post :=
    List.filter_eq_self.mpr fun z hz => by simpa using hpost z hz
  simp only [unlink, List.filter_append, hpre', List.filter_cons, hpost']
  simp

theorem next_append (h : ((pre ++ x :: post).map key).Nodup) :
    next key (pre ++ x :: post) (key x) = post.head?.map key := by
  induction pre with
  | nil => simp [next]
  | cons z pre ih =>
    have hz : key z ≠ key x := (ne_of_nodup h).1 z List.mem_cons_self
    rw [List.cons_append, next, if_neg hz]
    exact ih (List.nodup_cons.mp h).2

end KeyedList
