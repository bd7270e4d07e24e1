import Mathlib.Data.Set.BooleanAlgebra
import Mathlib.Logic.Relation
import Mathlib.Order.CompletePartialOrder

/-!
# Objects that are constructed and destroyed

A store constructs objects before it first hands them out and destroys them before it gives their
memory back; the constructor may refuse. Constructor and destructor act on a state that the store knows
nothing about. What the store does to that state is a sequence of `Step`s: an object that is not
constructed is constructed, or refused, or one that is constructed is destroyed. So what the
constructor and the destructor preserve, the store preserves (`Steps.invariant`), whatever its order,
and next to other stores with objects of their own (`Steps.frame`).
-/

namespace Construction

variable {α σ : Type*}

/-- A constructor that may refuse, and a destructor. -/
structure Life (α σ : Type*) where
  Make : α → σ → σ → Prop
  Refuse : α → σ → σ → Prop
  destroy : α → σ → σ

/-- One step of a store of objects in `D`: the constructed objects and the state. -/
inductive Step (life : Life α σ) (D : Set α) : Set α × σ → Set α × σ → Prop
  | make {K : Set α} {s s' : σ} {o : α} (hD : o ∈ D) (hK : o ∉ K) (h : life.Make o s s') :
    Step life D (K, s) (insert o K, s')
  | refuse {K : Set α} {s s' : σ} {o : α} (hD : o ∈ D) (hK : o ∉ K) (h : life.Refuse o s s') :
    Step life D (K, s) (K, s')
  | destroy {K : Set α} {s : σ} {o : α} (hD : o ∈ D) (hK : o ∈ K) :
    Step life D (K, s) (K \ {o}, life.destroy o s)

/-- Any number of steps. -/
def Steps (life : Life α σ) (D : Set α) : Set α × σ → Set α × σ → Prop :=
  Relation.ReflTransGen (Step life D)

variable {life : Life α σ} {D D' : Set α} {x y z : Set α × σ} {K K' R : Set α} {s s' : σ}

/-- What the constructor and the destructor preserve. -/
structure Preserved (life : Life α σ) (Inv : Set α → σ → Prop) : Prop where
  make : ∀ {K s s' o}, Inv K s → o ∉ K → life.Make o s s' → Inv (insert o K) s'
  refuse : ∀ {K s s' o}, Inv K s → o ∉ K → life.Refuse o s s' → Inv K s'
  destroy : ∀ {K s o}, Inv K s → o ∈ K → Inv (K \ {o}) (life.destroy o s)

namespace Steps

theorem refl (x : Set α × σ) : Steps life D x x := Relation.ReflTransGen.refl

theorem single (h : Step life D x y) : Steps life D x y := Relation.ReflTransGen.single h

theorem trans (h : Steps life D x y) (h' : Steps life D y z) : Steps life D x z :=
  Relation.ReflTransGen.trans h h'

theorem mono (h : Steps life D x y) (hD : D ⊆ D') : Steps life D' x y := by
  induction h with
  | refl => exact refl _
  | tail _ hst ih =>
    apply ih.trans ∘ single
    cases hst with
    | make hD' hK hm => exact .make (hD hD') hK hm
    | refuse hD' hK hr => exact .refuse (hD hD') hK hr
    | destroy hD' hK => exact .destroy (hD hD') hK

/-- **The invariant rule.** -/
theorem invariant {Inv : Set α → σ → Prop} (hp : Preserved life Inv) (h : Steps life D x y)
    (hx : Inv x.1 x.2) : Inv y.1 y.2 := by
  induction h with
  | refl => exact hx
  | tail _ hst ih =>
    cases hst with
    | make _ hK hm => exact hp.make ih hK hm
    | refuse _ hK hr => exact hp.refuse ih hK hr
    | destroy _ hK => exact hp.destroy ih hK

/-- **The frame rule**: the objects of other stores are left alone. -/
theorem frame (h : Steps life D x y) (hR : Disjoint D R) :
    Steps life D (x.1 ∪ R, x.2) (y.1 ∪ R, y.2) := by
  have hout : ∀ {o}, o ∈ D → o ∉ R := fun hD hR' => Set.disjoint_left.mp hR hD hR'
  induction h with
  | refl => exact refl _
  | tail _ hst ih =>
    apply ih.trans ∘ single
    cases hst with
    | @make K s s' o hD hK hm =>
      rw [Set.insert_union]
      exact .make hD (fun ho => ho.elim hK (hout hD)) hm
    | refuse hD hK hr => exact .refuse hD (fun ho => ho.elim hK (hout hD)) hr
    | @destroy K s o hD hK =>
      have heq : K \ {o} ∪ R = (K ∪ R) \ {o} := by
        rw [Set.union_sdiff_distrib, Set.sdiff_singleton_eq_self (hout hD)]
      rw [heq]
      exact .destroy hD (.inl hK)

end Steps

end Construction
