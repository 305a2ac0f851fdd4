import Mathlib.Data.List.Perm.Basic

/-!
# Reorder — functions that only reorder a list

The order in which a hash map is walked is not specified, nor is what an unstable sort does to
equal elements.  Both are functions that return the elements they get, in some order.
-/

/-- A function that returns its list in another order. -/
structure Reorder (α : Type*) where
  apply : List α → List α
  perm : ∀ l, (apply l).Perm l

namespace Reorder

variable {α β : Type*} (o : Reorder α)

@[simp] theorem mem_apply {a : α} {l : List α} : a ∈ o.apply l ↔ a ∈ l := (o.perm l).mem_iff

theorem map_perm (f : α → β) (l : List α) : ((o.apply l).map f).Perm (l.map f) :=
  (o.perm l).map f

/-- The order of the list. -/
def id (α : Type*) : Reorder α where
  apply l := l
  perm := List.Perm.refl

/-- The order that puts an element first, if it is there. -/
def first [DecidableEq α] (a : α) : Reorder α where
  apply l := if a ∈ l then a :: l.erase a else l
  perm l := by
    split
    next h => exact (List.perm_cons_erase h).symm
    next => exact List.Perm.refl l

theorem apply_first [DecidableEq α] {a : α} {l : List α} (h : a ∈ l) :
    (first a).apply l = a :: l.erase a :=
  if_pos h

end Reorder
