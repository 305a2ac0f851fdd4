import Kotsadm.Lib.Reorder

/-!
# GoSort — what `sort.Sort` promises

`sort.Sort` sorts when `Less` is a strict weak order of the elements.  For any other `Less` it
returns the elements in some order.
-/

namespace GoSort

variable {α : Type*} (less : α → α → Bool)

/-- `less` is a strict weak order of the elements of the list. -/
structure StrictWeak (xs : List α) : Prop where
  asymm : ∀ a ∈ xs, ∀ b ∈ xs, less a b = true → less b a = false
  trans : ∀ a ∈ xs, ∀ b ∈ xs, ∀ c ∈ xs,
    less a b = false → less b c = false → less a c = false

/-- No element is less than one before it. -/
def Sorted (xs : List α) : Prop := xs.Pairwise fun a b => less b a = false

/-- What is documented of `sort.Sort`. -/
def Sorts (sort : Reorder α) : Prop := ∀ xs, StrictWeak less xs → Sorted less (sort.apply xs)

variable {less}

theorem StrictWeak.of_perm {xs ys : List α} (h : StrictWeak less xs) (hperm : ys.Perm xs) :
    StrictWeak less ys where
  asymm a ha b hb := h.asymm a (hperm.mem_iff.mp ha) b (hperm.mem_iff.mp hb)
  trans a ha b hb c hc :=
    h.trans a (hperm.mem_iff.mp ha) b (hperm.mem_iff.mp hb) c (hperm.mem_iff.mp hc)

theorem StrictWeak.of_cons {x : α} {xs : List α} (h : StrictWeak less (x :: xs)) :
    StrictWeak less xs where
  asymm a ha b hb := h.asymm a (.tail x ha) b (.tail x hb)
  trans a ha b hb c hc := h.trans a (.tail x ha) b (.tail x hb) c (.tail x hc)

/-! ## Insertion sort -/

variable (less)

/-- The inner loop of `insertionSort`, where the elements before `x` come in the reverse order. -/
def sink (x : α) : List α → List α
  | [] => [x]
  | y :: ys => if less x y then y :: sink x ys else x :: y :: ys

/-- The outer loop. -/
def insertAll (sorted : List α) : List α → List α
  | [] => sorted
  | x :: xs => insertAll (sink less x sorted) xs

variable {less}

theorem sink_perm (x : α) (ys : List α) : (sink less x ys).Perm (x :: ys) := by
  induction ys with
  | nil => exact .refl _
  | cons y ys ih =>
    rw [sink]
    split
    · exact (ih.cons y).trans (.swap x y ys)
    · exact .refl _

theorem insertAll_perm (sorted xs : List α) : (insertAll less sorted xs).Perm (sorted ++ xs) := by
  induction xs generalizing sorted with
  | nil =>
    rw [List.append_nil]
    exact .refl _
  | cons x xs ih =>
    rw [insertAll]
    have hsink : (sink less x sorted ++ xs).Perm (x :: sorted ++ xs) :=
      (sink_perm x sorted).append_right xs
    exact (ih _).trans (hsink.trans List.perm_middle.symm)

/-- What Go makes of a slice that is too short for a quicksort. -/
def insertionSort (less : α → α → Bool) : Reorder α where
  apply xs := (insertAll less [] xs).reverse
  perm xs := (List.reverse_perm _).trans (insertAll_perm [] xs)

theorem pairwise_sink {x : α} {ys : List α} (h : StrictWeak less (x :: ys))
    (hys : ys.Pairwise fun a b => less a b = false) :
    (sink less x ys).Pairwise fun a b => less a b = false := by
  induction ys with
  | nil => exact List.pairwise_singleton _ _
  | cons y ys ih =>
    obtain ⟨hy, hrest⟩ := List.pairwise_cons.mp hys
    have hx : x ∈ x :: y :: ys := List.mem_cons_self
    have hmemY : y ∈ x :: y :: ys := List.mem_cons_of_mem x List.mem_cons_self
    rw [sink]
    split
    next hless =>
      have hweak : StrictWeak less (x :: ys) := (h.of_perm (.swap x y ys)).of_cons
      refine List.pairwise_cons.mpr ⟨fun z hz => ?_, ih hweak hrest⟩
      rcases List.mem_cons.mp ((sink_perm x ys).mem_iff.mp hz) with rfl | hz
      · exact h.asymm z hx y hmemY hless
      · exact hy z hz
    next hless =>
      have hxy : less x y = false := Bool.eq_false_iff.mpr hless
      refine List.pairwise_cons.mpr ⟨fun z hz => ?_, hys⟩
      rcases List.mem_cons.mp hz with rfl | hz
      · exact hxy
      · exact h.trans x hx y hmemY z (.tail x (.tail y hz)) hxy (hy z hz)

theorem pairwise_insertAll {sorted xs : List α} (h : StrictWeak less (sorted ++ xs))
    (hsorted : sorted.Pairwise fun a b => less a b = false) :
    (insertAll less sorted xs).Pairwise fun a b => less a b = false := by
  induction xs generalizing sorted with
  | nil => exact hsorted
  | cons x xs ih =>
    have hperm : (sink less x sorted ++ xs).Perm (sorted ++ x :: xs) :=
      ((sink_perm x sorted).append_right xs).trans List.perm_middle.symm
    have hx : StrictWeak less (x :: sorted) := by
      have hall := h.of_perm List.perm_middle.symm
      exact ⟨fun a ha b hb => hall.asymm a (List.mem_append_left xs ha) b
          (List.mem_append_left xs hb),
        fun a ha b hb c hc => hall.trans a (List.mem_append_left xs ha) b
          (List.mem_append_left xs hb) c (List.mem_append_left xs hc)⟩
    exact ih (h.of_perm hperm) (pairwise_sink hx hsorted)

theorem sorts_insertionSort : Sorts less (insertionSort less) := by
  intro xs h
  have hpairwise : (insertAll less [] xs).Pairwise fun a b => less a b = false :=
    pairwise_insertAll h List.Pairwise.nil
  exact List.pairwise_reverse.mpr hpairwise

/-! ## Without an order -/

open Classical in
/-- A sort that leaves a list alone when `less` is no order of it. -/
noncomputable def lazySort (less : α → α → Bool) : Reorder α where
  apply xs := if StrictWeak less xs then (insertionSort less).apply xs else xs
  perm xs := by
    split
    · exact (insertionSort less).perm xs
    · exact .refl xs

theorem sorts_lazySort : Sorts less (lazySort less) := by
  intro xs h
  unfold lazySort
  dsimp only
  rw [if_pos h]
  exact sorts_insertionSort xs h

theorem apply_lazySort {xs : List α} (h : ¬ StrictWeak less xs) : (lazySort less).apply xs = xs :=
  if_neg h

end GoSort
