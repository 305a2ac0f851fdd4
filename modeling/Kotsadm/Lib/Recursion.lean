import Mathlib.Data.List.Chain
import Mathlib.Order.WellFounded

/-!
# Recursion — a function that calls itself for the elements of a list

What the calls return is combined to what the function returns.  It is run with a stack of limited
depth: a call for which no place is left ends the whole run without a result.
-/

namespace Recursion

variable {α β : Type*} {calls : α → List α} {combine : α → List β → β}

def run (calls : α → List α) (combine : α → List β → β) : Nat → α → Option β
  | 0, _ => none
  | depth + 1, a => ((calls a).mapM (run calls combine depth)).map (combine a)

/-- Every call has a higher rank than its caller, up to a bound. -/
structure Rises (calls : α → List α) (rank : α → Nat) (bound : Nat) : Prop where
  lt : ∀ a, ∀ b ∈ calls a, rank a < rank b
  le : ∀ a, ∀ b ∈ calls a, rank b ≤ bound

theorem mapM_eq_some_map {f : α → Option β} {g : α → β} {l : List α}
    (h : ∀ a ∈ l, f a = some (g a)) : l.mapM f = some (l.map g) := by
  induction l with
  | nil => rfl
  | cons a l ih =>
    obtain ⟨ha, hl⟩ := List.forall_mem_cons.mp h
    rw [List.mapM_cons, ha, ih hl]
    rfl

section

variable {rank : α → Nat} {bound : Nat}

/-- The calls come to an end. -/
theorem Rises.wellFounded (h : Rises calls rank bound) : WellFounded fun b a => b ∈ calls a := by
  refine Subrelation.wf (fun {b a} hb => ?_) (measure fun a => bound - rank a).wf
  have hlt := h.lt a b hb
  have hle := h.le a b hb
  show bound - rank b < bound - rank a
  omega

/-- No more calls are nested than there are ranks left. -/
theorem Rises.length_le (h : Rises calls rank bound) {a : α} {nested : List α}
    (hchain : List.IsChain (fun a b => b ∈ calls a) (a :: nested)) :
    nested.length ≤ bound - rank a := by
  induction nested generalizing a with
  | nil => exact Nat.zero_le _
  | cons b nested ih =>
    obtain ⟨hb, hrest⟩ := List.isChain_cons_cons.mp hchain
    have hlt := h.lt a b hb
    have hle := h.le a b hb
    have hlength := ih hrest
    rw [List.length_cons]
    omega

/-- With a place for each rank that is left, the run returns what solves the equation of the
recursion. -/
theorem Rises.run_eq_some (h : Rises calls rank bound) {f : α → β}
    (hf : ∀ a, f a = combine a ((calls a).map f)) {depth : Nat} {a : α}
    (hdepth : bound - rank a < depth) : run calls combine depth a = some (f a) := by
  induction depth generalizing a with
  | zero => exact absurd hdepth (Nat.not_lt_zero _)
  | succ depth ih =>
    have hcalls : ∀ b ∈ calls a, run calls combine depth b = some (f b) := by
      intro b hb
      have hlt := h.lt a b hb
      have hle := h.le a b hb
      apply ih
      omega
    rw [run, mapM_eq_some_map hcalls, Option.map_some, ← hf]

end

end Recursion
