import Kotsadm.Lib.Throws

/-!
# TwoRuns — two runs of computations that may throw

`Except.Related R x y`: the two runs throw the same error, or both return and `R` relates what they
return.  A relation between the inputs is carried through a program with `Related.bind`.
-/

universe u v

namespace Except

inductive Related {ε α β : Type*} (R : α → β → Prop) : Except ε α → Except ε β → Prop where
  | ok {a : α} {b : β} (h : R a b) : Related R (.ok a) (.ok b)
  | error (e : ε) : Related R (.error e) (.error e)

namespace Related

theorem refl {ε α : Type*} {R : α → α → Prop} (hR : ∀ a, R a a) (x : Except ε α) :
    Related R x x := by
  cases x with
  | error e => exact .error e
  | ok a => exact .ok (hR a)

theorem mapError {ε ε' α β : Type*} {R : α → β → Prop} {x : Except ε α} {y : Except ε β}
    (h : Related R x y) (f : ε → ε') : Related R (x.mapError f) (y.mapError f) := by
  cases h with
  | ok hab => exact .ok hab
  | error e => exact .error (f e)

theorem mono {ε α β : Type*} {R S : α → β → Prop} {x : Except ε α} {y : Except ε β}
    (h : Related R x y) (himp : ∀ a b, R a b → S a b) : Related S x y := by
  cases h with
  | ok hab => exact .ok (himp _ _ hab)
  | error e => exact .error e

/-- Related first parts, and related rests from related values. -/
theorem bind {ε : Type*} {α γ : Type u} {β δ : Type v} {R : α → β → Prop} {S : γ → δ → Prop}
    {x : Except ε α} {y : Except ε β} {f : α → Except ε γ} {g : β → Except ε δ} (h : Related R x y)
    (hrest : ∀ a b, R a b → Related S (f a) (g b)) : Related S (x >>= f) (y >>= g) := by
  cases h with
  | ok hab => exact hrest _ _ hab
  | error e => exact .error e

/-- The first part is the same in both runs. -/
theorem same {ε : Type*} {α γ δ : Type u} {S : γ → δ → Prop} (x : Except ε α)
    {f : α → Except ε γ} {g : α → Except ε δ} (hrest : ∀ a, Related S (f a) (g a)) :
    Related S (x >>= f) (x >>= g) := by
  cases x with
  | error e => exact .error e
  | ok a => exact hrest a

/-- Both runs take the same branch. -/
theorem ite {ε α β : Type*} {R : α → β → Prop} {P Q : Prop} [Decidable P] [Decidable Q]
    {x x' : Except ε α} {y y' : Except ε β} (hiff : P ↔ Q) (hthen : Related R x y)
    (helse : Related R x' y') : Related R (if P then x else x') (if Q then y else y') := by
  by_cases hP : P
  · rw [if_pos hP, if_pos (hiff.mp hP)]
    exact hthen
  · have hQ : ¬ Q := fun hQ => hP (hiff.mpr hQ)
    rw [if_neg hP, if_neg hQ]
    exact helse

end Related

end Except
