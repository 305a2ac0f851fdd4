import Mathlib.Logic.Basic

/-!
# LabelSelector — objects selected by their labels

A selector is a list of requirements, all of which hold for the labels of an object.  `notin` and
`!=` hold as well where the label is not there.
-/

abbrev Labels := List (String × String)

inductive Requirement
  | isIn (key : String) (values : List String)
  | notIn (key : String) (values : List String)
  | equals (key value : String)
  | notEquals (key value : String)
  deriving DecidableEq, Repr

abbrev Selector := List Requirement

namespace Requirement

def holds (labels : Labels) : Requirement → Bool
  | isIn key values => (labels.lookup key).any fun value => value ∈ values
  | notIn key values => (labels.lookup key).all fun value => value ∉ values
  | equals key value => labels.lookup key = some value
  | notEquals key value => labels.lookup key ≠ some value

def text : Requirement → String
  | isIn key values => key ++ " in (" ++ ",".intercalate values ++ ")"
  | notIn key values => key ++ " notin (" ++ ",".intercalate values ++ ")"
  | equals key value => key ++ "=" ++ value
  | notEquals key value => key ++ "!=" ++ value

/-- The requirement that holds where this one does not. -/
def negate : Requirement → Requirement
  | isIn key values => notIn key values
  | notIn key values => isIn key values
  | equals key value => notEquals key value
  | notEquals key value => equals key value

variable {labels : Labels} {key value : String} {values : List String}

theorem holds_isIn : (isIn key values).holds labels = true ↔
    ∃ value ∈ values, labels.lookup key = some value := by
  rw [holds]
  cases labels.lookup key with
  | none => simp
  | some value => simp

theorem holds_equals :
    (equals key value).holds labels = true ↔ labels.lookup key = some value := by
  unfold holds
  exact decide_eq_true_iff

@[simp] theorem holds_negate (r : Requirement) : r.negate.holds labels = !r.holds labels := by
  cases r with
  | isIn key values =>
    rw [negate, holds, holds]
    cases labels.lookup key <;> simp
  | notIn key values =>
    rw [negate, holds, holds]
    cases labels.lookup key <;> simp
  | equals key value =>
    unfold negate holds
    exact decide_not
  | notEquals key value =>
    unfold negate holds
    simp

end Requirement

namespace Selector

variable {labels : Labels}

def selects (selector : Selector) (labels : Labels) : Bool :=
  selector.all fun requirement => requirement.holds labels

def text (selector : Selector) : String := ",".intercalate (selector.map Requirement.text)

@[simp] theorem selects_singleton (r : Requirement) : selects [r] labels = r.holds labels :=
  Bool.and_true _

/-- What none of the requirements hold for -/
theorem selects_map_negate (selector : Selector) :
    selects (selector.map Requirement.negate) labels = true ↔
      ∀ requirement ∈ selector, requirement.holds labels = false := by
  unfold selects
  rw [List.all_map, List.all_eq_true]
  refine forall₂_congr fun requirement _ => ?_
  show requirement.negate.holds labels = true ↔ _
  rw [Requirement.holds_negate, Bool.not_eq_true']

end Selector
