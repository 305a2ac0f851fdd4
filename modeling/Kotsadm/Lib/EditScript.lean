import Mathlib.Data.List.Count

/-!
# EditScript — what a diff of two sequences is

A script is a list of chunks that are equal in both sequences, deleted from the first one, or
inserted into the second one.
-/

namespace EditScript

inductive Operation where
  | delete
  | insert
  | equal
deriving DecidableEq

structure Edit (α : Type*) where
  type : Operation
  part : List α
deriving DecidableEq

variable {α : Type*}

def ofType (type : Operation) (script : List (Edit α)) : List (Edit α) :=
  script.filter fun edit => edit.type = type

def text (script : List (Edit α)) : List α := script.flatMap Edit.part

/-- What is not inserted. -/
def source (script : List (Edit α)) : List α :=
  text (script.filter fun edit => edit.type ≠ .insert)

/-- What is not deleted. -/
def target (script : List (Edit α)) : List α :=
  text (script.filter fun edit => edit.type ≠ .delete)

structure Spells (script : List (Edit α)) (a b : List α) : Prop where
  source : source script = a
  target : target script = b

/-- No chunk is inserted or deleted. -/
def Unchanged (script : List (Edit α)) : Prop :=
  ofType .insert script = [] ∧ ofType .delete script = []

variable {script : List (Edit α)} {a b : List α}

/-- A script without insertions and deletions spells the same twice. -/
theorem Spells.eq_of_unchanged (h : Spells script a b) (hunchanged : Unchanged script) : a = b := by
  obtain ⟨hinsert, hdelete⟩ := hunchanged
  have hsource : (script.filter fun edit => edit.type ≠ .insert) = script := by
    apply List.filter_eq_self.mpr
    intro edit hedit
    have hne := List.filter_eq_nil_iff.mp hinsert edit hedit
    simpa using hne
  have htarget : (script.filter fun edit => edit.type ≠ .delete) = script := by
    apply List.filter_eq_self.mpr
    intro edit hedit
    have hne := List.filter_eq_nil_iff.mp hdelete edit hedit
    simpa using hne
  have ha : text script = a := by
    rw [← h.source, EditScript.source, hsource]
  have hb : text script = b := by
    rw [← h.target, EditScript.target, htarget]
  exact ha.symm.trans hb

/-- A diff of texts that spells both, and finds nothing between equal ones. -/
structure Faithful (diff : String → String → List (Edit Char)) : Prop where
  spells : ∀ a b, Spells (diff a b) a.toList b.toList
  unchanged : ∀ a, Unchanged (diff a a)

theorem Faithful.unchanged_iff {diff : String → String → List (Edit Char)} (h : Faithful diff)
    {a b : String} : Unchanged (diff a b) ↔ a = b := by
  constructor
  · intro hunchanged
    exact String.toList_injective ((h.spells a b).eq_of_unchanged hunchanged)
  · rintro rfl
    exact h.unchanged a

section

variable [DecidableEq α]

theorem count_text_cons (x : α) (edit : Edit α) (script : List (Edit α)) :
    (text (edit :: script)).count x = edit.part.count x + (text script).count x := by
  unfold text
  rw [List.flatMap_cons, List.count_append]

/-- What is inserted is in the target only, and what is deleted in the source only. -/
theorem count_source_add (x : α) (script : List (Edit α)) :
    (source script).count x + (text (ofType .insert script)).count x =
      (target script).count x + (text (ofType .delete script)).count x := by
  induction script with
  | nil => rfl
  | cons edit script ih =>
    unfold source target ofType at ih ⊢
    simp only [ne_eq, decide_not] at ih ⊢
    cases htype : edit.type with
    | delete => simp [htype, count_text_cons]; omega
    | insert => simp [htype, count_text_cons]; omega
    | equal => simp [htype, count_text_cons]; omega

theorem Spells.count_add (h : Spells script a b) (x : α) :
    a.count x + (text (ofType .insert script)).count x =
      b.count x + (text (ofType .delete script)).count x := by
  rw [← h.source, ← h.target]
  exact count_source_add x script

/-- The script that replaces all of the source, if anything changes. -/
def replaceAll (a b : List α) : List (Edit α) :=
  if a = b then [⟨.equal, a⟩]
  else [⟨.delete, a⟩, ⟨.insert, b⟩].filter fun edit => edit.part ≠ []

theorem spells_replaceAll (a b : List α) : Spells (replaceAll a b) a b := by
  unfold replaceAll
  split
  next h =>
    subst h
    exact ⟨by simp [source, text], by simp [target, text]⟩
  next h =>
    constructor
    · cases a <;> cases b <;> simp_all [source, text]
    · cases a <;> cases b <;> simp_all [target, text]

theorem unchanged_replaceAll (a : List α) : Unchanged (replaceAll a a) := by
  unfold replaceAll
  rw [if_pos rfl]
  exact ⟨rfl, rfl⟩

end

end EditScript
