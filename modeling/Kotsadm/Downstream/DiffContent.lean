import Kotsadm.Lib.EditScript

/-!
# DiffContent — the lines that changed in one file

`diffContent` counts the chunks of a line diff, whatever their length, and it asks for the diff
from the updated text to the base one, so what was added is deleted there.
-/

namespace Kotsadm.Downstream

open EditScript

/-- The functions of `diffmatchpatch` that are called. -/
structure DiffMatchPatch where
  diffLinesToChars : String → String → List Char × List Char × List String
  diffMain : List Char → List Char → (checklines : Bool) → List (Edit Char)
  diffCharsToLines : List (Edit Char) → List String → List (Edit Char)

/-- The line diff of two texts. -/
def DiffMatchPatch.diffs (dmp : DiffMatchPatch) (text1 text2 : String) : List (Edit Char) :=
  let (charsA, charsB, lines) := dmp.diffLinesToChars text1 text2
  dmp.diffCharsToLines (dmp.diffMain charsA charsB false) lines

/-- The equal and deleted parts spell the first text, the equal and inserted ones the second. -/
def DiffMatchPatch.Correct (dmp : DiffMatchPatch) : Prop :=
  ∀ text1 text2, Spells (dmp.diffs text1 text2) text1.toList text2.toList

/-- Additions, deletions and an error, which is never there. -/
def diffContent (dmp : DiffMatchPatch) (updatedContent baseContent : String) :
    Except String (Nat × Nat) :=
  .ok ((dmp.diffs updatedContent baseContent).foldl (fun (additions, deletions) diff =>
    if diff.type = .delete then (additions, deletions + 1)
    else if diff.type = .insert then (additions + 1, deletions)
    else (additions, deletions)) (0, 0))

/-- A last line without a newline. -/
def unfinished (text : List Char) : Nat :=
  match text.getLast? with
  | none => 0
  | some c => if c = '\n' then 0 else 1

def lineCount (text : String) : Nat := text.toList.count '\n' + unfinished text.toList

/-- The counts balance: they say how many lines more there are, they are zero for equal texts
only, and they are swapped with the texts. -/
def Balances (dmp : DiffMatchPatch) (updated base : String) : Prop :=
  ∃ additions deletions, diffContent dmp updated base = .ok (additions, deletions) ∧
    (additions : Int) - deletions = (lineCount updated : Int) - lineCount base ∧
    (additions = 0 ∧ deletions = 0 ↔ updated = base) ∧
    diffContent dmp base updated = .ok (deletions, additions)

def chunks (type : Operation) (diffs : List (Edit Char)) : Nat := (ofType type diffs).length

/-- The chunks with the newlines in them. -/
def chunksAndNewlines (type : Operation) (diffs : List (Edit Char)) : Nat :=
  chunks type diffs + (text (ofType type diffs)).count '\n'

/-- What has to be true of the chunks. -/
structure ChunksBalance (dmp : DiffMatchPatch) (updated base : String) : Prop where
  newlines : chunksAndNewlines .insert (dmp.diffs updated base) + unfinished base.toList =
    chunksAndNewlines .delete (dmp.diffs updated base) + unfinished updated.toList
  equal : updated = base → Unchanged (dmp.diffs updated base)
  inserted : chunks .insert (dmp.diffs base updated) = chunks .delete (dmp.diffs updated base)
  deleted : chunks .delete (dmp.diffs base updated) = chunks .insert (dmp.diffs updated base)

section

variable {dmp : DiffMatchPatch} {updated base : String}

/-- Chunks are counted, not lines. -/
theorem diffContent_eq : diffContent dmp updated base =
    .ok (chunks .insert (dmp.diffs updated base), chunks .delete (dmp.diffs updated base)) := by
  -- the induction is on the chunks, with any counts before them
  have hfold : ∀ (diffs : List (Edit Char)) (additions deletions : Nat),
      diffs.foldl (fun ((additions, deletions) : Nat × Nat) diff =>
        if diff.type = .delete then (additions, deletions + 1)
        else if diff.type = .insert then (additions + 1, deletions)
        else (additions, deletions)) (additions, deletions) =
      (additions + chunks .insert diffs, deletions + chunks .delete diffs) := by
    intro diffs
    induction diffs with
    | nil =>
      intro additions deletions
      rfl
    | cons diff diffs ih =>
      intro additions deletions
      unfold chunks ofType at ih ⊢
      rw [List.foldl_cons]
      cases htype : diff.type with
      | delete => simp [htype, ih]; omega
      | insert => simp [htype, ih]; omega
      | equal => simp [htype, ih]
  unfold diffContent
  rw [hfold]
  simp

theorem chunks_eq_zero_iff {type : Operation} {diffs : List (Edit Char)} :
    chunks type diffs = 0 ↔ ofType type diffs = [] :=
  List.length_eq_zero_iff

theorem unchanged_iff {diffs : List (Edit Char)} :
    Unchanged diffs ↔ chunks .insert diffs = 0 ∧ chunks .delete diffs = 0 := by
  rw [chunks_eq_zero_iff, chunks_eq_zero_iff]
  rfl

end

/-- A library that finds no common lines. -/
def replacing : DiffMatchPatch where
  diffLinesToChars text1 text2 := (text1.toList, text2.toList, [])
  diffMain charsA charsB _ := replaceAll charsA charsB
  diffCharsToLines diffs _ := diffs

theorem correct_replacing : replacing.Correct := fun _ _ => spells_replaceAll _ _

end Kotsadm.Downstream
