import Kotsadm.Lib.Recursion
import Kotsadm.SupportBundle.FileTree

/-!
# Termination — the recursion over the directories ends

`getDirectoryNode` calls itself for every directory whose path begins with that of its own.  Nothing
in it counts down: what ends it is that such a path is longer, and the list has a longest one.
-/

namespace Kotsadm.SupportBundle

open GoString

variable {directories : List GoString} {d : GoString}

/-- The length of the longest path -/
def longest (directories : List GoString) : Nat :=
  directories.foldr (fun d length => max d.length length) 0

theorem length_le_longest (h : d ∈ directories) : d.length ≤ longest directories := by
  induction directories with
  | nil => cases h
  | cons first directories ih =>
    unfold longest
    rw [List.foldr_cons]
    rcases List.mem_cons.mp h with rfl | hmem
    · exact Nat.le_max_left _ _
    · exact (ih hmem).trans (Nat.le_max_right _ _)

/-- The body of `getDirectoryNode`, with what its calls return. -/
def directoryNode (files : List GoString) (directory : GoString)
    (children : List (FileTreeNode × FileTree)) : FileTreeNode × FileTree :=
  ({ name := directory, path := directory },
    Forest.leaves ((filesOf directory files).map fun file =>
      { name := (splitPath file).2, path := file }) ++
    Forest.ofList children)

/-- A call is for a longer path of the list. -/
theorem rises_directoriesOf (directories : List GoString) :
    Recursion.Rises (fun d => directoriesOf d directories) List.length (longest directories) where
  lt _ _ hd := (length_lt_of_mem hd).1
  le _ _ hd := length_le_longest (mem_directoriesOf.mp hd).1

/-- **The recursion ends**: every call is for a directory of the list with a longer path, so that
calls come to an end; no more of them are nested than the longest path is longer, and with a stack
for that many `getDirectoryNode` returns its node. -/
theorem getDirectoryNode_ends (directories files : List GoString) (directory : GoString) :
    (∀ d ∈ directoriesOf directory directories,
      d ∈ directories ∧ directory.length < d.length) ∧
    (WellFounded fun d' d => d' ∈ directoriesOf d directories) ∧
    (∀ nested, List.IsChain (fun d d' => d' ∈ directoriesOf d directories) (directory :: nested) →
      nested.length ≤ longest directories - directory.length) ∧
    ∀ depth, longest directories - directory.length < depth →
      Recursion.run (fun d => directoriesOf d directories) (directoryNode files) depth directory =
        some (getDirectoryNode directories files directory) := by
  have hrises := rises_directoriesOf directories
  refine ⟨fun d hd => ⟨(mem_directoriesOf.mp hd).1, hrises.lt directory d hd⟩,
    hrises.wellFounded, fun nested => hrises.length_le, fun depth hdepth => ?_⟩
  exact hrises.run_eq_some (getDirectoryNode_eq directories files) hdepth

end Kotsadm.SupportBundle
