import Kotsadm.Lib.Forest

/-!
# FileTree — the file tree of the API

`KotsApp.arrangeIntoTree` and `SupportBundle.arrangeIntoTree` are the same text: they walk along the
parts of each path and add the nodes that are not there yet.
-/

namespace Kotsadm.FileTree

/-! ## arrangeIntoTree -/

/-- The code units of a string. -/
abbrev JsString := List UInt16

/-- `"/"` -/
def slash : UInt16 := 47

/-- `path.split("/")`, without the first part if that is blank. -/
def pathParts (path : JsString) : List JsString :=
  match path.splitOn slash with
  | [] :: parts => parts
  | parts => parts

/-- A node without its `children`. -/
structure Node where
  name : JsString
  path : JsString
  deriving DecidableEq, Repr

/-- The tree, and where `currentLevel` is in it. -/
structure Walk where
  tree : Forest Node
  currentLevel : List Nat := []

/-- The body of the inner loop.  The first node with the name of the part is entered; without one, a
new node is. -/
def addPart (path : JsString) (walk : Walk) (part : JsString) : Walk :=
  let level := walk.tree.listAt walk.currentLevel
  match level.findIdx fun node => node.name = part with
  | some i => { walk with currentLevel := walk.currentLevel ++ [i] }
  | none =>
    { tree := walk.tree.modifyAt (·.push { name := part, path }) walk.currentLevel
      currentLevel := walk.currentLevel ++ [level.length] }

def addPath (tree : Forest Node) (path : JsString) : Forest Node :=
  ((pathParts path).foldl (addPart path) { tree }).tree

def arrangeIntoTree (paths : List JsString) : Forest Node := paths.foldl addPath .nil

/-! ## A path is a way through a trie -/

theorem tree_addPart_foldl (path : JsString) (parts : List JsString) (walk : Walk) :
    (parts.foldl (addPart path) walk).tree =
      walk.tree.modifyAt (Forest.insert Node.name (fun part => { name := part, path }) parts)
        walk.currentLevel := by
  induction parts generalizing walk with
  | nil => exact (Forest.modifyAt_id walk.currentLevel walk.tree).symm
  | cons part parts ih =>
    rw [List.foldl_cons, ih]
    unfold addPart
    dsimp only
    split
    next i hfound =>
      rw [Forest.modifyAt_concat]
      exact Forest.modifyAt_congr (Forest.alter_of_findIdx_eq_some _ hfound).symm
    next hfresh =>
      rw [Forest.modifyAt_concat, Forest.modifyAt_modifyAt]
      exact Forest.modifyAt_congr (Forest.alter_of_findIdx_eq_none _ hfresh).symm

/-- The two loops are insertions. -/
theorem addPath_eq (tree : Forest Node) (path : JsString) :
    addPath tree path =
      tree.insert Node.name (fun part => { name := part, path }) (pathParts path) :=
  tree_addPart_foldl path (pathParts path) { tree }

/-! ## The invariant of the outer loop -/

/-- What the tree has after some paths. -/
structure Represents (paths : List JsString) (tree : Forest Node) : Prop where
  isTrie : tree.IsTrie Node.name
  leads : ∀ way, (tree.lookup Node.name way).isSome ↔
    way ≠ [] ∧ ∃ path ∈ paths, way <+: pathParts path
  path : ∀ way node, tree.lookup Node.name way = some node →
    node.path ∈ paths ∧ way <+: pathParts node.path

section Represents

variable {paths : List JsString} {tree : Forest Node}

theorem lookup_addPath (tree : Forest Node) (path : JsString) (way : List JsString) :
    (addPath tree path).lookup Node.name way =
      (tree.lookup Node.name way).or (if way <+: pathParts path then
        way.getLast?.map fun part => { name := part, path } else none) := by
  rw [addPath_eq]
  exact Forest.lookup_insert (fun _ => rfl) (pathParts path) way tree

theorem represents_addPath (h : Represents paths tree) (path : JsString) :
    Represents (paths ++ [path]) (addPath tree path) := by
  constructor
  case isTrie =>
    rw [addPath_eq]
    exact Forest.isTrie_insert (fun _ => rfl) h.isTrie
  case leads =>
    intro way
    rw [lookup_addPath, Option.isSome_or, Bool.or_eq_true, h.leads]
    have hnew : (if way <+: pathParts path then
        way.getLast?.map fun part => ({ name := part, path } : Node) else none).isSome ↔
        way ≠ [] ∧ way <+: pathParts path := by
      split
      next hbegins => simp [hbegins]
      next hbegins => exact iff_of_false nofun fun hway => hbegins hway.2
    rw [hnew, ← and_or_left]
    simp only [List.mem_append, List.mem_singleton, or_and_right, exists_or, exists_eq_left]
  case path =>
    intro way node hlookup
    rw [lookup_addPath] at hlookup
    cases hold : tree.lookup Node.name way with
    | some old =>
      rw [hold, Option.some_or, Option.some.injEq] at hlookup
      obtain ⟨hmem, hbegins⟩ := h.path way old hold
      rw [← hlookup]
      exact ⟨List.mem_append_left [path] hmem, hbegins⟩
    | none =>
      rw [hold, Option.none_or] at hlookup
      split at hlookup
      next hbegins =>
        obtain ⟨part, -, rfl⟩ := Option.map_eq_some_iff.mp hlookup
        exact ⟨List.mem_append_right paths (List.mem_singleton.mpr rfl), hbegins⟩
      next => cases hlookup

theorem represents_foldl (h : Represents paths tree) (more : List JsString) :
    Represents (paths ++ more) (more.foldl addPath tree) := by
  induction more generalizing paths tree with
  | nil =>
    rw [List.append_nil]
    exact h
  | cons path more ih =>
    have hstep := ih (represents_addPath h path)
    rw [List.append_assoc] at hstep
    exact hstep

theorem represents_arrangeIntoTree (paths : List JsString) :
    Represents paths (arrangeIntoTree paths) := by
  have hempty : Represents [] .nil := by
    constructor
    case isTrie => exact trivial
    case leads =>
      intro way
      refine iff_of_false ?_ fun h => nomatch h.2
      cases way <;> exact nofun
    case path =>
      intro way node h
      cases way <;> cases h
  exact represents_foldl hempty paths

/-! ## Repeated paths -/

/-- The path leads through the tree. -/
def Covered (path : JsString) (tree : Forest Node) : Prop :=
  pathParts path ≠ [] → (tree.lookup Node.name (pathParts path)).isSome

theorem addPath_of_covered {path : JsString} (h : Covered path tree) :
    addPath tree path = tree := by
  rw [addPath_eq]
  exact Forest.insert_eq_self h

theorem covered_addPath_self (tree : Forest Node) (path : JsString) :
    Covered path (addPath tree path) := by
  intro hne
  rw [lookup_addPath, if_pos (List.prefix_refl _), Option.isSome_or, Bool.or_eq_true]
  right
  simpa using hne

theorem covered_addPath {path : JsString} (h : Covered path tree) (other : JsString) :
    Covered path (addPath tree other) := by
  intro hne
  rw [lookup_addPath, Option.isSome_or, h hne]
  rfl

theorem foldl_filter_of_covered {path : JsString} (h : Covered path tree) (rest : List JsString) :
    (rest.filter fun other => !other == path).foldl addPath tree = rest.foldl addPath tree := by
  induction rest generalizing tree with
  | nil => rfl
  | cons other rest ih =>
    by_cases hother : other = path
    · rw [List.filter_cons_of_neg (by simp [hother]), List.foldl_cons, hother,
        addPath_of_covered h]
      exact ih h
    · rw [List.filter_cons_of_pos (by simp [hother]), List.foldl_cons, List.foldl_cons]
      exact ih (covered_addPath h other)

theorem foldl_eraseDups (tree : Forest Node) (paths : List JsString) :
    paths.eraseDups.foldl addPath tree = paths.foldl addPath tree := by
  induction hn : paths.length using Nat.strongRecOn generalizing tree paths with
  | ind n ih =>
    cases paths with
    | nil => rfl
    | cons path rest =>
      have hless : (rest.filter fun other => !other == path).length < n := by
        have hle := List.length_filter_le (fun other => !other == path) rest
        rw [List.length_cons] at hn
        omega
      rw [List.eraseDups_cons, List.foldl_cons, List.foldl_cons, ih _ hless _ _ rfl]
      exact foldl_filter_of_covered (covered_addPath_self tree path) rest

end Represents

/-! ## The tree is a trie -/

/-- **Trie.**  Siblings have different names; the nodes are the beginnings of the parts of the
paths, once each; every path is followed to its end; the `path` of a node is one that leads through
it; and a repeated path changes nothing. -/
theorem arrangeIntoTree_trie (paths : List JsString) :
    (arrangeIntoTree paths).IsTrie Node.name ∧
    (((arrangeIntoTree paths).nodes Node.name).map Prod.fst).Nodup ∧
    (∀ way, way ∈ ((arrangeIntoTree paths).nodes Node.name).map Prod.fst ↔
      way ≠ [] ∧ ∃ path ∈ paths, way <+: pathParts path) ∧
    (∀ path ∈ paths, pathParts path ≠ [] →
      ((arrangeIntoTree paths).lookup Node.name (pathParts path)).isSome) ∧
    (∀ way node, (way, node) ∈ (arrangeIntoTree paths).nodes Node.name →
      node.path ∈ paths ∧ way <+: pathParts node.path) ∧
    arrangeIntoTree paths.eraseDups = arrangeIntoTree paths := by
  have hrep := represents_arrangeIntoTree paths
  refine ⟨hrep.isTrie, Forest.nodup_nodes hrep.isTrie, ?_, ?_, ?_, foldl_eraseDups .nil paths⟩
  · intro way
    rw [← hrep.leads, Option.isSome_iff_exists, List.mem_map]
    constructor
    · rintro ⟨⟨way, node⟩, hmem, rfl⟩
      exact ⟨node, (Forest.mem_nodes_iff hrep.isTrie).mp hmem⟩
    · rintro ⟨node, hlookup⟩
      exact ⟨(way, node), (Forest.mem_nodes_iff hrep.isTrie).mpr hlookup, rfl⟩
  · intro path hpath hne
    exact (hrep.leads _).mpr ⟨hne, path, hpath, List.prefix_refl _⟩
  · intro way node hmem
    exact hrep.path way node ((Forest.mem_nodes_iff hrep.isTrie).mp hmem)

end Kotsadm.FileTree
