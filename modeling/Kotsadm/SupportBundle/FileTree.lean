import Kotsadm.Lib.Deferred
import Kotsadm.Lib.Forest
import Kotsadm.Lib.GoText
import Mathlib.Data.List.DropRight

/-!
# FileTree — the tree of the files of a support bundle

`archiveToFileTree` lists the directories and the files of the extracted archive and arranges them
into a tree.  The files of a directory are those with its path in front of their last separator; its
directories are all those that begin with its path.
-/

namespace Kotsadm.SupportBundle

open GoString

/-! ## Paths -/

/-- `os.PathSeparator` -/
def pathSeparator : UInt8 := 47

/-- `filepath.Split`: the path up to the last separator, with it, and the rest. -/
def splitPath (path : GoString) : GoString × GoString :=
  (path.rdropWhile (· ≠ pathSeparator), path.rtakeWhile (· ≠ pathSeparator))

/-- `strings.TrimSuffix(dir, string(os.PathSeparator))` -/
def trimSeparator (dir : GoString) : GoString :=
  if dir.getLast? = some pathSeparator then dir.dropLast else dir

/-! ## archiveToFileTree -/

/-- `types.FileTreeNode`, without the children. -/
structure FileTreeNode where
  name : GoString
  path : GoString
  deriving DecidableEq, Repr

/-- The nodes of a `types.FileTree`. -/
abbrev FileTree := Forest FileTreeNode

/-- The files that `getDirectoryNode` takes for children. -/
def filesOf (directory : GoString) (files : List GoString) : List GoString :=
  files.filter fun file => trimSeparator (splitPath file).1 = directory

/-- The directories that `getDirectoryNode` takes for children: `strings.HasPrefix(d, directory)`
and another path. -/
def directoriesOf (directory : GoString) (directories : List GoString) : List GoString :=
  directories.filter fun d => directory.isPrefixOf d ∧ d ≠ directory

theorem mem_directoriesOf {directory d : GoString} {directories : List GoString} :
    d ∈ directoriesOf directory directories ↔
      d ∈ directories ∧ directory <+: d ∧ d ≠ directory := by
  unfold directoriesOf
  rw [List.mem_filter, decide_eq_true_eq, List.isPrefixOf_iff_prefix]

/-- A directory that is a child has a longer path. -/
theorem length_lt_of_mem {directory d : GoString} {directories : List GoString}
    (h : d ∈ directoriesOf directory directories) :
    directory.length < d.length ∧ d.length ≤ directories.flatten.length := by
  obtain ⟨hmem, hbegins, hne⟩ := mem_directoriesOf.mp h
  refine ⟨Nat.lt_of_le_of_ne hbegins.length_le ?_, ?_⟩
  · exact fun hlength => hne (hbegins.eq_of_length hlength).symm
  · exact (List.sublist_flatten_of_mem hmem).length_le

/-- `getDirectoryNode`; it has no error of its own. -/
def getDirectoryNode (directories files : List GoString) (directory : GoString) :
    FileTreeNode × FileTree :=
  let child file : FileTreeNode := { name := (splitPath file).2, path := file }
  ({ name := directory, path := directory },
    Forest.leaves ((filesOf directory files).map child) ++
      Forest.ofList ((directoriesOf directory directories).attach.map fun d =>
        getDirectoryNode directories files d.1))
termination_by directories.flatten.length - directory.length
decreasing_by
  have hlength := length_lt_of_mem d.2
  omega

theorem getDirectoryNode_eq (directories files : List GoString) (directory : GoString) :
    getDirectoryNode directories files directory =
      ({ name := directory, path := directory },
        Forest.leaves ((filesOf directory files).map fun file =>
          { name := (splitPath file).2, path := file }) ++
        Forest.ofList ((directoriesOf directory directories).map
          (getDirectoryNode directories files))) := by
  rw [getDirectoryNode.eq_def, List.attach_map_val]

theorem path_getDirectoryNode (directories files : List GoString) (d : GoString) :
    (getDirectoryNode directories files d).1.path = d := by
  rw [getDirectoryNode_eq]

/-- The tree of the lists that the walk has made. -/
def arrange (directories files : List GoString) : FileTree :=
  let top (path : GoString) := decide (pathSeparator ∉ path)
  Forest.ofList ((directories.filter top).map (getDirectoryNode directories files)) ++
    Forest.leaves ((files.filter top).map fun file => { name := file, path := file })

/-- `archiveToFileTree`.  `walk` is what `filepath.Walk` calls the function with: the path, and
whether it is a directory. -/
def archiveToFileTree (workDir : Except GoError GoString) (unarchive : Except GoError Unit)
    (walk : Except GoError (List (GoString × Bool))) : Except GoError FileTree := do
  let workDir ← workDir.wrapError "failed to create workdir"
  unarchive.wrapError "failed to unarchive"
  let infos ← walk.wrapError "failed to walk"
  let below := (infos.filter fun info => workDir.length < info.1.length).map fun info =>
    (info.1.drop (workDir.length + 1), info.2)
  let directories := (below.filter fun info => info.2).map Prod.fst
  let files := (below.filter fun info => !info.2).map Prod.fst
  return arrange directories files

/-! ## What was extracted -/

/-- The directory that a path is in; `none` is the directory of the whole archive. -/
def parent (path : GoString) : Option GoString :=
  if pathSeparator ∈ path then some (trimSeparator (splitPath path).1) else none

theorem splitPath_append {d name : GoString} (h : pathSeparator ∉ name) :
    splitPath (d ++ pathSeparator :: name) = (d ++ [pathSeparator], name) := by
  have hname : ∀ x ∈ name.reverse, decide (x ≠ pathSeparator) = true := by
    intro x hx
    rw [decide_eq_true_eq]
    exact fun heq => h (heq ▸ List.mem_reverse.mp hx)
  unfold splitPath List.rdropWhile List.rtakeWhile
  rw [List.reverse_append, List.reverse_cons, List.append_assoc, List.dropWhile_append_of_pos hname,
    List.takeWhile_append_of_pos hname]
  simp

/-- The name after the last separator. -/
theorem exists_name {path : GoString} (h : pathSeparator ∈ path) :
    ∃ d name, pathSeparator ∉ name ∧ path = d ++ pathSeparator :: name := by
  obtain ⟨after, before, hsplit, hafter⟩ := List.eq_append_cons_of_mem (List.mem_reverse.mpr h)
  refine ⟨before.reverse, after.reverse, fun hmem => hafter (List.mem_reverse.mp hmem), ?_⟩
  rw [← List.reverse_reverse path, hsplit, List.reverse_append, List.reverse_cons,
    List.append_assoc]
  rfl

theorem parent_append {d name : GoString} (h : pathSeparator ∉ name) :
    parent (d ++ pathSeparator :: name) = some d := by
  unfold parent
  rw [if_pos (List.mem_append_right d List.mem_cons_self), splitPath_append h]
  unfold trimSeparator
  rw [List.getLast?_concat, if_pos rfl, List.dropLast_concat]

theorem parent_eq_some {path d : GoString} :
    parent path = some d ↔ ∃ name, pathSeparator ∉ name ∧ path = d ++ pathSeparator :: name := by
  constructor
  · intro h
    have hmem : pathSeparator ∈ path := by
      by_contra hnot
      unfold parent at h
      rw [if_neg hnot] at h
      cases h
    obtain ⟨d', name, hname, rfl⟩ := exists_name hmem
    rw [parent_append hname, Option.some.injEq] at h
    exact ⟨name, hname, by rw [h]⟩
  · rintro ⟨name, hname, rfl⟩
    exact parent_append hname

/-- What `getDirectoryNode` compares the path of a directory with. -/
theorem trimSeparator_splitPath {path d : GoString} (hd : d ≠ []) :
    trimSeparator (splitPath path).1 = d ↔ parent path = some d := by
  unfold parent
  split
  next => rw [Option.some.injEq]
  next hmem =>
    have hnil : (splitPath path).1 = [] := by
      unfold splitPath
      rw [List.rdropWhile_eq_nil_iff]
      intro b hb
      rw [decide_eq_true_eq]
      exact fun heq => hmem (heq ▸ hb)
    rw [hnil]
    exact iff_of_false (fun h => hd h.symm) fun h => nomatch h

/-- The files and directories below the work directory, in the order of the walk. -/
structure Extracted where
  entries : List (GoString × Bool)
  nodup : (entries.map Prod.fst).Nodup
  ne_nil : ∀ entry ∈ entries, entry.1 ≠ []
  closed : ∀ entry ∈ entries, ∀ d ∈ parent entry.1, (d, true) ∈ entries

def Extracted.walk (x : Extracted) (workDir : GoString) : List (GoString × Bool) :=
  (workDir, true) :: x.entries.map fun entry => (workDir ++ pathSeparator :: entry.1, entry.2)

def Extracted.directories (x : Extracted) : List GoString :=
  (x.entries.filter fun entry => entry.2).map Prod.fst

def Extracted.files (x : Extracted) : List GoString :=
  (x.entries.filter fun entry => !entry.2).map Prod.fst

theorem archiveToFileTree_walk (x : Extracted) (workDir : GoString) :
    archiveToFileTree (.ok workDir) (.ok ()) (.ok (x.walk workDir)) =
      .ok (arrange x.directories x.files) := by
  have hbelow : ((x.walk workDir).filter fun info => workDir.length < info.1.length).map
      (fun info => (info.1.drop (workDir.length + 1), info.2)) = x.entries := by
    unfold Extracted.walk
    rw [List.filter_cons_of_neg (by simp), List.filter_eq_self.mpr, List.map_map]
    · refine (List.map_congr_left fun entry _ => ?_).trans (List.map_id _)
      show ((workDir ++ pathSeparator :: entry.1).drop (workDir.length + 1), entry.2) = entry
      rw [List.drop_append, List.drop_of_length_le (Nat.le_succ _), Nat.add_sub_cancel_left]
      rfl
    · intro info hinfo
      obtain ⟨entry, -, rfl⟩ := List.mem_map.mp hinfo
      simp
  unfold archiveToFileTree Extracted.directories Extracted.files
  show Except.ok (arrange _ _) = _
  rw [hbelow]

/-! ## The property and the condition -/

/-- Every path is in the tree once, below the directory that it is in, and no other path is. -/
def Extracted.Mirrors (x : Extracted) (tree : FileTree) : Prop :=
  (tree.edges FileTreeNode.path none).Perm
    (x.entries.map fun entry => (parent entry.1, entry.1))

/-- A directory whose path begins with the path of another one is in that directory itself. -/
def Extracted.PrefixesAreParents (x : Extracted) : Prop :=
  ∀ d ∈ x.directories, ∀ d' ∈ x.directories, d <+: d' → d ≠ d' → parent d' = some d

/-! ## The edges of the tree -/

section Edges

variable {x : Extracted} {d e path : GoString} {q : Option GoString}

/-- What is below the node of a directory. -/
def Extracted.below (x : Extracted) (d : GoString) : List (Option GoString × GoString) :=
  (getDirectoryNode x.directories x.files d).2.edges FileTreeNode.path (some d)

/-- The node of a directory and what is below it. -/
def Extracted.node (x : Extracted) (above : Option GoString) (d : GoString) :
    List (Option GoString × GoString) :=
  (above, d) :: x.below d

def Extracted.edges (x : Extracted) : List (Option GoString × GoString) :=
  (arrange x.directories x.files).edges FileTreeNode.path none

theorem below_eq (x : Extracted) (d : GoString) :
    x.below d = (filesOf d x.files).map (some d, ·) ++
      (directoriesOf d x.directories).flatMap (x.node (some d)) := by
  unfold Extracted.below
  rw [getDirectoryNode_eq]
  dsimp only
  rw [Forest.edges_append, Forest.edges_leaves, Forest.edges_ofList, List.map_map, List.flatMap_map]
  simp only [path_getDirectoryNode]
  rfl

theorem edges_eq (x : Extracted) :
    x.edges = (x.directories.filter fun d => pathSeparator ∉ d).flatMap (x.node none) ++
      (x.files.filter fun file => pathSeparator ∉ file).map (none, ·) := by
  unfold Extracted.edges arrange
  dsimp only
  rw [Forest.edges_append, Forest.edges_leaves, Forest.edges_ofList, List.map_map, List.flatMap_map]
  simp only [path_getDirectoryNode]
  rfl

theorem mem_below : (q, path) ∈ x.below d ↔
    (q = some d ∧ path ∈ filesOf d x.files) ∨
      ∃ d' ∈ directoriesOf d x.directories, (q, path) ∈ x.node (some d) d' := by
  rw [below_eq, List.mem_append, List.mem_map, List.mem_flatMap]
  apply or_congr_left
  constructor
  · rintro ⟨file, hfile, heq⟩
    cases heq
    exact ⟨rfl, hfile⟩
  · rintro ⟨rfl, hfile⟩
    exact ⟨path, hfile, rfl⟩

theorem mem_directories : d ∈ x.directories ↔ (d, true) ∈ x.entries := by
  unfold Extracted.directories
  simp

theorem mem_files : path ∈ x.files ↔ (path, false) ∈ x.entries := by
  unfold Extracted.files
  simp

/-- No path is a directory and a file. -/
theorem not_mem_files (hd : d ∈ x.directories) : d ∉ x.files := by
  intro hfile
  have heq := List.inj_on_of_nodup_map x.nodup (mem_directories.mp hd) (mem_files.mp hfile) rfl
  cases heq

theorem ne_nil_of_mem (hd : d ∈ x.directories) : d ≠ [] := x.ne_nil _ (mem_directories.mp hd)

theorem mem_filesOf (hd : d ∈ x.directories) :
    path ∈ filesOf d x.files ↔ path ∈ x.files ∧ parent path = some d := by
  unfold filesOf
  rw [List.mem_filter, decide_eq_true_eq, trimSeparator_splitPath (ne_nil_of_mem hd)]

theorem prefix_of_parent (h : parent path = some d) : d <+: path ∧ d ≠ path := by
  obtain ⟨name, -, rfl⟩ := parent_eq_some.mp h
  refine ⟨List.prefix_append d _, fun heq => ?_⟩
  have hlength := congrArg List.length heq
  rw [List.length_append, List.length_cons] at hlength
  omega

/-- Induction on a directory, from those that `getDirectoryNode` is called for. -/
theorem below_induction (x : Extracted) {motive : GoString → Prop}
    (h : ∀ d, (∀ d' ∈ directoriesOf d x.directories, motive d') → motive d) (d : GoString) :
    motive d := by
  induction d using getDirectoryNode.induct x.directories with
  | case1 d ih => exact h d fun d' hd' => ih ⟨d', hd'⟩

theorem mem_of_mem_directoriesOf {d' : GoString} (h : d' ∈ directoriesOf d x.directories) :
    d' ∈ x.directories :=
  (mem_directoriesOf.mp h).1

/-- The nodes below a directory have longer paths, and those above them are at or below it. -/
theorem prefix_of_mem_below (hd : d ∈ x.directories) (h : (q, path) ∈ x.below d) :
    ∃ e, q = some e ∧ d <+: e ∧ e <+: path ∧ e ≠ path := by
  induction d using below_induction x with
  | h d ih =>
    rcases mem_below.mp h with ⟨rfl, hfile⟩ | ⟨d', hd', hnode⟩
    · exact ⟨d, rfl, List.prefix_refl d, prefix_of_parent ((mem_filesOf hd).mp hfile).2⟩
    · obtain ⟨-, hbegins, hne⟩ := mem_directoriesOf.mp hd'
      rcases List.mem_cons.mp hnode with heq | hbelow
      · cases heq
        exact ⟨d, rfl, List.prefix_refl d, hbegins, hne.symm⟩
      · obtain ⟨e, rfl, he, hpath⟩ := ih d' hd' (mem_of_mem_directoriesOf hd') hbelow
        exact ⟨e, rfl, hbegins.trans he, hpath⟩

/-- The node of a directory brings all that is below it. -/
theorem below_subset_below (hfile : e ∉ x.files) (h : (q, e) ∈ x.below d) :
    x.below e ⊆ x.below d := by
  induction d using below_induction x with
  | h d ih =>
    intro edge hedge
    rcases mem_below.mp h with ⟨-, hmem⟩ | ⟨d', hd', hnode⟩
    · exact absurd (List.mem_of_mem_filter hmem) hfile
    · refine mem_below.mpr (.inr ⟨d', hd', List.mem_cons_of_mem _ ?_⟩)
      rcases List.mem_cons.mp hnode with heq | hbelow
      · cases heq
        exact hedge
      · exact ih d' hd' hbelow hedge

theorem mem_edges : (q, path) ∈ x.edges ↔
    (∃ d ∈ x.directories, pathSeparator ∉ d ∧ (q, path) ∈ x.node none d) ∨
      (q = none ∧ path ∈ x.files ∧ pathSeparator ∉ path) := by
  rw [edges_eq, List.mem_append, List.mem_flatMap, List.mem_map]
  apply or_congr
  · simp only [List.mem_filter, decide_eq_true_eq, and_assoc]
  · constructor
    · rintro ⟨file, hfile, heq⟩
      cases heq
      exact ⟨rfl, by simpa using hfile⟩
    · rintro ⟨rfl, hfile⟩
      exact ⟨path, by simpa using hfile, rfl⟩

theorem below_subset_edges (he : e ∈ x.directories) (h : (q, e) ∈ x.edges) :
    x.below e ⊆ x.edges := by
  intro edge hedge
  rcases mem_edges.mp h with ⟨d, hd, htop, hnode⟩ | ⟨-, hfile, -⟩
  · refine mem_edges.mpr (.inl ⟨d, hd, htop, List.mem_cons_of_mem _ ?_⟩)
    rcases List.mem_cons.mp hnode with heq | hbelow
    · cases heq
      exact hedge
    · exact below_subset_below (not_mem_files he) hbelow hedge
  · exact absurd hfile (not_mem_files he)

/-- A path is below the directory that it is in. -/
theorem mem_below_parent (hd : d ∈ x.directories) (hparent : parent path = some d)
    (h : path ∈ x.directories ∨ path ∈ x.files) : (some d, path) ∈ x.below d := by
  obtain ⟨hbegins, hne⟩ := prefix_of_parent hparent
  rw [mem_below]
  rcases h with h | h
  · right
    exact ⟨path, mem_directoriesOf.mpr ⟨h, hbegins, hne.symm⟩, List.mem_cons_self⟩
  · left
    exact ⟨rfl, (mem_filesOf hd).mpr ⟨h, hparent⟩⟩

theorem parent_eq_none : parent path = none ↔ pathSeparator ∉ path := by
  unfold parent
  split
  next h => exact iff_of_false nofun (not_not.mpr h)
  next h => exact iff_of_true rfl h

/-- No path is missing. -/
theorem parent_mem_edges (h : path ∈ x.directories ∨ path ∈ x.files) :
    (parent path, path) ∈ x.edges := by
  induction hn : path.length using Nat.strongRecOn generalizing path with
  | ind n ih =>
    cases hparent : parent path with
    | none =>
      have htop := parent_eq_none.mp hparent
      rcases h with h | h
      · exact mem_edges.mpr (.inl ⟨path, h, htop, List.mem_cons_self⟩)
      · exact mem_edges.mpr (.inr ⟨rfl, h, htop⟩)
    | some d =>
      have hd : d ∈ x.directories := by
        rw [mem_directories]
        rcases h with h | h
        · exact x.closed _ (mem_directories.mp h) d hparent
        · exact x.closed _ (mem_files.mp h) d hparent
      obtain ⟨hbegins, hne⟩ := prefix_of_parent hparent
      have hlength : d.length < n := by
        rw [← hn]
        exact Nat.lt_of_le_of_ne hbegins.length_le fun heq => hne (hbegins.eq_of_length heq)
      exact below_subset_edges hd (ih d.length hlength (.inl hd) rfl)
        (mem_below_parent hd hparent h)

/-! ## Trees in which no path is repeated -/

theorem edge_below (hflat : x.PrefixesAreParents) (hd : d ∈ x.directories)
    (h : (q, path) ∈ x.below d) :
    q = parent path ∧ (path ∈ x.directories ∨ path ∈ x.files) := by
  induction d using below_induction x with
  | h d ih =>
    rcases mem_below.mp h with ⟨rfl, hfile⟩ | ⟨d', hd', hnode⟩
    · obtain ⟨hmem, hparent⟩ := (mem_filesOf hd).mp hfile
      exact ⟨hparent.symm, .inr hmem⟩
    · obtain ⟨hmem, hbegins, hne⟩ := mem_directoriesOf.mp hd'
      rcases List.mem_cons.mp hnode with heq | hbelow
      · cases heq
        exact ⟨(hflat d hd path hmem hbegins hne.symm).symm, .inl hmem⟩
      · exact ih d' hd' hmem hbelow

theorem edge_of_mem_edges (hflat : x.PrefixesAreParents) (h : (q, path) ∈ x.edges) :
    q = parent path ∧ (path ∈ x.directories ∨ path ∈ x.files) := by
  rcases mem_edges.mp h with ⟨d, hd, htop, hnode⟩ | ⟨rfl, hfile, htop⟩
  · rcases List.mem_cons.mp hnode with heq | hbelow
    · cases heq
      exact ⟨(parent_eq_none.mpr htop).symm, .inl hd⟩
    · exact edge_below hflat hd hbelow
  · exact ⟨(parent_eq_none.mpr htop).symm, .inr hfile⟩

/-- Every path at or below a directory begins with its path. -/
theorem prefix_of_mem_node (hd : d ∈ x.directories) {above : Option GoString}
    (h : (q, path) ∈ x.node above d) : d <+: path := by
  rcases List.mem_cons.mp h with heq | hbelow
  · cases heq
    exact List.prefix_refl d
  · obtain ⟨e, -, he, hpath, -⟩ := prefix_of_mem_below hd hbelow
    exact he.trans hpath

/-- Directories that are in the same directory have no path below both. -/
theorem disjoint_nodes {d' : GoString} (hflat : x.PrefixesAreParents)
    {above above' : Option GoString} (hd : d ∈ x.directories) (hd' : d' ∈ x.directories)
    (hne : d ≠ d')
    (hsame : parent d = parent d') : List.Disjoint (x.node above d) (x.node above' d') := by
  intro edge hedge hedge'
  have hself : ∀ e, parent e ≠ some e := fun e h => (prefix_of_parent h).2 rfl
  rcases List.prefix_or_prefix_of_prefix (prefix_of_mem_node hd hedge)
    (prefix_of_mem_node hd' hedge') with hbegins | hbegins
  · exact hself d (hsame.trans (hflat d hd d' hd' hbegins hne))
  · exact hself d' (hsame.symm.trans (hflat d' hd' d hd hbegins hne.symm))

theorem nodup_directories (x : Extracted) : x.directories.Nodup :=
  (List.filter_sublist.map Prod.fst).nodup x.nodup

theorem nodup_files (x : Extracted) : x.files.Nodup :=
  (List.filter_sublist.map Prod.fst).nodup x.nodup

theorem nodup_pairs {above : Option GoString} {paths : List GoString} (h : paths.Nodup) :
    (paths.map fun file => (above, file)).Nodup :=
  h.map fun _ _ heq => (Prod.mk.inj heq).2

theorem nodup_node (hd : d ∈ x.directories) (h : (x.below d).Nodup) (above : Option GoString) :
    (x.node above d).Nodup := by
  refine List.nodup_cons.mpr ⟨fun hmem => ?_, h⟩
  obtain ⟨e, -, hde, hed, hne⟩ := prefix_of_mem_below hd hmem
  exact hne (hed.eq_of_length (Nat.le_antisymm hed.length_le hde.length_le))

theorem nodup_below (hflat : x.PrefixesAreParents) (hd : d ∈ x.directories) :
    (x.below d).Nodup := by
  induction d using below_induction x with
  | h d ih =>
    have hparent : ∀ d' ∈ directoriesOf d x.directories, parent d' = some d := by
      intro d' hd'
      obtain ⟨hmem, hbegins, hne⟩ := mem_directoriesOf.mp hd'
      exact hflat d hd d' hmem hbegins hne.symm
    rw [below_eq]
    refine List.Nodup.append (nodup_pairs ((nodup_files x).filter _)) ?_ ?_
    · rw [List.nodup_flatMap]
      constructor
      · intro d' hd'
        have hmem := mem_of_mem_directoriesOf hd'
        exact nodup_node hmem (ih d' hd' hmem) (some d)
      · refine ((nodup_directories x).filter _).imp_of_mem fun {d₁ d₂} h₁ h₂ hne => ?_
        exact disjoint_nodes hflat (mem_of_mem_directoriesOf h₁) (mem_of_mem_directoriesOf h₂) hne
          ((hparent d₁ h₁).trans (hparent d₂ h₂).symm)
    · -- a file in the directory is not at or below another directory that is in it
      rintro ⟨q, path⟩ hfile hbelow
      obtain ⟨file, hfile, heq⟩ := List.mem_map.mp hfile
      cases heq
      obtain ⟨d', hd', hnode⟩ := List.mem_flatMap.mp hbelow
      have hmem := mem_of_mem_directoriesOf hd'
      rcases List.mem_cons.mp hnode with heq | hbelow
      · cases heq
        exact not_mem_files hmem ((mem_filesOf hd).mp hfile).1
      · obtain ⟨e, he, hbegins, -, -⟩ := prefix_of_mem_below hmem hbelow
        cases he
        obtain ⟨-, hbegins', hne⟩ := mem_directoriesOf.mp hd'
        exact hne (hbegins.eq_of_length (Nat.le_antisymm hbegins.length_le hbegins'.length_le))

theorem nodup_edges (hflat : x.PrefixesAreParents) : x.edges.Nodup := by
  rw [edges_eq]
  refine List.Nodup.append ?_ (nodup_pairs ((nodup_files x).filter _)) ?_
  · rw [List.nodup_flatMap]
    have htop : ∀ d ∈ x.directories.filter fun d => pathSeparator ∉ d,
        d ∈ x.directories ∧ parent d = none := by
      intro d hd
      rw [List.mem_filter, decide_eq_true_eq] at hd
      exact ⟨hd.1, parent_eq_none.mpr hd.2⟩
    constructor
    · intro d hd
      exact nodup_node (htop d hd).1 (nodup_below hflat (htop d hd).1) none
    · refine ((nodup_directories x).filter _).imp_of_mem fun {d₁ d₂} h₁ h₂ hne => ?_
      exact disjoint_nodes hflat (htop d₁ h₁).1 (htop d₂ h₂).1 hne
        ((htop d₁ h₁).2.trans (htop d₂ h₂).2.symm)
  · rintro ⟨q, path⟩ hnode hfile
    obtain ⟨file, hfile, heq⟩ := List.mem_map.mp hfile
    cases heq
    obtain ⟨d, hd, hnode⟩ := List.mem_flatMap.mp hnode
    have hmem := (List.mem_filter.mp hd).1
    rcases List.mem_cons.mp hnode with heq | hbelow
    · cases heq
      exact not_mem_files hmem (List.mem_filter.mp hfile).1
    · obtain ⟨e, he, -⟩ := prefix_of_mem_below hmem hbelow
      cases he

end Edges

/-! ## Which trees mirror the archive -/

theorem mirrors_iff (x : Extracted) :
    x.Mirrors (arrange x.directories x.files) ↔ x.PrefixesAreParents := by
  have hentries : ∀ path, path ∈ x.entries.map Prod.fst ↔
      path ∈ x.directories ∨ path ∈ x.files := by
    intro path
    rw [mem_directories, mem_files, List.mem_map]
    constructor
    · rintro ⟨⟨path, isDir⟩, hmem, rfl⟩
      cases isDir with
      | true => exact .inl hmem
      | false => exact .inr hmem
    · rintro (h | h)
      · exact ⟨_, h, rfl⟩
      · exact ⟨_, h, rfl⟩
  have htarget : x.entries.map (fun entry => (parent entry.1, entry.1)) =
      (x.entries.map Prod.fst).map fun path => (parent path, path) := by
    rw [List.map_map]
    rfl
  unfold Extracted.Mirrors
  rw [htarget]
  show x.edges.Perm _ ↔ _
  constructor
  · intro hperm d hd d' hd' hbegins hne
    -- the directory is below the one whose path its own begins with
    have hbelow : (some d, d') ∈ x.below d :=
      mem_below.mpr (.inr ⟨d', mem_directoriesOf.mpr ⟨hd', hbegins, hne.symm⟩, List.mem_cons_self⟩)
    have hedge := below_subset_edges hd (parent_mem_edges (.inl hd)) hbelow
    obtain ⟨path, -, heq⟩ := List.mem_map.mp (hperm.subset hedge)
    obtain ⟨hparent, rfl⟩ := Prod.mk.inj heq
    exact hparent
  · intro hflat
    rw [List.perm_ext_iff_of_nodup (nodup_edges hflat)
      (x.nodup.map fun _ _ heq => (Prod.mk.inj heq).2)]
    rintro ⟨q, path⟩
    rw [List.mem_map]
    constructor
    · intro h
      obtain ⟨hq, hmem⟩ := edge_of_mem_edges hflat h
      exact ⟨path, (hentries path).mpr hmem, by rw [hq]⟩
    · rintro ⟨path', hmem, heq⟩
      cases heq
      exact parent_mem_edges ((hentries path).mp hmem)

/-- **Mirror.**  The tree of an extracted archive mirrors it exactly when every directory whose path
begins with that of another directory is in that directory. -/
theorem mirrors_archiveToFileTree_iff (x : Extracted) (workDir : GoString) :
    ∃ tree, archiveToFileTree (.ok workDir) (.ok ()) (.ok (x.walk workDir)) = .ok tree ∧
      (x.Mirrors tree ↔ x.PrefixesAreParents) :=
  ⟨_, archiveToFileTree_walk x workDir, mirrors_iff x⟩

/-! ## Directories in each other -/

/-- The log of a pod, three directories below the archive. -/
def podLogs : Extracted where
  entries := [(ascii "logs", true), (ascii "logs/app", true), (ascii "logs/app/web", true),
    (ascii "logs/app/web/web.log", false)]
  nodup := by decide
  ne_nil := by decide
  closed := by decide

/-- The directory of the third level is below the one of the first, too. -/
theorem not_mirrors_podLogs :
    ∃ tree, archiveToFileTree (.ok (ascii "/tmp/kotsadm")) (.ok ())
        (.ok (podLogs.walk (ascii "/tmp/kotsadm"))) = .ok tree ∧ ¬ podLogs.Mirrors tree := by
  refine ⟨_, archiveToFileTree_walk podLogs _, ?_⟩
  rw [mirrors_iff]
  intro hflat
  have hparent := hflat (ascii "logs") (by decide) (ascii "logs/app/web") (by decide) (by decide)
    (by decide)
  revert hparent
  decide

end Kotsadm.SupportBundle
