import Kotsadm.Downstream.DiffContent
import Kotsadm.Lib.Dictionary
import Kotsadm.Lib.Filter
import Kotsadm.Lib.GoEncoding
import Kotsadm.Lib.Reorder

/-!
# FilesChanged — the files that changed between two versions

`DiffAppVersionsForDownstream` looks at the totals to see whether a file has changed, so after the
first lines that were added or removed every file counts.  `getDiffSummary` looks at each file
alone; it finds the properties of every object among the names of the files.
-/

namespace Kotsadm.Downstream

open EditScript

/-- The rendered files by name; a map is walked in any order. -/
abbrev FileMap := Dictionary String String

abbrev File := String × String

/-! ## DiffAppVersionsForDownstream -/

structure Diff where
  filesChanged : Nat := 0
  linesAdded : Nat := 0
  linesRemoved : Nat := 0
deriving DecidableEq

/-- The programs and packages that render a version. -/
structure Kustomize where
  /-- The output of `kustomize build` for the joined path. -/
  build : (kustomizeVersion : String) → (path : List String) → Except String String
  splitYAML : String → Except String FileMap

/-- `errors.Wrap` -/
def wrap {α : Type} (message : String) : Except String α → Except String α
  | .ok a => .ok a
  | .error err => .error (message ++ ": " ++ err)

/-- How often `Scan` of a scanner returns true. -/
def scans (contents : String) : Nat :=
  (GoString.scanLines (GoString.ofChars contents.toList)).length

/-- The body of the loop over the files of the archive. -/
def diffArchiveFile (dmp : DiffMatchPatch) (baseFiles : FileMap) (diff : Diff) (file : File) :
    Except String Diff :=
  match baseFiles.get file.1 with
  | none =>
    -- this file was added
    .ok { diff with
      linesAdded := diff.linesAdded + scans file.2
      filesChanged := diff.filesChanged + 1 }
  | some baseContents => do
    let (linesAdded, linesRemoved) ←
      wrap "failed to diff contents" (diffContent dmp file.2 baseContents)
    let diff := { diff with
      linesAdded := diff.linesAdded + linesAdded
      linesRemoved := diff.linesRemoved + linesRemoved }
    if 0 < diff.linesAdded ∨ 0 < diff.linesRemoved then
      .ok { diff with filesChanged := diff.filesChanged + 1 }
    else .ok diff

/-- The body of the loop over the files of the base. -/
def diffBaseFile (archiveFiles : FileMap) (diff : Diff) (file : File) : Diff :=
  match archiveFiles.get file.1 with
  | none =>
    { diff with
      linesRemoved := diff.linesRemoved + scans file.2
      filesChanged := diff.filesChanged + 1 }
  | some _ => diff

/-- `range` is the order in which the maps are walked. -/
def DiffAppVersionsForDownstream (dmp : DiffMatchPatch) (kustomize : Kustomize)
    (range : Reorder File) (downstreamName archive diffBasePath kustomizeVersion : String) :
    Except String Diff := do
  -- kustomize build both of these archives before diffing
  let archiveOutput ← wrap "failed to run kustomize on archive dir"
    (kustomize.build kustomizeVersion [archive, "overlays", "downstreams", downstreamName])
  let baseOutput ← wrap "failed to run kustomize on base dir"
    (kustomize.build kustomizeVersion [diffBasePath, "overlays", "downstreams", downstreamName])
  let archiveFiles ← wrap "failed to split archive yaml" (kustomize.splitYAML archiveOutput)
  let baseFiles ← wrap "failed to split base yaml" (kustomize.splitYAML baseOutput)
  let diff ← (range.apply archiveFiles.rows).foldlM (diffArchiveFile dmp baseFiles) {}
  return (range.apply baseFiles.rows).foldl (diffBaseFile archiveFiles) diff

/-! ## getDiffSummary -/

/-- One part of the result of `diffLines`. -/
structure Part where
  value : String
  count : Nat
  added : Bool
  removed : Bool

structure JsDiff where
  diffLines : (oldStr newStr : String) → List Part

def Part.edit (part : Part) : Edit Char where
  type := if part.added then .insert else if part.removed then .delete else .equal
  part := part.value.toList

def JsDiff.diffs (jsdiff : JsDiff) (oldStr newStr : String) : List (Edit Char) :=
  (jsdiff.diffLines oldStr newStr).map Part.edit

/-- The text of what an object inherits under a name. -/
def inherited (path : String) : Option String :=
  if path = "constructor" then some "function Object() { [native code] }"
  else if path = "__proto__" then some "[object Object]"
  else if path ∈ ["__defineGetter__", "__defineSetter__", "hasOwnProperty", "__lookupGetter__",
      "__lookupSetter__", "isPrototypeOf", "propertyIsEnumerable", "toString", "valueOf",
      "toLocaleString"] then some ("function " ++ path ++ "() { [native code] }")
  else none

/-- `files[path].toString()`, where there is such a property. -/
def textAt (files : FileMap) (path : String) : Option String :=
  match files.get path with
  | some contents => some contents
  | none => inherited path

/-- `contents.split("\n").length` -/
def splitLength (contents : String) : Nat := contents.toList.count '\n' + 1

def summarizePart (summary : Diff × Bool) (part : Part) : Diff × Bool :=
  let added : Diff × Bool :=
    if part.added then
      ({ summary.1 with linesAdded := summary.1.linesAdded + part.count }, true)
    else summary
  if part.removed then
    ({ added.1 with linesRemoved := added.1.linesRemoved + part.count }, true)
  else added

/-- The body of the loop over the old files. -/
def summarizeOldFile (jsdiff : JsDiff) (newFiles : FileMap) (summary : Diff) (file : File) : Diff :=
  match textAt newFiles file.1 with
  | none =>
    { summary with
      filesChanged := summary.filesChanged + 1
      linesRemoved := summary.linesRemoved + splitLength file.2 }
  | some newContent =>
    let (summary, fileHasChanged) :=
      (jsdiff.diffLines file.2 newContent).foldl summarizePart (summary, false)
    if fileHasChanged then { summary with filesChanged := summary.filesChanged + 1 } else summary

/-- The body of the loop over the new files. -/
def summarizeNewFile (oldFiles : FileMap) (summary : Diff) (file : File) : Diff :=
  match textAt oldFiles file.1 with
  | none =>
    { summary with
      filesChanged := summary.filesChanged + 1
      linesAdded := summary.linesAdded + splitLength file.2 }
  | some _ => summary

/-- What is returned as JSON; `files` are those of a sequence. -/
def getDiffSummary (jsdiff : JsDiff) (files : Nat → FileMap) (currentSequence : Option Nat) :
    Option Diff := do
  let oldSequence ← currentSequence
  let oldFiles := files oldSequence
  let newFiles := files (oldSequence + 1)
  return newFiles.rows.foldl (summarizeNewFile oldFiles)
    (oldFiles.rows.foldl (summarizeOldFile jsdiff newFiles) {})

/-! ## The number of files that changed -/

/-- The names that are in one map only, and the common ones with different contents. -/
def changedFiles (archiveFiles baseFiles : FileMap) : Nat :=
  (archiveFiles.rows.filter baseFiles.missing).length +
    (baseFiles.rows.filter archiveFiles.missing).length +
      (archiveFiles.rows.filter baseFiles.differs).length

/-- Lines of the file are added or removed. -/
def contributes (baseFiles : FileMap) (file : File) : Bool :=
  match baseFiles.get file.1 with
  | none => 0 < scans file.2
  | some baseContents => baseContents ≠ file.2

def Diff.seen (diff : Diff) : Bool := 0 < diff.linesAdded || 0 < diff.linesRemoved

/-- The files that are counted in this order. -/
def counted (baseFiles : FileMap) : (seen : Bool) → List File → Nat
  | _, [] => 0
  | seen, file :: files =>
    (if baseFiles.missing file || seen || contributes baseFiles file then 1 else 0) +
      counted baseFiles (seen || contributes baseFiles file) files

section

variable {dmp : DiffMatchPatch} {archiveFiles baseFiles : FileMap} {files : List File}

/-- A file that is in both maps contributes where the diff has a chunk. -/
theorem contributes_of_get (hdmp : Faithful dmp.diffs) {file : File} {baseContents : String}
    (hget : baseFiles.get file.1 = some baseContents) : contributes baseFiles file =
      decide (0 < chunks .insert (dmp.diffs file.2 baseContents) ∨
        0 < chunks .delete (dmp.diffs file.2 baseContents)) := by
  have hsame : Unchanged (dmp.diffs file.2 baseContents) ↔ file.2 = baseContents :=
    hdmp.unchanged_iff
  rw [unchanged_iff] at hsame
  unfold contributes
  rw [hget]
  apply decide_eq_decide.mpr
  rw [ne_comm, ne_eq, ← hsame]
  omega

theorem diffArchiveFile_spec (hdmp : Faithful dmp.diffs) (baseFiles : FileMap) (diff : Diff)
    (file : File) :
    ∃ diff', diffArchiveFile dmp baseFiles diff file = .ok diff' ∧
      diff'.seen = (diff.seen || contributes baseFiles file) ∧
      diff'.filesChanged = diff.filesChanged +
        if baseFiles.missing file || diff.seen || contributes baseFiles file then 1 else 0 := by
  unfold diffArchiveFile Dictionary.missing
  cases hget : baseFiles.get file.1 with
  | none =>
    refine ⟨_, rfl, ?_, rfl⟩
    have hcontributes : contributes baseFiles file = decide (0 < scans file.2) := by
      unfold contributes
      rw [hget]
    rw [hcontributes]
    unfold Diff.seen
    rw [Bool.eq_iff_iff]
    simp only [Bool.or_eq_true, decide_eq_true_eq]
    omega
  | some baseContents =>
    dsimp only
    rw [contributes_of_get hdmp hget, diffContent_eq, Option.isNone_some, Bool.false_or]
    generalize chunks .insert (dmp.diffs file.2 baseContents) = linesAdded
    generalize chunks .delete (dmp.diffs file.2 baseContents) = linesRemoved
    have hseen : (diff.seen || decide (0 < linesAdded ∨ 0 < linesRemoved)) =
        decide (0 < diff.linesAdded + linesAdded ∨ 0 < diff.linesRemoved + linesRemoved) := by
      unfold Diff.seen
      rw [Bool.eq_iff_iff]
      simp only [Bool.or_eq_true, decide_eq_true_eq]
      omega
    rw [hseen]
    by_cases hlines : 0 < diff.linesAdded + linesAdded ∨ 0 < diff.linesRemoved + linesRemoved
    · refine ⟨_, if_pos hlines, ?_, ?_⟩
      · unfold Diff.seen
        rw [Bool.decide_or]
      · rw [decide_eq_true hlines, if_pos rfl]
    · refine ⟨_, if_neg hlines, ?_, ?_⟩
      · unfold Diff.seen
        rw [Bool.decide_or]
      · rw [decide_eq_false hlines, if_neg Bool.false_ne_true]
        rfl

/-- The totals decide, so the order does. -/
theorem foldlM_spec (hdmp : Faithful dmp.diffs) (baseFiles : FileMap) (files : List File)
    (diff : Diff) :
    ∃ diff', files.foldlM (diffArchiveFile dmp baseFiles) diff = .ok diff' ∧
      diff'.filesChanged = diff.filesChanged + counted baseFiles diff.seen files := by
  induction files generalizing diff with
  | nil => exact ⟨diff, rfl, rfl⟩
  | cons file files ih =>
    obtain ⟨diff₁, hfile, hseen, hchanged⟩ := diffArchiveFile_spec hdmp baseFiles diff file
    obtain ⟨diff₂, hfiles, hcounted⟩ := ih diff₁
    refine ⟨diff₂, ?_, ?_⟩
    · rw [List.foldlM_cons, hfile]
      exact hfiles
    · rw [hcounted, hchanged, hseen, counted, Nat.add_assoc]

theorem filesChanged_diffBaseFiles (archiveFiles : FileMap) (files : List File) (diff : Diff) :
    (files.foldl (diffBaseFile archiveFiles) diff).filesChanged =
      diff.filesChanged + (files.filter archiveFiles.missing).length := by
  induction files generalizing diff with
  | nil => rfl
  | cons file files ih =>
    rw [List.foldl_cons, ih]
    unfold diffBaseFile
    cases hget : archiveFiles.get file.1 with
    | none =>
      have hmissing : archiveFiles.missing file = true := by simp [Dictionary.missing, hget]
      rw [List.filter_cons_of_pos hmissing, List.length_cons]
      dsimp only
      omega
    | some contents =>
      have hmissing : archiveFiles.missing file = false := by simp [Dictionary.missing, hget]
      rw [List.filter_cons_of_neg (by simp [hmissing])]

/-! ## Orders -/

theorem contributes_of_differs {file : File} (h : baseFiles.differs file = true) :
    contributes baseFiles file = true := by
  unfold Dictionary.differs at h
  unfold contributes
  cases hget : baseFiles.get file.1 with
  | none =>
    rw [hget] at h
    cases h
  | some baseContents =>
    rw [hget] at h
    exact h

theorem counted_true : counted baseFiles true files = files.length := by
  induction files with
  | nil => rfl
  | cons file files ih =>
    unfold counted
    simp only [Bool.or_true, Bool.true_or, if_true]
    rw [ih, List.length_cons, Nat.add_comm]

/-- Every file has changed. -/
theorem counted_of_changed {seen : Bool}
    (h : ∀ file ∈ files, baseFiles.changed file = true) :
    counted baseFiles seen files = files.length := by
  induction files generalizing seen with
  | nil => rfl
  | cons file files ih =>
    have hfile : (baseFiles.missing file || seen || contributes baseFiles file) = true := by
      rcases Bool.or_eq_true_iff.mp (h file List.mem_cons_self) with hmissing | hdiffers
      · rw [hmissing, Bool.true_or, Bool.true_or]
      · rw [contributes_of_differs hdiffers, Bool.or_true]
    unfold counted
    rw [if_pos hfile, ih fun other hother => h other (List.mem_cons_of_mem file hother),
      List.length_cons, Nat.add_comm]

/-- No lines are added or removed. -/
theorem counted_of_idle (h : ∀ file ∈ files, contributes baseFiles file = false) :
    counted baseFiles false files = (files.filter baseFiles.missing).length := by
  induction files with
  | nil => rfl
  | cons file files ih =>
    unfold counted
    rw [h file List.mem_cons_self, Bool.or_false, Bool.or_false, Bool.or_false,
      ih fun other hother => h other (List.mem_cons_of_mem file hother), List.filter_cons]
    split
    · rw [List.length_cons, Nat.add_comm]
    · exact Nat.zero_add _

/-! ## getDiffSummary counts each file alone -/

/-- The old file is counted. -/
def oldCounted (newFiles : FileMap) (file : File) : Bool :=
  match textAt newFiles file.1 with
  | none => true
  | some newContent => file.2 ≠ newContent

/-- The new file is counted. -/
def newCounted (oldFiles : FileMap) (file : File) : Bool := (textAt oldFiles file.1).isNone

theorem summarizePart_spec (parts : List Part) (summary : Diff × Bool) :
    (parts.foldl summarizePart summary).1.filesChanged = summary.1.filesChanged ∧
      ((parts.foldl summarizePart summary).2 = false ↔
        summary.2 = false ∧ Unchanged (parts.map Part.edit)) := by
  induction parts generalizing summary with
  | nil => exact ⟨rfl, by simp [Unchanged, ofType]⟩
  | cons part parts ih =>
    obtain ⟨hfiles, hchanged⟩ := ih (summarizePart summary part)
    rw [List.foldl_cons, hfiles, hchanged]
    unfold summarizePart Unchanged ofType Part.edit
    cases hadded : part.added <;> cases hremoved : part.removed <;> simp [hadded, hremoved]

theorem filesChanged_summarizeOldFile {jsdiff : JsDiff} (hjsdiff : Faithful jsdiff.diffs)
    (newFiles : FileMap) (summary : Diff) (file : File) :
    (summarizeOldFile jsdiff newFiles summary file).filesChanged =
      summary.filesChanged + if oldCounted newFiles file then 1 else 0 := by
  unfold summarizeOldFile oldCounted
  cases textAt newFiles file.1 with
  | none => rfl
  | some newContent =>
    obtain ⟨hfiles, hchanged⟩ :=
      summarizePart_spec (jsdiff.diffLines file.2 newContent) (summary, false)
    have hsame : Unchanged (jsdiff.diffs file.2 newContent) ↔ file.2 = newContent :=
      hjsdiff.unchanged_iff
    unfold JsDiff.diffs at hsame
    rw [hsame] at hchanged
    dsimp only
    cases hrun : (jsdiff.diffLines file.2 newContent).foldl summarizePart (summary, false) with
    | mk summary' fileHasChanged =>
      rw [hrun] at hfiles hchanged
      cases fileHasChanged with
      | false =>
        rw [if_neg Bool.false_ne_true, if_neg]
        · exact hfiles
        · simpa using hchanged.mp rfl
      | true =>
        rw [if_pos rfl, if_pos]
        · exact congrArg (· + 1) hfiles
        · simpa using hchanged

theorem filesChanged_oldFiles {jsdiff : JsDiff} (hjsdiff : Faithful jsdiff.diffs)
    (newFiles : FileMap) (files : List File) (summary : Diff) :
    (files.foldl (summarizeOldFile jsdiff newFiles) summary).filesChanged =
      summary.filesChanged + (files.filter (oldCounted newFiles)).length := by
  induction files generalizing summary with
  | nil => rfl
  | cons file files ih =>
    rw [List.foldl_cons, ih, filesChanged_summarizeOldFile hjsdiff, List.filter_cons]
    split
    · rw [List.length_cons]
      omega
    · rfl

theorem filesChanged_newFiles (oldFiles : FileMap) (files : List File) (summary : Diff) :
    (files.foldl (summarizeNewFile oldFiles) summary).filesChanged =
      summary.filesChanged + (files.filter (newCounted oldFiles)).length := by
  induction files generalizing summary with
  | nil => rfl
  | cons file files ih =>
    rw [List.foldl_cons, ih, List.filter_cons]
    unfold summarizeNewFile newCounted
    cases textAt oldFiles file.1 with
    | none =>
      simp only [Option.isNone_none, if_true, List.length_cons]
      omega
    | some contents => rfl

theorem changed_of_oldCounted {newFiles : FileMap} (file : File)
    (h : oldCounted newFiles file = true) :
    newFiles.changed file = true := by
  unfold oldCounted textAt at h
  unfold Dictionary.changed Dictionary.missing Dictionary.differs
  cases hget : newFiles.get file.1 with
  | none => rfl
  | some newContent =>
    rw [hget] at h
    simpa [ne_comm] using h

theorem missing_of_newCounted {oldFiles : FileMap} (file : File)
    (h : newCounted oldFiles file = true) : oldFiles.missing file = true := by
  unfold newCounted textAt at h
  unfold Dictionary.missing
  cases hget : oldFiles.get file.1 with
  | none => rfl
  | some contents =>
    rw [hget] at h
    cases h

end

/-! ## Exactness -/

/-- The files of a version, as they are rendered for a downstream. -/
def Kustomize.Renders (kustomize : Kustomize) (kustomizeVersion dir downstreamName : String)
    (files : FileMap) : Prop :=
  ∃ output, kustomize.build kustomizeVersion [dir, "overlays", "downstreams", downstreamName] =
      .ok output ∧
    kustomize.splitYAML output = .ok files

/-- Whatever the order, both programs return the number of files that changed. -/
def FilesExact (dmp : DiffMatchPatch) (jsdiff : JsDiff) (kustomize : Kustomize)
    (files : Nat → FileMap) (sequence : Nat)
    (downstreamName archive diffBasePath kustomizeVersion : String) : Prop :=
  ∀ range : Reorder File, ∃ diff summary,
    DiffAppVersionsForDownstream dmp kustomize range downstreamName archive diffBasePath
        kustomizeVersion = .ok diff ∧
      getDiffSummary jsdiff files (some sequence) = some summary ∧
      diff.filesChanged = changedFiles (files (sequence + 1)) (files sequence) ∧
      summary.filesChanged = diff.filesChanged

/-- No file is counted that did not change, or left out for its name. -/
structure NoneMiscounted (archiveFiles baseFiles : FileMap) : Prop where
  unchanged : (∀ file ∈ archiveFiles.rows, file ∉ baseFiles.rows) ∨
    ∀ file ∈ archiveFiles.rows, contributes baseFiles file = false
  newNames : ∀ file ∈ archiveFiles.rows, baseFiles.get file.1 = none → inherited file.1 = none
  oldNames : ∀ file ∈ baseFiles.rows, archiveFiles.get file.1 = none →
    inherited file.1 ≠ some file.2

section

variable {dmp : DiffMatchPatch} {jsdiff : JsDiff} {kustomize : Kustomize} {range : Reorder File}
  {archiveFiles baseFiles : FileMap}
  {downstreamName archive diffBasePath kustomizeVersion : String}

/-- What `DiffAppVersionsForDownstream` counts. -/
theorem DiffAppVersionsForDownstream_spec (range : Reorder File) (hdmp : Faithful dmp.diffs)
    (harchive : kustomize.Renders kustomizeVersion archive downstreamName archiveFiles)
    (hbase : kustomize.Renders kustomizeVersion diffBasePath downstreamName baseFiles) :
    ∃ diff, DiffAppVersionsForDownstream dmp kustomize range downstreamName archive diffBasePath
        kustomizeVersion = .ok diff ∧
      diff.filesChanged = counted baseFiles false (range.apply archiveFiles.rows) +
        (baseFiles.rows.filter archiveFiles.missing).length := by
  obtain ⟨archiveOutput, hbuild, hsplit⟩ := harchive
  obtain ⟨baseOutput, hbuild', hsplit'⟩ := hbase
  obtain ⟨diff, hdiff, hcounted⟩ :=
    foldlM_spec hdmp baseFiles (range.apply archiveFiles.rows) {}
  refine ⟨(range.apply baseFiles.rows).foldl (diffBaseFile archiveFiles) diff, ?_, ?_⟩
  · unfold DiffAppVersionsForDownstream
    rw [hbuild, hbuild']
    simp only [wrap, bind, Except.bind, hsplit, hsplit']
    rw [hdiff]
    rfl
  · rw [filesChanged_diffBaseFiles, hcounted,
      ((range.perm baseFiles.rows).filter archiveFiles.missing).length_eq]
    exact congrArg (· + _) (Nat.zero_add _)

/-- The count is exact in every order if the files that did not change cannot be counted. -/
theorem counted_iff : (∀ range : Reorder File,
      counted baseFiles false (range.apply archiveFiles.rows) =
        (archiveFiles.rows.filter baseFiles.missing).length +
          (archiveFiles.rows.filter baseFiles.differs).length) ↔
    (∀ file ∈ archiveFiles.rows, file ∉ baseFiles.rows) ∨
      ∀ file ∈ archiveFiles.rows, contributes baseFiles file = false := by
  rw [← Dictionary.length_changed]
  constructor
  · intro h
    apply Classical.byContradiction
    intro hnone
    simp only [not_or, not_forall, not_not, Bool.not_eq_false] at hnone
    obtain ⟨⟨same, hsame, hbase⟩, first, hfirst, hcontributes⟩ := hnone
    -- once `first` has been walked, every file is counted
    have hcounted := h (Reorder.first first)
    have hlength := ((Reorder.first first).perm archiveFiles.rows).length_eq
    rw [Reorder.apply_first hfirst] at hcounted hlength
    unfold counted at hcounted
    rw [hcontributes, Bool.or_true, Bool.or_true, if_pos rfl, counted_true, Nat.add_comm,
      ← List.length_cons, hlength] at hcounted
    have hchanged := List.length_filter_eq_length_iff.mp hcounted.symm same hsame
    rw [Dictionary.changed_eq_false_iff.mpr hbase] at hchanged
    cases hchanged
  · rintro (hchanged | hidle) range
    · have hall : ∀ file ∈ archiveFiles.rows, baseFiles.changed file = true := by
        intro file hfile
        have hnot := hchanged file hfile
        rw [← Dictionary.changed_eq_false_iff, Bool.not_eq_false] at hnot
        exact hnot
      rw [counted_of_changed fun file hfile => hall file (range.mem_apply.mp hfile),
        (range.perm _).length_eq, List.length_filter_eq_length_iff.mpr hall]
    · rw [counted_of_idle fun file hfile => hidle file (range.mem_apply.mp hfile),
        ((range.perm _).filter _).length_eq]
      congr 1
      apply List.filter_congr
      intro file hfile
      unfold Dictionary.changed
      cases hdiffers : baseFiles.differs file with
      | false => rw [Bool.or_false]
      | true =>
        have hcontributes := contributes_of_differs hdiffers
        rw [hidle file hfile] at hcontributes
        cases hcontributes

/-- What `getDiffSummary` counts. -/
theorem getDiffSummary_spec (hjsdiff : Faithful jsdiff.diffs) (files : Nat → FileMap)
    (sequence : Nat) : ∃ summary, getDiffSummary jsdiff files (some sequence) = some summary ∧
      summary.filesChanged =
        ((files sequence).rows.filter (oldCounted (files (sequence + 1)))).length +
          ((files (sequence + 1)).rows.filter (newCounted (files sequence))).length := by
  refine ⟨_, rfl, ?_⟩
  rw [filesChanged_newFiles, filesChanged_oldFiles hjsdiff]
  exact congrArg (· + _) (Nat.zero_add _)

/-- Each file is counted as it should be if no name is one of a property of every object. -/
theorem oldCounted_newCounted_iff :
    (baseFiles.rows.filter (oldCounted archiveFiles)).length +
        (archiveFiles.rows.filter (newCounted baseFiles)).length =
      changedFiles archiveFiles baseFiles ↔
    (∀ file ∈ archiveFiles.rows, baseFiles.get file.1 = none → inherited file.1 = none) ∧
      ∀ file ∈ baseFiles.rows, archiveFiles.get file.1 = none →
        inherited file.1 ≠ some file.2 := by
  -- seen from the base: its files that changed, and the new ones
  have hchanged : changedFiles archiveFiles baseFiles =
      (baseFiles.rows.filter archiveFiles.changed).length +
        (archiveFiles.rows.filter baseFiles.missing).length := by
    unfold changedFiles
    rw [Dictionary.length_changed, Dictionary.length_differs_comm]
    omega
  have hold : (baseFiles.rows.filter (oldCounted archiveFiles)).length ≤ _ :=
    List.length_filter_le_of_imp changed_of_oldCounted
  have hnew : (archiveFiles.rows.filter (newCounted baseFiles)).length ≤ _ :=
    List.length_filter_le_of_imp missing_of_newCounted
  -- neither count is too large, so the sum is right only if both are
  have hsum : (baseFiles.rows.filter (oldCounted archiveFiles)).length +
        (archiveFiles.rows.filter (newCounted baseFiles)).length =
      changedFiles archiveFiles baseFiles ↔
      (archiveFiles.rows.filter (newCounted baseFiles)).length =
          (archiveFiles.rows.filter baseFiles.missing).length ∧
        (baseFiles.rows.filter (oldCounted archiveFiles)).length =
          (baseFiles.rows.filter archiveFiles.changed).length := by
    omega
  -- a list is not shorter after a filter only if nothing falls out
  rw [hsum, List.length_filter_eq_iff missing_of_newCounted,
    List.length_filter_eq_iff changed_of_oldCounted]
  apply and_congr
  · apply forall₂_congr
    intro file _
    unfold Dictionary.missing newCounted textAt
    cases baseFiles.get file.1 <;> simp
  · apply forall₂_congr
    intro file _
    unfold Dictionary.changed Dictionary.missing Dictionary.differs oldCounted textAt
    cases archiveFiles.get file.1 with
    | none =>
      cases inherited file.1 with
      | none => simp
      | some text =>
        simp only [Option.isNone_none, Bool.true_or, forall_const, ne_eq, Option.some.injEq,
          decide_eq_true_eq]
        exact not_congr eq_comm
    | some contents =>
      simp only [Option.isNone_some, Bool.false_or, ne_eq, decide_eq_true_eq, reduceCtorEq,
        false_implies, iff_true]
      exact Ne.symm

end

/-- **The number of changed files is exact** where nothing is counted for the totals alone, and no
file has the name of a property of every object. -/
theorem filesExact_iff {dmp : DiffMatchPatch} {jsdiff : JsDiff} {kustomize : Kustomize}
    {files : Nat → FileMap} {sequence : Nat}
    {downstreamName archive diffBasePath kustomizeVersion : String}
    (hdmp : Faithful dmp.diffs) (hjsdiff : Faithful jsdiff.diffs)
    (harchive : kustomize.Renders kustomizeVersion archive downstreamName (files (sequence + 1)))
    (hbase : kustomize.Renders kustomizeVersion diffBasePath downstreamName (files sequence)) :
    FilesExact dmp jsdiff kustomize files sequence downstreamName archive diffBasePath
        kustomizeVersion ↔
      NoneMiscounted (files (sequence + 1)) (files sequence) := by
  obtain ⟨summary, hsummary, hsummarized⟩ := getDiffSummary_spec hjsdiff files sequence
  constructor
  · intro h
    have hcounted : (∀ file ∈ (files (sequence + 1)).rows, file ∉ (files sequence).rows) ∨
        ∀ file ∈ (files (sequence + 1)).rows, contributes (files sequence) file = false := by
      apply counted_iff.mp
      intro range
      obtain ⟨diff, _, hdiff, -, hexact, -⟩ := h range
      obtain ⟨diff', hdiff', hspec⟩ :=
        DiffAppVersionsForDownstream_spec range hdmp harchive hbase
      cases hdiff.symm.trans hdiff'
      unfold changedFiles at hexact
      omega
    obtain ⟨diff, summary', -, hsummary', hexact, hagree⟩ := h (Reorder.id File)
    cases hsummary.symm.trans hsummary'
    rw [hexact, hsummarized] at hagree
    obtain ⟨hnew, hold⟩ := oldCounted_newCounted_iff.mp hagree
    exact ⟨hcounted, hnew, hold⟩
  -- the two programs count the same files, each in its own order
  · rintro ⟨hcounted, hnew, hold⟩ range
    obtain ⟨diff, hdiff, hspec⟩ :=
      DiffAppVersionsForDownstream_spec range hdmp harchive hbase
    have hexact : diff.filesChanged = changedFiles (files (sequence + 1)) (files sequence) := by
      have hrange := counted_iff.mpr hcounted range
      unfold changedFiles
      omega
    refine ⟨diff, summary, hdiff, hsummary, hexact, ?_⟩
    rw [hsummarized, hexact]
    exact oldCounted_newCounted_iff.mpr ⟨hnew, hold⟩

/-- The parts of a script. -/
def partOf (edit : Edit Char) : Part where
  value := String.ofList edit.part
  count := edit.part.count '\n'
  added := edit.type = .insert
  removed := edit.type = .delete

/-- A library that finds no common lines. -/
def jsReplacing : JsDiff where
  diffLines oldStr newStr := (replaceAll oldStr.toList newStr.toList).map partOf

theorem edit_partOf (edit : Edit Char) : (partOf edit).edit = edit := by
  unfold Part.edit partOf
  rw [String.toList_ofList]
  cases edit with
  | mk type part => cases type <;> rfl

theorem faithful_jsReplacing : Faithful jsReplacing.diffs := by
  have hscript : ∀ a b, jsReplacing.diffs a b = replaceAll a.toList b.toList := by
    intro a b
    unfold JsDiff.diffs jsReplacing
    rw [List.map_map]
    exact (List.map_congr_left fun edit _ => edit_partOf edit).trans (List.map_id _)
  constructor
  · intro a b
    rw [hscript]
    exact spells_replaceAll _ _
  · intro a
    rw [hscript]
    exact unchanged_replaceAll _

theorem faithful_replacing : Faithful replacing.diffs where
  spells := correct_replacing
  unchanged _ := unchanged_replaceAll _

def rendering (archiveFiles baseFiles : FileMap) : Kustomize where
  build _ path := .ok (path.headD "")
  splitYAML output := .ok (if output = "archive" then archiveFiles else baseFiles)

def oneFile (contents : String) : FileMap := ⟨[("config.yaml", contents)], List.nodup_singleton _⟩

def oneMore : FileMap := ⟨[("config.yaml", "a: 1\n"), ("service.yaml", "b: 2\n")], by decide⟩

/-- A file with another line. -/
theorem filesExact_line : FilesExact replacing jsReplacing
    (rendering (oneFile "a: 2\n") (oneFile "a: 1\n"))
    (fun sequence => if sequence = 0 then oneFile "a: 1\n" else oneFile "a: 2\n") 0
    "downstream" "archive" "base" "3.5.4" :=
  (filesExact_iff faithful_replacing faithful_jsReplacing ⟨"archive", rfl, rfl⟩
    ⟨"base", rfl, rfl⟩).mpr
      ⟨Or.inl (by decide), by decide, by decide⟩

/-- After the new file, the one that is the same counts as well. -/
theorem not_filesExact : ¬ ∀ (dmp : DiffMatchPatch) (jsdiff : JsDiff) (kustomize : Kustomize)
    (files : Nat → FileMap) (sequence : Nat)
    (downstreamName archive diffBasePath kustomizeVersion : String),
    Faithful dmp.diffs → Faithful jsdiff.diffs →
    kustomize.Renders kustomizeVersion archive downstreamName (files (sequence + 1)) →
    kustomize.Renders kustomizeVersion diffBasePath downstreamName (files sequence) →
      FilesExact dmp jsdiff kustomize files sequence downstreamName archive diffBasePath
        kustomizeVersion := by
  intro h
  obtain ⟨diff, summary, hdiff, -, hexact, -⟩ := h replacing jsReplacing
    (rendering oneMore (oneFile "a: 1\n"))
    (fun sequence => if sequence = 0 then oneFile "a: 1\n" else oneMore) 0
    "downstream" "archive" "base" "3.5.4" faithful_replacing faithful_jsReplacing
    ⟨"archive", rfl, rfl⟩ ⟨"base", rfl, rfl⟩ (Reorder.first ("service.yaml", "b: 2\n"))
  have hrun : DiffAppVersionsForDownstream replacing (rendering oneMore (oneFile "a: 1\n"))
      (Reorder.first ("service.yaml", "b: 2\n")) "downstream" "archive" "base" "3.5.4" =
        .ok { filesChanged := 2, linesAdded := 1 } := by decide +kernel
  cases hrun.symm.trans hdiff
  revert hexact
  decide +kernel

end Kotsadm.Downstream
