import Kotsadm.Lib.GoText
import Kotsadm.Lib.Path

/-!
# Extraction — the files that are written from a `tar.gz` archive

Four loops read the entries of an archive: one of the airgap installation in Go, and three of the
API in TypeScript.  Each joins the destination and the name of the entry, makes the directory of the
result and writes the contents there.  The names are those of the archive, whatever they are.
-/

namespace Kotsadm.Extraction

open PathSigns

/-! ## Paths of the two languages -/

/-- A string of Go is a list of bytes. -/
def goPath : PathSigns UInt8 where
  slash := 47
  dot := 46
  slash_ne_dot := by decide

def nodePath : PathSigns Char where
  slash := '/'
  dot := '.'
  slash_ne_dot := by decide

/-- The name of a directory is not empty. -/
structure Dir (α : Type) where
  path : List α
  ne_nil : path ≠ []

/-! ## The loops -/

structure Entry (α : Type) where
  name : List α
  -- the type flag is that of a regular file
  regular : Bool := true

/-- What the operating system answers for an entry.  `prepare` is what comes before the file is
opened: its directory, and the contents where they are read first. -/
structure Answer where
  prepare : Bool := true
  create : Bool := true
  write : Bool := true

section

variable {α : Type} [DecidableEq α] (σ : PathSigns α) (cwd : Place α) (dir : Dir α)

/-- A file is not created under a name that ends with a slash, nor where a directory is; the
destination is a directory, and so is everything above it. -/
def Opens (file : List α) : Prop :=
  file.getLast? ≠ some σ.slash ∧ ¬ σ.locate cwd file <:+ σ.locate cwd dir.path

instance (file : List α) : Decidable (Opens σ cwd dir file) :=
  inferInstanceAs (Decidable (_ ∧ _))

/-- The files that a loop creates or overwrites.  With `goOn` the next entry does not wait for the
file. -/
def writeFiles (join : List α → List α) (goOn : Bool) : List (Entry α × Answer) → List (List α)
  | [] => []
  | (entry, answer) :: rest =>
    if entry.regular = false then writeFiles join goOn rest
    else if answer.prepare = false then []
    else if answer.create = true ∧ Opens σ cwd dir (join entry.name) then
      join entry.name :: (if goOn || answer.write then writeFiles join goOn rest else [])
    else if goOn then writeFiles join goOn rest
    else []

end

/-- `extractTGZArchive` ends with the first error. -/
def extractTGZArchive (cwd : Place UInt8) (destDir : Dir UInt8) :
    List (Entry UInt8 × Answer) → List GoString :=
  writeFiles goPath cwd destDir (goPath.joinClean destDir.path) false

/-- `extractFromTgzStream` pipes the entry into its file and goes on. -/
def extractFromTgzStream (cwd : Place Char) (dstDir : Dir Char) :
    List (Entry Char × Answer) → List (List Char) :=
  writeFiles nodePath cwd dstDir (nodePath.joinNormalize dstDir.path) true

/-- The entries of `getImagePullSecretFromArchive`; an error leaves the archive unread. -/
def getImagePullSecretFromArchive (cwd : Place Char) (tmpDir : Dir Char) :
    List (Entry Char × Answer) → List (List Char) :=
  writeFiles nodePath cwd tmpDir (nodePath.joinNormalize tmpDir.path) false

/-- The entries of `render`. -/
def render (cwd : Place Char) (tmpDir : Dir Char) :
    List (Entry Char × Answer) → List (List Char) :=
  writeFiles nodePath cwd tmpDir (nodePath.joinNormalize tmpDir.path) false

/-! ## The property -/

section

variable {α : Type} [DecidableEq α] (σ : PathSigns α) (cwd : Place α) (dir : Dir α)

/-- The file lies under the directory. -/
def Under (file : List α) : Prop :=
  σ.locate cwd dir.path <:+ σ.locate cwd file ∧ σ.locate cwd file ≠ σ.locate cwd dir.path

/-- Whatever the operating system answers, the files of the archive lie under the directory. -/
def StaysInside (extract : List (Entry α × Answer) → List (List α)) (archive : List (Entry α)) :
    Prop :=
  ∀ run : List (Entry α × Answer), run.map Prod.fst = archive →
    ∀ file ∈ extract run, Under σ cwd dir file

/-- The name leads into the directory: after its steps to the parent it enters as many directories
again, by their names. -/
def LeadsInside (name : List α) : Prop :=
  (σ.locate cwd dir.path).take (σ.climbs name) <:+ σ.names name

/-- The name leads to the directory or to one above it. -/
def LeadsAbove (name : List α) : Prop :=
  σ.names name <:+ (σ.locate cwd dir.path).take (σ.climbs name)

instance (name : List α) : Decidable (LeadsInside σ cwd dir name) :=
  inferInstanceAs (Decidable (_ <:+ _))

instance (name : List α) : Decidable (LeadsAbove σ cwd dir name) :=
  inferInstanceAs (Decidable (_ <:+ _))

/-- No file is written for the entry: it is not a regular file, or there is a directory. -/
def Blocked (keepsSlash : Bool) (entry : Entry α) : Prop :=
  LeadsAbove σ cwd dir entry.name ∨
    (keepsSlash = true ∧ entry.name.getLast? = some σ.slash)

instance (keepsSlash : Bool) (entry : Entry α) : Decidable (Blocked σ cwd dir keepsSlash entry) :=
  inferInstanceAs (Decidable (_ ∨ _))

/-- Every regular entry that is not blocked leads inside. -/
def Contained (keepsSlash : Bool) (archive : List (Entry α)) : Prop :=
  ∀ entry ∈ archive, entry.regular = true → ¬ Blocked σ cwd dir keepsSlash entry →
    LeadsInside σ cwd dir entry.name

/-- The entries that a loop comes to: all of them with `goOn`, else those up to the first regular one
that is blocked. -/
def reached (keepsSlash goOn : Bool) (archive : List (Entry α)) : List (Entry α) :=
  if goOn then archive
  else archive.takeWhile fun entry =>
    !entry.regular || !decide (Blocked σ cwd dir keepsSlash entry)

end

/-! ## Where the files are -/

section

variable {α : Type} [DecidableEq α] {σ : PathSigns α} {cwd : Place α} {dir : Dir α}

/-- What the two functions that join paths have in common. -/
structure Joins (σ : PathSigns α) (cwd : Place α) (dir : Dir α) (keepsSlash : Bool)
    (join : List α → List α) : Prop where
  locate : ∀ name, σ.locate cwd (join name) = σ.walk (σ.locate cwd dir.path) (σ.parts name)
  last : ∀ name, ¬ LeadsAbove σ cwd dir name →
    ((join name).getLast? = some σ.slash ↔ keepsSlash = true ∧ name.getLast? = some σ.slash)

theorem reached_cons {keepsSlash goOn : Bool} {entry : Entry α} {archive : List (Entry α)}
    (h : goOn = true ∨ entry.regular = false ∨ ¬ Blocked σ cwd dir keepsSlash entry) :
    reached σ cwd dir keepsSlash goOn (entry :: archive) =
      entry :: reached σ cwd dir keepsSlash goOn archive := by
  unfold reached
  cases goOn with
  | true => rfl
  | false =>
    rw [if_neg Bool.false_ne_true, if_neg Bool.false_ne_true, List.takeWhile_cons_of_pos]
    rcases h with h | h | h
    · cases h
    · simp [h]
    · simp [h]

section

variable {keepsSlash goOn : Bool} {join : List α → List α} (h : Joins σ cwd dir keepsSlash join)

include h

theorem Joins.inside_iff (name : List α) :
    σ.locate cwd dir.path <:+ σ.locate cwd (join name) ↔ LeadsInside σ cwd dir name := by
  rw [h.locate, walk_parts, suffix_append_drop]
  rfl

theorem Joins.above_iff (name : List α) :
    σ.locate cwd (join name) <:+ σ.locate cwd dir.path ↔ LeadsAbove σ cwd dir name := by
  rw [h.locate, walk_parts, append_drop_suffix]
  rfl

theorem Joins.opens_iff (entry : Entry α) :
    Opens σ cwd dir (join entry.name) ↔ ¬ Blocked σ cwd dir keepsSlash entry := by
  unfold Opens Blocked
  rw [h.above_iff, not_or]
  constructor
  · exact fun ⟨hlast, habove⟩ => ⟨habove, fun hslash => hlast ((h.last _ habove).mpr hslash)⟩
  · exact fun ⟨habove, hslash⟩ => ⟨fun hlast => hslash ((h.last _ habove).mp hlast), habove⟩

/-- A file that is created lies under the directory exactly when its name leads inside. -/
theorem Joins.under_iff {entry : Entry α} (hopens : ¬ Blocked σ cwd dir keepsSlash entry) :
    Under σ cwd dir (join entry.name) ↔ LeadsInside σ cwd dir entry.name := by
  have hne : σ.locate cwd (join entry.name) ≠ σ.locate cwd dir.path := by
    intro heq
    refine hopens (.inl ((h.above_iff entry.name).mp ?_))
    rw [heq]
  unfold Under
  rw [h.inside_iff]
  exact and_iff_left hne

/-- A file is written for a regular entry that the loop comes to. -/
theorem exists_of_mem_writeFiles {run : List (Entry α × Answer)} {file : List α}
    (hfile : file ∈ writeFiles σ cwd dir join goOn run) :
    ∃ entry ∈ reached σ cwd dir keepsSlash goOn (run.map Prod.fst), entry.regular = true ∧
      ¬ Blocked σ cwd dir keepsSlash entry ∧ join entry.name = file := by
  induction run with
  | nil => cases hfile
  | cons head rest ih =>
    obtain ⟨entry, answer⟩ := head
    -- what the rest of the archive gives, when the loop goes on after this entry
    have hrest : file ∈ writeFiles σ cwd dir join goOn rest →
        (goOn = true ∨ entry.regular = false ∨ ¬ Blocked σ cwd dir keepsSlash entry) →
        ∃ found ∈ reached σ cwd dir keepsSlash goOn (entry :: rest.map Prod.fst),
          found.regular = true ∧ ¬ Blocked σ cwd dir keepsSlash found ∧ join found.name = file := by
      intro hmem hpasses
      obtain ⟨found, hfound, hends⟩ := ih hmem
      rw [reached_cons hpasses]
      exact ⟨found, List.mem_cons_of_mem _ hfound, hends⟩
    rw [List.map_cons]
    unfold writeFiles at hfile
    split at hfile
    next hregular => exact hrest hfile (.inr (.inl hregular))
    next hregular =>
      split at hfile
      next => cases hfile
      next =>
        split at hfile
        next hopen =>
          have hopens : ¬ Blocked σ cwd dir keepsSlash entry := (h.opens_iff entry).mp hopen.2
          rcases List.mem_cons.mp hfile with rfl | hmem
          · refine ⟨entry, ?_, by simpa using hregular, hopens, rfl⟩
            rw [reached_cons (.inr (.inr hopens))]
            exact List.mem_cons_self
          · split at hmem
            · exact hrest hmem (.inr (.inr hopens))
            · cases hmem
        next =>
          split at hfile
          next hgoes => exact hrest hfile (.inl hgoes)
          next => cases hfile

/-- When the operating system has no objection, a file is written for each of them. -/
theorem mem_writeFiles {archive : List (Entry α)} {entry : Entry α}
    (hentry : entry ∈ reached σ cwd dir keepsSlash goOn archive) (hregular : entry.regular = true)
    (hopens : ¬ Blocked σ cwd dir keepsSlash entry) :
    join entry.name ∈ writeFiles σ cwd dir join goOn (archive.map fun entry => (entry, {})) := by
  induction archive with
  | nil =>
    cases goOn <;> cases hentry
  | cons first archive ih =>
    rw [List.map_cons]
    unfold writeFiles
    cases hfirst : first.regular with
    | false =>
      rw [reached_cons (.inr (.inl hfirst))] at hentry
      rw [if_pos rfl]
      rcases List.mem_cons.mp hentry with rfl | hmem
      · rw [hfirst] at hregular
        cases hregular
      · exact ih hmem
    | true =>
      rw [if_neg (by decide), if_neg (by decide)]
      by_cases hblocked : Blocked σ cwd dir keepsSlash first
      · have hcloses : ¬ Opens σ cwd dir (join first.name) := fun hopen =>
          (h.opens_iff first).mp hopen hblocked
        rw [if_neg fun hopen => hcloses hopen.2]
        cases goOn with
        | true =>
          rw [reached_cons (.inl rfl)] at hentry
          rw [if_pos rfl]
          rcases List.mem_cons.mp hentry with rfl | hmem
          · exact absurd hblocked hopens
          · exact ih hmem
        | false =>
          -- the loop ends here
          have hnil : reached σ cwd dir keepsSlash false (first :: archive) = [] := by
            unfold reached
            rw [if_neg Bool.false_ne_true, List.takeWhile_cons_of_neg (by simp [hfirst, hblocked])]
          rw [hnil] at hentry
          cases hentry
      · rw [reached_cons (.inr (.inr hblocked))] at hentry
        rw [if_pos ⟨rfl, (h.opens_iff first).mpr hblocked⟩, Bool.or_true, if_pos rfl]
        rcases List.mem_cons.mp hentry with rfl | hmem
        · exact List.mem_cons_self
        · exact List.mem_cons_of_mem _ (ih hmem)

/-- **A loop stays inside** exactly when the entries that it comes to are contained. -/
theorem staysInside_iff (archive : List (Entry α)) :
    StaysInside σ cwd dir (writeFiles σ cwd dir join goOn) archive ↔
      Contained σ cwd dir keepsSlash (reached σ cwd dir keepsSlash goOn archive) := by
  constructor
  · intro hstays entry hentry hregular hopens
    have hrun : (archive.map fun entry => (entry, ({} : Answer))).map Prod.fst = archive := by
      rw [List.map_map]
      exact List.map_id archive
    exact (h.under_iff hopens).mp (hstays _ hrun _ (mem_writeFiles h hentry hregular hopens))
  · rintro hcontained run rfl file hfile
    obtain ⟨entry, hentry, hregular, hopens, rfl⟩ := exists_of_mem_writeFiles h hfile
    exact (h.under_iff hopens).mpr (hcontained entry hentry hregular hopens)

end

/-! ## The two joins -/

/-- A path that does not lead above the destination is not the root, so no slash ends it. -/
theorem last_clean {name : List α} (habove : ¬ LeadsAbove σ cwd dir name) :
    (σ.clean (dir.path ++ σ.slash :: name)).getLast? ≠ some σ.slash := by
  have hbelow : ¬ σ.locate cwd (dir.path ++ σ.slash :: name) <:+ σ.locate cwd dir.path := by
    rw [locate_append dir.ne_nil, walk_parts, append_drop_suffix]
    exact habove
  intro hlast
  rw [← locate_clean, clean_eq_root hlast, locate_root] at hbelow
  exact hbelow List.nil_suffix

theorem joins_joinClean (σ : PathSigns α) (cwd : Place α) (dir : Dir α) :
    Joins σ cwd dir false (σ.joinClean dir.path) where
  locate := locate_joinClean dir.ne_nil cwd
  last := by
    intro name habove
    exact iff_of_false (last_clean habove) (fun hslash => nomatch hslash.1)

theorem joins_joinNormalize (σ : PathSigns α) (cwd : Place α) (dir : Dir α) :
    Joins σ cwd dir true (σ.joinNormalize dir.path) where
  locate := locate_joinNormalize dir.ne_nil cwd
  last := by
    intro name habove
    -- the empty name leads to the destination
    have hname : name ≠ [] := by
      rintro rfl
      exact habove List.nil_suffix
    have hlast := last_clean habove
    have hend : (dir.path ++ σ.slash :: name).getLast? = name.getLast? := by
      rw [List.getLast?_append_of_ne_nil _ (List.cons_ne_nil _ _),
        List.getLast?_cons_of_ne_nil hname]
    unfold joinNormalize PathSigns.normalize
    rw [if_neg hname, hend]
    split
    next hslash =>
      rw [List.getLast?_concat]
      exact iff_of_true rfl ⟨rfl, hslash.1⟩
    next hslash =>
      refine iff_of_false hlast fun hkept => hslash ⟨hkept.2, fun hroot => hlast ?_⟩
      rw [hroot]
      rfl

/-! ## The four loops -/

/-- **Extraction stays inside its directory**, for each of the four loops exactly when the entries
that it comes to are contained. -/
theorem staysInside_fourLoops (goCwd : Place UInt8) (nodeCwd : Place Char) (destDir : Dir UInt8)
    (dstDir secretDir renderDir : Dir Char) (release : List (Entry UInt8))
    (bundle archive version : List (Entry Char)) :
    (StaysInside goPath goCwd destDir (extractTGZArchive goCwd destDir) release ↔
      Contained goPath goCwd destDir false (reached goPath goCwd destDir false false release)) ∧
    (StaysInside nodePath nodeCwd dstDir (extractFromTgzStream nodeCwd dstDir) bundle ↔
      Contained nodePath nodeCwd dstDir true (reached nodePath nodeCwd dstDir true true bundle)) ∧
    (StaysInside nodePath nodeCwd secretDir (getImagePullSecretFromArchive nodeCwd secretDir)
        archive ↔
      Contained nodePath nodeCwd secretDir true
        (reached nodePath nodeCwd secretDir true false archive)) ∧
    (StaysInside nodePath nodeCwd renderDir (render nodeCwd renderDir) version ↔
      Contained nodePath nodeCwd renderDir true
        (reached nodePath nodeCwd renderDir true false version)) :=
  ⟨staysInside_iff (joins_joinClean goPath goCwd destDir) release,
    staysInside_iff (joins_joinNormalize nodePath nodeCwd dstDir) bundle,
    staysInside_iff (joins_joinNormalize nodePath nodeCwd secretDir) archive,
    staysInside_iff (joins_joinNormalize nodePath nodeCwd renderDir) version⟩

end

/-! ## A name that climbs -/

/-- An entry of an airgap bundle is written beside the destination. -/
theorem not_staysInside_dotdot : ¬ ∀ (cwd : Place UInt8) (destDir : Dir UInt8)
    (archive : List (Entry UInt8)),
    StaysInside goPath cwd destDir (extractTGZArchive cwd destDir) archive := by
  intro h
  let destDir : Dir UInt8 := ⟨GoString.ascii "/tmp/release", by decide⟩
  let entry : Entry UInt8 := { name := GoString.ascii "../evil" }
  have hunder := h [] destDir [entry] [(entry, {})] rfl (GoString.ascii "/tmp/evil") (by decide)
  exact absurd hunder.1 (by decide)

end Kotsadm.Extraction
