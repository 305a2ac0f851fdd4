import Kotsadm.Flows.Extraction
import Kotsadm.Lib.Utf8

/-!
# ExtractedContents — what the API writes into the files of an extracted archive

`render` and `getImagePullSecretFromArchive` read an entry with `KotsApp.readFile`, which makes a
text of each chunk as it comes, and write the text.  How the stream of an archive is cut into chunks
is up to the network and to gunzip.
-/

namespace Kotsadm.ExtractedContents

open Extraction PathSigns

/-- An entry of an archive, its contents in the chunks in which they come. -/
structure TarEntry extends Entry Char where
  chunks : List (List UInt8)

def TarEntry.contents (entry : TarEntry) : List UInt8 := entry.chunks.flatten

structure File where
  fileName : List Char
  contents : List UInt8
  deriving DecidableEq, Repr

/-- The body of the loop: `contents += chunk.toString()` -/
def readFile (chunks : List (List UInt8)) : List Char :=
  chunks.foldl (fun contents chunk => contents ++ Utf8.decode chunk) []

section

variable (cwd : Place Char) (tmpDir : Dir Char)

def fileName (entry : TarEntry) : List Char := nodePath.joinNormalize tmpDir.path entry.name

/-- The file of an entry is made and written; what is not throws, and the archive is not read on. -/
def Writes (entry : TarEntry) (answer : Answer) : Prop :=
  answer.prepare = true ∧ answer.create = true ∧ answer.write = true ∧
    Opens nodePath cwd tmpDir (fileName tmpDir entry)

instance (entry : TarEntry) (answer : Answer) : Decidable (Writes cwd tmpDir entry answer) :=
  inferInstanceAs (Decidable (_ ∧ _))

/-- The handler of the entries, which is the same in both functions. -/
def writeEntries : List (TarEntry × Answer) → List File
  | [] => []
  | (entry, answer) :: rest =>
    if entry.regular = false then writeEntries rest
    else if Writes cwd tmpDir entry answer then
      ⟨fileName tmpDir entry, Utf8.encode (readFile entry.chunks)⟩ :: writeEntries rest
    else []

def getImagePullSecretFromArchive : List (TarEntry × Answer) → List File :=
  writeEntries cwd tmpDir

def render : List (TarEntry × Answer) → List File := writeEntries cwd tmpDir

/-! ## Byte for byte -/

/-- The entries whose files are written. -/
def written : List (TarEntry × Answer) → List TarEntry
  | [] => []
  | (entry, answer) :: rest =>
    if entry.regular = false then written rest
    else if Writes cwd tmpDir entry answer then entry :: written rest
    else []

/-- Every file that is written has the contents of its entry. -/
def Exact (extract : List (TarEntry × Answer) → List File) (run : List (TarEntry × Answer)) :
    Prop :=
  extract run = (written cwd tmpDir run).map fun entry => ⟨fileName tmpDir entry, entry.contents⟩

/-- No chunk of a file that is written ends within a character, or has bytes that are no text. -/
def ChunksAreText (run : List (TarEntry × Answer)) : Prop :=
  ∀ entry ∈ written cwd tmpDir run, ∀ chunk ∈ entry.chunks, Utf8.Valid chunk

/-- The same archive, and the same answers; the chunks may differ. -/
def SameArchive (run run' : List (TarEntry × Answer)) : Prop :=
  List.Forall₂ (fun p q : TarEntry × Answer => p.1.toEntry = q.1.toEntry ∧
    p.1.contents = q.1.contents ∧ p.2 = q.2) run run'

end

section

variable {cwd : Place Char} {tmpDir : Dir Char} {run run' : List (TarEntry × Answer)}

theorem readFile_eq (chunks : List (List UInt8)) : readFile chunks = Utf8.decodePieces chunks := by
  have hfold : ∀ contents, chunks.foldl (fun contents chunk => contents ++ Utf8.decode chunk)
      contents = contents ++ Utf8.decodePieces chunks := by
    induction chunks with
    | nil => exact fun contents => (List.append_nil contents).symm
    | cons chunk chunks ih =>
      intro contents
      show chunks.foldl _ (contents ++ Utf8.decode chunk) = _
      rw [ih, List.append_assoc]
      rfl
  exact hfold []

theorem encode_readFile_iff (entry : TarEntry) :
    Utf8.encode (readFile entry.chunks) = entry.contents ↔
      ∀ chunk ∈ entry.chunks, Utf8.Valid chunk := by
  rw [readFile_eq]
  exact Utf8.encode_decodePieces_iff

/-- A file for each of the entries that are written. -/
theorem writeEntries_eq (run : List (TarEntry × Answer)) :
    writeEntries cwd tmpDir run = (written cwd tmpDir run).map fun entry =>
      ⟨fileName tmpDir entry, Utf8.encode (readFile entry.chunks)⟩ := by
  induction run with
  | nil => rfl
  | cons step rest ih =>
    obtain ⟨entry, answer⟩ := step
    unfold writeEntries written
    split
    next => exact ih
    next =>
      split
      next => rw [ih, List.map_cons]
      next => rfl

/-- The names of the files are those of `Extraction`, when no write fails. -/
theorem map_fileName_render (hwrite : ∀ step ∈ run, step.2.write = true) :
    (render cwd tmpDir run).map File.fileName =
      Extraction.render cwd tmpDir (run.map fun step => (step.1.toEntry, step.2)) := by
  unfold render Extraction.render
  induction run with
  | nil => rfl
  | cons step rest ih =>
    obtain ⟨entry, answer⟩ := step
    obtain ⟨hfirst, hrest⟩ := List.forall_mem_cons.mp hwrite
    have ih := ih hrest
    unfold writeEntries
    rw [List.map_cons]
    unfold writeFiles
    dsimp only at hfirst ⊢
    by_cases hregular : entry.regular = false
    · rw [if_pos hregular, if_pos hregular]
      exact ih
    rw [if_neg hregular, if_neg hregular]
    by_cases hprepare : answer.prepare = false
    · rw [if_pos hprepare, if_neg]
      · rfl
      · intro hwrites
        exact absurd (hprepare.symm.trans hwrites.1) (by decide)
    rw [if_neg hprepare]
    by_cases hopens : answer.create = true ∧ Opens nodePath cwd tmpDir (fileName tmpDir entry)
    · have hwrites : Writes cwd tmpDir entry answer :=
        ⟨Bool.of_not_eq_false hprepare, hopens.1, hfirst, hopens.2⟩
      unfold fileName at hopens
      rw [if_pos hwrites, if_pos hopens, List.map_cons, ih, hfirst]
      rfl
    · have hnot : ¬ Writes cwd tmpDir entry answer := fun hwrites =>
        hopens ⟨hwrites.2.1, hwrites.2.2.2⟩
      unfold fileName at hopens
      rw [if_neg hnot, if_neg hopens]
      rfl

theorem exact_iff (run : List (TarEntry × Answer)) :
    Exact cwd tmpDir (writeEntries cwd tmpDir) run ↔ ChunksAreText cwd tmpDir run := by
  unfold Exact ChunksAreText
  rw [writeEntries_eq, List.map_inj_left]
  refine forall₂_congr fun entry _ => ?_
  rw [← encode_readFile_iff]
  constructor
  · intro h
    exact congrArg File.contents h
  · intro h
    rw [h]

/-- The same entries are written, whatever the chunks are. -/
theorem map_written_eq (h : SameArchive run run') :
    (written cwd tmpDir run).map (fun entry => (⟨fileName tmpDir entry, entry.contents⟩ : File)) =
      (written cwd tmpDir run').map fun entry => ⟨fileName tmpDir entry, entry.contents⟩ := by
  induction h with
  | nil => rfl
  | @cons p q rest rest' hstep _ ih =>
    obtain ⟨entry, answer⟩ := p
    obtain ⟨entry', answer'⟩ := q
    obtain ⟨hentry, hcontents, hanswer⟩ := hstep
    dsimp only at hentry hcontents hanswer
    subst hanswer
    have hregular : entry'.regular = entry.regular := by rw [hentry]
    have hfile : fileName tmpDir entry' = fileName tmpDir entry := by
      unfold fileName
      rw [hentry]
    have hwrites : Writes cwd tmpDir entry' answer ↔ Writes cwd tmpDir entry answer := by
      unfold Writes
      rw [hfile]
    unfold written
    rw [hregular]
    simp only [hwrites]
    split
    next => exact ih
    next =>
      split
      next => rw [List.map_cons, List.map_cons, ih, hfile, hcontents]
      next => rfl

end

/-- **Files are extracted byte for byte** by both functions exactly if every chunk of a file that is
written is text of its own; two runs for which that holds write the same files. -/
theorem extracted_iff (cwd : Place Char) (tmpDir : Dir Char) (run : List (TarEntry × Answer)) :
    (Exact cwd tmpDir (render cwd tmpDir) run ↔ ChunksAreText cwd tmpDir run) ∧
    (Exact cwd tmpDir (getImagePullSecretFromArchive cwd tmpDir) run ↔
      ChunksAreText cwd tmpDir run) ∧
    ∀ run', SameArchive run run' → ChunksAreText cwd tmpDir run → ChunksAreText cwd tmpDir run' →
      render cwd tmpDir run = render cwd tmpDir run' := by
  refine ⟨exact_iff run, exact_iff run, fun run' hsame htext htext' => ?_⟩
  calc render cwd tmpDir run
      = (written cwd tmpDir run).map fun entry => ⟨fileName tmpDir entry, entry.contents⟩ :=
        (exact_iff run).mpr htext
    _ = (written cwd tmpDir run').map fun entry => ⟨fileName tmpDir entry, entry.contents⟩ :=
        map_written_eq hsame
    _ = render cwd tmpDir run' := ((exact_iff run').mpr htext').symm

/-! ## A euro sign -/

def tmpDir : Dir Char := ⟨"/tmp/t".toList, by decide⟩

/-- A file with the three bytes of `€`, in these chunks. -/
def euro (chunks : List (List UInt8)) : List (TarEntry × Answer) :=
  [({ name := "a".toList, chunks }, {})]

theorem sameArchive_euro : SameArchive (euro [[0xE2, 0x82, 0xAC]]) (euro [[0xE2, 0x82], [0xAC]]) :=
  .cons ⟨rfl, rfl, rfl⟩ .nil

/-- In two chunks it is written as two replacement characters. -/
theorem not_exact_splitChunk :
    ¬ ((∀ (cwd : Place Char) (dir : Dir Char) (run : List (TarEntry × Answer)),
        Exact cwd dir (render cwd dir) run) ∨
      ∀ (cwd : Place Char) (dir : Dir Char) (run run' : List (TarEntry × Answer)),
        SameArchive run run' → render cwd dir run = render cwd dir run') := by
  rintro (h | h)
  · have heuro := h [] tmpDir (euro [[0xE2, 0x82], [0xAC]])
    exact absurd heuro (by unfold Exact; decide +kernel)
  · have heuro := h [] tmpDir _ _ sameArchive_euro
    exact absurd heuro (by decide +kernel)

end Kotsadm.ExtractedContents
