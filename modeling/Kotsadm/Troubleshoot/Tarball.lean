import Kotsadm.Lib.Dictionary
import Kotsadm.Lib.Reorder
import Mathlib.Data.List.Induction

/-!
# Tarball — files packed into an archive and unpacked again

`TarballPacker` and `TarballUnpacker` of `troubleshoot/util.ts`.  The contents of entries are read
in parallel and stored when they are there, in any order.  Without a filter the variable that holds
the paths to store an entry under is the name of the entry, and a loop over a string is one over its
characters.
-/

namespace Kotsadm.Troubleshoot

abbrev Buffer := List UInt8

/-- The own properties of an object of files -/
abbrev Files := Dictionary String Buffer

structure FilesAsBuffers where
  fakeIndex : List String := []
  files : Files := .empty

structure RequestedFile where
  path : String
  matcher : String → Bool

/-! ## Matchers -/

def eq (f1 : String) : String → Bool := fun f2 => f1 = f2

def eqIgnoringLeadingSlash (f1 : String) : String → Bool :=
  let pathName := if f1.toList.head? = some '/' then String.ofList f1.toList.tail else f1
  fun f2 => pathName = f2

/-! ## Archives -/

/-- An entry of an archive -/
structure TarEntry where
  name : String
  isFile : Bool := true
  contents : Buffer
  deriving DecidableEq, Repr

/-- `tar-stream`, with gzip around it: the entries that were packed come out again. -/
structure TarStream where
  Archive : Type
  pack : List TarEntry → Archive
  extract : Archive → List TarEntry
  extract_pack : ∀ entries, extract (pack entries) = entries

/-- `files[path] = contents`: an assignment to `__proto__` makes no property. -/
def assign (files : Files) (path : String) (contents : Buffer) : Files :=
  if path = "__proto__" then files else files.set path contents

/-- The paths that `of` gives: those of the requests, or the characters of the name. -/
def pathsToStoreThisTarEntry (filesWeCareAbout : Option (List RequestedFile)) (name : String) :
    List String :=
  match filesWeCareAbout with
  | some filesWeCareAbout => (filesWeCareAbout.filter fun f => f.matcher name).map (·.path)
  | none => name.toList.map String.singleton

/-- What the promise of an entry does when its contents are read. -/
def storeEntry (filesWeCareAbout : Option (List RequestedFile)) (files : Files) (entry : TarEntry) :
    Files :=
  (pathsToStoreThisTarEntry filesWeCareAbout entry.name).foldl
    (fun files path => assign files path entry.contents) files

section

variable (tar : TarStream)

/-- The promises of the entries that are read are done in the order `done`. -/
def unpackFrom (done : Reorder TarEntry) (tarStream : Option tar.Archive)
    (filesWeCareAbout : Option (List RequestedFile)) : FilesAsBuffers :=
  match tarStream with
  | none => {}
  | some archive =>
    let files := (tar.extract archive).filter (·.isFile)
    let requested := files.filter fun entry =>
      (pathsToStoreThisTarEntry filesWeCareAbout entry.name).length ≠ 0
    { fakeIndex := files.map (·.name)
      files := (done.apply requested).foldl (storeEntry filesWeCareAbout) .empty }

/-- `for … in` gives the properties of an object in an order of its own. -/
def packFiles (forIn : Reorder (String × Buffer)) (files : FilesAsBuffers) : tar.Archive :=
  tar.pack ((forIn.apply files.files.rows).map fun row => { name := row.1, contents := row.2 })

end

/-! ## What is stored -/

section

variable {files : Files} {key : String} {assignments : List (String × Buffer)}

def assignAll (files : Files) (assignments : List (String × Buffer)) : Files :=
  assignments.foldl (fun files row => assign files row.1 row.2) files

theorem get_assign (files : Files) (path : String) (contents : Buffer) (key : String) :
    (assign files path contents).get key =
      if path = key ∧ key ≠ "__proto__" then some contents else files.get key := by
  unfold assign
  by_cases hproto : path = "__proto__"
  · rw [if_pos hproto, if_neg]
    rintro ⟨rfl, hne⟩
    exact hne hproto
  · rw [if_neg hproto, Dictionary.get_set]
    by_cases hkey : path = key
    · subst hkey
      rw [if_pos rfl, if_pos ⟨rfl, hproto⟩]
    · rw [if_neg hkey, if_neg fun hand => hkey hand.1]

/-- A key has a value only by an assignment. -/
theorem mem_of_get_assignAll {contents : Buffer}
    (h : (assignAll files assignments).get key = some contents) (hfresh : files.get key = none) :
    key ≠ "__proto__" ∧ (key, contents) ∈ assignments := by
  induction assignments using List.reverseRecOn generalizing contents with
  | nil =>
    rw [show assignAll files [] = files from rfl, hfresh] at h
    cases h
  | append_singleton before row ih =>
    unfold assignAll at h
    rw [List.foldl_concat, get_assign] at h
    split at h
    next hrow =>
      cases h
      refine ⟨hrow.2, List.mem_append_right before ?_⟩
      rw [← hrow.1]
      exact List.mem_singleton_self _
    next =>
      obtain ⟨hproto, hmem⟩ := ih h
      exact ⟨hproto, List.mem_append_left _ hmem⟩

/-- A key that gets one value only has it. -/
theorem get_assignAll_of_mem {contents : Buffer} (hproto : key ≠ "__proto__")
    (hmem : (key, contents) ∈ assignments)
    (hunique : ∀ other, (key, other) ∈ assignments → other = contents) :
    (assignAll files assignments).get key = some contents := by
  induction assignments using List.reverseRecOn with
  | nil => cases hmem
  | append_singleton before row ih =>
    unfold assignAll
    rw [List.foldl_concat, get_assign]
    split
    next hrow =>
      have hlast : (key, row.2) ∈ before ++ [row] := by
        apply List.mem_append_right
        rw [← hrow.1]
        exact List.mem_singleton_self _
      rw [hunique row.2 hlast]
    next hrow =>
      refine ih ?_ fun other hother => hunique other (List.mem_append_left _ hother)
      rcases List.mem_append.mp hmem with hbefore | hsame
      · exact hbefore
      · rw [← List.mem_singleton.mp hsame] at hrow
        exact absurd ⟨rfl, hproto⟩ hrow

end

section

variable {tar : TarStream} {forIn : Reorder (String × Buffer)} {done : Reorder TarEntry}
  {packed : FilesAsBuffers} {filesWeCareAbout : Option (List RequestedFile)} {key : String}
  {contents : Buffer}

/-- The assignments that entries make, one after the other. -/
def assignmentsOf (filesWeCareAbout : Option (List RequestedFile)) (entries : List TarEntry) :
    List (String × Buffer) :=
  entries.flatMap fun entry =>
    (pathsToStoreThisTarEntry filesWeCareAbout entry.name).map fun path => (path, entry.contents)

theorem foldl_storeEntry (files : Files) (entries : List TarEntry) :
    entries.foldl (storeEntry filesWeCareAbout) files =
      assignAll files (assignmentsOf filesWeCareAbout entries) := by
  induction entries generalizing files with
  | nil => rfl
  | cons entry entries ih =>
    have hentry : storeEntry filesWeCareAbout files entry = assignAll files
        ((pathsToStoreThisTarEntry filesWeCareAbout entry.name).map fun path =>
          (path, entry.contents)) := by
      unfold storeEntry assignAll
      rw [List.foldl_map]
    rw [List.foldl_cons, ih, hentry]
    unfold assignAll assignmentsOf
    rw [List.flatMap_cons, List.foldl_append]

/-- What is unpacked of a packed archive. -/
def unpacked (tar : TarStream) (forIn : Reorder (String × Buffer)) (done : Reorder TarEntry)
    (packed : FilesAsBuffers) (filesWeCareAbout : Option (List RequestedFile)) : Files :=
  (unpackFrom tar done (some (packFiles tar forIn packed)) filesWeCareAbout).files

theorem exists_assignments (tar : TarStream) (forIn : Reorder (String × Buffer))
    (done : Reorder TarEntry) (packed : FilesAsBuffers)
    (filesWeCareAbout : Option (List RequestedFile)) : ∃ assignments,
    unpacked tar forIn done packed filesWeCareAbout = assignAll .empty assignments ∧
      ∀ key contents, (key, contents) ∈ assignments ↔
        ∃ row ∈ packed.files.rows,
          key ∈ pathsToStoreThisTarEntry filesWeCareAbout row.1 ∧ row.2 = contents := by
  refine ⟨_, foldl_storeEntry _ _, fun key contents => ?_⟩
  unfold packFiles assignmentsOf
  rw [tar.extract_pack]
  simp only [List.mem_flatMap, List.mem_map, Reorder.mem_apply, List.mem_filter]
  constructor
  · rintro ⟨entry, ⟨⟨⟨row, hrow, rfl⟩, -⟩, -⟩, path, hpath, heq⟩
    cases heq
    exact ⟨row, hrow, hpath, rfl⟩
  · rintro ⟨row, hrow, hkey, rfl⟩
    refine ⟨_, ⟨⟨⟨row, hrow, rfl⟩, rfl⟩, decide_eq_true ?_⟩, key, hkey, rfl⟩
    exact List.length_pos_iff_exists_mem.mpr ⟨key, hkey⟩ |>.ne'

/-- What is unpacked comes from a file that is stored under the key. -/
theorem exists_of_get_unpacked
    (h : (unpacked tar forIn done packed filesWeCareAbout).get key = some contents) :
    key ≠ "__proto__" ∧ ∃ row ∈ packed.files.rows,
      key ∈ pathsToStoreThisTarEntry filesWeCareAbout row.1 ∧ row.2 = contents := by
  obtain ⟨assignments, heq, hmem⟩ :=
    exists_assignments tar forIn done packed filesWeCareAbout
  rw [heq] at h
  obtain ⟨hproto, hassigned⟩ := mem_of_get_assignAll h rfl
  exact ⟨hproto, (hmem key contents).mp hassigned⟩

/-- A key that no file is stored under has nothing. -/
theorem get_unpacked_eq_none
    (h : ∀ row ∈ packed.files.rows, key ∉ pathsToStoreThisTarEntry filesWeCareAbout row.1) :
    (unpacked tar forIn done packed filesWeCareAbout).get key = none := by
  by_contra hsome
  obtain ⟨contents, hget⟩ := Option.ne_none_iff_exists'.mp hsome
  obtain ⟨-, row, hrow, hkey, -⟩ := exists_of_get_unpacked hget
  exact h row hrow hkey

/-- A key that one file is stored under has its contents. -/
theorem get_unpacked_of_mem {row : String × Buffer} (hproto : key ≠ "__proto__")
    (hrow : row ∈ packed.files.rows)
    (hkey : key ∈ pathsToStoreThisTarEntry filesWeCareAbout row.1)
    (hunique : ∀ other ∈ packed.files.rows,
      key ∈ pathsToStoreThisTarEntry filesWeCareAbout other.1 → other = row) :
    (unpacked tar forIn done packed filesWeCareAbout).get key = some row.2 := by
  obtain ⟨assignments, heq, hmem⟩ :=
    exists_assignments tar forIn done packed filesWeCareAbout
  rw [heq]
  refine get_assignAll_of_mem hproto ((hmem key row.2).mpr ⟨row, hrow, hkey, rfl⟩) ?_
  intro contents hother
  obtain ⟨other, hotherRow, hotherKey, rfl⟩ := (hmem key contents).mp hother
  rw [hunique other hotherRow hotherKey]

end

/-! ## Pack and unpack -/

/-- The map that was packed -/
def Same (files packed : Files) : Prop := ∀ path, files.get path = packed.get path

/-- The map that was packed, without the paths that were not requested -/
def Restricts (files packed : Files) (requested : List String) : Prop :=
  ∀ path, files.get path = if path ∈ requested then packed.get path else none

/-- One filter for each requested path -/
def exactly (matcher : String → String → Bool) (requested : List String) :
    Option (List RequestedFile) :=
  some (requested.map fun path => { path, matcher := matcher path })

section

variable {tar : TarStream} {forIn : Reorder (String × Buffer)} {done : Reorder TarEntry}
  {packed : FilesAsBuffers} {requested : List String}

theorem mem_pathsToStore_none {path name : String} :
    path ∈ pathsToStoreThisTarEntry none name ↔ ∃ c ∈ name.toList, String.singleton c = path :=
  List.mem_map

theorem mem_pathsToStore_eq {path name : String} :
    path ∈ pathsToStoreThisTarEntry (exactly eq requested) name ↔
      path ∈ requested ∧ path = name := by
  unfold exactly pathsToStoreThisTarEntry
  simp only [List.mem_map, List.mem_filter]
  constructor
  · rintro ⟨f, ⟨⟨path', hpath, rfl⟩, hmatch⟩, rfl⟩
    exact ⟨hpath, of_decide_eq_true hmatch⟩
  · rintro ⟨hpath, rfl⟩
    exact ⟨_, ⟨⟨path, hpath, rfl⟩, decide_eq_true rfl⟩, rfl⟩

theorem singleton_eq {name : String} (h : name.toList.length = 1) {c : Char}
    (hc : c ∈ name.toList) : String.singleton c = name := by
  obtain ⟨d, hd⟩ := List.length_eq_one_iff.mp h
  rw [hd, List.mem_singleton] at hc
  apply String.toList_injective
  rw [hd, hc]
  exact String.toList_singleton d

theorem same_iff : Same (unpacked tar forIn done packed none) packed.files ↔
    ∀ row ∈ packed.files.rows, row.1.toList.length = 1 := by
  constructor
  · intro h row hrow
    have hget := h row.1
    rw [Dictionary.get_eq_some.mpr hrow] at hget
    -- only the characters of names are keys
    obtain ⟨-, other, -, hkey, -⟩ := exists_of_get_unpacked hget
    obtain ⟨c, -, hc⟩ := mem_pathsToStore_none.mp hkey
    rw [← hc, String.toList_singleton]
    rfl
  · intro h path
    cases hpacked : packed.files.get path with
    | none =>
      apply get_unpacked_eq_none
      intro row hrow hkey
      obtain ⟨c, hc, rfl⟩ := mem_pathsToStore_none.mp hkey
      rw [singleton_eq (h row hrow) hc, Dictionary.get_eq_some.mpr hrow] at hpacked
      cases hpacked
    | some contents =>
      have hrow := Dictionary.get_eq_some.mp hpacked
      have hlength := h _ hrow
      obtain ⟨c, hc⟩ := List.length_pos_iff_exists_mem.mp (hlength ▸ Nat.one_pos)
      refine get_unpacked_of_mem ?_ hrow
        (mem_pathsToStore_none.mpr ⟨c, hc, singleton_eq hlength hc⟩) ?_
      · intro hproto
        have hchars : path.toList.length = 1 := hlength
        rw [hproto] at hchars
        exact absurd hchars (by decide)
      · intro other hother hkey
        obtain ⟨d, hd, hpath⟩ := mem_pathsToStore_none.mp hkey
        rw [singleton_eq (h other hother) hd] at hpath
        exact packed.files.eq_of_key_eq hother hrow hpath

theorem restricts_iff :
    Restricts (unpacked tar forIn done packed (exactly eq requested)) packed.files requested ↔
      ¬ ("__proto__" ∈ requested ∧ (packed.files.get "__proto__").isSome) := by
  constructor
  · rintro h ⟨hrequested, hsome⟩
    have hget := h "__proto__"
    obtain ⟨contents, hpacked⟩ := Option.isSome_iff_exists.mp hsome
    rw [if_pos hrequested, hpacked] at hget
    exact (exists_of_get_unpacked hget).1 rfl
  · intro h path
    by_cases hrequested : path ∈ requested
    · rw [if_pos hrequested]
      cases hpacked : packed.files.get path with
      | none =>
        apply get_unpacked_eq_none
        intro row hrow hkey
        rw [(mem_pathsToStore_eq.mp hkey).2, Dictionary.get_eq_some.mpr hrow] at hpacked
        cases hpacked
      | some contents =>
        have hrow := Dictionary.get_eq_some.mp hpacked
        refine get_unpacked_of_mem ?_ hrow (mem_pathsToStore_eq.mpr ⟨hrequested, rfl⟩) ?_
        · rintro rfl
          exact h ⟨hrequested, Option.isSome_of_eq_some hpacked⟩
        · intro other hother hkey
          exact packed.files.eq_of_key_eq hother hrow (mem_pathsToStore_eq.mp hkey).2.symm
    · rw [if_neg hrequested]
      exact get_unpacked_eq_none fun row _ hkey => hrequested (mem_pathsToStore_eq.mp hkey).1

/-- For relative paths the two exact matchers are the same. -/
theorem exactly_eqIgnoringLeadingSlash (h : ∀ path ∈ requested, path.toList.head? ≠ some '/') :
    exactly eqIgnoringLeadingSlash requested = exactly eq requested := by
  unfold exactly
  congr 1
  refine List.map_congr_left fun path hpath => ?_
  unfold eqIgnoringLeadingSlash
  rw [if_neg (h path hpath)]
  rfl

end

/-- **Unpacking gives back what was packed** without a filter exactly if every path is one
character, and with a filter for each requested path unless a file `__proto__` is among them. -/
theorem unpack_iff (tar : TarStream) (forIn : Reorder (String × Buffer)) (done : Reorder TarEntry)
    (packed : FilesAsBuffers) :
    (Same (unpacked tar forIn done packed none) packed.files ↔
      ∀ row ∈ packed.files.rows, row.1.toList.length = 1) ∧
    ∀ requested,
      (Restricts (unpacked tar forIn done packed (exactly eq requested)) packed.files requested ↔
        ¬ ("__proto__" ∈ requested ∧ (packed.files.get "__proto__").isSome)) :=
  ⟨same_iff, fun _ => restricts_iff⟩

/-- An archive that is the list of its entries. -/
def listTar : TarStream where
  Archive := List TarEntry
  pack := id
  extract := id
  extract_pack := fun _ => rfl

/-- The file `ab` comes back as `a` and as `b`. -/
theorem not_same_twoCharacters : ¬ ∀ (tar : TarStream) (forIn : Reorder (String × Buffer))
    (done : Reorder TarEntry) (packed : FilesAsBuffers),
    (∀ row ∈ packed.files.rows, row.1 ≠ "" ∧ row.1.toList.head? ≠ some '/') →
      Same (unpacked tar forIn done packed none) packed.files := by
  intro h
  have hsame := h listTar (.id _) (.id _) { files := Dictionary.set .empty "ab" [1] } (by decide)
    "ab"
  revert hsame
  decide

end Kotsadm.Troubleshoot
