import Kotsadm.Lib.Dictionary
import Mathlib.Data.List.Infix

/-!
# GitRepository — the branches of a git repository, their commits and the files in them

A tree has files; its directories are what is above a file, as git stores no empty directory.  A
branch has its commits, the newest first.  A commit is made of a clone and pushed; what comes from
others in between is not here.
-/

namespace GitRepository

variable {β ν γ : Type*}

/-- The files of a directory tree, by the names that lead to them.  Nothing is below a file. -/
structure Tree (ν γ : Type*) where
  files : Dictionary (List ν) γ
  apart : ∀ row ∈ files.rows, ∀ row' ∈ files.rows, row.1 <+: row'.1 → row.1 = row'.1

namespace Tree

def empty : Tree ν γ where
  files := .empty
  apart := fun _ hrow => by cases hrow

variable [DecidableEq ν] (t : Tree ν γ) (path : List ν)

def read : Option γ := t.files.get path

/-- The root is always there. -/
def IsDir : Prop := path = [] ∨ ∃ row ∈ t.files.rows, path <+: row.1 ∧ path ≠ row.1

/-- There is a file where a directory has to be, or a directory where the file has to be. -/
def Blocked : Prop := ∃ row ∈ t.files.rows, (row.1 <+: path ∨ path <+: row.1) ∧ row.1 ≠ path

instance : Decidable (t.IsDir path) := inferInstanceAs (Decidable (_ ∨ _))

instance : Decidable (t.Blocked path) :=
  inferInstanceAs (Decidable (∃ row ∈ t.files.rows, _))

variable {t path}

theorem mem_set {files : Dictionary (List ν) γ} {contents : γ} {row : List ν × γ}
    (h : row ∈ (files.set path contents).rows) : row.1 = path ∨ row ∈ files.rows := by
  have hget : (files.set path contents).get row.1 = some row.2 := Dictionary.get_eq_some.mpr h
  rw [Dictionary.get_set] at hget
  split at hget
  next heq => exact .inl heq.symm
  next => exact .inr (Dictionary.get_eq_some.mp hget)

/-- Makes or replaces a file, with the directories above it. -/
def write (t : Tree ν γ) (path : List ν) (contents : γ) (h : ¬ t.Blocked path) : Tree ν γ where
  files := t.files.set path contents
  apart := by
    intro row hrow row' hrow' hbelow
    rcases mem_set hrow with heq | hold <;> rcases mem_set hrow' with heq' | hold'
    · rw [heq, heq']
    · rw [heq] at hbelow ⊢
      by_contra hne
      exact h ⟨row', hold', .inr hbelow, fun heq' => hne heq'.symm⟩
    · rw [heq'] at hbelow ⊢
      by_contra hne
      exact h ⟨row, hold, .inl hbelow, hne⟩
    · exact t.apart row hold row' hold' hbelow

theorem read_write {contents : γ} (h : ¬ t.Blocked path) (path' : List ν) :
    (t.write path contents h).read path' = if path = path' then some contents else t.read path' :=
  Dictionary.get_set t.files path path' contents

theorem not_blocked_of_read {contents : γ} (h : t.read path = some contents) :
    ¬ t.Blocked path := by
  have hrow := Dictionary.get_eq_some.mp h
  rintro ⟨row, hmem, hbelow | habove, hne⟩
  · exact hne (t.apart row hmem _ hrow hbelow)
  · exact hne (t.apart _ hrow row hmem habove).symm

theorem isDir_of_read {contents : γ} (h : t.read path = some contents) :
    t.IsDir path.dropLast := by
  have hrow := Dictionary.get_eq_some.mp h
  by_cases hpath : path = []
  · exact .inl (by rw [hpath]; rfl)
  · refine .inr ⟨_, hrow, List.dropLast_prefix path, ?_⟩
    show path.dropLast ≠ path
    intro heq
    have hlength := congrArg List.length heq
    have hpos := List.length_pos_iff.mpr hpath
    rw [List.length_dropLast] at hlength
    omega

end Tree

/-! ## Branches -/

structure Commit (ν γ : Type*) where
  tree : Tree ν γ
  message : String

/-- The commits of a branch. -/
structure History (ν γ : Type*) where
  head : Commit ν γ
  before : List (Commit ν γ)

/-- The default branch is the one that `HEAD` names; it has a commit. -/
structure Repository (β ν γ : Type*) where
  defaultBranch : β
  head : History ν γ
  others : β → Option (History ν γ)

/-- The references of a clone, and the history of its `HEAD`. -/
structure Clone (β ν γ : Type*) where
  -- refs/heads/
  heads : β → Option (History ν γ)
  -- refs/remotes/origin/
  remotes : β → Option (History ν γ)
  head : History ν γ

namespace History

def commits (h : History ν γ) : List (Commit ν γ) := h.head :: h.before

def commit (h : History ν γ) (tree : Tree ν γ) (message : String) : History ν γ where
  head := { tree, message }
  before := h.commits

@[simp] theorem head_commit (h : History ν γ) (tree : Tree ν γ) (message : String) :
    (h.commit tree message).head = { tree, message } := rfl

@[simp] theorem commits_commit (h : History ν γ) (tree : Tree ν γ) (message : String) :
    (h.commit tree message).commits = { tree, message } :: h.commits := rfl

end History

namespace Repository

variable [DecidableEq β] (r : Repository β ν γ) (b : β)

def branch : Option (History ν γ) := if b = r.defaultBranch then some r.head else r.others b

/-- A clone has a branch of its own for the default branch only. -/
def clone : Clone β ν γ where
  heads := fun b => if b = r.defaultBranch then some r.head else none
  remotes := r.branch
  head := r.head

/-- The commits that a new commit to a branch comes after: a branch that is not there is made from
the default branch. -/
def base : History ν γ := (r.branch b).getD r.head

/-- A branch gets the history that is pushed. -/
def push (h : History ν γ) : Repository β ν γ :=
  if b = r.defaultBranch then { r with head := h }
  else { r with others := fun b' => if b' = b then some h else r.others b' }

variable {r b}

theorem base_of_branch {h : History ν γ} (hbranch : r.branch b = some h) : r.base b = h := by
  unfold base
  rw [hbranch, Option.getD_some]

theorem base_of_none (hbranch : r.branch b = none) : r.base b = r.head := by
  unfold base
  rw [hbranch, Option.getD_none]

@[simp] theorem branch_push (h : History ν γ) : (r.push b h).branch b = some h := by
  unfold push branch
  by_cases hdefault : b = r.defaultBranch
  · rw [if_pos hdefault, if_pos hdefault]
  · rw [if_neg hdefault, if_neg hdefault]
    exact if_pos rfl

@[simp] theorem base_push (h : History ν γ) : (r.push b h).base b = h :=
  base_of_branch (branch_push h)

/-- The other branches stay. -/
theorem branch_push_of_ne {b' : β} (hne : b' ≠ b) (h : History ν γ) :
    (r.push b h).branch b' = r.branch b' := by
  unfold push branch
  by_cases hdefault : b = r.defaultBranch
  · rw [if_pos hdefault]
    have hother : b' ≠ r.defaultBranch := fun heq => hne (heq.trans hdefault.symm)
    rw [if_neg hother, if_neg hother]
  · rw [if_neg hdefault]
    simp only [if_neg hne]

end Repository

end GitRepository
