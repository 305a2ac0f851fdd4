import Kotsadm.GitOps.CreateGitOpsCommit
import Kotsadm.Lib.GitRepository
import Kotsadm.Lib.Path
import Mathlib.Tactic.FinCases

/-!
# CreateGitCommit — what the two implementations of a GitOps commit do to a repository

`createGitCommit` of the API clones the repository, checks the branch out or makes it, writes the
files and pushes a commit if the tree has changed.  `CreateGitOpsCommit` of the Go package reads the
file first and makes no directory.  Here every call succeeds that can succeed in the repository that
is there.  The Go code is the one of `GitOps/CreateGitOpsCommit`, with the answers of a repository.
-/

namespace Kotsadm.GitOps

open GitRepository GoString

/-! ## The name of the file -/

section

open PathSigns

variable {α : Type} [DecidableEq α] (σ : PathSigns α)

/-- `strings.TrimPrefix(name, "/")`, and `replace(/^\//g, '')` -/
def trimSlash (name : List α) : List α := if σ.Rooted name then name.tail else name

/-- The name that the Go code adds: `filepath.Join` leaves out an empty path. -/
def addName (path file : List α) : List α :=
  trimSlash σ (if path = [] then σ.clean file else σ.joinClean path file)

/-- The name in the tree of the API. -/
def filename (path file : List α) : List α :=
  if path = [] then file else trimSlash σ (σ.joinNormalize path file)

variable {σ}

theorem not_rooted {file : List α} (hslash : σ.slash ∉ file) : σ.Rooted file = false := by
  apply decide_eq_false
  intro hhead
  exact hslash (List.mem_of_head? hhead)

theorem clean_name {file : List α} (hname : σ.Name file) (hslash : σ.slash ∉ file) :
    σ.clean file = file := by
  have hparts : σ.parts file = [file] := List.splitOn_eq_singleton hslash
  have hnormal : σ.normalParts false [file] = [file] := by
    unfold normalParts
    rw [List.foldl_cons, List.foldl_nil]
    unfold simplify
    rw [if_neg hname.not_skipped, if_neg hname.2.2]
  have hjoin : σ.joinParts [file] = file := List.intercalate_singleton
  unfold PathSigns.clean
  rw [not_rooted hslash, hparts, hnormal, List.reverse_singleton, hjoin]
  exact if_neg hname.1

/-- Both give the file the same name, whatever the path of the settings is. -/
theorem filename_eq_addName {file : List α} (hname : σ.Name file) (hslash : σ.slash ∉ file)
    (path : List α) : filename σ path file = addName σ path file := by
  unfold filename addName
  by_cases hpath : path = []
  · rw [if_pos hpath, if_pos hpath, clean_name hname hslash]
    unfold trimSlash
    rw [not_rooted hslash]
    rfl
  · have hlast : (path ++ σ.slash :: file).getLast? ≠ some σ.slash := by
      rw [List.getLast?_append_of_ne_nil _ (List.cons_ne_nil _ _),
        List.getLast?_cons_of_ne_nil hname.1]
      exact fun heq => hslash (List.mem_of_getLast? heq)
    rw [if_neg hpath, if_neg hpath]
    unfold joinNormalize joinClean PathSigns.normalize
    rw [if_neg hname.1, if_neg fun hand => hlast hand.1]

end

/-- What a run leaves, and whether it made a commit. -/
structure Outcome (β ν γ : Type) where
  committed : Bool
  remote : Repository β ν γ

/-! ## createGitCommit -/

section

variable {β ν γ : Type} [DecidableEq β] [DecidableEq ν] [DecidableEq γ]

structure CommitFile (ν γ : Type) where
  filename : List ν
  contents : γ
  deriving DecidableEq, Repr

/-- create/checkout branch: its commits.  A branch that is not new is fetched and merged again,
which changes nothing as nobody else has pushed since the clone. -/
def checkoutBranch (clone : Clone β ν γ) (branch : β) : History ν γ :=
  match clone.heads branch with
  | some branchRef => branchRef
  | none =>
    match clone.remotes branch with
    -- branch exists in remote (create locally)
    | some branchRemoteRef => branchRemoteRef
    -- branch does not exist
    | none => clone.head

/-- add files; `mkdirSync` and `writeFileSync` throw if a file or a directory is in the way. -/
def addFiles : List (CommitFile ν γ) → Tree ν γ → Option (Tree ν γ)
  | [], index => some index
  | commitFile :: tree, index =>
    if h : index.Blocked commitFile.filename then none
    else addFiles tree (index.write commitFile.filename commitFile.contents h)

/-- The index has the files of the commit that is checked out, and those that were added. -/
def patches (head index : Tree ν γ) (tree : List (CommitFile ν γ)) : List (CommitFile ν γ) :=
  tree.filter fun commitFile => head.read commitFile.filename ≠ index.read commitFile.filename

/-- `none` is an error. -/
def createGitCommit (remote : Repository β ν γ) (branch : β) (tree : List (CommitFile ν γ))
    (commitMessage : String) : Option (Outcome β ν γ) := do
  let parent := checkoutBranch remote.clone branch
  let index ← addFiles tree parent.head.tree
  if patches parent.head.tree index tree = [] then return { committed := false, remote }
  return { committed := true, remote := remote.push branch (parent.commit index commitMessage) }

omit [DecidableEq ν] [DecidableEq γ] in
theorem checkoutBranch_clone (remote : Repository β ν γ) (branch : β) :
    checkoutBranch remote.clone branch = remote.base branch := by
  unfold checkoutBranch Repository.clone Repository.base
  by_cases hdefault : branch = remote.defaultBranch
  · have hbranch : remote.branch branch = some remote.head := if_pos hdefault
    simp only [if_pos hdefault, hbranch, Option.getD_some]
  · simp only [if_neg hdefault]
    cases remote.branch branch <;> rfl

theorem patches_write {tree : Tree ν γ} {file : List ν} {contents : γ}
    (h : ¬ tree.Blocked file) :
    patches tree (tree.write file contents h) [⟨file, contents⟩] = [] ↔
      tree.read file = some contents := by
  unfold patches
  rw [List.filter_eq_nil_iff, List.forall_mem_singleton, decide_eq_true_iff, not_not,
    Tree.read_write, if_pos rfl]

/-- A commit of one file, which is what both callers make. -/
theorem createGitCommit_single {remote : Repository β ν γ} {branch : β} {file : List ν}
    (contents : γ) (commitMessage : String) (h : ¬ (remote.base branch).head.tree.Blocked file) :
    createGitCommit remote branch [⟨file, contents⟩] commitMessage =
      some (if (remote.base branch).head.tree.read file = some contents then
        { committed := false, remote }
      else
        { committed := true
          remote := remote.push branch ((remote.base branch).commit
            ((remote.base branch).head.tree.write file contents h) commitMessage) }) := by
  unfold createGitCommit
  simp only [checkoutBranch_clone, addFiles, dif_neg h, Option.bind_eq_bind, Option.bind_some]
  by_cases hsame : (remote.base branch).head.tree.read file = some contents
  · rw [if_pos ((patches_write h).mpr hsame), if_pos hsame]
    rfl
  · rw [if_neg (mt (patches_write h).mp hsame), if_neg hsame]
    rfl

theorem createGitCommit_blocked {remote : Repository β ν γ} {branch : β} {file : List ν}
    {contents : γ} {commitMessage : String} (h : (remote.base branch).head.tree.Blocked file) :
    createGitCommit remote branch [⟨file, contents⟩] commitMessage = none := by
  unfold createGitCommit
  simp only [checkoutBranch_clone, addFiles, dif_pos h]
  rfl

end

/-! ## CreateGitOpsCommit -/

section

variable {ν : Type} [DecidableEq ν]

/-- What the calls of `CreateGitOpsCommit` answer: `file` is where the path of the settings and the
name of the file lead to in the worktree. -/
def commitEnv (remote : Repository GoString ν GoString) (branch : GoString) (file : List ν)
    (out hash : GoString) : CommitEnv where
  step
    | .checkout =>
      if (remote.branch branch).isSome then .ok () else .error { cause := "reference not found" }
    | .readFile =>
      if ((remote.base branch).head.tree.read file).isSome then .ok ()
      else .error { cause := "no such file or directory" }
    | .writeFile =>
      let tree := (remote.base branch).head.tree
      -- no directory is made
      if tree.IsDir file.dropLast ∧ ¬ tree.Blocked file then .ok ()
      else .error { cause := "no such file or directory" }
    | _ => .ok ()
  out := out
  currentRevision := ((remote.base branch).head.tree.read file).getD []
  hash := hash

/-- A commit that was pushed. -/
def receive (file : List ν) (remote : Repository GoString ν GoString) (push : Push) :
    Repository GoString ν GoString :=
  let base := remote.base push.branch
  if h : base.head.tree.Blocked file then remote
  else
    remote.push push.branch (base.commit (base.head.tree.write file push.contents h) push.message)

/-- The rendered yaml of a version of an app, on its way to a repository. -/
structure Release where
  appSlug : String
  appName : String
  newSequence : Int
  out : GoString
  hash : GoString

def Release.message (release : Release) : String :=
  s!"Updating {release.appName} to version {release.newSequence}"

/-- `CreateGitOpsCommit` in a repository: what it returns, and the outcome. -/
def runGitOpsCommit (remote : Repository GoString ν GoString) (gitOpsConfig : GitOpsConfig)
    (file : List ν) (release : Release) : Except Abort GoString × Outcome GoString ν GoString :=
  let git := commitEnv remote gitOpsConfig.branch file release.out release.hash
  let (result, pushes) :=
    createGitOpsCommit git gitOpsConfig release.appSlug release.appName release.newSequence []
  (result, { committed := pushes ≠ [], remote := pushes.foldl (receive file) remote })

variable {git : CommitEnv} {gitOpsConfig : GitOpsConfig} {url : GoString}

theorem lift_eq {x : Except GoError Unit} (h : x = .ok ()) (before : List Push) :
    lift x before = (.ok (), []) := by
  rw [h]
  rfl

theorem cloneRepo_apply (h : Cloned git gitOpsConfig) (hurl : gitOpsConfig.cloneURL = some url)
    (before : List Push) : cloneRepo git gitOpsConfig before = (.ok url, []) := by
  have hprepare := runAll_eq_ok.mpr h.prepared
  have hworktree := getWorktree_eq_ok.mpr ⟨h.cloned, h.branch, h.read⟩
  unfold cloneRepo
  rw [Effects.bind_ok before (lift_eq hprepare before), hurl, List.append_nil]
  dsimp only
  rw [Effects.ofExcept_ok_bind, Effects.bind_ok before (lift_eq hworktree before)]
  rfl

theorem createGitOpsCommit_same (h : Cloned git gitOpsConfig)
    (hurl : gitOpsConfig.cloneURL = some url) (hsame : git.currentRevision = git.out)
    (appSlug appName : String) (newSequence : Int) (before : List Push) :
    createGitOpsCommit git gitOpsConfig appSlug appName newSequence before = (.ok [], []) := by
  unfold createGitOpsCommit
  rw [Effects.bind_ok before (cloneRepo_apply h hurl before), if_pos hsame]
  rfl

theorem createGitOpsCommit_changed (h : Staged git gitOpsConfig)
    (hurl : gitOpsConfig.cloneURL = some url) (hpush : git.step .push = .ok ())
    (hreceived : git.pushReceived = true) (appSlug appName : String) (newSequence : Int)
    (before : List Push) :
    createGitOpsCommit git gitOpsConfig appSlug appName newSequence before =
      (.ok (gitOpsConfig.commitURL git.hash),
        [{ repository := url, branch := gitOpsConfig.branch, path := gitOpsConfig.path, appSlug,
           message := s!"Updating {appName} to version {newSequence}", newSequence,
           contents := git.out }]) := by
  have hstage := runAll_eq_ok.mpr h.staged
  unfold createGitOpsCommit
  rw [Effects.bind_ok before (cloneRepo_apply h.toCloned hurl before), if_neg h.changed]
  unfold commitAndPush
  rw [Effects.bind_ok _ (lift_eq hstage _)]
  unfold received
  rw [if_pos hreceived, Effects.bind_ok _ (Effects.act_apply _ _ _),
    Effects.bind_ok _ (lift_eq (run_eq_ok.mpr hpush) _)]
  rfl

variable {remote : Repository GoString ν GoString} {file : List ν} {release : Release}
  {current : GoString}

/-- Apart from the URL it is the file that decides whether the worktree is read. -/
theorem cloned_commitEnv {branch : GoString} (out hash : GoString) :
    Cloned (commitEnv remote branch file out hash) gitOpsConfig ↔
      gitOpsConfig.cloneURL.isSome ∧ ((remote.base branch).head.tree.read file).isSome := by
  constructor
  · intro h
    refine ⟨h.cloneURL, ?_⟩
    have hread := h.read
    unfold commitEnv at hread
    dsimp only at hread
    split at hread
    next hsome => exact hsome
    next => cases hread
  · rintro ⟨hurl, hsome⟩
    refine ⟨?_, hurl, ?_, .inr rfl, if_pos hsome⟩ <;>
      · intro step hstep
        fin_cases hstep <;> rfl

theorem runGitOpsCommit_same (hurl : gitOpsConfig.cloneURL = some url)
    (hread : (remote.base gitOpsConfig.branch).head.tree.read file = some release.out) :
    runGitOpsCommit remote gitOpsConfig file release =
      (.ok [], { committed := false, remote }) := by
  have hcloned := (cloned_commitEnv release.out release.hash).mpr
    ⟨Option.isSome_of_eq_some hurl, Option.isSome_of_eq_some hread⟩
  unfold runGitOpsCommit
  dsimp only
  rw [createGitOpsCommit_same hcloned hurl ?_]
  · rfl
  · show Option.getD _ _ = release.out
    rw [hread, Option.getD_some]

theorem runGitOpsCommit_changed (hurl : gitOpsConfig.cloneURL = some url)
    (hread : (remote.base gitOpsConfig.branch).head.tree.read file = some current)
    (hchanged : current ≠ release.out) :
    runGitOpsCommit remote gitOpsConfig file release =
      (.ok (gitOpsConfig.commitURL release.hash),
        { committed := true
          remote := remote.push gitOpsConfig.branch ((remote.base gitOpsConfig.branch).commit
            ((remote.base gitOpsConfig.branch).head.tree.write file release.out
              (Tree.not_blocked_of_read hread)) release.message) }) := by
  have hfree := Tree.not_blocked_of_read hread
  have hcloned := (cloned_commitEnv release.out release.hash).mpr
    ⟨Option.isSome_of_eq_some hurl, Option.isSome_of_eq_some hread⟩
  have hstaged : Staged (commitEnv remote gitOpsConfig.branch file release.out release.hash)
      gitOpsConfig := by
    refine ⟨hcloned, ?_, ?_⟩
    · show Option.getD _ _ ≠ release.out
      rw [hread, Option.getD_some]
      exact hchanged
    · -- the file is there, and so is its directory
      intro step hstep
      fin_cases hstep
      · exact if_pos ⟨Tree.isDir_of_read hread, hfree⟩
      · rfl
      · rfl
  unfold runGitOpsCommit
  dsimp only
  rw [createGitOpsCommit_changed hstaged hurl rfl rfl]
  show (_, Outcome.mk _ (receive file remote _)) = _
  unfold receive
  dsimp only
  rw [dif_neg hfree]
  rfl

/-- A run that returns has read the file. -/
theorem read_of_ok {result : GoString}
    (h : (runGitOpsCommit remote gitOpsConfig file release).1 = .ok result) :
    gitOpsConfig.cloneURL.isSome ∧
      ((remote.base gitOpsConfig.branch).head.tree.read file).isSome := by
  have hreturns := ((comes_createGitOpsCommit release.appSlug release.appName
    release.newSequence).ok []).mp ⟨result, h⟩
  rcases hreturns with ⟨hcloned, -⟩ | ⟨hstaged, -⟩
  · exact (cloned_commitEnv _ _).mp hcloned
  · exact (cloned_commitEnv _ _).mp hstaged.toCloned

/-- The file on a branch of the remote repository. -/
def fileOn (remote : Repository GoString ν GoString) (branch : GoString) (file : List ν) :
    Option GoString :=
  (remote.branch branch).bind fun history => history.head.tree.read file

theorem fileOn_eq_base (h : (remote.branch gitOpsConfig.branch).isSome) :
    fileOn remote gitOpsConfig.branch file =
      (remote.base gitOpsConfig.branch).head.tree.read file := by
  obtain ⟨history, hbranch⟩ := Option.isSome_iff_exists.mp h
  unfold fileOn
  rw [Repository.base_of_branch hbranch, hbranch]
  rfl

/-- The run succeeds, afterwards the file on the remote branch is the output, a commit was made if
it was not, and `createGitCommit` does the same. -/
structure Publishes (remote : Repository GoString ν GoString) (gitOpsConfig : GitOpsConfig)
    (file : List ν) (release : Release) : Prop where
  succeeds : ∃ url, (runGitOpsCommit remote gitOpsConfig file release).1 = .ok url
  published : fileOn (runGitOpsCommit remote gitOpsConfig file release).2.remote
    gitOpsConfig.branch file = some release.out
  committed : (runGitOpsCommit remote gitOpsConfig file release).2.committed = true ↔
    fileOn remote gitOpsConfig.branch file ≠ some release.out
  agrees : createGitCommit remote gitOpsConfig.branch [⟨file, release.out⟩] release.message =
    some (runGitOpsCommit remote gitOpsConfig file release).2

theorem publishes_same (hurl : gitOpsConfig.cloneURL = some url)
    (hread : (remote.base gitOpsConfig.branch).head.tree.read file = some release.out) :
    Publishes remote gitOpsConfig file release ↔ (remote.branch gitOpsConfig.branch).isSome := by
  have hrun := runGitOpsCommit_same hurl hread
  have hcommit := createGitCommit_single release.out release.message
    (Tree.not_blocked_of_read hread)
  rw [if_pos hread] at hcommit
  constructor
  · intro h
    have hpublished := h.published
    rw [hrun] at hpublished
    obtain ⟨history, hbranch, -⟩ := Option.bind_eq_some_iff.mp hpublished
    exact Option.isSome_of_eq_some hbranch
  · intro hbranch
    have hfile : fileOn remote gitOpsConfig.branch file = some release.out :=
      (fileOn_eq_base hbranch).trans hread
    constructor
    · exact ⟨[], by rw [hrun]⟩
    · rw [hrun]
      exact hfile
    · rw [hrun]
      exact iff_of_false nofun fun hne => hne hfile
    · rw [hrun]
      exact hcommit

theorem publishes_changed (hurl : gitOpsConfig.cloneURL = some url)
    (hread : (remote.base gitOpsConfig.branch).head.tree.read file = some current)
    (hchanged : current ≠ release.out) : Publishes remote gitOpsConfig file release := by
  have hrun := runGitOpsCommit_changed hurl hread hchanged
  have hcommit := createGitCommit_single release.out release.message
    (Tree.not_blocked_of_read hread)
  have hbase : (remote.base gitOpsConfig.branch).head.tree.read file ≠ some release.out := by
    rw [hread]
    exact fun heq => hchanged (Option.some.inj heq)
  rw [if_neg hbase] at hcommit
  constructor
  · exact ⟨_, by rw [hrun]⟩
  · rw [hrun]
    unfold fileOn
    rw [Repository.branch_push, Option.bind_some, History.head_commit, Tree.read_write,
      if_pos rfl]
  · rw [hrun]
    refine iff_of_true rfl fun hfile => ?_
    -- a file that is on the branch is the one that was read
    obtain ⟨history, hbranch, -⟩ := Option.bind_eq_some_iff.mp hfile
    rw [fileOn_eq_base (Option.isSome_of_eq_some hbranch)] at hfile
    exact hbase hfile
  · rw [hrun]
    exact hcommit

end

/-- **The render is published**, for every state of the repository exactly when the file is there
already, in the branch or, where there is no branch, in the default branch with other contents; and
the URI of the repository has its parts. -/
theorem publishes_iff {ν : Type} [DecidableEq ν] (remote : Repository GoString ν GoString)
    (gitOpsConfig : GitOpsConfig) (file : List ν) (release : Release) :
    Publishes remote gitOpsConfig file release ↔
      gitOpsConfig.cloneURL.isSome ∧
        ∃ current, (remote.base gitOpsConfig.branch).head.tree.read file = some current ∧
          ((remote.branch gitOpsConfig.branch).isSome ∨ current ≠ release.out) := by
  constructor
  · intro h
    obtain ⟨result, hresult⟩ := h.succeeds
    obtain ⟨hurl, hsome⟩ := read_of_ok hresult
    obtain ⟨url, hclone⟩ := Option.isSome_iff_exists.mp hurl
    obtain ⟨current, hread⟩ := Option.isSome_iff_exists.mp hsome
    refine ⟨hurl, current, hread, ?_⟩
    by_cases hsame : current = release.out
    · rw [hsame] at hread
      exact .inl ((publishes_same hclone hread).mp h)
    · exact .inr hsame
  · rintro ⟨hurl, current, hread, hor⟩
    obtain ⟨url, hclone⟩ := Option.isSome_iff_exists.mp hurl
    by_cases hsame : current = release.out
    · rw [hsame] at hread
      exact (publishes_same hclone hread).mpr (hor.resolve_right fun hne => hne hsame)
    · exact publishes_changed hclone hread hsame

/-- A repository without the file: the first commit of an app. -/
def emptyRepository : Repository GoString Nat GoString where
  defaultBranch := ascii "master"
  head := { head := { tree := Tree.empty, message := "Initial commit" }, before := [] }
  others := fun _ => none

theorem not_publishes_missing : ¬ ∀ (remote : Repository GoString Nat GoString)
    (gitOpsConfig : GitOpsConfig) (file : List Nat) (release : Release),
    gitOpsConfig.cloneURL.isSome → Publishes remote gitOpsConfig file release := by
  intro h
  have hfirst := h emptyRepository
    { provider := ascii "github", repoURI := ascii "https://github.com/owner/repo",
      branch := ascii "master" } [0] ⟨"app", "App", 0, [1], []⟩ (by decide)
  obtain ⟨url, hurl⟩ := hfirst.succeeds
  have hread := (read_of_ok hurl).2
  exact absurd hread (by decide)

end Kotsadm.GitOps
