import Kotsadm.Lib.Deferred
import Kotsadm.Lib.Effects
import Kotsadm.Lib.GoText
import Kotsadm.Lib.Throws

/-!
# CreateGitOpsCommit — a commit with the rendered yaml of an app, and its push

`GitOpsConfig` and `CreateGitOpsCommit` of the Go package `gitops`.  What the commands, the file
system and the remote repository answer is a parameter; a push that the repository has received may
still end with an error.
-/

namespace Kotsadm.GitOps

open GoString

/-! ## GitOpsConfig -/

structure GitOpsConfig where
  provider : GoString := []
  repoURI : GoString := []
  path : GoString := []
  branch : GoString := []
  format : GoString := []
  action : GoString := []
  publicKey : GoString := []
  privateKey : GoString := []
  lastError : GoString := []
  deriving DecidableEq, Repr

namespace GitOpsConfig

def commitURL (g : GitOpsConfig) (hash : GoString) : GoString :=
  if g.provider = ascii "bitbucket" then g.repoURI ++ ascii "/commits/" ++ hash
  else g.repoURI ++ ascii "/commit/" ++ hash

/-- The hosts of the providers that `CloneURL` knows. -/
def cloneHosts : List (GoString × GoString) :=
  [(ascii "github", ascii "github.com"), (ascii "gitlab", ascii "gitlab.com"),
    (ascii "bitbucket", ascii "bitbucket.org")]

/-- `none` is an index past the end of `uriParts`. -/
def cloneURL (g : GitOpsConfig) : Option GoString :=
  let uriParts := g.repoURI.splitOn 47
  match cloneHosts.lookup g.provider with
  | none => some []
  | some host => do
    let owner ← uriParts[3]?
    let repo ← uriParts[4]?
    return ascii "git@" ++ host ++ ascii ":" ++ owner ++ ascii "/" ++ repo ++ ascii ".git"

end GitOpsConfig

/-! ## CreateGitOpsCommit -/

inductive CommitStep where
  | loadKotsKinds
  | kustomizeBuild
  | parsePrivateKey
  | tempDir
  | plainClone
  | worktree
  | fetch
  | checkout
  | createBranch
  | readFile
  | writeFile
  | add
  | commit
  | push
  deriving DecidableEq, Repr

/-- A branch that is not there is no error; it is created. -/
def CommitStep.context : CommitStep → String
  | .loadKotsKinds => "failed to load kots kinds"
  | .kustomizeBuild => "failed to run kustomize"
  | .parsePrivateKey => "failed to parse deploy key"
  | .tempDir => "failed to create temp dir"
  | .plainClone => "failed to clone repo"
  | .worktree => "failed to get worktree"
  | .fetch => "failed to fetch from repo"
  | .checkout | .createBranch => "failed to get or create branch"
  | .readFile => "failed to read current file"
  | .writeFile => "failed to write updated app yaml"
  | .add => "failed to add to worktree"
  | .commit => "failed to commit"
  | .push => "failed to push"

/-- What one run of `CreateGitOpsCommit` gets from outside. -/
structure CommitEnv where
  step : CommitStep → Except GoError Unit := fun _ => .ok ()
  -- the output of `kustomize build`, and the file that is in the branch
  out : GoString := []
  currentRevision : GoString := []
  hash : GoString := []
  pushReceived : Bool := true

/-- A commit that a repository has received. -/
structure Push where
  repository : GoString
  branch : GoString
  path : GoString
  appSlug : String
  message : String
  newSequence : Int
  contents : GoString
  deriving DecidableEq, Repr

abbrev Program (α : Type) := Effects Abort Push α

/-- What a call returned; a panic it is not. -/
def lift {α : Type} (x : Except GoError α) : Program α := Effects.ofExcept (x.mapError .error)

def CommitEnv.run (git : CommitEnv) (step : CommitStep) : Except GoError Unit :=
  (git.step step).wrapError step.context

def CommitEnv.runAll (git : CommitEnv) : List CommitStep → Except GoError Unit
  | [] => .ok ()
  | step :: steps => do
    git.run step
    git.runAll steps

/-- The steps before the URL of the repository is needed. -/
def CommitStep.preparing : List CommitStep :=
  [.loadKotsKinds, .kustomizeBuild, .parsePrivateKey, .tempDir]

def CommitStep.cloning : List CommitStep := [.plainClone, .worktree, .fetch]

def CommitStep.staging : List CommitStep := [.writeFile, .add, .commit]

/-- Try to check out the branch if it exists. -/
def CommitEnv.checkout (git : CommitEnv) : Except GoError Unit :=
  match git.step .checkout with
  | .ok _ => .ok ()
  | .error _ => git.run .createBranch

def CommitEnv.getWorktree (git : CommitEnv) : Except GoError Unit := do
  git.runAll CommitStep.cloning
  git.checkout
  git.run .readFile

/-- Up to the file in the branch: the URL that was cloned. -/
def cloneRepo (git : CommitEnv) (gitOpsConfig : GitOpsConfig) : Program GoString := do
  lift (git.runAll CommitStep.preparing)
  let url ← Effects.ofExcept <|
    match gitOpsConfig.cloneURL with
    | none => .error .panic
    | some url => .ok url
  lift git.getWorktree
  return url

def received (git : CommitEnv) (push : Push) : Program Unit :=
  if git.pushReceived then Effects.act (fun _ => ()) fun _ => push else return ()

/-- The file has changed. -/
def commitAndPush (git : CommitEnv) (gitOpsConfig : GitOpsConfig) (appSlug appName : String)
    (newSequence : Int) (repository : GoString) : Program GoString := do
  lift (git.runAll CommitStep.staging)
  received git
    { repository, branch := gitOpsConfig.branch, path := gitOpsConfig.path, appSlug,
      message := s!"Updating {appName} to version {newSequence}", newSequence,
      contents := git.out }
  lift (git.run .push)
  return gitOpsConfig.commitURL git.hash

def createGitOpsCommit (git : CommitEnv) (gitOpsConfig : GitOpsConfig) (appSlug appName : String)
    (newSequence : Int) : Program GoString := do
  let repository ← cloneRepo git gitOpsConfig
  -- if the file has not changed, end now
  if git.currentRevision = git.out then return []
  else commitAndPush git gitOpsConfig appSlug appName newSequence repository

/-! ## When it returns, and when it has pushed -/

section

variable (git : CommitEnv) (gitOpsConfig : GitOpsConfig)

/-- The worktree has the branch, and the file was read. -/
structure Cloned : Prop where
  prepared : ∀ step ∈ CommitStep.preparing, git.step step = .ok ()
  cloneURL : gitOpsConfig.cloneURL.isSome
  cloned : ∀ step ∈ CommitStep.cloning, git.step step = .ok ()
  branch : git.step .checkout = .ok () ∨ git.step .createBranch = .ok ()
  read : git.step .readFile = .ok ()

/-- There is a new commit in the worktree. -/
structure Staged : Prop extends Cloned git gitOpsConfig where
  changed : git.currentRevision ≠ git.out
  staged : ∀ step ∈ CommitStep.staging, git.step step = .ok ()

def CommitReturns : Prop :=
  Cloned git gitOpsConfig ∧ git.currentRevision = git.out ∨
    Staged git gitOpsConfig ∧ git.step .push = .ok ()

/-- The URI of the repository has too few parts. -/
structure CommitPanics : Prop where
  prepared : ∀ step ∈ CommitStep.preparing, git.step step = .ok ()
  cloneURL : gitOpsConfig.cloneURL = none

structure CommitPushed : Prop extends Staged git gitOpsConfig where
  received : git.pushReceived = true

variable {git gitOpsConfig}

theorem run_eq_ok {step : CommitStep} : git.run step = .ok () ↔ git.step step = .ok () :=
  Except.wrapError_eq_ok

theorem runAll_eq_ok {steps : List CommitStep} :
    git.runAll steps = .ok () ↔ ∀ step ∈ steps, git.step step = .ok () := by
  induction steps with
  | nil => exact iff_of_true rfl fun step hstep => by cases hstep
  | cons step steps ih =>
    rw [List.forall_mem_cons, ← ih, ← run_eq_ok]
    show (git.run step >>= fun _ => git.runAll steps) = .ok () ↔ _
    rw [Except.bind_eq_ok]
    constructor
    · rintro ⟨⟨⟩, hstep, hsteps⟩
      exact ⟨hstep, hsteps⟩
    · rintro ⟨hstep, hsteps⟩
      exact ⟨(), hstep, hsteps⟩

theorem checkout_eq_ok :
    git.checkout = .ok () ↔ git.step .checkout = .ok () ∨ git.step .createBranch = .ok () := by
  unfold CommitEnv.checkout
  cases git.step .checkout with
  | error e =>
    show git.run .createBranch = .ok () ↔ _
    rw [run_eq_ok]
    simp
  | ok _ => simp

theorem getWorktree_eq_ok :
    git.getWorktree = .ok () ↔ (∀ step ∈ CommitStep.cloning, git.step step = .ok ()) ∧
      (git.step .checkout = .ok () ∨ git.step .createBranch = .ok ()) ∧
      git.step .readFile = .ok () := by
  rw [← runAll_eq_ok, ← checkout_eq_ok, ← run_eq_ok]
  constructor
  · intro h
    obtain ⟨⟨⟩, hcloning, h⟩ := Except.bind_eq_ok.mp h
    obtain ⟨⟨⟩, hbranch, hread⟩ := Except.bind_eq_ok.mp h
    exact ⟨hcloning, hbranch, hread⟩
  · rintro ⟨hcloning, hbranch, hread⟩
    unfold CommitEnv.getWorktree
    rw [hcloning]
    show (git.checkout >>= fun _ => git.run .readFile) = .ok ()
    rw [hbranch]
    exact hread

theorem comes_lift {α : Type} {x : Except GoError α} {R : Prop} (h : (∃ a, x = .ok a) ↔ R) :
    (lift x).Comes (· = .panic) R False False :=
  Effects.comes_ofExcept_mapError (fun _ h => by cases h) h

theorem exists_unit {x : Except GoError Unit} {R : Prop} (h : x = .ok () ↔ R) :
    (∃ a, x = .ok a) ↔ R :=
  ⟨fun ⟨_, hx⟩ => h.mp hx, fun hR => ⟨(), h.mpr hR⟩⟩

theorem comes_cloneRepo : (cloneRepo git gitOpsConfig).Comes (· = .panic)
    (Cloned git gitOpsConfig) (CommitPanics git gitOpsConfig) False := by
  have hprepare := comes_lift (exists_unit (@runAll_eq_ok git CommitStep.preparing))
  have hworktree := comes_lift (exists_unit (@getWorktree_eq_ok git))
  have hurl : (Effects.ofExcept (match gitOpsConfig.cloneURL with
        | none => .error .panic
        | some url => .ok url) : Program GoString).Comes (· = .panic)
      (gitOpsConfig.cloneURL.isSome) (gitOpsConfig.cloneURL = none) False := by
    apply Effects.comes_ofExcept <;> cases gitOpsConfig.cloneURL <;> simp
  have hsteps := hprepare.bind fun _ _ _ => hurl.bind fun _ url _ =>
    hworktree.bind fun _ _ _ => Effects.comes_pure url
  refine hsteps.congr ⟨?_, ?_⟩ ⟨?_, ?_⟩ (by simp)
  · rintro ⟨hprepared, hsome, ⟨hcloned, hbranch, hread⟩, -⟩
    exact ⟨hprepared, hsome, hcloned, hbranch, hread⟩
  · intro h
    exact ⟨h.prepared, h.cloneURL, ⟨h.cloned, h.branch, h.read⟩, trivial⟩
  · rintro (hfalse | ⟨hprepared, hnone | ⟨-, hfalse | ⟨-, hfalse⟩⟩⟩)
    · exact hfalse.elim
    · exact ⟨hprepared, hnone⟩
    · exact hfalse.elim
    · exact hfalse.elim
  · intro h
    exact .inr ⟨h.prepared, .inl h.cloneURL⟩

theorem comes_received (push : Push) :
    (received git push).Comes (· = .panic) True False (git.pushReceived = true) := by
  unfold received
  split
  next hreceived => exact Effects.comes_act.congr Iff.rfl Iff.rfl (by simp [hreceived])
  next hreceived => exact (Effects.comes_pure ()).congr Iff.rfl Iff.rfl (by simp [hreceived])

theorem comes_commitAndPush (appSlug appName : String) (newSequence : Int) (repository : GoString) :
    (commitAndPush git gitOpsConfig appSlug appName newSequence repository).Comes (· = .panic)
      ((∀ step ∈ CommitStep.staging, git.step step = .ok ()) ∧ git.step .push = .ok ()) False
      ((∀ step ∈ CommitStep.staging, git.step step = .ok ()) ∧ git.pushReceived = true) := by
  have hstage := comes_lift (exists_unit (@runAll_eq_ok git CommitStep.staging))
  have hpush := comes_lift (exists_unit (@run_eq_ok git .push))
  have hsteps := fun push => hstage.bind fun _ _ _ => (@comes_received git push).bind fun _ _ _ =>
    hpush.bind fun _ _ _ => Effects.comes_pure (gitOpsConfig.commitURL git.hash)
  exact (hsteps _).congr (by simp) (by simp) (by simp)

theorem comes_createGitOpsCommit (appSlug appName : String) (newSequence : Int) :
    (createGitOpsCommit git gitOpsConfig appSlug appName newSequence).Comes (· = .panic)
      (CommitReturns git gitOpsConfig) (CommitPanics git gitOpsConfig)
      (CommitPushed git gitOpsConfig) := by
  unfold createGitOpsCommit
  split
  next hsame =>
    have hsteps := (@comes_cloneRepo git gitOpsConfig).bind fun _ _ _ =>
      Effects.comes_pure ([] : GoString)
    refine hsteps.congr ⟨?_, ?_⟩ (by simp) (iff_of_false (by simp) ?_)
    · rintro ⟨hcloned, -⟩
      exact .inl ⟨hcloned, hsame⟩
    · rintro (⟨hcloned, -⟩ | ⟨hstaged, -⟩)
      · exact ⟨hcloned, trivial⟩
      · exact absurd hsame hstaged.changed
    · intro h
      exact h.changed hsame
  next hchanged =>
    have hsteps := (@comes_cloneRepo git gitOpsConfig).bind fun _ repository _ =>
      @comes_commitAndPush git gitOpsConfig appSlug appName newSequence repository
    refine hsteps.congr ⟨?_, ?_⟩ (by simp) ⟨?_, ?_⟩
    · rintro ⟨hcloned, hstaged, hpush⟩
      exact .inr ⟨⟨hcloned, hchanged, hstaged⟩, hpush⟩
    · rintro (⟨-, hsame⟩ | ⟨hstaged, hpush⟩)
      · exact absurd hsame hchanged
      · exact ⟨hstaged.toCloned, hstaged.staged, hpush⟩
    · rintro (hfalse | ⟨hcloned, hstaged, hreceived⟩)
      · exact hfalse.elim
      · exact ⟨⟨hcloned, hchanged, hstaged⟩, hreceived⟩
    · intro h
      exact .inr ⟨h.toCloned, h.staged, h.received⟩

theorem does_lift {α : Type} {P : Push → Prop} (x : Except GoError α) : (lift x).Does P :=
  Effects.does_ofExcept _

/-- A push is for the sequence that the commit was made for. -/
theorem does_createGitOpsCommit (appSlug appName : String) (newSequence : Int) :
    (createGitOpsCommit git gitOpsConfig appSlug appName newSequence).Does
      fun push => push.newSequence = newSequence := by
  unfold createGitOpsCommit
  refine Effects.does_bind ?_ fun repository => ?_
  · exact Effects.does_bind (does_lift _) fun _ => Effects.does_bind (Effects.does_ofExcept _)
      fun url => Effects.does_bind (does_lift _) fun _ => Effects.does_pure url
  split
  next => exact Effects.does_pure _
  next =>
    refine Effects.does_bind (does_lift _) fun _ => Effects.does_bind ?_ fun _ =>
      Effects.does_bind (does_lift _) fun _ => Effects.does_pure _
    unfold received
    split
    next => exact Effects.does_act fun _ => rfl
    next => exact Effects.does_pure ()

end

end Kotsadm.GitOps
