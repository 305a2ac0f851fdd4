import Kotsadm.Flows.Extraction
import Kotsadm.GitOps.CreateGitCommit
import Kotsadm.Sockets.DeploySocket

/-!
# InitialCommits — the commits of an app whose GitOps repository has just been connected

`sendInitialGitCommitsForAppDownstream` commits the current version and then what
`listPendingVersions` returns, in that order: the query is that of a page with the latest version at
the top.
-/

namespace Kotsadm.GitOps

open GitRepository KotsAppStore Extraction

/-- The fields of `getDownstreamGitOps` that a commit reads. -/
structure DownstreamGitOps where
  path : String
  branch : String
  format : String
  deriving DecidableEq, Repr

/-- What is read besides the database. -/
structure GitOpsEnv extends Env where
  getGitOpsCreds : AppId → ClusterId → Except String Unit
  getDownstreamGitOps : AppId → ClusterId → DownstreamGitOps

/-- Files are texts here. -/
abbrev AppRepository := Repository String (List Char) String

/-! ## The code -/

section

variable (env : GitOpsEnv) (db : Database) (appId : AppId) (clusterId : ClusterId)

/-- What `createGitCommitForVersion` renders. -/
def renderVersion (parentSequence : Int) : Except String String := do
  let app ← getApp db appId
  let cluster ← getCluster db clusterId
  env.getGitOpsCreds app.id cluster.id
  let kotsApp ← match app.currentSequence with
    | none => .ok none
    | some sequence => KotsAppStore.getKotsAppSpec env.toEnv db appId sequence
  env.render app.id (toString parentSequence) (overlayPath cluster) (kustomizeVersion kotsApp)

/-- The file of an app in its repository. -/
def appFile (slug : String) : List (List Char) :=
  nodePath.parts (filename nodePath (env.getDownstreamGitOps appId clusterId).path.toList
    (slug ++ ".yaml").toList)

def gitOpsBranch : String := (env.getDownstreamGitOps appId clusterId).branch

def createGitCommitForVersion (parentSequence : Int) (commitMessage : String)
    (remote : AppRepository) : Except String AppRepository := do
  let app ← getApp db appId
  let rendered ← renderVersion env db appId clusterId parentSequence
  match createGitCommit remote (gitOpsBranch env appId clusterId)
      [⟨appFile env appId clusterId app.slug, rendered⟩] commitMessage with
  | none => .error "Failed to create git commit"
  | some outcome => .ok outcome.remote

def commitPendingVersions (app : KotsApp) : List KotsVersion → AppRepository →
    Except String AppRepository
  | [], remote => .ok remote
  | pendingVersion :: pendingVersions, remote => do
    let commitMessage := s!"Updating {app.name} to version {pendingVersion.sequence}"
    let remote ← createGitCommitForVersion env db appId clusterId pendingVersion.parentSequence
      commitMessage remote
    commitPendingVersions app pendingVersions remote

def commitCurrentVersion (app : KotsApp) (currentVersion : Option KotsVersion)
    (remote : AppRepository) : Except String AppRepository :=
  match currentVersion with
  | none => .ok remote
  | some currentVersion =>
    if (env.getDownstreamGitOps appId clusterId).format = "single" then
      createGitCommitForVersion env db appId clusterId currentVersion.parentSequence
        s!"Initial commit of {app.name}" remote
    else .error "unsupported gitops format"

def sendInitialGitCommitsForAppDownstream (remote : AppRepository) :
    Except String AppRepository := do
  let app ← getApp db appId
  let currentVersion ← getCurrentVersion db appId clusterId
  let remote ← commitCurrentVersion env db appId clusterId app currentVersion remote
  let pendingVersions ← listPendingVersions db appId clusterId
  commitPendingVersions env db appId clusterId app pendingVersions remote

end

/-! ## What the branch holds -/

section

variable (env : GitOpsEnv) (db : Database) (appId : AppId) (clusterId : ClusterId) (app : KotsApp)

/-- The commits that a first commit comes after. -/
def gitOpsBase (remote : AppRepository) : History (List Char) String :=
  remote.base (gitOpsBranch env appId clusterId)

/-- A commit has the render of a version in the file of the app. -/
def Holds (commit : Commit (List Char) String) (version : KotsVersion) : Prop :=
  ∃ text ∈ commit.tree.read (appFile env appId clusterId app.slug),
    (renderVersion env db appId clusterId version.parentSequence).toOption = some text

instance (commit : Commit (List Char) String) (version : KotsVersion) :
    Decidable (Holds env db appId clusterId app commit version) := by
  unfold Holds
  infer_instance

/-- A first version that is there already makes no commit. -/
def toCommit (remote : AppRepository) : List KotsVersion → List KotsVersion
  | [] => []
  | version :: versions =>
    if Holds env db appId clusterId app (gitOpsBase env appId clusterId remote).head version then
      versions
    else version :: versions

/-- The branch has a commit for each of the versions, the first one first, and nothing else that it
did not have: its head holds the last one. -/
def Replays (remote remote' : AppRepository) (versions : List KotsVersion) : Prop :=
  ∀ last ∈ versions.getLast?, ∃ history,
    remote'.branch (gitOpsBranch env appId clusterId) = some history ∧
    Holds env db appId clusterId app history.head last ∧
    ∃ new, history.commits = new.reverse ++ (gitOpsBase env appId clusterId remote).commits ∧
      List.Forall₂ (Holds env db appId clusterId app) new
        (toCommit env db appId clusterId app remote versions)

/-- The current version first, then the pending versions in the order of their sequences. -/
def Forward (remote remote' : AppRepository) (currentVersion : Option KotsVersion)
    (pendingVersions : List KotsVersion) : Prop :=
  ∃ ascending : List KotsVersion, ascending.Perm pendingVersions ∧
    ascending.Pairwise (fun v w => v.sequence < w.sequence) ∧
    Replays env db appId clusterId app remote remote' (currentVersion.toList ++ ascending)

/-- What a commit for a version leaves. -/
def Commits (version : KotsVersion) (remote remote' : AppRepository) : Prop :=
  let base := gitOpsBase env appId clusterId remote
  Holds env db appId clusterId app base.head version ∧ remote' = remote ∨
    ¬ Holds env db appId clusterId app base.head version ∧ ∃ tree message,
      Holds env db appId clusterId app ⟨tree, message⟩ version ∧
        remote' = remote.push (gitOpsBranch env appId clusterId) (base.commit tree message)

def CommitsAll : List KotsVersion → AppRepository → AppRepository → Prop
  | [], remote, remote' => remote' = remote
  | version :: versions, remote, remote'' => ∃ remote',
    Commits env db appId clusterId app version remote remote' ∧
      CommitsAll versions remote' remote''

end

section

variable {env : GitOpsEnv} {db : Database} {appId : AppId} {clusterId : ClusterId} {app : KotsApp}
  {remote remote' remote'' : AppRepository} {versions : List KotsVersion} {version : KotsVersion}

theorem commits_of_ok {message : String} (happ : getApp db appId = .ok app)
    (h : createGitCommitForVersion env db appId clusterId version.parentSequence message remote =
      .ok remote') : Commits env db appId clusterId app version remote remote' := by
  obtain ⟨app', happ', h⟩ := Except.bind_eq_ok.mp h
  cases happ.symm.trans happ'
  obtain ⟨rendered, hrender, h⟩ := Except.bind_eq_ok.mp h
  have htext : (renderVersion env db appId clusterId version.parentSequence).toOption =
      some rendered := by
    rw [hrender]
    rfl
  split at h
  next => cases h
  next outcome hcommit =>
    cases h
    by_cases hblocked : (gitOpsBase env appId clusterId remote).head.tree.Blocked
        (appFile env appId clusterId app.slug)
    · rw [createGitCommit_blocked hblocked] at hcommit
      cases hcommit
    · rw [createGitCommit_single _ _ hblocked] at hcommit
      split at hcommit
      next hread =>
        cases hcommit
        exact .inl ⟨⟨rendered, hread, htext⟩, rfl⟩
      next hread =>
        cases hcommit
        refine .inr ⟨?_, _, _, ⟨rendered, ?_, htext⟩, rfl⟩
        · rintro ⟨text, hold, hsame⟩
          cases htext.symm.trans hsame
          exact hread hold
        · exact (Tree.read_write hblocked _).trans (if_pos rfl)

theorem commitsAll_of_pending (happ : getApp db appId = .ok app)
    (h : commitPendingVersions env db appId clusterId app versions remote = .ok remote') :
    CommitsAll env db appId clusterId app versions remote remote' := by
  induction versions generalizing remote with
  | nil => exact (Except.ok.inj h).symm
  | cons version versions ih =>
    obtain ⟨next, hfirst, hrest⟩ := Except.bind_eq_ok.mp h
    exact ⟨next, commits_of_ok happ hfirst, ih hrest⟩

theorem commitsAll_of_current {currentVersion : Option KotsVersion}
    (happ : getApp db appId = .ok app)
    (h : commitCurrentVersion env db appId clusterId app currentVersion remote = .ok remote') :
    CommitsAll env db appId clusterId app currentVersion.toList remote remote' := by
  cases currentVersion with
  | none => exact (Except.ok.inj h).symm
  | some currentVersion =>
    unfold commitCurrentVersion at h
    dsimp only at h
    split at h
    next => exact ⟨remote', commits_of_ok happ h, rfl⟩
    next => cases h

theorem CommitsAll.append {later : List KotsVersion}
    (h : CommitsAll env db appId clusterId app versions remote remote')
    (hlater : CommitsAll env db appId clusterId app later remote' remote'') :
    CommitsAll env db appId clusterId app (versions ++ later) remote remote'' := by
  induction versions generalizing remote with
  | nil =>
    cases h
    exact hlater
  | cons version versions ih =>
    obtain ⟨next, hfirst, hrest⟩ := h
    exact ⟨next, hfirst, ih hrest⟩

/-- What runs to its end commits the versions in the order of the queries. -/
theorem commitsAll_of_send {currentVersion : Option KotsVersion}
    {pendingVersions : List KotsVersion}
    (happ : getApp db appId = .ok app)
    (hcurrent : getCurrentVersion db appId clusterId = .ok currentVersion)
    (hpending : listPendingVersions db appId clusterId = .ok pendingVersions)
    (h : sendInitialGitCommitsForAppDownstream env db appId clusterId remote = .ok remote') :
    CommitsAll env db appId clusterId app (currentVersion.toList ++ pendingVersions) remote
      remote' := by
  obtain ⟨app', happ', h⟩ := Except.bind_eq_ok.mp h
  cases happ.symm.trans happ'
  obtain ⟨current', hcurrent', h⟩ := Except.bind_eq_ok.mp h
  cases hcurrent.symm.trans hcurrent'
  obtain ⟨next, hfirst, h⟩ := Except.bind_eq_ok.mp h
  obtain ⟨pending', hpending', hrest⟩ := Except.bind_eq_ok.mp h
  cases hpending.symm.trans hpending'
  exact (commitsAll_of_current happ hfirst).append (commitsAll_of_pending happ hrest)

/-- After a commit the head of the branch holds the version. -/
theorem Commits.holds (h : Commits env db appId clusterId app version remote remote') :
    Holds env db appId clusterId app (gitOpsBase env appId clusterId remote').head version := by
  rcases h with ⟨hholds, rfl⟩ | ⟨-, tree, message, hholds, rfl⟩
  · exact hholds
  · unfold gitOpsBase
    rw [Repository.base_push]
    exact hholds

theorem CommitsAll.holds_last (h : CommitsAll env db appId clusterId app versions remote remote') :
    ∀ last ∈ versions.getLast?, Holds env db appId clusterId app
      (gitOpsBase env appId clusterId remote').head last := by
  induction versions generalizing remote with
  | nil => exact nofun
  | cons version versions ih =>
    obtain ⟨next, hfirst, hrest⟩ := h
    cases versions with
    | nil =>
      cases hrest
      intro last hlast
      cases hlast
      exact hfirst.holds
    | cons second versions =>
      intro last hlast
      exact ih hrest last (by rwa [List.getLast?_cons_cons] at hlast)

/-- Versions of which no two have the same render. -/
def Distinct (env : GitOpsEnv) (db : Database) (appId : AppId) (clusterId : ClusterId)
    (versions : List KotsVersion) : Prop :=
  versions.Pairwise fun v w => renderVersion env db appId clusterId v.parentSequence ≠
    renderVersion env db appId clusterId w.parentSequence

theorem Holds.render_eq {commit : Commit (List Char) String} {v w : KotsVersion}
    (hv : Holds env db appId clusterId app commit v)
    (hw : Holds env db appId clusterId app commit w) :
    renderVersion env db appId clusterId v.parentSequence =
      renderVersion env db appId clusterId w.parentSequence := by
  obtain ⟨text, hread, htext⟩ := hv
  obtain ⟨text', hread', htext'⟩ := hw
  cases hread.symm.trans hread'
  cases hrender : renderVersion env db appId clusterId v.parentSequence with
  | error e =>
    rw [hrender] at htext
    cases htext
  | ok a =>
    cases hrender' : renderVersion env db appId clusterId w.parentSequence with
    | error e =>
      rw [hrender'] at htext'
      cases htext'
    | ok b =>
      rw [hrender] at htext
      rw [hrender'] at htext'
      cases htext
      cases htext'
      rfl

/-- **The run.**  Versions of which each differs from the one before make one commit each. -/
theorem CommitsAll.new (h : CommitsAll env db appId clusterId app versions remote remote')
    (hdistinct : Distinct env db appId clusterId versions)
    (hfirst : ∀ first ∈ versions.head?, ¬ Holds env db appId clusterId app
      (gitOpsBase env appId clusterId remote).head first) :
    (versions ≠ [] → remote'.branch (gitOpsBranch env appId clusterId) =
      some (gitOpsBase env appId clusterId remote')) ∧
    ∃ new, (gitOpsBase env appId clusterId remote').commits =
        new.reverse ++ (gitOpsBase env appId clusterId remote).commits ∧
      List.Forall₂ (Holds env db appId clusterId app) new versions := by
  induction versions generalizing remote with
  | nil =>
    cases h
    exact ⟨fun hne => absurd rfl hne, [], rfl, .nil⟩
  | cons version versions ih =>
    obtain ⟨next, hcommit, hrest⟩ := h
    have hholds := hcommit.holds
    rcases hcommit with ⟨hheld, -⟩ | ⟨-, tree, message, hnew, rfl⟩
    · exact absurd hheld (hfirst version rfl)
    · obtain ⟨hothers, hrestDistinct⟩ := List.pairwise_cons.mp hdistinct
      have hnext : ∀ first ∈ versions.head?, ¬ Holds env db appId clusterId app
          (gitOpsBase env appId clusterId (remote.push (gitOpsBranch env appId clusterId)
            ((gitOpsBase env appId clusterId remote).commit tree message))).head first := by
        intro first hhead hfirstHeld
        exact hothers first (List.mem_of_head? hhead) (hholds.render_eq hfirstHeld)
      obtain ⟨hbranch, new, hcommits, hnews⟩ := ih hrest hrestDistinct hnext
      constructor
      · intro _
        cases versions with
        | nil =>
          cases hrest
          unfold gitOpsBase
          rw [Repository.branch_push, Repository.base_push]
        | cons second versions => exact hbranch (List.cons_ne_nil _ _)
      · refine ⟨⟨tree, message⟩ :: new, ?_, .cons hnew hnews⟩
        rw [hcommits, List.reverse_cons, List.append_assoc]
        unfold gitOpsBase
        rw [Repository.base_push]
        rfl

/-- Commits of versions in some order, if there was anything to push. -/
theorem CommitsAll.replays (h : CommitsAll env db appId clusterId app versions remote remote')
    (hdistinct : Distinct env db appId clusterId versions)
    (hpushed : ∀ version, versions = [version] →
      (remote.branch (gitOpsBranch env appId clusterId)).isSome ∨ ¬ Holds env db appId clusterId app
        (gitOpsBase env appId clusterId remote).head version) :
    Replays env db appId clusterId app remote remote' versions := by
  intro last hlast
  have hholds := h.holds_last last hlast
  cases versions with
  | nil => cases hlast
  | cons version versions =>
    by_cases hheld : Holds env db appId clusterId app
        (gitOpsBase env appId clusterId remote).head version
    · -- the first version is there: the others make the commits
      have hnew : toCommit env db appId clusterId app remote (version :: versions) = versions :=
        if_pos hheld
      obtain ⟨next, hcommit, hrest⟩ := h
      have hnext : next = remote := by
        rcases hcommit with ⟨-, hsame⟩ | ⟨hnot, -⟩
        · exact hsame
        · exact absurd hheld hnot
      cases hnext
      obtain ⟨hothers, hrestDistinct⟩ := List.pairwise_cons.mp hdistinct
      have hfirst : ∀ first ∈ versions.head?, ¬ Holds env db appId clusterId app
          (gitOpsBase env appId clusterId remote).head first := fun first hhead hfirstHeld =>
        hothers first (List.mem_of_head? hhead) (hheld.render_eq hfirstHeld)
      obtain ⟨hbranch, hcommits⟩ := hrest.new hrestDistinct hfirst
      rw [hnew]
      refine ⟨_, ?_, hholds, hcommits⟩
      cases versions with
      | nil =>
        cases hrest
        obtain ⟨history, hsome⟩ := Option.isSome_iff_exists.mp
          ((hpushed version rfl).resolve_right fun hnot => hnot hheld)
        unfold gitOpsBase
        rw [Repository.base_of_branch hsome]
        exact hsome
      | cons second versions => exact hbranch (List.cons_ne_nil _ _)
    · have hnew : toCommit env db appId clusterId app remote (version :: versions) =
          version :: versions := if_neg hheld
      have hfirst : ∀ first ∈ (version :: versions).head?, ¬ Holds env db appId clusterId app
          (gitOpsBase env appId clusterId remote).head first := by
        intro first hhead
        cases hhead
        exact hheld
      obtain ⟨hbranch, hcommits⟩ := h.new hdistinct hfirst
      rw [hnew]
      exact ⟨_, hbranch (List.cons_ne_nil _ _), hholds, hcommits⟩

/-- The order of `listPendingVersions`. -/
theorem pairwise_listPendingVersions
    (h : listPendingVersions db appId clusterId = .ok versions) :
    versions.Pairwise fun v w => w.sequence ≤ v.sequence := by
  unfold listPendingVersions at h
  split at h
  next => cases h
  next downstream hdownstream =>
    cases h
    rw [List.pairwise_map]
    exact List.pairwise_insertionSort _ _

/-- With two pending versions the head of the branch does not hold the later one. -/
theorem length_le_one_of_forward {currentVersion : Option KotsVersion}
    {pendingVersions : List KotsVersion}
    (hpending : listPendingVersions db appId clusterId = .ok pendingVersions)
    (hdistinct : Distinct env db appId clusterId (currentVersion.toList ++ pendingVersions))
    (hall : CommitsAll env db appId clusterId app (currentVersion.toList ++ pendingVersions) remote
      remote')
    (h : Forward env db appId clusterId app remote remote' currentVersion pendingVersions) :
    pendingVersions.length ≤ 1 := by
  obtain ⟨ascending, hperm, hsorted, hreplays⟩ := h
  have hdescending := pairwise_listPendingVersions hpending
  have hpendingDistinct := (List.pairwise_append.mp hdistinct).2.1
  by_contra hlength
  rcases List.eq_nil_or_concat pendingVersions with rfl | ⟨before, oldest, rfl⟩
  · exact hlength (Nat.zero_le 1)
  rcases List.eq_nil_or_concat ascending with rfl | ⟨older, latest, rfl⟩
  · have hnil := hperm.length_eq
    rw [List.concat_eq_append, List.length_append, List.length_nil, List.length_singleton] at hnil
    omega
  simp only [List.concat_eq_append] at *
  obtain ⟨another, hanother⟩ : ∃ another, another ∈ before := by
    apply List.exists_mem_of_ne_nil
    rintro rfl
    exact hlength (Nat.le_refl 1)
  have hothers := (List.pairwise_append.mp hpendingDistinct).2.2
  -- the code commits the oldest one last, and the claim wants the latest one at the head
  have hcode := hall.holds_last oldest (by rw [← List.append_assoc, List.getLast?_concat]; rfl)
  obtain ⟨history, hbranch, hholds, -⟩ :=
    hreplays latest (by rw [← List.append_assoc, List.getLast?_concat]; rfl)
  unfold gitOpsBase at hcode
  rw [Repository.base_of_branch hbranch] at hcode
  have hrender := hholds.render_eq hcode
  have hlatest : latest = oldest := by
    have hmem := hperm.mem_iff.mp (List.mem_append_right older (List.mem_singleton.mpr rfl))
    rcases List.mem_append.mp hmem with hbefore | hsame
    · exact absurd hrender (hothers latest hbefore oldest (List.mem_singleton.mpr rfl))
    · exact List.mem_singleton.mp hsame
  have hge := (List.pairwise_append.mp hdescending).2.2 another hanother oldest
    (List.mem_singleton.mpr rfl)
  have hmem := hperm.mem_iff.mpr (List.mem_append_left [oldest] hanother)
  rcases List.mem_append.mp hmem with holder | hsame
  · have hlt := (List.pairwise_append.mp hsorted).2.2 another holder latest
      (List.mem_singleton.mpr rfl)
    rw [hlatest] at hlt
    omega
  · have heq := (List.mem_singleton.mp hsame).trans hlatest
    exact hothers another hanother oldest (List.mem_singleton.mpr rfl) (by rw [heq])

end

/-- **The initial commits go forward**, in every run that ends, exactly when there is at most one
pending version and something to push: a single version that the default branch has already makes
no branch. -/
theorem forward_iff {env : GitOpsEnv} {db : Database} {appId : AppId} {clusterId : ClusterId}
    {app : KotsApp} {currentVersion : Option KotsVersion} {pendingVersions : List KotsVersion}
    {remote remote' : AppRepository} (happ : getApp db appId = .ok app)
    (hcurrent : getCurrentVersion db appId clusterId = .ok currentVersion)
    (hpending : listPendingVersions db appId clusterId = .ok pendingVersions)
    (hdistinct : Distinct env db appId clusterId (currentVersion.toList ++ pendingVersions))
    (hsend : sendInitialGitCommitsForAppDownstream env db appId clusterId remote = .ok remote') :
    Forward env db appId clusterId app remote remote' currentVersion pendingVersions ↔
      pendingVersions.length ≤ 1 ∧
        ∀ version, currentVersion.toList ++ pendingVersions = [version] →
          (remote.branch (gitOpsBranch env appId clusterId)).isSome ∨
            ¬ Holds env db appId clusterId app (gitOpsBase env appId clusterId remote).head
              version := by
  have hall := commitsAll_of_send happ hcurrent hpending hsend
  constructor
  · intro h
    have hlength := length_le_one_of_forward hpending hdistinct hall h
    refine ⟨hlength, fun version hsingle => ?_⟩
    obtain ⟨ascending, hperm, -, hreplays⟩ := h
    have hascending : ascending = pendingVersions := by
      match pendingVersions with
      | [] => exact List.perm_nil.mp hperm
      | [v] => exact List.perm_singleton.mp hperm
    rw [hascending, hsingle] at hreplays
    rw [hsingle] at hall
    obtain ⟨next, hcommit, rfl⟩ := hall
    by_contra hnot
    rw [not_or, not_not] at hnot
    obtain ⟨hnone, hheld⟩ := hnot
    rcases hcommit with ⟨-, rfl⟩ | ⟨hnotHeld, -⟩
    · obtain ⟨history, hbranch, -⟩ := hreplays version rfl
      exact hnone (Option.isSome_of_eq_some hbranch)
    · exact hnotHeld hheld
  · rintro ⟨hlength, hpushed⟩
    refine ⟨pendingVersions, .refl _, ?_, hall.replays hdistinct hpushed⟩
    match pendingVersions with
    | [] => exact .nil
    | [v] => exact List.pairwise_singleton _ v

/-! ## An app at version 0 -/

/-- The app with versions up to the given ones, each rendered as its number. -/
def connectedApp (sequences : List Int) (h : (sequences.map fun sequence =>
    ("app", "cluster", sequence)).Nodup) : Database where
  app := { rows := [{ id := "app", name := "App", slug := "app", currentSequence := some 0 }]
           nodup := List.nodup_singleton _ }
  cluster := { rows := [{ id := "cluster", title := "cluster", token := "" }]
               nodup := List.nodup_singleton _ }
  appDownstream := {
    rows := [{ appId := "app", clusterId := "cluster", downstreamName := "cluster",
               currentSequence := some 0 }]
    nodup := List.nodup_singleton _ }
  appDownstreamVersion := {
    rows := sequences.map fun sequence =>
      { appId := "app", clusterId := "cluster", sequence, parentSequence := sequence, status := "" }
    nodup := by rwa [List.map_map] }

def connectedEnv : GitOpsEnv where
  loadKotsAppSpec := fun _ => .ok {}
  render := fun _ sequence _ _ => .ok sequence
  getImagePullSecretFromArchive := fun _ _ => .ok ""
  readBackup := fun _ => .ok []
  base64 := id
  annotateSlug := false
  getGitOpsCreds := fun _ _ => .ok ()
  getDownstreamGitOps := fun _ _ => { path := "", branch := "master", format := "single" }

def newRepository : AppRepository where
  defaultBranch := "master"
  head := { head := { tree := Tree.empty, message := "Initial commit" }, before := [] }
  others := fun _ => none

/-- Versions 0 and 1. -/
theorem forward_twoVersions : ∃ currentVersion pendingVersions remote',
    sendInitialGitCommitsForAppDownstream connectedEnv (connectedApp [0, 1] (by decide)) "app"
      "cluster" newRepository = .ok remote' ∧
    Forward connectedEnv (connectedApp [0, 1] (by decide)) "app" "cluster"
      (mapKotsApp { id := "app", name := "App", slug := "app", currentSequence := some 0 })
      newRepository remote' currentVersion pendingVersions := by
  refine ⟨_, _, _, rfl, (forward_iff rfl rfl rfl ?_ rfl).mpr ⟨?_, ?_⟩⟩
  · unfold Distinct
    decide +kernel
  · decide +kernel
  · intro version hsingle
    exact .inl rfl

/-- Version 1 is committed after version 2. -/
theorem not_forward_threeVersions : ¬ ∀ (env : GitOpsEnv) (db : Database) (appId : AppId)
    (clusterId : ClusterId) (app : KotsApp) (currentVersion : Option KotsVersion)
    (pendingVersions : List KotsVersion) (remote remote' : AppRepository),
    getApp db appId = .ok app → getCurrentVersion db appId clusterId = .ok currentVersion →
    listPendingVersions db appId clusterId = .ok pendingVersions →
    Distinct env db appId clusterId (currentVersion.toList ++ pendingVersions) →
    sendInitialGitCommitsForAppDownstream env db appId clusterId remote = .ok remote' →
    Forward env db appId clusterId app remote remote' currentVersion pendingVersions := by
  intro h
  have hforward := h connectedEnv (connectedApp [0, 1, 2] (by decide)) "app" "cluster" _ _ _
    newRepository _ rfl rfl rfl (by unfold Distinct; decide +kernel) rfl
  have hlength := length_le_one_of_forward rfl (by unfold Distinct; decide +kernel)
    (commitsAll_of_send rfl rfl rfl rfl) hforward
  exact absurd hlength (by decide +kernel)

end Kotsadm.GitOps
