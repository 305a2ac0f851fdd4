import Kotsadm.GitOps.CreateGitOpsCommit
import Kotsadm.Lib.GoEncoding
import Kotsadm.Version.FirstVersion

/-!
# AllOrNothing — when a failed `createVersion` has pushed nothing

The loop over the downstreams pushes to the repositories before the transaction commits.  An error
rolls the rows back and leaves the pushes.  So a failure is without effect unless it comes after a
push: the error of that push, one of a later step of the same downstream, of a later downstream, or
of the commit.
-/

namespace Kotsadm.AllOrNothing

open GoString
open Kotsadm.GitOps Kotsadm.Version

/-! ## createVersion with its pushes -/

/-- The git side in place of `hasGitOps` and `createGitOpsCommit`. -/
structure GitEnv extends VersionEnv where
  getDownstreamGitOps : AppId → ClusterId → Except GoError (Option GitOpsConfig) :=
    fun _ _ => .ok none
  git : ClusterId → CommitEnv := fun _ => {}

def wrapAbort (context : String) : Abort → Abort
  | .error e => .error (e.wrap context)
  | .panic => .panic

/-- A column is text; bytes that are not UTF-8 the database may refuse. -/
def text (s : GoString) : String :=
  String.ofList ((runes s).map fun
    | .char c => c
    | .invalid _ => '\uFFFD')

section

variable (env : GitEnv)

def gitOpsCommit (db : Database) (appId : AppId) (sequence : Int) (d : AppDownstreamRow) :
    Program GoString := do
  let downstreamGitOps ← lift <|
    (env.getDownstreamGitOps appId d.clusterId).wrapError "failed to get downstream gitops"
  match downstreamGitOps with
  | none => return []
  | some gitOpsConfig => do
    let a ← lift <|
      (App.get (env.exec (.getGitOpsApp d.clusterId)) db appId).wrapError "failed to get app"
    Effects.mapError (wrapAbort "failed to create gitops commit") <|
      createGitOpsCommit (env.git d.clusterId) gitOpsConfig a.slug a.name sequence

def createDownstreamVersion (db : Database) (appId : AppId) (source : String)
    (currentSequence : Option Int) (sequence : Int) (kinds : KotsKinds)
    (columns : AppVersionColumns) (tx : Database) (d : AppDownstreamRow) : Program Database := do
  let (diffSummary, status) ← lift <|
    downstreamStatus env.toVersionEnv kinds columns d.downstreamName currentSequence
  let commitUrl ← gitOpsCommit env db appId sequence d
  let args : KotsAppStore.DownstreamVersionArgs :=
    { versionLabel := kinds.versionLabel, status, source, diffSummary, commitUrl := text commitUrl,
      gitDeployable := commitUrl ≠ [] }
  lift (insertDownstreamVersion env.toVersionEnv tx
    (args.row appId d.clusterId sequence sequence env.now))

/-- What the steps before the loop have found and written. -/
structure Begun where
  kinds : KotsKinds
  columns : AppVersionColumns
  sequence : Int
  tx : Database
  downstreams : List AppDownstreamRow

def begin (env : VersionEnv) (appId : AppId) (filesInDir : String) (currentSequence : Option Int)
    (s : Server) : Except GoError Begun := do
  let kinds ← (env.loadKotsKindsFromPath filesInDir).wrapError "failed to read kots kinds"
  let columns ← marshalColumns kinds
  (env.exec .begin).wrapError "failed to begin"
  let sequence ← newSequence env s.db appId currentSequence
  (env.exec .upsertAppVersion).wrapError "failed to insert app version"
  let tx := KotsAppStore.upsertAppVersion s.db appId sequence env.now columns
  let name ← appName env s.db appId kinds
  (env.exec .updateApp).wrapError "failed to update app"
  let tx := KotsAppStore.updateAppVersion tx appId sequence name kinds.icon
  getPreviousArchive env s appId currentSequence
  let downstreams ← (listDownstreamsForApp (env.exec .listDownstreams) s.db appId).wrapError
    "failed to list downstreams"
  return { kinds, columns, sequence, tx, downstreams }

def createVersionTx (appId : AppId) (filesInDir source : String) (currentSequence : Option Int)
    (s : Server) : Program (Int × Database) := do
  let begun ← lift (begin env.toVersionEnv appId filesInDir currentSequence s)
  let tx ← Effects.fold (createDownstreamVersion env s.db appId source currentSequence
    begun.sequence begun.kinds begun.columns) begun.tx begun.downstreams
  lift ((env.exec .commit).wrapError "failed to commit")
  return (begun.sequence, tx)

/-- The deferred rollback also ends a run that panics. -/
def createVersion (appId : AppId) (filesInDir source : String) (currentSequence : Option Int)
    (s : Server) : (Except Abort Int × Server) × List Push :=
  match createVersionTx env appId filesInDir source currentSequence s [] with
  | (.error e, done) => ((.error e, s), done)
  | (.ok (sequence, tx), done) => ((.ok sequence, { s with db := tx }), done)

end

/-! ## A version is created as before -/

section

variable {env : GitEnv} {db tx tx' : Database} {appId : AppId} {source : String}
  {currentSequence : Option Int} {sequence : Int} {kinds : KotsKinds} {columns : AppVersionColumns}
  {d : AppDownstreamRow} {before : List Push}

theorem lift_eq_ok {α : Type} {x : Except GoError α} {a : α} {done : List Push} :
    lift x before = (.ok a, done) ↔ x = .ok a ∧ done = [] := by
  unfold lift
  cases x with
  | error e => exact iff_of_false (fun h => by cases h) (fun h => by cases h.1)
  | ok b =>
    constructor
    · intro h
      cases h
      exact ⟨rfl, rfl⟩
    · rintro ⟨heq, rfl⟩
      cases heq
      rfl

theorem text_eq_empty {s : GoString} : text s = "" ↔ s = [] := by
  constructor
  · intro h
    cases s with
    | nil => rfl
    | cons b rest =>
      have hlist := congrArg String.toList h
      unfold text at hlist
      rw [String.toList_ofList, runes_cons] at hlist
      cases hlist
  · rintro rfl
    rfl

theorem gitOpsCommit_ok {url : GoString} {done : List Push}
    (h : gitOpsCommit env db appId sequence d before = (.ok url, done)) :
    url = [] ∨ ∃ a, App.get (env.exec (.getGitOpsApp d.clusterId)) db appId = .ok a := by
  obtain ⟨downstreamGitOps, done₁, done₂, -, hrest, -⟩ := (Effects.bind_eq_ok before).mp h
  cases downstreamGitOps with
  | none =>
    cases hrest
    exact .inl rfl
  | some gitOpsConfig =>
    obtain ⟨a, done₃, done₄, hget, -, -⟩ := (Effects.bind_eq_ok _).mp hrest
    exact .inr ⟨a, Except.wrapError_eq_ok.mp (lift_eq_ok.mp hget).1⟩

/-- An iteration is one of the transaction without its pushes, for some answers of git. -/
theorem refines_createDownstreamVersion
    (h : (createDownstreamVersion env db appId source currentSequence sequence kinds columns tx d
      before).1 = .ok tx') :
    ∃ hasGitOps createGitOpsCommit,
      Version.createDownstreamVersion { env.toVersionEnv with hasGitOps, createGitOpsCommit } db tx
        appId source currentSequence sequence kinds columns d = .ok tx' := by
  obtain ⟨⟨diffSummary, status⟩, done₁, done₂, hstatus, hrest, -⟩ :=
    (Effects.bind_eq_ok before).mp (Effects.eq_of_fst before h)
  obtain ⟨commitUrl, done₃, done₄, hcommit, hinsert, -⟩ := (Effects.bind_eq_ok _).mp hrest
  have hstatus' : downstreamStatus env.toVersionEnv kinds columns d.downstreamName currentSequence =
      .ok (diffSummary, status) := (lift_eq_ok.mp hstatus).1
  have hinsert' := (lift_eq_ok.mp hinsert).1
  -- the answers that give the same URL
  let commitEnv : VersionEnv :=
    { env.toVersionEnv with
      hasGitOps := fun _ _ => .ok (decide (commitUrl ≠ []))
      createGitOpsCommit := fun _ _ _ => .ok (text commitUrl) }
  have hurl : gitOpsCommitURL commitEnv db appId sequence d = .ok (text commitUrl) := by
    by_cases hempty : commitUrl = []
    · unfold gitOpsCommitURL
      simp only [commitEnv, hempty]
      rfl
    · obtain ⟨a, ha⟩ := (gitOpsCommit_ok hcommit).resolve_left hempty
      have hhas : decide (commitUrl ≠ []) = true := decide_eq_true hempty
      unfold gitOpsCommitURL
      simp only [commitEnv, hhas, ha]
      rfl
  refine ⟨commitEnv.hasGitOps, commitEnv.createGitOpsCommit, ?_⟩
  show Version.createDownstreamVersion commitEnv db tx appId source currentSequence sequence kinds
    columns d = .ok tx'
  have hdeployable : decide (text commitUrl ≠ "") = decide (commitUrl ≠ []) :=
    decide_eq_decide.mpr (not_congr text_eq_empty)
  refine Except.bind_eq_ok.mpr ⟨(diffSummary, status), hstatus', ?_⟩
  refine Except.bind_eq_ok.mpr ⟨text commitUrl, hurl, ?_⟩
  rw [hdeployable]
  exact hinsert'

end

/-! ## The steps before the loop -/

/-- The steps before the loop succeed, and have found and written what is in `b`. -/
structure Begins (env : VersionEnv) (appId : AppId) (filesInDir : String)
    (currentSequence : Option Int) (s : Server) (b : Begun) : Prop where
  load : env.loadKotsKindsFromPath filesInDir = .ok b.kinds
  marshal : marshalColumns b.kinds = .ok b.columns
  begin : env.exec .begin = .ok ()
  sequence : newSequence env s.db appId currentSequence = .ok b.sequence
  upsert : env.exec .upsertAppVersion = .ok ()
  update : env.exec .updateApp = .ok ()
  written : ∃ name, appName env s.db appId b.kinds = .ok name ∧
    b.tx = KotsAppStore.updateAppVersion
      (KotsAppStore.upsertAppVersion s.db appId b.sequence env.now b.columns) appId b.sequence name
      b.kinds.icon
  previous : getPreviousArchive env s appId currentSequence = .ok ()
  listed : env.exec .listDownstreams = .ok ()
  downstreams : b.downstreams = s.db.appDownstream.rows.filter fun r => r.appId = appId

section

variable {env : VersionEnv} {appId : AppId} {filesInDir : String} {currentSequence : Option Int}
  {s : Server} {b : Begun}

theorem listDownstreamsForApp_eq_ok {outcome : Except GoError Unit} {db : Database}
    {downstreams : List AppDownstreamRow} :
    listDownstreamsForApp outcome db appId = .ok downstreams ↔
      outcome = .ok () ∧ downstreams = db.appDownstream.rows.filter fun r => r.appId = appId := by
  unfold listDownstreamsForApp
  cases outcome with
  | error e => simp
  | ok _ => simp [eq_comm]

theorem begin_eq_ok :
    begin env appId filesInDir currentSequence s = .ok b ↔
      Begins env appId filesInDir currentSequence s b := by
  constructor
  · intro h
    obtain ⟨kinds, hload, h⟩ := Except.bind_eq_ok.mp h
    obtain ⟨columns, hmarshal, h⟩ := Except.bind_eq_ok.mp h
    obtain ⟨_, hbegin, h⟩ := Except.bind_eq_ok.mp h
    obtain ⟨sequence, hsequence, h⟩ := Except.bind_eq_ok.mp h
    obtain ⟨_, hupsert, h⟩ := Except.bind_eq_ok.mp h
    obtain ⟨name, hname, h⟩ := Except.bind_eq_ok.mp h
    obtain ⟨_, hupdate, h⟩ := Except.bind_eq_ok.mp h
    obtain ⟨_, hprevious, h⟩ := Except.bind_eq_ok.mp h
    obtain ⟨downstreams, hlist, h⟩ := Except.bind_eq_ok.mp h
    cases h
    obtain ⟨hlisted, hdownstreams⟩ :=
      listDownstreamsForApp_eq_ok.mp (Except.wrapError_eq_ok.mp hlist)
    exact {
      load := Except.wrapError_eq_ok.mp hload
      marshal := hmarshal
      begin := Except.wrapError_eq_ok.mp hbegin
      sequence := hsequence
      upsert := Except.wrapError_eq_ok.mp hupsert
      update := Except.wrapError_eq_ok.mp hupdate
      written := ⟨name, hname, rfl⟩
      previous := hprevious
      listed := hlisted
      downstreams := hdownstreams }
  · intro h
    obtain ⟨name, hname, htx⟩ := h.written
    have hlist := listDownstreamsForApp_eq_ok.mpr ⟨h.listed, h.downstreams⟩
    unfold begin
    rw [h.load, h.begin, h.upsert, h.update, h.previous, hlist]
    show (marshalColumns b.kinds >>= _) = .ok b
    rw [h.marshal]
    show (newSequence env s.db appId currentSequence >>= _) = .ok b
    rw [h.sequence]
    show (appName env s.db appId b.kinds >>= _) = .ok b
    rw [hname]
    show (Except.ok _ : Except GoError Begun) = .ok b
    rw [← htx]

end

/-! ## How an iteration ends -/

section

variable (env : GitEnv) (db : Database) (appId : AppId) (currentSequence : Option Int) (b : Begun)
  (d : AppDownstreamRow)

/-- The diff and the config check succeed. -/
def Checked : Prop :=
  ∃ x, downstreamStatus env.toVersionEnv b.kinds b.columns d.downstreamName currentSequence = .ok x

/-- The downstream has GitOps, and the app is found. -/
def HasGitOps (gitOpsConfig : GitOpsConfig) : Prop :=
  env.getDownstreamGitOps appId d.clusterId = .ok (some gitOpsConfig) ∧
    ∃ a, App.get (env.exec (.getGitOpsApp d.clusterId)) db appId = .ok a

/-- There is nothing to commit, or `CreateGitOpsCommit` returns. -/
def Committed : Prop :=
  env.getDownstreamGitOps appId d.clusterId = .ok none ∨
    ∃ gitOpsConfig, HasGitOps env db appId d gitOpsConfig ∧
      CommitReturns (env.git d.clusterId) gitOpsConfig

/-- The insert succeeds: there is no such row. -/
def Inserted : Prop :=
  env.exec (.insertDownstreamVersion d.clusterId) = .ok () ∧
    db.appDownstreamVersion.find? (appId, d.clusterId, b.sequence) = none

/-- The loop goes on past `d`. -/
structure Passes : Prop where
  checked : Checked env currentSequence b d
  committed : Committed env db appId d
  inserted : Inserted env db appId b d

/-- `CloneURL` indexes past the end of the URI. -/
structure Panics : Prop where
  checked : Checked env currentSequence b d
  panics : ∃ gitOpsConfig, HasGitOps env db appId d gitOpsConfig ∧
    CommitPanics (env.git d.clusterId) gitOpsConfig

/-- The repository of `d` receives a commit. -/
structure Pushed : Prop where
  checked : Checked env currentSequence b d
  pushed : ∃ gitOpsConfig, HasGitOps env db appId d gitOpsConfig ∧
    CommitPushed (env.git d.clusterId) gitOpsConfig

end

section

variable {env : GitEnv} {db : Database} {appId : AppId} {source : String}
  {currentSequence : Option Int} {b : Begun} {d : AppDownstreamRow}

theorem wrapError_isOk {α : Type} {context : String} {x : Except GoError α} :
    (∃ a, x.wrapError context = .ok a) ↔ ∃ a, x = .ok a :=
  exists_congr fun _ => Except.wrapError_eq_ok

theorem wrapAbort_eq_panic {context : String} (e : Abort) :
    wrapAbort context e = .panic ↔ e = .panic := by
  cases e with
  | error e => simp [wrapAbort]
  | panic => simp [wrapAbort]

theorem lift_ok_bind {α β : Type} (a : α) (k : α → Program β) : (lift (.ok a) >>= k) = k a :=
  funext fun before => Effects.ofExcept_ok_bind before a k

theorem lift_error_bind {α β : Type} (e : GoError) (k : α → Program β) :
    (lift (.error e) >>= k) = Effects.ofExcept (.error (.error e)) :=
  funext fun before => Effects.ofExcept_error_bind before (Abort.error e) k

theorem comes_stopped {α : Type} (e : GoError) :
    (Effects.ofExcept (.error (.error e)) : Program α).Comes (· = .panic) False False False :=
  Effects.comes_ofExcept (by simp) (by simp)

theorem comes_gitOpsCommit : (gitOpsCommit env db appId b.sequence d).Comes (· = .panic)
    (Committed env db appId d)
    (∃ gitOpsConfig, HasGitOps env db appId d gitOpsConfig ∧
      CommitPanics (env.git d.clusterId) gitOpsConfig)
    (∃ gitOpsConfig, HasGitOps env db appId d gitOpsConfig ∧
      CommitPushed (env.git d.clusterId) gitOpsConfig) := by
  unfold gitOpsCommit Committed HasGitOps
  cases hconfig : env.getDownstreamGitOps appId d.clusterId with
  | error e =>
    dsimp only [Except.wrapError]
    rw [lift_error_bind]
    exact (comes_stopped _).congr (by simp) (by simp) (by simp)
  | ok downstreamGitOps =>
    dsimp only [Except.wrapError]
    rw [lift_ok_bind]
    cases downstreamGitOps with
    | none => exact (Effects.comes_pure []).congr (by simp) (by simp) (by simp)
    | some gitOpsConfig =>
      dsimp only
      cases hget : App.get (env.exec (.getGitOpsApp d.clusterId)) db appId with
      | error e =>
        dsimp only
        rw [lift_error_bind]
        exact (comes_stopped _).congr (by simp) (by simp) (by simp)
      | ok a =>
        dsimp only
        rw [lift_ok_bind]
        have hcommit := (@comes_createGitOpsCommit (env.git d.clusterId) gitOpsConfig a.slug a.name
          b.sequence).mapError (@wrapAbort_eq_panic "failed to create gitops commit")
        exact hcommit.congr (by simp) (by simp) (by simp)

theorem inserts_iff {tx : Database} {row : AppDownstreamVersionRow} :
    (∃ tx', insertDownstreamVersion env.toVersionEnv tx row = .ok tx') ↔
      env.exec (.insertDownstreamVersion row.clusterId) = .ok () ∧
        tx.appDownstreamVersion.find? row.key = none := by
  unfold insertDownstreamVersion
  rw [wrapError_isOk]
  constructor
  · rintro ⟨tx', h⟩
    split at h
    next => cases h
    next => cases h
    next hexec hstore =>
      refine ⟨hexec, ?_⟩
      unfold KotsAppStore.insertDownstreamVersion at hstore
      split at hstore
      next => cases hstore
      next htable => exact (Keyed.insert?_eq_some htable).2
  · rintro ⟨hexec, hfree⟩
    have hinsert : ∃ tx', KotsAppStore.insertDownstreamVersion tx row = .ok tx' := by
      unfold KotsAppStore.insertDownstreamVersion
      split
      next hnone =>
        have htaken := Keyed.insert?_eq_none.mp hnone
        rw [hfree] at htaken
        cases htaken
      next table _ => exact ⟨_, rfl⟩
    obtain ⟨tx', htx'⟩ := hinsert
    rw [hexec, htx']
    exact ⟨tx', rfl⟩

theorem comes_createDownstreamVersion {tx : Database}
    (htx : tx.appDownstreamVersion.find? (appId, d.clusterId, b.sequence) =
      db.appDownstreamVersion.find? (appId, d.clusterId, b.sequence)) :
    (createDownstreamVersion env db appId source currentSequence b.sequence b.kinds b.columns tx
      d).Comes (· = .panic) (Passes env db appId currentSequence b d)
      (Panics env db appId currentSequence b d) (Pushed env db appId currentSequence b d) := by
  have hcheck : (∃ x, downstreamStatus env.toVersionEnv b.kinds b.columns d.downstreamName
    currentSequence = .ok x) ↔ Checked env currentSequence b d := Iff.rfl
  have hinsert : ∀ row : AppDownstreamVersionRow, row.clusterId = d.clusterId →
      row.key = (appId, d.clusterId, b.sequence) →
      ((∃ tx', insertDownstreamVersion env.toVersionEnv tx row = .ok tx') ↔
        Inserted env db appId b d) := by
    intro row hcluster hkey
    rw [inserts_iff, hcluster, hkey, htx]
    rfl
  unfold createDownstreamVersion
  refine Effects.Comes.congr ((comes_lift hcheck).bind fun _ (diffSummary, status) _ =>
    comes_gitOpsCommit.bind fun _ commitUrl _ => comes_lift (hinsert _ rfl rfl))
    ⟨?_, ?_⟩ ⟨?_, ?_⟩ ⟨?_, ?_⟩
  · rintro ⟨hchecked, hcommitted, hinserted⟩
    exact ⟨hchecked, hcommitted, hinserted⟩
  · rintro ⟨hchecked, hcommitted, hinserted⟩
    exact ⟨hchecked, hcommitted, hinserted⟩
  · rintro (hfalse | ⟨hchecked, hpanics | ⟨-, hfalse⟩⟩)
    · exact hfalse.elim
    · exact ⟨hchecked, hpanics⟩
    · exact hfalse.elim
  · rintro ⟨hchecked, hpanics⟩
    exact .inr ⟨hchecked, .inl hpanics⟩
  · rintro (hfalse | ⟨hchecked, hpushed | ⟨-, hfalse⟩⟩)
    · exact hfalse.elim
    · exact ⟨hchecked, hpushed⟩
    · exact hfalse.elim
  · rintro ⟨hchecked, hpushed⟩
    exact .inr ⟨hchecked, .inl hpushed⟩

end

/-! ## All or nothing -/

section

variable (env : GitEnv) (appId : AppId) (filesInDir source : String)
  (currentSequence : Option Int) (s : Server)

/-- If an error is returned, no row was written, and nothing was pushed for the new sequence. -/
def AllOrNothing : Prop :=
  ∀ e s' pushes,
    createVersion env appId filesInDir source currentSequence s =
        ((.error (.error e), s'), pushes) →
      s'.db = s.db ∧
        ∀ push ∈ pushes, nextSequence s.db appId currentSequence ≠ some push.newSequence

variable {env appId filesInDir source currentSequence s}

/-- The loop finds the keys of its rows as the committed database has them. -/
def Free (db : Database) (appId : AppId) (sequence : Int) (tx : Database)
    (downstreams : List AppDownstreamRow) : Prop :=
  (downstreams.map (·.clusterId)).Nodup ∧ ∀ d ∈ downstreams,
    tx.appDownstreamVersion.find? (appId, d.clusterId, sequence) =
      db.appDownstreamVersion.find? (appId, d.clusterId, sequence)

/-- An iteration inserts the row of its own downstream. -/
theorem find?_createDownstreamVersion {b : Begun} {tx tx' : Database} {d : AppDownstreamRow}
    {before : List Push}
    (h : (createDownstreamVersion env s.db appId source currentSequence b.sequence b.kinds
      b.columns tx d before).1 = .ok tx') {clusterId : ClusterId}
    (hother : d.clusterId ≠ clusterId) :
    tx'.appDownstreamVersion.find? (appId, clusterId, b.sequence) =
      tx.appDownstreamVersion.find? (appId, clusterId, b.sequence) := by
  obtain ⟨hasGitOps, createGitOpsCommit, hrun⟩ := refines_createDownstreamVersion h
  obtain ⟨status, -, hrun⟩ := Except.bind_eq_ok.mp hrun
  obtain ⟨commitUrl, -, hrun⟩ := Except.bind_eq_ok.mp hrun
  have hinsert := insertDownstreamVersion_eq_ok hrun
  unfold KotsAppStore.insertDownstreamVersion at hinsert
  split at hinsert
  next => cases hinsert
  next table htable =>
    cases hinsert
    dsimp only
    rw [Keyed.find?_insert? htable, if_neg]
    intro hkey
    exact hother (congrArg (fun key => key.2.1) hkey)

theorem free_next {b : Begun} {tx tx' : Database} {d : AppDownstreamRow}
    {ds : List AppDownstreamRow} {before : List Push}
    (h : Free s.db appId b.sequence tx (d :: ds))
    (hrun : (createDownstreamVersion env s.db appId source currentSequence b.sequence b.kinds
      b.columns tx d before).1 = .ok tx') : Free s.db appId b.sequence tx' ds := by
  obtain ⟨hnodup, hfree⟩ := h
  rw [List.map_cons, List.nodup_cons] at hnodup
  refine ⟨hnodup.2, fun other hother => ?_⟩
  have hcluster : d.clusterId ≠ other.clusterId := by
    intro heq
    apply hnodup.1
    rw [heq]
    exact List.mem_map_of_mem hother
  rw [find?_createDownstreamVersion hrun hcluster]
  exact hfree other (List.mem_cons_of_mem d hother)

theorem free_begin {b : Begun}
    (h : Begins env.toVersionEnv appId filesInDir currentSequence s b) :
    Free s.db appId b.sequence b.tx b.downstreams := by
  obtain ⟨name, -, htx⟩ := h.written
  constructor
  · rw [h.downstreams]
    exact nodup_clusterIds s.db appId
  · intro d _
    rw [htx]
    rfl

/-- The transaction after the steps before the loop. -/
theorem createVersionTx_of_begins {b : Begun}
    (h : Begins env.toVersionEnv appId filesInDir currentSequence s b) :
    createVersionTx env appId filesInDir source currentSequence s = do
      let tx ← Effects.fold (createDownstreamVersion env s.db appId source currentSequence
        b.sequence b.kinds b.columns) b.tx b.downstreams
      lift ((env.exec .commit).wrapError "failed to commit")
      return (b.sequence, tx) := by
  unfold createVersionTx
  rw [begin_eq_ok.mpr h, lift_ok_bind]

theorem comes_createVersionTx {b : Begun}
    (h : Begins env.toVersionEnv appId filesInDir currentSequence s b) :
    (createVersionTx env appId filesInDir source currentSequence s).Comes (· = .panic)
      ((∀ d ∈ b.downstreams, Passes env s.db appId currentSequence b d) ∧
        env.exec .commit = .ok ())
      (Effects.Reached (Passes env s.db appId currentSequence b)
        (Panics env s.db appId currentSequence b) b.downstreams)
      (Effects.Reached (Passes env s.db appId currentSequence b)
        (Pushed env s.db appId currentSequence b) b.downstreams) := by
  have hloop : (Effects.fold (createDownstreamVersion env s.db appId source currentSequence
      b.sequence b.kinds b.columns) b.tx b.downstreams).Comes (· = .panic)
      (∀ d ∈ b.downstreams, Passes env s.db appId currentSequence b d)
      (Effects.Reached (Passes env s.db appId currentSequence b)
        (Panics env s.db appId currentSequence b) b.downstreams)
      (Effects.Reached (Passes env s.db appId currentSequence b)
        (Pushed env s.db appId currentSequence b) b.downstreams) := by
    refine @Effects.comes_fold _ _ _ _ _ _ (Free s.db appId b.sequence) _ _ _ ?_ ?_ _ _
      (free_begin h)
    · intro tx d ds hfree
      exact comes_createDownstreamVersion (hfree.2 d List.mem_cons_self)
    · intro tx d ds before tx' hfree hrun
      exact free_next hfree hrun
  have hcommit : (∃ a, (env.exec .commit).wrapError "failed to commit" = .ok a) ↔
      env.exec .commit = .ok () := wrapError_isOk.trans (exists_unit Iff.rfl)
  rw [createVersionTx_of_begins h]
  refine Effects.Comes.congr (hloop.bind fun _ tx _ => (comes_lift hcommit).bind fun _ _ _ =>
    Effects.comes_pure (b.sequence, tx)) (by simp) (by simp) (by simp)

theorem does_gitOpsCommit (sequence : Int) (d : AppDownstreamRow) (db : Database) :
    (gitOpsCommit env db appId sequence d).Does fun push => push.newSequence = sequence := by
  unfold gitOpsCommit
  refine Effects.does_bind (does_lift _) fun downstreamGitOps => ?_
  cases downstreamGitOps with
  | none => exact Effects.does_pure _
  | some gitOpsConfig =>
    exact Effects.does_bind (does_lift _) fun a =>
      Effects.does_mapError (does_createGitOpsCommit a.slug a.name sequence)

theorem does_createVersionTx {b : Begun}
    (h : Begins env.toVersionEnv appId filesInDir currentSequence s b) :
    (createVersionTx env appId filesInDir source currentSequence s).Does
      fun push => push.newSequence = b.sequence := by
  rw [createVersionTx_of_begins h]
  refine Effects.does_bind (Effects.does_fold ?_ b.tx) fun tx =>
    Effects.does_bind (does_lift _) fun _ => Effects.does_pure _
  intro tx d _
  exact Effects.does_bind (does_lift _) fun (diffSummary, status) =>
    Effects.does_bind (does_gitOpsCommit b.sequence d s.db) fun commitUrl => does_lift _

/-- What fails without a panic has returned an error. -/
theorem error_iff {α : Type} {m : Program α} {R Q A : Prop} (h : m.Comes (· = .panic) R Q A)
    (before : List Push) : (∃ e, (m before).1 = .error (.error e)) ↔ ¬ R ∧ ¬ Q := by
  rw [← h.ok before, ← h.error before]
  rcases (m before).1 with ⟨e | _⟩ | a
  · simp
  · simp
  · simp

/-- A run that ends with an error, seen from its transaction. -/
theorem createVersion_error {e : Abort} {s' : Server} {pushes : List Push} :
    createVersion env appId filesInDir source currentSequence s = ((.error e, s'), pushes) ↔
      s' = s ∧ createVersionTx env appId filesInDir source currentSequence s [] =
        (.error e, pushes) := by
  unfold createVersion
  rcases createVersionTx env appId filesInDir source currentSequence s [] with ⟨e' | ⟨_, tx⟩, done⟩
  · simp only [Prod.mk.injEq, Except.error.injEq]
    constructor
    · rintro ⟨⟨rfl, rfl⟩, rfl⟩
      exact ⟨rfl, rfl, rfl⟩
    · rintro ⟨rfl, rfl, rfl⟩
      exact ⟨⟨rfl, rfl⟩, rfl⟩
  · simp

theorem nextSequence_of_begins {b : Begun}
    (h : Begins env.toVersionEnv appId filesInDir currentSequence s b) :
    nextSequence s.db appId currentSequence = some b.sequence := newSequence_eq_ok h.sequence

/-- What was pushed before an error stays. -/
theorem not_allOrNothing_of_pushed {b : Begun}
    (hbegins : Begins env.toVersionEnv appId filesInDir currentSequence s b)
    (hpushed : Effects.Reached (Passes env s.db appId currentSequence b)
      (Pushed env s.db appId currentSequence b) b.downstreams)
    (hreturns : ¬ ((∀ d ∈ b.downstreams, Passes env s.db appId currentSequence b d) ∧
      env.exec .commit = .ok ()))
    (hpanics : ¬ Effects.Reached (Passes env s.db appId currentSequence b)
      (Panics env s.db appId currentSequence b) b.downstreams) :
    ¬ AllOrNothing env appId filesInDir source currentSequence s := by
  intro h
  have hcomes := @comes_createVersionTx env appId filesInDir source currentSequence s b hbegins
  obtain ⟨e, herror⟩ := (error_iff hcomes []).mpr ⟨hreturns, hpanics⟩
  have hacts := (hcomes.acts []).mpr hpushed
  obtain ⟨push, hpush⟩ := List.exists_mem_of_ne_nil _ hacts
  have hrun := createVersion_error.mpr ⟨rfl, Effects.eq_of_fst [] herror⟩
  have hnone := (h e s _ hrun).2 push hpush
  have hsequence := does_createVersionTx hbegins [] push hpush
  rw [nextSequence_of_begins hbegins, hsequence] at hnone
  exact hnone rfl

/-- Exactly when nothing goes wrong after a push. -/
theorem allOrNothing_iff :
    AllOrNothing env appId filesInDir source currentSequence s ↔
      ∀ b, Begins env.toVersionEnv appId filesInDir currentSequence s b →
        Effects.Reached (Passes env s.db appId currentSequence b)
          (Pushed env s.db appId currentSequence b) b.downstreams →
        (∀ d ∈ b.downstreams, Passes env s.db appId currentSequence b d) ∧
            env.exec .commit = .ok () ∨
          Effects.Reached (Passes env s.db appId currentSequence b)
            (Panics env s.db appId currentSequence b) b.downstreams := by
  constructor
  · intro h b hbegins hpushed
    by_contra hfails
    rw [not_or] at hfails
    exact not_allOrNothing_of_pushed hbegins hpushed hfails.1 hfails.2 h
  · intro h e s' pushes hrun
    obtain ⟨rfl, htx⟩ := createVersion_error.mp hrun
    refine ⟨rfl, fun push hpush => ?_⟩
    cases hbegin : begin env.toVersionEnv appId filesInDir currentSequence s' with
    | error e' =>
      -- the steps before the loop push nothing
      unfold createVersionTx at htx
      rw [hbegin, lift_error_bind] at htx
      cases htx
      cases hpush
    | ok b =>
      have hbegins := begin_eq_ok.mp hbegin
      have hcomes :=
        @comes_createVersionTx env appId filesInDir source currentSequence s' b hbegins
      have hacts : (createVersionTx env appId filesInDir source currentSequence s' []).2 ≠ [] := by
        rw [htx]
        exact List.ne_nil_of_mem hpush
      have herror := (error_iff hcomes []).mp ⟨e, by rw [htx]⟩
      rcases h b hbegins ((hcomes.acts []).mp hacts) with hpasses | hpanics
      · exact absurd hpasses herror.1
      · exact absurd hpanics herror.2

/-- A run that returns has created the version, as one without pushes would. -/
theorem created_createVersion {sequence : Int} {s' : Server} {pushes : List Push}
    (h : createVersion env appId filesInDir source currentSequence s =
      ((.ok sequence, s'), pushes)) :
    nextSequence s.db appId currentSequence = some sequence ∧
      Created appId sequence s.db s'.db := by
  unfold createVersion at h
  split at h
  next => cases h
  next sequence' tx done htx =>
    cases h
    obtain ⟨b, done₁, done₂, hbegin, hrest, -⟩ := (Effects.bind_eq_ok []).mp htx
    obtain ⟨tx', done₃, done₄, hloop, hrest, -⟩ := (Effects.bind_eq_ok _).mp hrest
    obtain ⟨_, done₅, done₆, -, hrest, -⟩ := (Effects.bind_eq_ok _).mp hrest
    cases hrest
    have hbegins := begin_eq_ok.mp (lift_eq_ok.mp hbegin).1
    obtain ⟨name, -, hwritten⟩ := hbegins.written
    refine ⟨nextSequence_of_begins hbegins, ?_⟩
    have hcreated : Created appId b.sequence s.db b.tx := by
      rw [hwritten]
      exact ⟨⟨name, b.kinds.icon, rfl⟩, ⟨env.now, b.columns, rfl⟩, rfl, rfl, fun r hr => .inl hr⟩
    refine @Effects.fold_inv _ _ _ _ _ (fun tx => Created appId b.sequence s.db tx) _ ?_ _ _ _
      hcreated (congrArg Prod.fst hloop)
    intro tx d _ before tx' htx hrun
    obtain ⟨hasGitOps, createGitOpsCommit, hiteration⟩ := refines_createDownstreamVersion hrun
    exact created_createDownstreamVersion htx hiteration

end

/-- An app with one downstream. -/
def oneDownstream : Server where
  db := {
    app := .single { id := "app", name := "App", slug := "app" }
    appDownstream :=
      .single { appId := "app", clusterId := "cluster", downstreamName := "cluster" } }

def repo : GitOpsConfig where
  provider := ascii "github"
  repoURI := ascii "https://github.com/org/repo"
  branch := ascii "master"

/-- Its repository receives the yaml, and the commit of the transaction fails. -/
def failedCommit : GitEnv where
  loadKotsKindsFromPath _ := .ok { title := "App" }
  exec
    | .commit => .error { cause := "bad connection" }
    | _ => .ok ()
  getDownstreamGitOps _ _ := .ok (some repo)
  git _ := { out := ascii "kind: ConfigMap", hash := ascii "abc" }

def begunOnce : Begun where
  kinds := { title := "App" }
  columns := {}
  sequence := 0
  tx := KotsAppStore.updateAppVersion (KotsAppStore.upsertAppVersion oneDownstream.db "app" 0 0 {})
    "app" 0 "App" ""
  downstreams := [{ appId := "app", clusterId := "cluster", downstreamName := "cluster" }]

theorem begins_begunOnce :
    Begins failedCommit.toVersionEnv "app" "/tmp/dir" none oneDownstream begunOnce where
  load := rfl
  marshal := rfl
  begin := rfl
  sequence := rfl
  upsert := rfl
  update := rfl
  written := ⟨"App", rfl, rfl⟩
  previous := rfl
  listed := rfl
  downstreams := rfl

theorem isSome_cloneURL_repo : repo.cloneURL.isSome := by decide

theorem not_allOrNothing_failedCommit :
    ¬ AllOrNothing failedCommit "app" "/tmp/dir" "Upload" none oneDownstream := by
  let d : AppDownstreamRow :=
    { appId := "app", clusterId := "cluster", downstreamName := "cluster" }
  have hcommit : CommitPushed (failedCommit.git d.clusterId) repo :=
    { prepared := fun _ _ => rfl, cloneURL := isSome_cloneURL_repo, cloned := fun _ _ => rfl,
      branch := .inl rfl, read := rfl, changed := by decide, staged := fun _ _ => rfl,
      received := rfl }
  have hpushed : Pushed failedCommit oneDownstream.db "app" none begunOnce d :=
    ⟨⟨_, rfl⟩, repo, ⟨rfl, _, rfl⟩, hcommit⟩
  refine not_allOrNothing_of_pushed begins_begunOnce
    ⟨[], d, [], rfl, (fun _ hd => by cases hd), hpushed⟩ ?_ ?_
  · rintro ⟨-, hcommitted⟩
    cases hcommitted
  · rintro ⟨_, other, _, -, -, -, gitOpsConfig, ⟨hconfig, -⟩, hpanics⟩
    cases hconfig
    have hsome := isSome_cloneURL_repo
    rw [hpanics.cloneURL] at hsome
    cases hsome

end Kotsadm.AllOrNothing
