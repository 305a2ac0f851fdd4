import Kotsadm.Lib.Throws
import Kotsadm.Store.Server

/-!
# CreateVersion — the transaction that creates a version, and the archive that belongs to it

`createVersion`, `CreateAppVersionArchive` and `GetAppVersionArchive` of the Go package `version`.
The transaction works on a copy of the database that the commit publishes; `app.Get`,
`ListDownstreamsForApp` and the gitops package use connections of their own and see the committed
database.
-/

namespace Kotsadm.Version

/-- The kinds that `createVersion` marshals. -/
inductive Kind where
  | collector
  | analyzer
  | preflight
  | application
  | kotsApplication
  | backup
  | license
  | config
  | configValues
  deriving DecidableEq, Repr

structure License where
  appSlug : String
  licenseSequence : Int := 0
  deriving DecidableEq, Repr

structure ConfigValue where
  value : String := ""
  default : String := ""
  deriving DecidableEq, Repr

/-- The `Spec.Values` of a `ConfigValues`; a file without values has no map. -/
structure ConfigValues where
  values : Option (String → Option ConfigValue)

/-- What the modelled functions read of the `KotsKinds` of a directory. -/
structure KotsKinds where
  versionLabel : String := ""
  releaseNotes : String := ""
  updateCursor : String := ""
  channelName : String := ""
  encryptionKey : String := ""
  title : String := ""
  icon : String := ""
  hasConfig : Bool := false
  configValues : Option ConfigValues := none
  license : Option License := none
  hasPreflight : Bool := false
  marshal : Kind → Except GoError String := fun _ => .ok ""

/-- The statements of one run of `createVersion`. -/
inductive Statement where
  | begin
  | selectMaxSequence
  | upsertAppVersion
  | getApp
  | updateApp
  | listDownstreams
  | getGitOpsApp (clusterId : ClusterId)
  | insertDownstreamVersion (clusterId : ClusterId)
  | commit
  deriving DecidableEq, Repr

/-- What `createVersion` gets from outside: files, statements, object storage, config, git. -/
structure VersionEnv where
  loadKotsKindsFromPath : String → Except GoError KotsKinds
  exec : Statement → Except GoError Unit := fun _ => .ok ()
  downloadArchive : AppId → Int → Except GoError Unit := fun _ _ => .ok ()
  needsConfiguration : String → String → String → Except GoError Bool := fun _ _ _ => .ok false
  diffAppVersions : String → Except GoError String := fun _ => .ok ""
  hasGitOps : AppId → ClusterId → Except GoError Bool := fun _ _ => .ok false
  createGitOpsCommit : App → Int → String → Except GoError String := fun _ _ _ => .ok ""
  now : Timestamp := 0

/-! ## Archives -/

/-- `GetAppVersionArchive`, without the directory it unpacks to. -/
def getAppVersionArchive (outcome : Except GoError Unit) (archives : AppId → Int → Option String)
    (appId : AppId) (sequence : Int) : Except GoError Unit :=
  match outcome, archives appId sequence with
  | .error e, _ => .error e
  | .ok _, none => .error { contexts := ["failed to download file"], cause := "NoSuchKey" }
  | .ok _, some _ => .ok ()

/-- `CreateAppVersionArchive` stores what it packed, or fails before it did. -/
def createAppVersionArchive (packed : Except GoError String) (appId : AppId) (sequence : Int) :
    Call Unit := fun s =>
  match packed with
  | .error e => (.error e, s)
  | .ok archive =>
    (.ok (), { s with
      archives := Function.update s.archives appId
        (Function.update (s.archives appId) sequence (some archive)) })

/-! ## createVersion -/

def maxSequence (db : Database) (appId : AppId) : Option Int :=
  ((db.appVersion.rows.filter fun r => r.appId = appId).map (·.sequence)).max?

/-- The sequence of the new version: 0 for the first one, `max(sequence) + 1` for the others. -/
def nextSequence (db : Database) (appId : AppId) : Option Int → Option Int
  | none => some 0
  | some _ => (maxSequence db appId).map (· + 1)

/-- `max` of no row is `NULL`, which does not scan into an integer. -/
def newSequence (env : VersionEnv) (db : Database) (appId : AppId) :
    Option Int → Except GoError Int
  | none => .ok 0
  | some _ => Except.wrapError "failed to find current max sequence in row" <|
    match env.exec .selectMaxSequence, maxSequence db appId with
    | .error e, _ => .error e
    | .ok _, some last => .ok (last + 1)
    | .ok _, none => .error { cause := "converting NULL to int is unsupported" }

def marshalColumns (kinds : KotsKinds) : Except GoError AppVersionColumns := do
  let supportbundleSpec ← (kinds.marshal .collector).wrapError "failed to marshal support bundle spec"
  let analyzerSpec ← (kinds.marshal .analyzer).wrapError "failed to marshal analyzer spec"
  let preflightSpec ← (kinds.marshal .preflight).wrapError "failed to marshal preflight spec"
  let appSpec ← (kinds.marshal .application).wrapError "failed to marshal app spec"
  let kotsAppSpec ← (kinds.marshal .kotsApplication).wrapError "failed to marshal kots app spec"
  let backupSpec ← (kinds.marshal .backup).wrapError "failed to marshal backup spec"
  let kotsLicense ← (kinds.marshal .license).wrapError "failed to marshal license spec"
  let configSpec ← (kinds.marshal .config).wrapError "failed to marshal config spec"
  let configValues ← (kinds.marshal .configValues).wrapError "failed to marshal configvalues spec"
  return {
    versionLabel := kinds.versionLabel
    releaseNotes := kinds.releaseNotes
    updateCursor := kinds.updateCursor
    channelName := kinds.channelName
    encryptionKey := kinds.encryptionKey
    supportbundleSpec, analyzerSpec, preflightSpec, appSpec, kotsAppSpec, kotsLicense, configSpec,
    configValues, backupSpec }

/-- The title, or the name the app has so far. -/
def appName (env : VersionEnv) (db : Database) (appId : AppId) (kinds : KotsKinds) :
    Except GoError String :=
  if kinds.title = "" then do
    let a ← (App.get (env.exec .getApp) db appId).wrapError "failed to get app"
    return a.name
  else .ok kinds.title

/-- A kind that may be missing, rendered as the empty string then. -/
def renderOptional (kinds : KotsKinds) (present : Bool) (kind : Kind) (context : String) :
    Except GoError String :=
  if present then (kinds.marshal kind).wrapError context else .ok ""

/-- The status of the first version of a downstream. -/
def firstStatus (env : VersionEnv) (kinds : KotsKinds) : Except GoError String :=
  if kinds.hasConfig then do
    let configSpec ← (kinds.marshal .config).wrapError "failed to render config"
    let configValues ← renderOptional kinds kinds.configValues.isSome .configValues
      "failed to render config values"
    let license ← renderOptional kinds kinds.license.isSome .license "failed to render license"
    let needsConfig ← (env.needsConfiguration configSpec configValues license).wrapError
      "failed to check if app needs configuration"
    return if needsConfig || configValues = "" then "pending_config"
      else if kinds.hasPreflight then "pending_preflight"
      else "pending"
  else .ok (if kinds.hasPreflight then "pending_preflight" else "pending")

/-- The diff summary and the status of a later version of a downstream. -/
def laterStatus (env : VersionEnv) (kinds : KotsKinds) (columns : AppVersionColumns)
    (downstreamName : String) : Except GoError (String × String) := do
  let diffSummary ← (env.diffAppVersions downstreamName).wrapError "failed to diff"
  let needsConfig ← (env.needsConfiguration columns.configSpec columns.configValues
    columns.kotsLicense).wrapError "failed to check if version needs configuration"
  return (diffSummary,
    if needsConfig then "pending_config"
    else if kinds.hasPreflight then "pending_preflight"
    else "pending")

/-- The diff summary and the status; the first version has nothing to be compared with. -/
def downstreamStatus (env : VersionEnv) (kinds : KotsKinds) (columns : AppVersionColumns)
    (downstreamName : String) : Option Int → Except GoError (String × String)
  | none => (firstStatus env kinds).map fun status => ("", status)
  | some _ => laterStatus env kinds columns downstreamName

def gitOpsCommitURL (env : VersionEnv) (db : Database) (appId : AppId) (sequence : Int)
    (d : AppDownstreamRow) : Except GoError String := do
  let hasGitOps ← (env.hasGitOps appId d.clusterId).wrapError "failed to get downstream gitops"
  if hasGitOps then
    let a ← (App.get (env.exec (.getGitOpsApp d.clusterId)) db appId).wrapError "failed to get app"
    (env.createGitOpsCommit a sequence d.downstreamName).wrapError "failed to create gitops commit"
  else .ok ""

/-- The insert, refused when the key is taken. -/
def insertDownstreamVersion (env : VersionEnv) (tx : Database) (row : AppDownstreamVersionRow) :
    Except GoError Database :=
  Except.wrapError "failed to create downstream version" <|
    match env.exec (.insertDownstreamVersion row.clusterId),
        KotsAppStore.insertDownstreamVersion tx row with
    | .error e, _ => .error e
    | .ok _, .error cause => .error { cause }
    | .ok _, .ok tx => .ok tx

/-- One iteration over the downstreams: `db` is committed, `tx` is the transaction's. -/
def createDownstreamVersion (env : VersionEnv) (db tx : Database) (appId : AppId) (source : String)
    (currentSequence : Option Int) (sequence : Int) (kinds : KotsKinds)
    (columns : AppVersionColumns) (d : AppDownstreamRow) : Except GoError Database := do
  let (diffSummary, status) ← downstreamStatus env kinds columns d.downstreamName currentSequence
  let commitUrl ← gitOpsCommitURL env db appId sequence d
  let args : KotsAppStore.DownstreamVersionArgs :=
    { versionLabel := kinds.versionLabel, status, source, diffSummary, commitUrl,
      gitDeployable := commitUrl ≠ "" }
  -- both sequences are the new one
  insertDownstreamVersion env tx (args.row appId d.clusterId sequence sequence env.now)

def createDownstreamVersions (env : VersionEnv) (db : Database) (appId : AppId) (source : String)
    (currentSequence : Option Int) (sequence : Int) (kinds : KotsKinds)
    (columns : AppVersionColumns) : List AppDownstreamRow → Database → Except GoError Database
  | [], tx => .ok tx
  | d :: ds, tx => do
    let tx ← createDownstreamVersion env db tx appId source currentSequence sequence kinds columns d
    createDownstreamVersions env db appId source currentSequence sequence kinds columns ds tx

/-- The previous archive is needed for the diff of a later version. -/
def getPreviousArchive (env : VersionEnv) (s : Server) (appId : AppId) :
    Option Int → Except GoError Unit
  | none => .ok ()
  | some currentSequence =>
    (getAppVersionArchive (env.downloadArchive appId currentSequence) s.archives appId
      currentSequence).wrapError "failed to get previous archive"

/-- The transaction up to its commit: the new sequence and the database it would publish. -/
def createVersionTx (env : VersionEnv) (appId : AppId) (filesInDir source : String)
    (currentSequence : Option Int) (s : Server) : Except GoError (Int × Database) := do
  let kinds ← (env.loadKotsKindsFromPath filesInDir).wrapError "failed to read kots kinds"
  let columns ← marshalColumns kinds
  (env.exec .begin).wrapError "failed to begin"
  let sequence ← newSequence env s.db appId currentSequence
  (env.exec .upsertAppVersion).wrapError "failed to insert app version"
  let tx := KotsAppStore.upsertAppVersion s.db appId sequence env.now columns
  let name ← appName env s.db appId kinds
  (env.exec .updateApp).wrapError "failed to update app"
  let tx := KotsAppStore.updateAppVersion tx appId sequence name kinds.icon
  getPreviousArchive env s appId currentSequence
  let downstreams ← (listDownstreamsForApp (env.exec .listDownstreams) s.db appId).wrapError
    "failed to list downstreams"
  let tx ← createDownstreamVersions env s.db appId source currentSequence sequence kinds columns
    downstreams tx
  (env.exec .commit).wrapError "failed to commit"
  return (sequence, tx)

/-- Every error rolls the transaction back. -/
def createVersion (env : VersionEnv) (appId : AppId) (filesInDir source : String)
    (currentSequence : Option Int) : Call Int := fun s =>
  match createVersionTx env appId filesInDir source currentSequence s with
  | .error e => (.error e, s)
  | .ok (sequence, tx) => (.ok sequence, { s with db := tx })

def createFirstVersion (env : VersionEnv) (appId : AppId) (filesInDir source : String) : Call Int :=
  createVersion env appId filesInDir source none

/-! ## What a created version changes -/

/-- The committed database, seen from the one before: the version and the app row point to
`sequence`, and new downstream rows carry it twice. -/
structure Created (appId : AppId) (sequence : Int) (db tx : Database) : Prop where
  app : ∃ name icon, tx.app = (KotsAppStore.updateAppVersion db appId sequence name icon).app
  appVersion : ∃ now columns,
    tx.appVersion = (KotsAppStore.upsertAppVersion db appId sequence now columns).appVersion
  appDownstream : tx.appDownstream = db.appDownstream
  apiTaskStatus : tx.apiTaskStatus = db.apiTaskStatus
  rows : ∀ r ∈ tx.appDownstreamVersion.rows, r ∈ db.appDownstreamVersion.rows ∨
    r.appId = appId ∧ r.sequence = sequence ∧ r.parentSequence = sequence

theorem id_of_get {outcome : Except GoError Unit} {db : Database} {id : AppId} {a : App}
    (h : App.get outcome db id = .ok a) : a.id = id := by
  have h' := Except.wrapError_eq_ok.mp h
  split at h'
  next => cases h'
  next => cases h'
  next row hrow =>
    cases h'
    exact (Keyed.find?_eq_some.mp hrow).2

theorem insertDownstreamVersion_eq_ok {env : VersionEnv} {tx tx' : Database}
    {row : AppDownstreamVersionRow} (h : insertDownstreamVersion env tx row = .ok tx') :
    KotsAppStore.insertDownstreamVersion tx row = .ok tx' := by
  have h' := Except.wrapError_eq_ok.mp h
  split at h'
  next => cases h'
  next => cases h'
  next hinsert =>
    cases h'
    exact hinsert

theorem storeInsert_rows {db db' : Database} {row : AppDownstreamVersionRow}
    (h : KotsAppStore.insertDownstreamVersion db row = .ok db') :
    db'.appDownstreamVersion.rows = db.appDownstreamVersion.rows ++ [row] ∧
      db' = { db with appDownstreamVersion := db'.appDownstreamVersion } := by
  unfold KotsAppStore.insertDownstreamVersion at h
  split at h
  next => cases h
  next table htable =>
    cases h
    exact ⟨(Keyed.insert?_eq_some htable).1, rfl⟩

theorem created_createDownstreamVersion {env : VersionEnv} {db db₀ tx tx' : Database}
    {appId : AppId} {source : String} {currentSequence : Option Int} {sequence : Int}
    {kinds : KotsKinds} {columns : AppVersionColumns} {d : AppDownstreamRow}
    (htx : Created appId sequence db₀ tx)
    (h : createDownstreamVersion env db tx appId source currentSequence sequence kinds columns d =
      .ok tx') : Created appId sequence db₀ tx' := by
  obtain ⟨⟨diffSummary, status⟩, -, h⟩ := Except.bind_eq_ok.mp h
  obtain ⟨commitUrl, -, h⟩ := Except.bind_eq_ok.mp h
  obtain ⟨hrows, hrest⟩ := storeInsert_rows (insertDownstreamVersion_eq_ok h)
  rw [hrest]
  refine ⟨htx.app, htx.appVersion, htx.appDownstream, htx.apiTaskStatus, ?_⟩
  intro r hr
  dsimp only at hr
  rw [hrows, List.mem_append, List.mem_singleton] at hr
  rcases hr with hold | rfl
  · exact htx.rows r hold
  · exact .inr ⟨rfl, rfl, rfl⟩

theorem created_createDownstreamVersions {env : VersionEnv} {db db₀ tx tx' : Database}
    {appId : AppId} {source : String} {currentSequence : Option Int} {sequence : Int}
    {kinds : KotsKinds} {columns : AppVersionColumns} {ds : List AppDownstreamRow}
    (htx : Created appId sequence db₀ tx)
    (h : createDownstreamVersions env db appId source currentSequence sequence kinds columns ds
      tx = .ok tx') : Created appId sequence db₀ tx' := by
  induction ds generalizing tx with
  | nil =>
    cases h
    exact htx
  | cons d ds ih =>
    obtain ⟨tx₁, hfirst, hrest⟩ := Except.bind_eq_ok.mp h
    exact ih (created_createDownstreamVersion htx hfirst) hrest

theorem newSequence_eq_ok {env : VersionEnv} {db : Database} {appId : AppId}
    {currentSequence : Option Int} {sequence : Int}
    (h : newSequence env db appId currentSequence = .ok sequence) :
    nextSequence db appId currentSequence = some sequence := by
  cases currentSequence with
  | none =>
    cases h
    rfl
  | some _ =>
    have h' := Except.wrapError_eq_ok.mp h
    split at h'
    next => cases h'
    next last _ hmax =>
      cases h'
      show (maxSequence db appId).map (· + 1) = some (last + 1)
      rw [hmax]
      rfl
    next => cases h'

/-- The loop over the downstreams writes one table. -/
theorem frame_createDownstreamVersions {env : VersionEnv} {db : Database} {appId : AppId}
    {source : String} {currentSequence : Option Int} {sequence : Int} {kinds : KotsKinds}
    {columns : AppVersionColumns} {ds : List AppDownstreamRow} {tx tx' : Database}
    (h : createDownstreamVersions env db appId source currentSequence sequence kinds columns ds tx =
      .ok tx') : tx' = { tx with appDownstreamVersion := tx'.appDownstreamVersion } := by
  induction ds generalizing tx with
  | nil =>
    cases h
    rfl
  | cons d ds ih =>
    obtain ⟨tx₁, hfirst, hrest⟩ := Except.bind_eq_ok.mp h
    obtain ⟨status, -, hfirst⟩ := Except.bind_eq_ok.mp hfirst
    obtain ⟨commitUrl, -, hfirst⟩ := Except.bind_eq_ok.mp hfirst
    have hone := (storeInsert_rows (insertDownstreamVersion_eq_ok hfirst)).2
    have hothers := ih hrest
    rw [hone] at hothers
    exact hothers

/-- What the statements of a committed transaction returned, and what they wrote. -/
theorem createVersionTx_spec {env : VersionEnv} {appId : AppId} {filesInDir source : String}
    {currentSequence : Option Int} {s : Server} {sequence : Int} {tx : Database}
    (h : createVersionTx env appId filesInDir source currentSequence s = .ok (sequence, tx)) :
    ∃ kinds columns name downstreams,
      env.loadKotsKindsFromPath filesInDir = .ok kinds ∧ marshalColumns kinds = .ok columns ∧
      nextSequence s.db appId currentSequence = some sequence ∧
      downstreams = s.db.appDownstream.rows.filter (fun r => r.appId = appId) ∧
      createDownstreamVersions env s.db appId source currentSequence sequence kinds columns
        downstreams
        (KotsAppStore.updateAppVersion
          (KotsAppStore.upsertAppVersion s.db appId sequence env.now columns) appId sequence name
          kinds.icon) = .ok tx := by
  obtain ⟨kinds, hkinds, h⟩ := Except.bind_eq_ok.mp h
  obtain ⟨columns, hcolumns, h⟩ := Except.bind_eq_ok.mp h
  obtain ⟨_, -, h⟩ := Except.bind_eq_ok.mp h
  obtain ⟨sequence', hsequence, h⟩ := Except.bind_eq_ok.mp h
  obtain ⟨_, -, h⟩ := Except.bind_eq_ok.mp h
  obtain ⟨name, -, h⟩ := Except.bind_eq_ok.mp h
  obtain ⟨_, -, h⟩ := Except.bind_eq_ok.mp h
  obtain ⟨_, -, h⟩ := Except.bind_eq_ok.mp h
  obtain ⟨downstreams, hlist, h⟩ := Except.bind_eq_ok.mp h
  obtain ⟨tx', hdownstreams, h⟩ := Except.bind_eq_ok.mp h
  obtain ⟨_, -, h⟩ := Except.bind_eq_ok.mp h
  cases h
  have hlist' : downstreams = s.db.appDownstream.rows.filter fun r => r.appId = appId := by
    have hok := Except.wrapError_eq_ok.mp hlist
    unfold listDownstreamsForApp at hok
    split at hok
    next => cases hok
    next =>
      cases hok
      rfl
  exact ⟨kinds, columns, name, downstreams, Except.wrapError_eq_ok.mp hkinds, hcolumns,
    newSequence_eq_ok hsequence, hlist', hdownstreams⟩

/-- A version is created under the next sequence, and only if the previous archive was there. -/
theorem created_createVersionTx {env : VersionEnv} {appId : AppId} {filesInDir source : String}
    {currentSequence : Option Int} {s : Server} {sequence : Int} {tx : Database}
    (h : createVersionTx env appId filesInDir source currentSequence s = .ok (sequence, tx)) :
    nextSequence s.db appId currentSequence = some sequence ∧ Created appId sequence s.db tx := by
  obtain ⟨kinds, columns, name, downstreams, -, -, hsequence, -, hdownstreams⟩ :=
    createVersionTx_spec h
  refine ⟨hsequence, created_createDownstreamVersions ?_ hdownstreams⟩
  exact ⟨⟨name, kinds.icon, rfl⟩, ⟨env.now, columns, rfl⟩, rfl, rfl, fun r hr => .inl hr⟩

/-- `createVersion` either changes nothing or creates a version. -/
theorem createVersion_cases (env : VersionEnv) (appId : AppId) (filesInDir source : String)
    (currentSequence : Option Int) (s : Server) :
    (∃ e, createVersion env appId filesInDir source currentSequence s = (.error e, s)) ∨
    ∃ sequence tx, createVersion env appId filesInDir source currentSequence s =
        (.ok sequence, { s with db := tx }) ∧
      nextSequence s.db appId currentSequence = some sequence ∧
      Created appId sequence s.db tx := by
  unfold createVersion
  split
  next e _ => exact .inl ⟨e, rfl⟩
  next sequence tx htx =>
    obtain ⟨hsequence, hcreated⟩ := created_createVersionTx htx
    exact .inr ⟨sequence, tx, rfl, hsequence, hcreated⟩

/-! ## uploadUpdate -/

/-- What the TypeScript `uploadUpdate` gets from outside. -/
structure UploadEnv where
  putObject : Except String Unit := .ok ()
  /-- The specs extracted from the uploaded archive. -/
  extract : Except String AppVersionColumns := .ok {}
  appTitle : String := ""
  appIcon : String := ""
  /-- The URL of the commit for a cluster with gitops; no cluster without gitops has one. -/
  commitUrl : ClusterId → Except String String := fun _ => .ok ""
  diffSummary : ClusterId → Except String String := fun _ => .ok ""
  now : Timestamp := 0

def getIdFromSlug (db : Database) (slug : String) : Except String AppId :=
  match db.app.rows.find? fun r => r.slug = slug with
  | none => .error s!"Unable to find appId for slug {slug}"
  | some row => .ok row.id

/-- The version of one cluster, numbered by `createDownstreamVersion` of the store. -/
def uploadDownstreamVersion (env : UploadEnv) (db : Database) (appId : AppId) (newSequence : Int)
    (source : String) (columns : AppVersionColumns) (clusterId : ClusterId) :
    Except String Database := do
  let commitUrl ← env.commitUrl clusterId
  let diffSummary ← env.diffSummary clusterId
  let args : KotsAppStore.DownstreamVersionArgs :=
    { versionLabel := columns.versionLabel, source, diffSummary, commitUrl,
      status := if columns.preflightSpec ≠ "" then "pending_preflight" else "pending",
      gitDeployable := commitUrl ≠ "" }
  KotsAppStore.createDownstreamVersion db appId newSequence clusterId env.now args

def uploadDownstreamVersions (env : UploadEnv) (appId : AppId) (newSequence : Int)
    (source : String) (columns : AppVersionColumns) (clusterIds : List ClusterId) (s : Server) :
    Server × Option String :=
  forEach (fun clusterId s =>
    match uploadDownstreamVersion env s.db appId newSequence source columns clusterId with
    | .error e => (s, some e)
    | .ok db => ({ s with db := db }, none)) clusterIds s

/-- `currentSequence + 1`; in JavaScript `null + 1` is 1.  The archive is stored before the rows. -/
def uploadUpdate (env : UploadEnv) (slug buffer source : String) (s : Server) :
    Server × Option String :=
  match getIdFromSlug s.db slug >>= KotsAppStore.getApp s.db with
  | .error e => (s, some e)
  | .ok kotsApp =>
    let newSequence := kotsApp.currentSequence.getD 0 + 1
    match env.putObject with
    | .error e => (s, some e)
    | .ok _ =>
      let s := { s with
        archives := Function.update s.archives kotsApp.id
          (Function.update (s.archives kotsApp.id) newSequence (some buffer)) }
      match env.extract with
      | .error e => (s, some e)
      | .ok columns =>
        match KotsAppStore.createMidstreamVersion s.db kotsApp.id newSequence env.now columns
            env.appTitle env.appIcon with
        | (db, .error e) => ({ s with db := db }, some e)
        | (db, .ok _) =>
          uploadDownstreamVersions env kotsApp.id newSequence source columns
            (KotsAppStore.listClusterIDsForApp db kotsApp.id) { s with db := db }

end Kotsadm.Version
