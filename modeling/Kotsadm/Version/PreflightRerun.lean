import Kotsadm.Version.Preflight

/-!
# PreflightRerun — the preflight checks of a version that has been deployed

The result of the checks leaves a version `deployed`; the statements on the way to it do not look at
the status they overwrite.  A run is followed to its end here, with its goroutines.
-/

namespace Kotsadm.Version

open KotsAppStore

/-! ## execute -/

structure ExecuteEnv where
  /-- The JSON of what the collectors and the analyzers found. -/
  results : Except GoError String := .ok ""
  update : Except GoError Unit := .ok ()
  now : Timestamp := 0

/-- The versions are those with the parent sequence. -/
def writePreflightResult (db : Database) (appId : AppId) (sequence : Int) (result : String)
    (now : Timestamp) : Database :=
  { db with
    appDownstreamVersion := db.appDownstreamVersion.updateWhere
      (fun r => r.appId = appId && r.parentSequence = sequence)
      (fun r => { r with
        preflightResult := some result
        preflightResultCreatedAt := some now
        status := statusAfterResult r.status }) fun _ => rfl }

def execute (env : ExecuteEnv) (appId : AppId) (sequence : Int) : Call Unit := fun s =>
  match env.results, env.update with
  | .error e, _ => (.error e, s)
  | .ok _, .error e => (.error (e.wrap "failed to write preflight results"), s)
  | .ok result, .ok _ =>
    (.ok (), { s with db := writePreflightResult s.db appId sequence result env.now })

/-- `preflight.Run`, and `execute` in the goroutine that it starts for a version with a preflight
spec. -/
def runToEnd (env : PreflightEnv) (exec : ExecuteEnv) (appId : AppId) (sequence : Int)
    (s : Server) : Server :=
  match runPreflight env appId sequence s, env.loadKotsKinds,
      getDownstreamVersionStatus env.getStatus s.db appId sequence with
  | (.ok _, s'), .ok kinds, .ok status =>
    if status ≠ "pending_config" ∧ kinds.hasPreflight then (execute exec appId sequence s').2 else s'
  | (_, s'), _, _ => s'

/-! ## The requests -/

structure RerunEnv where
  session : Except GoError Unit := .ok ()
  getIdFromSlug : Except GoError Unit := .ok ()
  getApp : Except GoError Unit := .ok ()
  setIgnore : Except GoError Unit := .ok ()
  archive : Except GoError Unit := .ok ()
  preflight : PreflightEnv
  execute : ExecuteEnv := {}

/-- The app of the slug, for a request with a session. -/
def RerunEnv.foundApp (env : RerunEnv) (db : Database) (slug : String) : Except GoError App := do
  env.session
  App.getFromSlug env.getIdFromSlug env.getApp db slug

/-- The handler from the archive on. -/
def RerunEnv.run (env : RerunEnv) (appId : AppId) (sequence : Int) (s : Server) : Server :=
  match getAppVersionArchive env.archive s.archives appId sequence with
  | .error _ => s
  | .ok _ => runToEnd env.preflight env.execute appId sequence s

/-- `StartPreflightChecks` -/
def startPreflightChecks (env : RerunEnv) (appSlug : String) (s : Server) : Server :=
  match env.foundApp s.db appSlug with
  | .error _ => s
  | .ok foundApp => env.run foundApp.id foundApp.currentSequence s

theorem key_ignorePreflightPermissionErrors (r : AppDownstreamVersionRow) :
    AppDownstreamVersionRow.key { r with
      status := "pending_preflight"
      preflightIgnorePermissions := some true
      preflightResult := none } = r.key := rfl

def setIgnorePreflightPermissionErrors (db : Database) (appId : AppId) (sequence : Int) : Database :=
  updateVersions db appId sequence (fun r => { r with
    status := "pending_preflight"
    preflightIgnorePermissions := some true
    preflightResult := none }) key_ignorePreflightPermissionErrors

/-- `IgnorePreflightRBACErrors`, with the sequence of its path. -/
def ignorePreflightRBACErrors (env : RerunEnv) (appSlug : String) (sequence : Int) (s : Server) :
    Server :=
  match env.foundApp s.db appSlug, env.setIgnore with
  | .error _, _ => s
  | .ok _, .error _ => s
  | .ok foundApp, .ok _ =>
    env.run foundApp.id sequence
      { s with db := setIgnorePreflightPermissionErrors s.db foundApp.id sequence }

/-- A result that is posted for a version. -/
structure Posted where
  preflightResult : PreflightResult
  now : Timestamp := 0
  deriving DecidableEq, Repr

/-- What runs the checks of a version again.  The runs of the TypeScript API end with the result
that is posted, if one is. -/
inductive Rerun where
  | startPreflightChecks (env : RerunEnv) (appSlug : String)
  | ignorePreflightRBACErrors (env : RerunEnv) (appSlug : String) (sequence : Int)
  | retryPreflights (appId : AppId) (clusterId : ClusterId) (sequence : Int) (posted : Option Posted)
  | ignorePreflightPermissionErrors (appId : AppId) (clusterId : ClusterId) (sequence : Int)
      (posted : Option Posted)
  | addKotsPreflight (appId : AppId) (clusterId : ClusterId) (sequence : Int) (posted : Posted)

def addPosted (db : Database) (appId : AppId) (clusterId : ClusterId) (sequence : Int) :
    Option Posted → Database
  | none => db
  | some posted =>
    KotsAppStore.addKotsPreflight db appId clusterId sequence posted.preflightResult posted.now

def Rerun.run (s : Server) : Rerun → Server
  | .startPreflightChecks env appSlug => Version.startPreflightChecks env appSlug s
  | .ignorePreflightRBACErrors env appSlug sequence =>
    Version.ignorePreflightRBACErrors env appSlug sequence s
  | .retryPreflights appId clusterId sequence posted =>
    { s with
      db := addPosted (KotsAppStore.retryPreflights s.db appId clusterId sequence) appId clusterId
        sequence posted }
  | .ignorePreflightPermissionErrors appId clusterId sequence posted =>
    { s with
      db := addPosted (KotsAppStore.ignorePreflightPermissionErrors s.db appId clusterId sequence)
        appId clusterId sequence posted }
  | .addKotsPreflight appId clusterId sequence posted =>
    { s with db := addPosted s.db appId clusterId sequence (some posted) }

/-! ## The property and the condition -/

/-- The version of the cluster is marked `deployed`. -/
def Deployed (db : Database) (key : AppId × ClusterId × Int) : Prop :=
  ∃ row, db.appDownstreamVersion.find? key = some row ∧ row.status = "deployed"

/-- A version that was `deployed` is, and `CreateRestore` accepts it if it did. -/
structure KeepsDeployed (db db' : Database) : Prop where
  rows : ∀ key, Deployed db key → Deployed db' key
  restorable : ∀ appId sequence,
    getDownstreamVersionStatus (.ok ()) db appId sequence = .ok "deployed" →
      getDownstreamVersionStatus (.ok ()) db' appId sequence = .ok "deployed"

def AnyDeployed (db : Database) (appId : AppId) (sequence : Int) : Prop :=
  ∃ clusterId, Deployed db (appId, clusterId, sequence)

/-- `preflight.Run` gets to the write of a status. -/
def PreflightEnv.Writes (env : PreflightEnv) (db : Database) (appId : AppId) (sequence : Int) :
    Prop :=
  env.loadKotsKinds.isOk ∧ env.setStatus = .ok () ∧
    ∃ status, getDownstreamVersionStatus env.getStatus db appId sequence = .ok status ∧
      status ≠ "pending_config"

/-- The handler gets to `preflight.Run`, which gets to the write of a status. -/
def RerunEnv.Writes (env : RerunEnv) (s : Server) (appId : AppId) (sequence : Int) : Prop :=
  getAppVersionArchive env.archive s.archives appId sequence = .ok () ∧
    env.preflight.Writes s.db appId sequence

/-- The result deploys the first version. -/
def Redeploys (sequence : Int) (posted : Option Posted) : Prop :=
  sequence = 0 ∧ ∃ p, posted = some p ∧ getPreflightResultState p.preflightResult = "pass"

/-- The run overwrites no `deployed` status, or deploys the version in its end. -/
def Rerun.Spares (s : Server) : Rerun → Prop
  | .startPreflightChecks env appSlug => ∀ foundApp, env.foundApp s.db appSlug = .ok foundApp →
      env.Writes s foundApp.id foundApp.currentSequence →
        ¬ AnyDeployed s.db foundApp.id foundApp.currentSequence
  | .ignorePreflightRBACErrors env appSlug sequence =>
    ∀ foundApp, env.foundApp s.db appSlug = .ok foundApp → env.setIgnore = .ok () →
      ¬ AnyDeployed s.db foundApp.id sequence
  | .retryPreflights appId clusterId sequence posted
  | .ignorePreflightPermissionErrors appId clusterId sequence posted =>
    Deployed s.db (appId, clusterId, sequence) → Redeploys sequence posted
  | .addKotsPreflight _ _ _ _ => True

/-! ## Updates of the versions -/

section Update

variable {db : Database} {key : AppId × ClusterId × Int}

def NotDeployed (db : Database) (key : AppId × ClusterId × Int) : Prop :=
  ∃ row, db.appDownstreamVersion.find? key = some row ∧ row.status ≠ "deployed"

theorem keepsDeployed_refl (db : Database) : KeepsDeployed db db := ⟨fun _ h => h, fun _ _ h => h⟩

theorem KeepsDeployed.trans {db₁ db₂ db₃ : Database} (h : KeepsDeployed db₁ db₂)
    (h' : KeepsDeployed db₂ db₃) : KeepsDeployed db₁ db₃ where
  rows := fun key hkey => h'.rows key (h.rows key hkey)
  restorable := fun appId sequence hstatus =>
    h'.restorable appId sequence (h.restorable appId sequence hstatus)

theorem not_keepsDeployed {db' : Database} (h : Deployed db key) (h' : NotDeployed db' key) :
    ¬ KeepsDeployed db db' := by
  intro hkeeps
  obtain ⟨row, hrow, hstatus⟩ := hkeeps.rows key h
  obtain ⟨row', hrow', hstatus'⟩ := h'
  rw [hrow] at hrow'
  cases hrow'
  exact hstatus' hstatus

theorem getDownstreamVersionStatus_eq_ok {appId : AppId} {sequence : Int} {status : String} :
    getDownstreamVersionStatus (.ok ()) db appId sequence = .ok status ↔
      ∃ row, db.appDownstreamVersion.rows.find?
        (fun r => r.appId = appId && r.sequence = sequence) = some row ∧ row.status = status := by
  unfold getDownstreamVersionStatus
  cases db.appDownstreamVersion.rows.find? fun r => r.appId = appId && r.sequence = sequence with
  | none => simp [Except.wrapError]
  | some row => simp [Except.wrapError]

/-- An update of some versions, seen at one key. -/
theorem find?_update (p : AppDownstreamVersionRow → Bool)
    (f : AppDownstreamVersionRow → AppDownstreamVersionRow) (hf : ∀ r, (f r).key = r.key)
    {row : AppDownstreamVersionRow} (hrow : db.appDownstreamVersion.find? key = some row) :
    (db.appDownstreamVersion.updateWhere p f hf).find? key =
      some (if p row then f row else row) := by
  rw [Keyed.find?_updateWhere, hrow]
  rfl

/-- The keys of the versions, in the order of the table. -/
def versionKeys (db : Database) : List (AppId × ClusterId × Int) :=
  db.appDownstreamVersion.rows.map (·.key)

theorem versionKeys_update (p : AppDownstreamVersionRow → Bool)
    (f : AppDownstreamVersionRow → AppDownstreamVersionRow) (hf : ∀ r, (f r).key = r.key) :
    versionKeys { db with appDownstreamVersion := db.appDownstreamVersion.updateWhere p f hf } =
      versionKeys db := by
  show (db.appDownstreamVersion.rows.map fun r => if p r then f r else r).map (·.key) = _
  rw [List.map_map]
  apply List.map_congr_left
  intro r _
  show (if p r then f r else r).key = r.key
  split
  next => exact hf r
  next => rfl

/-- With the keys in the same order, the version that `CreateRestore` looks at is the same. -/
theorem keepsDeployed_of_rows {db' : Database} (hkeys : versionKeys db' = versionKeys db)
    (hrows : ∀ key, Deployed db key → Deployed db' key) : KeepsDeployed db db' := by
  refine ⟨hrows, fun appId sequence hdeployed => ?_⟩
  have hfind : ∀ d : Database,
      (versionKeys d).find? (fun key => key.1 = appId && key.2.2 = sequence) =
      (d.appDownstreamVersion.rows.find? fun r => r.appId = appId && r.sequence = sequence).map
        (·.key) := fun d => List.find?_map ..
  obtain ⟨row, hrow, hstatus⟩ := getDownstreamVersionStatus_eq_ok.mp hdeployed
  have hsame := hfind db'
  rw [hkeys, hfind db, hrow] at hsame
  obtain ⟨row', hrow', hkey⟩ := Option.map_eq_some_iff.mp hsame.symm
  dsimp only at hkey
  have hmem' := List.mem_of_find?_eq_some hrow'
  obtain ⟨found, hfound, hfoundStatus⟩ :=
    hrows row.key ⟨row, Keyed.find?_isSome_of_mem (List.mem_of_find?_eq_some hrow), hstatus⟩
  rw [← hkey, Keyed.find?_isSome_of_mem hmem'] at hfound
  cases hfound
  exact getDownstreamVersionStatus_eq_ok.mpr ⟨row', hrow', hfoundStatus⟩

theorem keepsDeployed_update {p : AppDownstreamVersionRow → Bool}
    {f : AppDownstreamVersionRow → AppDownstreamVersionRow} {hf : ∀ r, (f r).key = r.key}
    (h : ∀ r ∈ db.appDownstreamVersion.rows, p r → r.status = "deployed" →
      (f r).status = "deployed") :
    KeepsDeployed db
      { db with appDownstreamVersion := db.appDownstreamVersion.updateWhere p f hf } := by
  apply keepsDeployed_of_rows (versionKeys_update p f hf)
  rintro key ⟨row, hrow, hdeployed⟩
  refine ⟨_, find?_update p f hf hrow, ?_⟩
  split
  next hp => exact h row (Keyed.find?_eq_some.mp hrow).1 hp hdeployed
  next => exact hdeployed

theorem notDeployed_update {p : AppDownstreamVersionRow → Bool}
    {f : AppDownstreamVersionRow → AppDownstreamVersionRow} {hf : ∀ r, (f r).key = r.key}
    (h : NotDeployed db key)
    (hp : ∀ r, p r → r.status ≠ "deployed" → (f r).status ≠ "deployed") :
    NotDeployed { db with appDownstreamVersion := db.appDownstreamVersion.updateWhere p f hf }
      key := by
  obtain ⟨row, hrow, hstatus⟩ := h
  refine ⟨_, find?_update p f hf hrow, ?_⟩
  split
  next hrowp => exact hp row hrowp hstatus
  next => exact hstatus

/-- A status that overwrites `deployed`. -/
theorem notDeployed_overwritten {p : AppDownstreamVersionRow → Bool}
    {f : AppDownstreamVersionRow → AppDownstreamVersionRow} {hf : ∀ r, (f r).key = r.key}
    (h : Deployed db key) (hkey : ∀ r, r.key = key → p r)
    (hstatus : ∀ r, (f r).status ≠ "deployed") :
    NotDeployed { db with appDownstreamVersion := db.appDownstreamVersion.updateWhere p f hf }
      key := by
  obtain ⟨row, hrow, -⟩ := h
  refine ⟨_, find?_update p f hf hrow, ?_⟩
  rw [if_pos (hkey row (Keyed.find?_eq_some.mp hrow).2)]
  exact hstatus row

theorem deployed_of_mem {r : AppDownstreamVersionRow} (hr : r ∈ db.appDownstreamVersion.rows)
    (hstatus : r.status = "deployed") : Deployed db (r.appId, r.clusterId, r.sequence) :=
  ⟨r, Keyed.find?_isSome_of_mem hr, hstatus⟩

theorem statusAfterResult_deployed {status : String} :
    statusAfterResult status = "deployed" ↔ status = "deployed" := by
  unfold statusAfterResult
  split
  next h => simp [h]
  next h => simp [h]

end Update

/-! ## Run -/

section Run

variable {env : PreflightEnv} {exec : ExecuteEnv} {appId : AppId} {sequence : Int} {s : Server}
  {key : AppId × ClusterId × Int}

/-- Nothing, a status, or a status and a result. -/
theorem runToEnd_cases (env : PreflightEnv) (exec : ExecuteEnv) (appId : AppId) (sequence : Int)
    (s : Server) :
    (¬ env.Writes s.db appId sequence ∧ runToEnd env exec appId sequence s = s) ∨
    env.Writes s.db appId sequence ∧ ∃ status, status ≠ "deployed" ∧
      ((runToEnd env exec appId sequence s).db =
          setDownstreamVersionStatus s.db appId sequence status ∨
        ∃ result now, (runToEnd env exec appId sequence s).db = writePreflightResult
          (setDownstreamVersionStatus s.db appId sequence status) appId sequence result now) := by
  unfold runToEnd runPreflight PreflightEnv.Writes
  cases hkinds : env.loadKotsKinds with
  | error e => exact .inl ⟨fun h => (by cases h.1), rfl⟩
  | ok kinds =>
    cases hstatus : getDownstreamVersionStatus env.getStatus s.db appId sequence with
    | error e => exact .inl ⟨fun h => (by obtain ⟨status, h, -⟩ := h.2.2; cases h), rfl⟩
    | ok status =>
      dsimp only
      by_cases hpending : status = "pending_config"
      · rw [if_pos hpending]
        dsimp only
        rw [if_neg fun h => h.1 hpending]
        refine .inl ⟨?_, rfl⟩
        rintro ⟨-, -, status', hsame, hne⟩
        cases hsame
        exact hne hpending
      · rw [if_neg hpending]
        cases hset : env.setStatus with
        | error e =>
          left
          refine ⟨fun h => (by cases h.2.1), ?_⟩
          by_cases hpreflight : kinds.hasPreflight
          · rw [if_pos hpreflight]
          · rw [if_neg hpreflight]
        | ok _ =>
          right
          refine ⟨⟨rfl, rfl, status, rfl, hpending⟩, ?_⟩
          by_cases hpreflight : kinds.hasPreflight
          · refine ⟨"pending_preflight", by decide, ?_⟩
            rw [if_pos hpreflight]
            dsimp only
            cases startPreflight env s.db appId kinds with
            | error e => exact .inl rfl
            | ok _ =>
              dsimp only
              rw [if_pos ⟨hpending, hpreflight⟩]
              unfold execute
              split
              next => exact .inl rfl
              next => exact .inl rfl
              next result _ _ _ => exact .inr ⟨result, exec.now, rfl⟩
          · refine ⟨"pending", by decide, ?_⟩
            rw [if_neg hpreflight]
            dsimp only
            rw [if_neg fun h => hpreflight h.2]
            exact .inl rfl

/-- A write to the rows of a sequence that is not deployed anywhere. -/
theorem keepsDeployed_updateVersions {db : Database}
    {set : AppDownstreamVersionRow → AppDownstreamVersionRow} {hset : ∀ r, (set r).key = r.key}
    (h : ¬ AnyDeployed db appId sequence) :
    KeepsDeployed db (updateVersions db appId sequence set hset) := by
  apply keepsDeployed_update
  intro r hr hp hdeployed
  simp only [Bool.and_eq_true, decide_eq_true_eq] at hp
  have hrow := deployed_of_mem hr hdeployed
  rw [hp.1, hp.2] at hrow
  exact absurd ⟨r.clusterId, hrow⟩ h

theorem keepsDeployed_setStatus {db : Database} (status : String)
    (h : ¬ AnyDeployed db appId sequence) :
    KeepsDeployed db (setDownstreamVersionStatus db appId sequence status) :=
  keepsDeployed_updateVersions h

theorem keepsDeployed_writePreflightResult (db : Database) (appId : AppId) (sequence : Int)
    (result : String) (now : Timestamp) :
    KeepsDeployed db (writePreflightResult db appId sequence result now) :=
  keepsDeployed_update fun _ _ _ hdeployed => statusAfterResult_deployed.mpr hdeployed

theorem notDeployed_writePreflightResult {db : Database} (h : NotDeployed db key)
    (appId : AppId) (sequence : Int) (result : String) (now : Timestamp) :
    NotDeployed (writePreflightResult db appId sequence result now) key :=
  notDeployed_update h fun _ _ hne heq => hne (statusAfterResult_deployed.mp heq)

theorem keepsDeployed_runToEnd
    (h : env.Writes s.db appId sequence → ¬ AnyDeployed s.db appId sequence) :
    KeepsDeployed s.db (runToEnd env exec appId sequence s).db := by
  rcases runToEnd_cases env exec appId sequence s with
    ⟨-, hsame⟩ | ⟨hwrites, status, -, hdb | ⟨result, now, hdb⟩⟩
  · rw [hsame]
    exact keepsDeployed_refl s.db
  · rw [hdb]
    exact keepsDeployed_setStatus status (h hwrites)
  · rw [hdb]
    exact (keepsDeployed_setStatus status (h hwrites)).trans
      (keepsDeployed_writePreflightResult _ appId sequence result now)

theorem notDeployed_runToEnd (h : NotDeployed s.db key) :
    NotDeployed (runToEnd env exec appId sequence s).db key := by
  rcases runToEnd_cases env exec appId sequence s with
    ⟨-, hsame⟩ | ⟨-, status, hstatus, hdb | ⟨result, now, hdb⟩⟩
  · rw [hsame]
    exact h
  · rw [hdb]
    exact notDeployed_update h fun _ _ _ => hstatus
  · rw [hdb]
    exact notDeployed_writePreflightResult (notDeployed_update h fun _ _ _ => hstatus) _ _ _ _

/-- A run that writes a status loses the mark of every cluster. -/
theorem notDeployed_of_writes (hwrites : env.Writes s.db appId sequence) {clusterId : ClusterId}
    (h : Deployed s.db (appId, clusterId, sequence)) :
    NotDeployed (runToEnd env exec appId sequence s).db (appId, clusterId, sequence) := by
  have hset : ∀ status, status ≠ "deployed" → NotDeployed
      (setDownstreamVersionStatus s.db appId sequence status) (appId, clusterId, sequence) := by
    intro status hstatus
    refine notDeployed_overwritten h (fun r hkey => ?_) fun _ => hstatus
    cases hkey
    simp
  rcases runToEnd_cases env exec appId sequence s with
    ⟨hnot, -⟩ | ⟨-, status, hstatus, hdb | ⟨result, now, hdb⟩⟩
  · exact absurd hwrites hnot
  · rw [hdb]
    exact hset status hstatus
  · rw [hdb]
    exact notDeployed_writePreflightResult (hset status hstatus) _ _ _ _

end Run

/-! ## The TypeScript API -/

section Posted

variable {db : Database} {key : AppId × ClusterId × Int}

/-- The other tables are of no account. -/
theorem KeepsDeployed.of_versions {db' db'' : Database} (h : KeepsDeployed db db')
    (hsame : db''.appDownstreamVersion = db'.appDownstreamVersion) : KeepsDeployed db db'' := by
  obtain ⟨hrows, hrestorable⟩ := h
  constructor
  case rows =>
    intro key hkey
    obtain ⟨row, hrow, hstatus⟩ := hrows key hkey
    exact ⟨row, by rw [hsame]; exact hrow, hstatus⟩
  case restorable =>
    intro appId sequence hdeployed
    have hstatus := hrestorable appId sequence hdeployed
    rw [getDownstreamVersionStatus_eq_ok] at hstatus ⊢
    rw [hsame]
    exact hstatus

theorem keepsDeployed_deployVersion (db : Database) (appId : AppId) (sequence : Int)
    (now : Timestamp) : KeepsDeployed db (deployVersion db appId sequence now) := by
  have hversions : KeepsDeployed db { db with
      appDownstreamVersion := (deployVersion db appId sequence now).appDownstreamVersion } := by
    unfold deployVersion
    apply keepsDeployed_update
    case hf =>
      intro r
      rfl
    case h =>
      intro r _ _ _
      rfl
  exact hversions.of_versions rfl

theorem deployed_deployVersion {appId : AppId} {clusterId : ClusterId} {sequence : Int}
    {row : AppDownstreamVersionRow}
    (hrow : db.appDownstreamVersion.find? (appId, clusterId, sequence) = some row)
    (now : Timestamp) :
    Deployed (deployVersion db appId sequence now) (appId, clusterId, sequence) := by
  have hkey : row.key = (appId, clusterId, sequence) := (Keyed.find?_eq_some.mp hrow).2
  unfold Deployed deployVersion
  dsimp only
  rw [Keyed.find?_updateWhere, hrow]
  cases hkey
  refine ⟨_, rfl, ?_⟩
  dsimp only
  rw [if_pos (by simp)]

theorem keepsDeployed_addPosted (db : Database) (appId : AppId) (clusterId : ClusterId)
    (sequence : Int) (posted : Option Posted) :
    KeepsDeployed db (addPosted db appId clusterId sequence posted) := by
  cases posted with
  | none => exact keepsDeployed_refl db
  | some posted =>
    have hresult : KeepsDeployed db (updateVersions db appId sequence (fun r => { r with
        preflightResult := some posted.preflightResult.json
        preflightResultCreatedAt := some posted.now
        status := statusAfterResult r.status }) fun _ => rfl) :=
      keepsDeployed_update fun _ _ _ hdeployed => statusAfterResult_deployed.mpr hdeployed
    unfold addPosted KotsAppStore.addKotsPreflight
    dsimp only
    split
    next => exact hresult.trans (keepsDeployed_deployVersion _ appId sequence posted.now)
    next => exact hresult

/-- A result for the first version that deploys it. -/
theorem deployed_addPosted {appId : AppId} {clusterId clusterId' : ClusterId} {sequence : Int}
    {row : AppDownstreamVersionRow}
    (hrow : db.appDownstreamVersion.find? (appId, clusterId', sequence) = some row)
    {posted : Option Posted} (h : Redeploys sequence posted) :
    Deployed (addPosted db appId clusterId sequence posted) (appId, clusterId', sequence) := by
  obtain ⟨hzero, p, rfl, hpass⟩ := h
  unfold addPosted KotsAppStore.addKotsPreflight
  dsimp only
  rw [if_pos ⟨hzero, hpass⟩]
  have hresult : ∃ row', (updateVersions db appId sequence (fun r => { r with
      preflightResult := some p.preflightResult.json
      preflightResultCreatedAt := some p.now
      status := statusAfterResult r.status }) fun _ => rfl).appDownstreamVersion.find?
        (appId, clusterId', sequence) = some row' := by
    unfold updateVersions
    dsimp only
    rw [Keyed.find?_updateWhere, hrow]
    exact ⟨_, rfl⟩
  obtain ⟨row', hrow'⟩ := hresult
  exact deployed_deployVersion hrow' p.now

theorem keepsDeployed_updateVersion {appId : AppId} {clusterId : ClusterId} {sequence : Int}
    {set : AppDownstreamVersionRow → AppDownstreamVersionRow} {hset : ∀ r, (set r).key = r.key}
    (h : ¬ Deployed db (appId, clusterId, sequence)) :
    KeepsDeployed db (updateVersion db appId clusterId sequence set hset) := by
  apply keepsDeployed_update
  intro r hr hp hdeployed
  simp only [Bool.and_eq_true, decide_eq_true_eq] at hp
  have hrow := deployed_of_mem hr hdeployed
  rw [hp.1.1, hp.1.2, hp.2] at hrow
  exact absurd hrow h

/-- A result other than one that deploys leaves a version that is not deployed so. -/
theorem notDeployed_addPosted {appId : AppId} {clusterId : ClusterId} {sequence : Int}
    {posted : Option Posted} (h : NotDeployed db key) (hposted : ¬ Redeploys sequence posted) :
    NotDeployed (addPosted db appId clusterId sequence posted) key := by
  cases posted with
  | none => exact h
  | some posted =>
    unfold addPosted KotsAppStore.addKotsPreflight
    dsimp only
    rw [if_neg fun hpass => hposted ⟨hpass.1, posted, rfl, hpass.2⟩]
    exact notDeployed_update h fun _ _ hne heq => hne (statusAfterResult_deployed.mp heq)

theorem versionKeys_addPosted (appId : AppId) (clusterId : ClusterId) (sequence : Int)
    (posted : Option Posted) :
    versionKeys (addPosted db appId clusterId sequence posted) = versionKeys db := by
  cases posted with
  | none => rfl
  | some posted =>
    unfold addPosted KotsAppStore.addKotsPreflight
    dsimp only
    split
    next => exact (versionKeys_update _ _ _).trans (versionKeys_update _ _ _)
    next => exact versionKeys_update _ _ _

/-- A reset of one version, and the result for it. -/
theorem keepsDeployed_reset_iff {appId : AppId} {clusterId : ClusterId} {sequence : Int}
    {set : AppDownstreamVersionRow → AppDownstreamVersionRow} {hset : ∀ r, (set r).key = r.key}
    (hstatus : ∀ r, (set r).status ≠ "deployed") (posted : Option Posted) :
    KeepsDeployed db (addPosted (updateVersion db appId clusterId sequence set hset) appId clusterId
        sequence posted) ↔
      (Deployed db (appId, clusterId, sequence) → Redeploys sequence posted) := by
  by_cases hdeployed : Deployed db (appId, clusterId, sequence)
  · rw [forall_prop_of_true hdeployed]
    constructor
    · intro hkeeps
      by_contra hposted
      refine not_keepsDeployed hdeployed (notDeployed_addPosted ?_ hposted) hkeeps
      refine notDeployed_overwritten hdeployed (fun r hkey => ?_) hstatus
      cases hkey
      simp
    · intro hposted
      apply keepsDeployed_of_rows
      · rw [versionKeys_addPosted]
        exact versionKeys_update _ _ _
      · rintro ⟨appId', clusterId', sequence'⟩ hbefore
        by_cases hkey : appId' = appId ∧ sequence' = sequence
        · obtain ⟨rfl, rfl⟩ := hkey
          obtain ⟨row, hrow, -⟩ := hbefore
          have hrow' := find?_update (fun r => r.appId = appId' && r.clusterId = clusterId &&
            r.sequence = sequence') set hset hrow
          exact deployed_addPosted hrow' hposted
        · apply (keepsDeployed_addPosted _ _ _ _ _).rows
          obtain ⟨row, hrow, hrowStatus⟩ := hbefore
          refine ⟨_, find?_update _ set hset hrow, ?_⟩
          have hrowKey : row.key = (appId', clusterId', sequence') := (Keyed.find?_eq_some.mp hrow).2
          cases hrowKey
          rw [if_neg]
          · exact hrowStatus
          · simp only [Bool.and_eq_true, decide_eq_true_eq]
            exact fun hp => hkey ⟨hp.1.1, hp.2⟩
  · rw [forall_prop_of_false hdeployed]
    exact iff_of_true ((keepsDeployed_updateVersion hdeployed).trans
      (keepsDeployed_addPosted _ _ _ _ _)) trivial

end Posted

/-! ## Every run -/

/-- What the handler does from the archive on never marks a version. -/
theorem notDeployed_handlerRun {env : RerunEnv} {appId : AppId} {sequence : Int} {s : Server}
    {key : AppId × ClusterId × Int} (h : NotDeployed s.db key) :
    NotDeployed (env.run appId sequence s).db key := by
  unfold RerunEnv.run
  split
  next => exact h
  next => exact notDeployed_runToEnd h

theorem keepsDeployed_handlerRun_iff (env : RerunEnv) (appId : AppId) (sequence : Int) (s : Server) :
    KeepsDeployed s.db (env.run appId sequence s).db ↔
      (env.Writes s appId sequence → ¬ AnyDeployed s.db appId sequence) := by
  unfold RerunEnv.run RerunEnv.Writes
  cases harchive : getAppVersionArchive env.archive s.archives appId sequence with
  | error e => exact iff_of_true (keepsDeployed_refl s.db) fun h => by cases h.1
  | ok _ =>
    dsimp only
    constructor
    · rintro hkeeps ⟨-, hwrites⟩ ⟨clusterId, hdeployed⟩
      exact not_keepsDeployed hdeployed (notDeployed_of_writes hwrites hdeployed) hkeeps
    · exact fun h => keepsDeployed_runToEnd fun hwrites => h ⟨rfl, hwrites⟩

theorem keepsDeployed_start_iff (env : RerunEnv) (appSlug : String) (s : Server) :
    KeepsDeployed s.db (startPreflightChecks env appSlug s).db ↔
      ∀ foundApp, env.foundApp s.db appSlug = .ok foundApp →
        env.Writes s foundApp.id foundApp.currentSequence →
          ¬ AnyDeployed s.db foundApp.id foundApp.currentSequence := by
  unfold startPreflightChecks
  generalize env.foundApp s.db appSlug = found
  cases found with
  | error e => exact iff_of_true (keepsDeployed_refl s.db) fun _ h => by cases h
  | ok foundApp =>
    dsimp only
    rw [keepsDeployed_handlerRun_iff]
    constructor
    · intro h a ha
      cases ha
      exact h
    · exact fun h => h foundApp rfl

/-- The reset leaves no version of the sequence `deployed`. -/
theorem not_anyDeployed_setIgnore (db : Database) (appId : AppId) (sequence : Int) :
    ¬ AnyDeployed (setIgnorePreflightPermissionErrors db appId sequence) appId sequence := by
  rintro ⟨clusterId, row, hrow, hstatus⟩
  unfold setIgnorePreflightPermissionErrors updateVersions at hrow
  dsimp only at hrow
  rw [Keyed.find?_updateWhere] at hrow
  obtain ⟨row', hrow', heq⟩ := Option.map_eq_some_iff.mp hrow
  have hkey : row'.key = (appId, clusterId, sequence) := (Keyed.find?_eq_some.mp hrow').2
  cases hkey
  rw [if_pos (by simp)] at heq
  rw [← heq] at hstatus
  have hpending : "pending_preflight" = "deployed" := hstatus
  exact absurd hpending (by decide)

theorem keepsDeployed_setIgnore_iff (db : Database) (appId : AppId) (sequence : Int) :
    KeepsDeployed db (setIgnorePreflightPermissionErrors db appId sequence) ↔
      ¬ AnyDeployed db appId sequence := by
  constructor
  · intro hkeeps ⟨clusterId, hdeployed⟩
    exact not_anyDeployed_setIgnore db appId sequence ⟨clusterId, hkeeps.rows _ hdeployed⟩
  · intro hnone
    exact keepsDeployed_updateVersions hnone

/-- The reset decides: what comes after it finds nothing to overwrite. -/
theorem keepsDeployed_ignore_iff (env : RerunEnv) (appSlug : String) (sequence : Int) (s : Server) :
    KeepsDeployed s.db (ignorePreflightRBACErrors env appSlug sequence s).db ↔
      ∀ foundApp, env.foundApp s.db appSlug = .ok foundApp → env.setIgnore = .ok () →
        ¬ AnyDeployed s.db foundApp.id sequence := by
  unfold ignorePreflightRBACErrors
  generalize env.foundApp s.db appSlug = found
  cases found with
  | error e => exact iff_of_true (keepsDeployed_refl s.db) fun _ h => by cases h
  | ok foundApp =>
    cases hset : env.setIgnore with
    | error e => exact iff_of_true (keepsDeployed_refl s.db) fun _ _ h => by cases h
    | ok _ =>
      dsimp only
      constructor
      · rintro hkeeps a ha - ⟨clusterId, hdeployed⟩
        cases ha
        refine not_keepsDeployed hdeployed (notDeployed_handlerRun ?_) hkeeps
        exact notDeployed_overwritten hdeployed
          (fun r hkey => by simp only [Prod.mk.injEq] at hkey; simp [hkey]) fun r => by simp
      · intro h
        have hreset := (keepsDeployed_setIgnore_iff s.db foundApp.id sequence).mpr
          (h foundApp rfl rfl)
        have hrun := (keepsDeployed_handlerRun_iff env foundApp.id sequence
          { s with db := setIgnorePreflightPermissionErrors s.db foundApp.id sequence }).mpr fun _ =>
          not_anyDeployed_setIgnore s.db foundApp.id sequence
        exact hreset.trans hrun

theorem keepsDeployed_run_iff (s : Server) (rerun : Rerun) :
    KeepsDeployed s.db (rerun.run s).db ↔ rerun.Spares s := by
  cases rerun with
  | startPreflightChecks env appSlug => exact keepsDeployed_start_iff env appSlug s
  | ignorePreflightRBACErrors env appSlug sequence =>
    exact keepsDeployed_ignore_iff env appSlug sequence s
  | retryPreflights appId clusterId sequence posted =>
    exact keepsDeployed_reset_iff (fun r => by simp) posted
  | ignorePreflightPermissionErrors appId clusterId sequence posted =>
    exact keepsDeployed_reset_iff (fun r => by simp) posted
  | addKotsPreflight appId clusterId sequence posted =>
    exact iff_of_true (keepsDeployed_addPosted s.db appId clusterId sequence (some posted)) trivial

/-- Every run of the sequence spares the mark in the state that it starts from. -/
def AllSpare : Server → List Rerun → Prop
  | _, [] => True
  | s, rerun :: reruns => rerun.Spares s ∧ AllSpare (rerun.run s) reruns

theorem keepsDeployed_foldl (s : Server) (reruns : List Rerun) (h : AllSpare s reruns) :
    KeepsDeployed s.db (reruns.foldl Rerun.run s).db := by
  induction reruns generalizing s with
  | nil => exact keepsDeployed_refl s.db
  | cons rerun reruns ih =>
    have hfirst : KeepsDeployed s.db (rerun.run s).db := (keepsDeployed_run_iff s rerun).mpr h.1
    exact hfirst.trans (ih (rerun.run s) h.2)

/-- A run of the checks leaves every `deployed` mark exactly when it does not overwrite one on its
way, or deploys the version in its end; and so does a sequence of such runs. -/
theorem rerun_keepsDeployed_iff (s : Server) :
    (∀ rerun : Rerun, KeepsDeployed s.db (rerun.run s).db ↔ rerun.Spares s) ∧
      ∀ reruns : List Rerun, AllSpare s reruns →
        KeepsDeployed s.db (reruns.foldl Rerun.run s).db :=
  ⟨keepsDeployed_run_iff s, keepsDeployed_foldl s⟩

/-- An app of one cluster whose first version is deployed. -/
def deployedOnce : Database where
  app := .single { id := "app", name := "App", slug := "app", currentSequence := some 0 }
  appVersion := .single { appId := "app", sequence := 0, createdAt := 0 }
  appDownstream := .single {
    appId := "app", clusterId := "cluster", downstreamName := "this-cluster",
    currentSequence := some 0 }
  appDownstreamVersion := .single {
    appId := "app", clusterId := "cluster", sequence := 0, parentSequence := 0,
    appliedAt := some 0, status := "deployed" }
  cluster := .single { id := "cluster", title := "this-cluster", token := "token" }

/-- Checks of the deployed version that run again, with a spec, to a result. -/
theorem not_keepsDeployed_startPreflightChecks :
    ¬ ∀ (s : Server) (rerun : Rerun), KeepsDeployed s.db (rerun.run s).db := by
  intro h
  have hkeeps := h { db := deployedOnce, archives := fun _ _ => some "archive" }
    (.startPreflightChecks { preflight := { loadKotsKinds := .ok { hasPreflight := true } } } "app")
  have hstatus := hkeeps.restorable "app" 0 rfl
  exact absurd hstatus (by decide)

end Kotsadm.Version
