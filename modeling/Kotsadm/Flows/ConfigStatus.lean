import Kotsadm.Flows.ConfigSteps

/-!
# ConfigStatus — the status of a version whose config is incomplete

A required item without a value makes a version `pending_config`, and `preflight.Run` leaves such a
version alone.  `updateAppConfig` sets `pending_preflight` in between.
-/

namespace Kotsadm.Flows

open Version Body

/-! ## Incomplete configs -/

/-- The groups of a config after its templates have been executed. -/
abbrev TemplateConfig := String → String → String → Except GoError (List (List ConfigItem))

/-- `config.NeedsConfiguration` -/
def needsConfiguration (templateConfig : TemplateConfig)
    (configSpec configValuesSpec licenseSpec : String) : Except GoError Bool :=
  if configSpec = "" then .ok false
  else do
    let groups ← (templateConfig configSpec configValuesSpec licenseSpec).wrapError
      "failed to template config"
    return groups.flatten.any fun item => isRequiredItem item && isUnsetItem item

/-- The config has a required visible item with neither a value nor a default. -/
def IsIncomplete (templateConfig : TemplateConfig) (columns : AppVersionColumns) : Prop :=
  columns.configSpec ≠ "" ∧
    ∃ groups, templateConfig columns.configSpec columns.configValues columns.kotsLicense =
      .ok groups ∧ ∃ item ∈ groups.flatten, isRequiredItem item ∧ isUnsetItem item

theorem needsConfiguration_iff {templateConfig : TemplateConfig} {columns : AppVersionColumns} :
    needsConfiguration templateConfig columns.configSpec columns.configValues columns.kotsLicense =
      .ok true ↔ IsIncomplete templateConfig columns := by
  unfold needsConfiguration IsIncomplete
  by_cases hspec : columns.configSpec = ""
  · rw [if_pos hspec]
    exact iff_of_false (by simp) fun h => h.1 hspec
  · rw [if_neg hspec]
    cases templateConfig columns.configSpec columns.configValues columns.kotsLicense with
    | error e =>
      refine iff_of_false (fun h => by cases h) ?_
      rintro ⟨-, groups, h, -⟩
      cases h
    | ok groups =>
      show (Except.ok (groups.flatten.any fun item => isRequiredItem item && isUnsetItem item) :
        Except GoError Bool) = .ok true ↔ _
      rw [Except.ok.injEq, List.any_eq_true]
      simp only [Bool.and_eq_true]
      constructor
      · exact fun h => ⟨hspec, groups, rfl, h⟩
      · rintro ⟨-, groups', heq, h⟩
        cases heq
        exact h

/-- A version needs configuration when its templates say so. -/
def ConfigEnv.templated (env : ConfigEnv) (templateConfig : TemplateConfig) : ConfigEnv :=
  { env with version := { env.version with needsConfiguration := needsConfiguration templateConfig } }

def IncompleteVersion (templateConfig : TemplateConfig) (db : Database) (appId : AppId)
    (sequence : Int) : Prop :=
  ∃ row, db.appVersion.find? (appId, sequence) = some row ∧
    IsIncomplete templateConfig row.toAppVersionColumns

/-! ## The property -/

/-- `preflight.Run` starts the goroutine of the checks. -/
def StartsChecks (env : PreflightEnv) (appId : AppId) (sequence : Int) (s : Server) : Prop :=
  (runPreflight env appId sequence s).1.isOk ∧
    ∃ kinds status, env.loadKotsKinds = .ok kinds ∧ kinds.hasPreflight ∧
      getDownstreamVersionStatus env.getStatus s.db appId sequence = .ok status ∧
      status ≠ "pending_config"

/-- The call stores the version `n`. -/
def Updates (env : ConfigEnv) (a : App) (sequence : Int) (request : UpdateAppConfigRequest)
    (isPrimaryVersion : Bool) (s : Server) (n : Int) : Prop :=
  ReachesStore env a sequence request isPrimaryVersion s ∧
    ∃ db, storedVersion env a sequence request.createNewVersion s = some (n, db)

/-- The call gets to `preflight.Run` for the version `n`, which starts the checks. -/
def Starts (env : ConfigEnv) (a : App) (sequence : Int) (request : UpdateAppConfigRequest)
    (isPrimaryVersion : Bool) (s : Server) (n : Int) : Prop :=
  ReachesStore env a sequence request isPrimaryVersion s ∧
    ∃ f, (storeAndReset env a sequence request).run ⟨{ server := s }, none⟩ = (.ok n, f) ∧
      StartsChecks env.preflight a.id n f.state.server

/-- The rows of the version in `app_downstream_version` meet a condition. -/
def AllStatuses (db : Database) (appId : AppId) (n : Int) (p : String → Prop) : Prop :=
  ∀ row ∈ db.appDownstreamVersion.rows, row.appId = appId → row.sequence = n → p row.status

/-- An incomplete config blocks the version that the call stores. -/
def Blocks (templateConfig : TemplateConfig) (env : ConfigEnv) (a : App) (sequence : Int)
    (request : UpdateAppConfigRequest) (isPrimaryVersion : Bool) (s : Server) : Prop :=
  let db := (runRequest (updateAppConfig env a sequence request isPrimaryVersion)
    { server := s }).2.server.db
  ∀ n, Updates env a sequence request isPrimaryVersion s n →
    IncompleteVersion templateConfig db a.id n →
      AllStatuses db a.id n (· = "pending_config") ∧
        ¬ Starts env a sequence request isPrimaryVersion s n

/-! ## The condition -/

/-- The config that the version will have is incomplete. -/
def StoresIncomplete (templateConfig : TemplateConfig) (env : ConfigEnv) (a : App) (sequence : Int)
    (request : UpdateAppConfigRequest) (s : Server) : Prop :=
  if request.createNewVersion then
    ∃ kinds columns, env.version.loadKotsKindsFromPath "archiveDir" = .ok kinds ∧
      marshalColumns kinds = .ok columns ∧ IsIncomplete templateConfig columns
  else
    ∃ configValues row, env.renderedConfigValues = .ok configValues ∧
      s.db.appVersion.find? (a.id, sequence) = some row ∧
      IsIncomplete templateConfig { row.toAppVersionColumns with configValues }

/-- The version has a row of some cluster. -/
def HasRow (db : Database) (appId : AppId) (n : Int) : Prop :=
  ∃ row ∈ db.appDownstreamVersion.rows, row.appId = appId ∧ row.sequence = n

/-- The version has a row, or gets one for every downstream of the app. -/
def GetsRow (db : Database) (appId : AppId) (createNewVersion : Bool) (n : Int) : Prop :=
  HasRow db appId n ∨ createNewVersion ∧ ∃ d ∈ db.appDownstream.rows, d.appId = appId

/-- No status of an incomplete version is overwritten: the call does not get to the reset, and the
rows that were there are `pending_config`, or there is no row. -/
def KeepsPending (templateConfig : TemplateConfig) (env : ConfigEnv) (a : App) (sequence : Int)
    (request : UpdateAppConfigRequest) (isPrimaryVersion : Bool) (s : Server) : Prop :=
  ∀ n, Updates env a sequence request isPrimaryVersion s n →
    StoresIncomplete templateConfig env a sequence request s →
      (Resets env ∧ ¬ GetsRow s.db a.id request.createNewVersion n) ∨
      (¬ Resets env ∧ AllStatuses s.db a.id n (· = "pending_config"))

/-! ## preflight.Run -/

/-- `preflight.Run` writes a status, if anything. -/
theorem runPreflight_cases (env : PreflightEnv) (appId : AppId) (sequence : Int) (s : Server) :
    (runPreflight env appId sequence s).2 = s ∨
    ∃ status, status ≠ "pending_config" ∧ (runPreflight env appId sequence s).2 =
      { s with db := setDownstreamVersionStatus s.db appId sequence status } := by
  unfold runPreflight
  split
  next => exact .inl rfl
  next => exact .inl rfl
  next =>
    split
    next => exact .inl rfl
    next =>
      split
      next =>
        split
        next => exact .inl rfl
        next => exact .inr ⟨"pending_preflight", by decide, rfl⟩
      next =>
        split
        next => exact .inl rfl
        next => exact .inr ⟨"pending", by decide, rfl⟩

theorem appVersion_runPreflight (env : PreflightEnv) (appId : AppId) (sequence : Int) (s : Server) :
    (runPreflight env appId sequence s).2.db.appVersion = s.db.appVersion := by
  obtain ⟨versions, h⟩ := runPreflight_frame env appId sequence s
  rw [h]

section Statuses

variable {db : Database} {appId : AppId} {n : Int}

/-- After a status was written, no row has another one. -/
theorem allStatuses_setStatus (db : Database) (appId : AppId) (n : Int) {status : String}
    {p : String → Prop} (h : p status) :
    AllStatuses (setDownstreamVersionStatus db appId n status) appId n p := by
  intro row hrow happ hn
  unfold setDownstreamVersionStatus at hrow
  dsimp only at hrow
  rw [Keyed.mem_updateWhere] at hrow
  obtain ⟨row', -, rfl⟩ := hrow
  by_cases hmatch : (row'.appId = appId && row'.sequence = n) = true
  · rw [if_pos hmatch]
    exact h
  · rw [if_neg hmatch] at happ hn
    exact absurd (by simp [happ, hn]) hmatch

theorem hasRow_setStatus (status : String) (appId' : AppId) (n' : Int) :
    HasRow (setDownstreamVersionStatus db appId' n' status) appId n ↔ HasRow db appId n := by
  unfold HasRow setDownstreamVersionStatus
  dsimp only
  simp only [Keyed.mem_updateWhere]
  constructor
  · rintro ⟨-, ⟨row, hrow, rfl⟩, happ, hn⟩
    refine ⟨row, hrow, ?_⟩
    split at happ <;> split at hn <;> exact ⟨happ, hn⟩
  · rintro ⟨row, hrow, happ, hn⟩
    refine ⟨_, ⟨row, hrow, rfl⟩, ?_⟩
    split <;> exact ⟨happ, hn⟩

theorem getStatus_isOk {outcome : Except GoError Unit} {status : String}
    (h : getDownstreamVersionStatus outcome db appId n = .ok status) : HasRow db appId n := by
  have h' := Except.wrapError_eq_ok.mp h
  split at h'
  next => cases h'
  next => cases h'
  next row hrow =>
    have hp := List.find?_some hrow
    simp only [Bool.and_eq_true, decide_eq_true_eq] at hp
    exact ⟨row, List.mem_of_find?_eq_some hrow, hp⟩

end Statuses

/-- A reset leaves no row `pending_config`, nor does `preflight.Run` after it. -/
theorem not_pending_runPreflight (env : PreflightEnv) (db : Database) (appId : AppId) (n : Int)
    (archives : AppId → Int → Option String) :
    AllStatuses (runPreflight env appId n
      { db := setDownstreamVersionStatus db appId n "pending_preflight", archives }).2.db appId n
      (· ≠ "pending_config") := by
  rcases runPreflight_cases env appId n
    { db := setDownstreamVersionStatus db appId n "pending_preflight", archives } with
    hsame | ⟨status, hstatus, hwrite⟩
  · rw [hsame]
    exact allStatuses_setStatus db appId n (by decide)
  · rw [hwrite]
    exact allStatuses_setStatus _ appId n hstatus

theorem hasRow_runPreflight (env : PreflightEnv) (db : Database) (appId : AppId) (n : Int)
    (archives : AppId → Int → Option String) :
    HasRow (runPreflight env appId n
      { db := setDownstreamVersionStatus db appId n "pending_preflight", archives }).2.db appId n ↔
      HasRow db appId n := by
  rcases runPreflight_cases env appId n
    { db := setDownstreamVersionStatus db appId n "pending_preflight", archives } with
    hsame | ⟨status, hstatus, hwrite⟩
  · rw [hsame]
    exact hasRow_setStatus _ _ _
  · rw [hwrite]
    exact (hasRow_setStatus _ _ _).trans (hasRow_setStatus _ _ _)

/-! ## The stored version -/

section Stored

variable {t : TemplateConfig} {env : ConfigEnv} {a : App} {sequence : Int} {s : Server} {n : Int}
  {db : Database}

/-- The rows that a transaction inserts have the status of a later version. -/
theorem laterStatus_createDownstreamVersions {env : VersionEnv} {db tx tx' : Database}
    {appId : AppId} {source : String} {currentSequence sequence : Int} {kinds : KotsKinds}
    {columns : AppVersionColumns} {ds : List AppDownstreamRow}
    (h : createDownstreamVersions env db appId source (some currentSequence) sequence kinds columns
      ds tx = .ok tx') :
    ∃ rows, tx'.appDownstreamVersion.rows = tx.appDownstreamVersion.rows ++ rows ∧ ∀ row ∈ rows,
      ∃ name diffSummary, laterStatus env kinds columns name = .ok (diffSummary, row.status) := by
  induction ds generalizing tx with
  | nil =>
    cases h
    exact ⟨[], (List.append_nil _).symm, fun row hrow => by cases hrow⟩
  | cons d ds ih =>
    obtain ⟨tx₁, hfirst, hrest⟩ := Except.bind_eq_ok.mp h
    obtain ⟨⟨diffSummary, status⟩, hstatus, hfirst⟩ := Except.bind_eq_ok.mp hfirst
    obtain ⟨commitUrl, -, hfirst⟩ := Except.bind_eq_ok.mp hfirst
    obtain ⟨rows, hrows, hlater⟩ := ih hrest
    rw [(storeInsert_rows (insertDownstreamVersion_eq_ok hfirst)).1, List.append_assoc] at hrows
    refine ⟨_, hrows, fun row hrow => ?_⟩
    rcases List.mem_append.mp hrow with hone | hmore
    · rw [List.mem_singleton.mp hone]
      exact ⟨d.downstreamName, diffSummary, hstatus⟩
    · exact hlater row hmore

theorem laterStatus_incomplete {env : VersionEnv} {kinds : KotsKinds} {columns : AppVersionColumns}
    {name : String} {result : String × String}
    (hneeds : env.needsConfiguration columns.configSpec columns.configValues columns.kotsLicense =
      .ok true) (h : laterStatus env kinds columns name = .ok result) :
    result.2 = "pending_config" := by
  obtain ⟨diffSummary, -, h⟩ := Except.bind_eq_ok.mp h
  rw [hneeds] at h
  cases h
  rfl

theorem stored_createVersionTx {env : VersionEnv} {appId : AppId} {filesInDir source : String}
    {currentSequence : Int}
    (h : createVersionTx env appId filesInDir source (some currentSequence) s = .ok (n, db)) :
    ∃ kinds columns, env.loadKotsKindsFromPath filesInDir = .ok kinds ∧
      marshalColumns kinds = .ok columns ∧
      db.appVersion = (KotsAppStore.upsertAppVersion s.db appId n env.now columns).appVersion ∧
      ∃ rows, db.appDownstreamVersion.rows = s.db.appDownstreamVersion.rows ++ rows ∧
        ∀ row ∈ rows, ∃ name diffSummary,
          laterStatus env kinds columns name = .ok (diffSummary, row.status) := by
  obtain ⟨kinds, columns, name, downstreams, hkinds, hcolumns, -, -, hdownstreams⟩ :=
    createVersionTx_spec h
  have hframe := frame_createDownstreamVersions hdownstreams
  have hversion : db.appVersion =
      (KotsAppStore.upsertAppVersion s.db appId n env.now columns).appVersion := by
    rw [hframe]
    rfl
  have hlater := laterStatus_createDownstreamVersions hdownstreams
  exact ⟨kinds, columns, hkinds, hcolumns, hversion, hlater⟩

/-- A new version that is stored, by its transaction. -/
theorem createVersionTx_of_stored (h : storedVersion env a sequence true s = some (n, db)) :
    createVersionTx env.version a.id "archiveDir" "Config Change" (some a.currentSequence) s =
      .ok (n, db) := by
  unfold storedVersion createVersion at h
  rw [if_pos rfl] at h
  split at h
  next hcreate =>
    split at hcreate
    next => cases hcreate
    next htx =>
      cases hcreate
      cases h
      exact htx
  next => cases h

/-- A version that is changed in place. -/
theorem stored_inPlace (h : storedVersion env a sequence false s = some (n, db)) :
    n = sequence ∧ ∃ configValues, env.renderedConfigValues = .ok configValues ∧
      db.appDownstreamVersion = s.db.appDownstreamVersion ∧
      db.appVersion.find? (a.id, sequence) = (s.db.appVersion.find? (a.id, sequence)).map
        fun row => { row with configValues } := by
  unfold storedVersion updateConfigValuesInDB at h
  rw [if_neg Bool.false_ne_true] at h
  split at h
  next hupdate =>
    split at hupdate
    next => cases hupdate
    next => cases hupdate
    next configValues _ hrendered _ =>
      cases hupdate
      cases h
      refine ⟨rfl, configValues, hrendered, rfl, ?_⟩
      dsimp only
      rw [Keyed.find?_updateWhere]
      cases hrow : s.db.appVersion.find? (a.id, sequence) with
      | none => rfl
      | some row =>
        have hkey : row.key = (a.id, sequence) := (Keyed.find?_eq_some.mp hrow).2
        simp only [AppVersionRow.key, Prod.mk.injEq] at hkey
        simp [hkey]
  next => cases h

/-- The stored version is incomplete exactly when its config is. -/
theorem incompleteVersion_stored {request : UpdateAppConfigRequest}
    (h : storedVersion env a sequence request.createNewVersion s = some (n, db)) :
    IncompleteVersion t db a.id n ↔ StoresIncomplete t env a sequence request s := by
  unfold IncompleteVersion StoresIncomplete
  cases hnew : request.createNewVersion with
  | true =>
    rw [hnew] at h
    obtain ⟨kinds, columns, hkinds, hcolumns, hversion, -⟩ :=
      stored_createVersionTx (createVersionTx_of_stored h)
    have hfind : ∃ row, db.appVersion.find? (a.id, n) = some row ∧
        row.toAppVersionColumns = columns := by
      rw [hversion]
      unfold KotsAppStore.upsertAppVersion
      dsimp only
      rw [Keyed.find?_upsert, if_pos rfl]
      cases s.db.appVersion.find? (a.id, n) with
      | none => exact ⟨_, rfl, rfl⟩
      | some row => exact ⟨_, rfl, rfl⟩
    obtain ⟨row, hrow, hrowColumns⟩ := hfind
    rw [hrow, if_pos rfl]
    constructor
    · rintro ⟨row', heq, hincomplete⟩
      cases heq
      rw [hrowColumns] at hincomplete
      exact ⟨kinds, columns, hkinds, hcolumns, hincomplete⟩
    · rintro ⟨kinds', columns', hkinds', hcolumns', hincomplete⟩
      rw [hkinds] at hkinds'
      cases hkinds'
      rw [hcolumns] at hcolumns'
      cases hcolumns'
      rw [← hrowColumns] at hincomplete
      exact ⟨row, rfl, hincomplete⟩
  | false =>
    rw [hnew] at h
    obtain ⟨rfl, configValues, hrendered, -, hfind⟩ := stored_inPlace h
    rw [hfind, if_neg Bool.false_ne_true, hrendered]
    constructor
    · rintro ⟨row', heq, hincomplete⟩
      obtain ⟨row, hrow, rfl⟩ := Option.map_eq_some_iff.mp heq
      exact ⟨configValues, row, rfl, hrow, hincomplete⟩
    · rintro ⟨configValues', row, heq, hrow, hincomplete⟩
      cases heq
      rw [hrow]
      exact ⟨_, rfl, hincomplete⟩

/-- The rows of the stored version. -/
theorem hasRow_stored {request : UpdateAppConfigRequest}
    (h : storedVersion env a sequence request.createNewVersion s = some (n, db)) :
    HasRow db a.id n ↔ GetsRow s.db a.id request.createNewVersion n := by
  have hsome : ∀ d : Database, HasRow d a.id n ↔
      ∃ clusterId, (d.appDownstreamVersion.find? (a.id, clusterId, n)).isSome := by
    intro d
    constructor
    · rintro ⟨row, hrow, happ, hn⟩
      refine ⟨row.clusterId, ?_⟩
      have hfind := Keyed.find?_isSome_of_mem hrow
      rw [← happ, ← hn]
      exact Option.isSome_iff_exists.mpr ⟨row, hfind⟩
    · rintro ⟨clusterId, hfind⟩
      obtain ⟨row, hrow⟩ := Option.isSome_iff_exists.mp hfind
      obtain ⟨hmem, hkey⟩ := Keyed.find?_eq_some.mp hrow
      simp only [AppDownstreamVersionRow.key, Prod.mk.injEq] at hkey
      exact ⟨row, hmem, hkey.1, hkey.2.2⟩
  unfold GetsRow
  cases hnew : request.createNewVersion with
  | true =>
    rw [hnew] at h
    have hrows := find?_createVersionTx (createVersionTx_of_stored h)
    rw [hsome db, hsome s.db]
    simp only [hrows, Prod.mk.injEq, true_and, and_true]
    constructor
    · rintro ⟨clusterId, hold | ⟨d, hd, happ, -⟩⟩
      · exact .inl ⟨clusterId, hold⟩
      · exact .inr ⟨d, hd, happ⟩
    · rintro (⟨clusterId, hold⟩ | ⟨d, hd, happ⟩)
      · exact ⟨clusterId, .inl hold⟩
      · exact ⟨d.clusterId, .inr ⟨d, hd, happ, rfl⟩⟩
  | false =>
    rw [hnew] at h
    obtain ⟨-, configValues, -, hversions, -⟩ := stored_inPlace h
    unfold HasRow
    rw [hversions]
    simp

/-- The statuses of an incomplete version, as it is stored. -/
theorem allStatuses_stored {request : UpdateAppConfigRequest}
    (h : storedVersion (env.templated t) a sequence request.createNewVersion s = some (n, db))
    (hincomplete : StoresIncomplete t (env.templated t) a sequence request s) :
    AllStatuses db a.id n (· = "pending_config") ↔
      AllStatuses s.db a.id n (· = "pending_config") := by
  cases hnew : request.createNewVersion with
  | true =>
    unfold StoresIncomplete at hincomplete
    rw [hnew] at h
    rw [if_pos hnew] at hincomplete
    obtain ⟨kinds, columns, hkinds, hcolumns, -, rows, hrows, hlater⟩ :=
      stored_createVersionTx (createVersionTx_of_stored h)
    obtain ⟨kinds', columns', hkinds', hcolumns', hincomplete⟩ := hincomplete
    rw [hkinds] at hkinds'
    cases hkinds'
    rw [hcolumns] at hcolumns'
    cases hcolumns'
    unfold AllStatuses
    rw [hrows]
    constructor
    · intro hall row hrow
      exact hall row (List.mem_append_left rows hrow)
    · intro hall row hrow happ hn
      rcases List.mem_append.mp hrow with hold | hnew
      · exact hall row hold happ hn
      · obtain ⟨name, diffSummary, hstatus⟩ := hlater row hnew
        exact laterStatus_incomplete (needsConfiguration_iff.mpr hincomplete) hstatus
  | false =>
    rw [hnew] at h
    obtain ⟨-, configValues, -, hversions, -⟩ := stored_inPlace h
    unfold AllStatuses
    rw [hversions]

end Stored

/-! ## The result -/

/-- **Pending config.**  The version that the call stores is blocked exactly when no status of an
incomplete version is overwritten. -/
theorem blocks_iff (t : TemplateConfig) (env : ConfigEnv) (a : App) (sequence : Int)
    (request : UpdateAppConfigRequest) (isPrimaryVersion : Bool) (s : Server) :
    Blocks t (env.templated t) a sequence request isPrimaryVersion s ↔
      KeepsPending t (env.templated t) a sequence request isPrimaryVersion s := by
  unfold Blocks KeepsPending
  dsimp only
  refine forall_congr' fun n => ?_
  by_cases hupdates : Updates (env.templated t) a sequence request isPrimaryVersion s n
  swap
  · exact iff_of_true (fun h => absurd h hupdates) fun h => absurd h hupdates
  rw [forall_prop_of_true hupdates, forall_prop_of_true hupdates]
  obtain ⟨hreaches, db, hstored⟩ := hupdates
  rcases updateAppConfig_cases (env.templated t) a sequence request isPrimaryVersion s with
    ⟨hnone | hnone, -⟩ | ⟨-, n', db', hstored', hcases⟩
  · exact absurd hreaches hnone
  · rw [hstored] at hnone
    cases hnone
  rw [hstored] at hstored'
  cases hstored'
  rcases hcases with ⟨hresets, hdb, -⟩ | ⟨hresets, archives, hreset, hserver, -⟩
  · -- the statuses are those of the transaction
    rw [hdb, incompleteVersion_stored hstored]
    refine imp_congr_right fun hincomplete => ?_
    rw [allStatuses_stored hstored hincomplete]
    have hstarts : ¬ Starts (env.templated t) a sequence request isPrimaryVersion s n := by
      rintro ⟨-, f, hrun, -⟩
      have hstore := run_storeAndReset (env.templated t) a sequence request ⟨{ server := s }, none⟩ rfl
      dsimp only at hstore
      rw [hstored] at hstore
      rcases hstore with ⟨hresets', -⟩ | ⟨-, e, hend, -⟩
      · exact hresets hresets'
      · rw [hrun] at hend
        cases hend
    constructor
    · exact fun h => .inr ⟨hresets, h.1⟩
    · rintro (⟨hresets', -⟩ | ⟨-, hall⟩)
      · exact absurd hresets' hresets
      · exact ⟨hall, hstarts⟩
  · rw [hserver]
    have hversion : IncompleteVersion t (runPreflight (env.templated t).preflight a.id n
        { db := setDownstreamVersionStatus db a.id n "pending_preflight", archives }).2.db a.id n ↔
        StoresIncomplete t (env.templated t) a sequence request s := by
      rw [← incompleteVersion_stored hstored]
      unfold IncompleteVersion
      rw [appVersion_runPreflight]
      rfl
    rw [hversion, ← hasRow_stored hstored]
    refine imp_congr_right fun _ => ?_
    have hnot := not_pending_runPreflight (env.templated t).preflight db a.id n archives
    have hrow := hasRow_runPreflight (env.templated t).preflight db a.id n archives
    constructor
    · rintro ⟨hall, -⟩
      refine .inl ⟨hresets, fun h => ?_⟩
      obtain ⟨row, hmem, happ, hn⟩ := hrow.mpr h
      exact hnot row hmem happ hn (hall row hmem happ hn)
    · rintro (⟨-, hnone⟩ | ⟨hresets', -⟩)
      · constructor
        · intro row hmem happ hn
          exact absurd (hrow.mp ⟨row, hmem, happ, hn⟩) hnone
        · -- without a row `preflight.Run` fails
          rintro ⟨-, f, hrun, -, kinds, status, -, -, hstatus, -⟩
          rw [hreset] at hrun
          cases hrun
          exact hnone ((hasRow_setStatus _ _ _).mp (getStatus_isOk hstatus))
      · exact absurd hresets hresets'

/-! ## A later version with a required item -/

/-- The config of the version has one item, which is required. -/
def hostnameConfig : TemplateConfig := fun _ _ _ => .ok [[{ name := "hostname", required := true }]]

def hostnameKinds : KotsKinds where
  title := "App"
  hasConfig := true
  configValues := some { values := some fun _ => none }
  hasPreflight := true
  marshal := fun kind => .ok (if kind = .config then "config" else "")

def hostnameEnv : ConfigEnv where
  loadKotsKinds := .ok hostnameKinds
  version := { loadKotsKindsFromPath := fun _ => .ok hostnameKinds }
  preflight := { loadKotsKinds := .ok hostnameKinds }

/-- An app with a version and a cluster. -/
def hostnameServer : Server where
  db := {
    app := .single { id := "app", name := "App", slug := "app", currentSequence := some 0 }
    appVersion := .single { appId := "app", sequence := 0, createdAt := 0, configSpec := "config" }
    appDownstream := .single {
      appId := "app", clusterId := "cluster", downstreamName := "this-cluster" } }
  archives := fun _ _ => some "archive"

def hostnameApp : App where
  id := "app"
  slug := "app"
  name := "App"
  currentSequence := 0
  isAirgap := false
  restoreInProgressName := ""

/-- The version is made again for a config change of an earlier one, which has no such item. -/
theorem not_blocks_laterVersion : ¬ Blocks hostnameConfig (hostnameEnv.templated hostnameConfig)
    hostnameApp 0 { sequence := 0, createNewVersion := true, configGroups := [] } false
    hostnameServer := by
  intro h
  have hupdates : Updates (hostnameEnv.templated hostnameConfig) hostnameApp 0
      { sequence := 0, createNewVersion := true, configGroups := [] } false hostnameServer 1 :=
    ⟨⟨(), rfl, hostnameKinds, rfl, by decide, _, rfl, _, rfl, _, rfl, (), rfl, _, rfl, (), rfl,
      trivial⟩, _, rfl⟩
  have hincomplete := h 1 hupdates ⟨_, rfl, by decide, _, rfl, _, List.mem_cons_self, rfl, rfl⟩
  have hstatus := hincomplete.1 _ List.mem_cons_self rfl rfl
  exact absurd hstatus (by decide)

end Kotsadm.Flows
