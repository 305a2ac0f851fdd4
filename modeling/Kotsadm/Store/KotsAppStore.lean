import Kotsadm.Store.Database

/-!
# KotsAppStore — the statements of `kots_app_store.ts`

Each function of the store is one function on the database.  A rejected promise is `Except.error`
with the message of its `ReplicatedError`; the current time is a parameter.
-/

namespace Kotsadm.KotsAppStore

/-! ## Apps and their downstreams -/

/-- The fields of `KotsApp` that the modelled callers read. -/
structure KotsApp where
  id : AppId
  name : String
  slug : String
  currentSequence : Option Int
  restoreInProgressName : Option String
  restoreUndeployStatus : Option UndeployStatus
  deriving DecidableEq, Repr

def mapKotsApp (row : AppRow) : KotsApp where
  id := row.id
  name := row.name
  slug := row.slug
  currentSequence := row.currentSequence
  restoreInProgressName := row.restoreInProgressName
  restoreUndeployStatus := row.restoreUndeployStatus

def getApp (db : Database) (id : AppId) : Except String KotsApp :=
  match db.app.find? id with
  | none => .error "not found"
  | some row => .ok (mapKotsApp row)

def listAppsForCluster (db : Database) (clusterId : ClusterId) : Except String (List KotsApp) :=
  ((db.appDownstream.rows.filter fun r => r.clusterId = clusterId).map (·.appId)).mapM (getApp db)

def listClusterIDsForApp (db : Database) (appId : AppId) : List ClusterId :=
  (db.appDownstream.rows.filter fun r => r.appId = appId).map (·.clusterId)

/-- The current sequence is not among the inserted columns, so a new downstream has none. -/
def createDownstream (db : Database) (appId : AppId) (downstreamName : String)
    (clusterId : ClusterId) : Database :=
  { db with
    appDownstream := db.appDownstream.upsert { appId, clusterId, downstreamName }
      (fun r => { r with downstreamName }) fun _ => rfl }

def deleteDownstream (db : Database) (appId : AppId) (clusterId : ClusterId) :
    Except String Database :=
  match db.appDownstream.find? (appId, clusterId) with
  | none => .error s!"No downstreams with the id of {clusterId} were found"
  | some _ =>
    .ok { db with
      appDownstream := db.appDownstream.deleteWhere fun r =>
        r.appId = appId && r.clusterId = clusterId }

/-! ## Versions of a downstream -/

structure KotsVersion where
  title : String
  status : String
  createdOn : Timestamp
  parentSequence : Int
  sequence : Int
  deployedAt : Option Timestamp
  source : String
  diffSummary : String
  releaseNotes : String
  preflightResult : Option String
  preflightResultCreatedAt : Option Timestamp
  commitUrl : String
  gitDeployable : Bool
  deriving DecidableEq, Repr

/-- `has_error` comes from the outer join with `app_downstream_output`. -/
def downstreamVersionStatus (hasError : Option Bool) (status : String) : String :=
  match hasError with
  | some false => status
  | some true => "failed"
  | none =>
    if status = "deployed" then "deploying"
    else if status ≠ "" then status
    else "unknown"

def getReleaseNotes (db : Database) (appId : AppId) (sequence : Int) : String :=
  ((db.appVersion.find? (appId, sequence)).map (·.releaseNotes)).getD ""

def mapKotsVersion (db : Database) (row : AppDownstreamVersionRow) : KotsVersion where
  title := row.versionLabel
  status := downstreamVersionStatus
    ((db.appDownstreamOutput.find? (row.appId, row.clusterId, row.sequence)).map (·.isError))
    row.status
  createdOn := row.createdAt
  parentSequence := row.parentSequence
  sequence := row.sequence
  deployedAt := row.appliedAt
  source := row.source
  diffSummary := row.diffSummary
  releaseNotes := getReleaseNotes db row.appId row.parentSequence
  preflightResult := row.preflightResult
  preflightResultCreatedAt := row.preflightResultCreatedAt
  commitUrl := row.gitCommitUrl
  gitDeployable := row.gitDeployable

def getCurrentVersion (db : Database) (appId : AppId) (clusterId : ClusterId) :
    Except String (Option KotsVersion) :=
  match db.appDownstream.find? (appId, clusterId) with
  | none => .error "No current downstream version found"
  | some downstream =>
    match downstream.currentSequence with
    | none => .ok none
    | some sequence =>
      match db.appDownstreamVersion.find? (appId, clusterId, sequence) with
      | none =>
        .error s!"App Version for clusterId {clusterId} not found. appId: {appId}, sequence {sequence}"
      | some row => .ok (some (mapKotsVersion db row))

/-- The versions of a cluster that meet a condition, `order by sequence desc`. -/
def versionsOfCluster (db : Database) (appId : AppId) (clusterId : ClusterId) (p : Int → Bool) :
    List AppDownstreamVersionRow :=
  (db.appDownstreamVersion.rows.filter fun r =>
    r.appId = appId && r.clusterId = clusterId && p r.sequence).insertionSort
      fun r r' => r'.sequence ≤ r.sequence

def listPastVersions (db : Database) (appId : AppId) (clusterId : ClusterId) :
    Except String (List KotsVersion) :=
  match db.appDownstream.find? (appId, clusterId) with
  | none => .error "No past versions found"
  | some downstream =>
    match downstream.currentSequence with
    -- If there is not a current_sequence, then there can't be past versions
    | none => .ok []
    | some sequence =>
      .ok ((versionsOfCluster db appId clusterId (· < sequence)).map (mapKotsVersion db))

/-- The status is the column, without the output. -/
def listPendingVersions (db : Database) (appId : AppId) (clusterId : ClusterId) :
    Except String (List KotsVersion) :=
  match db.appDownstream.find? (appId, clusterId) with
  | none => .error "No pending versions found"
  | some downstream =>
    -- If there is not a current_sequence, then all versions are future versions
    let sequence := downstream.currentSequence.getD (-1)
    .ok ((versionsOfCluster db appId clusterId (sequence < ·)).map fun r =>
      { mapKotsVersion db r with status := r.status })

/-- The sequence deployed to a cluster, `app_downstream.current_sequence`. -/
def deployedSequence (db : Database) (appId : AppId) (clusterId : ClusterId) : Option Int :=
  (db.appDownstream.find? (appId, clusterId)).bind (·.currentSequence)

@[simp] theorem mapKotsVersion_sequence (db : Database) (row : AppDownstreamVersionRow) :
    (mapKotsVersion db row).sequence = row.sequence := rfl

theorem getCurrentVersion_eq_none {db : Database} {appId : AppId} {clusterId : ClusterId}
    (h : getCurrentVersion db appId clusterId = .ok none) :
    deployedSequence db appId clusterId = none := by
  unfold getCurrentVersion at h
  unfold deployedSequence
  split at h
  next => cases h
  next downstream hdownstream =>
    rw [hdownstream]
    split at h
    next hnull => exact hnull
    next sequence hsequence => split at h <;> cases h

theorem getCurrentVersion_eq_some {db : Database} {appId : AppId} {clusterId : ClusterId}
    {v : KotsVersion} :
    getCurrentVersion db appId clusterId = .ok (some v) ↔
      ∃ row, deployedSequence db appId clusterId = some row.sequence ∧
        db.appDownstreamVersion.find? (appId, clusterId, row.sequence) = some row ∧
        v = mapKotsVersion db row := by
  unfold getCurrentVersion deployedSequence
  cases hdownstream : db.appDownstream.find? (appId, clusterId) with
  | none => simp
  | some downstream =>
    cases hsequence : downstream.currentSequence with
    | none => simp [hsequence]
    | some sequence =>
      cases hrow : db.appDownstreamVersion.find? (appId, clusterId, sequence) with
      | none =>
        simp only [hsequence, hrow, Option.bind_some, reduceCtorEq, false_iff, not_exists]
        rintro row ⟨hseq, hfind, -⟩
        cases hseq
        rw [hrow] at hfind
        cases hfind
      | some row =>
        have hkey : (row.appId, row.clusterId, row.sequence) = (appId, clusterId, sequence) :=
          (Keyed.find?_eq_some.mp hrow).2
        have hseq : row.sequence = sequence := (Prod.ext_iff.mp (Prod.ext_iff.mp hkey).2).2
        simp only [hsequence, hrow, Option.bind_some, Except.ok.injEq, Option.some.injEq]
        constructor
        · intro hv
          exact ⟨row, hseq.symm, by rw [hseq, hrow], hv.symm⟩
        · rintro ⟨row', hseq', hfind, hv⟩
          rw [← hseq', hrow] at hfind
          cases hfind
          exact hv.symm

/-- `applied_at is not null order by applied_at desc` -/
def appliedVersions (db : Database) (appId : AppId) (clusterId : ClusterId) :
    List AppDownstreamVersionRow :=
  Keyed.orderByDesc (fun r => r.appliedAt.getD 0)
    (db.appDownstreamVersion.rows.filter fun r =>
      r.appId = appId && r.clusterId = clusterId && r.appliedAt.isSome)

/-- The source takes the current sequence as a third parameter and does not use it. -/
def getPreviouslyDeployedSequence (db : Database) (appId : AppId) (clusterId : ClusterId)
    (_currentSequence : Int) : Option Int :=
  match (appliedVersions db appId clusterId).take 2 with
  | [_, previous] => some previous.sequence
  | _ => none

def getDeployedVersionBackup (db : Database) (appId : AppId) (clusterId : ClusterId) :
    Option String := do
  let downstream ← db.appDownstream.find? (appId, clusterId)
  let sequence ← downstream.currentSequence
  let version ← db.appVersion.find? (appId, sequence)
  return version.backupSpec

/-- Both statements address every cluster of the app. -/
def deployVersion (db : Database) (appId : AppId) (sequence : Int) (now : Timestamp) : Database :=
  { db with
    appDownstream := db.appDownstream.updateWhere (fun r => r.appId = appId)
      (fun r => { r with currentSequence := some sequence }) fun _ => rfl
    appDownstreamVersion := db.appDownstreamVersion.updateWhere
      (fun r => r.sequence = sequence && r.appId = appId)
      (fun r => { r with status := "deployed", appliedAt := some now }) fun _ => rfl }

/-- The versions other than `sequence` that were applied to the cluster, the latest first. -/
def otherAppliedVersions (db : Database) (appId : AppId) (clusterId : ClusterId) (sequence : Int) :
    List AppDownstreamVersionRow :=
  Keyed.orderByDesc (fun r => r.appliedAt.getD 0)
    (db.appDownstreamVersion.rows.filter fun r =>
      r.appId = appId && r.clusterId = clusterId && r.appliedAt.isSome && r.sequence ≠ sequence)

theorem deployedSequence_deployVersion (db : Database) (appId appId' : AppId)
    (clusterId : ClusterId) (sequence : Int) (now : Timestamp) :
    deployedSequence (deployVersion db appId sequence now) appId' clusterId =
      if appId' = appId then
        (db.appDownstream.find? (appId', clusterId)).map fun _ => sequence
      else deployedSequence db appId' clusterId := by
  simp only [deployedSequence, deployVersion, Keyed.find?_updateWhere]
  cases hrow : db.appDownstream.find? (appId', clusterId) with
  | none => simp
  | some row =>
    have hkey : (row.appId, row.clusterId) = (appId', clusterId) := (Keyed.find?_eq_some.mp hrow).2
    have happ : row.appId = appId' := (Prod.ext_iff.mp hkey).1
    by_cases heq : appId' = appId
    · simp [happ, heq]
    · simp [happ, heq]

theorem listAppsForCluster_deployVersion (db : Database) (appId : AppId) (sequence : Int)
    (now : Timestamp) (clusterId : ClusterId) :
    listAppsForCluster (deployVersion db appId sequence now) clusterId =
      listAppsForCluster db clusterId := by
  have hids : ((deployVersion db appId sequence now).appDownstream.rows.filter
      fun r => r.clusterId = clusterId).map (·.appId) =
      (db.appDownstream.rows.filter fun r => r.clusterId = clusterId).map (·.appId) := by
    simp only [deployVersion, Keyed.updateWhere]
    induction db.appDownstream.rows with
    | nil => rfl
    | cons r rows ih =>
      rw [List.map_cons, List.filter_cons, List.filter_cons]
      by_cases happ : r.appId = appId <;> by_cases hc : r.clusterId = clusterId <;>
        simp only [happ, hc, decide_true, decide_false, if_true, if_false, Bool.false_eq_true,
          List.map_cons, ih]
  unfold listAppsForCluster
  rw [hids]
  rfl

theorem isSome_find?_deployVersion (db : Database) (appId : AppId) (sequence : Int)
    (now : Timestamp) (key : AppId × ClusterId × Int) :
    ((deployVersion db appId sequence now).appDownstreamVersion.find? key).isSome =
      (db.appDownstreamVersion.find? key).isSome := by
  simp only [deployVersion, Keyed.find?_updateWhere, Option.isSome_map]

/-- Deploying a version of one app leaves the order of another app alone. -/
theorem appliedVersions_deployVersion_of_ne (db : Database) {appId appId' : AppId}
    (hne : appId' ≠ appId) (clusterId : ClusterId) (sequence : Int) (now : Timestamp) :
    appliedVersions (deployVersion db appId sequence now) appId' clusterId =
      appliedVersions db appId' clusterId := by
  unfold appliedVersions
  congr 1
  simp only [deployVersion, Keyed.updateWhere]
  induction db.appDownstreamVersion.rows with
  | nil => rfl
  | cons r rows ih =>
    rw [List.map_cons, List.filter_cons, List.filter_cons, ih]
    by_cases happ : r.appId = appId
    · have hr : r.appId ≠ appId' := fun h => hne (h.symm.trans happ)
      simp only [happ, decide_true, Bool.and_true]
      split <;> simp [happ, Ne.symm hne]
    · simp [happ]

/-- Deploying a version puts it in front of the versions applied to the cluster. -/
theorem appliedVersions_deployVersion {db : Database} {appId : AppId} {clusterId : ClusterId}
    {sequence : Int} {now : Timestamp} {row : AppDownstreamVersionRow}
    (hrow : db.appDownstreamVersion.find? (appId, clusterId, sequence) = some row)
    (hnow : ∀ r ∈ otherAppliedVersions db appId clusterId sequence, r.appliedAt.getD 0 < now) :
    appliedVersions (deployVersion db appId sequence now) appId clusterId =
      { row with status := "deployed", appliedAt := some now } ::
        otherAppliedVersions db appId clusterId sequence := by
  obtain ⟨hmem, hkey⟩ := Keyed.find?_eq_some.mp hrow
  obtain ⟨above, below, hsplit⟩ := List.append_of_mem hmem
  have hnodup := db.appDownstreamVersion.nodup
  rw [hsplit, List.map_append, List.map_cons, List.nodup_middle, List.nodup_cons,
    List.mem_append] at hnodup
  have happ : row.appId = appId := (Prod.ext_iff.mp hkey).1
  have hcluster : row.clusterId = clusterId := (Prod.ext_iff.mp (Prod.ext_iff.mp hkey).2).1
  have hsequence : row.sequence = sequence := (Prod.ext_iff.mp (Prod.ext_iff.mp hkey).2).2
  -- among the rows of the cluster only `row` has this sequence, so the update leaves them alone
  have hothers : ∀ rows : List AppDownstreamVersionRow, row.key ∉ rows.map (·.key) →
      ((rows.map fun r => if (r.sequence = sequence && r.appId = appId : Bool) then
        { r with status := "deployed", appliedAt := some now } else r).filter fun r =>
          r.appId = appId && r.clusterId = clusterId && r.appliedAt.isSome) =
      rows.filter fun r =>
        r.appId = appId && r.clusterId = clusterId && r.appliedAt.isSome &&
          r.sequence ≠ sequence := by
    intro rows
    induction rows with
    | nil => simp
    | cons r rows ih =>
      intro hfresh
      rw [List.map_cons, List.mem_cons, not_or] at hfresh
      have ih' := ih hfresh.2
      have hne : ¬(r.appId = appId ∧ r.clusterId = clusterId ∧ r.sequence = sequence) := by
        rintro ⟨h1, h2, h3⟩
        apply hfresh.1
        simp [AppDownstreamVersionRow.key, happ, hcluster, hsequence, h1, h2, h3]
      rw [List.map_cons, List.filter_cons, List.filter_cons, ih']
      by_cases hseq : r.sequence = sequence
      · by_cases ha : r.appId = appId
        · have hc : r.clusterId ≠ clusterId := fun hc => hne ⟨ha, hc, hseq⟩
          simp [hseq, ha, hc]
        · simp [hseq, ha]
      · simp [hseq]
  have hrows : (deployVersion db appId sequence now).appDownstreamVersion.rows.filter (fun r =>
      r.appId = appId && r.clusterId = clusterId && r.appliedAt.isSome) =
      (above.filter fun r => r.appId = appId && r.clusterId = clusterId && r.appliedAt.isSome &&
        r.sequence ≠ sequence) ++ { row with status := "deployed", appliedAt := some now } ::
      below.filter fun r => r.appId = appId && r.clusterId = clusterId && r.appliedAt.isSome &&
        r.sequence ≠ sequence := by
    have habove : row.key ∉ above.map (·.key) := fun h => hnodup.1 (.inl h)
    have hbelow : row.key ∉ below.map (·.key) := fun h => hnodup.1 (.inr h)
    simp only [deployVersion, Keyed.updateWhere]
    rw [hsplit, List.map_append, List.map_cons, List.filter_append, List.filter_cons,
      hothers above habove, hothers below hbelow]
    simp [happ, hcluster, hsequence]
  have hold : otherAppliedVersions db appId clusterId sequence =
      Keyed.orderByDesc (fun r => r.appliedAt.getD 0)
        ((above.filter fun r => r.appId = appId && r.clusterId = clusterId && r.appliedAt.isSome &&
          r.sequence ≠ sequence) ++
        below.filter fun r => r.appId = appId && r.clusterId = clusterId && r.appliedAt.isSome &&
          r.sequence ≠ sequence) := by
    unfold otherAppliedVersions
    rw [hsplit, List.filter_append, List.filter_cons]
    simp [hsequence]
  rw [hold] at hnow ⊢
  unfold appliedVersions
  rw [hrows]
  apply Keyed.orderByDesc_middle
  · intro r hr
    exact hnow r (Keyed.mem_orderByDesc.mpr (List.mem_append_left _ hr))
  · intro r hr
    exact (hnow r (Keyed.mem_orderByDesc.mpr (List.mem_append_right _ hr))).le

def updateDownstreamsStatus (db : Database) (appId : AppId) (sequence : Int)
    (status statusInfo : String) : Database :=
  { db with
    appDownstreamVersion := db.appDownstreamVersion.updateWhere
      (fun r => r.appId = appId && r.sequence = sequence)
      (fun r => { r with status, statusInfo }) fun _ => rfl }

/-- A status change reorders nothing. -/
theorem getPreviouslyDeployedSequence_updateDownstreamsStatus (db : Database)
    (appId appId' : AppId) (clusterId : ClusterId) (sequence current : Int)
    (status statusInfo : String) :
    getPreviouslyDeployedSequence (updateDownstreamsStatus db appId sequence status statusInfo)
      appId' clusterId current = getPreviouslyDeployedSequence db appId' clusterId current := by
  let setStatus : AppDownstreamVersionRow → AppDownstreamVersionRow := fun r =>
    if (r.appId = appId && r.sequence = sequence : Bool) then { r with status, statusInfo } else r
  have happlied : appliedVersions (updateDownstreamsStatus db appId sequence status statusInfo)
      appId' clusterId = (appliedVersions db appId' clusterId).map setStatus := by
    unfold appliedVersions
    rw [← Keyed.orderByDesc_map]
    · congr 1
      simp only [updateDownstreamsStatus, Keyed.updateWhere]
      rw [List.filter_map]
      congr 1
      apply List.filter_congr
      intro r _
      dsimp only [Function.comp_apply]
      split <;> rfl
    · intro r
      dsimp only [setStatus]
      split <;> rfl
  have hsequence : ∀ r, (setStatus r).sequence = r.sequence := by
    intro r
    dsimp only [setStatus]
    split <;> rfl
  unfold getPreviouslyDeployedSequence
  rw [happlied, ← List.map_take]
  rcases (appliedVersions db appId' clusterId).take 2 with _ | ⟨_, _ | ⟨previous, _ | ⟨_, _⟩⟩⟩
  · rfl
  · rfl
  · exact congrArg some (hsequence previous)
  · rfl

/-- The output an operator reports. -/
structure DeployOutput where
  dryRunStdout : Option String
  dryRunStderr : Option String
  applyStdout : Option String
  applyStderr : Option String
  deriving DecidableEq, Repr

def DeployOutput.row (output : DeployOutput) (appId : AppId) (clusterId : ClusterId)
    (sequence : Int) (isError : Bool) : AppDownstreamOutputRow where
  appId := appId
  clusterId := clusterId
  downstreamSequence := sequence
  isError := isError
  dryrunStdout := output.dryRunStdout
  dryrunStderr := output.dryRunStderr
  applyStdout := output.applyStdout
  applyStderr := output.applyStderr

def updateDownstreamDeployStatus (db : Database) (appId : AppId) (clusterId : ClusterId)
    (sequence : Int) (isError : Bool) (output : DeployOutput) : Database :=
  let result := db.appDownstreamOutput.find? (appId, clusterId, sequence)
  -- don't update successful results
  if result.any (!·.isError) then db
  else
    let row := output.row appId clusterId sequence isError
    { db with
      appDownstreamOutput := db.appDownstreamOutput.upsert row
        (fun r => { row with appId := r.appId, clusterId := r.clusterId,
                             downstreamSequence := r.downstreamSequence }) fun _ => rfl }

/-- The row of the reported sequence is replaced unless it is a success; no other row changes. -/
theorem find?_updateDownstreamDeployStatus (db : Database) (appId : AppId) (clusterId : ClusterId)
    (sequence : Int) (isError : Bool) (output : DeployOutput) (key : AppId × ClusterId × Int) :
    (updateDownstreamDeployStatus db appId clusterId sequence isError
      output).appDownstreamOutput.find? key =
      if key = (appId, clusterId, sequence) ∧
          (db.appDownstreamOutput.find? key).any (!·.isError) = false then
        some (output.row appId clusterId sequence isError)
      else db.appDownstreamOutput.find? key := by
  have hrowKey : (output.row appId clusterId sequence isError).key =
      (appId, clusterId, sequence) := rfl
  unfold updateDownstreamDeployStatus
  by_cases hkey : key = (appId, clusterId, sequence)
  · subst hkey
    by_cases hsuccess : (db.appDownstreamOutput.find? (appId, clusterId, sequence)).any
        (!·.isError) = true
    · rw [if_pos hsuccess, if_neg fun h => by rw [h.2] at hsuccess; cases hsuccess]
    · rw [if_neg hsuccess, if_pos ⟨rfl, Bool.eq_false_of_not_eq_true hsuccess⟩]
      change (Keyed.upsert _ _ _ _).find? _ = _
      rw [Keyed.find?_upsert, if_pos hrowKey]
      cases hrow : db.appDownstreamOutput.find? (appId, clusterId, sequence) with
      | none => rfl
      | some row =>
        have hold : (row.appId, row.clusterId, row.downstreamSequence) =
            (appId, clusterId, sequence) := (Keyed.find?_eq_some.mp hrow).2
        simp only [Prod.mk.injEq] at hold
        simp only [Option.elim_some, DeployOutput.row, hold]
  · rw [if_neg (fun hand : key = (appId, clusterId, sequence) ∧ _ => hkey hand.1)]
    by_cases hsuccess : (db.appDownstreamOutput.find? (appId, clusterId, sequence)).any
        (!·.isError) = true
    · rw [if_pos hsuccess]
    · rw [if_neg hsuccess]
      change (Keyed.upsert _ _ _ _).find? _ = _
      rw [Keyed.find?_upsert, hrowKey, if_neg fun h => hkey h.symm]

/-! ## Creating versions -/

/-- `insert into app_version … ON CONFLICT(app_id, sequence) DO UPDATE`: the TypeScript store and
the Go `createVersion` send the same statement. -/
def upsertAppVersion (db : Database) (appId : AppId) (sequence : Int) (now : Timestamp)
    (columns : AppVersionColumns) : Database :=
  { db with
    appVersion := db.appVersion.upsert
      { toAppVersionColumns := columns, appId, sequence, createdAt := now }
      (fun r => { r with toAppVersionColumns := columns, createdAt := now }) fun _ => rfl }

/-- `update app set current_sequence = $1, name = $2, icon_uri = $3 where id = $4` -/
def updateAppVersion (db : Database) (appId : AppId) (sequence : Int) (name iconUri : String) :
    Database :=
  { db with
    app := db.app.updateWhere (fun r => r.id = appId)
      (fun r => { r with currentSequence := some sequence, name, iconUri }) fun _ => rfl }

/-- The statements are separate: a failure after the first one leaves its row behind. -/
def createMidstreamVersion (db : Database) (id : AppId) (sequence : Int) (now : Timestamp)
    (columns : AppVersionColumns) (appTitle appIcon : String) : Database × Except String Unit :=
  let db := upsertAppVersion db id sequence now columns
  if appTitle = "" then
    match db.app.find? id with
    | none => (db, .error "Cannot read property 'slug' of undefined")
    | some row => (updateAppVersion db id sequence row.slug appIcon, .ok ())
  else
    (updateAppVersion db id sequence appTitle appIcon, .ok ())

/-- `select max(sequence) as last_sequence from app_downstream_version where …` -/
def maxDownstreamSequence (db : Database) (appId : AppId) (clusterId : ClusterId) : Option Int :=
  ((db.appDownstreamVersion.rows.filter fun r =>
    r.appId = appId && r.clusterId = clusterId).map (·.sequence)).max?

/-- `max(sequence) + 1`, from 0 for a cluster without versions. -/
def nextDownstreamSequence (db : Database) (appId : AppId) (clusterId : ClusterId) : Int :=
  match maxDownstreamSequence db appId clusterId with
  | some lastSequence => lastSequence + 1
  | none => 0

/-- `insert into app_downstream_version …`; the TypeScript store and the Go `createVersion` set the
same columns. -/
def insertDownstreamVersion (db : Database) (row : AppDownstreamVersionRow) :
    Except String Database :=
  match db.appDownstreamVersion.insert? row with
  | none => .error "duplicate key value violates unique constraint"
  | some table => .ok { db with appDownstreamVersion := table }

/-- The arguments of `createDownstreamVersion`, the sequences and the cluster apart. -/
structure DownstreamVersionArgs where
  versionLabel : String := ""
  status : String
  source : String := ""
  diffSummary : String := ""
  commitUrl : String := ""
  gitDeployable : Bool := false
  deriving DecidableEq, Repr

def DownstreamVersionArgs.row (args : DownstreamVersionArgs) (appId : AppId)
    (clusterId : ClusterId) (sequence parentSequence : Int) (now : Timestamp) :
    AppDownstreamVersionRow where
  appId := appId
  clusterId := clusterId
  sequence := sequence
  parentSequence := parentSequence
  createdAt := now
  versionLabel := args.versionLabel
  status := args.status
  source := args.source
  diffSummary := args.diffSummary
  gitCommitUrl := args.commitUrl
  gitDeployable := args.gitDeployable

def createDownstreamVersion (db : Database) (id : AppId) (parentSequence : Int)
    (clusterId : ClusterId) (now : Timestamp) (args : DownstreamVersionArgs) :
    Except String Database :=
  let newSequence := nextDownstreamSequence db id clusterId
  insertDownstreamVersion db (args.row id clusterId newSequence parentSequence now)

/-! ## Restores -/

/-- `app.restore_in_progress_name`; `NULL` and `''` both mean that no restore is in progress. -/
def restoreInProgressName (db : Database) (appId : AppId) : Option String :=
  (db.app.find? appId).bind (·.restoreInProgressName)

def restoreUndeployStatus (db : Database) (appId : AppId) : Option UndeployStatus :=
  (db.app.find? appId).bind (·.restoreUndeployStatus)

/-- `InitiateRestore` of the Go `app` package: the undeploy status is left as it is. -/
def initiateRestore (db : Database) (snapshotName : String) (appId : AppId) : Database :=
  { db with
    app := db.app.updateWhere (fun r => r.id = appId)
      (fun r => { r with restoreInProgressName := some snapshotName }) fun _ => rfl }

def updateAppRestoreUndeployStatus (db : Database) (appId : AppId)
    (undeployStatus : UndeployStatus) : Database :=
  { db with
    app := db.app.updateWhere (fun r => r.id = appId)
      (fun r => { r with restoreUndeployStatus := some undeployStatus }) fun _ => rfl }

def updateAppRestoreReset (db : Database) (appId : AppId) : Database :=
  { db with
    app := db.app.updateWhere (fun r => r.id = appId)
      (fun r => { r with restoreInProgressName := none, restoreUndeployStatus := none })
      fun _ => rfl }

section RestoreColumns

variable (db : Database) (appId appId' : AppId)

/-- What an update of one app does to a column of another one, or of the same. -/
theorem find?_updateApp (f : AppRow → AppRow) (hf : ∀ r, (f r).key = r.key) :
    (db.app.updateWhere (fun r => r.id = appId) f hf).find? appId' =
      if appId' = appId then (db.app.find? appId').map f else db.app.find? appId' := by
  rw [Keyed.find?_updateWhere]
  cases hrow : db.app.find? appId' with
  | none => simp
  | some row =>
    have hid : row.id = appId' := (Keyed.find?_eq_some.mp hrow).2
    by_cases heq : appId' = appId <;> simp [hid, heq]

/-- After a column of one app was set, it has a value there, and everywhere else the one before. -/
theorem column_updateApp {β : Type} {column : AppRow → Option β} {value value' : β}
    {f : AppRow → AppRow} (hf : ∀ r, (f r).key = r.key) (hset : ∀ r, column (f r) = some value)
    (h : ((db.app.updateWhere (fun r => r.id = appId) f hf).find? appId').bind column =
      some value') :
    if appId' = appId then value' = value
    else (db.app.find? appId').bind column = some value' := by
  rw [find?_updateApp] at h
  split
  next heq =>
    rw [if_pos heq] at h
    cases hrow : db.app.find? appId' with
    | none => simp [hrow] at h
    | some row =>
      rw [hrow, Option.map_some, Option.bind_some, hset] at h
      exact (Option.some.inj h).symm
  next heq =>
    rw [if_neg heq] at h
    exact h

theorem restoreInProgressName_initiateRestore {snapshotName name : String}
    (h : restoreInProgressName (initiateRestore db snapshotName appId) appId' = some name) :
    if appId' = appId then name = snapshotName else restoreInProgressName db appId' = some name := by
  unfold restoreInProgressName initiateRestore at h
  refine column_updateApp db appId appId' ?_ (fun _ => rfl) h
  exact fun _ => rfl

@[simp] theorem restoreUndeployStatus_initiateRestore (snapshotName : String) :
    restoreUndeployStatus (initiateRestore db snapshotName appId) appId' =
      restoreUndeployStatus db appId' := by
  unfold restoreUndeployStatus initiateRestore
  rw [find?_updateApp]
  split
  next => cases db.app.find? appId' <;> rfl
  next => rfl

@[simp] theorem restoreInProgressName_updateAppRestoreUndeployStatus (status : UndeployStatus) :
    restoreInProgressName (updateAppRestoreUndeployStatus db appId status) appId' =
      restoreInProgressName db appId' := by
  unfold restoreInProgressName updateAppRestoreUndeployStatus
  rw [find?_updateApp]
  split
  next => cases db.app.find? appId' <;> rfl
  next => rfl

theorem restoreUndeployStatus_updateAppRestoreUndeployStatus {status status' : UndeployStatus}
    (h : restoreUndeployStatus (updateAppRestoreUndeployStatus db appId status) appId' =
      some status') :
    if appId' = appId then status' = status else restoreUndeployStatus db appId' = some status' := by
  unfold restoreUndeployStatus updateAppRestoreUndeployStatus at h
  refine column_updateApp db appId appId' ?_ (fun _ => rfl) h
  exact fun _ => rfl

/-- A reset sets nothing: what it leaves in a row was there before. -/
theorem restoreInProgressName_updateAppRestoreReset {name : String}
    (h : restoreInProgressName (updateAppRestoreReset db appId) appId' = some name) :
    restoreInProgressName db appId' = some name := by
  unfold restoreInProgressName updateAppRestoreReset at h
  rw [find?_updateApp] at h
  split at h
  next => cases hrow : db.app.find? appId' <;> simp [hrow] at h
  next => exact h

theorem restoreUndeployStatus_updateAppRestoreReset {status : UndeployStatus}
    (h : restoreUndeployStatus (updateAppRestoreReset db appId) appId' = some status) :
    restoreUndeployStatus db appId' = some status := by
  unfold restoreUndeployStatus updateAppRestoreReset at h
  rw [find?_updateApp] at h
  split at h
  next => cases hrow : db.app.find? appId' <;> simp [hrow] at h
  next => exact h

end RestoreColumns

/-! ## Preflights -/

/-- An update of the versions of one sequence of an app. -/
def updateVersions (db : Database) (appId : AppId) (sequence : Int)
    (set : AppDownstreamVersionRow → AppDownstreamVersionRow) (hset : ∀ r, (set r).key = r.key) :
    Database :=
  { db with
    appDownstreamVersion := db.appDownstreamVersion.updateWhere
      (fun r => r.appId = appId && r.sequence = sequence) set hset }

/-- An update of the version of one cluster. -/
def updateVersion (db : Database) (appId : AppId) (clusterId : ClusterId) (sequence : Int)
    (set : AppDownstreamVersionRow → AppDownstreamVersionRow) (hset : ∀ r, (set r).key = r.key) :
    Database :=
  { db with
    appDownstreamVersion := db.appDownstreamVersion.updateWhere
      (fun r => r.appId = appId && r.clusterId = clusterId && r.sequence = sequence) set hset }

structure CheckResult where
  isFail : Bool := false
  isWarn : Bool := false
  isPass : Bool := false
  deriving DecidableEq, Repr

/-- The body of a preflight result: how many errors it lists, its checks, and its JSON. -/
structure PreflightResult where
  errors : Nat := 0
  results : List CheckResult := []
  json : String := ""
  deriving DecidableEq, Repr

/-- The loop over the checks, which a failed one ends. -/
def resultState : String → List CheckResult → String
  | state, [] => state
  | state, check :: checks =>
    if check.isWarn then resultState "warn" checks
    else if check.isFail then "fail"
    else resultState state checks

def getPreflightResultState (preflightResults : PreflightResult) : String :=
  if preflightResults.errors > 0 then "fail" else resultState "pass" preflightResults.results

/-- The status after a result: a deployed version stays deployed. -/
def statusAfterResult (status : String) : String :=
  if status = "deployed" then "deployed" else "pending"

/-- The cluster is not part of the condition. -/
def addKotsPreflight (db : Database) (appId : AppId) (_clusterId : ClusterId) (sequence : Int)
    (preflightResult : PreflightResult) (now : Timestamp) : Database :=
  let db := updateVersions db appId sequence (fun r => { r with
    preflightResult := some preflightResult.json
    preflightResultCreatedAt := some now
    status := statusAfterResult r.status }) fun _ => rfl
  -- always deploy sequence 0 if preflight checks pass
  if sequence = 0 ∧ getPreflightResultState preflightResult = "pass" then
    deployVersion db appId sequence now
  else db

def ignorePreflightPermissionErrors (db : Database) (appId : AppId) (clusterId : ClusterId)
    (sequence : Int) : Database :=
  updateVersion db appId clusterId sequence (fun r => { r with
    status := "pending_preflight"
    preflightIgnorePermissions := some true
    preflightResult := none }) fun _ => rfl

def retryPreflights (db : Database) (appId : AppId) (clusterId : ClusterId) (sequence : Int) :
    Database :=
  updateVersion db appId clusterId sequence (fun r => { r with
    status := "pending_preflight"
    preflightIgnorePermissions := some false
    preflightResult := none }) fun _ => rfl

end Kotsadm.KotsAppStore
