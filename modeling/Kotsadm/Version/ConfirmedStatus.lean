import Kotsadm.Sockets.DeployResults
import Kotsadm.Version.History
import Kotsadm.Version.Numbering

/-!
# ConfirmedStatus — the status that the history shows

`downstreamVersionStatus` shows a version as deployed only after the operator has reported back.
`listPendingVersions` does without it: a pending version has the status of its row.  What the
pending versions show is then what was written before they became pending.
-/

namespace Kotsadm.ConfirmedStatus

open KotsAppStore CurrentVersion

/-- A status that is confirmed by the stored result, if there is one. -/
def Confirmed (hasError : Option Bool) (status : String) : Prop :=
  (status = "deployed" → hasError = some false) ∧ (hasError = some true → status = "failed")

instance (hasError : Option Bool) (status : String) : Decidable (Confirmed hasError status) :=
  inferInstanceAs (Decidable (_ ∧ _))

/-- Whether the result stored for a version is an error. -/
def stored (db : Database) (key : AppId × ClusterId × Int) : Option Bool :=
  (db.appDownstreamOutput.find? key).map (·.isError)

/-- What the three lists show of a cluster. -/
def Listed (db : Database) (appId : AppId) (clusterId : ClusterId) (v : KotsVersion) : Prop :=
  (∃ versions, listPendingVersions db appId clusterId = .ok versions ∧ v ∈ versions) ∨
    getCurrentVersion db appId clusterId = .ok (some v) ∨
    ∃ versions, listPastVersions db appId clusterId = .ok versions ∧ v ∈ versions

/-- The history claims no deployment that was not confirmed. -/
def Honest (db : Database) : Prop :=
  ∀ appId clusterId v, Listed db appId clusterId v →
    Confirmed (stored db (appId, clusterId, v.sequence)) v.status

/-! ## The three lists -/

/-- A version above the current one of its cluster. -/
def pending (db : Database) (key : AppId × ClusterId × Int) : Bool :=
  (db.appDownstream.find? (key.1, key.2.1)).any fun d => d.currentSequence.getD (-1) < key.2.2

/-- What the rows of the pending versions say is confirmed. -/
def PendingConfirmed (db : Database) : Prop :=
  ∀ r ∈ db.appDownstreamVersion.rows, pending db r.key = true → Confirmed (stored db r.key) r.status

/-- The function is honest about every row. -/
theorem confirmed_downstreamVersionStatus (hasError : Option Bool) (status : String) :
    Confirmed hasError (downstreamVersionStatus hasError status) := by
  unfold downstreamVersionStatus Confirmed
  cases hasError with
  | none =>
    refine ⟨fun h => ?_, fun h => by cases h⟩
    dsimp only at h
    split at h
    next => exact absurd h (by decide)
    next hdeployed =>
      split at h
      next => exact absurd h hdeployed
      next => exact absurd h (by decide)
  | some isError =>
    cases isError with
    | false => exact ⟨fun _ => rfl, fun h => (by cases h)⟩
    | true =>
      have hfailed : ("failed" : String) ≠ "deployed" := by decide
      exact ⟨fun h => absurd h hfailed, fun _ => rfl⟩

theorem confirmed_mapKotsVersion (db : Database) (row : AppDownstreamVersionRow) :
    Confirmed (stored db row.key) (mapKotsVersion db row).status :=
  confirmed_downstreamVersionStatus _ _

theorem key_of_mem {db : Database} {appId : AppId} {clusterId : ClusterId}
    {r : AppDownstreamVersionRow} (hr : r ∈ clusterVersions db appId clusterId) :
    r.key = (appId, clusterId, r.sequence) := by
  obtain ⟨-, happ, hcluster⟩ := mem_clusterVersions.mp hr
  rw [AppDownstreamVersionRow.key, happ, hcluster]

/-- The history is honest exactly when the rows of the pending versions are. -/
theorem honest_iff (db : Database) : Honest db ↔ PendingConfirmed db := by
  constructor
  · intro h r hr hpending
    unfold pending at hpending
    obtain ⟨d, hd, habove⟩ := (Option.any_eq_true _ _).mp hpending
    have hlist : listPendingVersions db r.appId r.clusterId =
        .ok ((versionsOfCluster db r.appId r.clusterId (d.currentSequence.getD (-1) < ·)).map
          fun r => { mapKotsVersion db r with status := r.status }) := by
      unfold listPendingVersions
      rw [hd]
    have hr' : r ∈ versionsOfCluster db r.appId r.clusterId (d.currentSequence.getD (-1) < ·) :=
      mem_versionsOfCluster.mpr ⟨mem_clusterVersions.mpr ⟨hr, rfl, rfl⟩, habove⟩
    exact h r.appId r.clusterId _ (.inl ⟨_, hlist, List.mem_map_of_mem hr'⟩)
  · rintro h appId clusterId v (⟨versions, hversions, hv⟩ | hcurrent | ⟨versions, hversions, hv⟩)
    · unfold listPendingVersions at hversions
      split at hversions
      next => cases hversions
      next d hd =>
        cases hversions
        obtain ⟨r, hr, rfl⟩ := List.mem_map.mp hv
        obtain ⟨hmem, habove⟩ := mem_versionsOfCluster.mp hr
        have hkey := key_of_mem hmem
        have hconfirmed := h r (mem_clusterVersions.mp hmem).1 (by
          unfold pending
          rw [hkey, hd]
          exact habove)
        rw [hkey] at hconfirmed
        exact hconfirmed
    · obtain ⟨row, -, hrow, rfl⟩ := getCurrentVersion_eq_some.mp hcurrent
      have hkey : row.key = (appId, clusterId, row.sequence) := (Keyed.find?_eq_some.mp hrow).2
      have hconfirmed := confirmed_mapKotsVersion db row
      rw [hkey] at hconfirmed
      exact hconfirmed
    · unfold listPastVersions at hversions
      split at hversions
      next => cases hversions
      next d hd =>
        split at hversions
        next =>
          cases hversions
          cases hv
        next sequence _ =>
          cases hversions
          obtain ⟨r, hr, rfl⟩ := List.mem_map.mp hv
          have hkey := key_of_mem (mem_versionsOfCluster.mp hr).1
          have hconfirmed := confirmed_mapKotsVersion db r
          rw [hkey] at hconfirmed
          exact hconfirmed

/-! ## Runs -/

inductive Action where
  /-- A deploy, a rollback, a new version, cluster or downstream, or a preflight result. -/
  | version (a : CurrentVersion.Action)
  | putDeployResult (token : String) (body : DeployResultBody)
  | updateDownstreamsStatus (appId : AppId) (sequence : Int) (status statusInfo : String)
  | setDownstreamVersionStatus (appId : AppId) (sequence : Int) (status : String)
  | ignorePreflightPermissionErrors (appId : AppId) (clusterId : ClusterId) (sequence : Int)
  | retryPreflights (appId : AppId) (clusterId : ClusterId) (sequence : Int)

def machine : Machine Server Action where
  step s
    | .version a => CurrentVersion.machine.step s a
    | .putDeployResult token body =>
      some { s with db := (Kotsadm.putDeployResult s.db token body).1 }
    | .updateDownstreamsStatus appId sequence status statusInfo =>
      some { s with
        db := KotsAppStore.updateDownstreamsStatus s.db appId sequence status statusInfo }
    | .setDownstreamVersionStatus appId sequence status =>
      some { s with db := Kotsadm.setDownstreamVersionStatus s.db appId sequence status }
    | .ignorePreflightPermissionErrors appId clusterId sequence =>
      some { s with
        db := KotsAppStore.ignorePreflightPermissionErrors s.db appId clusterId sequence }
    | .retryPreflights appId clusterId sequence =>
      some { s with db := KotsAppStore.retryPreflights s.db appId clusterId sequence }

/-- Nothing is pending that claims too much; no version at all, for instance. -/
def Init (s : Server) : Prop := Honest s.db

/-! ## The condition of a step -/

/-- The deploy of a sequence makes pending only versions whose rows are confirmed. -/
def DeployConfirmed (db : Database) (appId : AppId) (sequence : Int) : Prop :=
  ∀ r ∈ db.appDownstreamVersion.rows, r.appId = appId → sequence < r.sequence →
    (db.appDownstream.find? (appId, r.clusterId)).isSome = true →
      Confirmed (stored db r.key) r.status

/-- A status written to rows is confirmed where they are pending. -/
def WriteConfirmed (db : Database) (p : AppDownstreamVersionRow → Bool)
    (status : AppDownstreamVersionRow → String) : Prop :=
  ∀ r ∈ db.appDownstreamVersion.rows, p r = true → pending db r.key = true →
    Confirmed (stored db r.key) (status r)

def VersionGuard (s : Server) : CurrentVersion.Action → Prop
  | .deployVersion appId sequence _ => DeployConfirmed s.db appId sequence
  | .createDownstream appId _ clusterId =>
    -- rows that a deleted downstream has left behind
    s.db.appDownstream.find? (appId, clusterId) = none →
      ∀ r ∈ s.db.appDownstreamVersion.rows, r.appId = appId → r.clusterId = clusterId →
        -1 < r.sequence → Confirmed (stored s.db r.key) r.status
  | .createDownstreamVersion appId _ clusterId _ args =>
    let key := (appId, clusterId, nextDownstreamSequence s.db appId clusterId)
    pending s.db key = true → Confirmed (stored s.db key) args.status
  | .createVersion env appId filesInDir source currentSequence =>
    -- the rows that the transaction inserts
    ∀ sequence tx, Version.createVersionTx env appId filesInDir source currentSequence s =
        .ok (sequence, tx) →
      ∀ r ∈ tx.appDownstreamVersion.rows, r.appId = appId → r.sequence = sequence →
        pending s.db r.key = true → Confirmed (stored s.db r.key) r.status
  | .deleteDownstream _ _ => True
  | .addKotsPreflight appId _ sequence preflightResult _ =>
    if sequence = 0 ∧ getPreflightResultState preflightResult = "pass" then
      DeployConfirmed s.db appId sequence
    else
      WriteConfirmed s.db (fun r => r.appId = appId && r.sequence = sequence)
        fun r => statusAfterResult r.status

/-- A step makes no version pending, and gives no pending version a status, that says more than the
stored result. -/
def Guard (s : Server) : Action → Prop
  | .version a => VersionGuard s a
  | .putDeployResult _ _ => True
  | .updateDownstreamsStatus appId sequence status _ =>
    WriteConfirmed s.db (fun r => r.appId = appId && r.sequence = sequence) fun _ => status
  | .setDownstreamVersionStatus appId sequence status =>
    WriteConfirmed s.db (fun r => r.appId = appId && r.sequence = sequence) fun _ => status
  | .ignorePreflightPermissionErrors appId clusterId sequence
  | .retryPreflights appId clusterId sequence =>
    WriteConfirmed s.db
      (fun r => r.appId = appId && r.clusterId = clusterId && r.sequence = sequence)
      fun _ => "pending_preflight"

/-! ## The steps -/

section Step

variable {db : Database}

/-- A write of statuses keeps the keys, and so what is pending. -/
theorem pendingConfirmed_write_iff (h : PendingConfirmed db) (p : AppDownstreamVersionRow → Bool)
    (set : AppDownstreamVersionRow → AppDownstreamVersionRow) (hset : ∀ r, (set r).key = r.key) :
    PendingConfirmed
        { db with appDownstreamVersion := db.appDownstreamVersion.updateWhere p set hset } ↔
      WriteConfirmed db p fun r => (set r).status := by
  constructor
  · intro hafter r hr hp hpending
    have hmem : set r ∈ (db.appDownstreamVersion.updateWhere p set hset).rows :=
      Keyed.mem_updateWhere.mpr ⟨r, hr, if_pos hp⟩
    have hconfirmed := hafter (set r) hmem
    rw [hset] at hconfirmed
    exact hconfirmed hpending
  · intro hwrite r hr hpending
    change r ∈ (db.appDownstreamVersion.updateWhere p set hset).rows at hr
    change pending db r.key = true at hpending
    show Confirmed (stored db r.key) r.status
    obtain ⟨r₀, hr₀, heq⟩ := Keyed.mem_updateWhere.mp hr
    by_cases hp : p r₀ = true
    · rw [if_pos hp] at heq
      rw [← heq, hset] at hpending ⊢
      exact hwrite r₀ hr₀ hp hpending
    · rw [if_neg hp] at heq
      rw [← heq] at hpending ⊢
      exact h r₀ hr₀ hpending

theorem pending_deployVersion (db : Database) (appId : AppId) (sequence : Int) (now : Timestamp)
    (key : AppId × ClusterId × Int) :
    pending (deployVersion db appId sequence now) key =
      if key.1 = appId then
        (db.appDownstream.find? (key.1, key.2.1)).isSome && sequence < key.2.2
      else pending db key := by
  unfold pending deployVersion
  dsimp only
  rw [Keyed.find?_updateWhere]
  cases hd : db.appDownstream.find? (key.1, key.2.1) with
  | none => simp
  | some d =>
    have hkey : (d.appId, d.clusterId) = (key.1, key.2.1) := (Keyed.find?_eq_some.mp hd).2
    simp only [Prod.mk.injEq] at hkey
    by_cases happ : key.1 = appId <;> simp [hkey.1, happ]

theorem mem_deployVersion {appId : AppId} {sequence : Int} {now : Timestamp}
    {r : AppDownstreamVersionRow} :
    r ∈ (deployVersion db appId sequence now).appDownstreamVersion.rows ↔
      ∃ r₀ ∈ db.appDownstreamVersion.rows,
        (if (r₀.sequence = sequence && r₀.appId = appId : Bool) = true then
          { r₀ with status := "deployed", appliedAt := some now } else r₀) = r := by
  unfold deployVersion
  dsimp only
  rw [Keyed.mem_updateWhere]

/-- A deploy is honest about the versions that it makes pending. -/
theorem pendingConfirmed_deployVersion_iff {appId : AppId}
    (h : ∀ r ∈ db.appDownstreamVersion.rows, r.appId ≠ appId → pending db r.key = true →
      Confirmed (stored db r.key) r.status) (sequence : Int) (now : Timestamp) :
    PendingConfirmed (deployVersion db appId sequence now) ↔ DeployConfirmed db appId sequence := by
  -- the deployed rows are not pending, so every pending row is as it was
  have hrows : PendingConfirmed (deployVersion db appId sequence now) ↔
      ∀ r ∈ db.appDownstreamVersion.rows,
        pending (deployVersion db appId sequence now) r.key = true →
          Confirmed (stored db r.key) r.status := by
    constructor
    · intro hafter r hr hpending
      have hnot : ¬ (r.sequence = sequence && r.appId = appId : Bool) = true := by
        intro hdeployed
        simp only [Bool.and_eq_true, decide_eq_true_eq] at hdeployed
        rw [pending_deployVersion, if_pos hdeployed.2] at hpending
        simp [hdeployed.1] at hpending
      exact hafter r (mem_deployVersion.mpr ⟨r, hr, if_neg hnot⟩) hpending
    · intro hbefore r hr hpending
      obtain ⟨r₀, hr₀, heq⟩ := mem_deployVersion.mp hr
      by_cases hdeployed : (r₀.sequence = sequence && r₀.appId = appId : Bool) = true
      · rw [if_pos hdeployed] at heq
        simp only [Bool.and_eq_true, decide_eq_true_eq] at hdeployed
        rw [← heq, pending_deployVersion, if_pos hdeployed.2] at hpending
        simp [hdeployed.1] at hpending
      · rw [if_neg hdeployed] at heq
        rw [← heq] at hpending ⊢
        exact hbefore r₀ hr₀ hpending
  rw [hrows]
  constructor
  · intro hconfirmed r hr happ habove hdownstream
    apply hconfirmed r hr
    rw [pending_deployVersion, if_pos happ]
    simp [happ, hdownstream, habove]
  · intro hconfirmed r hr hpending
    rw [pending_deployVersion] at hpending
    by_cases happ : r.appId = appId
    · rw [if_pos happ] at hpending
      simp only [Bool.and_eq_true, decide_eq_true_eq, happ] at hpending
      exact hconfirmed r hr happ hpending.2 hpending.1
    · rw [if_neg happ] at hpending
      exact h r hr happ hpending

/-- A downstream without a current version makes all its versions pending. -/
theorem pendingConfirmed_createDownstream_iff (h : PendingConfirmed db) (appId : AppId)
    (downstreamName : String) (clusterId : ClusterId) :
    PendingConfirmed (createDownstream db appId downstreamName clusterId) ↔
      (db.appDownstream.find? (appId, clusterId) = none →
        ∀ r ∈ db.appDownstreamVersion.rows, r.appId = appId → r.clusterId = clusterId →
          -1 < r.sequence → Confirmed (stored db r.key) r.status) := by
  have hpending : ∀ key, pending (createDownstream db appId downstreamName clusterId) key =
      if (appId, clusterId) = (key.1, key.2.1) ∧ db.appDownstream.find? (appId, clusterId) = none
        then decide (-1 < key.2.2) else pending db key := by
    intro key
    unfold pending createDownstream
    dsimp only
    rw [Keyed.find?_upsert]
    by_cases hkey : (appId, clusterId) = (key.1, key.2.1)
    · rw [if_pos hkey, ← hkey]
      cases hd : db.appDownstream.find? (appId, clusterId) with
      | none => simp
      | some d => simp
    · rw [if_neg hkey, if_neg fun hand => hkey hand.1]
  constructor
  · intro hafter hnone r hr happ hcluster habove
    -- the new downstream has no current sequence, which is read as -1
    apply hafter r hr
    rw [hpending, if_pos ⟨Prod.ext happ.symm hcluster.symm, hnone⟩]
    exact decide_eq_true habove
  · intro hguard r hr hp
    rw [hpending] at hp
    split at hp
    next hnew =>
      obtain ⟨hkey, hnone⟩ := hnew
      simp only [Prod.mk.injEq] at hkey
      exact hguard hnone r hr hkey.1.symm hkey.2.symm (of_decide_eq_true hp)
    next => exact h r hr hp

theorem pendingConfirmed_createDownstreamVersion_iff (h : PendingConfirmed db) {db' : Database}
    {id : AppId} {parentSequence : Int} {clusterId : ClusterId} {now : Timestamp}
    {args : DownstreamVersionArgs}
    (hdb : createDownstreamVersion db id parentSequence clusterId now args = .ok db') :
    PendingConfirmed db' ↔
      let key := (id, clusterId, nextDownstreamSequence db id clusterId)
      pending db key = true → Confirmed (stored db key) args.status := by
  unfold createDownstreamVersion at hdb
  obtain ⟨hrows, hframe⟩ := Version.storeInsert_rows hdb
  rw [hframe]
  dsimp only
  constructor
  · intro hafter hpending
    have hmem : args.row id clusterId (nextDownstreamSequence db id clusterId) parentSequence now ∈
        db'.appDownstreamVersion.rows := by
      rw [hrows]
      exact List.mem_append_right _ List.mem_cons_self
    exact hafter _ hmem hpending
  · intro hguard r hr hpending
    dsimp only at hr
    rw [hrows, List.mem_append, List.mem_singleton] at hr
    rcases hr with hold | rfl
    · exact h r hold hpending
    · exact hguard hpending

theorem pendingConfirmed_createVersion_iff {s : Server} (h : PendingConfirmed s.db)
    (env : Version.VersionEnv) (appId : AppId) (filesInDir source : String)
    (currentSequence : Option Int) :
    PendingConfirmed (Version.createVersion env appId filesInDir source currentSequence s).2.db ↔
      VersionGuard s (.createVersion env appId filesInDir source currentSequence) := by
  unfold Version.createVersion VersionGuard
  cases htx : Version.createVersionTx env appId filesInDir source currentSequence s with
  | error e =>
    refine iff_of_true h fun _ _ hok => ?_
    rw [htx] at hok
    cases hok
  | ok committed =>
    obtain ⟨sequence, tx⟩ := committed
    -- the transaction changes neither the downstreams nor the stored results
    have hframe := Version.frame_createVersionTx htx
    have hpending : ∀ key, pending tx key = pending s.db key := by
      intro key
      rw [hframe]
      rfl
    have hstored : ∀ key, stored tx key = stored s.db key := by
      intro key
      rw [hframe]
      rfl
    dsimp only
    constructor
    · intro hafter sequence' tx' hok r hr happ hsequence hp
      rw [htx] at hok
      cases hok
      rw [← hstored]
      rw [← hpending] at hp
      exact hafter r hr hp
    · intro hguard r hr hp
      rw [hpending] at hp
      rw [hstored]
      rcases (Version.created_createVersionTx htx).2.rows r hr with hold | ⟨happ, hsequence, -⟩
      · exact h r hold hp
      · exact hguard sequence tx htx r hr happ hsequence hp

theorem pendingConfirmed_deleteDownstream (h : PendingConfirmed db) {db' : Database} {appId : AppId}
    {clusterId : ClusterId} (hdb : deleteDownstream db appId clusterId = .ok db') :
    PendingConfirmed db' := by
  unfold deleteDownstream at hdb
  split at hdb
  next => cases hdb
  next =>
    cases hdb
    intro r hr hpending
    -- a version that is pending now has a downstream that was not deleted
    apply h r hr
    unfold pending at hpending ⊢
    obtain ⟨d, hd, habove⟩ := (Option.any_eq_true _ _).mp hpending
    obtain ⟨hmem, hkey⟩ := Keyed.find?_eq_some.mp hd
    rw [Keyed.find?_eq_some.mpr ⟨(Keyed.mem_deleteWhere.mp hmem).1, hkey⟩]
    exact habove

theorem deployConfirmed_updateVersions (appId : AppId) (sequence : Int)
    (set : AppDownstreamVersionRow → AppDownstreamVersionRow) (hset : ∀ r, (set r).key = r.key) :
    DeployConfirmed (updateVersions db appId sequence set hset) appId sequence ↔
      DeployConfirmed db appId sequence := by
  unfold DeployConfirmed updateVersions
  dsimp only
  constructor
  · intro hafter r hr happ habove
    have hnot : ¬ (r.appId = appId && r.sequence = sequence : Bool) = true := by
      simp only [Bool.and_eq_true, decide_eq_true_eq, not_and]
      omega
    exact hafter r (Keyed.mem_updateWhere.mpr ⟨r, hr, if_neg hnot⟩) happ habove
  · intro hbefore r hr happ habove
    obtain ⟨r₀, hr₀, heq⟩ := Keyed.mem_updateWhere.mp hr
    by_cases hp : (r₀.appId = appId && r₀.sequence = sequence : Bool) = true
    · -- the row that was written has the sequence itself
      rw [if_pos hp] at heq
      have hkey := hset r₀
      rw [heq] at hkey
      simp only [Prod.mk.injEq] at hkey
      simp only [Bool.and_eq_true, decide_eq_true_eq] at hp
      omega
    · rw [if_neg hp] at heq
      rw [← heq] at happ habove ⊢
      exact hbefore r₀ hr₀ happ habove

theorem pendingConfirmed_addKotsPreflight_iff (h : PendingConfirmed db) (appId : AppId)
    (clusterId : ClusterId) (sequence : Int) (preflightResult : PreflightResult) (now : Timestamp) :
    PendingConfirmed (addKotsPreflight db appId clusterId sequence preflightResult now) ↔
      if sequence = 0 ∧ getPreflightResultState preflightResult = "pass" then
        DeployConfirmed db appId sequence
      else
        WriteConfirmed db (fun r => r.appId = appId && r.sequence = sequence)
          fun r => statusAfterResult r.status := by
  unfold addKotsPreflight
  dsimp only
  split
  next =>
    rw [pendingConfirmed_deployVersion_iff, deployConfirmed_updateVersions]
    -- the write leaves the other apps alone
    intro r hr happ hpending
    unfold updateVersions at hr
    dsimp only at hr
    obtain ⟨r₀, hr₀, heq⟩ := Keyed.mem_updateWhere.mp hr
    by_cases hp : (r₀.appId = appId && r₀.sequence = sequence : Bool) = true
    · rw [if_pos hp] at heq
      simp only [Bool.and_eq_true, decide_eq_true_eq] at hp
      rw [← heq] at happ
      exact absurd hp.1 happ
    · rw [if_neg hp] at heq
      rw [← heq] at hpending ⊢
      exact h r₀ hr₀ hpending
  next => exact pendingConfirmed_write_iff h _ _ _

theorem updateDownstreamDeployStatus_frame (db : Database) (appId : AppId) (clusterId : ClusterId)
    (sequence : Int) (isError : Bool) (output : DeployOutput) :
    updateDownstreamDeployStatus db appId clusterId sequence isError output =
      { db with appDownstreamOutput :=
        (updateDownstreamDeployStatus db appId clusterId sequence isError
          output).appDownstreamOutput } := by
  unfold updateDownstreamDeployStatus
  dsimp only
  split <;> rfl

/-- A result is stored for the current version, which is not pending. -/
theorem pendingConfirmed_putDeployResult (h : PendingConfirmed db) (token : String)
    (body : DeployResultBody) : PendingConfirmed (putDeployResult db token body).1 := by
  unfold putDeployResult
  split
  next => exact h
  next cluster _ =>
    split
    next => exact h
    next =>
      split
      next => exact h
      next => exact h
      next v hcurrent =>
        intro r hr hpending
        have hframe := updateDownstreamDeployStatus_frame db body.appId cluster.id v.sequence
          body.isError body.output
        rw [hframe] at hr hpending
        have hconfirmed := h r hr hpending
        unfold stored at hconfirmed ⊢
        rw [find?_updateDownstreamDeployStatus, if_neg]
        · exact hconfirmed
        · -- the result is that of a row at the current sequence, and `r` is above it
          rintro ⟨hkey, -⟩
          obtain ⟨row, hdeployed, -, rfl⟩ := getCurrentVersion_eq_some.mp hcurrent
          change pending db r.key = true at hpending
          rw [hkey] at hpending
          unfold pending at hpending
          unfold deployedSequence at hdeployed
          obtain ⟨d, hd, habove⟩ := (Option.any_eq_true _ _).mp hpending
          dsimp only at hd habove
          rw [hd] at hdeployed
          simp only [Option.bind_some] at hdeployed
          rw [hdeployed] at habove
          simp at habove

end Step

theorem pendingConfirmed_version_iff {s s' : Server} {a : CurrentVersion.Action}
    (hs : PendingConfirmed s.db) (hstep : CurrentVersion.machine.step s a = some s') :
    PendingConfirmed s'.db ↔ VersionGuard s a := by
  cases a with
  | deployVersion appId sequence now =>
    cases hstep
    exact pendingConfirmed_deployVersion_iff (fun r hr _ => hs r hr) sequence now
  | createDownstream appId downstreamName clusterId =>
    cases hstep
    exact pendingConfirmed_createDownstream_iff hs appId downstreamName clusterId
  | createDownstreamVersion appId parentSequence clusterId now args =>
    cases hstep
    obtain ⟨db', hdb⟩ :=
      Numbering.createDownstreamVersion_isOk s.db appId parentSequence clusterId now args
    have hiff := pendingConfirmed_createDownstreamVersion_iff hs hdb
    unfold committed
    rw [hdb]
    exact hiff
  | createVersion env appId filesInDir source currentSequence =>
    cases hstep
    exact pendingConfirmed_createVersion_iff hs env appId filesInDir source currentSequence
  | deleteDownstream appId clusterId =>
    cases hstep
    unfold committed
    split
    next => exact iff_of_true hs trivial
    next hdb => exact iff_of_true (pendingConfirmed_deleteDownstream hs hdb) trivial
  | addKotsPreflight appId clusterId sequence preflightResult now =>
    cases hstep
    exact pendingConfirmed_addKotsPreflight_iff hs appId clusterId sequence preflightResult now

/-- A step from an honest state leads to an honest state exactly when it meets the condition. -/
theorem honest_step_iff {s s' : Server} {a : Action} (hs : Honest s.db)
    (hstep : machine.step s a = some s') : Honest s'.db ↔ Guard s a := by
  rw [honest_iff] at hs ⊢
  cases a with
  | version a => exact pendingConfirmed_version_iff hs hstep
  | putDeployResult token body =>
    cases hstep
    exact iff_of_true (pendingConfirmed_putDeployResult hs token body) trivial
  | updateDownstreamsStatus appId sequence status statusInfo =>
    cases hstep
    exact pendingConfirmed_write_iff hs _ _ _
  | setDownstreamVersionStatus appId sequence status =>
    cases hstep
    exact pendingConfirmed_write_iff hs _ _ _
  | ignorePreflightPermissionErrors appId clusterId sequence =>
    cases hstep
    exact pendingConfirmed_write_iff hs _ _ _
  | retryPreflights appId clusterId sequence =>
    cases hstep
    exact pendingConfirmed_write_iff hs _ _ _

def pendingRow (sequence : Int) : AppDownstreamVersionRow where
  appId := "app"
  clusterId := "c1"
  sequence := sequence
  parentSequence := sequence
  status := "pending"

/-- Two versions of an app on one cluster, neither of which is deployed. -/
def twoPending : Server where
  db :=
    { app := .single { id := "app", name := "App", slug := "app" }
      cluster := .single { id := "c1", title := "first", token := "t1" }
      appDownstream := .single { appId := "app", clusterId := "c1", downstreamName := "first" }
      appDownstreamVersion := ⟨[pendingRow 0, pendingRow 1], by decide⟩ }

instance (db : Database) : Decidable (PendingConfirmed db) :=
  inferInstanceAs (Decidable (∀ r ∈ db.appDownstreamVersion.rows, _ → _))

instance (db : Database) (appId : AppId) (sequence : Int) :
    Decidable (DeployConfirmed db appId sequence) :=
  inferInstanceAs (Decidable (∀ r ∈ db.appDownstreamVersion.rows, _ → _ → _ → _))

def report (isError : Bool) : DeployResultBody where
  appId := "app"
  isError := isError
  dryrunStdout := none
  dryrunStderr := none
  applyStdout := none
  applyStderr := none

theorem init_twoPending : Init twoPending :=
  (honest_iff twoPending.db).mpr (by decide)

end Kotsadm.ConfirmedStatus
