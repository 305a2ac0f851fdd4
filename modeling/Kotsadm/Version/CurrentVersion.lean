import Kotsadm.Lib.Machine
import Kotsadm.Sockets.DeployedVersion
import Kotsadm.Version.FirstVersion

/-!
# CurrentVersion — the version that a downstream points to

`app_downstream.current_sequence` is no foreign key.  `deployVersion` writes one sequence into every
downstream of the app; which versions a cluster has depends on when it became a downstream.
-/

namespace Kotsadm.CurrentVersion

open KotsAppStore Version

/-- `getKotsDownstreamHistory`, from the ids of the app and of the cluster on. -/
def getKotsDownstreamHistory (db : Database) (appId : AppId) (clusterId : ClusterId) :
    Except String (List KotsVersion) := do
  let current ← getCurrentVersion db appId clusterId
  let past ← listPastVersions db appId clusterId
  let pending ← listPendingVersions db appId clusterId
  return match current with
    | none => pending ++ past
    | some current => pending ++ [current] ++ past

/-! ## Runs -/

inductive Action where
  | deployVersion (appId : AppId) (sequence : Int) (now : Timestamp)
  | createDownstream (appId : AppId) (downstreamName : String) (clusterId : ClusterId)
  | createDownstreamVersion (appId : AppId) (parentSequence : Int) (clusterId : ClusterId)
      (now : Timestamp) (args : DownstreamVersionArgs)
  | createVersion (env : VersionEnv) (appId : AppId) (filesInDir source : String)
      (currentSequence : Option Int)
  | deleteDownstream (appId : AppId) (clusterId : ClusterId)
  | addKotsPreflight (appId : AppId) (clusterId : ClusterId) (sequence : Int)
      (preflightResult : PreflightResult) (now : Timestamp)

/-- A statement that is refused leaves the server as it was. -/
def committed (s : Server) : Except String Database → Server
  | .error _ => s
  | .ok db => { s with db := db }

def machine : Machine Server Action where
  step s
    | .deployVersion appId sequence now =>
      some { s with db := KotsAppStore.deployVersion s.db appId sequence now }
    | .createDownstream appId downstreamName clusterId =>
      some { s with db := KotsAppStore.createDownstream s.db appId downstreamName clusterId }
    | .createDownstreamVersion appId parentSequence clusterId now args =>
      some (committed s
        (KotsAppStore.createDownstreamVersion s.db appId parentSequence clusterId now args))
    | .createVersion env appId filesInDir source currentSequence =>
      some (Version.createVersion env appId filesInDir source currentSequence s).2
    | .deleteDownstream appId clusterId =>
      some (committed s (KotsAppStore.deleteDownstream s.db appId clusterId))
    | .addKotsPreflight appId clusterId sequence preflightResult now =>
      some { s with
        db := KotsAppStore.addKotsPreflight s.db appId clusterId sequence preflightResult now }

/-- Nothing has been deployed yet; everything else is arbitrary. -/
def Init (s : Server) : Prop := ∀ d ∈ s.db.appDownstream.rows, d.currentSequence = none

/-! ## The property and the condition -/

/-- The cluster has a version of the sequence. -/
def HasVersion (db : Database) (key : AppId × ClusterId × Int) : Prop :=
  (db.appDownstreamVersion.find? key).isSome

def Points (db : Database) : Prop :=
  ∀ d ∈ db.appDownstream.rows, ∀ sequence, d.currentSequence = some sequence →
    HasVersion db (d.appId, d.clusterId, sequence)

/-- The message that ends a tick of `deployLoop` is about an app or a cluster without a row. -/
def Missing (msg : String) : Prop :=
  msg = "not found" ∨ msg = "Cannot read property 'cluster_type' of undefined"

/-- Every downstream points to one of its versions, or to none, and what reads it finds the version. -/
structure Found (db : Database) : Prop where
  points : Points db
  getCurrentVersion : ∀ d ∈ db.appDownstream.rows,
    (KotsAppStore.getCurrentVersion db d.appId d.clusterId).isOk
  history : ∀ d ∈ db.appDownstream.rows, (getKotsDownstreamHistory db d.appId d.clusterId).isOk
  deployLoop : ∀ (env : Env) (s : DeployState) (msg : String), s.db = db →
    (forEach (deployCluster env) s.clusterSocketHistory s).2 = some msg → Missing msg

/-- Every downstream of the app has a version of the sequence. -/
def Covered (db : Database) (appId : AppId) (sequence : Int) : Prop :=
  ∀ d ∈ db.appDownstream.rows, d.appId = appId → HasVersion db (appId, d.clusterId, sequence)

/-- What is deployed, every cluster of the app has. -/
def Guard (s : Server) : Action → Prop
  | .deployVersion appId sequence _ => Covered s.db appId sequence
  | .addKotsPreflight appId _ sequence preflightResult _ =>
    sequence = 0 → getPreflightResultState preflightResult = "pass" → Covered s.db appId sequence
  | _ => True

/-! ## What a reader finds -/

section Readers

variable {db : Database}

theorem getCurrentVersion_isOk (h : Points db) {d : AppDownstreamRow}
    (hd : d ∈ db.appDownstream.rows) :
    (getCurrentVersion db d.appId d.clusterId).isOk := by
  have hfind : db.appDownstream.find? (d.appId, d.clusterId) = some d :=
    Keyed.find?_isSome_of_mem hd
  unfold getCurrentVersion
  rw [hfind]
  dsimp only
  cases hsequence : d.currentSequence with
  | none => rfl
  | some sequence =>
    obtain ⟨row, hrow⟩ := Option.isSome_iff_exists.mp (h d hd sequence hsequence)
    dsimp only
    rw [hrow]
    rfl

theorem history_isOk (h : Points db) {d : AppDownstreamRow} (hd : d ∈ db.appDownstream.rows) :
    (getKotsDownstreamHistory db d.appId d.clusterId).isOk := by
  have hfind : db.appDownstream.find? (d.appId, d.clusterId) = some d :=
    Keyed.find?_isSome_of_mem hd
  obtain ⟨current, hcurrent⟩ := Except.eq_ok_of_isOk (getCurrentVersion_isOk h hd)
  have hpast : ∃ past, listPastVersions db d.appId d.clusterId = .ok past := by
    unfold listPastVersions
    rw [hfind]
    dsimp only
    split
    next => exact ⟨_, rfl⟩
    next => exact ⟨_, rfl⟩
  obtain ⟨past, hpast⟩ := hpast
  have hpending : ∃ pending, listPendingVersions db d.appId d.clusterId = .ok pending := by
    unfold listPendingVersions
    rw [hfind]
    exact ⟨_, rfl⟩
  obtain ⟨pending, hpending⟩ := hpending
  unfold getKotsDownstreamHistory
  rw [hcurrent, hpast, hpending]
  rfl

theorem missing_of_listApps {clusterId : ClusterId} {msg : String}
    (h : listAppsForCluster db clusterId = .error msg) : Missing msg := by
  unfold listAppsForCluster at h
  revert h
  generalize (db.appDownstream.rows.filter fun r => r.clusterId = clusterId).map (·.appId) = ids
  intro h
  induction ids with
  | nil => cases h
  | cons id ids ih =>
    rw [List.mapM_cons] at h
    unfold KotsAppStore.getApp at h
    cases hrow : db.app.find? id with
    | none =>
      rw [hrow] at h
      cases h
      exact .inl rfl
    | some row =>
      rw [hrow] at h
      cases hrest : ids.mapM (KotsAppStore.getApp db) with
      | error msg' =>
        have hmsg : msg' = msg := by
          unfold KotsAppStore.getApp at hrest
          rw [hrest] at h
          cases h
          rfl
        rw [hmsg] at hrest
        exact ih hrest
      | ok apps =>
        unfold KotsAppStore.getApp at hrest
        rw [hrest] at h
        cases h

/-- The apps of a cluster are apps of its downstreams. -/
theorem downstream_of_listApps {clusterId : ClusterId} {apps : List KotsApp} {app : KotsApp}
    (h : listAppsForCluster db clusterId = .ok apps) (happ : app ∈ apps) :
    ∃ d ∈ db.appDownstream.rows, d.appId = app.id ∧ d.clusterId = clusterId := by
  unfold listAppsForCluster at h
  obtain ⟨id, hid, hget⟩ := (List.mapM_eq_ok h).2 app happ
  obtain ⟨d, hd, hdid⟩ := List.mem_map.mp hid
  rw [List.mem_filter, decide_eq_true_eq] at hd
  exact ⟨d, hd.1, hdid.trans (getApp_id hget).symm, hd.2⟩

end Readers

/-! ### deployLoop -/

section Loop

variable {env : Env} {history : ClusterSocketHistory} {app : KotsApp} {s : DeployState}

/-- An iteration writes a status, if anything. -/
theorem frame_deployApp (env : Env) (history : ClusterSocketHistory) (app : KotsApp)
    (s : DeployState) :
    (deployApp env history app s).1.db.appDownstream = s.db.appDownstream ∧
      ∀ key, HasVersion (deployApp env history app s).1.db key ↔ HasVersion s.db key := by
  rcases deployApp_cases env history app s with hsame | ⟨sequence, err, hfail⟩ | hemit
  · rw [hsame]
    exact ⟨rfl, fun _ => Iff.rfl⟩
  · rw [hfail]
    refine ⟨rfl, fun key => ?_⟩
    unfold HasVersion updateDownstreamsStatus
    dsimp only
    rw [Keyed.find?_updateWhere, Option.isSome_map]
  · obtain ⟨v, cluster, args, informers, -, -, -, -, -, heq⟩ := hemit
    rw [heq]
    exact ⟨rfl, fun _ => Iff.rfl⟩

theorem points_deployApp (h : Points s.db) : Points (deployApp env history app s).1.db := by
  obtain ⟨hdownstream, hversions⟩ := frame_deployApp env history app s
  intro d hd sequence hsequence
  rw [hdownstream] at hd
  exact (hversions _).mpr (h d hd sequence hsequence)

theorem missing_deployApp (h : Points s.db)
    (happ : ∃ d ∈ s.db.appDownstream.rows, d.appId = app.id ∧ d.clusterId = history.clusterId)
    {msg : String} (hmsg : (deployApp env history app s).2 = some msg) : Missing msg := by
  obtain ⟨d, hd, hid, hcluster⟩ := happ
  have hok := getCurrentVersion_isOk h hd
  rw [hid, hcluster] at hok
  unfold deployApp at hmsg
  split at hmsg
  next => cases hmsg
  next =>
    split at hmsg
    next heq =>
      rw [heq] at hok
      cases hok
    next => cases hmsg
    next v _ =>
      split at hmsg
      next =>
        split at hmsg
        next => cases hmsg
        next =>
          split at hmsg
          next msg' hcluster =>
            cases hmsg
            unfold getCluster at hcluster
            split at hcluster
            next =>
              cases hcluster
              exact .inr rfl
            next => cases hcluster
          next => split at hmsg <;> cases hmsg
      next => cases hmsg

theorem points_deployCluster (h : Points s.db) : Points (deployCluster env history s).1.db := by
  unfold deployCluster
  split
  next => exact h
  next apps _ =>
    exact forEach_inv (I := fun t => Points t.db) apps (fun app _ t ht => points_deployApp ht) s h

theorem missing_deployCluster (h : Points s.db) {msg : String}
    (hmsg : (deployCluster env history s).2 = some msg) : Missing msg := by
  unfold deployCluster at hmsg
  split at hmsg
  next hlist =>
    cases hmsg
    exact missing_of_listApps hlist
  next apps hlist =>
    -- the downstreams stay those that the apps were listed from
    refine forEach_error (I := fun t => Points t.db ∧ t.db.appDownstream = s.db.appDownstream) apps
      ?_ ?_ s ⟨h, rfl⟩ hmsg
    · intro app _ t ht
      exact ⟨points_deployApp ht.1, (frame_deployApp env history app t).1.trans ht.2⟩
    · intro app happ t e ht he
      obtain ⟨d, hd, hid, hcluster⟩ := downstream_of_listApps hlist happ
      rw [← ht.2] at hd
      exact missing_deployApp ht.1 ⟨d, hd, hid, hcluster⟩ he

theorem missing_deployLoop (h : Points s.db) {msg : String}
    (hmsg : (forEach (deployCluster env) s.clusterSocketHistory s).2 = some msg) : Missing msg :=
  forEach_error (I := fun t => Points t.db) s.clusterSocketHistory
    (fun _ _ _ ht => points_deployCluster ht) (fun _ _ _ _ ht he => missing_deployCluster ht he) s h
    hmsg

end Loop

theorem found_of_points {db : Database} (h : Points db) : Found db where
  points := h
  getCurrentVersion := fun _ hd => getCurrentVersion_isOk h hd
  history := fun _ hd => history_isOk h hd
  deployLoop := by
    intro env s msg hdb hmsg
    rw [← hdb] at h
    exact missing_deployLoop h hmsg

/-! ## Every step -/

section Step

variable {db : Database}

/-- No downstream gets a new sequence, and no version is lost. -/
theorem points_grows {db' : Database} (h : Points db)
    (hdownstream : ∀ d ∈ db'.appDownstream.rows, ∀ sequence, d.currentSequence = some sequence →
      ∃ d' ∈ db.appDownstream.rows, d'.key = d.key ∧ d'.currentSequence = some sequence)
    (hversions : ∀ key, HasVersion db key → HasVersion db' key) : Points db' := by
  intro d hd sequence hsequence
  obtain ⟨d', hd', hkey, hsequence'⟩ := hdownstream d hd sequence hsequence
  have hversion := h d' hd' sequence hsequence'
  simp only [Prod.mk.injEq] at hkey
  rw [hkey.1, hkey.2] at hversion
  exact hversions _ hversion

/-- A deployment of what every cluster has, and no other, keeps the pointers. -/
theorem points_deployVersion_iff (h : Points db) (appId : AppId) (sequence : Int)
    (now : Timestamp) : Points (deployVersion db appId sequence now) ↔ Covered db appId sequence := by
  have hversions : ∀ key, HasVersion (deployVersion db appId sequence now) key ↔ HasVersion db key := by
    intro key
    unfold HasVersion
    rw [isSome_find?_deployVersion]
  constructor
  · intro hpoints d hd happ
    have hmem : ({ d with currentSequence := some sequence } : AppDownstreamRow) ∈
        (deployVersion db appId sequence now).appDownstream.rows := by
      unfold deployVersion
      dsimp only
      rw [Keyed.mem_updateWhere]
      exact ⟨d, hd, if_pos (by simp [happ])⟩
    have hversion := hpoints _ hmem sequence rfl
    rw [hversions, happ] at hversion
    exact hversion
  · intro hcovered d hd sequence' hsequence
    unfold deployVersion at hd
    dsimp only at hd
    rw [Keyed.mem_updateWhere] at hd
    obtain ⟨d₀, hd₀, heq⟩ := hd
    rw [hversions]
    by_cases happ : d₀.appId = appId
    · rw [if_pos (by simp [happ])] at heq
      rw [← heq] at hsequence ⊢
      cases hsequence
      dsimp only
      rw [happ]
      exact hcovered d₀ hd₀ happ
    · rw [if_neg (by simp [happ])] at heq
      rw [← heq] at hsequence ⊢
      exact h d₀ hd₀ sequence' hsequence

theorem points_createDownstream (h : Points db) (appId : AppId) (downstreamName : String)
    (clusterId : ClusterId) : Points (createDownstream db appId downstreamName clusterId) := by
  refine points_grows h ?_ fun _ hversion => hversion
  intro d hd sequence hsequence
  have hfind : (createDownstream db appId downstreamName clusterId).appDownstream.find? d.key =
      some d := Keyed.find?_isSome_of_mem hd
  unfold createDownstream at hfind
  dsimp only at hfind
  rw [Keyed.find?_upsert] at hfind
  split at hfind
  next =>
    cases hrow : db.appDownstream.find? d.key with
    | none =>
      -- a new downstream has no current sequence
      rw [hrow] at hfind
      cases hfind
      cases hsequence
    | some d' =>
      rw [hrow] at hfind
      cases hfind
      obtain ⟨hd', hkey⟩ := Keyed.find?_eq_some.mp hrow
      exact ⟨d', hd', hkey, hsequence⟩
  next => exact ⟨d, (Keyed.find?_eq_some.mp hfind).1, rfl, hsequence⟩

theorem points_createDownstreamVersion {db' : Database} (h : Points db) {id : AppId}
    {parentSequence : Int} {clusterId : ClusterId} {now : Timestamp} {args : DownstreamVersionArgs}
    (hdb : KotsAppStore.createDownstreamVersion db id parentSequence clusterId now args = .ok db') :
    Points db' := by
  unfold KotsAppStore.createDownstreamVersion at hdb
  have hfind := find?_storeInsert hdb
  rw [(storeInsert_rows hdb).2]
  refine points_grows h (fun d hd sequence hsequence => ⟨d, hd, rfl, hsequence⟩) fun key hkey => ?_
  exact (hfind key).mpr (.inl hkey)

theorem points_createVersion {s : Server} (h : Points s.db) (env : VersionEnv) (appId : AppId)
    (filesInDir source : String) (currentSequence : Option Int) :
    Points (Version.createVersion env appId filesInDir source currentSequence s).2.db := by
  unfold Version.createVersion
  split
  next => exact h
  next sequence tx htx =>
    have hrows := find?_createVersionTx htx
    refine points_grows h ?_ fun key hkey => (hrows key).mpr (.inl hkey)
    intro d hd sequence' hsequence
    dsimp only at hd
    rw [frame_createVersionTx htx] at hd
    exact ⟨d, hd, rfl, hsequence⟩

theorem points_deleteDownstream {db' : Database} (h : Points db) {appId : AppId}
    {clusterId : ClusterId} (hdb : deleteDownstream db appId clusterId = .ok db') : Points db' := by
  unfold deleteDownstream at hdb
  split at hdb
  next => cases hdb
  next =>
    cases hdb
    refine points_grows h ?_ fun _ hversion => hversion
    intro d hd sequence hsequence
    exact ⟨d, (Keyed.mem_deleteWhere.mp hd).1, rfl, hsequence⟩

theorem points_addKotsPreflight_iff (h : Points db) (appId : AppId) (clusterId : ClusterId)
    (sequence : Int) (preflightResult : PreflightResult) (now : Timestamp) :
    Points (addKotsPreflight db appId clusterId sequence preflightResult now) ↔
      (sequence = 0 → getPreflightResultState preflightResult = "pass" →
        Covered db appId sequence) := by
  unfold addKotsPreflight
  dsimp only
  generalize hdb : updateVersions db appId sequence _ _ = db'
  have hversions : ∀ key, HasVersion db' key ↔ HasVersion db key := by
    intro key
    rw [← hdb]
    unfold HasVersion updateVersions
    dsimp only
    rw [Keyed.find?_updateWhere, Option.isSome_map]
  have hdownstream : db'.appDownstream = db.appDownstream := by
    rw [← hdb]
    rfl
  have hpoints : Points db' := by
    refine points_grows h ?_ fun key hkey => (hversions key).mpr hkey
    intro d hd sequence hsequence
    rw [hdownstream] at hd
    exact ⟨d, hd, rfl, hsequence⟩
  have hcovered : Covered db' appId sequence ↔ Covered db appId sequence := by
    unfold Covered
    rw [hdownstream]
    simp only [hversions]
  split
  next hpass =>
    rw [points_deployVersion_iff hpoints, hcovered, forall_prop_of_true hpass.1,
      forall_prop_of_true hpass.2]
  next hpass => exact iff_of_true hpoints fun hzero hstate => absurd ⟨hzero, hstate⟩ hpass

end Step

theorem points_committed {s : Server} (h : Points s.db) {result : Except String Database}
    (hresult : ∀ db, result = .ok db → Points db) : Points (committed s result).db := by
  cases result with
  | error e => exact h
  | ok db => exact hresult db rfl

/-- A step keeps the pointers exactly when it meets the condition. -/
theorem points_step_iff {s s' : Server} {a : Action} (hs : Points s.db)
    (hstep : machine.step s a = some s') : Points s'.db ↔ Guard s a := by
  cases a with
  | deployVersion appId sequence now =>
    cases hstep
    exact points_deployVersion_iff hs appId sequence now
  | createDownstream appId downstreamName clusterId =>
    cases hstep
    exact iff_of_true (points_createDownstream hs appId downstreamName clusterId) trivial
  | createDownstreamVersion appId parentSequence clusterId now args =>
    cases hstep
    exact iff_of_true (points_committed hs fun _ => points_createDownstreamVersion hs) trivial
  | createVersion env appId filesInDir source currentSequence =>
    cases hstep
    exact iff_of_true (points_createVersion hs env appId filesInDir source currentSequence) trivial
  | deleteDownstream appId clusterId =>
    cases hstep
    exact iff_of_true (points_committed hs fun _ => points_deleteDownstream hs) trivial
  | addKotsPreflight appId clusterId sequence preflightResult now =>
    cases hstep
    exact points_addKotsPreflight_iff hs appId clusterId sequence preflightResult now

theorem points_everyState : machine.EveryState Init Guard fun s => Points s.db := by
  apply Machine.everyState_of_inv
  · intro s hs d hd sequence hsequence
    rw [hs d hd] at hsequence
    cases hsequence
  · intro s a s' hs hguard hstep
    exact (points_step_iff hs hstep).mpr hguard

/-- **Current versions.**  As long as only versions that every cluster of the app has are deployed,
every downstream points to one of its versions, and what reads it finds the version. -/
theorem found_everyState {s : Server} (hs : machine.Reachable Init Guard s) : Found s.db :=
  found_of_points (points_everyState s hs)

/-! ## A cluster added later -/

/-- An app of one cluster, and a second cluster. -/
def twoClusters : Server where
  db := {
    app := .single { id := "app", name := "App", slug := "app" }
    appDownstream := .single { appId := "app", clusterId := "c1", downstreamName := "first" }
    cluster := ⟨[{ id := "c1", title := "first", token := "t1" },
                 { id := "c2", title := "second", token := "t2" }], by decide⟩ }

def titledEnv : VersionEnv where
  loadKotsKindsFromPath := fun _ => .ok { title := "App" }

theorem init_twoClusters : Init twoClusters := by
  intro d hd
  rw [List.mem_singleton.mp hd]

/-- The installed version is deployed to the only cluster. -/
theorem found_installed : ∃ s, machine.Reachable Init Guard s ∧
    s.db.appDownstream.rows.map (·.currentSequence) = [some 0] ∧ Found s.db := by
  have hinstalled := (Machine.Reachable.init (M := machine) (G := Guard) init_twoClusters).run
    [.createVersion titledEnv "app" "/tmp" "Online Install" none] (by simp [Guard]) rfl
  let installed := (createVersion titledEnv "app" "/tmp" "Online Install" none twoClusters).2
  have hcovered : Guard installed (.deployVersion "app" 0 10) := by
    intro d hd _
    change d ∈ twoClusters.db.appDownstream.rows at hd
    rw [List.mem_singleton.mp hd]
    rfl
  have hdeployed := hinstalled.step hcovered rfl
  exact ⟨_, hdeployed, rfl, found_everyState hdeployed⟩

/-- The second cluster becomes a downstream after the install, and the installed version is
deployed. -/
theorem not_found_laterCluster : ¬ machine.EveryState Init Machine.Free fun s => Found s.db := by
  apply Machine.not_everyState init_twoClusters
    [.createVersion titledEnv "app" "/tmp" "Online Install" none,
      .createDownstream "app" "second" "c2", .deployVersion "app" 0 10] rfl
  intro h
  have hversion := h.points _ (List.mem_cons_of_mem _ List.mem_cons_self) 0 rfl
  revert hversion
  unfold HasVersion
  decide

end Kotsadm.CurrentVersion
