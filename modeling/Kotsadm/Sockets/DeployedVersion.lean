import Mathlib
import Kotsadm.Sockets.DeploySocket

/-!
# DeployedVersion — which version each path takes for the deployed one

`deployLoop` deploys, `undeployApp` prunes and `getDesiredState` lists the manifests of some
sequence of the app.  Each section reads off which one.
-/

namespace Kotsadm

open KotsAppStore

/-- `text` encodes the manifests of `sequence`, rendered for the cluster. -/
def ManifestsOf (env : Env) (appId : AppId) (cluster : ClusterRow) (sequence text : String) : Prop :=
  ∃ kustomizeVersion rendered,
    env.render appId sequence (overlayPath cluster) kustomizeVersion = .ok rendered ∧
      text = env.base64 rendered

theorem emitInformers_eq (env : Env) (s : DeployState) (history : ClusterSocketHistory)
    (app : KotsApp) :
    ∃ informers, emitInformers env s history app = { s with appInformers := informers } := by
  unfold emitInformers
  split
  next informers _ => exact ⟨(history.clusterId, app.id, informers) :: s.appInformers, rfl⟩
  next => exact ⟨s.appInformers, rfl⟩

/-- Everything an iteration of `deployLoop` can do: nothing, record a failure, or emit the version
the downstream runs. -/
theorem deployApp_cases (env : Env) (history : ClusterSocketHistory) (app : KotsApp)
    (s : DeployState) :
    (deployApp env history app s).1 = s ∨
    (∃ sequence err, (deployApp env history app s).1 =
      { s with db := updateDownstreamsStatus s.db app.id sequence "failed" err }) ∨
    ∃ v cluster args informers, restoreInProgress app = false ∧
      getCurrentVersion s.db app.id history.clusterId = .ok (some v) ∧
      getCluster s.db history.clusterId = .ok cluster ∧
      s.lastDeployedSequences history.socketId app.id ≠ some v.sequence ∧
      deployArgs env s.db app cluster v.sequence = .ok args ∧
      (deployApp env history app s).1 =
        { emitDeploy s history app v.sequence args with appInformers := informers } := by
  unfold deployApp
  split
  next => exact .inl rfl
  next hrestore =>
    split
    next => exact .inl rfl
    next => exact .inl rfl
    next v hv =>
      split
      next =>
        split
        next => exact .inl rfl
        next hlast =>
          split
          next => exact .inl rfl
          next cluster hcluster =>
            split
            next err herr => exact .inr (.inl ⟨v.sequence, err, rfl⟩)
            next args hargs =>
              obtain ⟨informers, hinformers⟩ :=
                emitInformers_eq env (emitDeploy s history app v.sequence args) history app
              have hrestore' : restoreInProgress app = false := by simpa using hrestore
              exact .inr (.inr ⟨v, cluster, args, informers, hrestore', hv, hcluster, hlast, hargs,
                hinformers⟩)
      next => exact .inl rfl

theorem deployArgs_manifests {env : Env} {db : Database} {app : KotsApp} {cluster : ClusterRow}
    {sequence : Int} {args : ApplicationManifests}
    (h : deployArgs env db app cluster sequence = .ok args) :
    args.appId = app.id ∧ ManifestsOf env app.id cluster (toString sequence) args.manifests := by
  obtain ⟨spec, -, h⟩ := Except.bind_eq_ok.mp h
  obtain ⟨rendered, hrendered, h⟩ := Except.bind_eq_ok.mp h
  obtain ⟨secret, -, h⟩ := Except.bind_eq_ok.mp h
  obtain ⟨previous, -, h⟩ := Except.bind_eq_ok.mp h
  cases h
  exact ⟨rfl, _, _, hrendered, rfl⟩

theorem deployArgs_previousManifests {env : Env} {db : Database} {app : KotsApp}
    {cluster : ClusterRow} {sequence previous : Int} {args : ApplicationManifests}
    (h : deployArgs env db app cluster sequence = .ok args)
    (hprevious : getPreviouslyDeployedSequence db app.id cluster.id sequence = some previous) :
    ManifestsOf env app.id cluster (toString previous) args.previousManifests := by
  obtain ⟨spec, -, h⟩ := Except.bind_eq_ok.mp h
  obtain ⟨rendered, -, h⟩ := Except.bind_eq_ok.mp h
  obtain ⟨secret, -, h⟩ := Except.bind_eq_ok.mp h
  obtain ⟨text, htext, h⟩ := Except.bind_eq_ok.mp h
  cases h
  rw [hprevious] at htext
  obtain ⟨previousRendered, hrendered, heq⟩ := Except.map_eq_ok.mp htext
  exact ⟨_, _, hrendered, heq.symm⟩

theorem undeployArgs_previousManifests {env : Env} {db : Database} {app : KotsApp}
    {cluster : ClusterRow} {args : ApplicationManifests}
    (h : undeployArgs env db app cluster = .ok args) :
    ∃ sequence, app.currentSequence = some sequence ∧
      ManifestsOf env app.id cluster (toString sequence) args.previousManifests := by
  obtain ⟨spec, -, h⟩ := Except.bind_eq_ok.mp h
  obtain ⟨text, htext, h⟩ := Except.bind_eq_ok.mp h
  obtain ⟨rendered, hrendered, h⟩ := Except.bind_eq_ok.mp h
  obtain ⟨namespaces, -, h⟩ := Except.bind_eq_ok.mp h
  cases h
  cases hcurrent : app.currentSequence with
  | none =>
    rw [hcurrent] at htext
    cases htext
  | some sequence =>
    rw [hcurrent] at htext
    cases htext
    exact ⟨sequence, rfl, _, _, hrendered, rfl⟩

theorem desiredManifests_manifests {env : Env} {db : Database} {app : KotsApp}
    {cluster : ClusterRow} {args : ApplicationManifests}
    (h : desiredManifests env db app cluster = .ok (some args)) :
    (∃ v, getCurrentVersion db app.id cluster.id = .ok (some v) ∧ v.sequence > -1) ∧
      ManifestsOf env app.id cluster (app.currentSequence.elim "null" toString) args.manifests := by
  unfold desiredManifests at h
  split at h
  next => cases h
  next => cases h
  next v hv =>
    split at h
    next hdeployed =>
      obtain ⟨spec, -, h⟩ := Except.bind_eq_ok.mp h
      obtain ⟨rendered, hrendered, h⟩ := Except.bind_eq_ok.mp h
      cases h
      exact ⟨⟨v, hv, hdeployed⟩, _, _, hrendered, rfl⟩
    next => cases h

theorem getKotsAppSpec_version {env : Env} {db : Database} {appId : AppId} {clusterId : ClusterId}
    {spec : Option ApplicationSpec} (h : getKotsAppSpec env db appId clusterId = .ok spec) :
    ∃ version, getCurrentVersion db appId clusterId = .ok version := by
  unfold getKotsAppSpec at h
  split at h
  next => cases h
  next hversion => exact ⟨none, hversion⟩
  next v hversion => exact ⟨some v, hversion⟩

theorem undeployArgs_version {env : Env} {db : Database} {app : KotsApp} {cluster : ClusterRow}
    {args : ApplicationManifests} (h : undeployArgs env db app cluster = .ok args) :
    ∃ version, getCurrentVersion db app.id cluster.id = .ok version := by
  obtain ⟨spec, hspec, -⟩ := Except.bind_eq_ok.mp h
  exact getKotsAppSpec_version hspec

theorem getApp_id {db : Database} {appId : AppId} {app : KotsApp} (h : getApp db appId = .ok app) :
    app.id = appId := by
  unfold getApp at h
  split at h
  next => cases h
  next row hrow =>
    cases h
    exact (Keyed.find?_eq_some.mp hrow).2

theorem getCluster_id {db : Database} {clusterId : ClusterId} {cluster : ClusterRow}
    (h : getCluster db clusterId = .ok cluster) : cluster.id = clusterId := by
  unfold getCluster at h
  split at h
  next => cases h
  next row hrow =>
    cases h
    exact (Keyed.find?_eq_some.mp hrow).2

/-! ## When the three paths agree -/

/-- `text` encodes the manifests of the sequence deployed to the cluster. -/
def DeployedManifests (env : Env) (db : Database) (appId : AppId) (cluster : ClusterRow)
    (text : String) : Prop :=
  ∃ d, deployedSequence db appId cluster.id = some d ∧
    ManifestsOf env appId cluster (toString d) text

/-- What is deployed, what is pruned before a restore and what is listed as present are the
manifests of the deployed sequence. -/
def PathsAgree (db : Database) (appId : AppId) (clusterId : ClusterId) : Prop :=
  ∀ env app cluster, getApp db appId = .ok app → getCluster db clusterId = .ok cluster →
    (∀ history s e, s.db = db → history.clusterId = clusterId →
      (deployApp env history app s).1.deploys = e :: s.deploys →
      DeployedManifests env db appId cluster e.args.manifests) ∧
    (∀ args, undeployArgs env db app cluster = .ok args →
      DeployedManifests env db appId cluster args.previousManifests) ∧
    (∀ args, desiredManifests env db app cluster = .ok (some args) →
      DeployedManifests env db appId cluster args.manifests)

/-- The newest version of the app is the one deployed to the cluster; or the app has no version
and no sequence from 0 on is deployed. -/
def NewestIsDeployed (db : Database) (app : KotsApp) (clusterId : ClusterId) : Prop :=
  app.currentSequence = deployedSequence db app.id clusterId ∨
    app.currentSequence = none ∧ ∀ d, deployedSequence db app.id clusterId = some d → d ≤ -1

theorem deployApp_deploys {env : Env} {history : ClusterSocketHistory} {app : KotsApp}
    {s : DeployState} {e : Emission} {cluster : ClusterRow}
    (hcluster : getCluster s.db history.clusterId = .ok cluster)
    (h : (deployApp env history app s).1.deploys = e :: s.deploys) :
    DeployedManifests env s.db app.id cluster e.args.manifests := by
  have hne : s.deploys ≠ e :: s.deploys := fun heq => by
    have hlen := congrArg List.length heq
    simp at hlen
  rcases deployApp_cases env history app s with hsame | ⟨sequence, err, hfail⟩ | hemit
  · rw [hsame] at h
    exact absurd h hne
  · rw [hfail] at h
    exact absurd h hne
  · obtain ⟨v, cluster', args, informers, -, hv, hcluster', -, hargs, hs'⟩ := hemit
    rw [hcluster] at hcluster'
    cases hcluster'
    rw [hs'] at h
    cases h
    obtain ⟨row, hdeployed, -, rfl⟩ := getCurrentVersion_eq_some.mp hv
    rw [← getCluster_id hcluster] at hdeployed
    exact ⟨row.sequence, hdeployed, (deployArgs_manifests hargs).2⟩

theorem undeployArgs_deployed {env : Env} {db : Database} {app : KotsApp} {cluster : ClusterRow}
    {args : ApplicationManifests} (hnewest : NewestIsDeployed db app cluster.id)
    (h : undeployArgs env db app cluster = .ok args) :
    DeployedManifests env db app.id cluster args.previousManifests := by
  obtain ⟨sequence, hsequence, hmanifests⟩ := undeployArgs_previousManifests h
  rcases hnewest with heq | ⟨hnull, -⟩
  · rw [hsequence] at heq
    exact ⟨sequence, heq.symm, hmanifests⟩
  · rw [hnull] at hsequence
    cases hsequence

theorem desiredManifests_deployed {env : Env} {db : Database} {app : KotsApp}
    {cluster : ClusterRow} {args : ApplicationManifests}
    (hnewest : NewestIsDeployed db app cluster.id)
    (h : desiredManifests env db app cluster = .ok (some args)) :
    DeployedManifests env db app.id cluster args.manifests := by
  obtain ⟨⟨v, hv, hgt⟩, hmanifests⟩ := desiredManifests_manifests h
  obtain ⟨row, hdeployed, -, rfl⟩ := getCurrentVersion_eq_some.mp hv
  rcases hnewest with heq | ⟨-, hnone⟩
  · rw [heq, hdeployed] at hmanifests
    exact ⟨row.sequence, hdeployed, hmanifests⟩
  · have hle := hnone row.sequence hdeployed
    rw [mapKotsVersion_sequence] at hgt
    omega

/-- Renders a sequence as its own text, and never fails. -/
def echoEnv : Env where
  loadKotsAppSpec := fun _ => .ok {}
  render := fun _ sequence _ _ => .ok sequence
  getImagePullSecretFromArchive := fun _ _ => .ok ""
  readBackup := fun _ => .ok []
  base64 := id
  annotateSlug := false

theorem manifestsOf_echoEnv {appId : AppId} {cluster : ClusterRow} {sequence text : String} :
    ManifestsOf echoEnv appId cluster sequence text ↔ text = sequence := by
  constructor
  · rintro ⟨_, rendered, hrendered, htext⟩
    cases hrendered
    exact htext
  · intro htext
    exact ⟨"", sequence, rfl, htext⟩

theorem getKotsAppSpec_echoEnv {db : Database} {appId : AppId} {clusterId : ClusterId}
    {version : Option KotsVersion} (h : getCurrentVersion db appId clusterId = .ok version) :
    ∃ spec, getKotsAppSpec echoEnv db appId clusterId = .ok spec := by
  unfold getKotsAppSpec
  rw [h]
  cases version with
  | none => exact ⟨none, rfl⟩
  | some v =>
    change ∃ spec, KotsAppStore.getKotsAppSpec echoEnv db appId v.parentSequence = .ok spec
    unfold KotsAppStore.getKotsAppSpec
    split
    · exact ⟨none, rfl⟩
    · split
      · exact ⟨none, rfl⟩
      · exact ⟨some {}, rfl⟩

theorem undeployArgs_echoEnv {db : Database} {app : KotsApp} {cluster : ClusterRow}
    {version : Option KotsVersion} {sequence : Int}
    (hversion : getCurrentVersion db app.id cluster.id = .ok version)
    (hsequence : app.currentSequence = some sequence) :
    ∃ args, undeployArgs echoEnv db app cluster = .ok args ∧
      args.previousManifests = toString sequence := by
  obtain ⟨spec, hspec⟩ := getKotsAppSpec_echoEnv hversion
  unfold undeployArgs
  rw [hspec, hsequence]
  exact ⟨_, rfl, rfl⟩

theorem desiredManifests_echoEnv {db : Database} {app : KotsApp} {cluster : ClusterRow}
    {v : KotsVersion} (hv : getCurrentVersion db app.id cluster.id = .ok (some v))
    (hgt : v.sequence > -1) (hnull : app.currentSequence = none) :
    ∃ args, desiredManifests echoEnv db app cluster = .ok (some args) ∧
      args.manifests = "null" := by
  obtain ⟨spec, hspec⟩ := getKotsAppSpec_echoEnv hv
  unfold desiredManifests
  rw [hv]
  simp only [hgt, if_true, hspec, hnull]
  exact ⟨_, rfl, rfl⟩

theorem null_ne_toString (d : Int) : "null" ≠ toString d := by
  intro h
  have hint : ("null" : String).isInt = true := by
    rw [h]
    exact Int.isInt_repr d
  rcases String.isInt_iff.mp hint with hnat | ⟨t, ht, -⟩
  · rw [String.isNat_iff] at hnat
    simp at hnat
  · have hchars := congrArg String.toList ht
    simp at hchars

/-- Agreement forces the newest version to be the deployed one. -/
theorem newestIsDeployed_of_pathsAgree {db : Database} {app : KotsApp} {cluster : ClusterRow}
    {version : Option KotsVersion} (hagree : PathsAgree db app.id cluster.id)
    (happ : getApp db app.id = .ok app) (hcluster : getCluster db cluster.id = .ok cluster)
    (hversion : getCurrentVersion db app.id cluster.id = .ok version) :
    NewestIsDeployed db app cluster.id := by
  obtain ⟨-, hundeploy, hdesired⟩ := hagree echoEnv app cluster happ hcluster
  cases hcurrent : app.currentSequence with
  | some sequence =>
    -- `undeployApp` prunes this sequence
    obtain ⟨args, hargs, htext⟩ := undeployArgs_echoEnv hversion hcurrent
    obtain ⟨d, hd, hmanifests⟩ := hundeploy args hargs
    have heq : toString sequence = toString d := by
      rw [← htext]
      exact manifestsOf_echoEnv.mp hmanifests
    have hd' : sequence = d := Int.repr_injective heq
    exact .inl (by rw [hcurrent, hd, hd'])
  | none =>
    refine .inr ⟨hcurrent, fun d hd => ?_⟩
    cases version with
    | none =>
      rw [getCurrentVersion_eq_none hversion] at hd
      cases hd
    | some v =>
      obtain ⟨row, hrow, -, rfl⟩ := getCurrentVersion_eq_some.mp hversion
      rw [hrow] at hd
      cases hd
      by_contra hgt
      -- `getDesiredState` asks for the manifests of sequence `null`
      have hgt' : (mapKotsVersion db row).sequence > -1 := by
        rw [mapKotsVersion_sequence]
        omega
      obtain ⟨args, hargs, htext⟩ := desiredManifests_echoEnv hversion hgt' hcurrent
      obtain ⟨d, -, hmanifests⟩ := hdesired args hargs
      rw [manifestsOf_echoEnv, htext] at hmanifests
      exact null_ne_toString d hmanifests

/-- **The three paths agree exactly when the newest version is the deployed one**, in every state
of the database.  Where the app, the cluster or the deployed version has no row, none of them
describes anything. -/
theorem pathsAgree_iff (db : Database) (appId : AppId) (clusterId : ClusterId) :
    PathsAgree db appId clusterId ↔
      ∀ app cluster version, getApp db appId = .ok app → getCluster db clusterId = .ok cluster →
        getCurrentVersion db appId clusterId = .ok version →
        NewestIsDeployed db app clusterId := by
  constructor
  · intro hagree app cluster version happ hcluster hversion
    obtain rfl := getApp_id happ
    obtain rfl := getCluster_id hcluster
    exact newestIsDeployed_of_pathsAgree hagree happ hcluster hversion
  · intro hnewest env app cluster happ hcluster
    obtain rfl := getApp_id happ
    refine ⟨?_, ?_, ?_⟩
    · intro history s e hs hhistory hdeploys
      subst hs
      rw [← hhistory] at hcluster
      exact deployApp_deploys hcluster hdeploys
    · intro args hargs
      obtain rfl := getCluster_id hcluster
      obtain ⟨version, hversion⟩ := undeployArgs_version hargs
      exact undeployArgs_deployed (hnewest app cluster version happ hcluster hversion) hargs
    · intro args hargs
      obtain rfl := getCluster_id hcluster
      obtain ⟨⟨v, hversion, -⟩, -⟩ := desiredManifests_manifests hargs
      exact desiredManifests_deployed (hnewest app cluster (some v) happ hcluster hversion) hargs

/-- An installed app: version 0 is deployed to the cluster, and version 1 was then uploaded. -/
def updatedDb : Except String Database := do
  let app : AppRow := { id := "app", name := "App", slug := "app" }
  let cluster : ClusterRow := { id := "c1", title := "this-cluster", token := "t1" }
  let db : Database := { app := ⟨[app], by decide⟩, cluster := ⟨[cluster], by decide⟩ }
  let (db, _) := createMidstreamVersion db "app" 0 10 { versionLabel := "1.0" } "App" ""
  let db := createDownstream db "app" "this-cluster" "c1"
  let db ← createDownstreamVersion db "app" 0 "c1" 11 { status := "pending" }
  let db := deployVersion db "app" 0 12
  let (db, _) := createMidstreamVersion db "app" 1 13 { versionLabel := "1.1" } "App" ""
  createDownstreamVersion db "app" 1 "c1" 14 { status := "pending" }

/-- With an undeployed newer version, a restore prunes that version instead of the deployed one. -/
theorem not_pathsAgree_updatedDb : ∃ db, updatedDb = .ok db ∧ ¬ PathsAgree db "app" "c1" := by
  refine ⟨_, rfl, fun hagree => ?_⟩
  have hnewest := @newestIsDeployed_of_pathsAgree _
    { id := "app", name := "App", slug := "app", currentSequence := some 1,
      restoreInProgressName := none, restoreUndeployStatus := none }
    { id := "c1", title := "this-cluster", token := "t1" } _ hagree rfl rfl rfl
  rcases hnewest with heq | ⟨hnull, -⟩
  · exact absurd heq (by decide)
  · cases hnull

end Kotsadm
