import Kotsadm.Lib.Machine
import Kotsadm.Sockets.DeployedVersion

/-!
# Pruning — what each deploy hands to the operator for removal

The operator removes what is in `previous_manifests` and not in `manifests`.  The API reconstructs
the previous version from `applied_at`, not from what it emitted.  A run interleaves
`deployVersion` calls and ticks of `deployLoop`.
-/

namespace Kotsadm.Pruning

open KotsAppStore

inductive Action where
  | deployVersion (appId : AppId) (sequence : Int) (now : Timestamp)
  | deployLoop (env : Env)

def machine : Machine DeployState Action where
  step s
    | .deployVersion appId sequence now =>
      some { s with db := KotsAppStore.deployVersion s.db appId sequence now }
    | .deployLoop env => some (Kotsadm.deployLoop env s)

/-- Nothing has been emitted to the connected sockets; the database is arbitrary. -/
def Init (s : DeployState) : Prop :=
  s.deploys = [] ∧ s.lastDeployedSequences = fun _ _ => none

/-- The version in the latest deploy of the app to the cluster. -/
def lastDeploy (deploys : List Emission) (clusterId : ClusterId) (appId : AppId) : Option Int :=
  (deploys.find? fun e => e.clusterId = clusterId && e.args.appId = appId).map (·.sequence)

/-- The deploy `e` prunes the version of the latest deploy before it. -/
def PrunesLast (env : Env) (db : Database) (e : Emission) (older : List Emission) : Prop :=
  ∀ m, lastDeploy older e.clusterId e.args.appId = some m →
    ∃ cluster, getCluster db e.clusterId = .ok cluster ∧
      ManifestsOf env e.args.appId cluster (toString m) e.args.previousManifests

/-- Every deploy emitted in the step prunes the version of the latest deploy before it. -/
def PruningComplete (s : DeployState) : Action → DeployState → Prop
  | .deployVersion .., _ => True
  | .deployLoop env, s' => ∀ newer e older, s'.deploys = newer ++ e :: (older ++ s.deploys) →
      PrunesLast env s.db e (older ++ s.deploys)

/-! ## The condition -/

def OneSocketPerCluster (s : DeployState) : Prop :=
  ∀ h ∈ s.clusterSocketHistory, ∀ h' ∈ s.clusterSocketHistory,
    h.clusterId = h'.clusterId ∨ h.socketId = h'.socketId → h = h'

/-- No version waits between the one last emitted to a cluster and the one now deployed: the last
emitted version is deployed again, or it is the latest one applied besides the new one. -/
def NoneSkipped (s : DeployState) : Action → Prop
  | .deployVersion appId sequence now =>
    ∀ h ∈ s.clusterSocketHistory, ∀ m, lastDeploy s.deploys h.clusterId appId = some m →
      (s.db.appDownstreamVersion.find? (appId, h.clusterId, sequence)).isSome →
      m = sequence ∨
        (otherAppliedVersions s.db appId h.clusterId sequence).head?.map (·.sequence) = some m ∧
        ∀ r ∈ otherAppliedVersions s.db appId h.clusterId sequence, r.appliedAt.getD 0 < now
  | .deployLoop _ => True

def Guard (s : DeployState) (a : Action) : Prop := OneSocketPerCluster s ∧ NoneSkipped s a

/-! ## The invariant -/

/-- The sockets remember what was emitted, and whatever `deployLoop` would emit next has the last
emitted version as its previous one. -/
structure Synced (s : DeployState) : Prop where
  last : ∀ h ∈ s.clusterSocketHistory, ∀ appId,
    s.lastDeployedSequences h.socketId appId = lastDeploy s.deploys h.clusterId appId
  previous : ∀ h ∈ s.clusterSocketHistory, ∀ appId m n,
    lastDeploy s.deploys h.clusterId appId = some m →
    deployedSequence s.db appId h.clusterId = some n →
    (s.db.appDownstreamVersion.find? (appId, h.clusterId, n)).isSome → n ≠ m →
    getPreviouslyDeployedSequence s.db appId h.clusterId n = some m

theorem synced_init {s : DeployState} (hs : Init s) : Synced s where
  last h _ appId := by
    rw [hs.1, hs.2]
    rfl
  previous h _ appId m n hm := by
    rw [hs.1] at hm
    cases hm

theorem lastDeploy_cons (e : Emission) (deploys : List Emission) (clusterId : ClusterId)
    (appId : AppId) :
    lastDeploy (e :: deploys) clusterId appId =
      if e.clusterId = clusterId ∧ e.args.appId = appId then some e.sequence
      else lastDeploy deploys clusterId appId := by
  unfold lastDeploy
  rw [List.find?_cons]
  by_cases hc : e.clusterId = clusterId <;> by_cases ha : e.args.appId = appId <;> simp [hc, ha]

theorem synced_deployVersion {s : DeployState} {appId : AppId} {sequence : Int} {now : Timestamp}
    (hs : Synced s) (hguard : NoneSkipped s (.deployVersion appId sequence now)) :
    Synced { s with db := KotsAppStore.deployVersion s.db appId sequence now } where
  last := hs.last
  previous h hh appId' m n hm hn hrow hne := by
    change lastDeploy s.deploys h.clusterId appId' = some m at hm
    change deployedSequence (KotsAppStore.deployVersion s.db appId sequence now) appId' h.clusterId =
      some n at hn
    rw [isSome_find?_deployVersion] at hrow
    rw [deployedSequence_deployVersion] at hn
    by_cases happ : appId' = appId
    · subst happ
      rw [if_pos rfl] at hn
      obtain ⟨_, _, rfl⟩ := Option.map_eq_some_iff.mp hn
      rcases hguard h hh m hm hrow with heq | ⟨hhead, hnow⟩
      · exact absurd heq.symm hne
      · obtain ⟨row, hfind⟩ := Option.isSome_iff_exists.mp hrow
        obtain ⟨previous, hprevious, hm'⟩ := Option.map_eq_some_iff.mp hhead
        obtain ⟨rest, hrest⟩ := List.head?_eq_some_iff.mp hprevious
        unfold getPreviouslyDeployedSequence
        rw [appliedVersions_deployVersion hfind hnow, hrest]
        exact congrArg some hm'
    · rw [if_neg happ] at hn
      have hprevious := hs.previous h hh appId' m n hm hn hrow hne
      unfold getPreviouslyDeployedSequence at hprevious ⊢
      rw [appliedVersions_deployVersion_of_ne s.db happ]
      exact hprevious

theorem synced_updateDownstreamsStatus {s : DeployState} (appId : AppId) (sequence : Int)
    (status statusInfo : String) (hs : Synced s) :
    Synced { s with db := updateDownstreamsStatus s.db appId sequence status statusInfo } where
  last := hs.last
  previous h hh appId' m n hm hn hrow hne := by
    rw [getPreviouslyDeployedSequence_updateDownstreamsStatus]
    refine hs.previous h hh appId' m n hm hn ?_ hne
    simpa only [updateDownstreamsStatus, Keyed.find?_updateWhere, Option.isSome_map] using hrow

/-- After an emission the socket, the history and the deployed version say the same. -/
theorem synced_emitDeploy {s : DeployState} {history : ClusterSocketHistory} {app : KotsApp}
    {sequence : Int} {args : ApplicationManifests}
    {informers : List (ClusterId × AppId × List String)} (hs : Synced s)
    (hone : OneSocketPerCluster s) (hmem : history ∈ s.clusterSocketHistory)
    (happ : args.appId = app.id)
    (hdeployed : deployedSequence s.db app.id history.clusterId = some sequence) :
    Synced { emitDeploy s history app sequence args with appInformers := informers } where
  last h hh appId := by
    change Function.update s.lastDeployedSequences history.socketId _ h.socketId appId =
      lastDeploy (_ :: s.deploys) h.clusterId appId
    rw [lastDeploy_cons, happ]
    by_cases hsocket : h.socketId = history.socketId
    · obtain rfl := hone h hh history hmem (.inr hsocket)
      rw [Function.update_self]
      by_cases heq : appId = app.id
      · subst heq
        simp
      · rw [Function.update_of_ne heq, if_neg fun hand => heq hand.2.symm]
        exact hs.last h hh appId
    · have hcluster : history.clusterId ≠ h.clusterId := fun heq =>
        hsocket (congrArg _ (hone h hh history hmem (.inl heq.symm)))
      rw [Function.update_of_ne hsocket, if_neg fun hand => hcluster hand.1]
      exact hs.last h hh appId
  previous h hh appId m n hm hn hrow hne := by
    change lastDeploy (_ :: s.deploys) h.clusterId appId = some m at hm
    change deployedSequence s.db appId h.clusterId = some n at hn
    rw [lastDeploy_cons, happ] at hm
    split at hm
    next hsame =>
      -- the version just emitted is the deployed one
      rw [← hsame.1, ← hsame.2, hdeployed] at hn
      cases hm
      cases hn
      exact absurd rfl hne
    next hother => exact hs.previous h hh appId m n hm hn hrow hne

/-! ## One tick -/

/-- What holds throughout a tick that started in `s₀`. -/
structure TickInv (env : Env) (s₀ s : DeployState) : Prop where
  synced : Synced s
  sockets : s.clusterSocketHistory = s₀.clusterSocketHistory
  clusters : s.db.cluster = s₀.db.cluster
  pruned : ∃ new, s.deploys = new ++ s₀.deploys ∧ ∀ newer e older,
    new = newer ++ e :: older → PrunesLast env s₀.db e (older ++ s₀.deploys)

theorem prunesLast_deployArgs {env : Env} {s : DeployState} {history : ClusterSocketHistory}
    {app : KotsApp} {v : KotsVersion} {cluster : ClusterRow} {args : ApplicationManifests}
    (hs : Synced s) (hmem : history ∈ s.clusterSocketHistory)
    (hv : getCurrentVersion s.db app.id history.clusterId = .ok (some v))
    (hcluster : getCluster s.db history.clusterId = .ok cluster)
    (hlast : s.lastDeployedSequences history.socketId app.id ≠ some v.sequence)
    (hargs : deployArgs env s.db app cluster v.sequence = .ok args) :
    PrunesLast env s.db ⟨history.clusterId, v.sequence, args⟩ s.deploys := by
  intro m hm
  have happ : args.appId = app.id := (deployArgs_manifests hargs).1
  rw [happ] at hm ⊢
  obtain ⟨row, hdeployed, hrow, rfl⟩ := getCurrentVersion_eq_some.mp hv
  rw [mapKotsVersion_sequence] at hlast hargs
  have hne : row.sequence ≠ m := by
    rintro rfl
    exact hlast ((hs.last history hmem app.id).trans hm)
  have hprevious := hs.previous history hmem app.id m row.sequence hm hdeployed
    (Option.isSome_of_eq_some hrow) hne
  rw [← getCluster_id hcluster] at hprevious
  exact ⟨cluster, hcluster, deployArgs_previousManifests hargs hprevious⟩

theorem tickInv_deployApp {env : Env} {s₀ s : DeployState} {history : ClusterSocketHistory}
    (app : KotsApp) (hone : OneSocketPerCluster s₀) (hmem : history ∈ s₀.clusterSocketHistory)
    (hs : TickInv env s₀ s) : TickInv env s₀ (deployApp env history app s).1 := by
  rcases deployApp_cases env history app s with hsame | ⟨sequence, err, hfail⟩ | hemit
  · rw [hsame]
    exact hs
  · rw [hfail]
    exact ⟨synced_updateDownstreamsStatus app.id sequence "failed" err hs.synced, hs.sockets,
      hs.clusters, hs.pruned⟩
  · obtain ⟨v, cluster, args, informers, -, hv, hcluster, hlast, hargs, heq⟩ := hemit
    have hmem' : history ∈ s.clusterSocketHistory := by rwa [hs.sockets]
    have hone' : OneSocketPerCluster s := by
      unfold OneSocketPerCluster
      rwa [hs.sockets]
    have hpruned := prunesLast_deployArgs hs.synced hmem' hv hcluster hlast hargs
    obtain ⟨row, hdeployed, -, rfl⟩ := getCurrentVersion_eq_some.mp hv
    obtain ⟨new, hnew, hall⟩ := hs.pruned
    rw [heq]
    refine ⟨synced_emitDeploy hs.synced hone' hmem' (deployArgs_manifests hargs).1 hdeployed,
      hs.sockets, hs.clusters, ⟨history.clusterId, row.sequence, args⟩ :: new, ?_, ?_⟩
    · exact congrArg (List.cons _) hnew
    · intro newer e older hsplit
      cases newer with
      | nil =>
        obtain ⟨rfl, rfl⟩ := List.cons.inj hsplit
        rw [← hnew]
        intro m hm
        obtain ⟨cluster', hcluster', hmanifests⟩ := hpruned m hm
        refine ⟨cluster', ?_, hmanifests⟩
        unfold getCluster at hcluster' ⊢
        rwa [← hs.clusters]
      | cons _ newer => exact hall newer e older (List.cons.inj hsplit).2

theorem tickInv_deployLoop {env : Env} {s : DeployState} (hone : OneSocketPerCluster s)
    (hs : Synced s) : TickInv env s (Kotsadm.deployLoop env s) := by
  have hstart : TickInv env s s := by
    refine ⟨hs, rfl, rfl, [], rfl, ?_⟩
    intro newer e older hsplit
    simp at hsplit
  unfold Kotsadm.deployLoop
  apply forEach_inv _ _ _ hstart
  intro history hmem t ht
  unfold deployCluster
  split
  · exact ht
  · apply forEach_inv _ _ _ ht
    intro app _ u hu
    exact tickInv_deployApp app hone hmem hu

/-! ## Whole runs -/

theorem synced_step {s s' : DeployState} {a : Action} (hs : Synced s) (hguard : Guard s a)
    (hstep : machine.step s a = some s') : Synced s' := by
  cases a with
  | deployVersion appId sequence now =>
    cases hstep
    exact synced_deployVersion hs hguard.2
  | deployLoop env =>
    cases hstep
    exact (tickInv_deployLoop hguard.1 hs).synced

theorem synced_everyState : machine.EveryState Init Guard Synced :=
  Machine.everyState_of_inv (fun _ => synced_init) fun _ _ _ => synced_step

/-- **Pruning is complete in every run that skips no deployed version.**  With one socket to a
cluster, and as long as every version a `deployVersion` call replaces has been emitted, each deploy
carries the manifests of the version deployed just before it. -/
theorem pruningComplete_everyStep {s s' : DeployState} {a : Action}
    (hreach : machine.Reachable Init Guard s) (hguard : Guard s a)
    (hstep : machine.step s a = some s') : PruningComplete s a s' := by
  have hs : Synced s := synced_everyState s hreach
  cases a with
  | deployVersion appId sequence now => trivial
  | deployLoop env =>
    cases hstep
    intro newer e older hsplit
    obtain ⟨new, hnew, hall⟩ := (tickInv_deployLoop hguard.1 hs).pruned
    apply hall newer e older
    have happend : new ++ s.deploys = (newer ++ e :: older) ++ s.deploys := by
      rw [← hnew, hsplit, List.append_assoc, List.cons_append]
    exact List.append_cancel_right happend

/-- An app with three versions on one cluster, none of them deployed. -/
def pendingState : DeployState where
  db := {
    app := .single { id := "app", name := "App", slug := "app", currentSequence := some 2 }
    cluster := .single { id := "c1", title := "this-cluster", token := "t1" }
    appDownstream :=
      .single { appId := "app", clusterId := "c1", downstreamName := "this-cluster" }
    appDownstreamVersion :=
      ⟨[{ appId := "app", clusterId := "c1", sequence := 0, parentSequence := 0, status := "pending" },
        { appId := "app", clusterId := "c1", sequence := 1, parentSequence := 1, status := "pending" },
        { appId := "app", clusterId := "c1", sequence := 2, parentSequence := 2, status := "pending" }],
        by decide⟩ }
  clusterSocketHistory := [{ clusterId := "c1", socketId := "s1" }]
  lastDeployedSequences := fun _ _ => none
  deploys := []
  appInformers := []

/-- Versions 0 and 1 are deployed and emitted one after the other: the second deploy prunes the
first one. -/
theorem pruningComplete_nextVersion : ∃ s s', machine.step s (.deployLoop echoEnv) = some s' ∧
    s'.deploys.map (·.sequence) = [1, 0] ∧ PruningComplete s (.deployLoop echoEnv) s' := by
  have hsocket : ∀ s : DeployState, s.clusterSocketHistory = pendingState.clusterSocketHistory →
      OneSocketPerCluster s := by
    intro s hs h hh h' hh' _
    rw [hs] at hh hh'
    rw [List.mem_singleton.mp hh, List.mem_singleton.mp hh']
  have hinit : machine.Reachable Init Guard pendingState := .init ⟨rfl, rfl⟩
  have hfirst : Guard pendingState (.deployVersion "app" 0 10) := by
    refine ⟨hsocket _ rfl, ?_⟩
    intro h _ m hm
    cases hm
  have hdeployed := hinit.step hfirst rfl
  have htick : ∀ s : DeployState, s.clusterSocketHistory = pendingState.clusterSocketHistory →
      Guard s (.deployLoop echoEnv) := fun s hs => ⟨hsocket s hs, trivial⟩
  have hemitted := hdeployed.step (htick _ rfl) rfl
  let emitted := Kotsadm.deployLoop echoEnv
    { pendingState with db := KotsAppStore.deployVersion pendingState.db "app" 0 10 }
  have hsecond : Guard emitted (.deployVersion "app" 1 20) := by
    refine ⟨hsocket _ rfl, ?_⟩
    intro h hh m hm _
    change h ∈ pendingState.clusterSocketHistory at hh
    cases List.mem_singleton.mp hh
    cases hm
    exact .inr ⟨rfl, by decide⟩
  have hready := hemitted.step hsecond rfl
  exact ⟨_, _, rfl, rfl, pruningComplete_everyStep hready (htick _ rfl) rfl⟩

/-- Version 0 is deployed and emitted; versions 1 and 2 are deployed between two ticks.  The deploy
of version 2 then prunes version 1, which never reached the cluster, and not version 0. -/
theorem not_pruningComplete_skipped :
    ¬ machine.EveryStep Init Machine.Free PruningComplete := by
  have hinit : Init pendingState := ⟨rfl, rfl⟩
  refine Machine.not_everyStep hinit [.deployVersion "app" 0 10, .deployLoop echoEnv,
    .deployVersion "app" 1 20, .deployVersion "app" 2 21] rfl rfl (a := .deployLoop echoEnv) ?_
  intro hcomplete
  obtain ⟨cluster, -, hmanifests⟩ := hcomplete [] _ [] rfl 0 rfl
  exact absurd (manifestsOf_echoEnv.mp hmanifests) (by decide)

end Kotsadm.Pruning
