import Kotsadm.Lib.Machine
import Kotsadm.Sockets.DeployedVersion

/-!
# DeployResults — the way of a deploy from the tick that emits it to the row of its result

`deployLoop` emits, the operators execute and report with `sendResult`, `putDeployResult` stores.
The report carries no sequence: it is stored under the sequence deployed when it arrives.
-/

namespace Kotsadm

open KotsAppStore

/-! ## The operator -/

/-- The body of the request in `Client.sendResult`. -/
structure DeployResultBody where
  appId : AppId
  isError : Bool
  dryrunStdout : Option String
  dryrunStderr : Option String
  applyStdout : Option String
  applyStderr : Option String
  deriving DecidableEq, Repr

/-- How the operator's `deploy` handler ends: with an `applyResult`, or with an error before it. -/
inductive DeployOutcome where
  | applied (hasErr : Bool) (stdout stderr : String)
  | failed (deployError : String)
  deriving DecidableEq, Repr

/-- Nothing is sent without a callback. -/
def sendResult (args : ApplicationManifests) (isError : Bool)
    (dryrunStdout dryrunStderr applyStdout applyStderr : Option String) :
    Option DeployResultBody :=
  if args.resultCallback = "" then none
  else some ⟨args.appId, isError, dryrunStdout, dryrunStderr, applyStdout, applyStderr⟩

/-- The deferred function of the `deploy` handler. -/
def reportOutcome (args : ApplicationManifests) : DeployOutcome → Option DeployResultBody
  | .applied hasErr stdout stderr =>
    sendResult args hasErr (some "") (some "") (some stdout) (some stderr)
  | .failed deployError => sendResult args true (some "") (some "") none (some deployError)

theorem reportOutcome_appId {args : ApplicationManifests} {outcome : DeployOutcome}
    {body : DeployResultBody} (h : reportOutcome args outcome = some body) :
    body.appId = args.appId := by
  cases outcome with
  | applied hasErr stdout stderr =>
    simp only [reportOutcome, sendResult] at h
    split at h
    next => cases h
    next =>
      cases h
      rfl
  | failed deployError =>
    simp only [reportOutcome, sendResult] at h
    split at h
    next => cases h
    next =>
      cases h
      rfl

/-! ## putDeployResult -/

def getFromDeployToken (db : Database) (token : String) : Except String ClusterRow :=
  match db.cluster.rows.find? fun r => r.token = token with
  | none => .error "No cluster found"
  | some row => getCluster db row.id

def DeployResultBody.output (body : DeployResultBody) : DeployOutput where
  dryRunStdout := body.dryrunStdout
  dryRunStderr := body.dryrunStderr
  applyStdout := body.applyStdout
  applyStderr := body.applyStderr

/-- The database after the request and the status of the response. -/
def putDeployResult (db : Database) (token : String) (body : DeployResultBody) : Database × Nat :=
  match getFromDeployToken db token with
  | .error _ => (db, 401)
  | .ok cluster =>
    match listAppsForCluster db cluster.id with
    | .error _ => (db, 500)
    | .ok _ =>
      -- sequence really should be passed down to operator and returned from it
      match getCurrentVersion db body.appId cluster.id with
      | .error _ => (db, 500)
      | .ok none => (db, 500)
      | .ok (some downstreamVersion) =>
        (updateDownstreamDeployStatus db body.appId cluster.id downstreamVersion.sequence
          body.isError body.output, 200)

namespace DeployResults

/-! ## Runs -/

/-- A result on its way to the API, with the deploy it is the result of. -/
structure Report where
  emission : Emission
  token : String
  body : DeployResultBody

/-- The key the result belongs to. -/
def Report.key (r : Report) : AppId × ClusterId × Int :=
  (r.body.appId, r.emission.clusterId, r.emission.sequence)

def Report.row (r : Report) : AppDownstreamOutputRow :=
  r.body.output.row r.body.appId r.emission.clusterId r.emission.sequence r.body.isError

structure State where
  api : DeployState
  -- delivered to an operator and not executed yet
  inbox : List Emission
  -- reported by an operator and not handled yet
  results : List Report

inductive Action where
  | deployVersion (appId : AppId) (sequence : Int) (now : Timestamp)
  | deployLoop (env : Env)
  | connect (token socketId : String)
  | disconnect (socketId : String)
  | execute (i : Nat) (token : String) (outcome : DeployOutcome)
  | lose (i : Nat)
  | putDeployResult (i : Nat)

/-- A message to the room of a cluster reaches every socket in it. -/
def deliveries (sockets : List ClusterSocketHistory) (e : Emission) : List Emission :=
  (sockets.filter fun h => h.clusterId = e.clusterId).map fun _ => e

def step (s : State) : Action → Option State
  | .deployVersion appId sequence now =>
    some { s with
      api := { s.api with db := KotsAppStore.deployVersion s.api.db appId sequence now } }
  | .deployLoop env =>
    let api := Kotsadm.deployLoop env s.api
    let emitted := api.deploys.take (api.deploys.length - s.api.deploys.length)
    some { s with
      api := api
      inbox := s.inbox ++ emitted.reverse.flatMap (deliveries s.api.clusterSocketHistory) }
  | .connect token socketId =>
    match getFromDeployToken s.api.db token with
    | .error _ => none
    | .ok cluster =>
      some { s with
        api := { s.api with
          clusterSocketHistory := s.api.clusterSocketHistory ++ [⟨cluster.id, socketId⟩]
          lastDeployedSequences :=
            Function.update s.api.lastDeployedSequences socketId fun _ => none } }
  | .disconnect socketId =>
    some { s with
      api := { s.api with
        clusterSocketHistory := s.api.clusterSocketHistory.filter (·.socketId ≠ socketId) } }
  | .execute i token outcome =>
    match s.inbox[i]?, getFromDeployToken s.api.db token with
    | some e, .ok cluster =>
      if cluster.id = e.clusterId then
        some { s with
          inbox := s.inbox.eraseIdx i
          results := s.results ++ (reportOutcome e.args outcome).toList.map (⟨e, token, ·⟩) }
      else none
    | _, _ => none
  | .lose i => some { s with inbox := s.inbox.eraseIdx i }
  | .putDeployResult i =>
    match s.results[i]? with
    | none => none
    | some r =>
      some { s with
        api := { s.api with db := (Kotsadm.putDeployResult s.api.db r.token r.body).1 }
        results := s.results.eraseIdx i }

def machine : Machine State Action := ⟨step⟩

/-- Nothing has been emitted; the database and the sockets are arbitrary. -/
def Init (s : State) : Prop :=
  s.api.deploys = [] ∧ s.inbox = [] ∧ s.results = []

/-- Results are stored under the version they belong to: a row of `app_downstream_output` changes
only to the result of a deploy of its sequence, and a handled result leaves a row for the
deploy's own sequence: its own one, or the success stored there before. -/
def Attributed (s : State) (a : Action) (s' : State) : Prop :=
  (∀ key row, s'.api.db.appDownstreamOutput.find? key = some row →
    s.api.db.appDownstreamOutput.find? key ≠ some row →
    ∃ i r, a = .putDeployResult i ∧ s.results[i]? = some r ∧ key = r.key ∧ row = r.row) ∧
  (∀ i r, a = .putDeployResult i → s.results[i]? = some r →
    ∃ row, s'.api.db.appDownstreamOutput.find? r.key = some row ∧
      (row = r.row ∨
        s.api.db.appDownstreamOutput.find? r.key = some row ∧ row.isError = false))

/-! ## The condition -/

/-- The deploys without a stored result: not executed yet, or reported and not handled. -/
def outstanding (s : State) : List Emission := s.inbox ++ s.results.map (·.emission)

/-- A version is deployed only while no deploy of another version of the app is outstanding. -/
def Guard (s : State) : Action → Prop
  | .deployVersion appId sequence _ =>
    ∀ e ∈ outstanding s, e.args.appId = appId → e.sequence = sequence
  | _ => True

/-! ## The invariant -/

/-- The database attributes a result of `e` that arrives now to `e`. -/
structure Current (db : Database) (e : Emission) : Prop where
  deployed : deployedSequence db e.args.appId e.clusterId = some e.sequence
  version : (db.appDownstreamVersion.find? (e.args.appId, e.clusterId, e.sequence)).isSome
  apps : ∃ apps, listAppsForCluster db e.clusterId = .ok apps

structure Inv (s : State) : Prop where
  current : ∀ e ∈ outstanding s, Current s.api.db e
  reports : ∀ r ∈ s.results, r.body.appId = r.emission.args.appId ∧
    ∃ cluster, getFromDeployToken s.api.db r.token = .ok cluster ∧
      cluster.id = r.emission.clusterId

theorem current_deployVersion {db : Database} {e : Emission} {appId : AppId} {sequence : Int}
    {now : Timestamp} (he : Current db e) (hguard : e.args.appId = appId → e.sequence = sequence) :
    Current (KotsAppStore.deployVersion db appId sequence now) e where
  deployed := by
    rw [deployedSequence_deployVersion]
    split
    next happ =>
      have hdeployed := he.deployed
      unfold deployedSequence at hdeployed
      obtain ⟨row, hrow, -⟩ := Option.bind_eq_some_iff.mp hdeployed
      rw [hrow, hguard happ]
      rfl
    next => exact he.deployed
  version := by
    rw [isSome_find?_deployVersion]
    exact he.version
  apps := by
    rw [listAppsForCluster_deployVersion]
    exact he.apps

/-! ## One tick -/

/-- What holds throughout a tick that started in `s₀`: only statuses changed in the database, and
what was emitted is what the clusters run. -/
structure TickInv (s₀ s : DeployState) : Prop where
  outputs : s.db.appDownstreamOutput = s₀.db.appDownstreamOutput
  clusters : s.db.cluster = s₀.db.cluster
  current : ∀ e, Current s₀.db e → Current s.db e
  emitted : ∃ new, s.deploys = new ++ s₀.deploys ∧ ∀ e ∈ new, Current s.db e

theorem current_updateDownstreamsStatus {db : Database} {e : Emission} (appId : AppId)
    (sequence : Int) (status statusInfo : String) (he : Current db e) :
    Current (updateDownstreamsStatus db appId sequence status statusInfo) e where
  deployed := he.deployed
  version := by
    have hversion := he.version
    simpa only [updateDownstreamsStatus, Keyed.find?_updateWhere, Option.isSome_map] using hversion
  apps := he.apps

theorem tickInv_deployApp {env : Env} {s₀ s : DeployState} {history : ClusterSocketHistory}
    {apps : List KotsApp} (app : KotsApp)
    (happs : listAppsForCluster s.db history.clusterId = .ok apps) (hs : TickInv s₀ s) :
    TickInv s₀ (deployApp env history app s).1 := by
  obtain ⟨new, hnew, hall⟩ := hs.emitted
  rcases deployApp_cases env history app s with hsame | ⟨sequence, err, hfail⟩ | hemit
  · rw [hsame]
    exact hs
  · rw [hfail]
    have hstatus : ∀ e, Current s.db e →
        Current (updateDownstreamsStatus s.db app.id sequence "failed" err) e :=
      fun e => current_updateDownstreamsStatus app.id sequence "failed" err
    exact ⟨hs.outputs, hs.clusters, fun e he => hstatus e (hs.current e he), new, hnew,
      fun e he => hstatus e (hall e he)⟩
  · obtain ⟨v, cluster, args, informers, -, hv, -, -, hargs, heq⟩ := hemit
    have happ : args.appId = app.id := (deployArgs_manifests hargs).1
    obtain ⟨row, hdeployed, hrow, rfl⟩ := getCurrentVersion_eq_some.mp hv
    have hcurrent : Current s.db ⟨history.clusterId, row.sequence, args⟩ := by
      refine ⟨?_, ?_, apps, happs⟩
      · rw [happ]
        exact hdeployed
      · rw [happ, hrow]
        rfl
    rw [heq]
    refine ⟨hs.outputs, hs.clusters, hs.current,
      ⟨history.clusterId, row.sequence, args⟩ :: new, congrArg (List.cons _) hnew, ?_⟩
    intro e he
    rcases List.mem_cons.mp he with rfl | he
    · exact hcurrent
    · exact hall e he

theorem listApps_deployApp {env : Env} {s : DeployState} {history : ClusterSocketHistory}
    (app : KotsApp) (clusterId : ClusterId) :
    listAppsForCluster (deployApp env history app s).1.db clusterId =
      listAppsForCluster s.db clusterId := by
  rcases deployApp_cases env history app s with hsame | ⟨sequence, err, hfail⟩ | hemit
  · rw [hsame]
  · rw [hfail]
    rfl
  · obtain ⟨v, cluster, args, informers, -, -, -, -, -, heq⟩ := hemit
    rw [heq]
    rfl

theorem tickInv_deployLoop (env : Env) (s : DeployState) :
    TickInv s (Kotsadm.deployLoop env s) := by
  have hstart : TickInv s s := by
    refine ⟨rfl, rfl, fun _ he => he, [], rfl, ?_⟩
    intro e he
    cases he
  unfold Kotsadm.deployLoop
  apply forEach_inv _ _ _ hstart
  intro history _ t ht
  unfold deployCluster
  split
  · exact ht
  next apps happs =>
    -- the apps of the cluster can still be listed after every iteration
    have hloop : TickInv s (forEach (deployApp env history) apps t).1 ∧
        listAppsForCluster (forEach (deployApp env history) apps t).1.db history.clusterId =
          .ok apps := by
      refine forEach_inv (I := fun u => TickInv s u ∧
        listAppsForCluster u.db history.clusterId = .ok apps) apps ?_ t ⟨ht, happs⟩
      intro app _ u hu
      refine ⟨tickInv_deployApp app hu.2 hu.1, ?_⟩
      rw [listApps_deployApp]
      exact hu.2
    exact hloop.1

/-! ## Every step keeps the invariant -/

theorem mem_deliveries {sockets : List ClusterSocketHistory} {emitted : List Emission}
    {e : Emission} (h : e ∈ emitted.flatMap (deliveries sockets)) : e ∈ emitted := by
  obtain ⟨e', he', hmem⟩ := List.mem_flatMap.mp h
  obtain ⟨_, _, rfl⟩ := List.mem_map.mp hmem
  exact he'

theorem getFromDeployToken_eq {db db' : Database} (h : db'.cluster = db.cluster) (token : String) :
    getFromDeployToken db' token = getFromDeployToken db token := by
  unfold getFromDeployToken getCluster
  rw [h]

theorem inv_deployLoop {s : State} (env : Env) (hs : Inv s) {s' : State}
    (hstep : machine.step s (.deployLoop env) = some s') : Inv s' := by
  cases hstep
  have htick := tickInv_deployLoop env s.api
  obtain ⟨new, hnew, hall⟩ := htick.emitted
  have htake : (Kotsadm.deployLoop env s.api).deploys.take
      ((Kotsadm.deployLoop env s.api).deploys.length - s.api.deploys.length) = new := by
    rw [hnew, List.length_append, Nat.add_sub_cancel, List.take_left]
  constructor
  · intro e he
    dsimp only [outstanding] at he
    rw [htake, List.append_assoc, List.mem_append, List.mem_append] at he
    rcases he with hinbox | hnewly | hresult
    · exact htick.current e (hs.current e (List.mem_append_left _ hinbox))
    · exact hall e (List.mem_reverse.mp (mem_deliveries hnewly))
    · exact htick.current e (hs.current e (List.mem_append_right _ hresult))
  · intro r hr
    obtain ⟨happ, cluster, hcluster, hid⟩ := hs.reports r hr
    exact ⟨happ, cluster, (getFromDeployToken_eq htick.clusters r.token).trans hcluster, hid⟩

theorem inv_execute {s s' : State} {i : Nat} {token : String} {outcome : DeployOutcome}
    (hs : Inv s) (hstep : machine.step s (.execute i token outcome) = some s') : Inv s' := by
  simp only [machine, step] at hstep
  split at hstep
  next e cluster hi hcluster =>
    split at hstep
    next hid =>
      cases hstep
      have hmem : e ∈ s.inbox := List.mem_of_getElem? hi
      constructor
      · intro e' he'
        dsimp only [outstanding] at he'
        rw [List.map_append, List.mem_append, List.mem_append] at he'
        rcases he' with hinbox | hresult | hnew
        · exact hs.current e' (List.mem_append_left _ (List.mem_of_mem_eraseIdx hinbox))
        · exact hs.current e' (List.mem_append_right _ hresult)
        · obtain ⟨r, hr, rfl⟩ := List.mem_map.mp hnew
          obtain ⟨body, _, rfl⟩ := List.mem_map.mp hr
          exact hs.current e (List.mem_append_left _ hmem)
      · intro r hr
        rcases List.mem_append.mp hr with hold | hnew
        · exact hs.reports r hold
        · obtain ⟨body, hbody, rfl⟩ := List.mem_map.mp hnew
          exact ⟨reportOutcome_appId (Option.mem_toList.mp hbody), cluster, hcluster, hid⟩
    next => cases hstep
  next => cases hstep

/-- The handler changes nothing but results. -/
theorem putDeployResult_db (db : Database) (token : String) (body : DeployResultBody) :
    (putDeployResult db token body).1 =
      { db with appDownstreamOutput := (putDeployResult db token body).1.appDownstreamOutput } := by
  have hupdate : ∀ clusterId sequence,
      updateDownstreamDeployStatus db body.appId clusterId sequence body.isError body.output =
      { db with appDownstreamOutput := (updateDownstreamDeployStatus db body.appId clusterId
        sequence body.isError body.output).appDownstreamOutput } := by
    intro clusterId sequence
    unfold updateDownstreamDeployStatus
    dsimp only
    split <;> rfl
  unfold putDeployResult
  split
  · rfl
  · split
    · rfl
    · split
      · rfl
      · rfl
      next v _ => exact hupdate _ _

theorem inv_putDeployResult {s s' : State} {i : Nat} (hs : Inv s)
    (hstep : machine.step s (.putDeployResult i) = some s') : Inv s' := by
  simp only [machine, step] at hstep
  split at hstep
  next => cases hstep
  next r _ =>
    cases hstep
    rw [putDeployResult_db]
    constructor
    · intro e he
      have hold : e ∈ outstanding s := by
        rcases List.mem_append.mp he with hinbox | hresult
        · exact List.mem_append_left _ hinbox
        · obtain ⟨r', hr', rfl⟩ := List.mem_map.mp hresult
          exact List.mem_append_right _ (List.mem_map_of_mem (List.mem_of_mem_eraseIdx hr'))
      obtain ⟨hdeployed, hversion, happs⟩ := hs.current e hold
      exact ⟨hdeployed, hversion, happs⟩
    · intro r' hr'
      exact hs.reports r' (List.mem_of_mem_eraseIdx hr')

theorem inv_step {s s' : State} {a : Action} (hs : Inv s) (hguard : Guard s a)
    (hstep : machine.step s a = some s') : Inv s' := by
  cases a with
  | deployVersion appId sequence now =>
    cases hstep
    exact ⟨fun e he => current_deployVersion (hs.current e he) (hguard e he), hs.reports⟩
  | deployLoop env => exact inv_deployLoop env hs hstep
  | connect token socketId =>
    simp only [machine, step] at hstep
    split at hstep
    next => cases hstep
    next =>
      cases hstep
      exact ⟨hs.current, hs.reports⟩
  | disconnect socketId =>
    cases hstep
    exact ⟨hs.current, hs.reports⟩
  | execute i token outcome => exact inv_execute hs hstep
  | lose i =>
    cases hstep
    refine ⟨fun e he => hs.current e ?_, hs.reports⟩
    rcases List.mem_append.mp he with hinbox | hresult
    · exact List.mem_append_left _ (List.mem_of_mem_eraseIdx hinbox)
    · exact List.mem_append_right _ hresult
  | putDeployResult i => exact inv_putDeployResult hs hstep

theorem inv_everyState : machine.EveryState Init Guard Inv := by
  refine Machine.everyState_of_inv (fun s hs => ?_) fun _ _ _ => inv_step
  obtain ⟨-, hinbox, hresults⟩ := hs
  constructor
  · intro e he
    rw [outstanding, hinbox, hresults] at he
    cases he
  · intro r hr
    rw [hresults] at hr
    cases hr

/-! ## Attribution -/

/-- A result whose deploy is current is stored under the deploy's own sequence. -/
theorem putDeployResult_current {db : Database} {r : Report} {cluster : ClusterRow}
    (hcurrent : Current db r.emission) (happ : r.body.appId = r.emission.args.appId)
    (hcluster : getFromDeployToken db r.token = .ok cluster)
    (hid : cluster.id = r.emission.clusterId) :
    (putDeployResult db r.token r.body).1 =
      updateDownstreamDeployStatus db r.body.appId r.emission.clusterId r.emission.sequence
        r.body.isError r.body.output := by
  obtain ⟨hdeployed, hversion, apps, happs⟩ := hcurrent
  obtain ⟨row, hrow⟩ := Option.isSome_iff_exists.mp hversion
  have hkey : (row.appId, row.clusterId, row.sequence) =
      (r.emission.args.appId, r.emission.clusterId, r.emission.sequence) :=
    (Keyed.find?_eq_some.mp hrow).2
  simp only [Prod.mk.injEq] at hkey
  have hv : getCurrentVersion db r.body.appId r.emission.clusterId =
      .ok (some (mapKotsVersion db row)) := by
    rw [getCurrentVersion_eq_some, happ]
    exact ⟨row, by rw [hkey.2.2, hdeployed], by rw [hkey.2.2, hrow], rfl⟩
  unfold putDeployResult
  simp only [hcluster, hid, happs, hv, mapKotsVersion_sequence, hkey.2.2]

/-- An app with two versions on one cluster, none of them deployed, and one connected operator. -/
def pendingState : State where
  api := {
    db := {
      app := .single { id := "app", name := "App", slug := "app", currentSequence := some 1 }
      cluster := .single { id := "c1", title := "this-cluster", token := "t1" }
      appDownstream := .single { appId := "app", clusterId := "c1", downstreamName := "this-cluster" }
      appDownstreamVersion :=
        ⟨[{ appId := "app", clusterId := "c1", sequence := 0, parentSequence := 0,
            status := "pending" },
          { appId := "app", clusterId := "c1", sequence := 1, parentSequence := 1,
            status := "pending" }], by decide⟩ }
    clusterSocketHistory := [{ clusterId := "c1", socketId := "s1" }]
    lastDeployedSequences := fun _ _ => none
    deploys := []
    appInformers := [] }
  inbox := []
  results := []

end DeployResults

end Kotsadm
