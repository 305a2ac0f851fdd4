import Kotsadm.Lib.Throws
import Kotsadm.Store.KotsAppStore

/-!
# DeploySocket — what the API sends to the operators

`deployLoop` and `undeployApp` of `DeploySocket.ts`, and `getDesiredState` and `putDeployResult` of
`DeployAPI.ts`.  Everything outside the database (object storage, kustomize, YAML, velero) is
an `Env`.
-/

namespace Kotsadm

open KotsAppStore

/-- The `spec` of a kots `Application`. -/
structure ApplicationSpec where
  kustomizeVersion : String := ""
  kubectlVersion : String := ""
  additionalNamespaces : List String := []
  statusInformers : Option (List String) := none
  deriving DecidableEq, Repr

/-- A `deploy` event as the operator decodes it: an absent field has Go's zero value. -/
structure ApplicationManifests where
  appId : AppId
  appSlug : String := ""
  kubectlVersion : String
  additionalNamespaces : List String := []
  imagePullSecret : String := ""
  desiredNamespace : String
  previousManifests : String := ""
  manifests : String
  wait : Bool := false
  resultCallback : String := ""
  clearNamespaces : List String := []
  clearPvcs : Bool := false
  annotateSlug : Bool := false
  deriving DecidableEq, Repr

/-- What the sockets read besides the database. -/
structure Env where
  /-- `yaml.safeLoad(spec).spec` -/
  loadKotsAppSpec : String → Except String ApplicationSpec
  /-- `kustomize build` of an overlay of the archive with this sequence. -/
  render : AppId → String → String → String → Except String String
  getImagePullSecretFromArchive : AppId → String → Except String String
  /-- `spec.includedNamespaces` of a velero `Backup`. -/
  readBackup : String → Except String (List String)
  /-- `toString("base64")` -/
  base64 : String → String
  annotateSlug : Bool

/-- `ClusterSocketHistory`; its map of last deployed sequences is a field of `DeployState`. -/
structure ClusterSocketHistory where
  clusterId : ClusterId
  socketId : String
  deriving DecidableEq, Repr

/-- A `deploy` event in the order of emission, with the sequence it was rendered from. -/
structure Emission where
  clusterId : ClusterId
  sequence : Int
  args : ApplicationManifests
  deriving DecidableEq, Repr

structure DeployState where
  db : Database
  clusterSocketHistory : List ClusterSocketHistory
  -- by socket and app
  lastDeployedSequences : String → AppId → Option Int
  -- newest first
  deploys : List Emission
  appInformers : List (ClusterId × AppId × List String)

/-- `String(err)` of a `ReplicatedError`. -/
def replicatedErrorText (msg : String) : String :=
  "Error: \x7b\"replicatedMessage\":\"" ++ msg ++ "\"\x7d"

def getCluster (db : Database) (id : ClusterId) : Except String ClusterRow :=
  match db.cluster.find? id with
  | none => .error "Cannot read property 'cluster_type' of undefined"
  | some row => .ok row

def overlayPath (cluster : ClusterRow) : String := "overlays/downstreams/" ++ cluster.title

def KotsAppStore.getKotsAppSpec (env : Env) (db : Database) (appId : AppId) (sequence : Int) :
    Except String (Option ApplicationSpec) :=
  match db.appVersion.find? (appId, sequence) with
  | none => .ok none
  | some row =>
    if row.kotsAppSpec = "" then .ok none
    else (env.loadKotsAppSpec row.kotsAppSpec).map some

/-- `KotsApp.getKotsAppSpec`: the spec of the version the downstream runs. -/
def getKotsAppSpec (env : Env) (db : Database) (appId : AppId) (clusterId : ClusterId) :
    Except String (Option ApplicationSpec) :=
  match getCurrentVersion db appId clusterId with
  | .error msg => .error (replicatedErrorText msg)
  | .ok none => .ok none
  | .ok (some activeDownstream) =>
    KotsAppStore.getKotsAppSpec env db appId activeDownstream.parentSequence

def kustomizeVersion (spec : Option ApplicationSpec) : String :=
  (spec.map (·.kustomizeVersion)).getD ""

def kubectlVersion (spec : Option ApplicationSpec) : String :=
  (spec.map (·.kubectlVersion)).getD ""

/-! ## deployLoop -/

/-- `previous_manifests` stays empty without a previous sequence. -/
def renderPrevious (env : Env) (appId : AppId) (cluster : ClusterRow) (kustomizeVersion : String) :
    Option Int → Except String String
  | none => .ok ""
  | some previousSequence =>
    (env.render appId (toString previousSequence) (overlayPath cluster) kustomizeVersion).map
      env.base64

/-- The arguments of the `deploy` event of `deployLoop`. -/
def deployArgs (env : Env) (db : Database) (app : KotsApp) (cluster : ClusterRow)
    (deployedAppSequence : Int) : Except String ApplicationManifests := do
  let kotsAppSpec ← getKotsAppSpec env db app.id cluster.id
  let rendered ← env.render app.id (toString deployedAppSequence) (overlayPath cluster)
    (kustomizeVersion kotsAppSpec)
  let imagePullSecret ← env.getImagePullSecretFromArchive app.id (toString deployedAppSequence)
  let previousManifests ← renderPrevious env app.id cluster (kustomizeVersion kotsAppSpec)
    (getPreviouslyDeployedSequence db app.id cluster.id deployedAppSequence)
  return {
    appId := app.id
    appSlug := app.slug
    kubectlVersion := kubectlVersion kotsAppSpec
    additionalNamespaces := ((kotsAppSpec.map (·.additionalNamespaces)).getD [])
    imagePullSecret := imagePullSecret
    desiredNamespace := "."
    manifests := env.base64 rendered
    previousManifests := previousManifests
    resultCallback := "/api/v1/deploy/result"
    wait := false
    annotateSlug := env.annotateSlug }

/-- `io.in(clusterId).emit("deploy", args)`, and the sequence remembered for the socket. -/
def emitDeploy (s : DeployState) (history : ClusterSocketHistory) (app : KotsApp) (sequence : Int)
    (args : ApplicationManifests) : DeployState :=
  { s with
    deploys := ⟨history.clusterId, sequence, args⟩ :: s.deploys
    lastDeployedSequences := Function.update s.lastDeployedSequences history.socketId
      (Function.update (s.lastDeployedSequences history.socketId) app.id (some sequence)) }

/-- A failure here is logged and ignored; without informers only the app status table is written. -/
def emitInformers (env : Env) (s : DeployState) (history : ClusterSocketHistory) (app : KotsApp) :
    DeployState :=
  match getKotsAppSpec env s.db app.id history.clusterId with
  | .ok (some { statusInformers := some informers, .. }) =>
    { s with appInformers := (history.clusterId, app.id, informers) :: s.appInformers }
  | _ => s

def restoreInProgress (app : KotsApp) : Bool := app.restoreInProgressName.any (· ≠ "")

/-- The body of the inner loop of `deployLoop`, with what escapes it. -/
def deployApp (env : Env) (history : ClusterSocketHistory) (app : KotsApp) (s : DeployState) :
    DeployState × Option String :=
  if restoreInProgress app then (s, none)
  else
    match getCurrentVersion s.db app.id history.clusterId with
    | .error msg => (s, some msg)
    | .ok none => (s, none)
    | .ok (some deployedAppVersion) =>
      if deployedAppVersion.sequence > -1 then
        if s.lastDeployedSequences history.socketId app.id = some deployedAppVersion.sequence then
          (s, none)
        else
          match getCluster s.db history.clusterId with
          | .error msg => (s, some msg)
          | .ok cluster =>
            match deployArgs env s.db app cluster deployedAppVersion.sequence with
            | .error err =>
              ({ s with
                  db := updateDownstreamsStatus s.db app.id deployedAppVersion.sequence "failed"
                    err }, none)
            | .ok args =>
              (emitInformers env (emitDeploy s history app deployedAppVersion.sequence args)
                history app, none)
      else (s, none)

/-- The body of the outer loop of `deployLoop`. -/
def deployCluster (env : Env) (history : ClusterSocketHistory) (s : DeployState) :
    DeployState × Option String :=
  match listAppsForCluster s.db history.clusterId with
  | .error msg => (s, some msg)
  | .ok apps => forEach (deployApp env history) apps s

/-- One tick.  What escapes a body ends the tick; what was emitted before stays emitted. -/
def deployLoop (env : Env) (s : DeployState) : DeployState :=
  (forEach (deployCluster env) s.clusterSocketHistory s).1

/-! ## undeployApp -/

/-- `currentSequence!.toString()` -/
def sequenceText : Option Int → Except String String
  | none => .error "Cannot read property 'toString' of null"
  | some sequence => .ok (toString sequence)

/-- The arguments of the `deploy` event of `undeployApp`. -/
def undeployArgs (env : Env) (db : Database) (app : KotsApp) (cluster : ClusterRow) :
    Except String ApplicationManifests := do
  let kotsAppSpec ← getKotsAppSpec env db app.id cluster.id
  let currentSequence ← sequenceText app.currentSequence
  let rendered ← env.render app.id currentSequence (overlayPath cluster)
    (kustomizeVersion kotsAppSpec)
  let includedNamespaces ← env.readBackup (app.restoreInProgressName.getD "")
  -- make operator prune everything
  return {
    appId := app.id
    appSlug := app.slug
    kubectlVersion := kubectlVersion kotsAppSpec
    desiredNamespace := "."
    manifests := ""
    previousManifests := env.base64 rendered
    resultCallback := "/api/v1/undeploy/result"
    wait := true
    clearNamespaces := includedNamespaces
    clearPvcs := true }

/-! ## getDesiredState -/

/-- What `getDesiredState` says is present of one app. -/
def desiredManifests (env : Env) (db : Database) (app : KotsApp) (cluster : ClusterRow) :
    Except String (Option ApplicationManifests) :=
  match getCurrentVersion db app.id cluster.id with
  | .error msg => .error msg
  | .ok none => .ok none
  | .ok (some deployedKotsAppVersion) =>
    if deployedKotsAppVersion.sequence > -1 then do
      let kotsAppSpec ← getKotsAppSpec env db app.id cluster.id
      let rendered ← env.render app.id (app.currentSequence.elim "null" toString)
        (overlayPath cluster) (kustomizeVersion kotsAppSpec)
      return some {
        appId := app.id
        kubectlVersion := kubectlVersion kotsAppSpec
        desiredNamespace := "."
        manifests := env.base64 rendered }
    else .ok none

/-- The `present` list of the response; an error is a response with status 500. -/
def getDesiredState (env : Env) (db : Database) (cluster : ClusterRow) :
    Except String (List ApplicationManifests) := do
  let apps ← listAppsForCluster db cluster.id
  let present ← apps.mapM fun app => desiredManifests env db app cluster
  return present.reduceOption

end Kotsadm
