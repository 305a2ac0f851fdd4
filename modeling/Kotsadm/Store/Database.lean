import Kotsadm.Lib.Keyed

/-!
# Database — the tables of kotsadm-postgres

One row type for each table of `migrations/tables`, with the columns the modelled functions read or
write.  The primary key of a table is the `key` of its `Keyed` list.
-/

namespace Kotsadm

abbrev AppId := String

abbrev ClusterId := String

/-- A `timestamp without time zone`, in milliseconds. -/
abbrev Timestamp := Nat

inductive UndeployStatus where
  | inProcess
  | completed
  | failed
  deriving DecidableEq, Repr

inductive InstallState where
  | installed
  | failed
  | installError
  | onlineUploadPending
  | onlineUploadInProgress
  | onlineUploadError
  | airgapUploadPending
  | airgapUploadInProgress
  | airgapUploadError
  deriving DecidableEq, Repr

structure AppRow where
  id : AppId
  name : String
  iconUri : String := ""
  slug : String
  currentSequence : Option Int := none
  installState : InstallState := .installed
  isAirgap : Bool := false
  license : String := ""
  registryHostname : Option String := none
  registryUsername : Option String := none
  registryPassword : Option String := none
  registryPasswordEnc : Option String := none
  registryNamespace : Option String := none
  lastRegistrySync : Option Timestamp := none
  restoreInProgressName : Option String := none
  -- `NULL` and `''` are both `none`
  restoreUndeployStatus : Option UndeployStatus := none
  deriving DecidableEq, Repr

/-- The columns of `app_version` that an `ON CONFLICT DO UPDATE` overwrites, `created_at` apart. -/
structure AppVersionColumns where
  versionLabel : String := ""
  releaseNotes : String := ""
  updateCursor : String := ""
  channelName : String := ""
  encryptionKey : String := ""
  supportbundleSpec : String := ""
  analyzerSpec : String := ""
  preflightSpec : String := ""
  appSpec : String := ""
  kotsAppSpec : String := ""
  kotsLicense : String := ""
  configSpec : String := ""
  configValues : String := ""
  backupSpec : String := ""
  deriving DecidableEq, Repr

structure AppVersionRow extends AppVersionColumns where
  appId : AppId
  sequence : Int
  createdAt : Timestamp
  deriving DecidableEq, Repr

structure AppDownstreamRow where
  appId : AppId
  clusterId : ClusterId
  downstreamName : String
  currentSequence : Option Int := none
  deriving DecidableEq, Repr

structure AppDownstreamVersionRow where
  appId : AppId
  clusterId : ClusterId
  sequence : Int
  parentSequence : Int
  createdAt : Timestamp := 0
  appliedAt : Option Timestamp := none
  versionLabel : String := ""
  -- free text: the GraphQL mutation `updateDownstreamsStatus` stores what its caller sends
  status : String
  statusInfo : String := ""
  source : String := ""
  diffSummary : String := ""
  preflightResult : Option String := none
  preflightResultCreatedAt : Option Timestamp := none
  preflightIgnorePermissions : Option Bool := none
  gitCommitUrl : String := ""
  gitDeployable : Bool := true
  deriving DecidableEq, Repr

structure AppDownstreamOutputRow where
  appId : AppId
  clusterId : ClusterId
  downstreamSequence : Int
  isError : Bool
  dryrunStdout : Option String
  dryrunStderr : Option String
  applyStdout : Option String
  applyStderr : Option String
  deriving DecidableEq, Repr

structure ClusterRow where
  id : ClusterId
  title : String
  token : String
  deriving DecidableEq, Repr

structure ApiTaskStatusRow where
  id : String
  updatedAt : Timestamp
  currentMessage : String
  status : String
  deriving DecidableEq, Repr

namespace AppRow

@[reducible] def key (r : AppRow) : AppId := r.id

end AppRow

namespace AppVersionRow

@[reducible] def key (r : AppVersionRow) : AppId × Int := (r.appId, r.sequence)

end AppVersionRow

namespace AppDownstreamRow

@[reducible] def key (r : AppDownstreamRow) : AppId × ClusterId := (r.appId, r.clusterId)

end AppDownstreamRow

namespace AppDownstreamVersionRow

@[reducible] def key (r : AppDownstreamVersionRow) : AppId × ClusterId × Int :=
  (r.appId, r.clusterId, r.sequence)

end AppDownstreamVersionRow

namespace AppDownstreamOutputRow

@[reducible] def key (r : AppDownstreamOutputRow) : AppId × ClusterId × Int :=
  (r.appId, r.clusterId, r.downstreamSequence)

end AppDownstreamOutputRow

namespace ClusterRow

@[reducible] def key (r : ClusterRow) : ClusterId := r.id

end ClusterRow

namespace ApiTaskStatusRow

@[reducible] def key (r : ApiTaskStatusRow) : String := r.id

end ApiTaskStatusRow

/-- The database shared by the TypeScript API and the Go code. -/
structure Database where
  app : Keyed AppRow.key := .empty
  appVersion : Keyed AppVersionRow.key := .empty
  appDownstream : Keyed AppDownstreamRow.key := .empty
  appDownstreamVersion : Keyed AppDownstreamVersionRow.key := .empty
  appDownstreamOutput : Keyed AppDownstreamOutputRow.key := .empty
  cluster : Keyed ClusterRow.key := .empty
  apiTaskStatus : Keyed ApiTaskStatusRow.key := .empty

end Kotsadm
