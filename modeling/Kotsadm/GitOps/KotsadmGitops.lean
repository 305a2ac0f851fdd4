import Kotsadm.Lib.Grouping
import Kotsadm.Lib.NodeBuffer
import Kotsadm.Lib.Reorder
import Kotsadm.Lib.Throws

/-!
# KotsadmGitops — the secret and the config map named `kotsadm-gitops`

The secret holds the repositories: the entries of the one with index `i` are those named
`provider.i.…`.  The config map holds the settings of each app and cluster.  The order in which the
entries of the secret are read is a parameter.  Where the cluster answers that an object does not
exist, the client throws `notFound`; it does not fail otherwise.
-/

namespace Kotsadm.GitOps

open Grouping NodeBuffer

/-! ## utilities.ts -/

def base64Encode (value : String) : String :=
  String.ofList (NodeBuffer.base64Encode (utf8 value.toList))

/-- `none` is `undefined`. -/
def base64Decode (data : Option String) : String :=
  match data with
  | none => ""
  | some data => String.ofList (toAscii (NodeBuffer.base64Decode data.toList))

theorem base64Decode_base64Encode (value : String) :
    (base64Decode (some (base64Encode value))).toList = reread value.toList := by
  unfold base64Decode base64Encode
  rw [String.toList_ofList, String.toList_ofList, NodeBuffer.base64Decode_base64Encode]
  rfl

/-! ## The cluster -/

/-- The `data` of the two objects that exist.  Without entries it is not sent. -/
structure Cluster where
  secret : Option (Map String String)
  configMap : Option (Map String String)
  deriving DecidableEq

/-- `body.data` -/
def bodyData (object : Map String String) : Option (Map String String) :=
  if object.entries = [] then none else some object

def notFound : String := "HttpError: HTTP request failed"

/-! ## The repositories -/

/-- `key.charAt(9)`; the keys are ASCII. -/
def indexChar (key : String) : String := String.ofList ((key.toList.drop 9).take 1)

/-- `parseInt` of one character; `none` is `NaN`. -/
def parseDigit (text : String) : Option Nat :=
  match text.toList with
  | [c] => if c.isDigit then some (c.toNat - '0'.toNat) else none
  | _ => none

def showIndex : Option Nat → String
  | none => "NaN"
  | some index => toString index

/-- `provider.${index}.…` -/
def providerKey (index field : String) : String := s!"provider.{index}.{field}"

section

variable (order : Reorder (String × String))

/-- `Object.keys(data)` -/
def keys (data : Map String String) : List String := (order.apply (pairs data)).map Prod.fst

/-- The first key whose value is `uri`. -/
def findUri (data : Map String String) (uri : String) : Option String :=
  (keys order data).find? fun key => base64Decode (data.lookup key) = uri

/-- `Math.max(...indices) + 1`, and 0 without indices. -/
def nextIndex (indices : List (Option Nat)) : Option Nat :=
  if indices = [] then some 0
  else (indices.foldr (fun i max => do return Nat.max (← i) (← max)) (some 0)).map (· + 1)

/-- `delete data[hostnameKey]`, and what is stored if there is a hostname. -/
def setHostname (data : Map String String) (index hostname : String) : Map String String :=
  let data := data.erase (providerKey index "hostname")
  if hostname = "" then data
  else data.insert (providerKey index "hostname") (base64Encode hostname)

def createGitOpsRepo (cluster : Cluster) (provider uri hostname privateKey publicKey : String) :
    Cluster :=
  let data := cluster.secret.getD ∅
  let found := findUri order data uri
  -- a repository that is found keeps its index and its keys
  let index := showIndex <| match found with
    | some key => parseDigit (indexChar key)
    | none => nextIndex ((keys order data).map fun key => parseDigit (indexChar key))
  let data := data.insert (providerKey index "type") (base64Encode provider)
  let data := data.insert (providerKey index "repoUri") (base64Encode uri)
  let data :=
    if found = none then
      (data.insert (providerKey index "publicKey") (base64Encode publicKey)).insert
        (providerKey index "privateKey") (base64Encode privateKey)
    else data
  { cluster with secret := some (setHostname data index hostname) }

/-- The body of the loop over the keys. -/
def updateKey (uriToUpdate newUri hostname : String) (data : Map String String) (key : String) :
    Map String String :=
  -- without a URI to update every key counts, and only the hostnames change
  let isSingleApp := uriToUpdate ≠ ""
  if ¬ isSingleApp ∨ base64Decode (data.lookup key) = uriToUpdate then
    let index := indexChar key
    let data :=
      if isSingleApp then data.insert (providerKey index "repoUri") (base64Encode newUri)
      else data
    setHostname data index hostname
  else data

def updateGitOpsRepo (cluster : Cluster) (uriToUpdate newUri hostname : String) :
    Except String Cluster :=
  match cluster.secret.bind bodyData with
  | none => .error "Error updating gitops secret"
  | some data => .ok { cluster with
      secret := some ((keys order data).foldl (updateKey uriToUpdate newUri hostname) data) }

/-! ## The settings of an app and a cluster -/

variable {ν : Type}

structure GitopsInfo (ν : Type) where
  provider : String
  repoUri : Option (Json ν)
  hostname : Option String
  path : Option (Json ν)
  branch : Option (Json ν)
  format : Option (Json ν)
  action : Option (Json ν)
  publicKey : String
  privateKey : String
  lastError : Option (Json ν)

def appClusterKey (appId clusterId : String) : String := s!"{appId}-{clusterId}"

/-- `x.key` -/
def readKey (x : Json ν) (key : String) : Except String (Option (Json ν)) :=
  (x.get key).mapError fun e => s!"TypeError: {e}"

/-- The error that `setDownstreamGitOps` keeps. -/
def keptError (branch repoUri : String) (parsedData : Json ν) :
    Except String (Option (Json ν)) := do
  let oldUri ← readKey parsedData "repoUri"
  let oldBranch ← readKey parsedData "branch"
  match oldBranch, oldUri with
  | some (.str oldBranch), some (.str oldUri) =>
    if oldBranch ≠ branch ∨ oldUri ≠ repoUri then return none -- reset last error
    else readKey parsedData "lastError"
  -- one of the two is missing, or no text
  | _, _ => return none

/-- What is stored; a `lastError` that is `undefined` is not written. -/
def downstreamData (repoUri branch path format action : String) (lastError : Option (Json ν)) :
    Json ν :=
  .obj ([("repoUri", .str repoUri), ("branch", .str branch), ("path", .str path),
    ("format", .str format), ("action", .str action)] ++
    (lastError.map fun lastError => ("lastError", lastError)).toList)

/-- `JSON.parse(base64Decode(data))` -/
def parseEntry (ν : Type) [JsonNumber ν] (entry : String) : Except String (Json ν) :=
  match Json.parse (base64Decode (some entry)).toList with
  | none => .error "SyntaxError: Unexpected token in JSON"
  | some parsedData => .ok parsedData

/-- The last error for the new entry. -/
def priorError (ν : Type) [JsonNumber ν] (data : Map String String) (key branch repoUri : String) :
    Except String (Option (Json ν)) :=
  match data.lookup key with
  | none => .ok none
  | some entry => parseEntry ν entry >>= keptError branch repoUri

def setDownstreamGitOps (ν : Type) [JsonNumber ν] (cluster : Cluster)
    (appId clusterId repoUri branch path format action : String) : Except String Cluster :=
  let data := cluster.configMap.getD ∅
  let key := appClusterKey appId clusterId
  match priorError ν data key branch repoUri with
  | .error e => .error s!"Failed to create gitops configmap {e}"
  | .ok lastError =>
    let entry := base64Encode (String.ofList
      (downstreamData repoUri branch path format action lastError).stringify)
    .ok { cluster with configMap := some (data.insert key entry) }

/-- The provider, the keys and the hostname under the index of a key. -/
def providerAt (secretData : Map String String) (index : String) :
    String × String × String × Option String :=
  (base64Decode (secretData.lookup (providerKey index "type")),
    base64Decode (secretData.lookup (providerKey index "publicKey")),
    base64Decode (secretData.lookup (providerKey index "privateKey")),
    (secretData.lookup (providerKey index "hostname")).map fun hostname =>
      base64Decode (some hostname))

/-- The loop over the keys of the secret. -/
def findProvider (secretData : Map String String) (repoUri : Option (Json ν)) :
    String × String × String × Option String :=
  match repoUri with
  -- no value of the secret equals a URI that is no text
  | some (.str repoUri) =>
    match findUri order secretData repoUri with
    | some key => providerAt secretData (indexChar key)
    | none => ("", "", "", none)
  | _ => ("", "", "", none)

def found {α : Type} (object : Option α) : Except String α :=
  match object with
  | none => .error notFound
  | some object => .ok object

/-- `String(err)` of a `ReplicatedError` -/
def replicatedError (msg : String) : String :=
  "Error: " ++ String.ofList
    (Json.stringify (.obj [("replicatedMessage", .str msg)] : Json Empty))

/-- What is parsed for an app and a cluster. -/
def gitopsData (ν : Type) [JsonNumber ν] (configMap : Map String String)
    (appId clusterId : String) : Except String (Json ν) :=
  let appClusterKey := appClusterKey appId clusterId
  match bodyData configMap with
  | none =>
    .error s!"TypeError: Cannot use 'in' operator to search for '{appClusterKey}' in undefined"
  | some data =>
    match data.lookup appClusterKey with
    | none => .error (replicatedError
        s!"No gitops data found for app with id {appId} and cluster with id {clusterId}")
    | some entry => parseEntry ν entry

/-- `Object.keys` throws without entries. -/
def gitopsProviders (secret : Map String String) : Except String (Map String String) :=
  match bodyData secret with
  | none => .error "TypeError: Cannot convert undefined or null to object"
  | some secretData => .ok secretData

def readGitopsInfo (ν : Type) [JsonNumber ν] (cluster : Cluster) (appId clusterId : String) :
    Except String (GitopsInfo ν) := do
  let secret ← found cluster.secret
  let configMap ← found cluster.configMap
  let configMapData ← gitopsData ν configMap appId clusterId
  -- the config map is parsed before the entries of the secret are looked at
  let secretData ← gitopsProviders secret
  let repoUri ← readKey configMapData "repoUri"
  let (provider, publicKey, privateKey, hostname) := findProvider order secretData repoUri
  return {
    provider, repoUri, hostname, publicKey, privateKey
    path := ← readKey configMapData "path"
    branch := ← readKey configMapData "branch"
    format := ← readKey configMapData "format"
    action := ← readKey configMapData "action"
    lastError := ← readKey configMapData "lastError" }

def getGitopsInfo (ν : Type) [JsonNumber ν] (cluster : Cluster) (appId clusterId : String) :
    Except String (GitopsInfo ν) :=
  match readGitopsInfo order ν cluster appId clusterId with
  | .error e => .error s!"Failed to get gitops info {e}"
  | .ok info => .ok info

end

end Kotsadm.GitOps
