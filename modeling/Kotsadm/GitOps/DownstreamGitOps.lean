import Kotsadm.GitOps.CreateGitOpsCommit
import Kotsadm.GitOps.DownstreamRoundTrip
import Kotsadm.Lib.GoBase64

/-!
# DownstreamGitOps — the repository of an app and a cluster, as Go and as TypeScript read it

Both read the secret and the config map named `kotsadm-gitops`.  Go gets the bytes of the secret and
walks its map in any order; TypeScript gets them in base64, and in an order.  The cipher of the
deploy keys is a parameter; TypeScript leaves its use to the callers of `getGitOpsCreds`.  The errors
of the two decoders are without the offset and the character.
-/

namespace Kotsadm.GitOps

open Grouping GoString

/-! ## What is stored -/

/-- The `data` of the two objects that exist; the values of a secret are bytes. -/
structure Objects where
  secret : Option (Map String GoString)
  configMap : Option (Map String String)

/-- The `data` of a secret in JSON. -/
def encodeData (data : Map String GoString) : Map String String where
  entries := data.entries.map fun entry =>
    ⟨entry.1, String.ofList (NodeBuffer.base64Encode entry.2)⟩
  nodupKeys := by
    have hkeys : (data.entries.map fun entry : Sigma fun _ : String => GoString =>
        (⟨entry.1, String.ofList (NodeBuffer.base64Encode entry.2)⟩ :
          Sigma fun _ : String => String)).keys = data.entries.keys := by
      unfold List.keys
      rw [List.map_map]
      rfl
    show List.Nodup _
    rw [hkeys]
    exact data.nodupKeys

/-- What TypeScript gets. -/
def Objects.cluster (objects : Objects) : Cluster where
  secret := objects.secret.map encodeData
  configMap := objects.configMap

/-! ## gitops.go -/

section

variable {ν : Type}

/-- The character of a rune. -/
def runeChar : Rune → Char
  | .char c => c
  | .invalid _ => '\uFFFD'

/-- `json.UnmarshalTypeError` -/
def typeError (x : Json ν) (goType : String) : GoError :=
  let kind := match x with
    | .null => "null"
    | .bool _ => "bool"
    | .num _ => "number"
    | .str _ => "string"
    | .arr _ => "array"
    | .obj _ => "object"
  { cause := s!"json: cannot unmarshal {kind} into Go value of type {goType}" }

/-- A value of a `map[string]string`; a `null` leaves its zero value. -/
def unmarshalText : Json ν → Except GoError String
  | .str s => .ok s
  | .null => .ok ""
  | x => .error (typeError x "string")

/-- The map of the pairs of an object; a key that comes again is overwritten. -/
def unmarshalFields (fields : List (String × Json ν)) : Except GoError (Map String String) := do
  let texts ← fields.mapM fun (key, x) => do return (key, ← unmarshalText x)
  return texts.foldl (fun settings (key, text) => settings.insert key text) ∅

def decodeString (text : GoString) : Except GoError GoString :=
  match decodeStd text with
  | none => .error { cause := "illegal base64 data" }
  | some decoded => .ok decoded

variable (ν) [JsonNumber ν]

/-- `json.Unmarshal` into a `map[string]string` -/
def unmarshalSettings (decoded : GoString) : Except GoError (Map String String) :=
  match (Json.parse ((runes decoded).map runeChar) : Option (Json ν)) with
  | none => .error { cause := "invalid character" }
  -- a nil map reads as an empty one
  | some .null => .ok ∅
  | some (.obj fields) => unmarshalFields fields
  | some x => .error (typeError x "map[string]string")

/-- `configMapData` -/
def configMapData (encoded : String) : Except GoError (Map String String) := do
  let decoded ← (decodeString (ofChars encoded.toList)).wrapError "failed to decode configmap data"
  (unmarshalSettings ν decoded).wrapError "faield to unmarshal configmap data"

end

/-- `configMapData[key]` -/
def setting (settings : Map String String) (key : String) : GoString :=
  ofChars ((settings.lookup key).getD "").toList

/-- What `strconv.ParseInt` returns, whether or not with an error. -/
def parseIndex (text : GoString) : Int :=
  match atoi text with
  | .ok idx => idx.toInt
  | .error .errSyntax => 0
  | .error .errRange => if (cutSign text).1 then -2 ^ 63 else 2 ^ 63 - 1

/-- The index in the key of a URI. -/
def uriIndex (key : String) : Option Int :=
  match key.toList.splitOn '.' with
  | [_, idx, field] =>
    -- what comes before the index is not looked at
    if field = "repoUri".toList then some (parseIndex (ofChars idx)) else none
  | _ => none

/-- The loop over the map of the secret, which has any order. -/
def selectIndex (mapOrder : Reorder (String × GoString)) (data : Map String GoString)
    (repoURI : GoString) : Option Int :=
  (mapOrder.apply (pairs data)).findSome? fun (key, val) =>
    if val = repoURI then uriIndex key else none

/-- `string(secretData["provider.idx.field"])` -/
def secretText (secretData : Map String GoString) (idx : Int) (field : String) : GoString :=
  (secretData.lookup (providerKey (toString idx) field)).getD []

/-- The provider, the keys and the URI. -/
def gitOpsConfigFromSecretData (idx : Int) (secretData : Map String GoString) :
    GoString × GoString × GoString × GoString :=
  (secretText secretData idx "type", secretText secretData idx "publicKey",
    secretText secretData idx "privateKey", secretText secretData idx "repoUri")

/-- `crypto.AESCipherFromString` and what `Decrypt` does, or its error. -/
abbrev Cipher := Except GoError (GoString → Except GoError GoString)

def decryptKey (cipher : Cipher) (privateKey : GoString) : Except GoError GoString := do
  let decrypt ← cipher.wrapError "failed to create aes cipher"
  let decoded ← (decodeString privateKey).wrapError "failed to decode"
  (decrypt decoded).wrapError "failed to decrypt"

/-- `GetDownstreamGitOps`, with the index that it has selected. -/
def getDownstreamGitOps (ν : Type) [JsonNumber ν] (mapOrder : Reorder (String × GoString))
    (cipher : Cipher) (objects : Objects) (appID clusterID : String) :
    Except GoError (Option (Int × GitOpsConfig)) :=
  match objects.secret, objects.configMap with
  | some secretData, some configMap =>
    match configMap.lookup (appClusterKey appID clusterID) with
    | none => .ok none
    | some encoded => do
      let settings ← configMapData ν encoded
      match selectIndex mapOrder secretData (setting settings "repoUri") with
      | none => return none
      | some idx =>
        let (provider, publicKey, privateKey, repoURI) :=
          gitOpsConfigFromSecretData idx secretData
        let privateKey ← decryptKey cipher privateKey
        return some (idx, {
          provider, publicKey, privateKey, repoURI
          branch := setting settings "branch"
          path := setting settings "path"
          format := setting settings "format"
          action := setting settings "action"
          lastError := setting settings "lastError" })
  -- `IsNotFound`
  | _, _ => .ok none

/-! ## kots_app_store.ts -/

structure GitOpsCreds where
  uri : String
  pubKey : String
  privKey : String
  provider : String
  cloneUri : String

/-- The hosts of the three cases. -/
def cloneHost : List (String × String) :=
  [("github", "github.com"), ("gitlab", "gitlab.com"), ("bitbucket", "bitbucket.org")]

/-- `${uriParts[n]}` -/
def uriPart (uriParts : List (List Char)) (n : Nat) : String :=
  match uriParts[n]? with
  | none => "undefined"
  | some part => String.ofList part

def cloneUri (provider repoUri : String) : String :=
  let uriParts := repoUri.toList.splitOn '/'
  match cloneHost.lookup provider with
  | none => repoUri
  | some host => s!"git@{host}:{uriPart uriParts 3}/{uriPart uriParts 4}.git"

def getGitOpsCreds (order : Reorder (String × String)) (ν : Type) [JsonNumber ν]
    (cluster : Cluster) (appId clusterId : String) : Except String GitOpsCreds := do
  let info ← getGitopsInfo order ν cluster appId clusterId
  match info.repoUri with
  | some (.str repoUri) => return {
      uri := repoUri
      pubKey := info.publicKey
      privKey := info.privateKey
      provider := info.provider
      cloneUri := cloneUri info.provider repoUri }
  | none => .error "TypeError: Cannot read property 'split' of undefined"
  | some .null => .error "TypeError: Cannot read property 'split' of null"
  | some _ => .error "TypeError: repoUri.split is not a function"

end Kotsadm.GitOps
