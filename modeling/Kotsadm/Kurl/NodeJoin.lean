import Kotsadm.Lib.Dictionary
import Kotsadm.Lib.Machine

/-!
# NodeJoin — the command that adds a node

`GenerateAddNodeCommand` reads the config map of kURL, looks at what has expired, and lets
`UpdateConfigMap` read it again, renew the bootstrap token and the certificates, and write it back.
Any number of requests do this at once; the write fails when the config map has changed since it was
read.
-/

namespace Kotsadm.Kurl.NodeJoin

/-! ## Time -/

/-- A `time.Duration`, in nanoseconds; a time counts from the epoch. -/
def second : Nat := 1000000000
def minute : Nat := 60 * second
def hour : Nat := 60 * minute

def configExpirationRegeneratePeriod : Nat := 10 * minute

/-- A value of the config map, by what `time.Parse(time.RFC3339, value)` makes of it. -/
inductive Stamp
  | unparsable
  | at (seconds : Nat)
  deriving DecidableEq, Repr

/-- `t.Format(time.RFC3339)` -/
def Stamp.format (t : Nat) : Stamp := .at (t / second)

def Stamp.parse : Stamp → Option Nat
  | .unparsable => none
  | .at seconds => some (seconds * second)

/-! ## configmap.go -/

/-- `bootstrap_token` or `cert_key`, and the key with its expiration. -/
structure Credential where
  secret : Option String := none
  expiration : Option Stamp := none
  deriving DecidableEq, Repr

structure Data where
  token : Credential := {}
  certs : Credential := {}
  -- the other keys
  values : Dictionary String String := .empty

/-- A missing key is the empty string. -/
def Data.get (data : Data) (key : String) : String := (data.values.get key).getD ""

def Credential.expiry (c : Credential) : Option Nat := c.expiration.bind Stamp.parse

def Credential.record (secret : String) (expiration : Nat) : Credential where
  secret := some secret
  expiration := some (.format expiration)

def bootstrapTokenDuration : Nat := 24 * hour
def certsDuration : Nat := 2 * hour

/-! ## node_join.go -/

/-- There is no expiration, it does not parse, or it is less than the period ahead. -/
def Credential.expires (now : Nat) (c : Credential) : Bool :=
  match c.expiration with
  | none => true
  | some value =>
    match value.parse with
    | none => true
    | some expiration => decide (expiration < now + configExpirationRegeneratePeriod)

def shouldRegenerateBootstrapToken (now : Nat) (data : Data) : Bool := data.token.expires now

def shouldUploadCerts (now : Nat) (data : Data) (master : Bool) : Bool :=
  master && data.certs.expires now

/-- `strconv.ParseBool`, where an error is false -/
def parseBool (value : String) : Bool :=
  value ∈ ["1", "t", "T", "TRUE", "true", "True"]

def joinCommand (data : Data) (gitVersion : String) (master : Bool) : List String :=
  let join :=
    if parseBool (data.get "airgap") then "cat join.sh | sudo bash -s airgap"
    else "curl -sSL " ++ data.get "kurl_url" ++ "/" ++ data.get "installer_id" ++
      "/join.sh | sudo bash -s"
  let command :=
    [join,
      "kubernetes-master-address=" ++ data.get "kubernetes_api_address",
      "kubeadm-token=" ++ data.token.secret.getD "",
      "kubeadm-token-ca-hash=" ++ data.get "ca_hash",
      "docker-registry-ip=" ++ data.get "docker_registry_ip",
      "kubernetes-version=" ++ gitVersion]
  if master then command ++ ["cert-key=" ++ data.certs.secret.getD "", "control-plane"]
  else command

/-! ## Requests -/

/-- What a request has done; a copy of the config map has its `resourceVersion`. -/
inductive Phase
  /-- the version of the server is known -/
  | started
  | read (data : Data)
  | tokenChecked (data : Data) (regenerate : Bool)
  | checked (regenerate upload : Bool)
  /-- in `UpdateConfigMap` -/
  | got (data : Data) (version : Nat) (generate upload : Bool)
  /-- `bootstrapTokenExpiration` is computed -/
  | stamped (data : Data) (version expiration : Nat) (upload : Bool)
  | tokenDone (data : Data) (version : Nat) (upload : Bool)
  /-- `certsExpiration` is computed -/
  | certsStamped (data : Data) (version expiration : Nat)
  | certsDone (data : Data) (version : Nat)
  | updated (data : Data)
  | returned (data : Data) (command : List String) (expiry : Nat)
  /-- the expiration of the updated config map does not parse -/
  | unparsed
  | failed

structure Request where
  master : Bool
  gitVersion : String
  phase : Phase := .started
  -- when it called `time.Now` in the checks
  tokenCheckedAt : Nat := 0
  certsCheckedAt : Nat := 0

structure State where
  now : Nat
  config : Data
  version : Nat := 0
  -- the tokens that were created, and the keys of the certificates that were uploaded, with when
  -- they expire; an upload replaces the one before
  tokens : List (String × Nat) := []
  uploads : List (String × Nat) := []
  requests : List Request := []

inductive Action
  | tick (duration : Nat)
  | start (master : Bool) (gitVersion : String)
  | step (i : Nat)
  /-- `GenerateBootstrapToken` makes this token -/
  | generateBootstrapToken (i : Nat) (token : String)
  /-- `UploadCertsWithNewKey` makes this key -/
  | uploadCertsWithNewKey (i : Nat) (key : String)
  /-- a call of the cluster fails, with or without its effect -/
  | fail (i : Nat)

namespace State

def setPhase (s : State) (i : Nat) (r : Request) (phase : Phase) : State :=
  { s with requests := s.requests.set i { r with phase := phase } }

/-- The cluster keeps an expiration in whole seconds as well. -/
def expires (s : State) (duration : Nat) : Nat := (s.now + duration) / second * second

/-- `Update`, which needs the version that was read. -/
def update (s : State) (i : Nat) (r : Request) (data : Data) (version : Nat) : State :=
  if version = s.version then
    { s with config := data, version := s.version + 1 }.setPhase i r (.updated data)
  else s.setPhase i r .failed

def stepRequest (s : State) (i : Nat) (r : Request) : Option State :=
  match r.phase with
  | .started => some (s.setPhase i r (.read s.config))
  | .read data =>
    some (s.setPhase i { r with tokenCheckedAt := s.now }
      (.tokenChecked data (shouldRegenerateBootstrapToken s.now data)))
  | .tokenChecked data regenerate =>
    some (s.setPhase i { r with certsCheckedAt := s.now }
      (.checked regenerate (shouldUploadCerts s.now data r.master)))
  -- "if neither the bootstrap token nor the upload certs flags are set then generate a token"
  | .checked regenerate upload =>
    some (s.setPhase i r (.got s.config s.version (if !upload then true else regenerate) upload))
  | .got data version generate upload =>
    if generate then
      some (s.setPhase i r (.stamped data version (s.now + bootstrapTokenDuration) upload))
    else some (s.setPhase i r (.tokenDone data version upload))
  | .tokenDone data version upload =>
    if upload then some (s.setPhase i r (.certsStamped data version (s.now + certsDuration)))
    else some (s.setPhase i r (.certsDone data version))
  | .certsDone data version => some (s.update i r data version)
  | .updated data =>
    match data.token.expiry with
    | some expiry =>
      some (s.setPhase i r (.returned data (joinCommand data r.gitVersion r.master) expiry))
    | none => some (s.setPhase i r .unparsed)
  | .stamped .. | .certsStamped .. | .returned .. | .unparsed | .failed => none

def generateBootstrapToken (s : State) (i : Nat) (r : Request) (token : String) : Option State :=
  match r.phase with
  | .stamped data version expiration upload =>
    some ({ s with tokens := s.tokens ++ [(token, s.expires bootstrapTokenDuration)] }.setPhase i r
      (.tokenDone { data with token := .record token expiration } version upload))
  | _ => none

def uploadCertsWithNewKey (s : State) (i : Nat) (r : Request) (key : String) : Option State :=
  match r.phase with
  | .certsStamped data version expiration =>
    some ({ s with uploads := s.uploads ++ [(key, s.expires certsDuration)] }.setPhase i r
      (.certsDone { data with certs := .record key expiration } version))
  | _ => none

def fail (s : State) (i : Nat) (r : Request) : Option State :=
  match r.phase with
  | .returned .. | .unparsed | .failed => none
  | _ => some (s.setPhase i r .failed)

def step (s : State) : Action → Option State
  | .tick duration => some { s with now := s.now + duration }
  | .start master gitVersion =>
    some { s with requests := s.requests ++ [{ master := master, gitVersion := gitVersion }] }
  | .step i => (s.requests[i]?).bind (s.stepRequest i)
  | .generateBootstrapToken i token =>
    (s.requests[i]?).bind fun r => s.generateBootstrapToken i r token
  | .uploadCertsWithNewKey i key =>
    (s.requests[i]?).bind fun r => s.uploadCertsWithNewKey i r key
  | .fail i => (s.requests[i]?).bind (s.fail i)

end State

def requests : Machine State Action := ⟨State.step⟩

end Kotsadm.Kurl.NodeJoin
