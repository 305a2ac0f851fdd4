import Kotsadm.Lib.Dictionary
import Kotsadm.Operator.Requests

/-!
# ImagePullSecrets — the pull secret in the namespaces that are watched

A deploy leaves its pull secret and its namespaces in the fields of the client and starts an informer
of namespaces.  The informer is told of every namespace there is, and of every new one, and puts the
secret into those that are watched.  It takes both from the client when it gets to use them.
-/

namespace Kotsadm.Operator.ImagePullSecrets

open Requests (Client DeployHandler DeployRequest)

/-- `Data[".dockerconfigjson"]`; without it, `Data` is a nil map. -/
structure Secret where
  name : String
  data : Option String
  deriving DecidableEq, Repr

/-- What the deserializer makes of a text. -/
inductive Decoded where
  | error
  | secret (secret : Secret)
  -- an object of another kind
  | other
  deriving DecidableEq, Repr

/-- Where `AddFunc` is. -/
inductive AddPhase where
  | idle
  /-- in the loop over the watched namespaces -/
  | looping (ns : String) (rest : List String)
  /-- it has decoded the secret -/
  | getting (ns : String) (secret : Secret) (rest : List String)
  /-- there was no such secret -/
  | creating (ns : String) (secret : Secret) (rest : List String)
  /-- there was one -/
  | updating (ns : String) (secret : Secret) (rest : List String)
  | panicked
  deriving DecidableEq, Repr

structure Informer where
  channel : Option Nat
  -- the namespaces it has to be told of
  pending : List String
  phase : AddPhase := .idle
  stopped : Bool := false
  deriving DecidableEq, Repr

structure State where
  client : Client := {}
  deploys : List DeployHandler := []
  informers : List Informer := []
  -- the cluster: the secrets are found by namespace and name
  namespaces : List String := []
  secrets : Dictionary (String × String) (Option String) := .empty

inductive Action where
  | createNamespace (ns : String)
  | deleteNamespace (ns : String)
  | receiveDeploy (args : DeployRequest)
  | deploy (i : Nat) (ok : Bool)
  /-- the informer calls `AddFunc` -/
  | add (i : Nat)
  | informer (i : Nat)
  /-- a call of the API fails -/
  | fail (i : Nat)

/-- The namespace is a watched one. -/
def Matches (watchedNamespace ns : String) : Prop := watchedNamespace = "*" ∨ watchedNamespace = ns

instance (watchedNamespace ns : String) : Decidable (Matches watchedNamespace ns) :=
  inferInstanceAs (Decidable (_ ∨ _))

/-- The first informer of the channel receives. -/
def stopFirst (channel : Nat) : List Informer → List Informer
  | [] => []
  | informer :: rest =>
    if informer.channel = some channel ∧ informer.stopped = false then
      { informer with stopped := true } :: rest
    else informer :: stopFirst channel rest

/-- An informer that runs is told of a new namespace. -/
def Informer.tell (ns : String) (informer : Informer) : Informer :=
  if informer.stopped then informer else { informer with pending := informer.pending ++ [ns] }

namespace State

def setInformer (s : State) (i : Nat) (informer : Informer) : State :=
  { s with informers := s.informers.set i informer }

/-- What the step of a handler does to the informers. -/
def informersAfter (s : State) (h : DeployHandler) : List Informer :=
  match h.phase with
  | .stopping =>
    match s.client.namespaceStopChan with
    | some channel => stopFirst channel s.informers
    | none => s.informers
  | .running =>
    s.informers ++ [{ channel := s.client.namespaceStopChan, pending := s.namespaces }]
  | _ => s.informers

def stepDeploy (s : State) (i : Nat) (ok : Bool) (h : DeployHandler) : Option State :=
  (h.phase.next h.args ok s.client).map fun next =>
    { s with
      client := next.1
      deploys := s.deploys.set i { h with phase := next.2 }
      informers := s.informersAfter h }

/-- A call of `AddFunc`, for the namespace that is next. -/
def add (s : State) (i : Nat) (informer : Informer) : Option State :=
  match informer.phase, informer.pending with
  | .idle, ns :: pending =>
    some (s.setInformer i
      { informer with pending := pending, phase := .looping ns s.client.watchedNamespaces })
  | _, _ => none

/-- One turn of the loop, up to the call of the API. -/
def turn (decode : String → Decoded) (s : State) (ns watchedNamespace : String)
    (rest : List String) : AddPhase :=
  if Matches watchedNamespace ns then
    match decode s.client.imagePullSecret with
    | .error => .idle
    | .secret secret => .getting ns secret rest
    | .other => .panicked
  else .looping ns rest

def stepInformer (decode : String → Decoded) (s : State) (i : Nat) (informer : Informer) :
    Option State :=
  match informer.phase with
  | .idle | .panicked => none
  | .looping _ [] => some (s.setInformer i { informer with phase := .idle })
  | .looping ns (watchedNamespace :: rest) =>
    some (s.setInformer i { informer with phase := s.turn decode ns watchedNamespace rest })
  | .getting ns secret rest =>
    match s.secrets.get (ns, secret.name) with
    | none => some (s.setInformer i { informer with phase := .creating ns secret rest })
    -- an entry of the map of the found secret is set, which may be nil
    | some none => some (s.setInformer i { informer with phase := .panicked })
    | some (some _) => some (s.setInformer i { informer with phase := .updating ns secret rest })
  | .creating ns secret rest =>
    if ns ∈ s.namespaces ∧ s.secrets.get (ns, secret.name) = none then
      some ({ s with secrets := s.secrets.set (ns, secret.name) secret.data }.setInformer i
        { informer with phase := .looping ns rest })
    else some (s.setInformer i { informer with phase := .idle })
  | .updating ns secret rest =>
    -- what is sent is the decoded secret, without a version
    match s.secrets.get (ns, secret.name) with
    | some _ =>
      some ({ s with secrets := s.secrets.set (ns, secret.name) secret.data }.setInformer i
        { informer with phase := .looping ns rest })
    | none => some (s.setInformer i { informer with phase := .idle })

def fail (s : State) (i : Nat) (informer : Informer) : Option State :=
  match informer.phase with
  | .getting .. | .creating .. | .updating .. =>
    some (s.setInformer i { informer with phase := .idle })
  | _ => none

def step (decode : String → Decoded) (s : State) : Action → Option State
  | .createNamespace ns =>
    if ns ∈ s.namespaces then none
    else some { s with
      namespaces := s.namespaces ++ [ns], informers := s.informers.map (Informer.tell ns) }
  | .deleteNamespace ns =>
    some { s with
      namespaces := s.namespaces.filter (· ≠ ns)
      secrets := s.secrets.deleteWhere fun row => row.1.1 = ns }
  | .receiveDeploy args => some { s with deploys := s.deploys ++ [{ args := args }] }
  | .deploy i ok => (s.deploys[i]?).bind (s.stepDeploy i ok)
  | .add i => (s.informers[i]?).bind (s.add i)
  | .informer i => (s.informers[i]?).bind (s.stepInformer decode i)
  | .fail i => (s.informers[i]?).bind (s.fail i)

end State

def operator (decode : String → Decoded) : Machine State Action := ⟨State.step decode⟩

def Init (s : State) : Prop := s = {}

end Kotsadm.Operator.ImagePullSecrets
