import Mathlib.Data.List.SplitOn
import Kotsadm.AppState.ResourceStates
import Kotsadm.Lib.Machine
import Kotsadm.Operator.Deploy

/-!
# Requests — the handlers of one connection

`inLoop` starts a goroutine for each message it receives.  The handlers of the deploy messages share
the fields of the client and the cluster, those of the `appInformers` messages the monitor.  A
handler is at a phase; what happens between two phases is one step, and the order of the steps of
different handlers is the schedule.
-/

namespace Kotsadm.Requests

open Operator (ApplicationManifests)
open AppState (StatusInformer)

/-! ## The messages -/

/-- `ApplicationManifests`, with the field that only the handler reads. -/
structure DeployRequest extends ApplicationManifests where
  imagePullSecret : String := ""

structure InformRequest where
  appID : String
  informers : List String
  deriving DecidableEq, Repr

/-- `StatusInformerString.Parse` -/
def parse (s : String) : Option StatusInformer :=
  match s.toList.splitOn '/' with
  | [kind, name] =>
    if kind ≠ [] ∧ name ≠ [] then
      some { kind := String.ofList kind, name := String.ofList name, ns := "" }
    else none
  | [ns, kind, name] =>
    if ns ≠ [] ∧ kind ≠ [] ∧ name ≠ [] then
      some { kind := String.ofList kind, name := String.ofList name, ns := String.ofList ns }
    else none
  | _ => none

/-- The informers of a request; the first one that is no informer fails it. -/
def InformRequest.parsed (args : InformRequest) : Option (List StatusInformer) :=
  args.informers.mapM parse

/-! ## The client -/

structure Client where
  watchedNamespaces : List String := []
  imagePullSecret : String := ""
  -- the number of the channel
  namespaceStopChan : Option Nat := none
  -- the channels made so far
  channels : Nat := 0
  -- the namespace informers that nobody has told to stop, each with its channel
  namespaceInformers : List (Option Nat) := []
  -- the manifests last given to diffAndRemovePreviousManifests, and to ensureResourcesPresent
  pruned : Option String := none
  applied : Option String := none
  deriving DecidableEq, Repr

/-- How a deploy ended. -/
inductive Ending where
  | removeFailed
  | applyFailed
  | informerFailed
  | deployed
  deriving DecidableEq, Repr

/-- Where the handler of a deploy message is. -/
inductive DeployPhase where
  | received
  -- in diffAndRemovePreviousManifests
  | removing
  -- in the loop over the namespaces
  | ensuring (rest : List String)
  -- between the two assignments
  | assigning
  | assigned
  -- in ensureResourcesPresent
  | applying
  -- in shutdownNamespacesInformer
  | stopping
  | stopped
  -- in runNamespacesInformer
  | starting
  | running
  -- in the deferred function
  | reporting (ending : Ending)
  | done (ending : Ending)
  deriving DecidableEq, Repr

def DeployPhase.isDone : DeployPhase → Bool
  | .done _ => true
  | _ => false

/-- The next step of the handler; `ok` tells whether the call it is in succeeds.  A send on a
channel waits for an informer. -/
def DeployPhase.next (args : DeployRequest) (ok : Bool) (c : Client) :
    DeployPhase → Option (Client × DeployPhase)
  | received =>
    if args.previousManifests ≠ "" then
      some ({ c with pruned := some args.previousManifests }, removing)
    else some (c, ensuring args.additionalNamespaces)
  | removing =>
    some (c, if ok then ensuring args.additionalNamespaces else reporting .removeFailed)
  -- we don't fail here...
  | ensuring (_ :: rest) => some (c, ensuring rest)
  | ensuring [] => some ({ c with imagePullSecret := args.imagePullSecret }, assigning)
  | assigning => some ({ c with watchedNamespaces := args.additionalNamespaces }, assigned)
  | assigned => some ({ c with applied := some args.manifests }, applying)
  | applying => some (c, if ok then stopping else reporting .applyFailed)
  | stopping =>
    match c.namespaceStopChan with
    | none => some (c, stopped)
    | some channel =>
      if some channel ∈ c.namespaceInformers then
        some ({ c with namespaceInformers := c.namespaceInformers.erase (some channel) }, stopped)
      else none
  | stopped => some ({ c with namespaceStopChan := none }, starting)
  | starting =>
    if ok then
      some ({ c with namespaceStopChan := some c.channels, channels := c.channels + 1 }, running)
    else some (c, reporting .informerFailed)
  | running => some ({ c with
      namespaceInformers := c.namespaceInformers ++ [c.namespaceStopChan] }, reporting .deployed)
  | reporting ending => some (c, done ending)
  | done _ => none

/-! ## The connection -/

structure DeployHandler where
  args : DeployRequest
  phase : DeployPhase := .received

structure InformHandler where
  args : InformRequest
  isDone : Bool := false
  deriving DecidableEq, Repr

/-- The handlers are in the order in which their messages arrived. -/
structure Connection where
  -- the client when the connection was made
  before : Client
  client : Client
  -- the informers in force, by app
  inForce : String → Option (List StatusInformer) := fun _ => none
  deploys : List DeployHandler := []
  informs : List InformHandler := []
  -- for each step of a deploy handler, which one it was
  trace : List Nat := []

inductive Action where
  | receiveDeploy (args : DeployRequest)
  | receiveInform (args : InformRequest)
  | deploy (i : Nat) (ok : Bool)
  | inform (i : Nat)

/-- `c.applyAppInformers` -/
def applyAppInformers (s : Connection) (args : InformRequest) : Connection :=
  match args.parsed with
  | none => s
  | some informers => { s with inForce := Function.update s.inForce args.appID (some informers) }

def step (s : Connection) : Action → Option Connection
  | .receiveDeploy args => some { s with deploys := s.deploys ++ [{ args }] }
  | .receiveInform args => some { s with informs := s.informs ++ [{ args }] }
  | .deploy i ok => do
    let h ← s.deploys[i]?
    let (client, phase) ← h.phase.next h.args ok s.client
    return { s with
      client
      deploys := s.deploys.set i { h with phase }
      trace := s.trace ++ [i] }
  | .inform i => do
    let h ← s.informs[i]?
    if h.isDone then none
    else some { applyAppInformers s h.args with
      informs := s.informs.set i { h with isDone := true } }

def machine : Machine Connection Action := ⟨step⟩

def Init (s : Connection) : Prop :=
  s.client = s.before ∧ s.inForce = (fun _ => none) ∧ s.deploys = [] ∧ s.informs = [] ∧ s.trace = []

/-- A deploy message arrives when the handlers of the earlier ones are done, and an `appInformers`
message when those for its app are. -/
def Guard (s : Connection) : Action → Prop
  | .receiveDeploy _ => ∀ h ∈ s.deploys, h.phase.isDone
  | .receiveInform args => ∀ h ∈ s.informs, h.args.appID = args.appID → h.isDone
  | .deploy _ _ => True
  | .inform _ => True

instance (s : Connection) (a : Action) : Decidable (Guard s a) :=
  match a with
  | .receiveDeploy _ => inferInstanceAs (Decidable (∀ h ∈ s.deploys, h.phase.isDone))
  | .receiveInform args =>
    inferInstanceAs (Decidable (∀ h ∈ s.informs, h.args.appID = args.appID → h.isDone))
  | .deploy _ _ | .inform _ => .isTrue trivial

end Kotsadm.Requests
