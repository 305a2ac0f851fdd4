import Kotsadm.AppState.ResourceStates
import Kotsadm.Lib.Grouping

/-!
# EventHandlers — what the informers of an app make of the notifications they get

There is a controller for each kind and namespace.  Its event handler casts the object of a
notification, looks for an informer of its name, and sends the state it calculates.  A deletion
that the watch has missed is notified with a tombstone, which no handler can cast.
-/

namespace Kotsadm.AppState

open Grouping

/-! ## The objects -/

structure Deployment where
  ns : String
  name : String
  replicas : Option Int
  readyReplicas : Int
  deriving DecidableEq, Repr

structure StatefulSet where
  ns : String
  name : String
  replicas : Option Int
  readyReplicas : Int
  deriving DecidableEq, Repr

structure PersistentVolumeClaim where
  ns : String
  name : String
  phase : String
  deriving DecidableEq, Repr

structure LoadBalancerIngress where
  ip : String
  hostname : String
  deriving DecidableEq, Repr

structure Service where
  ns : String
  name : String
  type : String
  /-- The names of the ports. -/
  ports : List String
  externalIPs : List String
  loadBalancer : List LoadBalancerIngress
  deriving DecidableEq, Repr

structure IngressBackend where
  serviceName : String
  deriving DecidableEq, Repr

structure Ingress where
  ns : String
  name : String
  backend : Option IngressBackend
  /-- The backends of the paths of each rule; the `HTTP` of a rule may be nil. -/
  rules : List (Option (List IngressBackend))
  loadBalancer : List LoadBalancerIngress
  deriving DecidableEq, Repr

structure EndpointSubset where
  addresses : List String
  notReadyAddresses : List String
  /-- The names of the ports. -/
  ports : List String
  deriving DecidableEq, Repr

structure Endpoints where
  subsets : List EndpointSubset
  deriving DecidableEq, Repr

/-- What the cluster answers, by namespace and name. -/
structure Clientset where
  endpoints : String → String → Option Endpoints
  services : String → String → Option Service

inductive Object where
  | deployment (r : Deployment)
  | ingress (r : Ingress)
  | persistentVolumeClaim (r : PersistentVolumeClaim)
  | service (r : Service)
  | statefulSet (r : StatefulSet)
  deriving DecidableEq, Repr

/-- What a handler is called with. -/
inductive Notified where
  | object (r : Object)
  | deletedFinalStateUnknown (key : String) (obj : Object)
  deriving DecidableEq, Repr

inductive Event where
  | add (obj : Object)
  | update (old new : Object)
  | delete (obj : Notified)
  deriving DecidableEq, Repr

/-! ## MinState -/

/-- The loop.  `none` is the empty string, the state that is not set. -/
def minLoop (min : Option State) : List (Option State) → Option State
  | [] => min
  | s :: ss =>
    -- a missing part ends the loop; the other states are ordered
    if s = some .missing ∨ min = some .missing then some .missing
    else if s = some .unavailable ∨ min = some .unavailable then minLoop (some .unavailable) ss
    else if s = some .degraded ∨ min = some .degraded then minLoop (some .degraded) ss
    else if s = some .ready ∨ min = some .ready then minLoop (some .ready) ss
    else minLoop min ss

def minState (ss : List (Option State)) : Option State :=
  if ss = [] then some .missing else minLoop none ss

theorem isSome_minLoop (min : Option State) (ss : List (Option State)) (s : State) :
    (minLoop min (ss ++ [some s])).isSome := by
  induction ss generalizing min with
  | nil =>
    rw [List.nil_append, minLoop]
    cases s <;> (repeat' split) <;> simp_all [minLoop]
  | cons first ss ih =>
    rw [List.cons_append, minLoop]
    repeat' split
    · rfl
    all_goals exact ih _

theorem isSome_minState (ss : List (Option State)) (s : State) :
    (minState (ss ++ [some s])).isSome := by
  unfold minState
  rw [if_neg (by simp)]
  exact isSome_minLoop none ss s

theorem minLoop_ne_missing {min : Option State} {ss : List (Option State)}
    (hmin : min ≠ some .missing) (hss : ∀ s ∈ ss, s ≠ some .missing) :
    minLoop min ss ≠ some .missing := by
  induction ss generalizing min with
  | nil => exact hmin
  | cons s ss ih =>
    have hs : s ≠ some .missing := hss s List.mem_cons_self
    have hrest : ∀ s ∈ ss, s ≠ some .missing := fun s' hs' => hss s' (List.mem_cons_of_mem s hs')
    -- the other branches leave a minimum that is not missing
    rw [minLoop, if_neg (not_or.mpr ⟨hs, hmin⟩)]
    repeat' split
    all_goals first | exact ih hmin hrest | exact ih (by decide) hrest

/-- Only a missing part makes the whole missing. -/
theorem minState_ne_missing {ss : List (Option State)} (hss : ∀ s ∈ ss, s ≠ some .missing)
    (hne : ss ≠ []) : minState ss ≠ some .missing := by
  unfold minState
  rw [if_neg hne]
  exact minLoop_ne_missing (by decide) hss

/-- `MinState` of states of which the last is set. -/
def minStateOf (ss : List (Option State)) (s : State) : State :=
  (minState (ss ++ [some s])).get (isSome_minState ss s)

theorem minStateOf_ne_missing {ss : List (Option State)} {s : State}
    (hss : ∀ s ∈ ss, s ≠ some .missing) (hs : s ≠ .missing) : minStateOf ss s ≠ .missing := by
  intro h
  have hmin : minState (ss ++ [some s]) = some .missing := by
    rw [← h]
    exact (Option.some_get _).symm
  refine minState_ne_missing ?_ (by simp) hmin
  intro s' hs'
  rcases List.mem_append.mp hs' with hs' | hs'
  · exact hss s' hs'
  · rw [List.mem_singleton.mp hs']
    exact fun h => hs (Option.some.inj h)

/-! ## The state of an object -/

def calculateDeploymentState (r : Deployment) : State :=
  -- a nil number of replicas means one
  let desiredReplicas := r.replicas.getD 1
  if desiredReplicas ≤ r.readyReplicas then .ready
  else if 0 < r.readyReplicas then .degraded
  else .unavailable

def calculateStatefulSetState (r : StatefulSet) : State :=
  let desiredReplicas := r.replicas.getD 1
  if desiredReplicas ≤ r.readyReplicas then .ready
  else if 0 < r.readyReplicas then .degraded
  else .unavailable

def calculatePersistentVolumeClaimState (r : PersistentVolumeClaim) : State :=
  match r.phase with
  | "Pending" | "Lost" => .unavailable
  | "Bound" => .ready
  | _ => .unavailable

/-- One port of a subset. -/
def EndpointSubset.portState (ss : EndpointSubset) : State :=
  if ss.addresses = [] then .unavailable
  else if ss.notReadyAddresses ≠ [] then .degraded
  else .ready

def EndpointSubset.minState (ports : List String) (min : Option State) (ss : EndpointSubset) :
    Option State :=
  if ss.ports = [] then
    -- a subset without ports counts only when it is not ready
    if ss.notReadyAddresses ≠ [] then AppState.minState [min, some .degraded] else min
  else
    ss.ports.foldl (fun min port =>
      if port ∈ ports then AppState.minState [min, some ss.portState] else min) min

def servicePortGetStateFromEndpoints (endpoints : Endpoints) (ports : List String) :
    Option State :=
  if endpoints.subsets = [] then some .unavailable
  else endpoints.subsets.foldl (EndpointSubset.minState ports) none

def serviceGetStateFromEndpoints (clientset : Clientset) (svc : Service) : Option State :=
  match clientset.endpoints svc.ns svc.name with
  | none => some .unavailable
  | some endpoints => svc.ports.foldl (fun min port =>
      minState [min, servicePortGetStateFromEndpoints endpoints [port]]) none

def loadBalancerStatusIPs (ingress : List LoadBalancerIngress) : List String :=
  ingress.filterMap fun i =>
    -- an entry with neither of the two is left out
    if i.ip ≠ "" then some i.ip else if i.hostname ≠ "" then some i.hostname else none

def serviceGetStateFromExternalIP (svc : Service) : State :=
  if svc.type ≠ "LoadBalancer" then .ready
  else if svc.externalIPs ≠ [] then .ready
  else if loadBalancerStatusIPs svc.loadBalancer ≠ [] then .ready
  else .unavailable

def calculateServiceState (clientset : Clientset) (r : Service) : State :=
  minStateOf [serviceGetStateFromEndpoints clientset r] (serviceGetStateFromExternalIP r)

def ingressGetStateFromBackend (clientset : Clientset) (ns : String) (backend : IngressBackend) :
    Option State :=
  match clientset.services ns backend.serviceName with
  | none => some .unavailable
  | some service => serviceGetStateFromEndpoints clientset service

def ingressGetStateFromExternalIP (ing : Ingress) : State :=
  if loadBalancerStatusIPs ing.loadBalancer ≠ [] then .ready else .unavailable

/-- The backends of all paths.  A rule without `HTTP` is a nil dereference. -/
def pathBackends : List (Option (List IngressBackend)) → Option (List IngressBackend)
  | [] => some []
  | none :: _ => none
  | some paths :: rules => (pathBackends rules).map (paths ++ ·)

/-- The backend of an ingress without one is in the `kube-system` namespace. -/
def Ingress.defaultBackend (r : Ingress) : String × IngressBackend :=
  match r.backend with
  | none => ("kube-system", ⟨"default-http-backend"⟩)
  | some backend => (r.ns, backend)

/-- `none` is the panic. -/
def calculateIngressState (clientset : Clientset) (r : Ingress) : Option State :=
  (pathBackends r.rules).map fun backends =>
    minStateOf (ingressGetStateFromBackend clientset r.defaultBackend.1 r.defaultBackend.2 ::
        backends.map (ingressGetStateFromBackend clientset r.ns))
      (ingressGetStateFromExternalIP r)

/-! ## The event handlers -/

/-- The five handlers differ in what they cast to and in how they calculate the state. -/
structure EventHandler (ρ : Type) where
  kind : String
  cast : Notified → Option ρ
  ns : ρ → String
  name : ρ → String
  /-- `none` is a panic. -/
  calculate : Clientset → ρ → Option State

def deploymentEventHandler : EventHandler Deployment where
  kind := "deployment"
  cast | .object (.deployment r) => some r | _ => none
  ns := Deployment.ns
  name := Deployment.name
  calculate _ r := some (calculateDeploymentState r)

def ingressEventHandler : EventHandler Ingress where
  kind := "ingress"
  cast | .object (.ingress r) => some r | _ => none
  ns := Ingress.ns
  name := Ingress.name
  calculate := calculateIngressState

def persistentVolumeClaimEventHandler : EventHandler PersistentVolumeClaim where
  kind := "persistentvolumeclaim"
  cast | .object (.persistentVolumeClaim r) => some r | _ => none
  ns := PersistentVolumeClaim.ns
  name := PersistentVolumeClaim.name
  calculate _ r := some (calculatePersistentVolumeClaimState r)

def serviceEventHandler : EventHandler Service where
  kind := "service"
  cast | .object (.service r) => some r | _ => none
  ns := Service.ns
  name := Service.name
  calculate clientset r := some (calculateServiceState clientset r)

def statefulSetEventHandler : EventHandler StatefulSet where
  kind := "statefulset"
  cast | .object (.statefulSet r) => some r | _ => none
  ns := StatefulSet.ns
  name := StatefulSet.name
  calculate _ r := some (calculateStatefulSetState r)

namespace EventHandler

variable {ρ : Type} (h : EventHandler ρ) (informers : List StatusInformer)

/-- `r` is nil where the cast has failed. -/
def getInformer (r : Option ρ) : Option StatusInformer :=
  r.bind fun r => informers.find? fun informer =>
    h.ns r = informer.ns ∧ h.name r = informer.name

def makeResourceState (r : ρ) (state : State) : ResourceState :=
  ⟨h.kind, h.name r, h.ns r, state⟩

/-- What goes over the channel for an object that has an informer. -/
def send (state : ρ → Option State) (obj : Notified) : Option (List ResourceState) :=
  match h.cast obj with
  -- the cast fails for a tombstone, and nothing is sent
  | none => some []
  | some r =>
    match h.getInformer informers (some r) with
    | none => some []
    | some _ => (state r).map fun state => [h.makeResourceState r state]

def objectCreated (clientset : Clientset) : Notified → Option (List ResourceState) :=
  h.send informers (h.calculate clientset)

def objectUpdated (clientset : Clientset) : Notified → Option (List ResourceState) :=
  h.send informers (h.calculate clientset)

def objectDeleted : Notified → Option (List ResourceState) :=
  h.send informers fun _ => some .missing

/-- The functions that `runInformer` registers. -/
def runInformer (clientset : Clientset) : Event → Option (List ResourceState)
  | .add obj => h.objectCreated informers clientset (.object obj)
  | .update _ new => h.objectUpdated informers clientset (.object new)
  | .delete obj => h.objectDeleted informers obj

end EventHandler

/-! ## Notifications -/

namespace Object

def kind : Object → String
  | deployment _ => "deployment"
  | ingress _ => "ingress"
  | persistentVolumeClaim _ => "persistentvolumeclaim"
  | service _ => "service"
  | statefulSet _ => "statefulset"

def ns : Object → String
  | deployment r => r.ns
  | ingress r => r.ns
  | persistentVolumeClaim r => r.ns
  | service r => r.ns
  | statefulSet r => r.ns

def name : Object → String
  | deployment r => r.name
  | ingress r => r.name
  | persistentVolumeClaim r => r.name
  | service r => r.name
  | statefulSet r => r.name

def key (obj : Object) : Key := (obj.kind, obj.ns, obj.name)

def calculate (clientset : Clientset) : Object → Option State
  | deployment r => some (calculateDeploymentState r)
  | ingress r => calculateIngressState clientset r
  | persistentVolumeClaim r => some (calculatePersistentVolumeClaimState r)
  | service r => some (calculateServiceState clientset r)
  | statefulSet r => some (calculateStatefulSetState r)

end Object

/-- A notification, with what the cluster answers while it is handled and the time then. -/
structure Notification where
  event : Event
  clientset : Clientset
  now : Int

namespace Notification

/-- The object it is about. -/
def obj (n : Notification) : Object :=
  match n.event with
  | .add obj => obj
  | .update _ new => new
  | .delete (.object obj) => obj
  | .delete (.deletedFinalStateUnknown _ obj) => obj

/-- The state that the object has by it. -/
def state (n : Notification) : Option State :=
  match n.event with
  | .add obj => obj.calculate n.clientset
  | .update _ new => new.calculate n.clientset
  | .delete _ => some .missing

def isDeletion (n : Notification) : Bool :=
  match n.event with
  | .delete _ => true
  | _ => false

def isTombstone (n : Notification) : Bool :=
  match n.event with
  | .delete (.deletedFinalStateUnknown _ _) => true
  | _ => false

/-- It delivers an ingress with a rule that has no paths. -/
def Crashes (n : Notification) : Prop :=
  match n.event with
  | .add (.ingress r) => none ∈ r.rules
  | .update _ (.ingress r) => none ∈ r.rules
  | _ => False

end Notification

/-! ## The controllers -/

def filterStatusInformersByResourceKind (informers : List StatusInformer) (kind : String) :
    List StatusInformer :=
  informers.filter fun informer => informer.kind = kind

def namespaceKinds (informers : List StatusInformer) :
    Map (String × String) (List StatusInformer) :=
  groupBy (fun informer => (informer.ns, informer.kind)) informers

def runController {ρ : Type} (h : EventHandler ρ) (informers : List StatusInformer)
    (n : Notification) : Option (List ResourceState) :=
  h.runInformer (filterStatusInformersByResourceKind informers h.kind) n.clientset n.event

/-- The states that are sent for a notification.  It goes to the controller of the namespace and
the kind of its object, which runs if there is an informer for them. -/
def deliver (informers : List StatusInformer) (n : Notification) : Option (List ResourceState) :=
  match (namespaceKinds informers).lookup (n.obj.ns, n.obj.kind) with
  | none => some []
  | some informers =>
    match n.obj with
    | .deployment _ => runController deploymentEventHandler informers n
    | .ingress _ => runController ingressEventHandler informers n
    | .persistentVolumeClaim _ => runController persistentVolumeClaimEventHandler informers n
    | .service _ => runController serviceEventHandler informers n
    | .statefulSet _ => runController statefulSetEventHandler informers n

/-- What `runInformers` receives; `none` when a handler panics. -/
def deliverAll (informers : List StatusInformer) :
    List Notification → Option (List (ResourceState × Int))
  | [] => some []
  | n :: later => do
    let states ← deliver informers n
    let received ← deliverAll informers later
    return states.map (·, n.now) ++ received

end Kotsadm.AppState
