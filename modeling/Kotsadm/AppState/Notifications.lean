import Kotsadm.AppState.EventHandlers

/-!
# Notifications — when the reported states follow the cluster

A handler sends what a notification says of its object, except that it sends nothing for a
tombstone.
-/

namespace Kotsadm.AppState

open Grouping

/-! ## The states that are calculated -/

theorem portState_ne_missing (ss : EndpointSubset) : ss.portState ≠ .missing := by
  unfold EndpointSubset.portState
  repeat' split
  all_goals decide

theorem minState_pair_ne_missing {min s : Option State} (hmin : min ≠ some .missing)
    (hs : s ≠ some .missing) : minState [min, s] ≠ some .missing := by
  apply minState_ne_missing
  · intro s' hs'
    rcases List.mem_pair.mp hs' with rfl | rfl
    · exact hmin
    · exact hs
  · simp

theorem foldl_ne_missing {α : Type} {f : Option State → α → Option State}
    (hf : ∀ min a, min ≠ some .missing → f min a ≠ some .missing) {min : Option State}
    (hmin : min ≠ some .missing) (l : List α) : l.foldl f min ≠ some .missing := by
  induction l generalizing min with
  | nil => exact hmin
  | cons a l ih => exact ih (hf min a hmin)

theorem subset_minState_ne_missing (ports : List String) {min : Option State}
    (ss : EndpointSubset) (hmin : min ≠ some .missing) :
    ss.minState ports min ≠ some .missing := by
  unfold EndpointSubset.minState
  by_cases hports : ss.ports = []
  · rw [if_pos hports]
    split
    · exact minState_pair_ne_missing hmin (by decide)
    · exact hmin
  · rw [if_neg hports]
    refine foldl_ne_missing (fun min port hmin => ?_) hmin _
    split
    · exact minState_pair_ne_missing hmin fun h => portState_ne_missing ss (Option.some.inj h)
    · exact hmin

theorem servicePortState_ne_missing (endpoints : Endpoints) (ports : List String) :
    servicePortGetStateFromEndpoints endpoints ports ≠ some .missing := by
  unfold servicePortGetStateFromEndpoints
  split
  · decide
  · refine foldl_ne_missing (fun min ss hmin => ?_) (by decide) _
    exact subset_minState_ne_missing ports ss hmin

theorem serviceEndpointsState_ne_missing (clientset : Clientset) (svc : Service) :
    serviceGetStateFromEndpoints clientset svc ≠ some .missing := by
  unfold serviceGetStateFromEndpoints
  split
  · decide
  · refine foldl_ne_missing (fun min port hmin => ?_) (by decide) _
    exact minState_pair_ne_missing hmin (servicePortState_ne_missing _ _)

theorem backendState_ne_missing (clientset : Clientset) (ns : String) (backend : IngressBackend) :
    ingressGetStateFromBackend clientset ns backend ≠ some .missing := by
  unfold ingressGetStateFromBackend
  split
  · decide
  · exact serviceEndpointsState_ne_missing _ _

theorem pathBackends_eq_none {rules : List (Option (List IngressBackend))} :
    pathBackends rules = none ↔ none ∈ rules := by
  induction rules with
  | nil => simp [pathBackends]
  | cons rule rules ih =>
    cases rule with
    | none => simp [pathBackends]
    | some paths => simp [pathBackends, ih]

/-- A state that is calculated is not missing. -/
theorem calculate_ne_missing (clientset : Clientset) (obj : Object) :
    obj.calculate clientset ≠ some .missing := by
  cases obj with
  | deployment r =>
    unfold Object.calculate calculateDeploymentState
    dsimp only
    repeat' split
    all_goals decide
  | statefulSet r =>
    unfold Object.calculate calculateStatefulSetState
    dsimp only
    repeat' split
    all_goals decide
  | persistentVolumeClaim r =>
    unfold Object.calculate calculatePersistentVolumeClaimState
    dsimp only
    split <;> decide
  | service r =>
    intro h
    refine minStateOf_ne_missing ?_ ?_ (Option.some.inj h)
    · intro s hs
      rw [List.mem_singleton.mp hs]
      exact serviceEndpointsState_ne_missing clientset r
    · unfold serviceGetStateFromExternalIP
      repeat' split
      all_goals decide
  | ingress r =>
    intro h
    obtain ⟨backends, -, h⟩ := Option.map_eq_some_iff.mp h
    refine minStateOf_ne_missing ?_ ?_ h
    · intro s hs
      rcases List.mem_cons.mp hs with rfl | hs
      · exact backendState_ne_missing _ _ _
      · obtain ⟨backend, -, rfl⟩ := List.mem_map.mp hs
        exact backendState_ne_missing _ _ _
    · unfold ingressGetStateFromExternalIP
      split <;> decide

/-! ## What is sent for a notification -/

/-- A handler for the object. -/
structure EventHandler.Handles {ρ : Type} (h : EventHandler ρ) (r : ρ) (obj : Object) : Prop where
  cast : h.cast (.object obj) = some r
  tombstone : ∀ key obj, h.cast (.deletedFinalStateUnknown key obj) = none
  kind : h.kind = obj.kind
  ns : h.ns r = obj.ns
  name : h.name r = obj.name
  calculate : ∀ clientset, h.calculate clientset r = obj.calculate clientset

theorem deploymentEventHandler_handles (r : Deployment) :
    deploymentEventHandler.Handles r (.deployment r) :=
  ⟨rfl, fun _ _ => rfl, rfl, rfl, rfl, fun _ => rfl⟩

theorem ingressEventHandler_handles (r : Ingress) :
    ingressEventHandler.Handles r (.ingress r) :=
  ⟨rfl, fun _ _ => rfl, rfl, rfl, rfl, fun _ => rfl⟩

theorem persistentVolumeClaimEventHandler_handles (r : PersistentVolumeClaim) :
    persistentVolumeClaimEventHandler.Handles r (.persistentVolumeClaim r) :=
  ⟨rfl, fun _ _ => rfl, rfl, rfl, rfl, fun _ => rfl⟩

theorem serviceEventHandler_handles (r : Service) :
    serviceEventHandler.Handles r (.service r) :=
  ⟨rfl, fun _ _ => rfl, rfl, rfl, rfl, fun _ => rfl⟩

theorem statefulSetEventHandler_handles (r : StatefulSet) :
    statefulSetEventHandler.Handles r (.statefulSet r) :=
  ⟨rfl, fun _ _ => rfl, rfl, rfl, rfl, fun _ => rfl⟩

def Object.resourceState (obj : Object) (state : State) : ResourceState :=
  ⟨obj.kind, obj.name, obj.ns, state⟩

/-- What is sent: nothing for a tombstone. -/
def Notification.sent (n : Notification) (informers : List StatusInformer) :
    Option (List ResourceState) :=
  match n.isTombstone with
  | true => some []
  | false =>
    if ∃ informer ∈ informers, informer.key = n.obj.key then
      n.state.map fun state => [n.obj.resourceState state]
    else some []

section

variable {ρ : Type} {h : EventHandler ρ} {r : ρ} {informers : List StatusInformer}

theorem getInformer_isSome {obj : Object} (hr : h.Handles r obj) :
    (h.getInformer informers (some r)).isSome ↔
      ∃ informer ∈ informers, obj.ns = informer.ns ∧ obj.name = informer.name := by
  unfold EventHandler.getInformer
  rw [Option.bind_some, List.find?_isSome, hr.ns, hr.name]
  simp only [decide_eq_true_eq]

theorem send_object {obj : Object} (hr : h.Handles r obj) (state : ρ → Option State) :
    h.send informers state (.object obj) =
      if ∃ informer ∈ informers, obj.ns = informer.ns ∧ obj.name = informer.name then
        (state r).map fun state => [obj.resourceState state]
      else some [] := by
  have hmake : h.makeResourceState r = obj.resourceState := by
    funext state
    unfold EventHandler.makeResourceState Object.resourceState
    rw [hr.kind, hr.ns, hr.name]
  unfold EventHandler.send
  rw [hr.cast]
  dsimp only
  by_cases hinformed : ∃ informer ∈ informers, obj.ns = informer.ns ∧ obj.name = informer.name
  · obtain ⟨informer, hinformer⟩ :=
      Option.isSome_iff_exists.mp ((getInformer_isSome hr).mpr hinformed)
    rw [if_pos hinformed, hinformer, hmake]
  · have hnone : h.getInformer informers (some r) = none := by
      rw [← Option.not_isSome_iff_eq_none, getInformer_isSome hr]
      exact hinformed
    rw [if_neg hinformed, hnone]

theorem send_tombstone {obj : Object} (hr : h.Handles r obj) (state : ρ → Option State)
    (key : String) (last : Object) :
    h.send informers state (.deletedFinalStateUnknown key last) = some [] := by
  unfold EventHandler.send
  rw [hr.tombstone]

/-- One lemma for the five handlers. -/
theorem runController_eq {n : Notification} {obj : Object} (hobj : n.obj = obj)
    (hr : h.Handles r obj) : runController h informers n = n.sent informers := by
  subst hobj
  have hinformed : (∃ informer ∈ filterStatusInformersByResourceKind informers h.kind,
      n.obj.ns = informer.ns ∧ n.obj.name = informer.name) ↔
      ∃ informer ∈ informers, informer.key = n.obj.key := by
    simp only [filterStatusInformersByResourceKind, List.mem_filter, decide_eq_true_eq,
      StatusInformer.key, Object.key, Prod.mk.injEq, hr.kind, and_assoc]
    simp only [eq_comm]
  obtain ⟨event, clientset, now⟩ := n
  unfold runController EventHandler.runInformer Notification.sent
  cases event with
  | add obj =>
    refine (send_object hr _).trans ?_
    simp only [hinformed, hr.calculate]
    rfl
  | update old new =>
    refine (send_object hr _).trans ?_
    simp only [hinformed, hr.calculate]
    rfl
  | delete obj =>
    cases obj with
    | object obj =>
      refine (send_object hr _).trans ?_
      simp only [hinformed]
      rfl
    | deletedFinalStateUnknown key obj =>
      exact send_tombstone hr _ key obj

end

/-- **The step.**  Whichever controller it goes to. -/
theorem deliver_eq (informers : List StatusInformer) (n : Notification) :
    deliver informers n = n.sent informers := by
  have hgroup : (((namespaceKinds informers).lookup (n.obj.ns, n.obj.kind)).getD []) =
      informers.filter fun informer => (informer.ns, informer.kind) = (n.obj.ns, n.obj.kind) :=
    lookup_groupBy _ informers _
  have hsame : n.sent (((namespaceKinds informers).lookup (n.obj.ns, n.obj.kind)).getD []) =
      n.sent informers := by
    -- an informer of the key is in the group
    have hinformed : (∃ informer ∈ informers.filter fun informer =>
        (informer.ns, informer.kind) = (n.obj.ns, n.obj.kind), informer.key = n.obj.key) ↔
        ∃ informer ∈ informers, informer.key = n.obj.key := by
      simp only [List.mem_filter, decide_eq_true_eq, StatusInformer.key, Object.key,
        Prod.mk.injEq]
      grind
    rw [hgroup]
    unfold Notification.sent
    simp only [hinformed]
  rw [← hsame]
  unfold deliver
  cases (namespaceKinds informers).lookup (n.obj.ns, n.obj.kind) with
  | none =>
    unfold Notification.sent
    cases n.isTombstone <;> rfl
  | some group =>
    dsimp only [Option.getD_some]
    cases hobj : n.obj with
    | deployment r => exact runController_eq hobj (deploymentEventHandler_handles r)
    | ingress r => exact runController_eq hobj (ingressEventHandler_handles r)
    | persistentVolumeClaim r =>
      exact runController_eq hobj (persistentVolumeClaimEventHandler_handles r)
    | service r => exact runController_eq hobj (serviceEventHandler_handles r)
    | statefulSet r => exact runController_eq hobj (statefulSetEventHandler_handles r)

/-! ## A panic -/

theorem state_eq_none {n : Notification} : n.state = none ↔ n.Crashes := by
  have hcalculate : ∀ (clientset : Clientset) (obj : Object), obj.calculate clientset = none ↔
      ∃ r, obj = .ingress r ∧ none ∈ r.rules := by
    intro clientset obj
    cases obj with
    | ingress r =>
      simp [Object.calculate, calculateIngressState, pathBackends_eq_none]
    | _ => simp [Object.calculate]
  obtain ⟨event, clientset, now⟩ := n
  unfold Notification.state Notification.Crashes
  cases event with
  | add obj =>
    refine (hcalculate clientset obj).trans ?_
    cases obj <;> simp
  | update old new =>
    refine (hcalculate clientset new).trans ?_
    cases new <;> simp
  | delete obj => simp

theorem sent_isSome {n : Notification} {informers : List StatusInformer} :
    (n.sent informers).isSome ↔
      (n.Crashes → ¬ ∃ informer ∈ informers, informer.key = n.obj.key) := by
  have hdeletion : n.isTombstone = true → ¬ n.Crashes := by
    obtain ⟨event, clientset, now⟩ := n
    cases event <;> simp [Notification.isTombstone, Notification.Crashes]
  unfold Notification.sent
  cases htombstone : n.isTombstone with
  | true => simp [hdeletion htombstone]
  | false =>
    by_cases hinformed : ∃ informer ∈ informers, informer.key = n.obj.key
    · dsimp only
      rw [if_pos hinformed, Option.isSome_map, Option.isSome_iff_ne_none, ne_eq, state_eq_none]
      simp [hinformed]
    · dsimp only
      rw [if_neg hinformed]
      simp [hinformed]

theorem deliverAll_isSome {informers : List StatusInformer} {notifications : List Notification} :
    (deliverAll informers notifications).isSome ↔
      ∀ n ∈ notifications, n.Crashes → ¬ ∃ informer ∈ informers, informer.key = n.obj.key := by
  induction notifications with
  | nil => simp [deliverAll]
  | cons n later ih =>
    rw [List.forall_mem_cons, ← ih, ← sent_isSome, ← deliver_eq, deliverAll]
    cases deliver informers n with
    | none => simp
    | some states => cases deliverAll informers later <;> simp

/-! ## The last notification -/

/-- The last notification about an object. -/
def lastFor (notifications : List Notification) (key : Key) : Option Notification :=
  notifications.reverse.find? fun n => n.obj.key = key

/-- The state it should be reported with. -/
def expected (notifications : List Notification) (key : Key) : Option State :=
  match lastFor notifications key with
  | none => some .missing
  | some n => n.state

/-- The notifications that a handler can cast. -/
def castable (notifications : List Notification) : List Notification :=
  notifications.filter fun n => !n.isTombstone

/-- Where a tombstone comes last, the object had been deleted before, as far as the handlers
know. -/
def DeletedBefore (notifications : List Notification) (key : Key) : Prop :=
  ∀ last, lastFor notifications key = some last → last.isTombstone →
    ∀ n, lastFor (castable notifications) key = some n → n.isDeletion

section

variable {informers : List StatusInformer} {notifications : List Notification} {key : Key}

theorem lastFor_concat (n : Notification) :
    lastFor (notifications ++ [n]) key =
      if n.obj.key = key then some n else lastFor notifications key := by
  unfold lastFor
  rw [List.reverse_concat, List.find?_cons]
  by_cases hkey : n.obj.key = key
  · rw [decide_eq_true hkey, if_pos hkey]
  · rw [decide_eq_false hkey, if_neg hkey]

theorem expected_concat (n : Notification) :
    expected (notifications ++ [n]) key =
      if n.obj.key = key then n.state else expected notifications key := by
  unfold expected
  rw [lastFor_concat]
  by_cases hkey : n.obj.key = key
  · rw [if_pos hkey, if_pos hkey]
  · rw [if_neg hkey, if_neg hkey]

theorem castable_concat (n : Notification) :
    castable (notifications ++ [n]) =
      if n.isTombstone then castable notifications else castable notifications ++ [n] := by
  unfold castable
  rw [List.filter_append]
  cases htombstone : n.isTombstone <;> simp [htombstone]

theorem state_eq_missing {n : Notification} : n.state = some .missing ↔ n.isDeletion := by
  obtain ⟨event, clientset, now⟩ := n
  cases event with
  | add obj => simp [Notification.state, Notification.isDeletion, calculate_ne_missing]
  | update old new => simp [Notification.state, Notification.isDeletion, calculate_ne_missing]
  | delete obj => simp [Notification.state, Notification.isDeletion]

theorem expected_eq_missing :
    expected notifications key = some .missing ↔
      ∀ n, lastFor notifications key = some n → n.isDeletion := by
  unfold expected
  cases lastFor notifications key with
  | none => simp
  | some n => simp [state_eq_missing]

theorem isDeletion_of_isTombstone {n : Notification} (h : n.isTombstone) : n.isDeletion := by
  obtain ⟨event, clientset, now⟩ := n
  cases event with
  | delete obj => rfl
  | add obj => cases h
  | update old new => cases h

/-- Leaving out the tombstones makes no difference just then. -/
theorem expected_castable_iff :
    expected (castable notifications) key = expected notifications key ↔
      DeletedBefore notifications key := by
  induction notifications using List.reverseRecOn with
  | nil => simp [castable, DeletedBefore, lastFor]
  | append_singleton notifications n ih =>
    unfold DeletedBefore at ih ⊢
    rw [castable_concat, lastFor_concat, expected_concat]
    by_cases hkey : n.obj.key = key
    · rw [if_pos hkey, if_pos hkey]
      cases htombstone : n.isTombstone with
      | true =>
        -- the tombstone is the last, and the rest is what the handlers know
        have hstate : n.state = some .missing :=
          state_eq_missing.mpr (isDeletion_of_isTombstone htombstone)
        rw [hstate, if_pos rfl, expected_eq_missing]
        simp [htombstone]
      | false =>
        rw [if_neg Bool.false_ne_true, expected_concat, if_pos hkey]
        simp [htombstone]
    · rw [if_neg hkey, if_neg hkey]
      cases htombstone : n.isTombstone with
      | true => rwa [if_pos rfl]
      | false => rwa [if_neg Bool.false_ne_true, expected_concat, lastFor_concat, if_neg hkey,
          if_neg hkey]

/-! ## The run -/

theorem deliverAll_concat (n : Notification) :
    deliverAll informers (notifications ++ [n]) = do
      let received ← deliverAll informers notifications
      let states ← n.sent informers
      return received ++ states.map (·, n.now) := by
  induction notifications with
  | nil =>
    simp [deliverAll, deliver_eq]
  | cons first notifications ih =>
    rw [List.cons_append, deliverAll, ih, deliverAll]
    simp [Option.bind_assoc]

/-- **The run.**  The last state received for an object is that of the last notification about it
that could be cast. -/
theorem lastState_deliverAll {received : List (ResourceState × Int)}
    (hreceived : deliverAll informers notifications = some received)
    (hkey : ∃ informer ∈ informers, informer.key = key) :
    some (lastState (received.map Prod.fst) key) = expected (castable notifications) key := by
  induction notifications using List.reverseRecOn generalizing received with
  | nil =>
    cases hreceived
    rfl
  | append_singleton notifications n ih =>
    rw [deliverAll_concat, Option.bind_eq_bind, Option.bind_eq_some_iff] at hreceived
    obtain ⟨before, hbefore, hreceived⟩ := hreceived
    rw [Option.bind_eq_bind, Option.bind_eq_some_iff] at hreceived
    obtain ⟨states, hstates, hreceived⟩ := hreceived
    cases hreceived
    rw [castable_concat, List.map_append]
    unfold Notification.sent at hstates
    cases htombstone : n.isTombstone with
    | true =>
      rw [htombstone] at hstates
      cases hstates
      rw [if_pos rfl, List.map_nil, List.map_nil, List.append_nil]
      exact ih hbefore
    | false =>
      rw [htombstone] at hstates
      dsimp only at hstates
      rw [if_neg Bool.false_ne_true, expected_concat]
      by_cases hinformed : ∃ informer ∈ informers, informer.key = n.obj.key
      · rw [if_pos hinformed] at hstates
        obtain ⟨state, hstate, rfl⟩ := Option.map_eq_some_iff.mp hstates
        rw [List.map_singleton, List.map_singleton, lastState_concat, hstate]
        change some (if n.obj.key = key then state else _) = _
        by_cases hsame : n.obj.key = key
        · rw [if_pos hsame, if_pos hsame]
        · rw [if_neg hsame, if_neg hsame]
          exact ih hbefore
      · rw [if_neg hinformed] at hstates
        cases hstates
        have hother : n.obj.key ≠ key := fun hsame => hinformed (hsame.symm ▸ hkey)
        rw [if_neg hother, List.map_nil, List.map_nil, List.append_nil]
        exact ih hbefore

end

/-- Once all notifications have been handled, one state is reported for each informer, and it is
the expected one. -/
def Follows (sort : Reorder ResourceState) (targetNamespace appID : String)
    (informers : List StatusInformer) (now : Int) (notifications : List Notification) : Prop :=
  ∃ received,
    deliverAll (normalizeStatusInformers informers targetNamespace) notifications =
      some received ∧
    ∃ status, (runInformers sort targetNamespace appID informers now received).getLast? =
        some status ∧
      status.appID = appID ∧
      (status.resourceStates.map ResourceState.key).Perm
        ((normalizeStatusInformers informers targetNamespace).map StatusInformer.key) ∧
      ∀ r ∈ status.resourceStates, some r.state = expected notifications r.key

/-- No handler panics, and a tombstone comes only for an object that the handlers know to be
deleted, or do not know. -/
structure Castable (informers : List StatusInformer) (notifications : List Notification) :
    Prop where
  handled : ∀ n ∈ notifications, n.Crashes →
    ¬ ∃ informer ∈ informers, informer.key = n.obj.key
  deleted : ∀ informer ∈ informers, DeletedBefore notifications informer.key

/-- What has been sent last is exact for all that was received. -/
theorem getLast?_runInformers (sort : Reorder ResourceState) (targetNamespace appID : String)
    (informers : List StatusInformer) (now : Int) (received : List (ResourceState × Int)) :
    ∃ status, (runInformers sort targetNamespace appID informers now received).getLast? =
        some status ∧ status.appID = appID ∧
      Exact (normalizeStatusInformers informers targetNamespace) (received.map Prod.fst)
        status.resourceStates := by
  have hbuild : Exact (normalizeStatusInformers informers targetNamespace) []
      (resetStatus sort appID (normalizeStatusInformers informers targetNamespace)
        now).resourceStates := exact_build
  obtain ⟨status, hstatus, happ, hexact⟩ := exact_runLoop hbuild received []
  refine ⟨status, ?_, happ, hexact⟩
  rw [List.append_nil] at hstatus
  rw [runInformers, List.getLast?_eq_getElem?, length_runLoop]
  exact hstatus

/-- **When the reported states follow the cluster.** -/
theorem follows_iff (sort : Reorder ResourceState) (targetNamespace appID : String)
    (informers : List StatusInformer) (now : Int) (notifications : List Notification) :
    Follows sort targetNamespace appID informers now notifications ↔
      Castable (normalizeStatusInformers informers targetNamespace) notifications := by
  constructor
  · intro h
    obtain ⟨received, hreceived, status, hstatus, -, -, hstates⟩ := h
    obtain ⟨last, hlast, -, hexact⟩ :=
      getLast?_runInformers sort targetNamespace appID informers now received
    cases hstatus.symm.trans hlast
    refine ⟨deliverAll_isSome.mp (Option.isSome_of_eq_some hreceived), ?_⟩
    intro informer hinformer
    -- the entry of the informer holds what was last cast, and is the expected one
    have hentry : informer.key ∈ status.resourceStates.map ResourceState.key :=
      hexact.keys.mem_iff.mpr (List.mem_map_of_mem hinformer)
    obtain ⟨r, hr, hkey⟩ := List.mem_map.mp hentry
    have hlastState := lastState_deliverAll hreceived ⟨informer, hinformer, rfl⟩
    rw [← expected_castable_iff, ← hlastState, ← hkey, ← hexact.state r hr]
    exact hstates r hr
  · intro h
    obtain ⟨received, hreceived⟩ := Option.isSome_iff_exists.mp (deliverAll_isSome.mpr h.handled)
    obtain ⟨status, hstatus, happ, hexact⟩ :=
      getLast?_runInformers sort targetNamespace appID informers now received
    refine ⟨received, hreceived, status, hstatus, happ, hexact.keys, ?_⟩
    intro r hr
    have hmem : r.key ∈ (normalizeStatusInformers informers targetNamespace).map
        StatusInformer.key := hexact.keys.mem_iff.mp (List.mem_map_of_mem hr)
    obtain ⟨informer, hinformer, hkey⟩ := List.mem_map.mp hmem
    rw [hexact.state r hr, lastState_deliverAll hreceived ⟨informer, hinformer, hkey⟩]
    rw [← hkey]
    exact expected_castable_iff.mpr (h.deleted informer hinformer)

/-! ## A missed deletion -/

def webDeployment : Object :=
  .deployment { ns := "default", name := "web", replicas := some 1, readyReplicas := 1 }

def noServices : Clientset where
  endpoints _ _ := none
  services _ _ := none

/-- The deployment is added, and deleted while the watch is broken. -/
def missedDeletion : List Notification :=
  [{ event := .add webDeployment, clientset := noServices, now := 1 },
   { event := .delete (.deletedFinalStateUnknown "default/web" webDeployment),
     clientset := noServices, now := 2 }]

def webInformer : StatusInformer where
  kind := "deployment"
  name := "web"
  ns := "default"

/-- The deployment is still reported as ready. -/
theorem not_follows_missedDeletion :
    ¬ Follows (.id _) "default" "app" [webInformer] 0 missedDeletion := by
  intro h
  obtain ⟨received, hreceived, status, hstatus, -, -, hstates⟩ := h
  have hone : deliverAll (normalizeStatusInformers [webInformer] "default") missedDeletion =
      some [(webDeployment.resourceState .ready, 1)] := by decide +kernel
  cases hone.symm.trans hreceived
  have hlast : (runInformers (.id _) "default" "app" [webInformer] 0
      [(webDeployment.resourceState .ready, 1)]).getLast? =
      some ⟨"app", [webDeployment.resourceState .ready], 1⟩ := by decide +kernel
  cases hlast.symm.trans hstatus
  exact absurd (hstates _ List.mem_cons_self) (by decide +kernel)

end Kotsadm.AppState
