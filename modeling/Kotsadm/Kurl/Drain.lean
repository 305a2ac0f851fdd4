import Kotsadm.Lib.Effects
import Kotsadm.Lib.Keyed
import Kotsadm.Lib.LabelSelector
import Kotsadm.Lib.Reorder
import Mathlib.Tactic.FinCases

/-!
# Drain — the pods of a node are evicted

`drain` lists the pods of the node four times, with a selector each, and evicts those that
`shouldDrain` lets through.  Pods that the others need are left to the later selectors.
-/

namespace Kotsadm.Drain

structure OwnerReference where
  controller : Option Bool := none
  kind : String
  deriving DecidableEq, Repr

structure Pod where
  ns : String
  name : String
  nodeName : String
  labels : Labels := []
  annotations : Option (List (String × String)) := none
  ownerReferences : Option (List OwnerReference) := none
  phase : Option String := none
  deriving DecidableEq, Repr

structure Eviction where
  ns : String
  name : String
  deriving DecidableEq, Repr

def Pod.eviction (pod : Pod) : Eviction := ⟨pod.ns, pod.name⟩

structure NodeSpec where
  unschedulable : Bool
  deriving DecidableEq, Repr

structure Node where
  name : String
  spec : Option NodeSpec
  deriving DecidableEq, Repr

inductive Action
  | replaceNode (name : String) (node : Node)
  | createNamespacedPodEviction (eviction : Eviction)
  deriving DecidableEq, Repr

/-! ## The API server -/

/-- The pods, which stay, and the answers: a rejection or a status, which may depend on all that was
done before.  The pods of a list are in an order of its own. -/
structure ApiServer where
  pods : Keyed Pod.eviction
  readNode : Except String (Nat × Node)
  replaceNode : List Action → Except String Nat
  listStatus : List Action → Selector → Except String Nat
  order : Selector → Reorder Pod
  evictionStatus : List Action → Eviction → Except String Nat

/-- The pods that the field selector `spec.nodeName` and the label selector select -/
def ApiServer.podsOf (server : ApiServer) (nodeName : String) (selector : Selector) : List Pod :=
  (server.order selector).apply
    (server.pods.rows.filter fun pod => pod.nodeName = nodeName ∧ selector.selects pod.labels)

/-! ## drain -/

abbrev Program (α : Type) := Effects String Action α

structure DrainResult where
  waitAndRetry : Bool := false
  misconfiguredPolicyDisruptionBudget : Bool := false
  deriving DecidableEq, Repr

def labelSelectors : List Selector := [
  [.notIn "app" ["rook-ceph-mon", "rook-ceph-osd", "rook-ceph-operator", "kotsadm-api"],
    .notEquals "k8s-app" "kube-dns"],
  [.isIn "app" ["rook-ceph-mon", "rook-ceph-osd", "rook-ceph-operator"]],
  [.equals "k8s-app" "kube-dns"],
  [.equals "app" "kotsadm-api"]]

example : labelSelectors.map Selector.text = [
    "app notin (rook-ceph-mon,rook-ceph-osd,rook-ceph-operator,kotsadm-api),k8s-app!=kube-dns",
    "app in (rook-ceph-mon,rook-ceph-osd,rook-ceph-operator)",
    "k8s-app=kube-dns",
    "app=kotsadm-api"] := by decide

def isFinished (pod : Pod) : Bool := pod.phase = some "Succeeded" ∨ pod.phase = some "Failed"

/-- `_.has` finds the name with its dots as it is; as a path it leads nowhere, as the values are
texts. -/
def isMirror (pod : Pod) : Bool :=
  match pod.annotations with
  | some annotations => (annotations.lookup "kubernetes.io/config.mirror").isSome
  | none => false

def isDaemonSetPod (pod : Pod) : Bool :=
  (pod.ownerReferences.getD []).any fun ownerRef =>
    ownerRef.controller.getD false && ownerRef.kind = "DaemonSet"

def shouldDrain (pod : Pod) : Bool :=
  if isFinished pod then true
  else if isMirror pod then false
  else if isDaemonSetPod pod then false
  else true

section

variable (server : ApiServer)

def evict (pod : Pod) : Program DrainResult := do
  let answer ← Effects.act (fun before => server.evictionStatus before pod.eviction) fun _ =>
    .createNamespacedPodEviction pod.eviction
  let statusCode ← Effects.ofExcept answer
  match statusCode with
  | 200 | 201 => return {}
  | 429 => return { waitAndRetry := true }
  | 500 => return { misconfiguredPolicyDisruptionBudget := true }
  | code => Effects.ofExcept (.error s!"Unexpected response code {code}")

/-- The body of the inner loop -/
def drainPod (drained : DrainResult) (pod : Pod) : Program DrainResult :=
  if shouldDrain pod then do
    let result ← evict server pod
    return {
      waitAndRetry := drained.waitAndRetry || result.waitAndRetry
      misconfiguredPolicyDisruptionBudget := drained.misconfiguredPolicyDisruptionBudget ||
        result.misconfiguredPolicyDisruptionBudget }
  else return drained

/-- The body of the outer loop -/
def drainSelector (name : String) (drained : DrainResult) (labelSelector : Selector) :
    Program DrainResult := do
  let answer ← Effects.look fun before => server.listStatus before labelSelector
  let statusCode ← Effects.ofExcept answer
  if statusCode ≠ 200 then
    Effects.ofExcept (.error s!"List pods response status: {statusCode}")
  else Effects.fold (drainPod server) drained (server.podsOf name labelSelector)

def cordon (name : String) : Program Unit := do
  let (statusCode, node) ← Effects.ofExcept server.readNode
  if statusCode ≠ 200 then Effects.ofExcept (.error "Node not found")
  else match node.spec with
    | none => Effects.ofExcept (.error "Node spec not found")
    | some _ => do
      let answer ← Effects.act server.replaceNode fun _ =>
        .replaceNode name { node with spec := some { unschedulable := true } }
      let statusCode ← Effects.ofExcept answer
      Effects.throwIf (if statusCode ≠ 200 then some s!"Cordon node: {statusCode}" else none)

def drain (name : String) : Program DrainResult := do
  cordon server name
  Effects.fold (drainSelector server name) {} labelSelectors

end

/-! ## What a drain is for -/

namespace Pod

def Finished (pod : Pod) : Prop := pod.phase = some "Succeeded" ∨ pod.phase = some "Failed"

def Mirror (pod : Pod) : Prop :=
  ∃ annotations ∈ pod.annotations, ∃ value,
    annotations.lookup "kubernetes.io/config.mirror" = some value

def OfDaemonSet (pod : Pod) : Prop :=
  ∃ ownerReferences ∈ pod.ownerReferences, ∃ ownerRef ∈ ownerReferences,
    ownerRef.controller = some true ∧ ownerRef.kind = "DaemonSet"

def Drainable (pod : Pod) : Prop := pod.Finished ∨ ¬ pod.Mirror ∧ ¬ pod.OfDaemonSet

/-- Rook and the API itself -/
def DeferredApp (pod : Pod) : Prop :=
  ∃ app ∈ ["rook-ceph-mon", "rook-ceph-osd", "rook-ceph-operator", "kotsadm-api"],
    pod.labels.lookup "app" = some app

def KubeDns (pod : Pod) : Prop := pod.labels.lookup "k8s-app" = some "kube-dns"

def Deferred (pod : Pod) : Prop := pod.DeferredApp ∨ pod.KubeDns

instance (pod : Pod) : Decidable pod.DeferredApp := by
  unfold DeferredApp
  infer_instance

instance (pod : Pod) : Decidable pod.KubeDns := by
  unfold KubeDns
  infer_instance

end Pod

/-- All calls are answered with a status that `drain` goes on with. -/
structure ApiServer.Succeeds (server : ApiServer) : Prop where
  readNode : ∃ node spec, server.readNode = .ok (200, node) ∧ node.spec = some spec
  replaceNode : ∀ before, server.replaceNode before = .ok 200
  list : ∀ before selector, server.listStatus before selector = .ok 200
  evict : ∀ before eviction, ∃ statusCode ∈ [200, 201, 429, 500],
    server.evictionStatus before eviction = .ok statusCode

/-! ## The filter -/

section

variable {pod : Pod}

theorem isFinished_iff : isFinished pod = true ↔ pod.Finished := decide_eq_true_iff

theorem isMirror_iff : isMirror pod = true ↔ pod.Mirror := by
  unfold isMirror Pod.Mirror
  cases pod.annotations with
  | none => simp
  | some annotations => simp [Option.isSome_iff_exists]

theorem isDaemonSetPod_iff : isDaemonSetPod pod = true ↔ pod.OfDaemonSet := by
  unfold isDaemonSetPod Pod.OfDaemonSet
  cases pod.ownerReferences with
  | none => simp
  | some ownerReferences =>
    rw [Option.getD_some, List.any_eq_true]
    simp only [Option.mem_def, Option.some.injEq, exists_eq_left', Bool.and_eq_true,
      decide_eq_true_eq]
    refine exists_congr fun ownerRef => and_congr_right fun _ => and_congr_left fun _ => ?_
    cases ownerRef.controller <;> simp

theorem shouldDrain_iff : shouldDrain pod = true ↔ pod.Drainable := by
  unfold shouldDrain Pod.Drainable
  rw [← isFinished_iff, ← isMirror_iff, ← isDaemonSetPod_iff]
  split
  next hfinished => exact iff_of_true rfl (.inl hfinished)
  next hfinished =>
    rw [or_iff_right hfinished]
    split
    next hmirror => exact iff_of_false Bool.false_ne_true fun h => h.1 hmirror
    next hmirror =>
      split
      next howned => exact iff_of_false Bool.false_ne_true fun h => h.2 howned
      next howned => exact iff_of_true rfl ⟨hmirror, howned⟩

/-! ## The selectors -/

/-- The first selector has what is in none of the others. -/
theorem selects_first : Selector.selects
      [.notIn "app" ["rook-ceph-mon", "rook-ceph-osd", "rook-ceph-operator", "kotsadm-api"],
        .notEquals "k8s-app" "kube-dns"] pod.labels = true ↔ ¬ pod.Deferred := by
  refine (Selector.selects_map_negate
    [.isIn "app" ["rook-ceph-mon", "rook-ceph-osd", "rook-ceph-operator", "kotsadm-api"],
      .equals "k8s-app" "kube-dns"]).trans ?_
  rw [List.forall_mem_cons, List.forall_mem_singleton, ← Bool.not_eq_true, ← Bool.not_eq_true,
    Requirement.holds_isIn, Requirement.holds_equals]
  exact not_or.symm

theorem deferredApp_iff : pod.DeferredApp ↔
    Selector.selects [.isIn "app" ["rook-ceph-mon", "rook-ceph-osd", "rook-ceph-operator"]]
      pod.labels = true ∨ Selector.selects [.equals "app" "kotsadm-api"] pod.labels = true := by
  rw [Selector.selects_singleton, Selector.selects_singleton, Requirement.holds_isIn,
    Requirement.holds_equals]
  unfold Pod.DeferredApp
  simp only [List.exists_mem_cons_iff, List.not_mem_nil, false_and, exists_false, or_false,
    or_assoc]

/-- Rook and the API have different values of one label. -/
theorem not_rook_and_api :
    ¬ (Selector.selects [.isIn "app" ["rook-ceph-mon", "rook-ceph-osd", "rook-ceph-operator"]]
        pod.labels = true ∧ Selector.selects [.equals "app" "kotsadm-api"] pod.labels = true) := by
  rw [Selector.selects_singleton, Selector.selects_singleton, Requirement.holds_isIn,
    Requirement.holds_equals]
  rintro ⟨⟨app, hmem, happ⟩, hapi⟩
  obtain rfl := Option.some.inj (happ.symm.trans hapi)
  exact absurd hmem (by decide)

theorem kubeDns_iff : pod.KubeDns ↔
    Selector.selects [.equals "k8s-app" "kube-dns"] pod.labels = true := by
  rw [Selector.selects_singleton, Requirement.holds_equals]
  exact Iff.rfl

/-- The selectors that select a pod -/
def matching (pod : Pod) : List Selector :=
  labelSelectors.filter fun labelSelector => labelSelector.selects pod.labels

/-- The second, the third and the fourth selector have what the first one leaves out, and only the
third one has something in common with another one. -/
theorem length_matching (pod : Pod) :
    (matching pod).length = if pod.KubeDns ∧ pod.DeferredApp then 2 else 1 := by
  have hfirst := @selects_first pod
  have hexclusive := @not_rook_and_api pod
  unfold Pod.Deferred at hfirst
  simp only [deferredApp_iff, kubeDns_iff] at hfirst ⊢
  unfold matching labelSelectors
  simp only [List.filter_cons, List.filter_nil]
  generalize Selector.selects _ pod.labels = first at hfirst ⊢
  generalize Selector.selects [.isIn _ _] pod.labels = rook at hfirst hexclusive ⊢
  generalize Selector.selects [.equals "k8s-app" _] pod.labels = kubeDns at hfirst ⊢
  generalize Selector.selects [.equals "app" _] pod.labels = api at hfirst hexclusive ⊢
  cases rook <;> cases kubeDns <;> cases api <;> simp_all

end

/-! ## A run -/

section

variable {server : ApiServer} {name : String} {eviction : Eviction}

def podActions (pod : Pod) : List Action :=
  if shouldDrain pod then [.createNamespacedPodEviction pod.eviction] else []

def selectorActions (server : ApiServer) (name : String) (labelSelector : Selector) : List Action :=
  (server.podsOf name labelSelector).flatMap podActions

theorem evict_apply (h : server.Succeeds) (pod : Pod) (before : List Action) :
    ∃ result, evict server pod before =
      (.ok result, [.createNamespacedPodEviction pod.eviction]) := by
  obtain ⟨statusCode, hcode, hanswer⟩ := h.evict before pod.eviction
  have hact := Effects.act_apply (ε := String) before
    (fun before => server.evictionStatus before pod.eviction)
    fun _ => Action.createNamespacedPodEviction pod.eviction
  unfold evict
  rw [Effects.bind_ok before hact, hanswer, Effects.ofExcept_ok_bind]
  fin_cases hcode <;> exact ⟨_, rfl⟩

theorem drainPod_apply (h : server.Succeeds) (drained : DrainResult) (pod : Pod)
    (before : List Action) :
    ∃ result, drainPod server drained pod before = (.ok result, podActions pod) := by
  unfold drainPod podActions
  split
  next =>
    obtain ⟨result, hevict⟩ := evict_apply h pod before
    rw [Effects.bind_ok before hevict]
    exact ⟨_, rfl⟩
  next => exact ⟨drained, rfl⟩

theorem drainSelector_apply (h : server.Succeeds) (drained : DrainResult) (labelSelector : Selector)
    (before : List Action) : ∃ result, drainSelector server name drained labelSelector before =
      (.ok result, selectorActions server name labelSelector) := by
  have hlook := Effects.look_apply (ε := String) before fun before =>
    server.listStatus before labelSelector
  unfold drainSelector
  rw [Effects.bind_ok before hlook, h.list, List.append_nil, Effects.ofExcept_ok_bind,
    if_neg (not_not.mpr rfl), List.nil_append]
  exact Effects.fold_done (fun drained pod _ => drainPod_apply h drained pod) drained before

theorem cordon_apply (h : server.Succeeds) (name : String) (before : List Action) :
    ∃ node, cordon server name before = (.ok (), [.replaceNode name node]) := by
  obtain ⟨node, spec, hread, hspec⟩ := h.readNode
  refine ⟨{ node with spec := some { unschedulable := true } }, ?_⟩
  unfold cordon
  rw [hread, Effects.ofExcept_ok_bind]
  dsimp only
  rw [if_neg (not_not.mpr rfl), hspec]
  dsimp only
  rw [Effects.bind_ok before (Effects.act_apply _ _ _), h.replaceNode]
  rfl

/-- With answers to all calls, `drain` returns and has evicted what the filter lets through of each
list. -/
theorem drain_apply (h : server.Succeeds) (name : String) : ∃ result node,
    drain server name [] = (.ok result,
      .replaceNode name node :: labelSelectors.flatMap (selectorActions server name)) := by
  have hselectors : ∀ drained, ∀ labelSelector ∈ labelSelectors, ∀ before, ∃ result,
      drainSelector server name drained labelSelector before =
        (.ok result, selectorActions server name labelSelector) :=
    fun drained labelSelector _ => drainSelector_apply h drained labelSelector
  obtain ⟨node, hcordon⟩ := cordon_apply h name []
  obtain ⟨result, hfold⟩ := Effects.fold_done hselectors {} _
  refine ⟨result, node, ?_⟩
  unfold drain
  rw [Effects.bind_ok [] hcordon, hfold]
  rfl

/-! ## What is evicted, and in which order -/

theorem mem_podsOf {labelSelector : Selector} {pod : Pod} :
    pod ∈ server.podsOf name labelSelector ↔
      pod ∈ server.pods.rows ∧ pod.nodeName = name ∧ labelSelector.selects pod.labels = true := by
  unfold ApiServer.podsOf
  rw [Reorder.mem_apply, List.mem_filter, decide_eq_true_iff]

theorem mem_podActions {pod : Pod} : .createNamespacedPodEviction eviction ∈ podActions pod ↔
    pod.Drainable ∧ pod.eviction = eviction := by
  rw [← shouldDrain_iff]
  unfold podActions
  split
  next hdrain =>
    rw [List.mem_singleton, Action.createNamespacedPodEviction.injEq]
    exact ⟨fun h => ⟨hdrain, h.symm⟩, fun h => h.2.symm⟩
  next hdrain => exact iff_of_false List.not_mem_nil fun h => hdrain h.1

theorem mem_selectorActions {labelSelector : Selector} :
    .createNamespacedPodEviction eviction ∈ selectorActions server name labelSelector ↔
      ∃ pod ∈ server.pods.rows, pod.nodeName = name ∧ labelSelector.selects pod.labels = true ∧
        pod.Drainable ∧ pod.eviction = eviction := by
  unfold selectorActions
  simp only [List.mem_flatMap, mem_podsOf, mem_podActions, and_assoc]

/-- Every pod is in one of the lists. -/
theorem exists_selects (pod : Pod) :
    ∃ labelSelector ∈ labelSelectors, labelSelector.selects pod.labels = true := by
  have hlength : 0 < (matching pod).length := by
    rw [length_matching]
    split <;> decide
  obtain ⟨labelSelector, hmem⟩ := List.exists_mem_of_length_pos hlength
  exact ⟨labelSelector, (List.mem_filter.mp hmem).1, (List.mem_filter.mp hmem).2⟩

theorem mem_drainActions : .createNamespacedPodEviction eviction ∈
      labelSelectors.flatMap (selectorActions server name) ↔
    ∃ pod ∈ server.pods.rows, pod.nodeName = name ∧ pod.Drainable ∧ pod.eviction = eviction := by
  simp only [List.mem_flatMap, mem_selectorActions]
  constructor
  · rintro ⟨_, -, pod, hpod, hnode, -, hdrain, heviction⟩
    exact ⟨pod, hpod, hnode, hdrain, heviction⟩
  · rintro ⟨pod, hpod, hnode, hdrain, heviction⟩
    obtain ⟨labelSelector, hmem, hselects⟩ := exists_selects pod
    exact ⟨labelSelector, hmem, pod, hpod, hnode, hselects, hdrain, heviction⟩

/-- What is only in the first of two lists comes before what is only in the second. -/
theorem lt_of_getElem?_append {α : Type} {first second : List α} {x y : α} (hx : x ∉ second)
    (hy : y ∉ first) {i j : Nat} (hi : (first ++ second)[i]? = some x)
    (hj : (first ++ second)[j]? = some y) : i < j := by
  by_cases hfirst : j < first.length
  · rw [List.getElem?_append_left hfirst] at hj
    exact absurd (List.mem_of_getElem? hj) hy
  by_cases hsecond : first.length ≤ i
  · rw [List.getElem?_append_right hsecond] at hi
    exact absurd (List.mem_of_getElem? hi) hx
  omega

/-- A pod that is in none of the lists is not evicted. -/
theorem not_mem_of_selects {pod : Pod} (hpod : pod ∈ server.pods.rows) {selectors : List Selector}
    (h : ∀ labelSelector ∈ selectors, labelSelector.selects pod.labels = false) :
    .createNamespacedPodEviction pod.eviction ∉
      selectors.flatMap (selectorActions server name) := by
  intro hmem
  obtain ⟨labelSelector, hselector, haction⟩ := List.mem_flatMap.mp hmem
  obtain ⟨other, hother, -, hselects, -, heviction⟩ := mem_selectorActions.mp haction
  obtain rfl := server.pods.eq_of_key_eq hother hpod heviction
  rw [h labelSelector hselector] at hselects
  cases hselects

theorem selects_head {pod : Pod} :
    (labelSelectors.head (by decide)).selects pod.labels = true ↔ ¬ pod.Deferred := selects_first

theorem selects_tail {pod : Pod} (h : ¬ pod.Deferred) :
    ∀ labelSelector ∈ labelSelectors.tail, labelSelector.selects pod.labels = false := by
  unfold Pod.Deferred at h
  rw [deferredApp_iff, kubeDns_iff] at h
  obtain ⟨happ, hdns⟩ := not_or.mp h
  obtain ⟨hrook, hapi⟩ := not_or.mp happ
  intro labelSelector hmem
  fin_cases hmem
  · exact Bool.eq_false_of_not_eq_true hrook
  · exact Bool.eq_false_of_not_eq_true hdns
  · exact Bool.eq_false_of_not_eq_true hapi

end

/-- **A drain** that gets answers to all its calls evicts the drainable pods of the node and no
others.  Each pod is in the list of one selector, or of two if it is a deferred application and the
DNS.  The evictions of all other pods come before those of the deferred ones. -/
theorem drain_evicts (server : ApiServer) (name : String) (h : server.Succeeds) :
    ∃ result done, drain server name [] = (.ok result, done) ∧
      (∀ eviction, .createNamespacedPodEviction eviction ∈ done ↔
        ∃ pod ∈ server.pods.rows, pod.nodeName = name ∧ pod.Drainable ∧ pod.eviction = eviction) ∧
      (∀ pod, (matching pod).length = if pod.KubeDns ∧ pod.DeferredApp then 2 else 1) ∧
      ∀ pod ∈ server.pods.rows, ∀ deferred ∈ server.pods.rows, ¬ pod.Deferred → deferred.Deferred →
        ∀ i j : Nat, done[i]? = some (.createNamespacedPodEviction pod.eviction) →
          done[j]? = some (.createNamespacedPodEviction deferred.eviction) → i < j := by
  obtain ⟨result, node, hdrain⟩ := drain_apply h name
  refine ⟨result, _, hdrain, fun eviction => ?_, length_matching, ?_⟩
  · rw [List.mem_cons, or_iff_right nofun]
    exact mem_drainActions
  · intro pod hpod deferred hdeferred hnot hlater i j hi hj
    have hsplit : Action.replaceNode name node ::
        labelSelectors.flatMap (selectorActions server name) =
          (Action.replaceNode name node ::
            [labelSelectors.head (by decide)].flatMap (selectorActions server name)) ++
          labelSelectors.tail.flatMap (selectorActions server name) := by
      rw [List.cons_append, ← List.flatMap_append]
      rfl
    rw [hsplit] at hi hj
    refine lt_of_getElem?_append (not_mem_of_selects hpod (selects_tail hnot)) ?_ hi hj
    rw [List.mem_cons, or_iff_right nofun]
    apply not_mem_of_selects hdeferred
    intro labelSelector hmem
    rw [List.mem_singleton.mp hmem, ← Bool.not_eq_true, selects_head]
    exact not_not.mpr hlater

/-- A node with a web server, a DNS pod and a pod of the DaemonSet for the network. -/
def worker : ApiServer where
  pods := ⟨[
    { ns := "default", name := "web", nodeName := "worker", labels := [("app", "web")] },
    { ns := "kube-system", name := "coredns", nodeName := "worker",
      labels := [("k8s-app", "kube-dns")] },
    { ns := "kube-system", name := "weave", nodeName := "worker",
      ownerReferences := some [{ controller := some true, kind := "DaemonSet" }] }], by decide⟩
  readNode := .ok (200, { name := "worker", spec := some { unschedulable := false } })
  replaceNode := fun _ => .ok 200
  listStatus := fun _ _ => .ok 200
  order := fun _ => .id Pod
  evictionStatus := fun _ _ => .ok 201

theorem worker_succeeds : worker.Succeeds where
  readNode := ⟨_, _, rfl, rfl⟩
  replaceNode := fun _ => rfl
  list := fun _ _ => rfl
  evict := fun _ _ => ⟨201, by decide, rfl⟩

/-- The web server is evicted, the network is not. -/
theorem drain_evicts_worker : ∃ result done, drain worker "worker" [] = (.ok result, done) ∧
    .createNamespacedPodEviction ⟨"default", "web"⟩ ∈ done ∧
    .createNamespacedPodEviction ⟨"kube-system", "weave"⟩ ∉ done := by
  obtain ⟨result, done, hdrain, hevicted, -⟩ := drain_evicts worker "worker" worker_succeeds
  refine ⟨result, done, hdrain, ?_, ?_⟩
  · rw [hevicted]
    exact ⟨_, List.mem_cons_self, rfl, shouldDrain_iff.mp (by decide), rfl⟩
  · rw [hevicted]
    rintro ⟨pod, hpod, -, hdrainable, heviction⟩
    fin_cases hpod
    · exact absurd heviction (by decide)
    · exact absurd heviction (by decide)
    · exact absurd (shouldDrain_iff.mpr hdrainable) (by decide)

end Kotsadm.Drain
