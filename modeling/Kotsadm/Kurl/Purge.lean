import Kotsadm.Lib.Keyed
import Kotsadm.Lib.Remote

/-!
# Purge — removing a node from the cluster

`purge` deletes the node first.  What it needs later it reads from what it has deleted before: that
the node was a master, the id of its OSD, the address of its endpoint.
-/

namespace Kotsadm.Kurl

/-! ## The cluster -/

structure Node where
  name : String
  labels : List (String × String)
  deriving DecidableEq, Repr

/-- A deployment with the label `app=rook-ceph-osd` -/
structure Deployment where
  name : String
  labels : List (String × String)
  nodeSelector : Option (List (String × String))
  deriving DecidableEq, Repr

/-- A member of the etcd cluster -/
structure Member where
  id : String
  name : String
  peerURLs : List String
  deriving DecidableEq, Repr

/-- `apiEndpoints` of the `ClusterStatus`: the name of a master and its address. -/
abbrev ApiEndpoints := Keyed (Prod.fst : String × String → String)

structure Cluster where
  nodes : Keyed Node.name := .empty
  -- the deployments and the pods of the namespace `rook-ceph`
  osdDeployments : Keyed Deployment.name := .empty
  operatorPods : List String := []
  -- the ids of the OSDs in ceph
  cephOSDs : List String := []
  -- nothing where the config map `kubeadm-config` is missing or cannot be read
  apiEndpoints : Option ApiEndpoints := none
  members : Keyed Member.id := .empty

namespace Cluster

variable (c : Cluster)

def deleteNode (name : String) : Cluster :=
  { c with nodes := c.nodes.deleteWhere fun node => node.name = name }

def deleteDeployment (name : String) : Cluster :=
  { c with osdDeployments := c.osdDeployments.deleteWhere fun deploy => deploy.name = name }

def purgeOSD (id : String) : Cluster :=
  { c with cephOSDs := c.cephOSDs.filter fun osd => osd ≠ id }

def replaceEndpoints (apiEndpoints : ApiEndpoints) : Cluster :=
  { c with apiEndpoints := some apiEndpoints }

def removeMember (id : String) : Cluster :=
  { c with members := c.members.deleteWhere fun member => member.id = id }

end Cluster

/-! ## purge -/

inductive Call
  | readNode
  | deleteNode
  | listNamespacedDeployment
  | deleteNamespacedDeployment
  | listNamespacedPod
  | exec
  | readNamespacedConfigMap
  | replaceNamespacedConfigMap
  -- the files with the credentials
  | readFileSync
  | memberList
  | memberRemove
  deriving DecidableEq, Repr

/-- How the calls are answered. -/
structure Answers where
  failure : Call → Option (Failure String) := fun _ => none
  -- the list of the deployments is answered with the status 404
  noNamespace : Bool := false

abbrev Program (α : Type) := Remote String Cluster α

def hostname : String := "kubernetes.io/hostname"

def Deployment.onNode (deploy : Deployment) (nodeName : String) : Bool :=
  match deploy.nodeSelector with
  | some selector => selector.lookup hostname = some nodeName
  | none => false

/-- `none` for `undefined` -/
def Deployment.osdID (deploy : Deployment) : Option String := deploy.labels.lookup "ceph-osd-id"

/-- As it is passed to the command -/
def osdText (osdID : Option String) : String := osdID.getD "undefined"

section

variable (answers : Answers)

def call {α : Type} (call : Call) (answer : Cluster → Except String α)
    (effect : Cluster → Cluster) : Program α :=
  .request (answers.failure call) answer effect

/-- A call that reads something that is there -/
def read {α : Type} (call : Call) (answer : Cluster → α) : Program α :=
  Kurl.call answers call (fun c => .ok (answer c)) id

/-- A call that changes something -/
def change (call : Call) (effect : Cluster → Cluster) : Program Unit :=
  Kurl.call answers call (fun _ => .ok ()) effect

/-- The loop over the deployments: the first one of the node is deleted. -/
def deleteFirst (nodeName : String) : List Deployment → Program (Option String)
  | [] => pure (some "")
  | deploy :: deployments =>
    match deploy.nodeSelector with
    | none => .fail "Cannot read property 'kubernetes.io/hostname' of undefined"
    | some selector =>
      if selector.lookup hostname = some nodeName then do
        change answers .deleteNamespacedDeployment fun c => c.deleteDeployment deploy.name
        return deploy.osdID
      else deleteFirst nodeName deployments

def purgeOSD (nodeName : String) : Program Unit := do
  let deployments ← read answers .listNamespacedDeployment fun c => c.osdDeployments.rows
  if answers.noNamespace then return
  let osdID ← deleteFirst answers nodeName deployments
  if osdID = some "" then return
  let pods ← read answers .listNamespacedPod fun c => c.operatorPods
  if pods.length ≠ 1 then return
  change answers .exec fun c => c.purgeOSD (osdText osdID)

def peerURL (ip : String) : String := "https://" ++ ip ++ ":2380"

def Member.isAt (member : Member) (ip : String) : Bool := peerURL ip ∈ member.peerURLs

def clusterStatus (c : Cluster) : Except String ApiEndpoints :=
  match c.apiEndpoints with
  | some apiEndpoints => .ok apiEndpoints
  | none => .error "Get kubeadm-config map from kube-system namespace"

def purgeMaster (node : Node) : Program Unit := do
  let apiEndpoints ← call answers .readNamespacedConfigMap clusterStatus id
  let purgedMasterIP := (apiEndpoints.find? node.name).elim "" Prod.snd
  let remaining := apiEndpoints.deleteWhere fun endpoint => endpoint.1 = node.name
  change answers .replaceNamespacedConfigMap fun c => c.replaceEndpoints remaining
  if purgedMasterIP = "" then return
  if remaining.rows = [] then return
  read answers .readFileSync fun _ => ()
  let members ← read answers .memberList fun c => c.members.rows
  match members.find? fun member => member.isAt purgedMasterIP with
  | none => return
  | some purgedMember =>
    change answers .memberRemove fun c => c.removeMember purgedMember.id

def Node.isMaster (node : Node) : Bool :=
  (node.labels.lookup "node-role.kubernetes.io/master").isSome

def node (name : String) (c : Cluster) : Except String Node :=
  match c.nodes.find? name with
  | some node => .ok node
  | none => .error "HTTP request failed"

def purge (name : String) : Program Unit := do
  let node ← call answers .readNode (node name) id
  change answers .deleteNode fun c => c.deleteNode name
  purgeOSD answers name
  if node.isMaster then purgeMaster answers node

end

/-- All calls succeed, as far as the state of the cluster lets them. -/
def answered : Answers := {}

/-! ## What a purge is for -/

/-- Nothing of the node is left of what was there `before`: not the node, its OSDs, and if it was a
master its endpoint and the etcd member at the address of the endpoint. -/
structure Purged (before after : Cluster) (name : String) : Prop where
  node : after.nodes.find? name = none
  osds : ∀ deploy ∈ before.osdDeployments.rows, deploy.onNode name →
    after.osdDeployments.find? deploy.name = none ∧ ∀ id ∈ deploy.osdID, id ∉ after.cephOSDs
  endpoint : ∀ node, before.nodes.find? name = some node → node.isMaster →
    ∀ endpoints, after.apiEndpoints = some endpoints → endpoints.find? name = none
  member : ∀ node, before.nodes.find? name = some node → node.isMaster →
    ∀ endpoints ip, before.apiEndpoints = some endpoints → endpoints.find? name = some (name, ip) →
      ∀ member ∈ after.members.rows, member.isAt ip = false

/-- The deployment that the loop stops at; an error for one without node selector in front of it. -/
def firstOnNode (nodeName : String) : List Deployment → Except String (Option Deployment)
  | [] => .ok none
  | deploy :: deployments =>
    match deploy.nodeSelector with
    | none => .error "Cannot read property 'kubernetes.io/hostname' of undefined"
    | some selector =>
      if selector.lookup hostname = some nodeName then .ok (some deploy)
      else firstOnNode nodeName deployments

/-- One deployment of the node and one operator pod: these are all that the code looks at. -/
def OsdsPurgeable (c : Cluster) (name : String) : Prop :=
  match firstOnNode name c.osdDeployments.rows with
  | .error _ => ∀ deploy ∈ c.osdDeployments.rows, deploy.onNode name = false
  | .ok none => True
  | .ok (some first) =>
    (∀ deploy ∈ c.osdDeployments.rows, deploy.onNode name → deploy = first) ∧
      ∀ id ∈ first.osdID, id ∈ c.cephOSDs → id ≠ "" ∧ c.operatorPods.length = 1

/-- The member that is removed: the first one at the address, if other masters remain. -/
def purgedMember (c : Cluster) (name : String) (endpoints : ApiEndpoints) : Option Member :=
  let ip := (endpoints.find? name).elim "" Prod.snd
  let remaining := endpoints.deleteWhere fun endpoint => endpoint.1 = name
  if ip = "" ∨ remaining.rows = [] then none
  else c.members.rows.find? fun member => member.isAt ip

/-- The endpoints are read, and at most one member has the address, which other masters can
remove. -/
def MasterPurgeable (c : Cluster) (name : String) : Prop :=
  ∀ endpoints ip, c.apiEndpoints = some endpoints → endpoints.find? name = some (name, ip) →
    (firstOnNode name c.osdDeployments.rows).isOk ∧
      ∀ member ∈ c.members.rows, member.isAt ip → purgedMember c name endpoints = some member

/-- The node can be purged by one run without failures. -/
def Purgeable (c : Cluster) (name : String) : Prop :=
  OsdsPurgeable c name ∧ ∀ node, c.nodes.find? name = some node → node.isMaster → MasterPurgeable c name

/-! ## A run -/

section

variable {answers : Answers} {c : Cluster} {name : String}

theorem call_cases {α : Type} (answers : Answers) (name : Call) (answer : Cluster → Except String α)
    (effect : Cluster → Cluster) (c : Cluster) :
    (∃ e, (call answers name answer effect).run c = (.error e, c)) ∨
      (∃ e, (call answers name answer effect).run c = (.error e, effect c)) ∨
      ∃ a, answer c = .ok a ∧ (call answers name answer effect).run c = (.ok a, effect c) :=
  Remote.request_cases _ _ _ _

theorem find?_deleteNode : (c.deleteNode name).nodes.find? name = none :=
  Keyed.find?_eq_none.mpr fun node hnode =>
    of_decide_eq_false (Keyed.mem_deleteWhere.mp hnode).2

/-- Nothing in a purge brings a node back. -/
theorem preserves_deleteFirst {I : Cluster → Prop} (h : ∀ c deploy, I c → I (c.deleteDeployment deploy))
    (deployments : List Deployment) : (deleteFirst answers name deployments).Preserves I := by
  induction deployments with
  | nil => exact Remote.preserves_pure _
  | cons deploy deployments ih =>
    unfold deleteFirst
    split
    next => exact Remote.preserves_fail _
    next =>
      split
      · exact Remote.preserves_bind (Remote.preserves_request fun c hc => h c _ hc) fun _ =>
          Remote.preserves_pure _
      · exact ih

theorem preserves_purgeOSD {I : Cluster → Prop} (hdelete : ∀ c deploy, I c → I (c.deleteDeployment deploy))
    (hpurge : ∀ c id, I c → I (c.purgeOSD id)) : (purgeOSD answers name).Preserves I := by
  refine Remote.preserves_bind (Remote.preserves_request fun _ hc => hc) fun deployments => ?_
  split
  · exact Remote.preserves_pure _
  · refine Remote.preserves_bind (preserves_deleteFirst hdelete deployments) fun osdID => ?_
    split
    · exact Remote.preserves_pure _
    · refine Remote.preserves_bind (Remote.preserves_request fun _ hc => hc) fun pods => ?_
      split
      · exact Remote.preserves_pure _
      · exact Remote.preserves_request fun c hc => hpurge c _ hc

theorem preserves_purgeMaster {I : Cluster → Prop}
    (hreplace : ∀ c endpoints, I c → I (c.replaceEndpoints endpoints))
    (hremove : ∀ c id, I c → I (c.removeMember id)) (node : Node) :
    (purgeMaster answers node).Preserves I := by
  refine Remote.preserves_bind (Remote.preserves_request fun _ hc => hc) fun endpoints => ?_
  refine Remote.preserves_bind (Remote.preserves_request fun c hc => hreplace c _ hc) fun _ => ?_
  split
  · exact Remote.preserves_pure _
  · split
    · exact Remote.preserves_pure _
    · refine Remote.preserves_bind (Remote.preserves_request fun _ hc => hc) fun _ => ?_
      refine Remote.preserves_bind (Remote.preserves_request fun _ hc => hc) fun members => ?_
      split
      · exact Remote.preserves_pure _
      · exact Remote.preserves_request fun c hc => hremove c _ hc

/-- **The first change is the deletion of the node.**  While the node is there, nothing has
happened. -/
theorem purge_cases (answers : Answers) (c : Cluster) (name : String) :
    ((purge answers name).run c).2 = c ∨
      ((purge answers name).run c).2.nodes.find? name = none := by
  unfold purge
  rcases call_cases answers .readNode (node name) id c with ⟨e, h⟩ | ⟨e, h⟩ | ⟨node, -, h⟩
  · rw [Remote.bind_error h]
    exact .inl rfl
  · rw [Remote.bind_error h]
    exact .inl rfl
  · rw [Remote.bind_ok h]
    unfold change
    rcases call_cases answers .deleteNode (fun _ => .ok ()) (fun c => c.deleteNode name) c with
      ⟨e, h⟩ | ⟨e, h⟩ | ⟨⟨⟩, -, h⟩
    · rw [id, Remote.bind_error h]
      exact .inl rfl
    · rw [id, Remote.bind_error h]
      exact .inr find?_deleteNode
    · rw [id, Remote.bind_ok h]
      -- the rest does not touch the nodes
      right
      let Gone : Cluster → Prop := fun c => c.nodes.find? name = none
      have hosd : (purgeOSD answers name).Preserves Gone :=
        preserves_purgeOSD (fun _ _ hc => hc) fun _ _ hc => hc
      have hmaster : (purgeMaster answers node).Preserves Gone :=
        preserves_purgeMaster (fun _ _ hc => hc) (fun _ _ hc => hc) node
      refine Remote.preserves_bind hosd (fun _ => ?_) _ find?_deleteNode
      split
      · exact hmaster
      · exact Remote.preserves_pure _

end

/-! ## A run without failures -/

section

variable {c : Cluster} {name : String} {node : Node}

theorem run_read {α : Type} (call : Call) (answer : Cluster → α) (c : Cluster) :
    (read answered call answer).run c = (.ok (answer c), c) := rfl

theorem run_change (call : Call) (effect : Cluster → Cluster) (c : Cluster) :
    (change answered call effect).run c = (.ok (), effect c) := rfl

theorem deleteFirst_answered (name : String) (deployments : List Deployment) (c : Cluster) :
    (deleteFirst answered name deployments).run c =
      match firstOnNode name deployments with
      | .error e => (.error e, c)
      | .ok none => (.ok (some ""), c)
      | .ok (some first) => (.ok first.osdID, c.deleteDeployment first.name) := by
  induction deployments with
  | nil => rfl
  | cons deploy deployments ih =>
    rw [deleteFirst, firstOnNode]
    cases hselector : deploy.nodeSelector with
    | none => rfl
    | some selector =>
      dsimp only
      by_cases hname : selector.lookup hostname = some name
      · rw [if_pos hname, if_pos hname]
        rfl
      · rw [if_neg hname, if_neg hname]
        exact ih

/-- The cluster after `purgeOSD` -/
def afterOSD (c : Cluster) (name : String) : Cluster :=
  match firstOnNode name c.osdDeployments.rows with
  | .ok (some first) =>
    let c' := c.deleteDeployment first.name
    if first.osdID = some "" ∨ c.operatorPods.length ≠ 1 then c'
    else c'.purgeOSD (osdText first.osdID)
  | _ => c

theorem purgeOSD_answered (name : String) (c : Cluster) :
    (purgeOSD answered name).run c =
      ((firstOnNode name c.osdDeployments.rows).map fun _ => (), afterOSD c name) := by
  have hdelete := deleteFirst_answered name c.osdDeployments.rows c
  unfold purgeOSD afterOSD
  rw [Remote.bind_ok (run_read _ _ c), if_neg (by decide)]
  cases hfirst : firstOnNode name c.osdDeployments.rows with
  | error e =>
    rw [hfirst] at hdelete
    exact Remote.bind_error hdelete
  | ok first =>
    rw [hfirst] at hdelete
    cases first with
    | none =>
      rw [Remote.bind_ok hdelete, if_pos rfl]
      rfl
    | some first =>
      rw [Remote.bind_ok hdelete]
      dsimp only
      by_cases hid : first.osdID = some ""
      · rw [if_pos hid, if_pos (.inl hid)]
        rfl
      · rw [if_neg hid, Remote.bind_ok (run_read _ _ _)]
        have hsame : (c.deleteDeployment first.name).operatorPods = c.operatorPods := rfl
        rw [hsame]
        by_cases hpods : c.operatorPods.length ≠ 1
        · rw [if_pos hpods, if_pos (.inr hpods)]
          rfl
        · rw [if_neg hpods, if_neg (not_or.mpr ⟨hid, hpods⟩)]
          rfl

/-- The cluster after `purgeMaster` -/
def afterMaster (c : Cluster) (name : String) : Cluster :=
  match c.apiEndpoints with
  | none => c
  | some endpoints =>
    let c' := c.replaceEndpoints (endpoints.deleteWhere fun endpoint => endpoint.1 = name)
    match purgedMember c name endpoints with
    | none => c'
    | some member => c'.removeMember member.id

theorem purgeMaster_answered (node : Node) (c : Cluster) :
    ((purgeMaster answered node).run c).2 = afterMaster c node.name := by
  unfold purgeMaster afterMaster
  cases hendpoints : c.apiEndpoints with
  | none =>
    have hread : (call answered .readNamespacedConfigMap clusterStatus id).run c =
        (.error "Get kubeadm-config map from kube-system namespace", c) :=
      Remote.request_error (by rw [clusterStatus, hendpoints])
    rw [Remote.bind_error hread]
  | some endpoints =>
    have hread : (call answered .readNamespacedConfigMap clusterStatus id).run c =
        (.ok endpoints, c) :=
      Remote.request_ok (by rw [clusterStatus, hendpoints])
    rw [Remote.bind_ok hread, Remote.bind_ok (run_change _ _ c)]
    unfold purgedMember
    dsimp only
    by_cases hip : (endpoints.find? node.name).elim "" Prod.snd = ""
    · rw [if_pos hip, if_pos (.inl hip)]
      rfl
    · rw [if_neg hip]
      by_cases hremaining :
          (endpoints.deleteWhere fun endpoint => endpoint.1 = node.name).rows = []
      · rw [if_pos hremaining, if_pos (.inr hremaining)]
        rfl
      · rw [if_neg hremaining, if_neg (not_or.mpr ⟨hip, hremaining⟩),
          Remote.bind_ok (run_read _ _ _), Remote.bind_ok (run_read _ _ _)]
        have hsame : (c.replaceEndpoints (endpoints.deleteWhere fun endpoint =>
            endpoint.1 = node.name)).members = c.members := rfl
        rw [hsame]
        cases c.members.rows.find? fun member =>
          member.isAt ((endpoints.find? node.name).elim "" Prod.snd) <;> rfl

theorem purge_answered (hnode : c.nodes.find? name = some node) :
    ((purge answered name).run c).2 =
      let c' := afterOSD (c.deleteNode name) name
      if node.isMaster ∧ (firstOnNode name c.osdDeployments.rows).isOk then afterMaster c' name
      else c' := by
  have hread : (call answered .readNode (Kurl.node name) id).run c = (.ok node, c) :=
    Remote.request_ok (by rw [Kurl.node, hnode])
  have hosd := purgeOSD_answered name (c.deleteNode name)
  have hsame : (c.deleteNode name).osdDeployments = c.osdDeployments := rfl
  rw [hsame] at hosd
  have hname : node.name = name := (Keyed.find?_eq_some.mp hnode).2
  unfold purge
  rw [Remote.bind_ok hread, Remote.bind_ok (run_change _ _ c)]
  dsimp only
  cases hfirst : firstOnNode name c.osdDeployments.rows with
  | error e =>
    rw [hfirst] at hosd
    rw [Remote.bind_error hosd, if_neg (fun h => Bool.false_ne_true h.2)]
  | ok first =>
    rw [hfirst] at hosd
    rw [Remote.bind_ok hosd]
    by_cases hmaster : node.isMaster
    · rw [if_pos hmaster, if_pos ⟨hmaster, rfl⟩, purgeMaster_answered, hname]
    · rw [if_neg hmaster, if_neg fun h => hmaster h.1]
      rfl

/-- Once the node is gone, a run does nothing. -/
theorem purge_gone (hnode : c.nodes.find? name = none) :
    ((purge answered name).run c).2 = c := by
  have hread : (call answered .readNode (Kurl.node name) id).run c =
      (.error "HTTP request failed", c) :=
    Remote.request_error (by rw [Kurl.node, hnode])
  unfold purge
  rw [Remote.bind_error hread]

end

/-! ## What a run without failures achieves -/

section

variable {c : Cluster} {name : String} {node : Node}

theorem firstOnNode_some {deployments : List Deployment} {first : Deployment}
    (h : firstOnNode name deployments = .ok (some first)) :
    first ∈ deployments ∧ first.onNode name = true := by
  induction deployments with
  | nil => cases h
  | cons deploy deployments ih =>
    rw [firstOnNode] at h
    split at h
    next => cases h
    next selector hselector =>
      split at h
      next hname =>
        cases h
        refine ⟨List.mem_cons_self, ?_⟩
        unfold Deployment.onNode
        rw [hselector]
        exact decide_eq_true hname
      next =>
        obtain ⟨hmem, hon⟩ := ih h
        exact ⟨List.mem_cons_of_mem _ hmem, hon⟩

theorem firstOnNode_none {deployments : List Deployment}
    (h : firstOnNode name deployments = .ok none) :
    ∀ deploy ∈ deployments, deploy.onNode name = false := by
  induction deployments with
  | nil => exact fun _ hmem => nomatch hmem
  | cons deploy deployments ih =>
    rw [firstOnNode] at h
    split at h
    next => cases h
    next selector hselector =>
      split at h
      next => cases h
      next hname =>
        refine List.forall_mem_cons.mpr ⟨?_, ih h⟩
        unfold Deployment.onNode
        rw [hselector]
        exact decide_eq_false hname

/-- The part of `Purged` about the OSDs -/
def OsdsGone (before after : Cluster) (name : String) : Prop :=
  ∀ deploy ∈ before.osdDeployments.rows, deploy.onNode name →
    after.osdDeployments.find? deploy.name = none ∧ ∀ id ∈ deploy.osdID, id ∉ after.cephOSDs

theorem osdsGone_of_none (hnone : ∀ deploy ∈ c.osdDeployments.rows, deploy.onNode name = false)
    (after : Cluster) : OsdsGone c after name := by
  intro deploy hmem hon
  rw [hnone deploy hmem] at hon
  cases hon

/-- A deployment is gone when it is the one that was deleted. -/
theorem find?_deleteDeployment {deploy first : Deployment} (hdeploy : deploy ∈ c.osdDeployments.rows)
    (hfirst : first ∈ c.osdDeployments.rows) :
    (c.deleteDeployment first.name).osdDeployments.find? deploy.name = none ↔ deploy = first := by
  rw [Keyed.find?_eq_none]
  constructor
  · intro h
    by_contra hne
    refine h deploy (Keyed.mem_deleteWhere.mpr ⟨hdeploy, decide_eq_false fun hname => hne ?_⟩) rfl
    exact c.osdDeployments.eq_of_key_eq hdeploy hfirst hname
  · rintro rfl other hother
    exact of_decide_eq_false (Keyed.mem_deleteWhere.mp hother).2

theorem osdDeployments_afterOSD {first : Deployment}
    (hfirst : firstOnNode name c.osdDeployments.rows = .ok (some first)) :
    (afterOSD c name).osdDeployments = (c.deleteDeployment first.name).osdDeployments := by
  unfold afterOSD
  rw [hfirst]
  dsimp only
  split <;> rfl

theorem not_mem_cephOSDs_afterOSD {first : Deployment} {id : String}
    (hfirst : firstOnNode name c.osdDeployments.rows = .ok (some first))
    (hid : first.osdID = some id) : id ∉ (afterOSD c name).cephOSDs ↔
      (id ∈ c.cephOSDs → id ≠ "" ∧ c.operatorPods.length = 1) := by
  unfold afterOSD
  rw [hfirst]
  dsimp only
  split
  next hskip =>
    rw [hid, Option.some.injEq] at hskip
    have hnot : ¬ (id ≠ "" ∧ c.operatorPods.length = 1) := by
      rintro ⟨hne, hpods⟩
      exact hskip.elim hne fun h => h hpods
    exact ⟨fun h hin => absurd hin h, fun h hin => hnot (h hin)⟩
  next hskip =>
    rw [hid, Option.some.injEq] at hskip
    obtain ⟨hne, hpods⟩ := not_or.mp hskip
    rw [hid]
    refine iff_of_true ?_ fun _ => ⟨hne, not_not.mp hpods⟩
    show id ∉ c.cephOSDs.filter fun osd => osd ≠ id
    simp

/-- What `purgeOSD` leaves, in a run without failures -/
theorem osdsGone_afterOSD : OsdsGone c (afterOSD c name) name ↔ OsdsPurgeable c name := by
  unfold OsdsPurgeable
  cases hfirst : firstOnNode name c.osdDeployments.rows with
  | error e =>
    have hsame : afterOSD c name = c := by
      unfold afterOSD
      rw [hfirst]
    rw [hsame]
    dsimp only
    constructor
    · intro h deploy hmem
      by_contra hon
      have hgone := (h deploy hmem (Bool.eq_true_of_not_eq_false hon)).1
      exact Keyed.find?_eq_none.mp hgone deploy hmem rfl
    · exact fun hnone => osdsGone_of_none hnone _
  | ok found =>
    cases found with
    | none => exact iff_of_true (osdsGone_of_none (firstOnNode_none hfirst) _) trivial
    | some first =>
      obtain ⟨hmem, hon⟩ := firstOnNode_some hfirst
      have hceph : (∀ id ∈ first.osdID, id ∉ (afterOSD c name).cephOSDs) ↔
          ∀ id ∈ first.osdID, id ∈ c.cephOSDs → id ≠ "" ∧ c.operatorPods.length = 1 :=
        forall₂_congr fun id hid => not_mem_cephOSDs_afterOSD hfirst hid
      dsimp only
      unfold OsdsGone
      rw [osdDeployments_afterOSD hfirst]
      constructor
      · intro h
        refine ⟨fun deploy hdeploy hdeployOn => ?_, hceph.mp (h first hmem hon).2⟩
        exact (find?_deleteDeployment hdeploy hmem).mp (h deploy hdeploy hdeployOn).1
      · rintro ⟨honly, hpurged⟩ deploy hdeploy hdeployOn
        obtain rfl := honly deploy hdeploy hdeployOn
        exact ⟨(find?_deleteDeployment hdeploy hdeploy).mpr rfl, hceph.mpr hpurged⟩

/-- The node was deleted before, which changes nothing of the OSDs. -/
theorem osdsGone_iff : OsdsGone c (afterOSD (c.deleteNode name) name) name ↔
    OsdsPurgeable c name :=
  @osdsGone_afterOSD (c.deleteNode name) name

/-- The part of `Purged` about a master -/
def MasterGone (before after : Cluster) (name : String) : Prop :=
  (∀ endpoints, after.apiEndpoints = some endpoints → endpoints.find? name = none) ∧
    ∀ endpoints ip, before.apiEndpoints = some endpoints → endpoints.find? name = some (name, ip) →
      ∀ member ∈ after.members.rows, member.isAt ip = false

theorem purgedMember_congr {c' : Cluster} (hmembers : c'.members = c.members)
    (endpoints : ApiEndpoints) : purgedMember c' name endpoints = purgedMember c name endpoints := by
  unfold purgedMember
  rw [hmembers]

theorem mem_of_purgedMember {endpoints : ApiEndpoints} {member : Member}
    (h : purgedMember c name endpoints = some member) : member ∈ c.members.rows := by
  unfold purgedMember at h
  dsimp only at h
  split at h
  next => cases h
  next => exact List.mem_of_find?_eq_some h

/-- Which members are left: all but the one that is removed. -/
theorem mem_afterMaster {c' : Cluster} {endpoints : ApiEndpoints}
    (hendpoints : c'.apiEndpoints = some endpoints) (hmembers : c'.members = c.members)
    {member : Member} : member ∈ (afterMaster c' name).members.rows ↔
      member ∈ c.members.rows ∧ purgedMember c name endpoints ≠ some member := by
  unfold afterMaster
  rw [hendpoints]
  dsimp only
  rw [purgedMember_congr hmembers]
  cases hpurged : purgedMember c name endpoints with
  | none =>
    show member ∈ c'.members.rows ↔ _
    rw [hmembers]
    exact (and_iff_left nofun).symm
  | some purged =>
    show member ∈ (c'.members.deleteWhere fun member => member.id = purged.id).rows ↔ _
    rw [Keyed.mem_deleteWhere, hmembers, decide_eq_false_iff_not]
    refine and_congr_right fun hmember => not_congr ?_
    rw [Option.some.injEq]
    constructor
    · intro hid
      exact (c.members.eq_of_key_eq hmember (mem_of_purgedMember hpurged) hid).symm
    · rintro rfl
      rfl

theorem masterGone_iff {c' : Cluster} (hendpoints : c'.apiEndpoints = c.apiEndpoints)
    (hmembers : c'.members = c.members) :
    MasterGone c (if (firstOnNode name c.osdDeployments.rows).isOk then afterMaster c' name else c')
      name ↔ MasterPurgeable c name := by
  unfold MasterGone MasterPurgeable
  by_cases hok : (firstOnNode name c.osdDeployments.rows).isOk
  · rw [if_pos hok]
    constructor
    · rintro ⟨-, hgone⟩ endpoints ip hsome hfind
      refine ⟨hok, fun member hmember hat => ?_⟩
      by_contra hne
      have hleft := (mem_afterMaster (hendpoints.trans hsome) hmembers).mpr ⟨hmember, hne⟩
      rw [hgone endpoints ip hsome hfind member hleft] at hat
      cases hat
    · intro h
      constructor
      · intro endpoints hafter
        unfold afterMaster at hafter
        split at hafter
        next hnone =>
          rw [hnone] at hafter
          cases hafter
        next before hsome =>
          have hreplaced : endpoints = before.deleteWhere fun endpoint => endpoint.1 = name := by
            split at hafter <;> exact (Option.some.inj hafter).symm
          rw [hreplaced, Keyed.find?_eq_none]
          intro endpoint hendpoint
          exact of_decide_eq_false (Keyed.mem_deleteWhere.mp hendpoint).2
      · intro endpoints ip hsome hfind member hmember
        obtain ⟨hold, hne⟩ := (mem_afterMaster (hendpoints.trans hsome) hmembers).mp hmember
        by_contra hat
        exact hne ((h endpoints ip hsome hfind).2 member hold (Bool.eq_true_of_not_eq_false hat))
  · rw [if_neg hok]
    constructor
    · rintro ⟨hnone, -⟩ endpoints ip hsome hfind
      rw [hnone endpoints (hendpoints.trans hsome)] at hfind
      cases hfind
    · intro h
      have hnone : ∀ endpoints, c.apiEndpoints = some endpoints → endpoints.find? name = none := by
        intro endpoints hsome
        cases hfind : endpoints.find? name with
        | none => rfl
        | some endpoint =>
          have hkey : endpoint.1 = name := (Keyed.find?_eq_some.mp hfind).2
          have hpair : endpoints.find? name = some (name, endpoint.2) := by
            rw [hfind, ← hkey]
          exact absurd (h endpoints endpoint.2 hsome hpair).1 hok
      refine ⟨fun endpoints hafter => hnone endpoints (hendpoints.symm.trans hafter), ?_⟩
      intro endpoints ip hsome hfind
      rw [hnone endpoints hsome] at hfind
      cases hfind

theorem purged_iff_gone {before after : Cluster} (hnode : before.nodes.find? name = some node) :
    Purged before after name ↔ after.nodes.find? name = none ∧ OsdsGone before after name ∧
      (node.isMaster → MasterGone before after name) := by
  constructor
  · intro h
    exact ⟨h.node, h.osds, fun hmaster =>
      ⟨h.endpoint node hnode hmaster, h.member node hnode hmaster⟩⟩
  · rintro ⟨hgone, hosds, hmaster⟩
    refine ⟨hgone, hosds, fun other hother hotherMaster => ?_, fun other hother hotherMaster => ?_⟩
    · obtain rfl := Option.some.inj (hnode.symm.trans hother)
      exact (hmaster hotherMaster).1
    · obtain rfl := Option.some.inj (hnode.symm.trans hother)
      exact (hmaster hotherMaster).2

/-- The endpoints and members of a master have nothing to do with the OSDs. -/
theorem afterMaster_frame (c : Cluster) (name : String) :
    (afterMaster c name).nodes = c.nodes ∧
      (afterMaster c name).osdDeployments = c.osdDeployments ∧
      (afterMaster c name).cephOSDs = c.cephOSDs := by
  unfold afterMaster
  split
  · exact ⟨rfl, rfl, rfl⟩
  · dsimp only
    split <;> exact ⟨rfl, rfl, rfl⟩

theorem afterOSD_frame (c : Cluster) (name : String) :
    (afterOSD c name).nodes = c.nodes ∧ (afterOSD c name).apiEndpoints = c.apiEndpoints ∧
      (afterOSD c name).members = c.members := by
  unfold afterOSD
  split
  · dsimp only
    split <;> exact ⟨rfl, rfl, rfl⟩
  · exact ⟨rfl, rfl, rfl⟩

/-- **One run.**  Without failures it purges the node exactly if the node is purgeable. -/
theorem purged_iff (hnode : c.nodes.find? name = some node) :
    Purged c ((purge answered name).run c).2 name ↔ Purgeable c name := by
  obtain ⟨hnodes, hendpoints, hmembers⟩ := afterOSD_frame (c.deleteNode name) name
  obtain ⟨hnodes', hdeployments, hceph⟩ := afterMaster_frame (afterOSD (c.deleteNode name) name) name
  rw [purged_iff_gone hnode, purge_answered hnode]
  dsimp only
  generalize hfinal : (if node.isMaster ∧ (firstOnNode name c.osdDeployments.rows).isOk then
    afterMaster (afterOSD (c.deleteNode name) name) name
    else afterOSD (c.deleteNode name) name) = final
  have hgone : final.nodes.find? name = none := by
    rw [← hfinal]
    split
    · rw [hnodes', hnodes]
      exact find?_deleteNode
    · rw [hnodes]
      exact find?_deleteNode
  have hosds : OsdsGone c final name ↔ OsdsPurgeable c name := by
    rw [← osdsGone_iff, ← hfinal]
    split
    · unfold OsdsGone
      rw [hdeployments, hceph]
    · rfl
  have hmasterGone : node.isMaster → (MasterGone c final name ↔ MasterPurgeable c name) := by
    intro hmaster
    have hiff : MasterGone c (if (firstOnNode name c.osdDeployments.rows).isOk then
        afterMaster (afterOSD (c.deleteNode name) name) name
        else afterOSD (c.deleteNode name) name) name ↔ MasterPurgeable c name :=
      masterGone_iff hendpoints hmembers
    simp only [hmaster, true_and] at hfinal
    rw [hfinal] at hiff
    exact hiff
  have hmaster : (node.isMaster → MasterGone c final name) ↔
      ∀ other, c.nodes.find? name = some other → other.isMaster → MasterPurgeable c name := by
    constructor
    · intro h other hother hotherMaster
      obtain rfl := Option.some.inj (hnode.symm.trans hother)
      exact (hmasterGone hotherMaster).mp (h hotherMaster)
    · intro h hmaster
      exact (hmasterGone hmaster).mpr (h node hnode hmaster)
  unfold Purgeable
  rw [hosds, hmaster]
  exact and_iff_right hgone

end

/-- **When a purge can be resumed.**  After a first run with any failures, a run without failures
purges the node exactly if the node is still there and purgeable, or gone with all that belonged to
it. -/
theorem resumes_iff (answers : Answers) (c : Cluster) (name : String) :
    let left := ((purge answers name).run c).2
    Purged c ((purge answered name).run left).2 name ↔
      left.nodes.find? name ≠ none ∧ Purgeable left name ∨
        left.nodes.find? name = none ∧ Purged c left name := by
  intro left
  cases hnode : left.nodes.find? name with
  | none =>
    rw [purge_gone hnode]
    simp
  | some node =>
    have hsame : left = c := by
      rcases purge_cases answers c name with h | h
      · exact h
      · rw [show left.nodes.find? name = none from h] at hnode
        cases hnode
    rw [hsame] at hnode ⊢
    rw [purged_iff hnode]
    simp

/-- The deployment of an OSD on the worker -/
def osd (id : String) : Deployment where
  name := "rook-ceph-osd-" ++ id
  labels := [("ceph-osd-id", id)]
  nodeSelector := some [(hostname, "worker")]

/-- A worker with an OSD on each of its two disks -/
def workerCluster : Cluster where
  nodes := ⟨[{ name := "worker", labels := [] }], by decide⟩
  osdDeployments := ⟨[osd "0", osd "1"], by decide⟩
  operatorPods := ["rook-ceph-operator"]
  cephOSDs := ["0", "1"]

/-- One of the calls fails. -/
def failing (call : Call) : Answers where
  failure call' := if call' = call then some { error := "ECONNRESET" } else none

/-- The first run has deleted the node, which the second one does not find; or it has done nothing,
and the second one, all of whose calls succeed, purges one OSD. -/
theorem purge_not_resumed :
    (∃ answers c name, (∃ e, ((purge answers name).run c).1 = .error e) ∧
      ¬ Purged c ((purge answered name).run ((purge answers name).run c).2).2 name) ∧
    ∃ answers c name, (∃ e, ((purge answers name).run c).1 = .error e) ∧
      ((purge answered name).run ((purge answers name).run c).2).1 = .ok () ∧
      ¬ Purged c ((purge answered name).run ((purge answers name).run c).2).2 name := by
  constructor
  · refine ⟨failing .listNamespacedDeployment, workerCluster, "worker", ⟨"ECONNRESET", rfl⟩, ?_⟩
    intro h
    exact absurd (h.osds (osd "0") List.mem_cons_self (by decide)).2 (by decide)
  · refine ⟨failing .readNode, workerCluster, "worker", ⟨"ECONNRESET", rfl⟩, by decide, ?_⟩
    intro h
    have hmem : osd "1" ∈ workerCluster.osdDeployments.rows :=
      List.mem_cons_of_mem _ List.mem_cons_self
    exact absurd (h.osds (osd "1") hmem (by decide)).2 (by decide)

end Kotsadm.Kurl
