import Kotsadm.Kurl.Purge

/-!
# PurgeOSD — the OSDs of a node with several disks

The loop over the deployments stops at the first one of the node, and one id is purged.
-/

namespace Kotsadm.Kurl

section

variable {answers : Answers} {c c' : Cluster} {name : String}

/-! ## A run that returns -/

theorem deleteFirst_returnsAs (deployments : List Deployment) :
    (deleteFirst answers name deployments).ReturnsAs (deleteFirst answered name deployments) := by
  induction deployments with
  | nil => exact Remote.returnsAs_refl _
  | cons deploy deployments ih =>
    unfold deleteFirst
    split
    next => exact Remote.returnsAs_refl _
    next =>
      split
      next =>
        exact Remote.returnsAs_bind (Remote.returnsAs_request _ _ _) fun _ =>
          Remote.returnsAs_refl _
      next => exact ih

theorem purgeOSD_returnsAs (h : answers.noNamespace = false) :
    (purgeOSD answers name).ReturnsAs (purgeOSD answered name) := by
  unfold purgeOSD
  refine Remote.returnsAs_bind (Remote.returnsAs_request _ _ _) fun deployments => ?_
  rw [if_neg (Bool.eq_false_iff.mp h), if_neg (by decide)]
  refine Remote.returnsAs_bind (deleteFirst_returnsAs deployments) fun osdID => ?_
  split
  next => exact Remote.returnsAs_refl _
  next =>
    refine Remote.returnsAs_bind (Remote.returnsAs_request _ _ _) fun pods => ?_
    split
    next => exact Remote.returnsAs_refl _
    next => exact Remote.returnsAs_request _ _ _

/-- The namespace is not there, or the loop has come to its end. -/
theorem purgeOSD_returns (h : (purgeOSD answers name).run c = (.ok (), c')) :
    answers.noNamespace = true ∧ c' = c ∨
      answers.noNamespace = false ∧ (∃ found, firstOnNode name c.osdDeployments.rows = .ok found) ∧
        c' = afterOSD c name := by
  cases hns : answers.noNamespace with
  | true =>
    refine .inl ⟨rfl, ?_⟩
    unfold purgeOSD at h
    rcases call_cases answers .listNamespacedDeployment
        (fun c => .ok c.osdDeployments.rows) id c with ⟨e, hlist⟩ | ⟨e, hlist⟩ | ⟨_, -, hlist⟩
    · rw [read, Remote.bind_error hlist] at h
      cases h
    · rw [read, Remote.bind_error hlist] at h
      cases h
    · rw [read, Remote.bind_ok hlist, if_pos hns] at h
      exact (Prod.mk.inj h).2.symm
  | false =>
    have hrun := purgeOSD_returnsAs hns c () c' h
    rw [purgeOSD_answered] at hrun
    obtain ⟨hfirst, rfl⟩ := Prod.mk.inj hrun
    refine .inr ⟨rfl, ?_, rfl⟩
    cases hfound : firstOnNode name c.osdDeployments.rows with
    | error e =>
      rw [hfound] at hfirst
      cases hfirst
    | ok found => exact ⟨found, rfl⟩

/-! ## The OSDs that are removed -/

/-- The deployments of the node are deleted and their OSDs purged; the other deployments are as they
were. -/
structure OsdsRemoved (before after : Cluster) (name : String) : Prop where
  gone : OsdsGone before after name
  kept : ∀ deploy ∈ before.osdDeployments.rows, deploy.onNode name = false →
    deploy ∈ after.osdDeployments.rows

/-- At most one deployment is on the node, and it is found: the namespace is there.  Ceph has no OSD
with an empty id. -/
structure OneOsd (answers : Answers) (c : Cluster) (name : String) : Prop where
  found : ∀ deploy ∈ c.osdDeployments.rows, deploy.onNode name → answers.noNamespace = false
  named : ∀ deploy ∈ c.osdDeployments.rows, deploy.onNode name → deploy.osdID = some "" →
    "" ∉ c.cephOSDs
  one : ∀ deploy ∈ c.osdDeployments.rows, ∀ other ∈ c.osdDeployments.rows, deploy.onNode name →
    other.onNode name → deploy = other

/-- The deployment that is deleted is one of the node. -/
theorem kept_afterOSD {deploy : Deployment} (hdeploy : deploy ∈ c.osdDeployments.rows)
    (hoff : deploy.onNode name = false) : deploy ∈ (afterOSD c name).osdDeployments.rows := by
  unfold afterOSD
  split
  next first hfirst =>
    obtain ⟨hmem, hon⟩ := firstOnNode_some hfirst
    have hkept : deploy ∈ (c.deleteDeployment first.name).osdDeployments.rows := by
      refine Keyed.mem_deleteWhere.mpr ⟨hdeploy, decide_eq_false fun hname => ?_⟩
      rw [c.osdDeployments.eq_of_key_eq hdeploy hmem hname, hon] at hoff
      cases hoff
    dsimp only
    split <;> exact hkept
  next => exact hdeploy

theorem osdsPurgeable_iff {found : Option Deployment} (hpods : c.operatorPods.length = 1)
    (hfound : firstOnNode name c.osdDeployments.rows = .ok found)
    (hns : answers.noNamespace = false) : OsdsPurgeable c name ↔ OneOsd answers c name := by
  unfold OsdsPurgeable
  rw [hfound]
  cases found with
  | none =>
    have hnone := firstOnNode_none hfound
    refine iff_of_true trivial ⟨fun _ _ _ => hns, fun deploy hdeploy hon => ?_,
      fun deploy hdeploy _ _ hon => ?_⟩
    · rw [hnone deploy hdeploy] at hon
      cases hon
    · rw [hnone deploy hdeploy] at hon
      cases hon
  | some first =>
    obtain ⟨hmem, hon⟩ := firstOnNode_some hfound
    constructor
    · rintro ⟨honly, hpurged⟩
      refine ⟨fun _ _ _ => hns, fun deploy hdeploy hdeployOn hid hceph => ?_,
        fun deploy hdeploy other hother hdeployOn hotherOn => ?_⟩
      · rw [honly deploy hdeploy hdeployOn] at hid
        exact (hpurged "" hid hceph).1 rfl
      · rw [honly deploy hdeploy hdeployOn, honly other hother hotherOn]
    · intro h
      refine ⟨fun deploy hdeploy hdeployOn => h.one deploy hdeploy first hmem hdeployOn hon,
        fun id hid hceph => ⟨?_, hpods⟩⟩
      rintro rfl
      exact h.named first hmem hon hid hceph

end

/-- **The OSDs of a node are removed** by a run that returns, where there is one operator pod,
exactly if the node has at most one. -/
theorem osdsRemoved_iff (answers : Answers) (c c' : Cluster) (name : String)
    (hpods : c.operatorPods.length = 1) (h : (purgeOSD answers name).run c = (.ok (), c')) :
    OsdsRemoved c c' name ↔ OneOsd answers c name := by
  rcases purgeOSD_returns h with ⟨hns, rfl⟩ | ⟨hns, ⟨found, hfound⟩, rfl⟩
  · -- nothing is removed, so nothing may be there
    constructor
    · intro hremoved
      have hnone : ∀ deploy ∈ c'.osdDeployments.rows, deploy.onNode name → False :=
        fun deploy hdeploy hon =>
          Keyed.find?_eq_none.mp (hremoved.gone deploy hdeploy hon).1 deploy hdeploy rfl
      exact ⟨fun deploy hdeploy hon => (hnone deploy hdeploy hon).elim,
        fun deploy hdeploy hon => (hnone deploy hdeploy hon).elim,
        fun deploy hdeploy _ _ hon => (hnone deploy hdeploy hon).elim⟩
    · intro hone
      refine ⟨fun deploy hdeploy hon => ?_, fun deploy hdeploy _ => hdeploy⟩
      rw [hone.found deploy hdeploy hon] at hns
      cases hns
  · rw [← osdsPurgeable_iff hpods hfound hns, ← osdsGone_afterOSD]
    exact ⟨fun hremoved => hremoved.gone, fun hgone => ⟨hgone, fun _ => kept_afterOSD⟩⟩

/-- A worker with one disk -/
def oneDisk : Cluster where
  osdDeployments := ⟨[osd "0"], by decide⟩
  operatorPods := ["rook-ceph-operator"]
  cephOSDs := ["0"]

theorem osdsRemoved_oneDisk :
    OsdsRemoved oneDisk ((purgeOSD answered "worker").run oneDisk).2 "worker" := by
  refine (osdsRemoved_iff answered oneDisk _ "worker" rfl rfl).mpr ⟨?_, ?_, ?_⟩
  · exact fun _ _ _ => rfl
  · exact fun _ _ _ _ => by decide
  · intro deploy hdeploy other hother _ _
    rw [List.mem_singleton.mp hdeploy, List.mem_singleton.mp hother]

/-- With two disks the second OSD is left. -/
theorem not_osdsRemoved_twoDisks : ¬ ∀ (answers : Answers) (c c' : Cluster) (name : String),
    c.operatorPods.length = 1 → (purgeOSD answers name).run c = (.ok (), c') →
      OsdsRemoved c c' name := by
  intro h
  have hremoved := h answered workerCluster _ "worker" rfl rfl
  have hmem : osd "1" ∈ workerCluster.osdDeployments.rows :=
    List.mem_cons_of_mem _ List.mem_cons_self
  exact absurd (hremoved.gone (osd "1") hmem (by decide)).2 (by decide)

end Kotsadm.Kurl
