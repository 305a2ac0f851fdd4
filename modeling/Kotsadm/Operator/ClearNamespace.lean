import Kotsadm.Lib.Deferred
import Kotsadm.Operator.Deploy

/-!
# ClearNamespace — the removal of the objects of an app from a namespace

`clearNamespace` deletes the objects with the annotation of the app, of all the kinds that the
cluster can list, and says whether there were none.  It is tried again until there are.  The error
of a list call is ignored, and so the list that comes with it is read.
-/

namespace Kotsadm.Operator

/-! ## The API server -/

structure GroupVersionResource where
  group : String
  version : String
  resource : String
  deriving DecidableEq, Repr

/-- `fmt.Sprintf("%s/%s/%s", gvr.Group, gvr.Version, gvr.Resource)` -/
def GroupVersionResource.text (gvr : GroupVersionResource) : String :=
  gvr.group ++ "/" ++ gvr.version ++ "/" ++ gvr.resource

structure Unstructured where
  name : String
  annotations : List (String × String) := []
  deletionTimestamp : Option String := none
  deriving DecidableEq, Repr

/-- `u.GetAnnotations()["kots.io/app-slug"]`; a key that is missing reads as empty. -/
def Unstructured.appSlug (u : Unstructured) : String :=
  (u.annotations.lookup "kots.io/app-slug").getD ""

structure APIResourceList where
  groupVersion : String
  apiResources : List String
  deriving DecidableEq, Repr

/-- The two results of a list call. -/
structure ListAnswer where
  -- `none` is the nil pointer
  unstructuredList : Option (List Unstructured)
  err : Option GoError := none

/-- What the API server and its client answer while `clearNamespace` runs in one namespace: a kind
is listed once. -/
structure ApiServer where
  getConfig : Except GoError Unit := .ok ()
  newDiscoveryClient : Except GoError Unit := .ok ()
  newDynamicClient : Except GoError Unit := .ok ()
  -- the error is of some API groups only
  serverPreferredNamespacedResources : List APIResourceList × Option GoError
  groupVersionResources : List APIResourceList → Except GoError (List GroupVersionResource)
  -- the order in which the map is walked
  rangeGVRs : Reorder GroupVersionResource
  list : GroupVersionResource → ListAnswer
  delete : GroupVersionResource → String → Except GoError Unit

/-- The kinds, those in the skip set among them. -/
def ApiServer.gvrs (server : ApiServer) : Except GoError (List GroupVersionResource) :=
  (server.groupVersionResources server.serverPreferredNamespacedResources.1).map
    server.rangeGVRs.apply

/-! ## clearNamespace -/

structure Deletion where
  gvr : GroupVersionResource
  name : String
  deriving DecidableEq, Repr

/-- Resources that don't have API endpoints or don't have applied objects -/
def skip : List String :=
  ["/v1/bindings",
    "/v1/events",
    "extensions/v1beta1/replicationcontrollers",
    "apps/v1/controllerrevisions",
    "authentication.k8s.io/v1/tokenreviews",
    "authorization.k8s.io/v1/localsubjectaccessreviews",
    "authorization.k8s.io/v1/subjectaccessreviews",
    "authorization.k8s.io/v1/selfsubjectaccessreviews",
    "authorization.k8s.io/v1/selfsubjectrulesreviews"]

section

variable (server : ApiServer) (slug : String)

def orAbort {α : Type} (context : String) (outcome : Except GoError α) :
    Effects Abort Deletion α :=
  Effects.ofExcept ((outcome.wrapError context).mapError Abort.error)

/-- An object that is pending deletion is not deleted, and is not gone either. -/
def clearObject (gvr : GroupVersionResource) (clear : Bool) (u : Unstructured) :
    Effects Abort Deletion Bool :=
  if u.appSlug = slug then
    if u.deletionTimestamp.isSome then return false
    else do
      let err ← Effects.act (fun _ => server.delete gvr u.name) fun _ => ⟨gvr, u.name⟩
      Effects.ofExcept (err.mapError Abort.error)
      return false
  else return clear

def clearResource (clear : Bool) (gvr : GroupVersionResource) : Effects Abort Deletion Bool :=
  if gvr.text ∈ skip then return clear
  else
    match (server.list gvr).unstructuredList with
    -- `unstructuredList.Items`
    | none => Effects.ofExcept (.error .panic)
    | some items => Effects.fold (clearObject server slug gvr) clear items

def clearNamespace : Effects Abort Deletion Bool := do
  orAbort "failed to get config" server.getConfig
  orAbort "failed to create discovery client" server.newDiscoveryClient
  orAbort "failed to create dynamic client" server.newDynamicClient
  let gvrs ← orAbort "failed to convert resource list to groupversionresource map" server.gvrs
  Effects.fold (clearResource server slug) true gvrs

/-- The results of `clearNamespace`, or its panic. -/
def cleared : Except Abort Bool := (clearNamespace server slug []).1

/-! ## Which calls panic -/

/-- The list of a kind is nil. -/
def NilList (gvr : GroupVersionResource) : Prop :=
  gvr.text ∉ skip ∧ (server.list gvr).unstructuredList = none

def ToDelete (u : Unstructured) : Prop := u.appSlug = slug ∧ u.deletionTimestamp = none

/-- The loop goes on to the next object. -/
def Passes (gvr : GroupVersionResource) (u : Unstructured) : Prop :=
  ToDelete slug u → (server.delete gvr u.name).isOk

/-- The loop goes on to the next kind. -/
def PassesAll (gvr : GroupVersionResource) : Prop :=
  gvr.text ∉ skip →
    ∃ items, (server.list gvr).unstructuredList = some items ∧ ∀ u ∈ items, Passes server slug gvr u

/-- An object of the kind is deleted. -/
def DeletesIn (gvr : GroupVersionResource) : Prop :=
  gvr.text ∉ skip ∧ ∃ items, (server.list gvr).unstructuredList = some items ∧
    Effects.Reached (Passes server slug gvr) (ToDelete slug) items

/-- The loop comes to a kind whose list is nil. -/
def ReachesNilList : Prop :=
  server.getConfig.isOk ∧ server.newDiscoveryClient.isOk ∧ server.newDynamicClient.isOk ∧
    ∃ gvrs, server.gvrs = .ok gvrs ∧
      Effects.Reached (PassesAll server slug) (NilList server) gvrs

end

section

variable {server : ApiServer} {slug : String}

theorem exists_ok_iff_isOk {ε α : Type} {x : Except ε α} : (∃ a, x = .ok a) ↔ x.isOk := by
  cases x with
  | error e =>
    refine iff_of_false ?_ Bool.false_ne_true
    rintro ⟨a, h⟩
    cases h
  | ok a => exact iff_of_true ⟨a, rfl⟩ rfl

theorem comes_delete (gvr : GroupVersionResource) (name : String) :
    Effects.Comes (· = .panic)
      (Effects.ofExcept ((server.delete gvr name).mapError Abort.error) :
        Effects Abort Deletion Unit)
      (server.delete gvr name).isOk False False :=
  Effects.comes_ofExcept_mapError (fun _ h => by cases h) exists_ok_iff_isOk

theorem comes_clearObject (gvr : GroupVersionResource) (clear : Bool) (u : Unstructured) :
    Effects.Comes (· = .panic) (clearObject server slug gvr clear u) (Passes server slug gvr u)
      False (ToDelete slug u) := by
  unfold clearObject Passes ToDelete
  split
  next hslug =>
    split
    next hpending =>
      have hsome : u.deletionTimestamp ≠ none := Option.isSome_iff_ne_none.mp hpending
      refine (Effects.comes_pure false).congr ?_ Iff.rfl ?_
      · exact iff_of_true trivial fun h => absurd h.2 hsome
      · exact iff_of_false id fun h => hsome h.2
    next hpending =>
      have hnone : u.deletionTimestamp = none := Option.not_isSome_iff_eq_none.mp hpending
      have hrest : ∀ (before : List Deletion) (err : Except GoError Unit),
          (Effects.act (fun _ => server.delete gvr u.name)
            (fun _ => (⟨gvr, u.name⟩ : Deletion)) before : Except Abort _ × _).1 = .ok err →
          Effects.Comes (· = .panic)
            (do Effects.ofExcept (err.mapError Abort.error); return false :
              Effects Abort Deletion Bool)
            ((server.delete gvr u.name).isOk ∧ True)
            (False ∨ (server.delete gvr u.name).isOk ∧ False)
            (False ∨ (server.delete gvr u.name).isOk ∧ False) := by
        intro before err hact
        cases hact
        exact (comes_delete gvr u.name).bind fun _ _ _ => Effects.comes_pure false
      refine (Effects.comes_act.bind hrest).congr ?_ ?_ ?_
      · simp [hslug, hnone]
      · simp
      · simp [hslug, hnone]
  next hslug =>
    refine (Effects.comes_pure clear).congr ?_ Iff.rfl ?_
    · exact iff_of_true trivial fun h => absurd h.1 hslug
    · exact iff_of_false id fun h => hslug h.1

theorem comes_clearResource (clear : Bool) (gvr : GroupVersionResource) :
    Effects.Comes (· = .panic) (clearResource server slug clear gvr) (PassesAll server slug gvr)
      (NilList server gvr) (DeletesIn server slug gvr) := by
  unfold clearResource PassesAll NilList DeletesIn
  split
  next hskip =>
    refine (Effects.comes_pure clear).congr ?_ ?_ ?_
    · exact iff_of_true trivial fun h => absurd hskip h
    · exact iff_of_false id fun h => h.1 hskip
    · exact iff_of_false id fun h => h.1 hskip
  next hlisted =>
    split
    next hnil =>
      have hpanic : Effects.Comes (· = .panic)
          (Effects.ofExcept (.error .panic) : Effects Abort Deletion Bool) False True False :=
        Effects.comes_ofExcept (by simp) (by simp)
      refine hpanic.congr ?_ (iff_of_true trivial ⟨hlisted, hnil⟩) ?_
      · simp [hlisted, hnil]
      · simp [hnil]
    next items hitems =>
      refine (Effects.comes_fold_of_forall (comes_clearObject gvr) clear items).congr ?_ ?_ ?_
      · simp [hlisted, hitems]
      · simp [hitems, Effects.not_reached_false]
      · simp [hlisted, hitems]

theorem comes_orAbort {α : Type} (context : String) (outcome : Except GoError α) :
    Effects.Comes (· = .panic) (orAbort context outcome) outcome.isOk False False := by
  refine Effects.comes_ofExcept_mapError (fun _ h => by cases h) ?_
  rw [← exists_ok_iff_isOk]
  exact exists_congr fun a => Except.wrapError_eq_ok

theorem orAbort_eq_ok {α : Type} {context : String} {outcome : Except GoError α} {a : α}
    {before : List Deletion} (h : (orAbort context outcome before).1 = .ok a) :
    outcome = .ok a := by
  cases outcome with
  | error e => cases h
  | ok a' =>
    cases h
    rfl

/-- What a call of `clearNamespace` comes to. -/
theorem comes_clearNamespace (server : ApiServer) (slug : String) :
    Effects.Comes (· = .panic) (clearNamespace server slug)
      (server.getConfig.isOk ∧ server.newDiscoveryClient.isOk ∧ server.newDynamicClient.isOk ∧
        ∃ gvrs, server.gvrs = .ok gvrs ∧ ∀ gvr ∈ gvrs, PassesAll server slug gvr)
      (ReachesNilList server slug)
      (server.getConfig.isOk ∧ server.newDiscoveryClient.isOk ∧ server.newDynamicClient.isOk ∧
        ∃ gvrs, server.gvrs = .ok gvrs ∧
          Effects.Reached (PassesAll server slug) (DeletesIn server slug) gvrs) := by
  -- which kinds are walked is only known after the error of the conversion
  have hkinds : ∀ (before : List Deletion) (gvrs : List GroupVersionResource),
      (orAbort "failed to convert resource list to groupversionresource map" server.gvrs before).1 =
        .ok gvrs →
      Effects.Comes (· = .panic) (Effects.fold (clearResource server slug) true gvrs)
        (∃ gvrs, server.gvrs = .ok gvrs ∧ ∀ gvr ∈ gvrs, PassesAll server slug gvr)
        (∃ gvrs, server.gvrs = .ok gvrs ∧
          Effects.Reached (PassesAll server slug) (NilList server) gvrs)
        (∃ gvrs, server.gvrs = .ok gvrs ∧
          Effects.Reached (PassesAll server slug) (DeletesIn server slug) gvrs) := by
    intro before gvrs hok
    have hgvrs := orAbort_eq_ok hok
    refine (Effects.comes_fold_of_forall comes_clearResource true gvrs).congr ?_ ?_ ?_
    all_goals
      rw [hgvrs]
      simp
  have hisOk : ∀ {P : List GroupVersionResource → Prop},
      (server.gvrs.isOk ∧ ∃ gvrs, server.gvrs = .ok gvrs ∧ P gvrs) ↔
        ∃ gvrs, server.gvrs = .ok gvrs ∧ P gvrs := by
    intro P
    refine and_iff_right_of_imp ?_
    rintro ⟨gvrs, hgvrs, -⟩
    rw [hgvrs]
    rfl
  unfold clearNamespace ReachesNilList
  refine ((comes_orAbort "failed to get config" server.getConfig).bind fun _ _ _ =>
    (comes_orAbort "failed to create discovery client" server.newDiscoveryClient).bind fun _ _ _ =>
    (comes_orAbort "failed to create dynamic client" server.newDynamicClient).bind fun _ _ _ =>
    (comes_orAbort _ server.gvrs).bind hkinds).congr ?_ ?_ ?_
  · rw [hisOk]
  · simp only [false_or, hisOk]
  · simp only [false_or, hisOk]

/-! ## What a true answer means -/

def NoneOf (slug : String) (objects : List Unstructured) : Prop := ∀ u ∈ objects, u.appSlug ≠ slug

theorem clearObject_true {gvr : GroupVersionResource} {clear : Bool} {u : Unstructured}
    {before : List Deletion} (h : (clearObject server slug gvr clear u before).1 = .ok true) :
    clear = true ∧ u.appSlug ≠ slug := by
  unfold clearObject at h
  split at h
  next hslug =>
    exfalso
    split at h
    next => cases h
    next =>
      -- whatever the delete call answers, the object was there
      obtain ⟨err, done, rest, -, hrest, -⟩ :=
        (Effects.bind_eq_ok before).mp (Effects.eq_of_fst before h)
      obtain ⟨_, done', rest', -, hpure, -⟩ := (Effects.bind_eq_ok (before ++ done)).mp hrest
      cases hpure
  next hslug =>
    cases h
    exact ⟨rfl, hslug⟩

theorem clearResource_true {gvr : GroupVersionResource} {clear : Bool} {before : List Deletion}
    (h : (clearResource server slug clear gvr before).1 = .ok true) :
    clear = true ∧ (gvr.text ∉ skip →
      ∃ items, (server.list gvr).unstructuredList = some items ∧ NoneOf slug items) := by
  unfold clearResource at h
  split at h
  next hskip =>
    cases h
    exact ⟨rfl, fun hlisted => absurd hskip hlisted⟩
  next =>
    cases hitems : (server.list gvr).unstructuredList with
    | none =>
      rw [hitems] at h
      cases h
    | some items =>
      rw [hitems] at h
      obtain ⟨hclear, hnone⟩ := Effects.fold_true (P := fun u => u.appSlug ≠ slug)
        (fun _ _ _ _ hobject => clearObject_true hobject) h
      exact ⟨hclear, fun _ => ⟨items, rfl, hnone⟩⟩

/-- Every kind was listed, and had no object of the app. -/
theorem cleared_true (h : cleared server slug = .ok true) :
    ∃ gvrs, server.gvrs = .ok gvrs ∧ ∀ gvr ∈ gvrs, gvr.text ∉ skip →
      ∃ items, (server.list gvr).unstructuredList = some items ∧ NoneOf slug items := by
  unfold cleared clearNamespace at h
  obtain ⟨_, _, _, -, hdiscovery, -⟩ := (Effects.bind_eq_ok _).mp (Effects.eq_of_fst _ h)
  obtain ⟨_, _, _, -, hdynamic, -⟩ := (Effects.bind_eq_ok _).mp hdiscovery
  obtain ⟨_, _, _, -, hconvert, -⟩ := (Effects.bind_eq_ok _).mp hdynamic
  obtain ⟨gvrs, _, _, hgvrs, hloop, -⟩ := (Effects.bind_eq_ok _).mp hconvert
  refine ⟨gvrs, orAbort_eq_ok (by rw [hgvrs]), ?_⟩
  exact (Effects.fold_true (fun _ _ _ _ hkind => clearResource_true hkind)
    (congrArg Prod.fst hloop)).2

end

/-! ## The objects of the namespace -/

/-- The objects of each kind, moment by moment while `clearNamespace` runs. -/
structure Timeline (server : ApiServer) where
  objects : Nat → GroupVersionResource → List Unstructured
  listed : GroupVersionResource → Nat
  returned : Nat
  listed_le : ∀ gvr, listed gvr ≤ returned
  objects_listed : ∀ gvr items, (server.list gvr).unstructuredList = some items →
    objects (listed gvr) gvr = items

/-- No object of the app appears where there was none. -/
def Timeline.NoneAppears {server : ApiServer} (timeline : Timeline server) (slug : String) : Prop :=
  ∀ t gvr, NoneOf slug (timeline.objects t gvr) → NoneOf slug (timeline.objects (t + 1) gvr)

theorem Timeline.noneOf_le {server : ApiServer} {timeline : Timeline server} {slug : String}
    (h : timeline.NoneAppears slug) {gvr : GroupVersionResource} {t t' : Nat} (hle : t ≤ t')
    (hnone : NoneOf slug (timeline.objects t gvr)) : NoneOf slug (timeline.objects t' gvr) := by
  induction hle with
  | refl => exact hnone
  | step _ ih => exact h _ gvr ih

/-- In the kinds that could be listed there is no object of the app: there was none when they were
listed, and there is none on return if none has appeared since. -/
def SeenEmpty (server : ApiServer) (slug : String) : Prop :=
  ∀ timeline : Timeline server, ∀ gvrs, server.gvrs = .ok gvrs → ∀ gvr ∈ gvrs, gvr.text ∉ skip →
    (server.list gvr).unstructuredList.isSome →
    NoneOf slug (timeline.objects (timeline.listed gvr) gvr) ∧
      (timeline.NoneAppears slug → NoneOf slug (timeline.objects timeline.returned gvr))

theorem seenEmpty_of_true {server : ApiServer} {slug : String}
    (h : cleared server slug = .ok true) : SeenEmpty server slug := by
  intro timeline gvrs hgvrs gvr hgvr hlisted _
  obtain ⟨gvrs', hgvrs', hall⟩ := cleared_true h
  cases hgvrs.symm.trans hgvrs'
  obtain ⟨items, hitems, hnone⟩ := hall gvr hgvr hlisted
  rw [← timeline.objects_listed gvr items hitems] at hnone
  exact ⟨hnone, fun hquiet => Timeline.noneOf_le hquiet (timeline.listed_le gvr) hnone⟩

/-! ## The loop over the namespaces -/

/-- The results of `clearNamespace` for its caller.  After a panic there is no caller any more;
here it would be tried again. -/
def report : Except Abort Bool → Except GoError Bool
  | .ok clear => .ok clear
  | .error (.error e) => .error e
  | .error .panic => .error { cause := "invalid memory address or nil pointer dereference" }

theorem report_true {outcome : Except Abort Bool} (h : report outcome = .ok true) :
    outcome = .ok true := by
  cases outcome with
  | ok clear =>
    cases h
    rfl
  | error abort => cases abort <;> cases h

/-- An operator whose calls of `clearNamespace` are answered by API servers, a new one each time. -/
def Env.clearing (env : Env) (servers : List Event → String → ApiServer) : Env :=
  { env with clearNamespace := fun before slug ns => report (cleared (servers before ns) slug) }

/-- The last attempt has answered that the namespace is clear. -/
theorem clearNamespaceLoop_ok {env : Env} {slug ns : String} {i : Nat} {before done : List Event}
    (h : clearNamespaceLoop env slug ns i before = (.ok (), done)) :
    ∃ earlier, done = earlier ++ [.clearNamespace slug ns] ∧
      env.clearNamespace (before ++ earlier) slug ns = .ok true := by
  induction i generalizing before done with
  | zero =>
    unfold clearNamespaceLoop at h
    rw [Effects.bind_ok before (Effects.act_apply before _ _)] at h
    rcases hgone : env.clearNamespace before slug ns with e | _ | _
    all_goals
      rw [hgone] at h
      cases h
    exact ⟨[], rfl, by rw [List.append_nil]; exact hgone⟩
  | succ i ih =>
    -- where this attempt does not succeed, it is the next one that returns
    have hretry : ∀ {rest}, clearNamespaceLoop env slug ns i (before ++ [.clearNamespace slug ns]) =
          (.ok (), rest) →
        ∃ earlier, [.clearNamespace slug ns] ++ rest = earlier ++ [.clearNamespace slug ns] ∧
          env.clearNamespace (before ++ earlier) slug ns = .ok true := by
      intro rest hloop
      obtain ⟨earlier, rfl, hgone⟩ := ih hloop
      refine ⟨.clearNamespace slug ns :: earlier, rfl, ?_⟩
      rw [List.append_cons]
      exact hgone
    unfold clearNamespaceLoop at h
    rw [Effects.bind_ok before (Effects.act_apply before _ _)] at h
    rcases hgone : env.clearNamespace before slug ns with e | _ | _
    all_goals
      rw [hgone] at h
      obtain ⟨hfst, rfl⟩ := Prod.mk.inj h
    · exact hretry (Effects.eq_of_fst _ hfst)
    · exact hretry (Effects.eq_of_fst _ hfst)
    · exact ⟨[], rfl, by rw [List.append_nil]; exact hgone⟩

theorem diffAndRemove_cleared {env : Env} {args : ApplicationManifests} {before done : List Event}
    (h : diffAndRemovePreviousManifests env args before = (.ok (), done)) :
    ∀ ns ∈ args.clearNamespaces, ∃ earlier later,
      done = earlier ++ .clearNamespace args.appSlug ns :: later ∧
      env.clearNamespace (before ++ earlier) args.appSlug ns = .ok true := by
  intro ns hns
  obtain ⟨_, d₁, _, -, h₁, rfl⟩ := (Effects.bind_eq_ok _).mp h
  obtain ⟨_, d₂, _, -, h₂, rfl⟩ := (Effects.bind_eq_ok _).mp h₁
  obtain ⟨_, d₃, _, -, h₃, rfl⟩ := (Effects.bind_eq_ok _).mp h₂
  obtain ⟨_, d₄, _, -, h₄, rfl⟩ := (Effects.bind_eq_ok _).mp h₃
  obtain ⟨_, d₅, _, -, h₅, rfl⟩ := (Effects.bind_eq_ok _).mp h₄
  obtain ⟨_, d₆, _, -, h₆, rfl⟩ := (Effects.bind_eq_ok _).mp h₅
  obtain ⟨earlier, own, later, rfl, hloop⟩ := Effects.forEach_eq_ok h₆ ns hns
  obtain ⟨attempts, rfl, hgone⟩ := clearNamespaceLoop_ok hloop
  refine ⟨d₁ ++ d₂ ++ d₃ ++ d₄ ++ d₅ ++ d₆ ++ earlier ++ attempts, later, ?_, ?_⟩
  · simp only [List.append_assoc, List.cons_append, List.nil_append]
  · simpa only [List.append_assoc] using hgone

/-! ## Safety and truth -/

/-- A call returns, and its true answer means that there is nothing left. -/
def ClearsTruthfully (server : ApiServer) (slug : String) : Prop :=
  cleared server slug ≠ .error .panic ∧
    (cleared server slug = .ok true → SeenEmpty server slug)

/-- `clearNamespace` reads no nil list unless it comes to a kind that has one.  Its true answers are
right, and the namespaces are not cleared without one for each of them. -/
theorem clearsTruthfully_iff (server : ApiServer) (slug : String) :
    (ClearsTruthfully server slug ↔ ¬ ReachesNilList server slug) ∧
    ∀ (env : Env) (servers : List Event → String → ApiServer) (args : ApplicationManifests)
      (before done : List Event),
      diffAndRemovePreviousManifests (env.clearing servers) args before = (.ok (), done) →
      ∀ ns ∈ args.clearNamespaces, ∃ earlier later,
        done = earlier ++ .clearNamespace args.appSlug ns :: later ∧
        cleared (servers (before ++ earlier) ns) args.appSlug = .ok true ∧
        SeenEmpty (servers (before ++ earlier) ns) args.appSlug := by
  constructor
  · have hpanic := (comes_clearNamespace server slug).error []
    unfold ClearsTruthfully
    rw [← hpanic]
    constructor
    · rintro ⟨hreturns, -⟩ ⟨e, rfl, he⟩
      exact hreturns he
    · intro hreturns
      exact ⟨fun he => hreturns ⟨.panic, rfl, he⟩, seenEmpty_of_true⟩
  · intro env servers args before done hdone ns hns
    obtain ⟨earlier, later, hsplit, hgone⟩ := diffAndRemove_cleared hdone ns hns
    have htrue := report_true hgone
    exact ⟨earlier, later, hsplit, htrue, seenEmpty_of_true htrue⟩

/-! ## A kind that cannot be listed -/

def metricsPods : GroupVersionResource := ⟨"metrics.k8s.io", "v1beta1", "pods"⟩

/-- The API group of the metrics is served by an app that is not up. -/
def metricsServer : ApiServer where
  serverPreferredNamespacedResources := ([⟨"metrics.k8s.io/v1beta1", ["pods"]⟩], none)
  groupVersionResources := fun _ => .ok [metricsPods]
  rangeGVRs := Reorder.id _
  list := fun _ => ⟨none, some { cause := "the server is currently unable to handle the request" }⟩
  delete := fun _ _ => .ok ()

theorem not_clearsTruthfully_metrics : ¬ ClearsTruthfully metricsServer "my-app" := by
  rintro ⟨hreturns, -⟩
  have hlisted : metricsPods.text ∉ skip := by decide
  have hpanic : clearResource metricsServer "my-app" true metricsPods [] = (.error .panic, []) := by
    unfold clearResource
    rw [if_neg hlisted]
    rfl
  apply hreturns
  show (Effects.fold (clearResource metricsServer "my-app") true [metricsPods] []).1 = _
  exact congrArg Prod.fst (Effects.bind_error [] hpanic)

end Kotsadm.Operator
