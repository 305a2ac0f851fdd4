import Mathlib.Data.List.TakeWhile
import Kotsadm.Operator.Deploy

/-!
# Pruned — what is removed of the previous manifests

An object is identified by its API version, kind, namespace and name.  The maps that are compared
have the hash of a text without the namespace as their key, with nothing but `-` between its parts.
-/

namespace Kotsadm.Operator

open GoString

/-! ## Removals -/

/-- The documents that `kubectl delete` was called with. -/
def removals (events : List Event) : List GoString :=
  events.filterMap fun
    | .remove _ doc _ => some doc
    | _ => none

@[simp] theorem removals_append (events events' : List Event) :
    removals (events ++ events') = removals events ++ removals events' := List.filterMap_append

def NoRemoval : Event → Prop
  | .remove .. => False
  | _ => True

theorem removals_eq_nil {events : List Event} (h : ∀ e ∈ events, NoRemoval e) :
    removals events = [] := by
  unfold removals
  rw [List.filterMap_eq_nil_iff]
  intro e he
  have hno := h e he
  cases e with
  | remove => cases hno
  | _ => rfl

section

variable (env : Env) (args : ApplicationManifests)

/-- The pods of the document can be listed, where there may be some. -/
def PodsListed (doc : GoString) : Prop :=
  match env.parseK8sYaml doc with
  | none => True
  | some obj => obj.podContext = none ∨
    (env.findPods obj (if obj.ns ≠ [] then obj.ns else targetNamespaceOf env args)).isOk

instance (doc : GoString) : Decidable (PodsListed env args doc) := by
  unfold PodsListed
  cases env.parseK8sYaml doc <;> infer_instance

/-! ### One round -/

theorem getPVCs_apply (targetNamespace : GoString) (obj : K8sObject) (before : List Event) :
    ∃ r, getPVCs env targetNamespace obj before = (r, []) ∧
      (r.isOk ↔ obj.podContext = none ∨
        (env.findPods obj (if obj.ns ≠ [] then obj.ns else targetNamespace)).isOk) := by
  unfold getPVCs
  cases hcontext : obj.podContext with
  | none => exact ⟨.ok [], rfl, by simp [Except.isOk, Except.toBool]⟩
  | some context =>
    simp only
    cases hpods : env.findPods obj (if obj.ns ≠ [] then obj.ns else targetNamespace) with
    | error e =>
      refine ⟨.error (e.wrap context), rfl, ?_⟩
      simp [Except.isOk, Except.toBool]
    | ok pods =>
      refine ⟨.ok (pods.flatMap fun pod => pod.volumes.filterMap id), rfl, ?_⟩
      simp [Except.isOk, Except.toBool]

/-- A document that is in the current manifests is passed over. -/
theorem removeManifest_current {current : Grouping.Map GoString GoString} {allPVCs : List GoString}
    {entry : GoString × GoString} (h : entry.1 ∈ current) (before : List Event) :
    removeManifest env args current allPVCs entry before = (.ok allPVCs, []) := by
  unfold removeManifest
  rw [if_pos h]
  rfl

theorem listPVCs_apply (doc : GoString) (before : List Event) :
    ∃ r, listPVCs env (targetNamespaceOf env args) (env.parseK8sYaml doc) before = (r, []) ∧
      (r.isOk ↔ PodsListed env args doc) := by
  unfold listPVCs PodsListed
  cases env.parseK8sYaml doc with
  | none => exact ⟨.ok [], rfl, by simp [Except.isOk, Except.toBool]⟩
  | some obj =>
    obtain ⟨r, hr, hok⟩ := getPVCs_apply env (targetNamespaceOf env args) obj before
    refine ⟨r.wrapError "failed to list PVCs", ?_, ?_⟩
    · simp only
      rw [wrapped_apply, hr]
    · simp only
      rw [← hok]
      cases r <;> rfl

/-- Another one is removed if its pods can be listed, and otherwise the loop ends. -/
theorem removeManifest_gone {current : Grouping.Map GoString GoString} {allPVCs : List GoString}
    {entry : GoString × GoString} (h : entry.1 ∉ current) (before : List Event) :
    ∃ r events, removeManifest env args current allPVCs entry before = (r, events) ∧
      ((PodsListed env args entry.2 ∧ r.isOk ∧ removals events = [entry.2]) ∨
        (¬ PodsListed env args entry.2 ∧ ¬ r.isOk ∧ removals events = [])) := by
  unfold removeManifest
  rw [if_neg h]
  obtain ⟨r, hr, hok⟩ := listPVCs_apply env args entry.2 before
  cases r with
  | error e =>
    have hlisted : ¬ PodsListed env args entry.2 := fun hlisted => by cases hok.mpr hlisted
    exact ⟨_, _, Effects.bind_error before hr, .inr ⟨hlisted, nofun, rfl⟩⟩
  | ok pvcs => exact ⟨_, _, Effects.bind_ok before hr, .inl ⟨hok.mp rfl, rfl, rfl⟩⟩

/-! ### The loop -/

/-- The entries that are not in the current manifests, up to the first whose pods cannot be
listed. -/
def removedEntries (current : Grouping.Map GoString GoString)
    (entries : List (GoString × GoString)) : List GoString :=
  ((entries.filter fun entry => entry.1 ∉ current).map Prod.snd).takeWhile fun doc =>
    PodsListed env args doc

theorem removals_fold (current : Grouping.Map GoString GoString) (allPVCs : List GoString)
    (entries : List (GoString × GoString)) (before : List Event) :
    removals (Effects.fold (removeManifest env args current) allPVCs entries before).2 =
      removedEntries env args current entries := by
  induction entries generalizing allPVCs before with
  | nil => rfl
  | cons entry entries ih =>
    unfold removedEntries at ih ⊢
    change removals ((removeManifest env args current allPVCs entry >>= fun pvcs =>
      Effects.fold (removeManifest env args current) pvcs entries) before).2 = _
    -- the filter drops what is in the current manifests, `takeWhile` what comes after an error
    by_cases hcurrent : entry.1 ∈ current
    · rw [Effects.bind_ok before (removeManifest_current env args hcurrent before)]
      simp only [List.nil_append, ih]
      rw [List.filter_cons_of_neg (by simpa using hcurrent)]
    · rw [List.filter_cons_of_pos (by simpa using hcurrent), List.map_cons]
      obtain ⟨r, events, hround, hcases⟩ :=
        @removeManifest_gone env args current allPVCs entry hcurrent before
      rcases hcases with ⟨hlisted, hok, hremoved⟩ | ⟨hlisted, hok, hremoved⟩
      · cases r with
        | error e => cases hok
        | ok pvcs =>
          rw [Effects.bind_ok before hround, List.takeWhile_cons_of_pos (by simpa using hlisted)]
          simp only [removals_append, hremoved, ih]
          rfl
      · cases r with
        | ok pvcs => exact absurd rfl hok
        | error e =>
          rw [Effects.bind_error before hround, List.takeWhile_cons_of_neg (by simpa using hlisted)]
          exact hremoved

/-! ### The rest of the function -/

theorem does_clearNamespaceLoop {P : Event → Prop} (h : ∀ slug ns, P (.clearNamespace slug ns))
    (slug ns : String) (i : Nat) : (clearNamespaceLoop env slug ns i).Does P := by
  induction i with
  | zero =>
    refine Effects.does_bind (Effects.does_act fun _ => h slug ns) fun gone => ?_
    split
    · exact Effects.does_pure ()
    · exact Effects.does_throwIf _
  | succ i ih =>
    refine Effects.does_bind (Effects.does_act fun _ => h slug ns) fun gone => ?_
    split
    · exact Effects.does_pure ()
    · exact ih

theorem does_deletePVCs {P : Event → Prop} (h : ∀ ns name, P (.deletePVC ns name))
    (targetNamespace : GoString) (pvcs : List GoString) :
    (deletePVCs env targetNamespace pvcs).Does P := by
  refine Effects.does_bind (does_call env _ _) fun _ =>
    Effects.does_bind (does_call env _ _) fun _ => Effects.does_forEach fun pvc _ => ?_
  exact Effects.does_bind (Effects.does_act fun _ => h _ _) fun _ =>
    Effects.does_mapError (Effects.does_throwIf _)

theorem does_clearRest {P : Event → Prop} (hpvc : ∀ ns name, P (.deletePVC ns name))
    (hclear : ∀ slug ns, P (.clearNamespace slug ns)) (allPVCs : List GoString) :
    (clearRest env args allPVCs).Does P := by
  refine Effects.does_bind ?_ fun _ => Effects.does_forEach fun ns _ =>
    does_clearNamespaceLoop env hclear _ _ _
  split
  · exact Effects.does_mapError (does_deletePVCs env hpvc _ _)
  · exact Effects.does_pure ()

/-- `kubectl` and the configuration are there. -/
def CanRemove (before : List Event) : Prop :=
  env.failure before .removeFindKubectl = none ∧ env.failure before .removeInClusterConfig = none

theorem removals_diffAndRemove {previous current : GoString} {before : List Event}
    (hprevious : env.decodeString args.previousManifests = .ok previous)
    (hcurrent : env.decodeString args.manifests = .ok current) :
    (CanRemove env before →
      removals (diffAndRemovePreviousManifests env args before).2 =
        removedEntries env args (manifestMap env current)
          (env.rangePrevious.apply (Grouping.pairs (manifestMap env previous)))) ∧
    (¬ CanRemove env before →
      removals (diffAndRemovePreviousManifests env args before).2 = []) := by
  have hdecode : wrapped "failed to decode previous manifests"
      (Effects.ofExcept (env.decodeString args.previousManifests)) before = (.ok previous, []) := by
    rw [wrapped_apply, hprevious]
    rfl
  have hdecode' : wrapped "failed to decode manifests"
      (Effects.ofExcept (env.decodeString args.manifests)) before = (.ok current, []) := by
    rw [wrapped_apply, hcurrent]
    rfl
  unfold diffAndRemovePreviousManifests
  rw [Effects.bind_ok before hdecode]
  simp only [List.append_nil, List.nil_append]
  rw [Effects.bind_ok before hdecode']
  simp only [List.append_nil, List.nil_append]
  constructor
  · intro hcan
    rw [Effects.bind_ok before (call_ok env hcan.1 _)]
    simp only [List.append_nil, List.nil_append]
    rw [Effects.bind_ok before (call_ok env hcan.2 _)]
    simp only [List.append_nil, List.nil_append]
    rw [← removals_fold env args (manifestMap env current) []
      (env.rangePrevious.apply (Grouping.pairs (manifestMap env previous))) before]
    -- what follows the loop removes no document, whether it ended with an error or not
    generalize Effects.fold (removeManifest env args (manifestMap env current)) []
      (env.rangePrevious.apply (Grouping.pairs (manifestMap env previous))) = loop
    rcases hloop : loop before with ⟨r, events⟩
    cases r with
    | error e => rw [Effects.bind_error before hloop]
    | ok allPVCs =>
      rw [Effects.bind_ok before hloop]
      simp only [removals_append]
      rw [removals_eq_nil (does_clearRest env args (P := NoRemoval) (fun _ _ => trivial)
        (fun _ _ => trivial) allPVCs _), List.append_nil]
  · intro hcan
    cases hkubectl : env.failure before .removeFindKubectl with
    | some e => rw [Effects.bind_error before (call_error env hkubectl _)]; rfl
    | none =>
      rw [Effects.bind_ok before (call_ok env hkubectl _)]
      simp only [List.append_nil, List.nil_append]
      cases hconfig : env.failure before .removeInClusterConfig with
      | some e => rw [Effects.bind_error before (call_error env hconfig _)]; rfl
      | none => exact absurd ⟨hkubectl, hconfig⟩ hcan

end

/-! ## Objects -/

/-- What an object of the cluster is known by. -/
structure ObjectID where
  apiVersion : GoString
  kind : GoString
  ns : GoString
  name : GoString
  deriving DecidableEq, Repr

def OverlySimpleGVKWithName.objectID (o : OverlySimpleGVKWithName) (defaultNamespace : GoString) :
    ObjectID where
  apiVersion := o.apiVersion
  kind := o.kind
  ns := o.namespaceOr defaultNamespace
  name := o.metadata.name

theorem joined_of_objectID {o o' : OverlySimpleGVKWithName} {defaultNamespace : GoString}
    (h : o.objectID defaultNamespace = o'.objectID defaultNamespace) : o.joined = o'.joined := by
  have happ : o.apiVersion = o'.apiVersion := congrArg ObjectID.apiVersion h
  have hkind : o.kind = o'.kind := congrArg ObjectID.kind h
  have hname : o.metadata.name = o'.metadata.name := congrArg ObjectID.name h
  unfold OverlySimpleGVKWithName.joined
  rw [happ, hkind, hname]

/-- A document of `previous` whose object is in none of the documents of `current`. -/
def Gone (objectID : GoString → ObjectID) (previous current : List GoString) (doc : GoString) :
    Prop := doc ∈ previous ∧ ∀ other ∈ current, objectID other ≠ objectID doc

/-- What disappeared is removed, and nothing else. -/
def PrunesExactly (objectID : GoString → ObjectID) (previous current : List GoString)
    (events : List Event) : Prop :=
  ∀ doc, doc ∈ removals events ↔ Gone objectID previous current doc

/-- Nothing keeps a document that is gone from being removed: no current document has the same
text to be hashed, nor has a different one after it in the previous manifests. -/
structure Removable (env : Env) (args : ApplicationManifests) (joined : GoString → GoString)
    (previous current : List GoString) (before : List Event) (doc : GoString) : Prop where
  can : CanRemove env before
  current : ∀ other ∈ current, joined other ≠ joined doc
  last : (previous.filter (joined · = joined doc)).getLast? = some doc
  listed : PodsListed env args doc

section

variable {env : Env} {args : ApplicationManifests}
  {parsed : GoString → OverlySimpleGVKWithName}

theorem getGVKWithName_eq {doc : GoString} (h : env.unmarshal doc = .ok (parsed doc)) :
    getGVKWithName env.unmarshal env.sha256 doc = env.sha256 (parsed doc).joined := by
  unfold getGVKWithName
  rw [h]

/-- With an injective hash the key is as good as the text. -/
theorem key_eq_iff (hsha : Function.Injective env.sha256) {doc other : GoString}
    (h : env.unmarshal doc = .ok (parsed doc)) (h' : env.unmarshal other = .ok (parsed other)) :
    getGVKWithName env.unmarshal env.sha256 other = getGVKWithName env.unmarshal env.sha256 doc ↔
      (parsed other).joined = (parsed doc).joined := by
  rw [getGVKWithName_eq h, getGVKWithName_eq h']
  exact hsha.eq_iff

/-- A candidate of the loop: its text is the last of its kind, and the current manifests have
none. -/
theorem mem_candidates (hsha : Function.Injective env.sha256) {previous current doc : GoString}
    (hprevious : Parses env.unmarshal parsed (splitDocs previous))
    (hcurrent : Parses env.unmarshal parsed (splitDocs current)) :
    doc ∈ ((env.rangePrevious.apply (Grouping.pairs (manifestMap env previous))).filter fun entry =>
        entry.1 ∉ manifestMap env current).map Prod.snd ↔
      doc ∈ splitDocs previous ∧
      (∀ other ∈ splitDocs current, (parsed other).joined ≠ (parsed doc).joined) ∧
      ((splitDocs previous).filter fun other =>
        (parsed other).joined = (parsed doc).joined).getLast? = some doc := by
  have hfilter : ∀ doc ∈ splitDocs previous,
      ((splitDocs previous).filter fun other =>
          getGVKWithName env.unmarshal env.sha256 other =
            getGVKWithName env.unmarshal env.sha256 doc) =
        (splitDocs previous).filter fun other => (parsed other).joined = (parsed doc).joined := by
    intro doc hdoc
    apply List.filter_congr
    intro other hother
    rw [decide_eq_decide]
    exact key_eq_iff hsha (hprevious doc hdoc) (hprevious other hother)
  have hmissing : ∀ doc ∈ splitDocs previous,
      (getGVKWithName env.unmarshal env.sha256 doc ∉ manifestMap env current ↔
        ∀ other ∈ splitDocs current, (parsed other).joined ≠ (parsed doc).joined) := by
    intro doc hdoc
    unfold manifestMap
    rw [Grouping.mem_lastBy]
    constructor
    · intro hno other hother hsame
      exact hno ⟨other, hother,
        (key_eq_iff hsha (hprevious doc hdoc) (hcurrent other hother)).mpr hsame⟩
    · intro hno hmem
      obtain ⟨other, hother, hkey⟩ := hmem
      exact hno other hother
        ((key_eq_iff hsha (hprevious doc hdoc) (hcurrent other hother)).mp hkey)
  rw [List.mem_map]
  constructor
  -- the entry of a key is the last document with it
  · intro h
    obtain ⟨⟨key, text⟩, hentry, rfl⟩ := h
    rw [List.mem_filter, decide_eq_true_iff, Reorder.mem_apply, Grouping.mem_pairs] at hentry
    obtain ⟨hlookup, hno⟩ := hentry
    unfold manifestMap at hlookup
    rw [Grouping.lookup_lastBy] at hlookup
    have htext := List.mem_of_getLast? hlookup
    rw [List.mem_filter, decide_eq_true_iff] at htext
    obtain ⟨htext, rfl⟩ := htext
    rw [hfilter text htext] at hlookup
    exact ⟨htext, (hmissing text htext).mp hno, hlookup⟩
  · intro h
    obtain ⟨hdoc, hno, hlast⟩ := h
    refine ⟨(getGVKWithName env.unmarshal env.sha256 doc, doc), ?_, rfl⟩
    rw [List.mem_filter, decide_eq_true_iff, Reorder.mem_apply, Grouping.mem_pairs]
    refine ⟨?_, (hmissing doc hdoc).mpr hno⟩
    unfold manifestMap
    rw [Grouping.lookup_lastBy, hfilter doc hdoc]
    exact hlast

/-- **When the operator prunes exactly what disappeared.**  If and only if nothing keeps any of the
documents that are gone from being removed. -/
theorem prunesExactly_iff (hsha : Function.Injective env.sha256) {previous current : GoString}
    (before : List Event) (hdecode : env.decodeString args.previousManifests = .ok previous)
    (hdecode' : env.decodeString args.manifests = .ok current)
    (hprevious : Parses env.unmarshal parsed (splitDocs previous))
    (hcurrent : Parses env.unmarshal parsed (splitDocs current)) :
    let objectID := fun doc => (parsed doc).objectID (targetNamespaceOf env args)
    PrunesExactly objectID (splitDocs previous) (splitDocs current)
        (diffAndRemovePreviousManifests env args before).2 ↔
      ∀ doc, Gone objectID (splitDocs previous) (splitDocs current) doc →
        Removable env args (fun doc => (parsed doc).joined) (splitDocs previous)
          (splitDocs current) before doc := by
  intro objectID
  obtain ⟨hcan, hcannot⟩ :=
    @removals_diffAndRemove env args previous current before hdecode hdecode'
  have hcandidates := fun doc =>
    @mem_candidates env parsed hsha previous current doc hprevious hcurrent
  constructor
  · intro h doc hgone
    have hremoved := (h doc).mpr hgone
    -- that it was removed says what did not keep it
    by_cases hready : CanRemove env before
    · rw [hcan hready] at hremoved
      have hcandidate := (hcandidates doc).mp ((List.takeWhile_sublist _).subset hremoved)
      have hlisted := List.mem_takeWhile_imp hremoved
      exact ⟨hready, hcandidate.2.1, hcandidate.2.2, of_decide_eq_true hlisted⟩
    · rw [hcannot hready] at hremoved
      cases hremoved
  · intro h doc
    -- a candidate is a document that is gone
    have hgone : ∀ doc, doc ∈ splitDocs previous →
        (∀ other ∈ splitDocs current, (parsed other).joined ≠ (parsed doc).joined) →
        Gone objectID (splitDocs previous) (splitDocs current) doc :=
      fun doc hdoc hno => ⟨hdoc, fun other hother hsame =>
        hno other hother (joined_of_objectID hsame)⟩
    constructor
    · intro hremoved
      by_cases hready : CanRemove env before
      · rw [hcan hready] at hremoved
        have hcandidate := (hcandidates doc).mp ((List.takeWhile_sublist _).subset hremoved)
        exact hgone doc hcandidate.1 hcandidate.2.1
      · rw [hcannot hready] at hremoved
        cases hremoved
    · intro hdoc
      have hremovable := h doc hdoc
      rw [hcan hremovable.can]
      unfold removedEntries
      -- no candidate ends the loop, so all of them are removed
      rw [List.takeWhile_eq_self_iff.mpr]
      · exact (hcandidates doc).mpr ⟨hdoc.1, hremovable.current, hremovable.last⟩
      · intro other hother
        have hcandidate := (hcandidates other).mp hother
        exact decide_eq_true (h other (hgone other hcandidate.1 hcandidate.2.1)).listed

end

/-! ## Config maps -/

/-- The text that has a hash. -/
def textOfHash (hash : GoString) : GoString :=
  if hash = sha256OfNames (ascii "v1-ConfigMap-cfg") then ascii "v1-ConfigMap-cfg"
  else if hash = sha256OfNames (ascii "v1-ConfigMap-old") then ascii "v1-ConfigMap-old"
  else hash.tail

theorem sha256OfNames_injective : Function.Injective sha256OfNames := by
  apply Function.LeftInverse.injective (g := textOfHash)
  intro s
  by_cases hcfg : s = ascii "v1-ConfigMap-cfg"
  · rw [hcfg]
    decide
  · by_cases hold : s = ascii "v1-ConfigMap-old"
    · rw [hold]
      decide
    · have hother : sha256OfNames s = 0 :: s := by
        unfold sha256OfNames
        rw [if_neg hcfg, if_neg hold]
      have hcfg' : 0 :: s ≠ sha256OfNames (ascii "v1-ConfigMap-cfg") := by
        intro h
        have hhead : some 0 = (sha256OfNames (ascii "v1-ConfigMap-cfg")).head? :=
          congrArg List.head? h
        revert hhead
        decide
      have hold' : 0 :: s ≠ sha256OfNames (ascii "v1-ConfigMap-old") := by
        intro h
        have hhead : some 0 = (sha256OfNames (ascii "v1-ConfigMap-old")).head? :=
          congrArg List.head? h
        revert hhead
        decide
      rw [hother, textOfHash, if_neg hcfg', if_neg hold']
      rfl

/-- A config map disappears and another one comes. -/
def replaceOld : ApplicationManifests where
  previousManifests := base64OfOld
  manifests := base64OfCfgInA

/-- A config map goes to another namespace. -/
def moveCfg : ApplicationManifests where
  previousManifests := base64OfCfgInA
  manifests := base64OfCfgInB

theorem prunesExactly_replaceOld :
    let objectID := fun doc =>
      (parseConfigMap doc).objectID (targetNamespaceOf sampleEnv replaceOld)
    PrunesExactly objectID (splitDocs old) (splitDocs cfgInA)
      (diffAndRemovePreviousManifests sampleEnv replaceOld []).2 := by
  intro objectID
  have hold : splitDocs old = [old] := by decide
  have hcfg : splitDocs cfgInA = [cfgInA] := by decide
  refine (prunesExactly_iff sha256OfNames_injective [] rfl rfl (parses_sampleEnv _)
    (parses_sampleEnv _)).mpr ?_
  intro doc hgone
  obtain ⟨hdoc, -⟩ := hgone
  rw [hold, List.mem_singleton] at hdoc
  subst hdoc
  refine ⟨⟨rfl, rfl⟩, ?_, ?_, ?_⟩
  · rw [hcfg]
    decide
  · rw [hold]
    decide
  · decide

/-- The object in the namespace `a` is not in the current manifests, and is not removed. -/
theorem not_prunesExactly_moveCfg :
    ¬ ∀ (env : Env) (args : ApplicationManifests) (parsed : GoString → OverlySimpleGVKWithName)
      (previous current : GoString) (before : List Event), Function.Injective env.sha256 →
      env.decodeString args.previousManifests = .ok previous →
      env.decodeString args.manifests = .ok current →
      Parses env.unmarshal parsed (splitDocs previous) →
      Parses env.unmarshal parsed (splitDocs current) →
      PrunesExactly (fun doc => (parsed doc).objectID (targetNamespaceOf env args))
        (splitDocs previous) (splitDocs current)
        (diffAndRemovePreviousManifests env args before).2 := by
  intro h
  have hexact := h sampleEnv moveCfg parseConfigMap cfgInA cfgInB [] sha256OfNames_injective rfl rfl
    (parses_sampleEnv _) (parses_sampleEnv _)
  have hsplit : splitDocs cfgInA = [cfgInA] := by decide
  have hsplit' : splitDocs cfgInB = [cfgInB] := by decide
  have hgone : cfgInA ∈ removals (diffAndRemovePreviousManifests sampleEnv moveCfg []).2 := by
    apply (hexact cfgInA).mpr
    refine ⟨?_, ?_⟩
    · rw [hsplit]
      exact List.mem_cons_self
    · rw [hsplit']
      decide
  revert hgone
  decide

end Kotsadm.Operator
