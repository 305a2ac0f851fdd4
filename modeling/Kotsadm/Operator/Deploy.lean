import Kotsadm.Lib.Effects
import Kotsadm.Lib.Reorder
import Kotsadm.Operator.Manifests

/-!
# Deploy — the handler of a deploy request

What disappeared since the previous manifests is removed first.  Then the additional namespaces are
made, and the manifests are applied: after a dry run when there is no CRD in them, after the CRDs
otherwise.  The result is reported by a deferred function, except that of a failed dry run or of the
CRDs.

A program here is a list of actions on the cluster, and what each of them answers is up to the
cluster.
-/

namespace Kotsadm.Operator

open GoString

structure ApplicationManifests where
  appID : String := ""
  appSlug : String := ""
  kubectlVersion : String := ""
  additionalNamespaces : List String := []
  ns : GoString := ascii "."
  -- base64
  previousManifests : String := ""
  manifests : String := ""
  wait : Bool := false
  resultCallback : String := ""
  clearNamespaces : List String := []
  clearPVCs : Bool := false
  annotateSlug : Bool := false

/-! ## Actions -/

/-- A `kubectl apply`. -/
structure ApplyCall where
  targetNamespace : GoString
  slug : String
  yamlDoc : GoString
  dryRun : Bool
  wait : Bool
  annotateSlug : Bool
  deriving DecidableEq, Repr

structure ApplyOutput where
  stdout : GoString := []
  stderr : GoString := []
  err : Option GoError := none

/-- The body of the report to the API. -/
structure DeployResult where
  appID : String
  isError : Bool
  dryrunStdout : GoString
  dryrunStderr : GoString
  applyStdout : GoString
  applyStderr : GoString
  deriving DecidableEq, Repr

inductive Event where
  | remove (targetNamespace yamlDoc : GoString) (wait : Bool)
  | deletePVC (ns name : GoString)
  -- objects of the app are deleted
  | clearNamespace (slug ns : String)
  | createNamespace (name : String)
  | apply (call : ApplyCall) (err : Option GoError)
  | result (result : DeployResult)
  deriving DecidableEq, Repr

abbrev Program (α : Type) := Effects GoError Event α

/-- What `parseK8sYaml` finds in a document. -/
structure K8sObject where
  group : GoString
  version : GoString
  kind : GoString
  name : GoString
  ns : GoString := []
  deriving DecidableEq, Repr

/-- The volumes of a pod, each with the claim it is of. -/
structure Pod where
  volumes : List (Option GoString)

/-- The calls that only fail or do not. -/
inductive Call where
  | removeFindKubectl
  | removeInClusterConfig
  | pvcGetConfig
  | pvcClientset
  | namespaceInClusterConfig
  | namespaceClientset
  | applyFindKubectl
  | applyInClusterConfig
  | deletePVC (name : GoString)
  | createNamespace (name : String)
  | sendResult (result : DeployResult)

/-- The operator and the cluster.  What the cluster answers may depend on what was done before. -/
structure Env where
  -- `c.TargetNamespace`
  targetNamespace : GoString := []
  decodeString : String → Except GoError GoString
  unmarshal : Unmarshal
  sha256 : GoString → GoString
  parseK8sYaml : GoString → Option K8sObject
  -- the orders in which the maps are walked
  rangePrevious : Reorder (GoString × GoString)
  rangeDryRun : Reorder (GoString × GoString)
  rangeApply : Reorder (GoString × GoString)
  failure : List Event → Call → Option GoError
  -- the pods of a workload, or the one of that name; an object is asked for once
  findPods : K8sObject → GoString → Except GoError (List Pod)
  namespaceIsNotFound : List Event → String → Bool
  clearNamespace : List Event → String → String → Except GoError Bool
  apply : List Event → ApplyCall → ApplyOutput

section

variable (env : Env)

/-- `if err := call; err != nil { return errors.Wrap(err, context) }` -/
def wrapped {α : Type} (context : String) (m : Program α) : Program α :=
  m.mapError fun e => e.wrap context

def call (c : Call) (context : String) : Program Unit := do
  let err ← Effects.look fun before => env.failure before c
  wrapped context (Effects.throwIf err)

theorem wrapped_apply {α : Type} (context : String) (m : Program α) (before : List Event) :
    wrapped context m before = ((m before).1.wrapError context, (m before).2) := by
  unfold wrapped
  rw [Effects.mapError_apply]
  cases (m before).1 <;> rfl

theorem wrapped_eq_ok {α : Type} {context : String} {m : Program α} {before done : List Event}
    {a : α} : wrapped context m before = (.ok a, done) ↔ m before = (.ok a, done) := by
  rw [wrapped_apply]
  rcases m before with ⟨e | a', done'⟩
  · simp [Except.wrapError]
  · simp [Except.wrapError]

theorem call_ok {c : Call} {before : List Event} (h : env.failure before c = none)
    (context : String) : call env c context before = (.ok (), []) := by
  unfold call
  rw [Effects.bind_ok before (Effects.look_apply before _), wrapped_apply, h]
  rfl

theorem call_error {c : Call} {before : List Event} {e : GoError}
    (h : env.failure before c = some e) (context : String) :
    call env c context before = (.error (e.wrap context), []) := by
  unfold call
  rw [Effects.bind_ok before (Effects.look_apply before _), wrapped_apply, h]
  rfl

theorem does_call {P : Event → Prop} (c : Call) (context : String) :
    (call env c context).Does P :=
  Effects.does_bind (Effects.does_look _) fun _ => Effects.does_mapError (Effects.does_throwIf _)

/-- Both functions that are given a namespace use it unless it is `.`. -/
def targetNamespaceOf (args : ApplicationManifests) : GoString :=
  if args.ns = ascii "." then env.targetNamespace else args.ns

/-! ## sendResult -/

def sendResult (args : ApplicationManifests) (isError : Bool)
    (dryrunStdout dryrunStderr applyStdout applyStderr : GoString) : Program Unit :=
  if args.resultCallback = "" then return ()
  else do
    let result : DeployResult :=
      { appID := args.appID, isError, dryrunStdout, dryrunStderr, applyStdout, applyStderr }
    let err ← Effects.act (fun before => env.failure before (.sendResult result))
      fun _ => .result result
    Effects.throwIf err

/-! ## diffAndRemovePreviousManifests -/

def text (s : GoString) : String := String.ofList (s.map fun b => Char.ofNat b.toNat)

/-- The kinds whose pods are looked for, and how an error names them. -/
def podOwners : List ((String × String × String) × String) :=
  [(("apps", "v1", "Deployment"), "deployment"), (("apps", "v1", "StatefulSet"), "stateful set"),
    (("batch", "v1", "Job"), "job"), (("batch", "v1beta1", "CronJob"), "cron job")]

/-- How an error of `getPVCs` names the object; `none` is a kind without pods. -/
def K8sObject.podContext (obj : K8sObject) : Option String :=
  match podOwners.lookup (text obj.group, text obj.version, text obj.kind) with
  | some label => some ("failed to find pods for " ++ label ++ " " ++ text obj.name)
  | none =>
    if obj.group = [] ∧ obj.version = ascii "v1" ∧ obj.kind = ascii "Pod" then
      -- `findPodByName` wraps the error, so `IsNotFound` does not find it
      some ("failed to find pod " ++ text obj.name)
    else none

def getPVCs (targetNamespace : GoString) (obj : K8sObject) : Program (List GoString) :=
  match obj.podContext with
  | none => return []
  | some context => do
    let ns := if obj.ns ≠ [] then obj.ns else targetNamespace
    let pods ← wrapped context (Effects.ofExcept (env.findPods obj ns))
    return pods.flatMap fun pod => pod.volumes.filterMap id

/-- The documents of a text by their key; a later one replaces an earlier one. -/
def manifestMap (multidoc : GoString) : Grouping.Map GoString GoString :=
  Grouping.lastBy (getGVKWithName env.unmarshal env.sha256) (splitDocs multidoc)

/-- `kubectl delete` is not to wait for a claim that a pod still uses. -/
def removeWait (args : ApplicationManifests) (parsed : Option K8sObject) : Bool :=
  match parsed with
  | some obj => if obj.kind = ascii "PersistentVolumeClaim" then false else args.wait
  | none => args.wait

/-- An object that is not identified has no claims. -/
def listPVCs (targetNamespace : GoString) (parsed : Option K8sObject) :
    Program (List GoString) :=
  match parsed with
  | none => return []
  | some obj => wrapped "failed to list PVCs" (getPVCs env targetNamespace obj)

/-- One round of the loop over the previous documents.  That a removal fails is only logged. -/
def removeManifest (args : ApplicationManifests) (current : Grouping.Map GoString GoString)
    (allPVCs : List GoString) (entry : GoString × GoString) : Program (List GoString) :=
  if entry.1 ∈ current then return allPVCs
  else do
    let targetNamespace := targetNamespaceOf env args
    let oldContents := entry.2
    let parsed := env.parseK8sYaml oldContents
    let pvcs ← listPVCs env targetNamespace parsed
    Effects.act (fun _ => ()) fun _ => .remove targetNamespace oldContents (removeWait args parsed)
    return allPVCs ++ pvcs

def deletePVCs (targetNamespace : GoString) (pvcs : List GoString) : Program Unit := do
  call env .pvcGetConfig "failed to get config"
  call env .pvcClientset "failed to get client set"
  Effects.forEach (fun pvc => do
    let err ← Effects.act (fun before => env.failure before (.deletePVC pvc))
      fun _ => .deletePVC targetNamespace pvc
    wrapped ("failed to delete pvc " ++ text pvc) (Effects.throwIf err)) pvcs

/-- Tried again, `i` more times. -/
def clearNamespaceLoop (slug ns : String) : (i : Nat) → Program Unit
  | 0 => do
    let gone ← Effects.act (fun before => env.clearNamespace before slug ns)
      fun _ => .clearNamespace slug ns
    match gone with
    | .ok true => return ()
    | _ => Effects.throwIf (some
        { cause := "Failed to clear app " ++ slug ++ " from namespace " ++ ns ++ "\n" })
  | i + 1 => do
    let gone ← Effects.act (fun before => env.clearNamespace before slug ns)
      fun _ => .clearNamespace slug ns
    match gone with
    | .ok true => return ()
    | _ => clearNamespaceLoop slug ns i

/-- After the removals. -/
def clearRest (args : ApplicationManifests) (allPVCs : List GoString) : Program Unit := do
  (if args.clearPVCs then
    wrapped "failed to delete PVCs" (deletePVCs env (targetNamespaceOf env args) allPVCs)
  else return ())
  Effects.forEach (fun ns => clearNamespaceLoop env args.appSlug ns 10) args.clearNamespaces

def diffAndRemovePreviousManifests (args : ApplicationManifests) : Program Unit := do
  let decodedPrevious ← wrapped "failed to decode previous manifests"
    (Effects.ofExcept (env.decodeString args.previousManifests))
  let decodedCurrent ← wrapped "failed to decode manifests"
    (Effects.ofExcept (env.decodeString args.manifests))
  call env .removeFindKubectl "failed to find kubectl"
  call env .removeInClusterConfig "failed to get in cluster config"
  -- what is in previous but not in current
  let previous := Grouping.pairs (manifestMap env decodedPrevious)
  let allPVCs ← Effects.fold (removeManifest env args (manifestMap env decodedCurrent)) []
    (env.rangePrevious.apply previous)
  clearRest env args allPVCs

/-! ## ensureNamespacePresent -/

/-- An error other than that the namespace is not found is no error. -/
def ensureNamespacePresent (name : String) : Program Unit := do
  call env .namespaceInClusterConfig "failed to get in cluster config"
  call env .namespaceClientset "failed to get new kubernetes client"
  let isNotFound ← Effects.look fun before => env.namespaceIsNotFound before name
  if isNotFound then do
    let err ← Effects.act (fun before => env.failure before (.createNamespace name))
      fun _ => .createNamespace name
    wrapped "failed to create namespace" (Effects.throwIf err)
  else return ()

/-! ## ensureResourcesPresent -/

structure ApplyResult where
  hasErr : Bool := false
  multiStdout : List GoString := []
  multiStderr : List GoString := []
  deriving DecidableEq, Repr

def getApplier : Program Unit := do
  call env .applyFindKubectl "failed to find kubectl"
  call env .applyInClusterConfig "failed to get in cluster config"

/-- `kubernetesApplier.Apply` -/
def apply (args : ApplicationManifests) (targetNamespace yamlDoc : GoString) (dryRun : Bool) :
    Program ApplyOutput :=
  let c : ApplyCall :=
    { targetNamespace, slug := args.appSlug, yamlDoc, dryRun, wait := args.wait,
      annotateSlug := args.annotateSlug }
  Effects.act (fun before => env.apply before c) fun output => .apply c output.err

/-- Whether to go on after the dry runs. -/
def dryRun (args : ApplicationManifests) : List (GoString × GoString) → Program Bool
  | [] => return true
  | (requestedNamespace, docs) :: rest =>
    if docs.length = 0 then dryRun args rest
    else do
      let output ← apply env args requestedNamespace docs true
      if output.err.isSome then
        wrapped "failed to report dry run status"
          (sendResult env args true output.stdout output.stderr [] [])
        -- no error, the API has it now
        return false
      else dryRun args rest

/-- Whether to go on after the CRDs. -/
def applyCRDs (args : ApplicationManifests) (customResourceDefinitions : GoString) :
    Program Bool := do
  if customResourceDefinitions.length > 0 then
    let output ← apply env args [] customResourceDefinitions false
    if output.err.isSome then
      wrapped "failed to report crd status"
        (sendResult env args output.err.isSome [] [] output.stdout output.stderr)
      return false
    else return true
  else return true

/-- With a CRD the other documents are likely to need it, so there is no dry run. -/
def dryRunOrCRDs (args : ApplicationManifests) (decoded : GoString)
    (customResourceDefinitions : Option GoString) : Program Bool :=
  match customResourceDefinitions with
  | none => do
    let byNamespace ← wrapped "failed to get docs by requested namespace"
      (Effects.ofExcept (docsByNamespace env.unmarshal decoded (targetNamespaceOf env args)))
    dryRun env args (env.rangeDryRun.apply byNamespace)
  | some crds => applyCRDs env args crds

/-- One round of the loop over the namespaces. -/
def applyDocs (args : ApplicationManifests) (result : ApplyResult)
    (entry : GoString × GoString) : Program ApplyResult :=
  if entry.2.length = 0 then return result
  else do
    let output ← apply env args entry.1 entry.2 false
    return {
      hasErr := result.hasErr || output.err.isSome
      multiStdout :=
        if output.stdout.length > 0 then result.multiStdout ++ [output.stdout]
        else result.multiStdout
      multiStderr :=
        if output.stderr.length > 0 then result.multiStderr ++ [output.stderr]
        else result.multiStderr }

/-- `none` is the nil result: what there was to report has been reported. -/
def applyManifests (args : ApplicationManifests) (decoded : GoString) :
    Program (Option ApplyResult) := do
  let (customResourceDefinitions, otherDocs) :=
    splitMutlidocYAMLIntoCRDsAndOthers env.unmarshal decoded
  let goOn ← dryRunOrCRDs env args decoded customResourceDefinitions
  if goOn then do
    let byNamespace ← wrapped "failed to get docs by requested namespace"
      (Effects.ofExcept (docsByNamespace env.unmarshal otherDocs (targetNamespaceOf env args)))
    let result ← Effects.fold (applyDocs env args) {} (env.rangeApply.apply byNamespace)
    return some result
  else return none

def ensureResourcesPresent (args : ApplicationManifests) : Program (Option ApplyResult) := do
  wrapped "failed to get applier" (getApplier env)
  let decoded ← wrapped "failed to decode manifests"
    (Effects.ofExcept (env.decodeString args.manifests))
  applyManifests env args decoded

/-- There is a `kubectl`, and a configuration for it. -/
def ApplierFound (before : List Event) : Prop :=
  env.failure before .applyFindKubectl = none ∧ env.failure before .applyInClusterConfig = none

theorem getApplier_apply (before : List Event) :
    ∃ r, getApplier env before = (r, []) ∧ (r.isOk ↔ ApplierFound env before) := by
  unfold getApplier ApplierFound
  cases hkubectl : env.failure before .applyFindKubectl with
  | some e =>
    refine ⟨_, Effects.bind_error before (call_error env hkubectl _), ?_⟩
    simp [Except.isOk, Except.toBool]
  | none =>
    rw [Effects.bind_ok before (call_ok env hkubectl _)]
    simp only [List.append_nil, List.nil_append]
    cases hconfig : env.failure before .applyInClusterConfig with
    | some e =>
      rw [call_error env hconfig]
      exact ⟨_, rfl, by simp [Except.isOk, Except.toBool]⟩
    | none =>
      rw [call_ok env hconfig]
      exact ⟨_, rfl, by simp [Except.isOk, Except.toBool]⟩

/-- Before the manifests are split nothing has been done. -/
theorem ensureResourcesPresent_cases (args : ApplicationManifests) (before : List Event) :
    (∃ e, ensureResourcesPresent env args before = (.error e, []) ∧
      (¬ ApplierFound env before ∨ ¬ (env.decodeString args.manifests).isOk)) ∨
    ∃ decoded, env.decodeString args.manifests = .ok decoded ∧ ApplierFound env before ∧
      ensureResourcesPresent env args before = applyManifests env args decoded before := by
  unfold ensureResourcesPresent
  obtain ⟨r, hr, hfound⟩ := getApplier_apply env before
  cases r with
  | error e =>
    have happlier : wrapped "failed to get applier" (getApplier env) before =
        (.error (e.wrap "failed to get applier"), []) := by
      rw [wrapped_apply, hr]
      rfl
    refine .inl ⟨_, Effects.bind_error before happlier, .inl ?_⟩
    exact fun h => by cases hfound.mpr h
  | ok u =>
    rw [Effects.bind_ok before (wrapped_eq_ok.mpr hr)]
    simp only [List.append_nil, List.nil_append]
    cases hdecode : env.decodeString args.manifests with
    | error e =>
      refine .inl ⟨e.wrap "failed to decode manifests", rfl, .inr ?_⟩
      simp [Except.isOk, Except.toBool]
    | ok decoded =>
      refine .inr ⟨decoded, rfl, hfound.mp rfl, ?_⟩
      rw [Effects.bind_ok before (wrapped_eq_ok.mpr (Effects.ofExcept_apply before _))]
      simp

/-! ## The handler -/

def bytes (s : String) : GoString := s.toUTF8.toList

/-- The deferred function; that the report fails is only logged. -/
def reportResult (args : ApplicationManifests) (result : Option ApplyResult)
    (deployError : Option GoError) : Program (Except GoError Unit) :=
  match result, deployError with
  | some result, _ => Effects.attempt (sendResult env args result.hasErr [] []
      ((ascii "\n").intercalate result.multiStdout) ((ascii "\n").intercalate result.multiStderr))
  | none, some e => Effects.attempt (sendResult env args true [] [] [] (bytes e.text))
  | none, none => return .ok ()

def removePrevious (args : ApplicationManifests) : Program Unit :=
  if args.previousManifests ≠ "" then diffAndRemovePreviousManifests env args else return ()

/-- An error here is only logged; the variable it was in is assigned again after the loop. -/
def ensureNamespaces (args : ApplicationManifests) : Program Unit :=
  Effects.forEach (fun additionalNamespace =>
    if additionalNamespace = "*" then return ()
    else do
      let _ ← Effects.attempt (ensureNamespacePresent env additionalNamespace)
      return ()) args.additionalNamespaces

/-- The handler without its deferred function. -/
def deployBody (args : ApplicationManifests) : Program (Option ApplyResult) := do
  removePrevious env args
  ensureNamespaces env args
  ensureResourcesPresent env args

/-- The deferred function, with the variables as the handler leaves them. -/
def deferred (args : ApplicationManifests) (ended : Except GoError (Option ApplyResult)) :
    Program (Except GoError Unit) :=
  match ended with
  | .ok result => reportResult env args result none
  | .error e => reportResult env args none (some e)

def deploy (args : ApplicationManifests) : Program Unit := do
  let ended ← Effects.attempt (deployBody env args)
  let _ ← deferred env args ended
  return ()

end

/-! ## Config maps -/

/-- The name and the namespace of a config map, which may be empty, and its document. -/
def configMap (name ns : String) : OverlySimpleGVKWithName where
  apiVersion := ascii "v1"
  kind := ascii "ConfigMap"
  metadata := { name := ascii name, ns := ascii ns }

def cfgInA : GoString :=
  ascii "apiVersion: v1\nkind: ConfigMap\nmetadata:\n  name: cfg\n  namespace: a\n"

def cfgInB : GoString :=
  ascii "apiVersion: v1\nkind: ConfigMap\nmetadata:\n  name: cfg\n  namespace: b\n"

def old : GoString := ascii "apiVersion: v1\nkind: ConfigMap\nmetadata:\n  name: old\n"

/-- `yaml.Unmarshal` of these documents, and of the empty one. -/
def parseConfigMap (doc : GoString) : OverlySimpleGVKWithName :=
  if doc = cfgInA then configMap "cfg" "a"
  else if doc = cfgInB then configMap "cfg" "b"
  else if doc = old then configMap "old" ""
  else {}

/-- The hashes of the two names, and something else for every other text. -/
def sha256OfNames (s : GoString) : GoString :=
  if s = ascii "v1-ConfigMap-cfg" then
    ascii "d4d9c4c679044aae86cfec7e0671f4898c91a6aaa5554b8a4cfaff39ace90162"
  else if s = ascii "v1-ConfigMap-old" then
    ascii "018b987f32497fa8dc1e0b37370ae79430ab440666245f040014651f105c93eb"
  else 0 :: s

def base64OfCfgInA : String :=
  "YXBpVmVyc2lvbjogdjEKa2luZDogQ29uZmlnTWFwCm1ldGFkYXRhOgogIG5hbWU6IGNmZwogIG5hbWVzcGFjZTogYQo="

def base64OfCfgInB : String :=
  "YXBpVmVyc2lvbjogdjEKa2luZDogQ29uZmlnTWFwCm1ldGFkYXRhOgogIG5hbWU6IGNmZwogIG5hbWVzcGFjZTogYgo="

def base64OfOld : String :=
  "YXBpVmVyc2lvbjogdjEKa2luZDogQ29uZmlnTWFwCm1ldGFkYXRhOgogIG5hbWU6IG9sZAo="

def sampleTexts : List (String × GoString) :=
  [(base64OfCfgInA, cfgInA), (base64OfCfgInB, cfgInB), (base64OfOld, old), ("", [])]

/-- A cluster in which every call succeeds. -/
def sampleEnv : Env where
  targetNamespace := ascii "default"
  decodeString s :=
    match sampleTexts.lookup s with
    | some decoded => .ok decoded
    | none => .error { cause := "illegal base64 data at input byte 0" }
  unmarshal doc := .ok (parseConfigMap doc)
  sha256 := sha256OfNames
  parseK8sYaml doc :=
    let o := parseConfigMap doc
    if o.kind = [] then none
    else some { group := [], version := o.apiVersion, kind := o.kind, name := o.metadata.name,
                ns := o.metadata.ns }
  rangePrevious := .id _
  rangeDryRun := .id _
  rangeApply := .id _
  failure _ _ := none
  findPods _ _ := .ok []
  namespaceIsNotFound _ _ := false
  clearNamespace _ _ _ := .ok true
  apply _ _ := {}

theorem parses_sampleEnv (docs : List GoString) :
    Parses sampleEnv.unmarshal parseConfigMap docs := fun _ _ => rfl

end Kotsadm.Operator
