import Kotsadm.Operator.Batches
import Kotsadm.Operator.Pruned

/-!
# DeployOutcome — what a deploy request leaves behind, and what is reported of it

The handler removes first and makes the dry run afterwards.  A failed dry run, and CRDs that cannot
be applied, are reported where they happen; everything else is reported by the deferred function,
once the handler returns.
-/

namespace Kotsadm.Operator

open GoString

/-! ## Events -/

def Event.Deletes : Event → Prop
  | .remove .. | .deletePVC .. | .clearNamespace .. => True
  | _ => False

/-- Nothing is deleted, and nothing applied. -/
def Event.Spares : Event → Prop
  | .apply c _ => c.dryRun = true
  | .createNamespace _ | .result _ => True
  | _ => False

def Event.CreatesNamespace : Event → Prop
  | .createNamespace _ => True
  | _ => False

def results (events : List Event) : List DeployResult :=
  events.filterMap fun
    | .result result => some result
    | _ => none

@[simp] theorem results_append (events events' : List Event) :
    results (events ++ events') = results events ++ results events' := List.filterMap_append

theorem results_eq_nil {events : List Event} (h : ∀ result, Event.result result ∉ events) :
    results events = [] := by
  unfold results
  rw [List.filterMap_eq_nil_iff]
  intro e he
  cases e with
  | result result => exact absurd he (h result)
  | _ => rfl

/-- A `kubectl apply` failed, as a dry run or not. -/
def ApplyFailed (events : List Event) : Prop := ∃ c e, Event.apply c (some e) ∈ events

def DryRunFailed (events : List Event) : Prop :=
  ∃ c e, c.dryRun = true ∧ Event.apply c (some e) ∈ events

theorem applyFailed_append {events events' : List Event} :
    ApplyFailed (events ++ events') ↔ ApplyFailed events ∨ ApplyFailed events' := by
  unfold ApplyFailed
  constructor
  · intro h
    obtain ⟨c, e, hmem⟩ := h
    rcases List.mem_append.mp hmem with hmem | hmem
    · exact .inl ⟨c, e, hmem⟩
    · exact .inr ⟨c, e, hmem⟩
  · intro h
    rcases h with ⟨c, e, hmem⟩ | ⟨c, e, hmem⟩
    · exact ⟨c, e, List.mem_append_left _ hmem⟩
    · exact ⟨c, e, List.mem_append_right _ hmem⟩

theorem not_applyFailed_nil : ¬ ApplyFailed [] := by
  intro h
  obtain ⟨c, e, hmem⟩ := h
  cases hmem

theorem applyFailed_singleton {c : ApplyCall} {err : Option GoError} :
    ApplyFailed [.apply c err] ↔ err.isSome = true := by
  constructor
  · intro h
    obtain ⟨c', e, hmem⟩ := h
    cases List.mem_singleton.mp hmem
    rfl
  · intro h
    obtain ⟨e, rfl⟩ := Option.isSome_iff_exists.mp h
    exact ⟨c, e, List.mem_cons_self⟩

section

variable (env : Env) (args : ApplicationManifests)

/-! ## Before the manifests -/

theorem does_getPVCs {P : Event → Prop} (targetNamespace : GoString) (obj : K8sObject) :
    (getPVCs env targetNamespace obj).Does P := by
  unfold getPVCs
  split
  · exact Effects.does_pure []
  · exact Effects.does_bind (Effects.does_mapError (Effects.does_ofExcept _)) fun _ =>
      Effects.does_pure _

theorem does_removeManifest (current : Grouping.Map GoString GoString) (allPVCs : List GoString)
    (entry : GoString × GoString) :
    (removeManifest env args current allPVCs entry).Does Event.Deletes := by
  unfold removeManifest
  split
  · exact Effects.does_pure _
  · refine Effects.does_bind ?_ fun pvcs =>
      Effects.does_bind (Effects.does_act fun _ => trivial) fun _ => Effects.does_pure _
    unfold listPVCs
    split
    · exact Effects.does_pure _
    · exact Effects.does_mapError (does_getPVCs env _ _)

theorem does_removePrevious : (removePrevious env args).Does Event.Deletes := by
  unfold removePrevious
  split
  · refine Effects.does_bind (Effects.does_mapError (Effects.does_ofExcept _)) fun _ => ?_
    refine Effects.does_bind (Effects.does_mapError (Effects.does_ofExcept _)) fun _ => ?_
    refine Effects.does_bind (does_call env _ _) fun _ => ?_
    refine Effects.does_bind (does_call env _ _) fun _ => ?_
    refine Effects.does_bind (Effects.does_fold (fun allPVCs entry _ =>
      does_removeManifest env args _ allPVCs entry) []) fun allPVCs => ?_
    exact does_clearRest env args (fun _ _ => trivial) (fun _ _ => trivial) allPVCs
  · exact Effects.does_pure ()

theorem does_ensureNamespaces : (ensureNamespaces env args).Does Event.CreatesNamespace := by
  refine Effects.does_forEach fun name _ => ?_
  split
  · exact Effects.does_pure ()
  · refine Effects.does_bind (Effects.does_attempt ?_) fun _ => Effects.does_pure ()
    refine Effects.does_bind (does_call env _ _) fun _ => ?_
    refine Effects.does_bind (does_call env _ _) fun _ => ?_
    refine Effects.does_bind (Effects.does_look _) fun isNotFound => ?_
    split
    · exact Effects.does_bind (Effects.does_act fun _ => trivial) fun _ =>
        Effects.does_mapError (Effects.does_throwIf _)
    · exact Effects.does_pure ()

/-- Errors of the additional namespaces do not get out of the loop. -/
theorem ensureNamespaces_ok (before : List Event) :
    ∃ done, ensureNamespaces env args before = (.ok (), done) := by
  unfold ensureNamespaces
  induction args.additionalNamespaces generalizing before with
  | nil => exact ⟨[], rfl⟩
  | cons name names ih =>
    change ∃ done, ((if name = "*" then (return () : Program Unit) else do
      let _ ← Effects.attempt (ensureNamespacePresent env name)
      return ()) >>= fun _ => Effects.forEach _ names) before = _
    by_cases hname : name = "*"
    · rw [if_pos hname, Effects.bind_ok before (Effects.pure_apply before ())]
      obtain ⟨done, hrest⟩ := ih (before ++ [])
      rw [hrest]
      exact ⟨_, rfl⟩
    · rw [if_neg hname]
      have hround : (do
          let _ ← Effects.attempt (ensureNamespacePresent env name)
          return () : Program Unit) before =
            (.ok (), (ensureNamespacePresent env name before).2) := by
        rw [Effects.bind_ok before (Effects.attempt_apply before _)]
        rw [Effects.pure_apply, List.append_nil]
      rw [Effects.bind_ok before hround]
      obtain ⟨done, hrest⟩ := ih (before ++ (ensureNamespacePresent env name before).2)
      rw [hrest]
      exact ⟨_, rfl⟩

/-- The handler up to its deferred function. -/
theorem deployBody_cases (before : List Event) :
    (∃ e done, removePrevious env args before = (.error e, done) ∧
      deployBody env args before = (.error e, done)) ∨
    ∃ removed created r done, removePrevious env args before = (.ok (), removed) ∧
      ensureNamespaces env args (before ++ removed) = (.ok (), created) ∧
      ensureResourcesPresent env args (before ++ removed ++ created) = (r, done) ∧
      deployBody env args before = (r, removed ++ (created ++ done)) := by
  unfold deployBody
  rcases hremove : removePrevious env args before with ⟨e | u, removed⟩
  · exact .inl ⟨e, removed, rfl, Effects.bind_error before hremove⟩
  · right
    obtain ⟨created, hcreate⟩ := ensureNamespaces_ok env args (before ++ removed)
    rcases hensure : ensureResourcesPresent env args (before ++ removed ++ created) with ⟨r, done⟩
    refine ⟨removed, created, r, done, rfl, hcreate, hensure, ?_⟩
    rw [Effects.bind_ok before hremove, Effects.bind_ok _ hcreate, hensure]

/-- The deferred function comes last. -/
theorem deploy_events (before : List Event) {r : Except GoError (Option ApplyResult)}
    {done : List Event} (h : deployBody env args before = (r, done)) :
    (deploy env args before).2 = done ++ (deferred env args r (before ++ done)).2 := by
  unfold deploy
  rw [Effects.bind_ok before (Effects.attempt_apply before _), h]
  rcases hdeferred : deferred env args r (before ++ done) with ⟨e | u, reported⟩
  · rw [Effects.bind_error _ hdeferred]
  · rw [Effects.bind_ok _ hdeferred, Effects.pure_apply, List.append_nil]

theorem does_deferred {P : Event → Prop} (h : ∀ result, P (.result result))
    (r : Except GoError (Option ApplyResult)) : (deferred env args r).Does P := by
  unfold deferred reportResult
  split
  · split
    · exact Effects.does_attempt (does_sendResult env args h _ _ _ _ _)
    · exact Effects.does_attempt (does_sendResult env args h _ _ _ _ _)
    · exact Effects.does_pure _
  · exact Effects.does_attempt (does_sendResult env args h _ _ _ _ _)

/-! ## A rejected deploy -/

/-- When to go on, no dry run failed. -/
theorem dryRun_true {byNamespace : List (GoString × GoString)} {before done : List Event}
    (h : dryRun env args byNamespace before = (.ok true, done)) : ¬ ApplyFailed done := by
  induction byNamespace generalizing before done with
  | nil =>
    cases h
    exact not_applyFailed_nil
  | cons entry rest ih =>
    unfold dryRun at h
    split at h
    · exact ih h
    · obtain ⟨output, done₁, done₂, houtput, hrest, rfl⟩ := (Effects.bind_eq_ok before).mp h
      obtain ⟨hanswer, rfl⟩ := Prod.mk.inj houtput
      cases hanswer
      split at hrest
      · obtain ⟨_, _, _, _, hend, _⟩ := (Effects.bind_eq_ok _).mp hrest
        cases hend
      next hsucceeds =>
        rw [applyFailed_append, applyFailed_singleton]
        exact fun hfailed => hfailed.elim hsucceeds (ih hrest)

/-- The loop over the namespaces makes no dry run. -/
theorem does_applyDocs (result : ApplyResult) (entry : GoString × GoString) :
    (applyDocs env args result entry).Does fun e =>
      ∀ c err, e = .apply c err → c.dryRun = false := by
  unfold applyDocs
  split
  · exact Effects.does_pure _
  · refine Effects.does_bind (Effects.does_act ?_) fun _ => Effects.does_pure _
    intro output c err h
    cases h
    rfl

theorem dryRunFailed_append {events events' : List Event} :
    DryRunFailed (events ++ events') ↔ DryRunFailed events ∨ DryRunFailed events' := by
  unfold DryRunFailed
  constructor
  · intro h
    obtain ⟨c, e, hc, hmem⟩ := h
    rcases List.mem_append.mp hmem with hmem | hmem
    · exact .inl ⟨c, e, hc, hmem⟩
    · exact .inr ⟨c, e, hc, hmem⟩
  · intro h
    rcases h with ⟨c, e, hc, hmem⟩ | ⟨c, e, hc, hmem⟩
    · exact ⟨c, e, hc, List.mem_append_left _ hmem⟩
    · exact ⟨c, e, hc, List.mem_append_right _ hmem⟩

theorem not_dryRunFailed {P : Event → Prop} {events : List Event} (h : ∀ e ∈ events, P e)
    (hP : ∀ c e, c.dryRun = true → ¬ P (.apply c (some e))) : ¬ DryRunFailed events := by
  intro hfailed
  obtain ⟨c, e, hc, hmem⟩ := hfailed
  exact hP c e hc (h _ hmem)

/-- Without a CRD there are nothing but dry runs, unless all of them succeed. -/
theorem applyManifests_rejected {decoded : GoString} (before : List Event)
    (hnocrd : ∀ doc ∈ splitDocs decoded, isCRD env.unmarshal doc = false)
    (hfailed : DryRunFailed (applyManifests env args decoded before).2) :
    ∀ e ∈ (applyManifests env args decoded before).2, e.Spares := by
  have hsplit : splitMutlidocYAMLIntoCRDsAndOthers env.unmarshal decoded = (none, decoded) := by
    unfold splitMutlidocYAMLIntoCRDsAndOthers
    have hnone : ((splitDocs decoded).filter fun doc => isCRD env.unmarshal doc) = [] := by
      rw [List.filter_eq_nil_iff]
      intro doc hdoc
      rw [hnocrd doc hdoc]
      exact Bool.false_ne_true
    simp [hnone]
  have hspares : (dryRunOrCRDs env args decoded none).Does Event.Spares :=
    Effects.does_bind (Effects.does_mapError (Effects.does_ofExcept _)) fun _ =>
      does_dryRun env args (fun _ _ hc => hc) (fun _ => trivial) _
  unfold applyManifests at hfailed ⊢
  rw [hsplit] at hfailed ⊢
  simp only at hfailed ⊢
  rcases hfirst : dryRunOrCRDs env args decoded none before with ⟨e | goOn, done⟩
  · rw [Effects.bind_error before hfirst]
    have hdone := hspares before
    rw [hfirst] at hdone
    exact hdone
  · cases goOn with
    | false =>
      rw [Effects.bind_ok before hfirst]
      have hdone := hspares before
      rw [hfirst] at hdone
      intro e he
      rw [if_neg Bool.false_ne_true, Effects.pure_apply, List.append_nil] at he
      exact hdone e he
    | true =>
      -- every dry run succeeded, and there is none afterwards
      exfalso
      obtain ⟨byNamespace, setup, dry, hsetup, hdry, rfl⟩ := (Effects.bind_eq_ok before).mp hfirst
      obtain ⟨-, rfl⟩ := Prod.mk.inj (wrapped_eq_ok.mp hsetup)
      rw [Effects.bind_ok before hfirst] at hfailed
      rcases dryRunFailed_append.mp hfailed with hfailed | hfailed
      · obtain ⟨c, e, -, hmem⟩ := hfailed
        exact dryRun_true env args hdry ⟨c, e, hmem⟩
      · have hlate : (do
            let byNamespace ← wrapped "failed to get docs by requested namespace"
              (Effects.ofExcept
                (docsByNamespace env.unmarshal decoded (targetNamespaceOf env args)))
            let result ← Effects.fold (applyDocs env args) {} (env.rangeApply.apply byNamespace)
            return some result : Program (Option ApplyResult)).Does
              fun e => ∀ c err, e = .apply c err → c.dryRun = false :=
          Effects.does_bind (Effects.does_mapError (Effects.does_ofExcept _)) fun _ =>
            Effects.does_bind (Effects.does_fold (fun result entry _ =>
              does_applyDocs env args result entry) _) fun _ => Effects.does_pure _
        refine not_dryRunFailed (hlate _) (fun c e hc hP => ?_) hfailed
        rw [hP c (some e) rfl] at hc
        cases hc

/-- A dry run that fails is the only thing `ensureResourcesPresent` did to the cluster. -/
theorem ensureResourcesPresent_rejected {decoded : GoString} (before : List Event)
    (hdecode : env.decodeString args.manifests = .ok decoded)
    (hnocrd : ∀ doc ∈ splitDocs decoded, isCRD env.unmarshal doc = false)
    (hfailed : DryRunFailed (ensureResourcesPresent env args before).2) :
    ∀ e ∈ (ensureResourcesPresent env args before).2, e.Spares := by
  rcases ensureResourcesPresent_cases env args before with ⟨e, herror, -⟩ | ⟨decoded', hok, -, heq⟩
  · rw [herror]
    intro e he
    cases he
  · rw [hdecode] at hok
    cases hok
    rw [heq] at hfailed ⊢
    exact applyManifests_rejected env args before hnocrd hfailed

/-- In a run of the handler only `ensureResourcesPresent` makes dry runs. -/
theorem dryRunFailed_ensured {removed created done reported : List Event}
    (hremoved : ∀ e ∈ removed, e.Deletes) (hcreated : ∀ e ∈ created, e.CreatesNamespace)
    (hreported : ∀ e ∈ reported, ∃ result, e = .result result)
    (hfailed : DryRunFailed (removed ++ (created ++ done) ++ reported)) : DryRunFailed done := by
  -- the events of the four parts, of which three are no dry runs
  rw [dryRunFailed_append, dryRunFailed_append, dryRunFailed_append] at hfailed
  have hnotRemoved : ¬ DryRunFailed removed := not_dryRunFailed hremoved fun c e _ h => h
  have hnotCreated : ¬ DryRunFailed created := not_dryRunFailed hcreated fun c e _ h => h
  have hnotReported : ¬ DryRunFailed reported := by
    refine not_dryRunFailed hreported fun c e _ h => ?_
    obtain ⟨result, hresult⟩ := h
    cases hresult
  rcases hfailed with (hfailed | hfailed | hfailed) | hfailed
  · exact absurd hfailed hnotRemoved
  · exact absurd hfailed hnotCreated
  · exact hfailed
  · exact absurd hfailed hnotReported

theorem Event.CreatesNamespace.spares {e : Event} (h : e.CreatesNamespace) : e.Spares := by
  cases e with
  | createNamespace name => trivial
  | _ => cases h

/-- After the removal of the previous manifests a rejected deploy spares the cluster. -/
theorem rejected_rest {decoded : GoString} (before : List Event)
    (hdecode : env.decodeString args.manifests = .ok decoded)
    (hnocrd : ∀ doc ∈ splitDocs decoded, isCRD env.unmarshal doc = false)
    (hfailed : DryRunFailed (deploy env args before).2) :
    ∃ rest, (deploy env args before).2 = (removePrevious env args before).2 ++ rest ∧
      ∀ e ∈ rest, e.Spares := by
  rcases deployBody_cases env args before with
    ⟨e, done, hremove, hbody⟩ | ⟨removed, created, r, done, hremove, hcreate, hensure, hbody⟩
  -- the removal failed, and what follows is its report
  · rw [deploy_events env args before hbody, hremove]
    exact ⟨_, rfl, does_deferred env args (fun _ => trivial) _ _⟩
  · have hremoved := does_removePrevious env args before
    have hcreated := does_ensureNamespaces env args (before ++ removed)
    have hreport := does_deferred env args (P := Event.Spares) (fun _ => trivial) r
      (before ++ (removed ++ (created ++ done)))
    have hresults := does_deferred env args (P := fun e => ∃ result, e = .result result)
      (fun result => ⟨result, rfl⟩) r (before ++ (removed ++ (created ++ done)))
    rw [hremove] at hremoved
    rw [hcreate] at hcreated
    rw [deploy_events env args before hbody] at hfailed
    have hensured := dryRunFailed_ensured hremoved hcreated hresults hfailed
    have hspares := ensureResourcesPresent_rejected env args (before ++ removed ++ created)
      hdecode hnocrd
    rw [hensure] at hspares
    rw [deploy_events env args before hbody, hremove]
    refine ⟨created ++ done ++ (deferred env args r
      (before ++ (removed ++ (created ++ done)))).2, by simp, ?_⟩
    intro e he
    rcases List.mem_append.mp he with he | he
    · rcases List.mem_append.mp he with he | he
      · exact (hcreated e he).spares
      · exact hspares hensured e he
    · exact hreport e he

/-- **A rejected deploy.**  When a dry run fails, nothing is applied; what was deleted was deleted
by the removal of the previous manifests, which comes first, and after it there are only dry runs,
new namespaces and the report. -/
theorem rejected_spares {decoded : GoString} (before : List Event)
    (hdecode : env.decodeString args.manifests = .ok decoded)
    (hnocrd : ∀ doc ∈ splitDocs decoded, isCRD env.unmarshal doc = false)
    (hfailed : DryRunFailed (deploy env args before).2) :
    applied (deploy env args before).2 = [] ∧
    (∃ rest, (deploy env args before).2 = (removePrevious env args before).2 ++ rest ∧
      ∀ e ∈ rest, e.Spares) ∧
    (∀ e ∈ (removePrevious env args before).2, e.Deletes) ∧
    (args.previousManifests = "" → (removePrevious env args before).2 = []) := by
  have hrest := rejected_rest env args before hdecode hnocrd hfailed
  refine ⟨?_, hrest, does_removePrevious env args before, ?_⟩
  · obtain ⟨rest, hevents, hspares⟩ := hrest
    rw [hevents]
    apply applied_eq_nil
    intro e he
    rcases List.mem_append.mp he with he | he
    · have hdelete := does_removePrevious env args before e he
      cases e with
      | apply c err => cases hdelete
      | _ => trivial
    · have hspare := hspares e he
      cases e with
      | apply c err => exact hspare
      | _ => trivial
  · intro hnone
    unfold removePrevious
    rw [if_neg (not_not.mpr hnone)]
    rfl

end

/-! ## One report -/

/-- The documents of the manifests cannot be put into namespaces. -/
def DocsFailed (env : Env) (args : ApplicationManifests) (decoded : GoString) : Prop :=
  ¬ (docsByNamespace env.unmarshal (splitMutlidocYAMLIntoCRDsAndOthers env.unmarshal decoded).2
    (targetNamespaceOf env args)).isOk

/-- A setup or decode step of `ensureResourcesPresent` fails. -/
def SetupFailed (env : Env) (args : ApplicationManifests) (before : List Event) : Prop :=
  ¬ ApplierFound env before ∨
  ¬ (env.decodeString args.manifests).isOk ∨
  ∃ decoded, env.decodeString args.manifests = .ok decoded ∧ DocsFailed env args decoded

/-- The actions of a part that reports nothing. -/
def Silent (events : List Event) : Prop := results events = []

/-- Exactly one report, of an error. -/
def ReportsError (events : List Event) : Prop :=
  ∃ result, results events = [result] ∧ result.isError = true

section

variable {env : Env} {args : ApplicationManifests}
  (hcallback : args.resultCallback ≠ "")
  (hreport : ∀ before result, env.failure before (.sendResult result) = none)

include hcallback hreport

theorem sendResult_ok (isError : Bool)
    (dryrunStdout dryrunStderr applyStdout applyStderr : GoString) (before : List Event) :
    ∃ result, result.isError = isError ∧
      sendResult env args isError dryrunStdout dryrunStderr applyStdout applyStderr before =
        (.ok (), [.result result]) := by
  unfold sendResult
  rw [if_neg hcallback]
  refine ⟨{ appID := args.appID, isError, dryrunStdout, dryrunStderr, applyStdout, applyStderr },
    rfl, ?_⟩
  rw [Effects.bind_ok before (Effects.act_apply before _ _), hreport]
  rfl

/-- What is said of a program that tells whether to go on. -/
def GoesOn (r : Except GoError Bool) (done : List Event) : Prop :=
  match r with
  | .error _ => Silent done ∧ ¬ ApplyFailed done
  | .ok true => Silent done ∧ ¬ ApplyFailed done
  | .ok false => ReportsError done ∧ ApplyFailed done

theorem dryRun_goesOn (byNamespace : List (GoString × GoString)) (before : List Event) :
    ∃ b done, dryRun env args byNamespace before = (.ok b, done) ∧ GoesOn (.ok b) done := by
  induction byNamespace generalizing before with
  | nil => exact ⟨true, [], rfl, rfl, not_applyFailed_nil⟩
  | cons entry rest ih =>
    unfold dryRun
    split
    · exact ih before
    · obtain ⟨c, output, happly⟩ : ∃ c output, apply env args entry.1 entry.2 true before =
          (.ok output, [.apply c output.err]) := ⟨_, _, rfl⟩
      rw [Effects.bind_ok before happly]
      by_cases hfails : output.err.isSome = true
      · rw [if_pos hfails]
        obtain ⟨result, herror, hsend⟩ := sendResult_ok hcallback hreport true output.stdout
          output.stderr [] [] (before ++ [.apply c output.err])
        rw [Effects.bind_ok _ (wrapped_eq_ok.mpr hsend)]
        refine ⟨false, _, rfl, ⟨result, rfl, herror⟩, ?_⟩
        exact applyFailed_append.mpr (.inl (applyFailed_singleton.mpr hfails))
      · rw [if_neg hfails]
        obtain ⟨b, done, hrest, hgoesOn⟩ := ih (before ++ [.apply c output.err])
        rw [hrest]
        refine ⟨b, _, rfl, ?_⟩
        have hsame : ApplyFailed ([.apply c output.err] ++ done) ↔ ApplyFailed done := by
          rw [applyFailed_append, applyFailed_singleton]
          exact or_iff_right hfails
        cases b with
        | true => exact ⟨hgoesOn.1, hsame.not.mpr hgoesOn.2⟩
        | false => exact ⟨hgoesOn.1, hsame.mpr hgoesOn.2⟩

theorem applyCRDs_goesOn (crds : GoString) (before : List Event) :
    ∃ b done, applyCRDs env args crds before = (.ok b, done) ∧ GoesOn (.ok b) done := by
  unfold applyCRDs
  split
  · obtain ⟨c, output, happly⟩ : ∃ c output, apply env args [] crds false before =
        (.ok output, [.apply c output.err]) := ⟨_, _, rfl⟩
    rw [Effects.bind_ok before happly]
    by_cases hfails : output.err.isSome = true
    · rw [if_pos hfails]
      obtain ⟨result, herror, hsend⟩ := sendResult_ok hcallback hreport output.err.isSome [] []
        output.stdout output.stderr (before ++ [.apply c output.err])
      rw [Effects.bind_ok _ (wrapped_eq_ok.mpr hsend)]
      refine ⟨false, _, rfl, ⟨result, rfl, herror.trans hfails⟩, ?_⟩
      exact applyFailed_append.mpr (.inl (applyFailed_singleton.mpr hfails))
    · rw [if_neg hfails]
      refine ⟨true, _, rfl, rfl, ?_⟩
      rw [applyFailed_append, applyFailed_singleton]
      exact fun hfailed => hfailed.elim hfails not_applyFailed_nil
  · exact ⟨true, [], rfl, rfl, not_applyFailed_nil⟩

omit hcallback hreport in
/-- The loop over the namespaces reports nothing, and remembers whether there was an error. -/
theorem fold_applyDocs_hasErr (result : ApplyResult) (entries : List (GoString × GoString))
    (before : List Event) :
    ∃ result' done, Effects.fold (applyDocs env args) result entries before =
        (.ok result', done) ∧ Silent done ∧
      (result'.hasErr = true ↔ result.hasErr = true ∨ ApplyFailed done) := by
  induction entries generalizing result before with
  | nil => exact ⟨result, [], rfl, rfl, (or_iff_left not_applyFailed_nil).symm⟩
  | cons entry entries ih =>
    change ∃ result' done, (applyDocs env args result entry >>= fun next =>
      Effects.fold (applyDocs env args) next entries) before = _ ∧ _
    obtain ⟨next, done, hround, hsilent, hnext⟩ : ∃ next done,
        applyDocs env args result entry before = (.ok next, done) ∧ Silent done ∧
        (next.hasErr = true ↔ result.hasErr = true ∨ ApplyFailed done) := by
      unfold applyDocs
      split
      · exact ⟨result, [], rfl, rfl, (or_iff_left not_applyFailed_nil).symm⟩
      · obtain ⟨c, output, happly⟩ : ∃ c output, apply env args entry.1 entry.2 false before =
            (.ok output, [.apply c output.err]) := ⟨_, _, rfl⟩
        rw [Effects.bind_ok before happly]
        refine ⟨_, _, rfl, rfl, ?_⟩
        rw [Effects.pure_apply, List.append_nil, applyFailed_singleton, Bool.or_eq_true]
    obtain ⟨result', done', hrest, hsilent', hresult⟩ := ih next (before ++ done)
    rw [Effects.bind_ok before hround, hrest]
    refine ⟨result', done ++ done', rfl, ?_, ?_⟩
    · unfold Silent at hsilent hsilent' ⊢
      rw [results_append, hsilent, hsilent']
      rfl
    · rw [hresult, hnext, applyFailed_append, or_assoc]

/-- What is said of a program that ends with a result, or without one. -/
def Ends (failed : Prop) (r : Except GoError (Option ApplyResult)) (done : List Event) : Prop :=
  match r with
  | .error _ => Silent done ∧ failed
  | .ok none => ReportsError done ∧ ApplyFailed done
  | .ok (some result) => Silent done ∧ ¬ failed ∧ (result.hasErr = true ↔ ApplyFailed done)

theorem dryRunOrCRDs_goesOn (decoded : GoString) (before : List Event) :
    (∃ e, dryRunOrCRDs env args decoded
        (splitMutlidocYAMLIntoCRDsAndOthers env.unmarshal decoded).1 before = (.error e, []) ∧
      DocsFailed env args decoded) ∨
    ∃ b done, dryRunOrCRDs env args decoded
        (splitMutlidocYAMLIntoCRDsAndOthers env.unmarshal decoded).1 before = (.ok b, done) ∧
      GoesOn (.ok b) done := by
  unfold DocsFailed
  rcases splitMutlidoc_cases env.unmarshal decoded with hsplit | ⟨crds, others, hsplit⟩
  · rw [hsplit]
    unfold dryRunOrCRDs
    simp only
    cases hdocs : docsByNamespace env.unmarshal decoded (targetNamespaceOf env args) with
    | error e => exact .inl ⟨_, rfl, by simp [Except.isOk, Except.toBool]⟩
    | ok byNamespace =>
      right
      have hok : wrapped "failed to get docs by requested namespace"
          (Effects.ofExcept (.ok byNamespace)) before = (.ok byNamespace, []) := rfl
      rw [Effects.bind_ok before hok]
      exact dryRun_goesOn hcallback hreport (env.rangeDryRun.apply byNamespace) (before ++ [])
  · rw [hsplit]
    exact .inr (applyCRDs_goesOn hcallback hreport crds before)

/-- After the decoding: an error is one of the documents, and is not reported yet. -/
theorem applyManifests_ends (decoded : GoString) (before : List Event) :
    ∃ r done, applyManifests env args decoded before = (r, done) ∧
      Ends (DocsFailed env args decoded) r done := by
  have hfirst := dryRunOrCRDs_goesOn hcallback hreport decoded before
  unfold applyManifests
  unfold DocsFailed at hfirst ⊢
  generalize splitMutlidocYAMLIntoCRDsAndOthers env.unmarshal decoded = split at hfirst ⊢
  obtain ⟨crds, otherDocs⟩ := split
  simp only at hfirst ⊢
  rcases hfirst with ⟨e, hfirst, hfailed⟩ | ⟨b, done, hfirst, hgoesOn⟩
  · rw [Effects.bind_error before hfirst]
    exact ⟨_, _, rfl, rfl, hfailed⟩
  · rw [Effects.bind_ok before hfirst]
    cases b with
    | false =>
      refine ⟨.ok none, done, by simp, hgoesOn⟩
    | true =>
      obtain ⟨hsilent, hnone⟩ := hgoesOn
      cases hdocs : docsByNamespace env.unmarshal otherDocs (targetNamespaceOf env args) with
      | error e =>
        refine ⟨.error (e.wrap "failed to get docs by requested namespace"), done, ?_, hsilent, ?_⟩
        · rw [if_pos rfl]
          have herror : wrapped "failed to get docs by requested namespace"
              (Effects.ofExcept (.error e) : Program (List (GoString × GoString)))
              (before ++ done) =
                (.error (e.wrap "failed to get docs by requested namespace"), []) := rfl
          rw [Effects.bind_error _ herror, List.append_nil]
        · simp [Except.isOk, Except.toBool]
      | ok byNamespace =>
        obtain ⟨result, applied', hloop, hsilent', hresult⟩ :=
          @fold_applyDocs_hasErr env args {} (env.rangeApply.apply byNamespace)
            (before ++ done ++ [])
        refine ⟨.ok (some result), done ++ applied', ?_, ?_, ?_, ?_⟩
        · rw [if_pos rfl]
          have hok : wrapped "failed to get docs by requested namespace"
              (Effects.ofExcept (.ok byNamespace)) (before ++ done) = (.ok byNamespace, []) := rfl
          rw [Effects.bind_ok _ hok, Effects.bind_ok _ hloop]
          simp
        · unfold Silent at hsilent hsilent' ⊢
          rw [results_append, hsilent, hsilent']
          rfl
        · simp [Except.isOk, Except.toBool]
        · rw [hresult, applyFailed_append]
          simp [hnone]

theorem ensureResourcesPresent_ends (before : List Event) :
    ∃ r done, ensureResourcesPresent env args before = (r, done) ∧
      Ends (SetupFailed env args before) r done := by
  rcases ensureResourcesPresent_cases env args before with
    ⟨e, herror, hsetup⟩ | ⟨decoded, hdecode, hfound, heq⟩
  · refine ⟨_, _, herror, rfl, ?_⟩
    rcases hsetup with hfound | hdecode
    · exact .inl hfound
    · exact .inr (.inl hdecode)
  · obtain ⟨r, done, hrun, hends⟩ := applyManifests_ends hcallback hreport decoded before
    have hsame : SetupFailed env args before ↔ DocsFailed env args decoded := by
      have hok : (env.decodeString args.manifests).isOk := by
        rw [hdecode]
        rfl
      unfold SetupFailed
      rw [or_iff_right (not_not.mpr hfound), or_iff_right (not_not.mpr hok)]
      constructor
      · intro h
        obtain ⟨decoded', hdecode', hfailed⟩ := h
        rw [hdecode] at hdecode'
        cases hdecode'
        exact hfailed
      · intro hfailed
        exact ⟨decoded, hdecode, hfailed⟩
    refine ⟨r, done, heq.trans hrun, ?_⟩
    rw [hsame]
    exact hends

theorem deferred_error (e : GoError) (before : List Event) :
    ∃ result, result.isError = true ∧
      (deferred env args (.error e) before).2 = [.result result] := by
  obtain ⟨result, herror, hsend⟩ := sendResult_ok hcallback hreport true [] [] [] (bytes e.text)
    before
  have hreport : deferred env args (.error e) =
      Effects.attempt (sendResult env args true [] [] [] (bytes e.text)) := rfl
  rw [hreport, Effects.attempt_apply, hsend]
  exact ⟨result, herror, rfl⟩

theorem deferred_result (applied : ApplyResult) (before : List Event) :
    ∃ result, result.isError = applied.hasErr ∧
      (deferred env args (.ok (some applied)) before).2 = [.result result] := by
  obtain ⟨result, herror, hsend⟩ := sendResult_ok hcallback hreport applied.hasErr [] []
    ((ascii "\n").intercalate applied.multiStdout) ((ascii "\n").intercalate applied.multiStderr)
    before
  have hreport : deferred env args (.ok (some applied)) =
      Effects.attempt (sendResult env args applied.hasErr [] []
        ((ascii "\n").intercalate applied.multiStdout)
        ((ascii "\n").intercalate applied.multiStderr)) := rfl
  rw [hreport, Effects.attempt_apply, hsend]
  exact ⟨result, herror, rfl⟩

/-- The deferred function reports what has not been reported. -/
theorem deferred_ends {failed : Prop} {r : Except GoError (Option ApplyResult)} {done : List Event}
    (h : Ends failed r done) (before : List Event) :
    ∃ result, results (done ++ (deferred env args r before).2) = [result] ∧
      (result.isError = true ↔ failed ∨ ApplyFailed (done ++ (deferred env args r before).2)) := by
  have hsame : ∀ result, ApplyFailed (done ++ [.result result]) ↔ ApplyFailed done := by
    intro result
    rw [applyFailed_append]
    apply or_iff_left
    intro hfailed
    obtain ⟨c, e, hmem⟩ := hfailed
    cases List.mem_singleton.mp hmem
  cases r with
  | error e =>
    obtain ⟨hsilent, hfailed⟩ := h
    obtain ⟨result, herror, hdeferred⟩ := deferred_error hcallback hreport e before
    rw [hdeferred, results_append, hsilent]
    exact ⟨result, rfl, iff_of_true herror (.inl hfailed)⟩
  | ok ended =>
    cases ended with
    | none =>
      obtain ⟨⟨result, hresults, herror⟩, hfailed⟩ := h
      have hdeferred : (deferred env args (.ok none) before).2 = [] := rfl
      rw [hdeferred, List.append_nil]
      exact ⟨result, hresults, iff_of_true herror (.inr hfailed)⟩
    | some applied =>
      obtain ⟨hsilent, hno, hhasErr⟩ := h
      obtain ⟨result, herror, hdeferred⟩ := deferred_result hcallback hreport applied before
      rw [hdeferred, results_append, hsilent]
      refine ⟨result, rfl, ?_⟩
      rw [herror, hhasErr, hsame]
      exact (or_iff_right hno).symm

end

/-! ## A config map is replaced -/

def replaceOldReported : ApplicationManifests :=
  { replaceOld with resultCallback := "/api/v1/deploy/result" }

/-- Every `kubectl apply` fails. -/
def rejectingEnv : Env :=
  { sampleEnv with apply := fun _ _ => { err := some { cause := "exit status 1" } } }

theorem isCRD_cfgInA : ∀ doc ∈ splitDocs cfgInA, isCRD rejectingEnv.unmarshal doc = false := by
  decide +kernel

/-- The old config map is gone when the dry run fails. -/
theorem deploy_rejectingEnv : (deploy rejectingEnv replaceOldReported []).2 =
    [.remove (ascii "default") old false,
      .apply { targetNamespace := ascii "a", slug := "", yamlDoc := cfgInA, dryRun := true,
               wait := false, annotateSlug := false } (some { cause := "exit status 1" }),
      .result { appID := "", isError := true, dryrunStdout := [], dryrunStderr := [],
                applyStdout := [], applyStderr := [] }] := by
  decide +kernel

theorem dryRunFailed_rejectingEnv :
    DryRunFailed (deploy rejectingEnv replaceOldReported []).2 := by
  rw [deploy_rejectingEnv]
  exact ⟨_, _, rfl, List.mem_cons_of_mem _ List.mem_cons_self⟩

theorem rejected_spares_replaceOld :
    DryRunFailed (deploy rejectingEnv replaceOldReported []).2 ∧
      applied (deploy rejectingEnv replaceOldReported []).2 = [] := by
  have hdecode : rejectingEnv.decodeString replaceOldReported.manifests = .ok cfgInA := rfl
  have hfailed := dryRunFailed_rejectingEnv
  have hspares := rejected_spares rejectingEnv replaceOldReported [] hdecode isCRD_cfgInA hfailed
  exact ⟨hfailed, hspares.1⟩

theorem not_rejected_nothingDeleted :
    ¬ ∀ (env : Env) (args : ApplicationManifests) (before : List Event) (decoded : GoString),
      env.decodeString args.manifests = .ok decoded →
      (∀ doc ∈ splitDocs decoded, isCRD env.unmarshal doc = false) →
      DryRunFailed (deploy env args before).2 →
      applied (deploy env args before).2 = [] ∧
        ∀ e ∈ (deploy env args before).2, ¬ e.Deletes := by
  intro h
  have hdecode : rejectingEnv.decodeString replaceOldReported.manifests = .ok cfgInA := rfl
  have hnothing := (h rejectingEnv replaceOldReported [] cfgInA hdecode isCRD_cfgInA
    dryRunFailed_rejectingEnv).2
  rw [deploy_rejectingEnv] at hnothing
  exact hnothing _ List.mem_cons_self trivial

end Kotsadm.Operator
