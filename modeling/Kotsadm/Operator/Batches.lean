import Mathlib.Data.List.Count
import Kotsadm.Operator.Deploy

/-!
# Batches — which documents are applied together

The CRDs are one batch, and the other documents one for each namespace they ask for.  A batch
without a text is not applied.
-/

namespace Kotsadm.Operator

open GoString

/-! ## What was applied -/

/-- The namespace and the text of a `kubectl apply` that is not a dry run. -/
def applied (events : List Event) : List (GoString × GoString) :=
  events.filterMap fun
    | .apply c _ => if c.dryRun then none else some (c.targetNamespace, c.yamlDoc)
    | _ => none

@[simp] theorem applied_append (events events' : List Event) :
    applied (events ++ events') = applied events ++ applied events' := List.filterMap_append

/-- Nothing is applied by the event. -/
def Harmless : Event → Prop
  | .apply c _ => c.dryRun = true
  | _ => True

theorem applied_eq_nil {events : List Event} (h : ∀ e ∈ events, Harmless e) :
    applied events = [] := by
  unfold applied
  rw [List.filterMap_eq_nil_iff]
  intro e he
  have hharmless := h e he
  cases e with
  | apply c err => exact if_pos hharmless
  | _ => rfl

section

variable (env : Env) (args : ApplicationManifests)

theorem does_sendResult {P : Event → Prop} (h : ∀ result, P (.result result)) (isError : Bool)
    (dryrunStdout dryrunStderr applyStdout applyStderr : GoString) :
    (sendResult env args isError dryrunStdout dryrunStderr applyStdout applyStderr).Does P := by
  unfold sendResult
  split
  · exact Effects.does_pure ()
  · exact Effects.does_bind (Effects.does_act fun _ => h _) fun _ => Effects.does_throwIf _

theorem does_dryRun {P : Event → Prop} (happly : ∀ c err, c.dryRun = true → P (.apply c err))
    (hresult : ∀ result, P (.result result)) (byNamespace : List (GoString × GoString)) :
    (dryRun env args byNamespace).Does P := by
  induction byNamespace with
  | nil => exact Effects.does_pure true
  | cons entry rest ih =>
    unfold dryRun
    split
    · exact ih
    · refine Effects.does_bind (Effects.does_act fun _ => happly _ _ rfl) fun output => ?_
      split
      · exact Effects.does_bind (Effects.does_mapError (does_sendResult env args hresult _ _ _ _ _))
          fun _ => Effects.does_pure false
      · exact ih

/-- The CRDs are applied if there is a text. -/
theorem applied_applyCRDs {crds : GoString} {before done : List Event}
    (h : applyCRDs env args crds before = (.ok true, done)) :
    applied done = if crds.length > 0 then [([], crds)] else [] := by
  unfold applyCRDs at h
  split at h
  next hlength =>
    rw [if_pos hlength]
    obtain ⟨output, done₁, done₂, houtput, hrest, rfl⟩ := (Effects.bind_eq_ok before).mp h
    cases houtput
    split at hrest
    · obtain ⟨_, _, _, _, hend, _⟩ := (Effects.bind_eq_ok _).mp hrest
      cases hend
    · cases hrest
      rfl
  next hlength =>
    rw [if_neg hlength]
    cases h
    rfl

/-- The loop over the namespaces applies every text. -/
theorem fold_applyDocs (result : ApplyResult) (entries : List (GoString × GoString))
    (before : List Event) :
    ∃ result' done, Effects.fold (applyDocs env args) result entries before =
        (.ok result', done) ∧
      applied done = entries.filter fun entry => entry.2 ≠ [] := by
  induction entries generalizing result before with
  | nil => exact ⟨result, [], rfl, rfl⟩
  | cons entry entries ih =>
    obtain ⟨ns, docs⟩ := entry
    change ∃ result' done, (applyDocs env args result (ns, docs) >>= fun next =>
      Effects.fold (applyDocs env args) next entries) before = _ ∧ _
    cases docs with
    | nil =>
      have hround : applyDocs env args result (ns, []) before = (.ok result, []) := rfl
      obtain ⟨result', done, hrest, happlied⟩ := ih result (before ++ [])
      rw [Effects.bind_ok before hround, hrest]
      refine ⟨result', done, rfl, ?_⟩
      rw [happlied, List.filter_cons_of_neg (by simp)]
    | cons b docs =>
      obtain ⟨next, done, hround, happlied⟩ : ∃ next done,
          applyDocs env args result (ns, b :: docs) before = (.ok next, done) ∧
          applied done = [(ns, b :: docs)] := by
        exact ⟨_, _, rfl, rfl⟩
      obtain ⟨result', done', hrest, happlied'⟩ := ih next (before ++ done)
      rw [Effects.bind_ok before hround, hrest]
      refine ⟨result', done ++ done', rfl, ?_⟩
      rw [applied_append, happlied, happlied', List.filter_cons_of_pos (by simp)]
      rfl

end

/-! ## Batches -/

inductive Batch where
  | crds
  | docs (ns : GoString)
  deriving DecidableEq, Repr

/-- CRDs have no namespace. -/
def Batch.targetNamespace : Batch → GoString
  | .crds => []
  | .docs ns => ns

/-- The batch of a document. -/
def batchOf (unmarshal : Unmarshal) (parsed : GoString → OverlySimpleGVKWithName)
    (defaultNamespace doc : GoString) : Batch :=
  if isCRD unmarshal doc then .crds else .docs ((parsed doc).namespaceOr defaultNamespace)

section

variable (batch : GoString → Batch) (docs : List GoString)

/-- The documents of a batch, in the order of the text. -/
def inBatch (b : Batch) : List GoString := docs.filter fun doc => batch doc = b

theorem inBatch_sublist (b : Batch) : (inBatch batch docs b).Sublist docs := List.filter_sublist

/-- The calls are one for each batch with a text. -/
structure Hands (batches : List Batch) (calls : List (GoString × GoString)) : Prop where
  distinct : batches.Nodup
  mem : ∀ b, b ∈ batches ↔ joinDocs (inBatch batch docs b) ≠ []
  calls : calls = batches.map fun b => (b.targetNamespace, joinDocs (inBatch batch docs b))

/-- How often a document is in distinct batches. -/
theorem count_batches {batches : List Batch} (h : batches.Nodup) (doc : GoString) :
    (batches.flatMap (inBatch batch docs)).count doc =
      if batch doc ∈ batches then docs.count doc else 0 := by
  induction batches with
  | nil => rfl
  | cons b batches ih =>
    rw [List.nodup_cons] at h
    rw [List.flatMap_cons, List.count_append, ih h.2]
    unfold inBatch
    by_cases hb : batch doc = b
    · have hno : batch doc ∉ batches := hb ▸ h.1
      rw [if_neg hno, if_pos (List.mem_cons.mpr (.inl hb)), List.count_filter (by simpa using hb)]
      rfl
    · have hzero : (docs.filter fun doc => batch doc = b).count doc = 0 := by
        rw [List.count_eq_zero, List.mem_filter, decide_eq_true_iff]
        exact fun hmem => hb hmem.2
      have hmem : batch doc ∈ b :: batches ↔ batch doc ∈ batches := by
        rw [List.mem_cons]
        exact or_iff_right hb
      rw [hzero, Nat.zero_add]
      exact if_congr hmem.symm rfl rfl

end

theorem joinDocs_eq_nil {docs : List GoString} :
    joinDocs docs = [] ↔ docs = [] ∨ docs = [[]] := by
  unfold joinDocs
  cases docs with
  | nil => simp
  | cons doc docs =>
    cases docs with
    | nil => simp
    | cons next docs =>
      rw [List.intercalate_cons_cons]
      simp [separator_ne_nil]

/-! ### The namespaces -/

section

variable {unmarshal : Unmarshal} {parsed : GoString → OverlySimpleGVKWithName}
  {defaultNamespace : GoString}

/-- The documents of a namespace. -/
def inNamespace (parsed : GoString → OverlySimpleGVKWithName) (defaultNamespace : GoString)
    (docs : List GoString) (ns : GoString) : List GoString :=
  docs.filter fun doc => (parsed doc).namespaceOr defaultNamespace = ns

/-- The entries with a text, in whatever order the map is walked. -/
theorem namespaces_of_docsByNamespace {multidoc : GoString}
    (hparse : Parses unmarshal parsed (splitDocs multidoc)) (o : Reorder (GoString × GoString))
    {byNamespace : List (GoString × GoString)}
    (h : docsByNamespace unmarshal multidoc defaultNamespace = .ok byNamespace) :
    ∃ namespaces : List GoString, namespaces.Nodup ∧
      (∀ ns, ns ∈ namespaces ↔
        joinDocs (inNamespace parsed defaultNamespace (splitDocs multidoc) ns) ≠ []) ∧
      (o.apply byNamespace).filter (fun entry => entry.2 ≠ []) = namespaces.map fun ns =>
        (ns, joinDocs (inNamespace parsed defaultNamespace (splitDocs multidoc) ns)) := by
  obtain ⟨groups, hgroups, hdistinct, hmem⟩ := docsByNamespace_eq defaultNamespace hparse
  rw [h] at hgroups
  cases hgroups
  have hentry : ∀ entry ∈ o.apply (groups.map fun group => (group.1, joinDocs group.2)),
      entry.2 = joinDocs (inNamespace parsed defaultNamespace (splitDocs multidoc) entry.1) := by
    intro entry hentry
    rw [Reorder.mem_apply] at hentry
    obtain ⟨⟨ns, docs⟩, hgroup, rfl⟩ := List.mem_map.mp hentry
    rw [((hmem ns docs).mp hgroup).2]
    rfl
  refine ⟨((o.apply (groups.map fun group => (group.1, joinDocs group.2))).filter
    fun entry => entry.2 ≠ []).map Prod.fst, ?_, ?_, ?_⟩
  · have hperm := o.map_perm Prod.fst (groups.map fun group => (group.1, joinDocs group.2))
    rw [List.map_map] at hperm
    exact (hperm.nodup_iff.mpr hdistinct).sublist (List.filter_sublist.map _)
  · intro ns
    rw [List.mem_map]
    constructor
    · intro hns
      obtain ⟨entry, hfiltered, rfl⟩ := hns
      rw [List.mem_filter, decide_eq_true_iff] at hfiltered
      rw [← hentry entry hfiltered.1]
      exact hfiltered.2
    · intro htext
      have hsome : ∃ doc ∈ splitDocs multidoc, (parsed doc).namespaceOr defaultNamespace = ns := by
        by_contra hnone
        apply htext
        rw [joinDocs_eq_nil]
        left
        unfold inNamespace
        rw [List.filter_eq_nil_iff]
        intro doc hdoc hns
        exact hnone ⟨doc, hdoc, of_decide_eq_true hns⟩
      refine ⟨(ns, joinDocs (inNamespace parsed defaultNamespace (splitDocs multidoc) ns)), ?_, rfl⟩
      rw [List.mem_filter, decide_eq_true_iff, Reorder.mem_apply, List.mem_map]
      exact ⟨⟨(ns, _), (hmem ns _).mpr ⟨hsome, rfl⟩, rfl⟩, htext⟩
  · rw [List.map_map]
    refine (List.map_id _).symm.trans (List.map_congr_left fun entry hfiltered => ?_)
    change entry = (entry.1, _)
    rw [← hentry entry (List.mem_of_mem_filter hfiltered)]

/-- Without any document there is still the empty one, which is not applied. -/
theorem docsByNamespace_nil {byNamespace : List (GoString × GoString)}
    (h : docsByNamespace unmarshal [] defaultNamespace = .ok byNamespace) :
    ∀ entry ∈ byNamespace, entry.2 = [] := by
  have hsplit : splitDocs [] = [[]] := rfl
  unfold docsByNamespace at h
  rw [hsplit, groupDocs] at h
  cases hdoc : unmarshal [] with
  | error e =>
    rw [hdoc] at h
    cases h
  | ok o =>
    rw [hdoc] at h
    cases h
    intro entry hentry
    obtain ⟨⟨ns, docs⟩, hgroup, rfl⟩ := List.mem_map.mp hentry
    have hlookup := Grouping.mem_pairs.mp hgroup
    rw [Grouping.lookup_append] at hlookup
    split at hlookup
    · cases hlookup
      rfl
    · cases hlookup

end

/-! ## ensureResourcesPresent -/

section

variable {env : Env} {args : ApplicationManifests} {parsed : GoString → OverlySimpleGVKWithName}

/-- The run, when it gets past the dry run or the CRDs. -/
theorem applyManifests_ok {decoded : GoString} {before done : List Event} {result : ApplyResult}
    (h : applyManifests env args decoded before = (.ok (some result), done)) :
    ∃ byNamespace done₁ done₂,
      docsByNamespace env.unmarshal
        (splitMutlidocYAMLIntoCRDsAndOthers env.unmarshal decoded).2 (targetNamespaceOf env args) =
          .ok byNamespace ∧
      applied done₁ = ((splitMutlidocYAMLIntoCRDsAndOthers env.unmarshal decoded).1.filter
        fun crds => crds ≠ []).toList.map (fun crds => ([], crds)) ∧
      applied done₂ = (env.rangeApply.apply byNamespace).filter (fun entry => entry.2 ≠ []) ∧
      done = done₁ ++ done₂ := by
  unfold applyManifests at h
  generalize splitMutlidocYAMLIntoCRDsAndOthers env.unmarshal decoded = split at h ⊢
  obtain ⟨crds, otherDocs⟩ := split
  obtain ⟨goOn, done₁, rest', hgoOn, hend, rfl⟩ := (Effects.bind_eq_ok _).mp h
  cases goOn with
  | false => cases hend
  | true =>
    obtain ⟨byNamespace, setup, done₂, hgroups, hloops, rfl⟩ := (Effects.bind_eq_ok _).mp hend
    obtain ⟨hby, rfl⟩ := Prod.mk.inj (wrapped_eq_ok.mp hgroups)
    obtain ⟨result', loop, ending, hloop, hreturn, rfl⟩ := (Effects.bind_eq_ok _).mp hloops
    cases hreturn
    obtain ⟨result'', done', hrun, happlied⟩ := fold_applyDocs env args {}
      (env.rangeApply.apply byNamespace) (before ++ done₁ ++ [])
    have hsame := (Prod.mk.inj (hrun.symm.trans hloop)).2
    rw [hsame] at happlied
    refine ⟨byNamespace, done₁, loop, hby, ?_, happlied, by simp⟩
    cases crds with
    | none =>
      obtain ⟨docs, setup, dry, hdocs, hdry, rfl⟩ := (Effects.bind_eq_ok _).mp hgoOn
      obtain ⟨-, rfl⟩ := Prod.mk.inj (wrapped_eq_ok.mp hdocs)
      have hharmless := does_dryRun env args (P := Harmless) (fun _ _ hc => hc) (fun _ => trivial)
        (env.rangeDryRun.apply docs) (before ++ [])
      rw [hdry] at hharmless
      exact applied_eq_nil hharmless
    | some crds =>
      rw [applied_applyCRDs env args hgoOn]
      cases crds with
      | nil => rfl
      | cons b crds => rfl

variable {decoded : GoString} {before done : List Event} {result : ApplyResult}

/-- The documents that are not CRDs, in the batch of their namespace. -/
theorem inBatch_docs (ns : GoString) (docs : List GoString) :
    inBatch (batchOf env.unmarshal parsed (targetNamespaceOf env args)) docs (.docs ns) =
      inNamespace parsed (targetNamespaceOf env args)
        (docs.filter fun doc => !isCRD env.unmarshal doc) ns := by
  unfold inBatch inNamespace
  rw [List.filter_filter]
  apply List.filter_congr
  intro doc _
  unfold batchOf
  cases isCRD env.unmarshal doc <;> simp

theorem inBatch_crds (docs : List GoString) :
    inBatch (batchOf env.unmarshal parsed (targetNamespaceOf env args)) docs .crds =
      docs.filter fun doc => isCRD env.unmarshal doc := by
  unfold inBatch
  apply List.filter_congr
  intro doc _
  unfold batchOf
  cases isCRD env.unmarshal doc <;> simp

/-- What is left of the text are the documents that are no CRDs. -/
theorem others_eq (unmarshal : Unmarshal) (decoded : GoString) :
    (splitMutlidocYAMLIntoCRDsAndOthers unmarshal decoded).2 =
      joinDocs ((splitDocs decoded).filter fun doc => !isCRD unmarshal doc) := by
  unfold splitMutlidocYAMLIntoCRDsAndOthers
  by_cases hcrds : ((splitDocs decoded).filter fun doc => isCRD unmarshal doc).length = 0
  · -- without a CRD the text is kept as it is
    have hall : ((splitDocs decoded).filter fun doc => !isCRD unmarshal doc) =
        splitDocs decoded := by
      rw [List.filter_eq_self]
      intro doc hdoc
      have hnone := List.filter_eq_nil_iff.mp (List.length_eq_zero_iff.mp hcrds) doc hdoc
      simpa using hnone
    simp only [if_pos hcrds]
    rw [hall, joinDocs_splitDocs]
  · simp only [if_neg hcrds]

/-- The namespaces that something is applied in. -/
theorem namespaces_of_others (hparse : Parses env.unmarshal parsed (splitDocs decoded))
    {byNamespace : List (GoString × GoString)}
    (h : docsByNamespace env.unmarshal
      (splitMutlidocYAMLIntoCRDsAndOthers env.unmarshal decoded).2 (targetNamespaceOf env args) =
        .ok byNamespace) :
    ∃ namespaces : List GoString, namespaces.Nodup ∧
      (∀ ns, ns ∈ namespaces ↔ joinDocs (inBatch (batchOf env.unmarshal parsed
        (targetNamespaceOf env args)) (splitDocs decoded) (.docs ns)) ≠ []) ∧
      (env.rangeApply.apply byNamespace).filter (fun entry => entry.2 ≠ []) =
        namespaces.map fun ns => (ns, joinDocs (inBatch (batchOf env.unmarshal parsed
          (targetNamespaceOf env args)) (splitDocs decoded) (.docs ns))) := by
  simp only [inBatch_docs]
  by_cases hothers : ((splitDocs decoded).filter fun doc => !isCRD env.unmarshal doc) = []
  -- all documents are CRDs, and what is left of the text is empty
  · refine ⟨[], List.nodup_nil, ?_, ?_⟩
    · intro ns
      rw [hothers]
      simp [inNamespace, joinDocs]
    · rw [List.map_nil, List.filter_eq_nil_iff]
      rw [others_eq, hothers] at h
      intro entry hentry
      have htext := docsByNamespace_nil h entry (env.rangeApply.mem_apply.mp hentry)
      simp [htext]
  · have hsplit : splitDocs (splitMutlidocYAMLIntoCRDsAndOthers env.unmarshal decoded).2 =
        (splitDocs decoded).filter fun doc => !isCRD env.unmarshal doc := by
      rw [others_eq]
      exact splitDocs_joinDocs List.filter_sublist hothers
    have hparse' : Parses env.unmarshal parsed
        (splitDocs (splitMutlidocYAMLIntoCRDsAndOthers env.unmarshal decoded).2) := by
      rw [hsplit]
      exact fun doc hdoc => hparse doc (List.mem_of_mem_filter hdoc)
    rw [← hsplit]
    exact namespaces_of_docsByNamespace hparse' env.rangeApply h

/-- The batch of the CRDs, when it has a text. -/
def crdBatches (unmarshal : Unmarshal) (decoded : GoString) : List Batch :=
  if joinDocs ((splitDocs decoded).filter fun doc => isCRD unmarshal doc) = [] then [] else [.crds]

/-- The call with the CRDs. -/
theorem calls_crdBatches :
    ((splitMutlidocYAMLIntoCRDsAndOthers env.unmarshal decoded).1.filter
        fun crds => crds ≠ []).toList.map (fun crds => (([] : GoString), crds)) =
      (crdBatches env.unmarshal decoded).map fun b => (b.targetNamespace,
        joinDocs (inBatch (batchOf env.unmarshal parsed (targetNamespaceOf env args))
          (splitDocs decoded) b)) := by
  unfold splitMutlidocYAMLIntoCRDsAndOthers crdBatches
  by_cases hnone : ((splitDocs decoded).filter fun doc => isCRD env.unmarshal doc).length = 0
  · simp only [if_pos hnone]
    rw [List.length_eq_zero_iff.mp hnone]
    rfl
  · simp only [if_neg hnone]
    by_cases htext : joinDocs ((splitDocs decoded).filter fun doc => isCRD env.unmarshal doc) = []
    · simp [htext]
    · simp [htext, Batch.targetNamespace, inBatch_crds]

/-- The batches are those with a text. -/
theorem mem_batches {namespaces : List GoString}
    (hmem : ∀ ns, ns ∈ namespaces ↔ joinDocs (inBatch (batchOf env.unmarshal parsed
      (targetNamespaceOf env args)) (splitDocs decoded) (.docs ns)) ≠ []) (b : Batch) :
    b ∈ crdBatches env.unmarshal decoded ++ namespaces.map Batch.docs ↔
      joinDocs (inBatch (batchOf env.unmarshal parsed (targetNamespaceOf env args))
        (splitDocs decoded) b) ≠ [] := by
  unfold crdBatches
  rw [List.mem_append, List.mem_map]
  cases b with
  | crds =>
    rw [inBatch_crds]
    split
    next h => simp [h]
    next h => simp [h]
  | docs ns =>
    rw [← hmem ns]
    split <;> simp

theorem nodup_batches {unmarshal : Unmarshal} {namespaces : List GoString}
    (hdistinct : namespaces.Nodup) :
    (crdBatches unmarshal decoded ++ namespaces.map Batch.docs).Nodup := by
  have hnodup : (namespaces.map Batch.docs).Nodup :=
    hdistinct.map fun ns ns' h => Batch.docs.inj h
  unfold crdBatches
  split
  · exact hnodup
  · refine List.nodup_cons.mpr ⟨?_, hnodup⟩
    intro h
    obtain ⟨ns, -, hns⟩ := List.mem_map.mp h
    cases hns

/-- What was applied, by batches. -/
theorem hands_ensureResourcesPresent (hdecode : env.decodeString args.manifests = .ok decoded)
    (hparse : Parses env.unmarshal parsed (splitDocs decoded))
    (hrun : ensureResourcesPresent env args before = (.ok (some result), done)) :
    ∃ batches, Hands (batchOf env.unmarshal parsed (targetNamespaceOf env args))
      (splitDocs decoded) batches (applied done) := by
  -- the run got to the manifests
  have hmanifests : applyManifests env args decoded before = (.ok (some result), done) := by
    rcases ensureResourcesPresent_cases env args before with
      ⟨e, herror, -⟩ | ⟨decoded', hok, -, heq⟩
    · rw [herror] at hrun
      cases hrun
    · rw [hdecode] at hok
      cases hok
      exact heq.symm.trans hrun
  obtain ⟨byNamespace, done₁, done₂, hby, hcrds, hothers, rfl⟩ := applyManifests_ok hmanifests
  obtain ⟨namespaces, hdistinct, hmem, hcalls⟩ := namespaces_of_others hparse hby
  refine ⟨crdBatches env.unmarshal decoded ++ namespaces.map Batch.docs,
    nodup_batches hdistinct, mem_batches hmem, ?_⟩
  -- the CRDs come first
  rw [applied_append, hcrds, calls_crdBatches, hothers, hcalls, List.map_append, List.map_map]
  rfl

/-- **No document is lost or applied twice.**  Each one is applied in its own batch, once for each
time it is in the text, unless the batch has no other document and it is the empty one; a batch is
split again into its documents. -/
theorem applied_once (hdecode : env.decodeString args.manifests = .ok decoded)
    (hparse : Parses env.unmarshal parsed (splitDocs decoded))
    (hrun : ensureResourcesPresent env args before = (.ok (some result), done)) :
    let batch := batchOf env.unmarshal parsed (targetNamespaceOf env args)
    let docs := splitDocs decoded
    ∃ batches, Hands batch docs batches (applied done) ∧
      (∀ b ∈ batches, splitDocs (joinDocs (inBatch batch docs b)) = inBatch batch docs b) ∧
      ∀ doc, ((applied done).flatMap fun call => splitDocs call.2).count doc =
        if inBatch batch docs (batch doc) = [[]] then 0 else docs.count doc := by
  intro batch docs
  obtain ⟨batches, hhands⟩ := hands_ensureResourcesPresent hdecode hparse hrun
  have hsplit : ∀ b ∈ batches,
      splitDocs (joinDocs (inBatch batch docs b)) = inBatch batch docs b := by
    intro b hb
    apply splitDocs_joinDocs (inBatch_sublist batch docs b)
    intro hnil
    apply (hhands.mem b).mp hb
    rw [hnil]
    rfl
  refine ⟨batches, hhands, hsplit, ?_⟩
  intro doc
  -- what was applied, split again, is the documents batch by batch
  have hflat : ((applied done).flatMap fun call => splitDocs call.2) =
      batches.flatMap (inBatch batch docs) := by
    rw [hhands.calls, List.flatMap_map]
    exact List.flatMap_congr hsplit
  rw [hflat, count_batches batch docs hhands.distinct]
  by_cases hempty : inBatch batch docs (batch doc) = [[]]
  · have hno : batch doc ∉ batches := by
      rw [hhands.mem, hempty]
      exact fun h => h rfl
    rw [if_pos hempty, if_neg hno]
  · rw [if_neg hempty]
    split
    next => rfl
    next hno =>
      -- its batch has no text, so it has no documents
      rw [hhands.mem, not_not, joinDocs_eq_nil] at hno
      have hnil := hno.resolve_right hempty
      have hcount : docs.count doc = 0 := by
        rw [List.count_eq_zero]
        intro hdoc
        have hmem : doc ∈ inBatch batch docs (batch doc) := by
          unfold inBatch
          rw [List.mem_filter, decide_eq_true_iff]
          exact ⟨hdoc, rfl⟩
        rw [hnil] at hmem
        cases hmem
      rw [hcount]

end

/-- A config map that asks for the namespace `a`. -/
def applyCfgInA : ApplicationManifests where
  manifests := base64OfCfgInA

/-- It is applied there. -/
theorem applied_once_cfgInA :
    applied (ensureResourcesPresent sampleEnv applyCfgInA []).2 = [(ascii "a", cfgInA)] ∧
    ∃ batches, Hands (batchOf sampleEnv.unmarshal parseConfigMap (ascii "default")) [cfgInA] batches
      [(ascii "a", cfgInA)] := by
  have hok : (ensureResourcesPresent sampleEnv applyCfgInA []).1 = .ok (some {}) := by
    decide +kernel
  have happlied : applied (ensureResourcesPresent sampleEnv applyCfgInA []).2 =
      [(ascii "a", cfgInA)] := by decide +kernel
  have hrun := Effects.eq_of_fst [] hok
  have hdecode : sampleEnv.decodeString applyCfgInA.manifests = .ok cfgInA := rfl
  have hsplit : splitDocs cfgInA = [cfgInA] := by decide
  obtain ⟨batches, hhands, -⟩ := applied_once hdecode (parses_sampleEnv _) hrun
  rw [hsplit, happlied] at hhands
  exact ⟨happlied, batches, hhands⟩

/-- The empty text has one document, and nothing is applied. -/
theorem not_applied_empty :
    ¬ ∀ (env : Env) (args : ApplicationManifests) (parsed : GoString → OverlySimpleGVKWithName)
      (decoded : GoString) (before done : List Event) (result : ApplyResult),
      env.decodeString args.manifests = .ok decoded →
      Parses env.unmarshal parsed (splitDocs decoded) →
      ensureResourcesPresent env args before = (.ok (some result), done) →
      ∀ doc, ((applied done).flatMap fun call => splitDocs call.2).count doc =
        (splitDocs decoded).count doc := by
  intro h
  have hok : (ensureResourcesPresent sampleEnv {} []).1 = .ok (some {}) := by decide +kernel
  have happlied : applied (ensureResourcesPresent sampleEnv {} []).2 = [] := by decide +kernel
  have hrun := Effects.eq_of_fst [] hok
  have hcount := h sampleEnv {} parseConfigMap [] [] _ _ rfl (parses_sampleEnv _) hrun []
  rw [happlied] at hcount
  revert hcount
  decide

end Kotsadm.Operator
