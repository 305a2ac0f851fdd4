import Kotsadm.Lib.Deferred
import Kotsadm.Lib.Throws
import Kotsadm.Lib.GoText
import Kotsadm.Lib.Grouping
import Kotsadm.Lib.Separator

/-!
# Manifests — multi-document YAML in the operator

The documents of a manifest text are what stands between lines `---`.  They are told apart, put into
batches and joined again, by what `yaml.Unmarshal` finds in each of them.
-/

namespace Kotsadm.Operator

open GoString

structure OverlySimpleMetadata where
  name : GoString := []
  ns : GoString := []
  deriving DecidableEq, Repr

structure OverlySimpleGVKWithName where
  apiVersion : GoString := []
  kind : GoString := []
  metadata : OverlySimpleMetadata := {}
  deriving DecidableEq, Repr

/-- `yaml.Unmarshal` into an `OverlySimpleGVKWithName`. -/
abbrev Unmarshal := GoString → Except GoError OverlySimpleGVKWithName

/-! ## gvkn.go -/

/-- What is hashed: the namespace is not in it. -/
def OverlySimpleGVKWithName.joined (o : OverlySimpleGVKWithName) : GoString :=
  o.apiVersion ++ ascii "-" ++ o.kind ++ ascii "-" ++ o.metadata.name

def getGVKWithName (unmarshal : Unmarshal) (sha256 : GoString → GoString) (content : GoString) :
    GoString :=
  match unmarshal content with
  | .error _ => []
  | .ok o => sha256 o.joined

def isCRD (unmarshal : Unmarshal) (content : GoString) : Bool :=
  match unmarshal content with
  | .error _ => false
  | .ok o =>
    o.apiVersion = ascii "apiextensions.k8s.io/v1beta1" ∧ o.kind = ascii "CustomResourceDefinition"

/-! ## doc.go -/

def separator : GoString := ascii "\n---\n"

/-- `strings.Split` -/
def splitDocs (multidoc : GoString) : List GoString := Separator.splitAt separator multidoc

/-- `strings.Join` -/
def joinDocs (docs : List GoString) : GoString := separator.intercalate docs

/-- `none` is the nil slice: without a CRD the text is not touched. -/
def splitMutlidocYAMLIntoCRDsAndOthers (unmarshal : Unmarshal) (multidoc : GoString) :
    Option GoString × GoString :=
  let crds := (splitDocs multidoc).filter fun doc => isCRD unmarshal doc
  let other := (splitDocs multidoc).filter fun doc => !isCRD unmarshal doc
  if crds.length = 0 then (none, multidoc) else (some (joinDocs crds), joinDocs other)

theorem splitMutlidoc_cases (unmarshal : Unmarshal) (multidoc : GoString) :
    splitMutlidocYAMLIntoCRDsAndOthers unmarshal multidoc = (none, multidoc) ∨
    ∃ crds others,
      splitMutlidocYAMLIntoCRDsAndOthers unmarshal multidoc = (some crds, others) := by
  unfold splitMutlidocYAMLIntoCRDsAndOthers
  by_cases hnone : ((splitDocs multidoc).filter fun doc => isCRD unmarshal doc).length = 0
  · exact .inl (if_pos hnone)
  · exact .inr ⟨_, _, if_neg hnone⟩

/-- The namespace that a document asks for. -/
def OverlySimpleGVKWithName.namespaceOr (o : OverlySimpleGVKWithName)
    (defaultNamespace : GoString) : GoString :=
  if o.metadata.ns = [] then defaultNamespace else o.metadata.ns

/-- The loop over the documents. -/
def groupDocs (unmarshal : Unmarshal) (defaultNamespace : GoString)
    (byNamespace : Grouping.Map GoString (List GoString)) :
    List GoString → Except GoError (Grouping.Map GoString (List GoString))
  | [] => .ok byNamespace
  | doc :: docs => do
    let o ← (unmarshal doc).wrapError "failed to unmarshal doc to look for namespace"
    let byNamespace := Grouping.append byNamespace (o.namespaceOr defaultNamespace) doc
    groupDocs unmarshal defaultNamespace byNamespace docs

/-- The entries of the resulting map. -/
def docsByNamespace (unmarshal : Unmarshal) (multidoc defaultNamespace : GoString) :
    Except GoError (List (GoString × GoString)) := do
  let byNamespace ← groupDocs unmarshal defaultNamespace ∅ (splitDocs multidoc)
  return (Grouping.pairs byNamespace).map fun entry => (entry.1, joinDocs entry.2)

/-! ## The documents again -/

theorem separator_ne_nil : separator ≠ [] := by decide

theorem joinDocs_splitDocs (multidoc : GoString) : joinDocs (splitDocs multidoc) = multidoc :=
  Separator.intercalate_splitAt separator_ne_nil multidoc

theorem splitDocs_joinDocs {multidoc : GoString} {docs : List GoString}
    (hsub : docs.Sublist (splitDocs multidoc)) (hdocs : docs ≠ []) :
    splitDocs (joinDocs docs) = docs :=
  Separator.splitAt_sublist separator_ne_nil hsub hdocs

example : splitDocs (ascii "a\n---\n\n---\nb---\n") = [ascii "a", [], ascii "b---\n"] := by decide

/-- All documents parse, each as `parsed` says. -/
def Parses (unmarshal : Unmarshal) (parsed : GoString → OverlySimpleGVKWithName)
    (docs : List GoString) : Prop := ∀ doc ∈ docs, unmarshal doc = .ok (parsed doc)

section

variable {unmarshal : Unmarshal} {parsed : GoString → OverlySimpleGVKWithName}

theorem groupDocs_eq (defaultNamespace : GoString) {docs : List GoString}
    (h : Parses unmarshal parsed docs) (byNamespace : Grouping.Map GoString (List GoString)) :
    groupDocs unmarshal defaultNamespace byNamespace docs =
      .ok (docs.foldl (fun m doc =>
        Grouping.append m ((parsed doc).namespaceOr defaultNamespace) doc) byNamespace) := by
  induction docs generalizing byNamespace with
  | nil => rfl
  | cons doc docs ih =>
    have hdoc := h doc List.mem_cons_self
    rw [groupDocs, hdoc, List.foldl_cons]
    exact ih (fun other hother => h other (List.mem_cons_of_mem doc hother)) _

/-- Every namespace that a document asks for comes with its documents, in their order. -/
theorem docsByNamespace_eq {multidoc : GoString} (defaultNamespace : GoString)
    (h : Parses unmarshal parsed (splitDocs multidoc)) :
    ∃ groups : List (GoString × List GoString),
      docsByNamespace unmarshal multidoc defaultNamespace =
        .ok (groups.map fun group => (group.1, joinDocs group.2)) ∧
      (groups.map Prod.fst).Nodup ∧
      ∀ ns docs, (ns, docs) ∈ groups ↔
        (∃ doc ∈ splitDocs multidoc, (parsed doc).namespaceOr defaultNamespace = ns) ∧
        docs = (splitDocs multidoc).filter fun doc =>
          (parsed doc).namespaceOr defaultNamespace = ns := by
  refine ⟨Grouping.pairs (Grouping.groupBy (fun doc => (parsed doc).namespaceOr defaultNamespace)
    (splitDocs multidoc)), ?_, Grouping.nodup_pairs _, fun ns docs => Grouping.mem_pairs_groupBy⟩
  unfold docsByNamespace
  rw [groupDocs_eq defaultNamespace h]
  rfl

end

end Kotsadm.Operator
