import Kotsadm.AppState.ResourceStates
import Kotsadm.Lib.GoSort
import Mathlib.Data.List.Induction
import Mathlib.Data.Prod.Lex
import Mathlib.Data.String.Basic

/-!
# CanonicalOrder — the order of the reported resource states

`ResourceStates.Less` is meant to compare kinds, then names, then namespaces.  It goes on to the
next field when a kind or a name is greater, not only when it is equal, and so it puts each of two
resources before the other one when the fields disagree.
-/

namespace Kotsadm.AppState

/-! ## The lexicographic order -/

/-- Kind, name and namespace, which are compared one after the other. -/
def ResourceState.position (r : ResourceState) : String ×ₗ String ×ₗ String :=
  toLex (r.kind, toLex (r.name, r.ns))

def StatusInformer.position (i : StatusInformer) : String ×ₗ String ×ₗ String :=
  toLex (i.kind, toLex (i.name, i.ns))

/-- `Less` is the strict lexicographic order of the entries of the informers. -/
def LessIsLexicographic (informers : List StatusInformer) : Prop :=
  ∀ a b : ResourceState, a.key ∈ informers.map StatusInformer.key →
    b.key ∈ informers.map StatusInformer.key → (less a b = true ↔ a.position < b.position)

/-- What `buildResourceStatesFromStatusInformers` makes of the informers, after
`resourceStatesApplyNew` for each of the received states. -/
def statesAfter (sort : Reorder ResourceState) (informers : List StatusInformer)
    (received : List ResourceState) : List ResourceState :=
  received.foldl (fun resourceStates r => (resourceStatesApplyNew sort resourceStates r).1)
    (buildResourceStatesFromStatusInformers sort informers)

/-- The states do not depend on the order of the informers, and they are sorted. -/
def Canonical (sort : Reorder ResourceState) (informers : List StatusInformer) : Prop :=
  ∀ informers', informers'.Perm informers → ∀ received,
    statesAfter sort informers' received = statesAfter sort informers received ∧
    (statesAfter sort informers received).Pairwise fun a b => a.position < b.position

/-- No name and no namespace is out of the order of the informers. -/
def Agrees (informers : List StatusInformer) : Prop :=
  ∀ i ∈ informers, ∀ j ∈ informers, i.position < j.position → ¬ j.name < i.name ∧ ¬ j.ns < i.ns

instance (informers : List StatusInformer) : Decidable (Agrees informers) :=
  inferInstanceAs (Decidable (∀ i ∈ informers, ∀ j ∈ informers,
    i.position < j.position → ¬ j.name < i.name ∧ ¬ j.ns < i.ns))

/-! ## Less -/

section

variable {a b : ResourceState} {i j : StatusInformer}

theorem less_eq_true : less a b = true ↔ a.kind < b.kind ∨ a.name < b.name ∨ a.ns < b.ns := by
  unfold less
  rw [Bool.or_eq_true, Bool.or_eq_true, decide_eq_true_iff, decide_eq_true_iff,
    decide_eq_true_iff, or_assoc]

theorem position_lt : a.position < b.position ↔
    a.kind < b.kind ∨ a.kind = b.kind ∧ (a.name < b.name ∨ a.name = b.name ∧ a.ns < b.ns) := by
  unfold ResourceState.position
  rw [Prod.Lex.toLex_lt_toLex, Prod.Lex.toLex_lt_toLex]

/-- `Less` misses no pair. -/
theorem less_of_position_lt (h : a.position < b.position) : less a b = true := by
  rw [less_eq_true]
  rcases position_lt.mp h with hkind | ⟨-, hname | ⟨-, hns⟩⟩
  · exact .inl hkind
  · exact .inr (.inl hname)
  · exact .inr (.inr hns)

theorem position_eq_iff : a.position = b.position ↔ a.key = b.key := by
  unfold ResourceState.position ResourceState.key
  rw [toLex_inj, Prod.mk.injEq, toLex_inj, Prod.mk.injEq, Prod.mk.injEq, Prod.mk.injEq,
    and_comm (a := a.name = b.name)]

theorem key_eq_iff : a.key = i.key ↔ a.kind = i.kind ∧ a.ns = i.ns ∧ a.name = i.name := by
  unfold ResourceState.key StatusInformer.key
  rw [Prod.mk.injEq, Prod.mk.injEq]

theorem position_of_key (h : a.key = i.key) : a.position = i.position := by
  obtain ⟨hkind, hns, hname⟩ := key_eq_iff.mp h
  unfold ResourceState.position StatusInformer.position
  rw [hkind, hns, hname]

end

/-! ## The states are sorted -/

section

variable {sort : Reorder ResourceState} {informers : List StatusInformer}
  {received states : List ResourceState}

theorem lessIsLexicographic_of_agrees (h : Agrees informers) : LessIsLexicographic informers := by
  intro a b ha hb
  refine ⟨fun hless => ?_, less_of_position_lt⟩
  obtain ⟨i, hi, hkeyA⟩ := List.mem_map.mp ha
  obtain ⟨j, hj, hkeyB⟩ := List.mem_map.mp hb
  obtain ⟨hkindA, hnsA, hnameA⟩ := key_eq_iff.mp hkeyA.symm
  obtain ⟨hkindB, hnsB, hnameB⟩ := key_eq_iff.mp hkeyB.symm
  rcases lt_trichotomy a.position b.position with hlt | heq | hgt
  · exact hlt
  · -- of one entry none of the fields is less
    have hkey := position_eq_iff.mp heq
    unfold ResourceState.key at hkey
    rw [Prod.mk.injEq, Prod.mk.injEq] at hkey
    obtain ⟨hkind, hns, hname⟩ := hkey
    rw [less_eq_true, hkind, hns, hname] at hless
    exact absurd hless (by rintro (h | h | h) <;> exact lt_irrefl _ h)
  · have hpos : j.position < i.position := by
      rw [← position_of_key hkeyA.symm, ← position_of_key hkeyB.symm]
      exact hgt
    obtain ⟨hname, hns⟩ := h j hj i hi hpos
    rw [less_eq_true, hnameA, hnameB, hnsA, hnsB] at hless
    rcases hless with hkind | hname' | hns'
    · rcases position_lt.mp hgt with hkind' | ⟨hkind', -⟩
      · exact absurd hkind (lt_asymm hkind')
      · exact absurd hkind (hkind' ▸ lt_irrefl _)
    · exact absurd hname' hname
    · exact absurd hns' hns

theorem strictWeak_of_lexicographic (h : LessIsLexicographic informers)
    (hkeys : ∀ r ∈ states, r.key ∈ informers.map StatusInformer.key) :
    GoSort.StrictWeak less states where
  asymm a ha b hb hless := by
    rw [h a b (hkeys a ha) (hkeys b hb)] at hless
    rw [Bool.eq_false_iff, Ne, h b a (hkeys b hb) (hkeys a ha)]
    exact lt_asymm hless
  trans a ha b hb c hc hab hbc := by
    rw [Bool.eq_false_iff, Ne, h _ _ (hkeys _ ‹_›) (hkeys _ ‹_›), not_lt] at hab hbc ⊢
    exact le_trans hbc hab

theorem exact_statesAfter : Exact informers received (statesAfter sort informers received) := by
  induction received using List.reverseRecOn with
  | nil => exact exact_build
  | append_singleton received r ih =>
    unfold statesAfter
    rw [List.foldl_concat]
    exact ih.receive r

/-- The last thing done to the states is a sort. -/
theorem exists_statesAfter_eq_apply (sort : Reorder ResourceState)
    (informers : List StatusInformer) (received : List ResourceState) :
    ∃ unsorted, statesAfter sort informers received = sort.apply unsorted := by
  rcases List.eq_nil_or_concat received with rfl | ⟨before, r, rfl⟩
  · exact ⟨_, rfl⟩
  · unfold statesAfter
    rw [List.concat_eq_append, List.foldl_concat]
    exact ⟨_, rfl⟩

theorem sorted_statesAfter (hsort : GoSort.Sorts less sort) (hless : LessIsLexicographic informers)
    (hnodup : (informers.map StatusInformer.key).Nodup) :
    (statesAfter sort informers received).Pairwise fun a b => a.position < b.position := by
  have hexact : Exact informers received (statesAfter sort informers received) := exact_statesAfter
  have hkeys : ∀ r ∈ statesAfter sort informers received,
      r.key ∈ informers.map StatusInformer.key :=
    fun r hr => hexact.keys.mem_iff.mp (List.mem_map_of_mem hr)
  have hdistinct : ((statesAfter sort informers received).map ResourceState.key).Nodup :=
    hexact.keys.nodup_iff.mpr hnodup
  obtain ⟨unsorted, hunsorted⟩ :=
    exists_statesAfter_eq_apply sort informers received
  rw [hunsorted] at hkeys hdistinct ⊢
  have hsorted := hsort unsorted (strictWeak_of_lexicographic hless fun r hr =>
    hkeys r (sort.mem_apply.mpr hr))
  refine ((List.pairwise_map.mp hdistinct).and hsorted).imp_of_mem ?_
  intro a b ha hb hab
  have hle : ¬ b.position < a.position := by
    rw [← hless b a (hkeys b hb) (hkeys a ha), hab.2]
    exact Bool.false_ne_true
  exact lt_of_le_of_ne (not_lt.mp hle) (mt position_eq_iff.mp hab.1)

theorem canonical_of_agrees (hnodup : (informers.map StatusInformer.key).Nodup)
    (h : Agrees informers) (hsort : GoSort.Sorts less sort) : Canonical sort informers := by
  intro informers' hperm received
  have hkeys : (informers'.map StatusInformer.key).Perm (informers.map StatusInformer.key) :=
    hperm.map _
  have hless := lessIsLexicographic_of_agrees h
  have hless' : LessIsLexicographic informers' := fun a b ha hb =>
    hless a b (hkeys.mem_iff.mp ha) (hkeys.mem_iff.mp hb)
  have hsorted : (statesAfter sort informers received).Pairwise fun a b =>
      a.position < b.position := sorted_statesAfter hsort hless hnodup
  have hsorted' : (statesAfter sort informers' received).Pairwise fun a b =>
      a.position < b.position := sorted_statesAfter hsort hless' (hkeys.nodup_iff.mpr hnodup)
  have hstates : (statesAfter sort informers' received).Perm
      (statesAfter sort informers received) :=
    exact_statesAfter.perm_entries.trans
      ((hperm.map _).trans exact_statesAfter.perm_entries.symm)
  refine ⟨hstates.eq_of_pairwise (fun a b _ _ hab hba => ?_) hsorted' hsorted, hsorted⟩
  exact absurd hba (lt_asymm hab)

end

/-! ## The informers that disagree -/

/-- The entry of an informer at the start. -/
def StatusInformer.first (i : StatusInformer) : ResourceState := ⟨i.kind, i.name, i.ns, .missing⟩

section

variable {informers : List StatusInformer} {i j : StatusInformer}

/-- **The defect.**  Each of the two entries is less than the other one. -/
theorem less_both (hpos : i.position < j.position) (h : j.name < i.name ∨ j.ns < i.ns) :
    less i.first j.first = true ∧ less j.first i.first = true :=
  ⟨less_of_position_lt hpos, less_eq_true.mpr (.inr h)⟩

theorem not_strictWeak (hi : i ∈ informers) (hj : j ∈ informers)
    (hpos : i.position < j.position) (h : j.name < i.name ∨ j.ns < i.ns) :
    ¬ GoSort.StrictWeak less (informers.map StatusInformer.first) := by
  intro hweak
  obtain ⟨hij, hji⟩ := less_both hpos h
  have hasymm := hweak.asymm i.first (List.mem_map_of_mem hi) j.first (List.mem_map_of_mem hj) hij
  rw [hji] at hasymm
  cases hasymm

/-- A sort that makes nothing of such a `Less` leaves the informers in the order in which they are
given. -/
theorem not_canonical (hi : i ∈ informers) (hj : j ∈ informers)
    (hpos : i.position < j.position) (h : j.name < i.name ∨ j.ns < i.ns) :
    ¬ Canonical (GoSort.lazySort less) informers := by
  intro hcanonical
  -- the later one of the two comes first
  have hperm : (j :: informers.erase j).Perm informers := (List.perm_cons_erase hj).symm
  have hi' : i ∈ j :: informers.erase j := hperm.mem_iff.mpr hi
  obtain ⟨heq, hsorted⟩ := hcanonical _ hperm []
  have hstates : statesAfter (GoSort.lazySort less) (j :: informers.erase j) [] =
      (j :: informers.erase j).map StatusInformer.first :=
    GoSort.apply_lazySort (not_strictWeak hi' List.mem_cons_self hpos h)
  rw [← heq, hstates, List.map_cons, List.pairwise_cons] at hsorted
  rcases List.mem_cons.mp hi' with rfl | hmem
  · exact lt_irrefl _ hpos
  · exact lt_asymm hpos (hsorted.1 i.first (List.mem_map_of_mem hmem))

end

/-- **When the states have a canonical order.**  `Less` is the lexicographic order of the entries,
and every sort returns the same list for every order of the informers, exactly when the names and
the namespaces agree with the order of the informers. -/
theorem canonical_iff (informers : List StatusInformer)
    (hnodup : (informers.map StatusInformer.key).Nodup) :
    (LessIsLexicographic informers ∧
      ∀ sort, GoSort.Sorts less sort → Canonical sort informers) ↔ Agrees informers := by
  constructor
  · rintro ⟨-, hcanonical⟩ i hi j hj hpos
    have hno : ¬ (j.name < i.name ∨ j.ns < i.ns) := fun h =>
      not_canonical hi hj hpos h (hcanonical _ GoSort.sorts_lazySort)
    exact not_or.mp hno
  · intro h
    exact ⟨lessIsLexicographic_of_agrees h, fun sort hsort => canonical_of_agrees hnodup h hsort⟩

theorem canonical_apiAndWeb :
    let informers : List StatusInformer :=
      [⟨"deployment", "api", "default"⟩, ⟨"service", "web", "default"⟩]
    LessIsLexicographic informers ∧
      ∀ sort, GoSort.Sorts less sort → Canonical sort informers :=
  (canonical_iff _ (by decide)).mpr (by decide)

/-- The lexicographic order is that of the list, the names are not in it. -/
def webAndApi : List StatusInformer :=
  [⟨"deployment", "web", "default"⟩, ⟨"service", "api", "default"⟩]

/-- `sort.Sort` swaps the two entries, whichever comes first. -/
theorem statesAfter_webAndApi :
    statesAfter (GoSort.insertionSort less) webAndApi [] = (webAndApi.map (·.first)).reverse ∧
    statesAfter (GoSort.insertionSort less) webAndApi.reverse [] = webAndApi.map (·.first) := by
  decide

theorem canonical_webAndApi_false : ∃ informers : List StatusInformer,
    (informers.map StatusInformer.key).Nodup ∧ ¬ LessIsLexicographic informers ∧
    ∃ sort, GoSort.Sorts less sort ∧ ¬ Canonical sort informers := by
  refine ⟨webAndApi, by decide, ?_, GoSort.insertionSort less, GoSort.sorts_insertionSort, ?_⟩
  · intro h
    have hback := h ⟨"service", "api", "default", .missing⟩
      ⟨"deployment", "web", "default", .missing⟩ (by decide) (by decide)
    exact absurd (hback.mp (by decide)) (by decide)
  · intro h
    obtain ⟨heq, -⟩ := h webAndApi.reverse (List.reverse_perm _) []
    rw [statesAfter_webAndApi.1, statesAfter_webAndApi.2] at heq
    exact absurd heq (by decide)

end Kotsadm.AppState
