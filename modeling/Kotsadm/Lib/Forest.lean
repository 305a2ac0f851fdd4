import Mathlib.Data.List.Nodup
import Mathlib.Data.List.Perm.Basic

/-!
# Forest — lists of trees

A `Forest` is a list of nodes, each of which has a label and a list of children.  It is read in two
ways: by the edges between a node and the node above it, and by the names on the way to a node.  A
forest whose siblings have different names is a trie, to which the names of a way are added one
after the other.
-/

/-- The first node of the list with its children, and its later siblings. -/
inductive Forest (α : Type*) where
  | nil
  | cons (label : α) (children siblings : Forest α)
  deriving DecidableEq, Repr

namespace Forest

variable {α β : Type*}

def append : Forest α → Forest α → Forest α
  | nil, t => t
  | cons a children siblings, t => cons a children (append siblings t)

instance : Append (Forest α) := ⟨append⟩

@[simp] theorem nil_append (t : Forest α) : nil ++ t = t := rfl

@[simp] theorem cons_append (a : α) (children siblings t : Forest α) :
    cons a children siblings ++ t = cons a children (siblings ++ t) := rfl

def ofList : List (α × Forest α) → Forest α
  | [] => nil
  | (a, children) :: rest => cons a children (ofList rest)

/-- Nodes without children. -/
def leaves (labels : List α) : Forest α := ofList (labels.map fun a => (a, nil))

/-! ## Edges -/

section Edges

variable (key : α → β)

/-- A pair for every node: the key of the node above it, and its own. -/
def edges (above : Option β) : Forest α → List (Option β × β)
  | nil => []
  | cons a children siblings =>
    (above, key a) :: (edges (some (key a)) children ++ edges above siblings)

@[simp] theorem edges_cons (above : Option β) (a : α) (children siblings : Forest α) :
    (cons a children siblings).edges key above =
      (above, key a) :: (children.edges key (some (key a)) ++ siblings.edges key above) := rfl

theorem edges_append (above : Option β) (s t : Forest α) :
    (s ++ t).edges key above = s.edges key above ++ t.edges key above := by
  induction s with
  | nil => rfl
  | cons a children siblings _ ih =>
    rw [cons_append, edges_cons, edges_cons, ih, List.cons_append, List.append_assoc]

theorem edges_ofList (above : Option β) (nodes : List (α × Forest α)) :
    (ofList nodes).edges key above =
      nodes.flatMap fun node => (above, key node.1) :: node.2.edges key (some (key node.1)) := by
  induction nodes with
  | nil => rfl
  | cons node nodes ih =>
    show (cons node.1 node.2 (ofList nodes)).edges key above = _
    rw [edges_cons, ih, List.flatMap_cons, List.cons_append]

theorem edges_leaves (above : Option β) (labels : List α) :
    (leaves labels).edges key above = labels.map fun a => (above, key a) := by
  unfold leaves
  rw [edges_ofList, List.flatMap_map]
  exact List.flatMap_pure_eq_map _ labels

end Edges

/-! ## Places

The list of the children of a node, or of the whole forest, by the positions on the way to it. -/

section Places

/-- The children of the node at a position. -/
def childrenAt : (i : Nat) → Forest α → Forest α
  | _, nil => nil
  | 0, cons _ children _ => children
  | i + 1, cons _ _ siblings => childrenAt i siblings

def modifyChildren (f : Forest α → Forest α) : (i : Nat) → Forest α → Forest α
  | _, nil => nil
  | 0, cons a children siblings => cons a (f children) siblings
  | i + 1, cons a children siblings => cons a children (modifyChildren f i siblings)

/-- The list at a place. -/
def listAt : (place : List Nat) → Forest α → Forest α
  | [], t => t
  | i :: place, t => listAt place (childrenAt i t)

/-- Changes the list at a place. -/
def modifyAt (f : Forest α → Forest α) : (place : List Nat) → Forest α → Forest α
  | [], t => f t
  | i :: place, t => modifyChildren (modifyAt f place) i t

def length : Forest α → Nat
  | nil => 0
  | cons _ _ siblings => siblings.length + 1

/-- A node without children at the end of the list. -/
def push (a : α) (t : Forest α) : Forest α := t ++ cons a nil nil

/-- The position of the first node whose label satisfies `p`. -/
def findIdx (p : α → Bool) : Forest α → Option Nat
  | nil => none
  | cons a _ siblings => if p a then some 0 else (findIdx p siblings).map (· + 1)

theorem modifyAt_concat (f : Forest α → Forest α) (i : Nat) (place : List Nat) (t : Forest α) :
    modifyAt f (place ++ [i]) t = modifyAt (modifyChildren f i) place t := by
  induction place generalizing t with
  | nil => rfl
  | cons j place ih =>
    show modifyChildren (modifyAt f (place ++ [i])) j t = _
    rw [funext ih]
    rfl

/-- A change of a list that depends on what the list is. -/
theorem modifyChildren_congr {f g : Forest α → Forest α} {i : Nat} {t : Forest α}
    (h : f (childrenAt i t) = g (childrenAt i t)) :
    modifyChildren f i t = modifyChildren g i t := by
  induction t generalizing i with
  | nil => cases i <;> rfl
  | cons a children siblings _ ih =>
    cases i with
    | zero => exact congrArg (cons a · siblings) h
    | succ i => exact congrArg (cons a children) (ih h)

theorem modifyAt_congr {f g : Forest α → Forest α} {place : List Nat} {t : Forest α}
    (h : f (listAt place t) = g (listAt place t)) : modifyAt f place t = modifyAt g place t := by
  induction place generalizing t with
  | nil => exact h
  | cons i place ih => exact modifyChildren_congr (ih h)

theorem modifyChildren_modifyChildren (f g : Forest α → Forest α) (i : Nat) (t : Forest α) :
    modifyChildren f i (modifyChildren g i t) = modifyChildren (fun s => f (g s)) i t := by
  induction t generalizing i with
  | nil => cases i <;> rfl
  | cons a children siblings _ ih =>
    cases i with
    | zero => rfl
    | succ i => exact congrArg (cons a children) (ih i)

theorem modifyAt_modifyAt (f g : Forest α → Forest α) (place : List Nat) (t : Forest α) :
    modifyAt f place (modifyAt g place t) = modifyAt (fun s => f (g s)) place t := by
  induction place generalizing t with
  | nil => rfl
  | cons i place ih =>
    show modifyChildren (modifyAt f place) i (modifyChildren (modifyAt g place) i t) = _
    rw [modifyChildren_modifyChildren]
    exact congrArg (modifyChildren · i t) (funext ih)

theorem modifyAt_id (place : List Nat) (t : Forest α) : modifyAt (fun s => s) place t = t := by
  have hchildren : ∀ i (t : Forest α), modifyChildren (fun s => s) i t = t := by
    intro i t
    induction t generalizing i with
    | nil => cases i <;> rfl
    | cons a children siblings _ ih =>
      cases i with
      | zero => rfl
      | succ i => exact congrArg (cons a children) (ih i)
  induction place generalizing t with
  | nil => rfl
  | cons i place ih =>
    show modifyChildren (modifyAt (fun s => s) place) i t = t
    rw [funext ih]
    exact hchildren i t

end Places

/-! ## Tries -/

section Tries

variable {ν : Type*} [DecidableEq ν] (name : α → ν)

/-- Changes the children of the first node with a name, or those of the new node `a`. -/
def alter (part : ν) (a : α) (f : Forest α → Forest α) : Forest α → Forest α
  | nil => cons a (f nil) nil
  | cons b children siblings =>
    if name b = part then cons b (f children) siblings
    else cons b children (alter part a f siblings)

/-- Adds the names of a way, where `node` makes the label of a new node. -/
def insert (node : ν → α) : List ν → Forest α → Forest α
  | [], t => t
  | part :: parts, t => alter name part (node part) (insert node parts) t

/-- The first node with a name. -/
def node? (part : ν) : Forest α → Option (α × Forest α)
  | nil => none
  | cons a children siblings => if name a = part then some (a, children) else siblings.node? part

/-- The label of the node to which the names lead. -/
def lookup : List ν → Forest α → Option α
  | [], _ => none
  | part :: parts, t =>
    (t.node? name part).bind fun found =>
      if parts = [] then some found.1 else lookup parts found.2

/-- The names on the way to each node, and its label. -/
def nodes : Forest α → List (List ν × α)
  | nil => []
  | cons a children siblings =>
    ([name a], a) :: (children.nodes.map (fun node => (name a :: node.1, node.2)) ++ siblings.nodes)

/-- The labels of the list itself. -/
def labels : Forest α → List α
  | nil => []
  | cons a _ siblings => a :: siblings.labels

/-- Siblings have different names. -/
def IsTrie : Forest α → Prop
  | nil => True
  | cons a children siblings =>
    (∀ b ∈ siblings.labels, name b ≠ name a) ∧ children.IsTrie ∧ siblings.IsTrie

variable {name} {t : Forest α} {part : ν} {parts : List ν} {a : α} {node : ν → α}

theorem alter_of_findIdx_eq_some (f : Forest α → Forest α) {i : Nat}
    (h : t.findIdx (fun b => name b = part) = some i) :
    alter name part a f t = modifyChildren f i t := by
  induction t generalizing i with
  | nil => cases h
  | cons b children siblings _ ih =>
    unfold findIdx at h
    unfold alter
    split at h
    next hname =>
      cases h
      rw [if_pos (of_decide_eq_true hname)]
      rfl
    next hname =>
      obtain ⟨j, hj, rfl⟩ := Option.map_eq_some_iff.mp h
      rw [if_neg fun heq => hname (decide_eq_true heq), ih hj]
      rfl

theorem alter_of_findIdx_eq_none (f : Forest α → Forest α)
    (h : t.findIdx (fun b => name b = part) = none) :
    alter name part a f t = modifyChildren f t.length (t.push a) := by
  induction t with
  | nil => rfl
  | cons b children siblings _ ih =>
    unfold findIdx at h
    unfold alter
    split at h
    next => cases h
    next hname =>
      rw [if_neg fun heq => hname (decide_eq_true heq), ih (Option.map_eq_none_iff.mp h)]
      rfl

/-! ### What an insertion does to the nodes -/

theorem labels_alter (f : Forest α → Forest α) {b : α} (h : b ∈ (alter name part a f t).labels) :
    b ∈ t.labels ∨ b = a := by
  induction t with
  | nil => exact .inr (List.mem_singleton.mp h)
  | cons c children siblings _ ih =>
    unfold alter at h
    split at h
    next => exact .inl h
    next =>
      rcases List.mem_cons.mp h with rfl | h
      · exact .inl List.mem_cons_self
      · exact (ih h).imp_left (List.mem_cons_of_mem c)

theorem isTrie_alter {f : Forest α → Forest α}
    (hf : ∀ s : Forest α, s.IsTrie name → (f s).IsTrie name)
    (ha : name a = part) (h : t.IsTrie name) : (alter name part a f t).IsTrie name := by
  induction t with
  | nil => exact ⟨nofun, hf nil trivial, trivial⟩
  | cons b children siblings _ ih =>
    obtain ⟨hsiblings, hchildren, hrest⟩ := h
    unfold alter
    split
    next => exact ⟨hsiblings, hf children hchildren, hrest⟩
    next hname =>
      refine ⟨fun c hc => ?_, hchildren, ih hrest⟩
      rcases labels_alter f hc with hc | rfl
      · exact hsiblings c hc
      · exact fun heq => hname (heq.symm.trans ha)

theorem isTrie_insert (hnode : ∀ part, name (node part) = part) (h : t.IsTrie name) :
    (insert name node parts t).IsTrie name := by
  induction parts generalizing t with
  | nil => exact h
  | cons part parts ih => exact isTrie_alter (fun s hs => ih hs) (hnode part) h

theorem node?_alter (ha : name a = part) (f : Forest α → Forest α) (t : Forest α) (part' : ν) :
    (alter name part a f t).node? name part' =
      if part' = part then
        some (((t.node? name part).getD (a, nil)).1, f ((t.node? name part).getD (a, nil)).2)
      else t.node? name part' := by
  induction t with
  | nil =>
    show (if name a = part' then some (a, f nil) else none) = _
    rw [ha]
    simp only [eq_comm (a := part)]
    rfl
  | cons b children siblings _ ih =>
    unfold alter
    by_cases hname : name b = part
    · rw [if_pos hname]
      unfold node?
      rw [if_pos hname, hname]
      by_cases hpart : part' = part
      · rw [if_pos hpart, if_pos hpart.symm]
        rfl
      · rw [if_neg hpart, if_neg fun heq => hpart heq.symm, if_neg fun heq => hpart heq.symm]
    · rw [if_neg hname]
      unfold node?
      rw [if_neg hname, ih]
      by_cases hpart : part' = part
      · rw [if_pos hpart, if_pos hpart, if_neg fun heq => hname (heq.trans hpart)]
      · rw [if_neg hpart, if_neg hpart]

/-- A way leads where it led before, or to a new node when it is the beginning of the added one. -/
theorem lookup_insert (hnode : ∀ part, name (node part) = part) (parts way : List ν)
    (t : Forest α) :
    (insert name node parts t).lookup name way =
      (t.lookup name way).or (if way <+: parts then way.getLast?.map node else none) := by
  induction parts generalizing way t with
  | nil =>
    show t.lookup name way = _
    cases way with
    | nil => rfl
    | cons p way => simp
  | cons part parts ih =>
    cases way with
    | nil => simp [lookup]
    | cons p way =>
      show (alter name part (node part) (insert name node parts) t).lookup name (p :: way) = _
      unfold lookup
      rw [node?_alter (hnode part)]
      by_cases hp : p = part
      · subst hp
        rw [if_pos rfl, Option.bind_some]
        simp only [List.cons_prefix_cons, true_and]
        cases way with
        | nil => cases t.node? name p <;> simp
        | cons q way =>
          rw [if_neg (List.cons_ne_nil q way), ih]
          cases t.node? name p <;> rfl
      · rw [if_neg hp, if_neg fun hbegins => hp (List.cons_prefix_cons.mp hbegins).1]
        simp

theorem alter_eq_self {f : Forest α → Forest α} {found : α × Forest α}
    (hfound : t.node? name part = some found) (hf : f found.2 = found.2) :
    alter name part a f t = t := by
  induction t with
  | nil => cases hfound
  | cons b children siblings _ ih =>
    unfold node? at hfound
    unfold alter
    split at hfound
    next hname =>
      cases hfound
      rw [if_pos hname, hf]
    next hname => rw [if_neg hname, ih hfound]

/-- A way that leads to a node adds nothing. -/
theorem insert_eq_self (h : parts ≠ [] → (t.lookup name parts).isSome) :
    insert name node parts t = t := by
  induction parts generalizing t with
  | nil => rfl
  | cons part parts ih =>
    have hsome := h (List.cons_ne_nil part parts)
    unfold lookup at hsome
    obtain ⟨found, hfound⟩ : ∃ found, t.node? name part = some found := by
      cases hfind : t.node? name part with
      | none =>
        rw [hfind] at hsome
        cases hsome
      | some found => exact ⟨found, rfl⟩
    rw [hfound, Option.bind_some] at hsome
    refine alter_eq_self hfound (ih fun hne => ?_)
    rw [if_neg hne] at hsome
    exact hsome

/-! ### The nodes of a trie -/

theorem node?_isSome_iff : (t.node? name part).isSome ↔ ∃ b ∈ t.labels, name b = part := by
  induction t with
  | nil => exact iff_of_false nofun fun ⟨_, hb, _⟩ => nomatch hb
  | cons a children siblings _ ih =>
    unfold node? labels
    rw [List.exists_mem_cons_iff]
    split
    next hname => exact iff_of_true rfl (.inl hname)
    next hname =>
      rw [ih]
      exact (or_iff_right hname).symm

theorem lookup_eq_none_of_labels {way : List ν} (h : ∀ b ∈ t.labels, name b ≠ part) :
    t.lookup name (part :: way) = none := by
  have hnone : t.node? name part = none := by
    rw [← Option.not_isSome_iff_eq_none, node?_isSome_iff]
    rintro ⟨b, hb, heq⟩
    exact h b hb heq
  unfold lookup
  rw [hnone]
  rfl

theorem lookup_cons_self (a : α) (children siblings : Forest α) (way : List ν) :
    (cons a children siblings).lookup name (name a :: way) =
      if way = [] then some a else children.lookup name way := by
  show (((cons a children siblings).node? name (name a)).bind _) = _
  unfold node?
  rw [if_pos rfl]
  rfl

theorem lookup_cons_of_ne (h : name a ≠ part) (children siblings : Forest α) (way : List ν) :
    (cons a children siblings).lookup name (part :: way) = siblings.lookup name (part :: way) := by
  show (((cons a children siblings).node? name part).bind _) = _
  unfold node?
  rw [if_neg h]
  rfl

/-- The ways to the nodes are those that lead somewhere. -/
theorem mem_nodes_iff (h : t.IsTrie name) {way : List ν} :
    (way, a) ∈ t.nodes name ↔ t.lookup name way = some a := by
  induction t generalizing way a with
  | nil => exact iff_of_false nofun (by cases way <;> exact nofun)
  | cons b children siblings ihc ihs =>
    obtain ⟨hsiblings, hchildren, hrest⟩ := h
    unfold nodes
    rw [List.mem_cons, List.mem_append, List.mem_map, ihs hrest]
    constructor
    · rintro (heq | ⟨⟨way', c⟩, hmem, heq⟩ | hlookup)
      · cases heq
        rw [lookup_cons_self, if_pos rfl]
      · cases heq
        have hlookup := (ihc hchildren).mp hmem
        have hne : way' ≠ [] := by
          rintro rfl
          cases hlookup
        rw [lookup_cons_self, if_neg hne]
        exact hlookup
      · cases way with
        | nil => cases hlookup
        | cons p way =>
          have hp : name b ≠ p := by
            rintro rfl
            rw [lookup_eq_none_of_labels hsiblings] at hlookup
            cases hlookup
          rw [lookup_cons_of_ne hp]
          exact hlookup
    · intro hlookup
      cases way with
      | nil => cases hlookup
      | cons p way =>
        by_cases hp : name b = p
        · subst hp
          rw [lookup_cons_self] at hlookup
          split at hlookup
          next hnil =>
            cases hlookup
            left
            rw [hnil]
          next =>
            right
            left
            exact ⟨(way, a), (ihc hchildren).mpr hlookup, rfl⟩
        · rw [lookup_cons_of_ne hp] at hlookup
          right
          right
          exact hlookup

theorem nodup_nodes (h : t.IsTrie name) : ((t.nodes name).map Prod.fst).Nodup := by
  induction t with
  | nil => exact List.nodup_nil
  | cons b children siblings ihc ihs =>
    obtain ⟨hsiblings, hchildren, hrest⟩ := h
    have hbelow : ∀ way, way ∈ (children.nodes name).map Prod.fst → way ≠ [] := by
      rintro way hway rfl
      obtain ⟨⟨_, a⟩, hmem, rfl⟩ := List.mem_map.mp hway
      cases (mem_nodes_iff hchildren).mp hmem
    have hbeside : ∀ way, name b :: way ∉ (siblings.nodes name).map Prod.fst := by
      intro way hway
      obtain ⟨⟨_, a⟩, hmem, rfl⟩ := List.mem_map.mp hway
      have hlookup := (mem_nodes_iff hrest).mp hmem
      rw [lookup_eq_none_of_labels hsiblings] at hlookup
      cases hlookup
    have hmap : ((children.nodes name).map fun node => (name b :: node.1, node.2)).map Prod.fst =
        ((children.nodes name).map Prod.fst).map (name b :: ·) := by
      rw [List.map_map, List.map_map]
      rfl
    unfold nodes
    rw [List.map_cons, List.map_append, hmap, List.nodup_cons]
    constructor
    · rw [List.mem_append, List.mem_map]
      rintro (⟨way, hway, heq⟩ | hmem)
      · exact hbelow way hway (List.cons.inj heq).2
      · exact hbeside [] hmem
    · refine List.Nodup.append ((ihc hchildren).map List.cons_injective) (ihs hrest) ?_
      intro way hway hmem
      obtain ⟨rest, -, rfl⟩ := List.mem_map.mp hway
      exact hbeside rest hmem

end Tries

end Forest
