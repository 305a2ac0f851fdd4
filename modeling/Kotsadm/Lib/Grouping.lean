import Mathlib.Data.List.AList
import Mathlib.Data.List.Induction

/-!
# Grouping — maps that are filled in a loop

`lastBy` keeps the last element for each key, and `groupBy` all of them in their order.
-/

namespace Grouping

variable {κ α β : Type*} [DecidableEq κ]

/-- A hash map. -/
abbrev Map (κ β : Type*) := AList fun _ : κ => β

/-- The entries, in an order that says nothing. -/
def pairs (m : Map κ β) : List (κ × β) := m.entries.map fun entry => (entry.1, entry.2)

theorem mem_pairs {m : Map κ β} {k : κ} {b : β} : (k, b) ∈ pairs m ↔ m.lookup k = some b := by
  have hlookup : m.lookup k = some b ↔ b ∈ m.lookup k := Iff.rfl
  rw [hlookup, AList.mem_lookup_iff]
  unfold pairs
  constructor
  · intro h
    obtain ⟨⟨k', b'⟩, hmem, heq⟩ := List.mem_map.mp h
    cases heq
    exact hmem
  · intro h
    exact List.mem_map.mpr ⟨⟨k, b⟩, h, rfl⟩

omit [DecidableEq κ] in
theorem nodup_pairs (m : Map κ β) : ((pairs m).map Prod.fst).Nodup := by
  have hkeys : (pairs m).map Prod.fst = m.keys := by
    unfold pairs
    rw [List.map_map]
    rfl
  rw [hkeys]
  exact m.keys_nodup

/-- `m[key(x)] = x` -/
def lastBy (key : α → κ) (xs : List α) : Map κ α := xs.foldl (fun m x => m.insert (key x) x) ∅

/-- `m[k] = append(m[k], x)` -/
def append (m : Map κ (List α)) (k : κ) (x : α) : Map κ (List α) :=
  match m.lookup k with
  | some xs => m.insert k (xs ++ [x])
  | none => m.insert k [x]

def groupBy (key : α → κ) (xs : List α) : Map κ (List α) :=
  xs.foldl (fun m x => append m (key x) x) ∅

theorem lookup_lastBy (key : α → κ) (xs : List α) (k : κ) :
    (lastBy key xs).lookup k = (xs.filter (key · = k)).getLast? := by
  induction xs using List.reverseRecOn with
  | nil => rfl
  | append_singleton xs x ih =>
    unfold lastBy at ih ⊢
    rw [List.foldl_append, List.filter_append]
    by_cases hx : key x = k
    · have hfilter : [x].filter (key · = k) = [x] := by simp [hx]
      rw [hfilter, List.getLast?_concat, ← hx]
      exact AList.lookup_insert _
    · have hfilter : [x].filter (key · = k) = [] := by simp [hx]
      rw [hfilter, List.append_nil, ← ih]
      exact AList.lookup_insert_ne (Ne.symm hx)

theorem mem_lastBy (key : α → κ) (xs : List α) (k : κ) :
    k ∈ lastBy key xs ↔ ∃ x ∈ xs, key x = k := by
  rw [← AList.lookup_isSome, lookup_lastBy, List.getLast?_isSome]
  constructor
  · intro h
    obtain ⟨x, hx⟩ := List.exists_mem_of_ne_nil _ h
    rw [List.mem_filter, decide_eq_true_iff] at hx
    exact ⟨x, hx.1, hx.2⟩
  · intro h
    obtain ⟨x, hx, hkey⟩ := h
    have hmem : x ∈ xs.filter (key · = k) := by
      rw [List.mem_filter, decide_eq_true_iff]
      exact ⟨hx, hkey⟩
    exact List.ne_nil_of_mem hmem

theorem lookup_append (m : Map κ (List α)) (k k' : κ) (x : α) :
    (append m k x).lookup k' =
      if k' = k then some ((m.lookup k).getD [] ++ [x]) else m.lookup k' := by
  unfold append
  by_cases hk : k' = k
  · rw [if_pos hk, hk]
    cases m.lookup k with
    | none => exact AList.lookup_insert _
    | some xs => exact AList.lookup_insert _
  · rw [if_neg hk]
    cases m.lookup k with
    | none => exact AList.lookup_insert_ne hk
    | some xs => exact AList.lookup_insert_ne hk

/-- The elements with a key, if there are any. -/
theorem lookup_groupBy (key : α → κ) (xs : List α) (k : κ) :
    ((groupBy key xs).lookup k).getD [] = xs.filter (key · = k) := by
  induction xs using List.reverseRecOn with
  | nil => rfl
  | append_singleton xs x ih =>
    have hstep : groupBy key (xs ++ [x]) = append (groupBy key xs) (key x) x := by
      unfold groupBy
      rw [List.foldl_append]
      rfl
    rw [hstep, lookup_append, List.filter_append]
    by_cases hx : k = key x
    · have hfilter : [x].filter (key · = k) = [x] := by simp [hx]
      rw [if_pos hx, hfilter, ← ih, hx]
      rfl
    · have hfilter : [x].filter (key · = k) = [] := by simp [Ne.symm hx]
      rw [if_neg hx, hfilter, List.append_nil, ih]

theorem mem_groupBy (key : α → κ) (xs : List α) (k : κ) :
    k ∈ groupBy key xs ↔ ∃ x ∈ xs, key x = k := by
  induction xs using List.reverseRecOn with
  | nil => simp [groupBy]
  | append_singleton xs x ih =>
    have hstep : groupBy key (xs ++ [x]) = append (groupBy key xs) (key x) x := by
      unfold groupBy
      rw [List.foldl_append]
      rfl
    have hmem : k ∈ append (groupBy key xs) (key x) x ↔ k = key x ∨ k ∈ groupBy key xs := by
      unfold append
      cases (groupBy key xs).lookup (key x) with
      | none => exact AList.mem_insert _
      | some ys => exact AList.mem_insert _
    rw [hstep, hmem, ih]
    constructor
    · intro h
      rcases h with rfl | ⟨y, hy, hkey⟩
      · exact ⟨x, List.mem_append_right _ List.mem_cons_self, rfl⟩
      · exact ⟨y, List.mem_append_left _ hy, hkey⟩
    · intro h
      obtain ⟨y, hy, hkey⟩ := h
      rcases List.mem_append.mp hy with hy | hy
      · exact .inr ⟨y, hy, hkey⟩
      · rw [List.mem_singleton.mp hy] at hkey
        exact .inl hkey.symm

/-- Each key that is there comes with all of its elements. -/
theorem mem_pairs_groupBy {key : α → κ} {xs : List α} {k : κ} {ys : List α} :
    (k, ys) ∈ pairs (groupBy key xs) ↔ (∃ x ∈ xs, key x = k) ∧ ys = xs.filter (key · = k) := by
  rw [mem_pairs, ← mem_groupBy, ← lookup_groupBy key xs k]
  constructor
  · intro h
    refine ⟨AList.lookup_isSome.mp (by rw [h]; rfl), ?_⟩
    rw [h]
    rfl
  · intro h
    obtain ⟨hmem, rfl⟩ := h
    obtain ⟨zs, hzs⟩ := Option.isSome_iff_exists.mp (AList.lookup_isSome.mpr hmem)
    rw [hzs]
    rfl

end Grouping
