import Mathlib.Data.List.Nodup
import Mathlib.Data.List.Sort

/-!
# Keyed — tables with a primary key

A table is a list of rows whose keys are pairwise distinct; the distinctness is a field, so a table
that violates its primary key cannot be built.  The operations are the statements a relational
store executes: `SELECT`, `UPDATE … WHERE`, `INSERT`, `INSERT … ON CONFLICT DO UPDATE` and
`DELETE … WHERE`.
-/

/-- A list of rows with pairwise distinct keys. -/
structure Keyed {ρ κ : Type*} (key : ρ → κ) where
  rows : List ρ
  nodup : (rows.map key).Nodup

namespace Keyed

variable {ρ κ : Type*} {key : ρ → κ}

@[ext] theorem ext {t u : Keyed key} (h : t.rows = u.rows) : t = u := by
  cases t
  cases u
  cases h
  rfl

/-- The table without rows. -/
def empty : Keyed key := ⟨[], List.nodup_nil⟩

@[simp] theorem rows_empty : (empty : Keyed key).rows = [] := rfl

/-- The table with one row. -/
def single (r : ρ) : Keyed key := ⟨[r], List.nodup_singleton _⟩

@[simp] theorem rows_single (r : ρ) : (single r : Keyed key).rows = [r] := rfl

theorem eq_of_key_eq (t : Keyed key) {r s : ρ} (hr : r ∈ t.rows) (hs : s ∈ t.rows)
    (h : key r = key s) : r = s :=
  List.inj_on_of_nodup_map t.nodup hr hs h

/-! ## `UPDATE … WHERE` -/

/-- `UPDATE t SET f WHERE p`, for an `f` that leaves the key alone. -/
def updateWhere (t : Keyed key) (p : ρ → Bool) (f : ρ → ρ) (hf : ∀ r, key (f r) = key r) :
    Keyed key where
  rows := t.rows.map fun r => if p r then f r else r
  nodup := by
    have hkeys : (t.rows.map fun r => if p r then f r else r).map key = t.rows.map key := by
      rw [List.map_map]
      apply List.map_congr_left
      intro r _
      by_cases hp : p r = true <;> simp [hp, hf]
    rw [hkeys]
    exact t.nodup

theorem mem_updateWhere {t : Keyed key} {p : ρ → Bool} {f : ρ → ρ} {hf : ∀ r, key (f r) = key r}
    {r : ρ} : r ∈ (t.updateWhere p f hf).rows ↔ ∃ s ∈ t.rows, (if p s then f s else s) = r := by
  simp [updateWhere]

/-! ## `DELETE … WHERE` -/

/-- `DELETE FROM t WHERE p`. -/
def deleteWhere (t : Keyed key) (p : ρ → Bool) : Keyed key where
  rows := t.rows.filter fun r => !p r
  nodup := (List.Sublist.map key List.filter_sublist).nodup t.nodup

theorem deleteWhere_comm (t : Keyed key) (p q : ρ → Bool) :
    (t.deleteWhere p).deleteWhere q = (t.deleteWhere q).deleteWhere p := by
  apply ext
  unfold deleteWhere
  dsimp only
  rw [List.filter_filter, List.filter_filter]
  apply List.filter_congr
  intro r _
  exact Bool.and_comm _ _

theorem deleteWhere_updateWhere (t : Keyed key) {p q : ρ → Bool} {f : ρ → ρ}
    {hf : ∀ r, key (f r) = key r} (hq : ∀ r, q (f r) = q r) :
    (t.updateWhere p f hf).deleteWhere q = (t.deleteWhere q).updateWhere p f hf := by
  apply ext
  unfold updateWhere deleteWhere
  dsimp only
  rw [List.filter_map]
  congr 1
  apply List.filter_congr
  intro r _
  rw [Function.comp_apply]
  split
  · rw [hq]
  · rfl

/-- An update of rows that there are not. -/
theorem updateWhere_of_none {t : Keyed key} {p : ρ → Bool} {f : ρ → ρ}
    {hf : ∀ r, key (f r) = key r} (hnone : ∀ r ∈ t.rows, p r = false) :
    t.updateWhere p f hf = t := by
  apply ext
  unfold updateWhere
  dsimp only
  conv_rhs => rw [← List.map_id t.rows]
  apply List.map_congr_left
  intro r hr
  rw [hnone r hr]
  rfl

theorem mem_deleteWhere {t : Keyed key} {p : ρ → Bool} {r : ρ} :
    r ∈ (t.deleteWhere p).rows ↔ r ∈ t.rows ∧ p r = false := by
  simp [deleteWhere]

variable [DecidableEq κ]

/-! ## `SELECT … WHERE key = k` -/

/-- The row with key `k`. -/
def find? (t : Keyed key) (k : κ) : Option ρ := t.rows.find? fun r => decide (key r = k)

theorem find?_eq_some {t : Keyed key} {k : κ} {r : ρ} :
    t.find? k = some r ↔ r ∈ t.rows ∧ key r = k := by
  constructor
  · intro h
    exact ⟨List.mem_of_find?_eq_some h, by simpa using List.find?_some h⟩
  · rintro ⟨hmem, hkey⟩
    cases hfind : t.find? k with
    | none =>
      have hnone := List.find?_eq_none.mp hfind r hmem
      simp [hkey] at hnone
    | some s =>
      have hs : s ∈ t.rows := List.mem_of_find?_eq_some hfind
      have hsk : key s = k := by simpa using List.find?_some hfind
      rw [t.eq_of_key_eq hmem hs (hkey.trans hsk.symm)]

theorem find?_eq_none {t : Keyed key} {k : κ} : t.find? k = none ↔ ∀ r ∈ t.rows, key r ≠ k := by
  simp [find?, List.find?_eq_none]

theorem find?_isSome_of_mem {t : Keyed key} {r : ρ} (h : r ∈ t.rows) :
    t.find? (key r) = some r :=
  find?_eq_some.mpr ⟨h, rfl⟩

/-- A lookup commutes with an update that keeps the keys. -/
theorem find?_updateWhere (t : Keyed key) (p : ρ → Bool) (f : ρ → ρ)
    (hf : ∀ r, key (f r) = key r) (k : κ) :
    (t.updateWhere p f hf).find? k = (t.find? k).map fun r => if p r then f r else r := by
  have hkey : ∀ r, key (if p r then f r else r) = key r := by
    intro r
    by_cases hp : p r = true <;> simp [hp, hf]
  cases hfind : t.find? k with
  | none =>
    rw [Option.map_none, find?_eq_none]
    intro r hr
    obtain ⟨s, hs, rfl⟩ := mem_updateWhere.mp hr
    rw [hkey]
    exact find?_eq_none.mp hfind s hs
  | some s =>
    obtain ⟨hs, hk⟩ := find?_eq_some.mp hfind
    rw [Option.map_some, find?_eq_some]
    exact ⟨mem_updateWhere.mpr ⟨s, hs, rfl⟩, (hkey s).trans hk⟩

/-- A row that is not deleted is still found. -/
theorem find?_deleteWhere_of_kept {t : Keyed key} {p : ρ → Bool} {k : κ}
    (hkept : ∀ r, key r = k → p r = false) : (t.deleteWhere p).find? k = t.find? k := by
  unfold find? deleteWhere
  dsimp only
  rw [List.find?_filter]
  congr 1
  funext r
  by_cases hr : key r = k
  · simp [hr, hkept r hr]
  · simp [hr]

/-! ## `INSERT` -/

/-- `INSERT INTO t VALUES r`: refused when the key is taken. -/
def insert? (t : Keyed key) (r : ρ) : Option (Keyed key) :=
  if h : key r ∉ t.rows.map key then
    some ⟨t.rows ++ [r], by
      rw [List.map_append, List.nodup_append]
      refine ⟨t.nodup, by simp, ?_⟩
      intro a ha b hb
      have hb' : b = key r := by simpa using hb
      rintro rfl
      exact h (hb' ▸ ha)⟩
  else none

theorem insert?_eq_some {t t' : Keyed key} {r : ρ} (h : t.insert? r = some t') :
    t'.rows = t.rows ++ [r] ∧ t.find? (key r) = none := by
  unfold insert? at h
  split at h
  · rename_i hfresh
    cases h
    refine ⟨rfl, find?_eq_none.mpr ?_⟩
    intro s hs hkey
    exact hfresh (List.mem_map.mpr ⟨s, hs, hkey⟩)
  · cases h

theorem insert?_eq_none {t : Keyed key} {r : ρ} :
    t.insert? r = none ↔ (t.find? (key r)).isSome := by
  have htaken : key r ∈ t.rows.map key ↔ (t.find? (key r)).isSome := by
    rw [← not_iff_not, Bool.not_eq_true, Option.isSome_eq_false_iff, Option.isNone_iff_eq_none,
      find?_eq_none]
    simp
  unfold insert?
  split
  · rename_i hfresh
    simpa using fun h => hfresh (htaken.mpr h)
  · rename_i htook
    simpa using htaken.mp (not_not.mp htook)

theorem find?_insert? {t t' : Keyed key} {r : ρ} (h : t.insert? r = some t') (k : κ) :
    t'.find? k = if key r = k then some r else t.find? k := by
  obtain ⟨hrows, hfresh⟩ := insert?_eq_some h
  by_cases hk : key r = k
  · rw [if_pos hk, find?_eq_some, hrows]
    exact ⟨by simp, hk⟩
  · rw [if_neg hk]
    simp [find?, hrows, List.find?_append, hk]

/-! ## `INSERT … ON CONFLICT (key) DO UPDATE` -/

/-- Inserts `r`, or applies `merge` to the row that already has its key. -/
def upsert (t : Keyed key) (r : ρ) (merge : ρ → ρ) (hm : ∀ s, key (merge s) = key s) : Keyed key :=
  match t.insert? r with
  | some t' => t'
  | none => t.updateWhere (fun s => decide (key s = key r)) merge hm

theorem find?_upsert (t : Keyed key) (r : ρ) (merge : ρ → ρ) (hm : ∀ s, key (merge s) = key s)
    (k : κ) :
    (t.upsert r merge hm).find? k =
      if key r = k then some ((t.find? k).elim r merge) else t.find? k := by
  unfold upsert
  cases hins : t.insert? r with
  | some t' =>
    obtain ⟨_, hfresh⟩ := insert?_eq_some hins
    rw [find?_insert? hins]
    by_cases hk : key r = k
    · subst hk
      simp [hfresh]
    · simp [hk]
  | none =>
    rw [find?_updateWhere]
    by_cases hk : key r = k
    · subst hk
      obtain ⟨s, hs⟩ := Option.isSome_iff_exists.mp (insert?_eq_none.mp hins)
      have hkey := (find?_eq_some.mp hs).2
      simp [hs, hkey]
    · rw [if_neg hk]
      cases hs : t.find? k with
      | none => rfl
      | some s =>
        have hkey := (find?_eq_some.mp hs).2
        simp [hkey, Ne.symm hk]

/-! ## `ORDER BY … DESC` -/

/-- `ORDER BY rank DESC`. -/
def orderByDesc {ρ : Type*} (rank : ρ → Nat) (rows : List ρ) : List ρ :=
  rows.insertionSort fun a b => rank b ≤ rank a

theorem mem_orderByDesc {ρ : Type*} {rank : ρ → Nat} {rows : List ρ} {r : ρ} :
    r ∈ orderByDesc rank rows ↔ r ∈ rows :=
  List.mem_insertionSort _

/-- Rewriting the rows without changing their ranks keeps the order. -/
theorem orderByDesc_map {ρ : Type*} (rank : ρ → Nat) (f : ρ → ρ) (hf : ∀ r, rank (f r) = rank r)
    (rows : List ρ) : orderByDesc rank (rows.map f) = (orderByDesc rank rows).map f := by
  unfold orderByDesc
  rw [List.map_insertionSort (fun a b => rank b ≤ rank a) (fun a b => rank b ≤ rank a)]
  intro a _ b _
  rw [hf, hf]

/-- A row that outranks every other row comes first; the others keep their order. -/
theorem orderByDesc_middle {ρ : Type*} (rank : ρ → Nat) (r : ρ) (above below : List ρ)
    (habove : ∀ s ∈ above, rank s < rank r) (hbelow : ∀ s ∈ below, rank s ≤ rank r) :
    orderByDesc rank (above ++ r :: below) = r :: orderByDesc rank (above ++ below) := by
  induction above with
  | nil =>
    have hsorted : ∀ s ∈ below.insertionSort fun a b => rank b ≤ rank a, rank s ≤ rank r :=
      fun s hs => hbelow s ((List.mem_insertionSort _).mp hs)
    simp only [orderByDesc, List.nil_append, List.insertionSort_cons]
    cases hs : below.insertionSort fun a b => rank b ≤ rank a with
    | nil => rfl
    | cons s rest =>
      rw [hs] at hsorted
      rw [List.orderedInsert_cons, if_pos (hsorted s List.mem_cons_self)]
  | cons a above ih =>
    have ha : ¬ rank r ≤ rank a := Nat.not_le.mpr (habove a List.mem_cons_self)
    have ih' := ih fun s hs => habove s (List.mem_cons_of_mem a hs)
    simp only [orderByDesc, List.cons_append, List.insertionSort_cons] at ih' ⊢
    rw [ih', List.orderedInsert_cons, if_neg ha]

end Keyed
