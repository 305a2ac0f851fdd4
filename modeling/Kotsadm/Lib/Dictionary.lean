import Kotsadm.Lib.Keyed

/-!
# Dictionary — keys with their values

The rows of a keyed table that have a key and a value, as in an object or a map: a key that is set
for the first time goes to the end.
-/

abbrev Dictionary (κ σ : Type*) := Keyed (Prod.fst : κ × σ → κ)

namespace Dictionary

variable {κ σ : Type*} [DecidableEq κ] {t : Dictionary κ σ} {k : κ} {s : σ}

def get (t : Dictionary κ σ) (k : κ) : Option σ := (t.find? k).map Prod.snd

def remove (t : Dictionary κ σ) (k : κ) : Dictionary κ σ :=
  t.deleteWhere fun row => decide (row.1 = k)

def set (t : Dictionary κ σ) (k : κ) (s : σ) : Dictionary κ σ :=
  t.upsert (k, s) (fun row => (row.1, s)) fun _ => rfl

def modify (t : Dictionary κ σ) (k : κ) (f : σ → σ) : Dictionary κ σ :=
  t.updateWhere (fun row => decide (row.1 = k)) (fun row => (row.1, f row.2)) fun _ => rfl

def values (t : Dictionary κ σ) : List σ := t.rows.map Prod.snd

theorem get_eq_some : t.get k = some s ↔ (k, s) ∈ t.rows := by
  unfold get
  rw [Option.map_eq_some_iff]
  constructor
  · rintro ⟨⟨k', s'⟩, hfind, rfl⟩
    obtain ⟨hmem, hkey⟩ := Keyed.find?_eq_some.mp hfind
    cases hkey
    exact hmem
  · intro hmem
    exact ⟨(k, s), Keyed.find?_eq_some.mpr ⟨hmem, rfl⟩, rfl⟩

theorem get_eq_none : t.get k = none ↔ ∀ row ∈ t.rows, row.1 ≠ k := by
  unfold get
  rw [Option.map_eq_none_iff, Keyed.find?_eq_none]

theorem mem_remove {row : κ × σ} : row ∈ (t.remove k).rows ↔ row ∈ t.rows ∧ row.1 ≠ k := by
  unfold remove
  rw [Keyed.mem_deleteWhere, decide_eq_false_iff_not]

theorem get_remove : (t.remove k).get k = none :=
  get_eq_none.mpr fun _ hrow => (mem_remove.mp hrow).2

theorem get_remove_ne {k' : κ} (h : k' ≠ k) : (t.remove k).get k' = t.get k' := by
  have hkept : t.find? k' = (t.remove k).find? k' := by
    unfold remove
    rw [Keyed.find?_deleteWhere_of_kept]
    intro row hrow
    simp only [hrow, h, decide_false]
  unfold get
  rw [hkept]

theorem remove_of_get_eq_none (h : t.get k = none) : t.remove k = t := by
  apply Keyed.ext
  show t.rows.filter _ = t.rows
  apply List.filter_eq_self.mpr
  intro row hrow
  simp only [get_eq_none.mp h row hrow, decide_false, Bool.not_false]

/-- A key that is not in use goes to the end. -/
theorem rows_set (h : t.get k = none) : (t.set k s).rows = t.rows ++ [(k, s)] := by
  unfold set Keyed.upsert
  have hfind : t.find? k = none := by
    unfold get at h
    exact Option.map_eq_none_iff.mp h
  split
  next t' hinsert => exact (Keyed.insert?_eq_some hinsert).1
  next hinsert =>
    have hsome := Keyed.insert?_eq_none.mp hinsert
    rw [show t.find? (Prod.fst (k, s)) = none from hfind] at hsome
    cases hsome

theorem get_set (t : Dictionary κ σ) (k k' : κ) (s : σ) :
    (t.set k s).get k' = if k = k' then some s else t.get k' := by
  unfold get set
  rw [Keyed.find?_upsert]
  split
  next => cases t.find? k' <;> rfl
  next => rfl

theorem mem_modify {f : σ → σ} {k' : κ} {s' : σ} : (k', s') ∈ (t.modify k f).rows ↔
    ∃ s, (k', s) ∈ t.rows ∧ s' = if k' = k then f s else s := by
  unfold modify
  rw [Keyed.mem_updateWhere]
  constructor
  · rintro ⟨⟨k₀, s₀⟩, hmem, hrow⟩
    simp only [decide_eq_true_eq] at hrow
    split at hrow
    next hk =>
      obtain ⟨rfl, rfl⟩ := Prod.mk.inj hrow
      exact ⟨s₀, hmem, (if_pos hk).symm⟩
    next hk =>
      obtain ⟨rfl, rfl⟩ := Prod.mk.inj hrow
      exact ⟨s₀, hmem, (if_neg hk).symm⟩
  · rintro ⟨s, hmem, rfl⟩
    refine ⟨(k', s), hmem, ?_⟩
    simp only [decide_eq_true_eq]
    split <;> rfl

theorem get_modify {f : σ → σ} {k' : κ} :
    (t.modify k f).get k' = if k' = k then (t.get k').map f else t.get k' := by
  apply Option.ext
  intro s'
  rw [get_eq_some, mem_modify]
  split
  next =>
    rw [Option.map_eq_some_iff]
    simp only [get_eq_some, eq_comm]
  next =>
    rw [get_eq_some]
    constructor
    · rintro ⟨s, hmem, rfl⟩
      exact hmem
    · exact fun hmem => ⟨s', hmem, rfl⟩

theorem modify_congr {f g : σ → σ} (h : ∀ s, t.get k = some s → f s = g s) :
    t.modify k f = t.modify k g := by
  apply Keyed.ext
  show t.rows.map _ = t.rows.map _
  apply List.map_congr_left
  intro row hrow
  dsimp only
  split
  next hk =>
    have hkey : row.1 = k := of_decide_eq_true hk
    rw [h row.2 (get_eq_some.mpr (hkey ▸ hrow))]
  next => rfl

theorem modify_eq_self {f : σ → σ} (h : ∀ s, t.get k = some s → f s = s) : t.modify k f = t := by
  rw [modify_congr h]
  apply Keyed.ext
  show t.rows.map _ = t.rows
  conv_rhs => rw [← List.map_id t.rows]
  apply List.map_congr_left
  intro row _
  split <;> rfl

/-- A row and the ones with other keys. -/
theorem rows_perm (h : t.get k = some s) : t.rows.Perm ((k, s) :: (t.remove k).rows) := by
  obtain ⟨before, after, hrows⟩ := List.append_of_mem (get_eq_some.mp h)
  -- the key occurs once, so the rows before and after it stay
  have hnodup := t.nodup
  rw [hrows, List.map_append, List.map_cons, List.nodup_append, List.nodup_cons] at hnodup
  obtain ⟨-, ⟨hafter, -⟩, hbefore⟩ := hnodup
  have hremove : (t.remove k).rows = before ++ after := by
    show t.rows.filter _ = _
    rw [hrows, List.filter_append, List.filter_cons_of_neg (by simp)]
    congr 1
    · apply List.filter_eq_self.mpr
      intro row hrow
      have hne := hbefore row.1 (List.mem_map_of_mem hrow) k List.mem_cons_self
      simp only [hne, decide_false, Bool.not_false]
    · apply List.filter_eq_self.mpr
      intro row hrow
      have hne : row.1 ≠ k := by
        intro hkey
        apply hafter
        exact List.mem_map.mpr ⟨row, hrow, hkey⟩
      simp only [hne, decide_false, Bool.not_false]
  rw [hremove, hrows]
  exact List.perm_middle

/-! ## Two dictionaries -/

/-- The key of the row is not in the other one. -/
def missing (other : Dictionary κ σ) (row : κ × σ) : Bool := (other.get row.1).isNone

/-- The key of the row has another value in the other one. -/
def differs [DecidableEq σ] (other : Dictionary κ σ) (row : κ × σ) : Bool :=
  match other.get row.1 with
  | none => false
  | some s => s ≠ row.2

theorem differs_iff [DecidableEq σ] {other : Dictionary κ σ} {row : κ × σ} :
    other.differs row = true ↔ ∃ s, (row.1, s) ∈ other.rows ∧ s ≠ row.2 := by
  unfold differs
  cases hget : other.get row.1 with
  | none =>
    refine iff_of_false Bool.false_ne_true ?_
    rintro ⟨s, hmem, -⟩
    exact get_eq_none.mp hget (row.1, s) hmem rfl
  | some s =>
    dsimp only
    rw [decide_eq_true_eq]
    constructor
    · intro hne
      exact ⟨s, get_eq_some.mp hget, hne⟩
    · rintro ⟨s', hmem, hne⟩
      cases hget.symm.trans (get_eq_some.mpr hmem)
      exact hne

/-- The row is not in the other one. -/
def changed [DecidableEq σ] (other : Dictionary κ σ) (row : κ × σ) : Bool :=
  other.missing row || other.differs row

theorem changed_eq_false_iff [DecidableEq σ] {other : Dictionary κ σ} {row : κ × σ} :
    other.changed row = false ↔ row ∈ other.rows := by
  have hmem : row ∈ other.rows ↔ other.get row.1 = some row.2 := get_eq_some.symm
  rw [hmem]
  unfold changed missing differs
  cases hget : other.get row.1 with
  | none => simp
  | some s => simp

/-- As many keys have another value here as there. -/
theorem length_differs_comm [DecidableEq σ] (t u : Dictionary κ σ) :
    (t.rows.filter u.differs).length = (u.rows.filter t.differs).length := by
  have hkeys : ∀ v w : Dictionary κ σ, ((v.rows.filter w.differs).map Prod.fst).Nodup :=
    fun v w => (List.Sublist.map Prod.fst List.filter_sublist).nodup v.nodup
  have hmem : ∀ (v w : Dictionary κ σ) (k : κ), k ∈ (v.rows.filter w.differs).map Prod.fst →
      k ∈ (w.rows.filter v.differs).map Prod.fst := by
    intro v w k hk
    obtain ⟨⟨k', s⟩, hrow, rfl⟩ := List.mem_map.mp hk
    obtain ⟨hv, hdiffers⟩ := List.mem_filter.mp hrow
    obtain ⟨s', hw, hne⟩ := differs_iff.mp hdiffers
    refine List.mem_map.mpr ⟨(k', s'), List.mem_filter.mpr ⟨hw, ?_⟩, rfl⟩
    exact differs_iff.mpr ⟨s, hv, hne.symm⟩
  -- both lists of keys have the same elements, each of them once
  have hperm := (List.perm_ext_iff_of_nodup (hkeys t u) (hkeys u t)).mpr
    fun k => ⟨hmem t u k, hmem u t k⟩
  have hlength := hperm.length_eq
  rw [List.length_map, List.length_map] at hlength
  exact hlength

theorem length_changed [DecidableEq σ] (other : Dictionary κ σ) (rows : List (κ × σ)) :
    (rows.filter other.changed).length =
      (rows.filter other.missing).length + (rows.filter other.differs).length := by
  have hdisjoint : ∀ row, other.missing row = true → other.differs row = false := by
    intro row hmissing
    unfold missing at hmissing
    unfold differs
    rw [Option.isNone_iff_eq_none.mp hmissing]
  induction rows with
  | nil => rfl
  | cons row rows ih =>
    cases hmissing : other.missing row with
    | true => simp [changed, hmissing, hdisjoint row hmissing, ih]; omega
    | false => cases hdiffers : other.differs row <;> simp [changed, hmissing, hdiffers, ih]; omega

/-! ## Copies -/

section Copy

variable {ε τ : Type*} {f : κ → σ → Except ε τ}

/-- A loop that fills a new map with a value for every row.  Its first error ends it. -/
def copyRows (f : κ → σ → Except ε τ) :
    List (κ × σ) → Dictionary κ τ → Except ε (Dictionary κ τ)
  | [], updated => .ok updated
  | (k, s) :: rows, updated =>
    match f k s with
    | .error e => .error e
    | .ok v => copyRows f rows (updated.set k v)

def copy (f : κ → σ → Except ε τ) (t : Dictionary κ σ) : Except ε (Dictionary κ τ) :=
  copyRows f t.rows Keyed.empty

theorem copyRows_eq_ok {rows : List (κ × σ)} {updated u : Dictionary κ τ}
    (h : copyRows f rows updated = .ok u) (hnodup : (rows.map Prod.fst).Nodup) (k : κ) :
    (k ∉ rows.map Prod.fst → u.get k = updated.get k) ∧
      ∀ s, (k, s) ∈ rows → ∃ v, f k s = .ok v ∧ u.get k = some v := by
  induction rows generalizing updated with
  | nil =>
    cases h
    exact ⟨fun _ => rfl, nofun⟩
  | cons row rows ih =>
    obtain ⟨k', s'⟩ := row
    obtain ⟨hfresh, hnodup⟩ := List.nodup_cons.mp hnodup
    unfold copyRows at h
    split at h
    next => cases h
    next v hv =>
      obtain ⟨hrest, hrows⟩ := ih h hnodup
      constructor
      · intro hmem
        rw [List.map_cons, List.mem_cons, not_or] at hmem
        rw [hrest hmem.2, get_set, if_neg fun heq => hmem.1 heq.symm]
      · intro s hs
        rcases List.mem_cons.mp hs with heq | hs
        · cases heq
          refine ⟨v, hv, ?_⟩
          rw [hrest hfresh, get_set, if_pos rfl]
        · exact hrows s hs

theorem copy_eq_ok {u : Dictionary κ τ} (h : t.copy f = .ok u) (k : κ) :
    (t.get k = none → u.get k = none) ∧
      ∀ s, t.get k = some s → ∃ v, f k s = .ok v ∧ u.get k = some v := by
  obtain ⟨hnone, hsome⟩ := copyRows_eq_ok h t.nodup k
  constructor
  · intro hget
    apply hnone
    intro hmem
    obtain ⟨row, hrow, heq⟩ := List.mem_map.mp hmem
    exact get_eq_none.mp hget row hrow heq
  · exact fun s hget => hsome s (get_eq_some.mp hget)

theorem exists_copy (h : ∀ k s, ∃ v, f k s = .ok v) (t : Dictionary κ σ) :
    ∃ u, t.copy f = .ok u := by
  have hrows : ∀ (rows : List (κ × σ)) (updated : Dictionary κ τ),
      ∃ u, copyRows f rows updated = .ok u := by
    intro rows
    induction rows with
    | nil => exact fun updated => ⟨updated, rfl⟩
    | cons row rows ih =>
      intro updated
      obtain ⟨v, hv⟩ := h row.1 row.2
      unfold copyRows
      rw [hv]
      exact ih (updated.set row.1 v)
  exact hrows t.rows Keyed.empty

end Copy

end Dictionary
