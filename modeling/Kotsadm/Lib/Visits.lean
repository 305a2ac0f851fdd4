import Kotsadm.Lib.Throws

/-!
# Visits — a loop with and without some of its visits

Each visit of a loop works on a part of the state that no other visit touches.  `erase` takes the
parts of the visits that are left out from the state.  The loop does for the others what the loop
without those visits does, unless one of them ends it too early or puts another one off:
`erase_forEach_iff`.
-/

universe u

/-! ## Loops in loops -/

theorem forEach_append {α ε σ : Type*} {body : α → σ → σ × Option ε} (xs ys : List α) (s : σ) :
    forEach body (xs ++ ys) s =
      match forEach body xs s with
      | (s', none) => forEach body ys s'
      | (s', some e) => (s', some e) := by
  induction xs generalizing s with
  | nil => rfl
  | cons x xs ih =>
    rw [List.cons_append, forEach, forEach]
    split
    next s' _ => exact ih s'
    next => rfl

theorem forEach_map {α β ε σ : Type*} {body : β → σ → σ × Option ε} (f : α → β) (xs : List α)
    (s : σ) : forEach body (xs.map f) s = forEach (fun x => body (f x)) xs s := by
  induction xs generalizing s with
  | nil => rfl
  | cons x xs ih =>
    rw [List.map_cons, forEach, forEach]
    split
    next s' _ => exact ih s'
    next => rfl

/-- A loop whose body is a loop is one loop. -/
theorem forEach_flatMap {α β ε σ : Type*} {outer : α → σ → σ × Option ε}
    {inner : β → σ → σ × Option ε} {f : α → List β} {I : σ → Prop} (xs : List α)
    (hinv : ∀ x ∈ xs, ∀ s, I s → I (outer x s).1)
    (hbody : ∀ x ∈ xs, ∀ s, I s → outer x s = forEach inner (f x) s) (s : σ) (hs : I s) :
    forEach outer xs s = forEach inner (xs.flatMap f) s := by
  induction xs generalizing s with
  | nil => rfl
  | cons x xs ih =>
    have hx : I (outer x s).1 := hinv x List.mem_cons_self s hs
    rw [List.flatMap_cons, forEach_append, forEach, ← hbody x List.mem_cons_self s hs]
    cases hrun : outer x s with
    | mk s' e =>
      rw [hrun] at hx
      cases e with
      | none =>
        exact ih (fun y hy => hinv y (List.mem_cons_of_mem x hy))
          (fun y hy => hbody y (List.mem_cons_of_mem x hy)) s' hx
      | some e => rfl

/-- The elements for which the body does nothing can be left out. -/
theorem forEach_filter {α ε σ : Type*} {body : α → σ → σ × Option ε} {I : σ → Prop} (p : α → Bool)
    (xs : List α) (hinv : ∀ x ∈ xs, ∀ s, I s → I (body x s).1)
    (hbody : ∀ x ∈ xs, p x = false → ∀ s, I s → body x s = (s, none)) (s : σ) (hs : I s) :
    forEach body xs s = forEach body (xs.filter p) s := by
  induction xs generalizing s with
  | nil => rfl
  | cons x xs ih =>
    have ih' := ih (fun y hy => hinv y (List.mem_cons_of_mem x hy))
      fun y hy => hbody y (List.mem_cons_of_mem x hy)
    have hx : I (body x s).1 := hinv x List.mem_cons_self s hs
    cases hp : p x with
    | false =>
      rw [List.filter_cons_of_neg (by rw [hp]; decide), forEach,
        hbody x List.mem_cons_self hp s hs]
      exact ih' s hs
    | true =>
      rw [List.filter_cons_of_pos hp, forEach, forEach]
      split
      next s' hrun =>
        rw [hrun] at hx
        exact ih' s' hx
      next => rfl

/-- A loop over elements that are loaded first is a loop over what they are loaded from. -/
theorem forEach_loaded {α ε ε' σ : Type*} {β : Type u} {load : α → Except ε' β}
    {body : β → σ → σ × Option ε} {visit : α → σ → σ × Option ε} {I : σ → Prop}
    (hinv : ∀ y s, I s → I (body y s).1)
    (hvisit : ∀ x y s, load x = .ok y → I s → visit x s = body y s) {xs : List α} {ys : List β}
    (h : xs.mapM load = .ok ys) (s : σ) (hs : I s) : forEach body ys s = forEach visit xs s := by
  induction xs generalizing ys s with
  | nil =>
    cases h
    rfl
  | cons x xs ih =>
    rw [List.mapM_cons] at h
    obtain ⟨y, hy, h⟩ := Except.bind_eq_ok.mp h
    obtain ⟨rest, hrest, h⟩ := Except.bind_eq_ok.mp h
    cases h
    have hnext : I (body y s).1 := hinv y s hs
    rw [forEach, forEach, hvisit x y s hy hs]
    cases hrun : body y s with
    | mk s' e =>
      rw [hrun] at hnext
      cases e with
      | none => exact ih hrest s' hnext
      | some e => rfl

/-- A loop on a part of the state. -/
theorem forEach_part {α ε σ τ : Type*} {body : α → σ → σ × Option ε} {body' : α → τ → τ × Option ε}
    {f : σ → τ} (hbody : ∀ x s, body' x (f s) = (f (body x s).1, (body x s).2)) (xs : List α)
    (s : σ) : forEach body' xs (f s) = (f (forEach body xs s).1, (forEach body xs s).2) := by
  induction xs generalizing s with
  | nil => rfl
  | cons x xs ih =>
    rw [forEach, forEach, hbody]
    cases hrun : body x s with
    | mk s' e =>
      cases e with
      | none => exact ih s'
      | some e => rfl

/-! ## Visits -/

/-- `body` is a visit among all the others, `body'` one without those that are left out. -/
structure Visits {α ε σ : Type*} (body body' : α → σ → σ × Option ε) (visits : List α) where
  leftOut : α → Bool
  erase : σ → σ
  Inv : σ → Prop
  /-- The part of the visit is as it was before the loop. -/
  Untouched : α → σ → Prop
  /-- The visit ends the loop. -/
  Ends : α → Prop
  /-- Without those that are left out the visit changes its part. -/
  HasWork : α → Prop
  /-- The visit is put off because of those that are left out. -/
  Postponed : α → Prop
  nodup : visits.Nodup
  inv : ∀ {x s}, x ∈ visits → Inv s → Inv (body x s).1 ∧ Inv (body' x s).1
  untouched : ∀ {x y s}, x ∈ visits → y ∈ visits → x ≠ y → Inv s →
    (Untouched y (body x s).1 ↔ Untouched y s) ∧ (Untouched y (body' x s).1 ↔ Untouched y s)
  ends : ∀ {x s}, x ∈ visits → leftOut x = true → Inv s → Untouched x s →
    ((body x s).2 = none ↔ ¬ Ends x)
  erase_body : ∀ {x s}, x ∈ visits → leftOut x = true → Inv s → erase (body x s).1 = erase s
  body_erase : ∀ {x s}, x ∈ visits → leftOut x = false → Inv s → Untouched x s →
    (body' x s).2 = none ∧ body' x (erase s) = (erase (body' x s).1, none)
  idle : ∀ {x s}, x ∈ visits → leftOut x = false → Inv s → Untouched x s → ¬ HasWork x →
    (body' x s).1 = s
  works : ∀ {x s}, x ∈ visits → leftOut x = false → Inv s → Untouched x s → HasWork x →
    ¬ Untouched x (body' x s).1
  postponed : ∀ {x s}, x ∈ visits → leftOut x = false → Inv s → Untouched x s → HasWork x →
    Postponed x → body x s = (s, none)
  not_postponed : ∀ {x s}, x ∈ visits → leftOut x = false → Inv s → Untouched x s →
    (HasWork x → ¬ Postponed x) → body x s = body' x s
  untouched_erase : ∀ {x s}, x ∈ visits → leftOut x = false →
    (Untouched x (erase s) ↔ Untouched x s)

namespace Visits

variable {α ε σ : Type*} {body body' : α → σ → σ × Option ε} {visits : List α}
  (v : Visits body body' visits) {s : σ}

/-- What a loop can be asked to visit from `s` on. -/
structure Ahead (xs : List α) (s : σ) : Prop where
  mem : ∀ x ∈ xs, x ∈ visits
  nodup : xs.Nodup
  inv : v.Inv s
  untouched : ∀ x ∈ xs, v.Untouched x s

variable {v} {x y : α} {xs : List α}

/-- The next visit leaves the ones after it to be done. -/
theorem Ahead.tail (h : v.Ahead (x :: xs) s) : v.Ahead xs (body x s).1 where
  mem y hy := h.mem y (List.mem_cons_of_mem x hy)
  nodup := (List.nodup_cons.mp h.nodup).2
  inv := (v.inv (h.mem x List.mem_cons_self) h.inv).1
  untouched y hy := by
    have hne : x ≠ y := fun heq => (List.nodup_cons.mp h.nodup).1 (heq ▸ hy)
    exact (v.untouched (h.mem x List.mem_cons_self) (h.mem y (List.mem_cons_of_mem x hy)) hne
      h.inv).1.mpr (h.untouched y (List.mem_cons_of_mem x hy))

theorem Ahead.tail' (h : v.Ahead (x :: xs) s) : v.Ahead xs (body' x s).1 where
  mem y hy := h.mem y (List.mem_cons_of_mem x hy)
  nodup := (List.nodup_cons.mp h.nodup).2
  inv := (v.inv (h.mem x List.mem_cons_self) h.inv).2
  untouched y hy := by
    have hne : x ≠ y := fun heq => (List.nodup_cons.mp h.nodup).1 (heq ▸ hy)
    exact (v.untouched (h.mem x List.mem_cons_self) (h.mem y (List.mem_cons_of_mem x hy)) hne
      h.inv).2.mpr (h.untouched y (List.mem_cons_of_mem x hy))

theorem Ahead.skip (h : v.Ahead (x :: xs) s) : v.Ahead xs s where
  mem y hy := h.mem y (List.mem_cons_of_mem x hy)
  nodup := (List.nodup_cons.mp h.nodup).2
  inv := h.inv
  untouched y hy := h.untouched y (List.mem_cons_of_mem x hy)

theorem Ahead.filter (h : v.Ahead xs s) (p : α → Bool) : v.Ahead (xs.filter p) s where
  mem y hy := h.mem y (List.mem_filter.mp hy).1
  nodup := h.nodup.filter p
  inv := h.inv
  untouched y hy := h.untouched y (List.mem_filter.mp hy).1

/-- A loop does not touch what it does not visit. -/
theorem untouched_forEach (hmem : ∀ x ∈ xs, x ∈ visits) (hy : y ∈ visits) (hnot : y ∉ xs)
    (hinv : v.Inv s) :
    (v.Untouched y (forEach body xs s).1 ↔ v.Untouched y s) ∧
      (v.Untouched y (forEach body' xs s).1 ↔ v.Untouched y s) := by
  let Same : σ → Prop := fun t => v.Inv t ∧ (v.Untouched y t ↔ v.Untouched y s)
  have hne : ∀ x ∈ xs, x ≠ y := fun x hx heq => hnot (heq ▸ hx)
  have hstep : ∀ x ∈ xs, ∀ t, Same t → Same (body x t).1 := by
    rintro x hx t ⟨ht, hiff⟩
    exact ⟨(v.inv (hmem x hx) ht).1, (v.untouched (hmem x hx) hy (hne x hx) ht).1.trans hiff⟩
  have hstep' : ∀ x ∈ xs, ∀ t, Same t → Same (body' x t).1 := by
    rintro x hx t ⟨ht, hiff⟩
    exact ⟨(v.inv (hmem x hx) ht).2, (v.untouched (hmem x hx) hy (hne x hx) ht).2.trans hiff⟩
  exact ⟨(forEach_inv xs hstep s ⟨hinv, Iff.rfl⟩).2, (forEach_inv xs hstep' s ⟨hinv, Iff.rfl⟩).2⟩

/-! ## The visits that are not left out -/

theorem forEach_erase (h : v.Ahead xs s) (hxs : ∀ x ∈ xs, v.leftOut x = false) :
    (forEach body' xs s).2 = none ∧
      forEach body' xs (v.erase s) = (v.erase (forEach body' xs s).1, none) := by
  induction xs generalizing s with
  | nil => exact ⟨rfl, rfl⟩
  | cons x xs ih =>
    obtain ⟨hreturns, hbody⟩ := v.body_erase (h.mem x List.mem_cons_self)
      (hxs x List.mem_cons_self) h.inv (h.untouched x List.mem_cons_self)
    have herased : (body' x (v.erase s)).2 = none := congrArg Prod.snd hbody
    rw [forEach_cons_ok hreturns, forEach_cons_ok herased, hbody]
    exact ih h.tail' fun y hy => hxs y (List.mem_cons_of_mem x hy)

theorem not_untouched_of_hasWork (h : v.Ahead xs s) (hxs : ∀ x ∈ xs, v.leftOut x = false)
    (hy : y ∈ xs) (hwork : v.HasWork y) : ¬ v.Untouched y (forEach body' xs s).1 := by
  induction xs generalizing s with
  | nil => cases hy
  | cons x xs ih =>
    obtain ⟨hreturns, -⟩ := v.body_erase (h.mem x List.mem_cons_self)
      (hxs x List.mem_cons_self) h.inv (h.untouched x List.mem_cons_self)
    rw [forEach_cons_ok hreturns]
    rcases List.mem_cons.mp hy with rfl | hy
    · have hnot : y ∉ xs := (List.nodup_cons.mp h.nodup).1
      rw [(untouched_forEach h.tail'.mem (h.mem y List.mem_cons_self) hnot h.tail'.inv).2]
      exact v.works (h.mem y List.mem_cons_self) (hxs y List.mem_cons_self) h.inv
        (h.untouched y List.mem_cons_self) hwork
    · exact ih h.tail' (fun z hz => hxs z (List.mem_cons_of_mem x hz)) hy

theorem forEach_idle (h : v.Ahead xs s) (hxs : ∀ x ∈ xs, v.leftOut x = false)
    (hidle : ∀ x ∈ xs, ¬ v.HasWork x) : (forEach body' xs s).1 = s := by
  induction xs with
  | nil => rfl
  | cons x xs ih =>
    obtain ⟨hreturns, -⟩ := v.body_erase (h.mem x List.mem_cons_self)
      (hxs x List.mem_cons_self) h.inv (h.untouched x List.mem_cons_self)
    have hsame : (body' x s).1 = s := v.idle (h.mem x List.mem_cons_self)
      (hxs x List.mem_cons_self) h.inv (h.untouched x List.mem_cons_self)
      (hidle x List.mem_cons_self)
    rw [forEach_cons_ok hreturns, hsame]
    exact ih h.skip (fun y hy => hxs y (List.mem_cons_of_mem x hy))
      fun y hy => hidle y (List.mem_cons_of_mem x hy)

/-- What is done for a visit that has work is seen in the end. -/
theorem erase_ne_of_hasWork (h : v.Ahead xs s) (hxs : ∀ x ∈ xs, v.leftOut x = false)
    (hy : y ∈ xs) (hwork : v.HasWork y) {t : σ} (ht : v.Untouched y t) :
    v.erase t ≠ (forEach body' xs (v.erase s)).1 := by
  intro hsame
  have hlost : v.Untouched y (v.erase t) :=
    (v.untouched_erase (h.mem y hy) (hxs y hy)).mpr ht
  rw [hsame, (forEach_erase h hxs).2] at hlost
  exact not_untouched_of_hasWork h hxs hy hwork
    ((v.untouched_erase (h.mem y hy) (hxs y hy)).mp hlost)

/-- Nothing is lost with visits that have no work. -/
theorem erase_eq_forEach_iff (h : v.Ahead xs s) (hxs : ∀ x ∈ xs, v.leftOut x = false) :
    v.erase s = (forEach body' xs (v.erase s)).1 ↔ ∀ x ∈ xs, ¬ v.HasWork x := by
  constructor
  · intro hsame y hy hwork
    exact erase_ne_of_hasWork h hxs hy hwork (h.untouched y hy) hsame
  · intro hidle
    rw [(forEach_erase h hxs).2, forEach_idle h hxs hidle]

/-! ## The whole loop -/

/-- A visit that ends the loop for another one that has work. -/
def Starves (v : Visits body body' visits) (x y : α) : Prop :=
  v.leftOut x = true ∧ v.Ends x ∧ v.leftOut y = false ∧ v.HasWork y

/-- A visit with work that is put off. -/
def Loses (v : Visits body body' visits) (x : α) : Prop :=
  v.leftOut x = false ∧ v.HasWork x ∧ v.Postponed x

theorem erase_forEach_iff_of_ahead (h : v.Ahead xs s) :
    v.erase (forEach body xs s).1 =
        (forEach body' (xs.filter fun x => !v.leftOut x) (v.erase s)).1 ↔
      (xs.Pairwise fun x y => ¬ v.Starves x y) ∧ ∀ x ∈ xs, ¬ v.Loses x := by
  induction xs generalizing s with
  | nil => exact iff_of_true rfl ⟨List.Pairwise.nil, nofun⟩
  | cons x xs ih =>
    have hx : x ∈ visits := h.mem x List.mem_cons_self
    have huntouched := h.untouched x List.mem_cons_self
    rw [List.pairwise_cons, List.forall_mem_cons]
    cases hout : v.leftOut x with
    | false =>
      have hothers : ∀ y ∈ (x :: xs).filter (fun x => !v.leftOut x), v.leftOut y = false := by
        simp
      have hnone : ∀ y ∈ xs, ¬ v.Starves x y := by
        rintro y - ⟨hout', -⟩
        rw [hout] at hout'
        cases hout'
      by_cases hloses : v.Loses x
      · -- its part stays as it was
        have hskip : forEach body (x :: xs) s = forEach body xs s := by
          have hpostponed := v.postponed hx hout h.inv huntouched hloses.2.1 hloses.2.2
          rw [forEach_cons_ok (by rw [hpostponed]), hpostponed]
        have hlost : v.Untouched x (forEach body xs s).1 :=
          (untouched_forEach h.skip.mem hx (List.nodup_cons.mp h.nodup).1 h.inv).1.mpr huntouched
        rw [hskip]
        refine iff_of_false ?_ fun hboth => hboth.2.1 hloses
        exact erase_ne_of_hasWork (h.filter _) hothers
          (List.mem_filter.mpr ⟨List.mem_cons_self, by rw [hout]; rfl⟩) hloses.2.1 hlost
      · have hbody : body x s = body' x s := v.not_postponed hx hout h.inv huntouched
          fun hwork hpostponed => hloses ⟨hout, hwork, hpostponed⟩
        obtain ⟨hreturns, hwithout⟩ := v.body_erase hx hout h.inv huntouched
        have herased : (body' x (v.erase s)).2 = none := congrArg Prod.snd hwithout
        rw [List.filter_cons_of_pos (by rw [hout]; rfl), forEach_cons_ok (hbody ▸ hreturns),
          forEach_cons_ok herased, hwithout, ← hbody, ih h.tail]
        exact ⟨fun hrest => ⟨⟨hnone, hrest.1⟩, hloses, hrest.2⟩,
          fun hall => ⟨hall.1.2, hall.2.2⟩⟩
    | true =>
      have hsame : v.erase (body x s).1 = v.erase s := v.erase_body hx hout h.inv
      have hloses : ¬ v.Loses x := fun hloses => by
        rw [hloses.1] at hout
        cases hout
      rw [List.filter_cons_of_neg (by rw [hout]; decide)]
      by_cases hends : v.Ends x
      · -- the visits after it are lost
        have hthrows : (body x s).2 ≠ none := fun hreturns =>
          (v.ends hx hout h.inv huntouched).mp hreturns hends
        rw [forEach_cons_error hthrows, hsame, erase_eq_forEach_iff (h.skip.filter _) (by simp)]
        constructor
        · intro hidle
          have hlost : ∀ y ∈ xs, v.leftOut y = false → ¬ v.HasWork y := fun y hy hother =>
            hidle y (List.mem_filter.mpr ⟨hy, by rw [hother]; rfl⟩)
          refine ⟨⟨fun y hy hstarves => hlost y hy hstarves.2.2.1 hstarves.2.2.2, ?_⟩, hloses,
            fun y hy hy' => hlost y hy hy'.1 hy'.2.1⟩
          refine List.pairwise_iff_forall_sublist.mpr ?_
          intro z y hsublist hstarves
          have hy : y ∈ xs := hsublist.subset (List.mem_cons_of_mem z List.mem_cons_self)
          exact hlost y hy hstarves.2.2.1 hstarves.2.2.2
        · rintro ⟨⟨hnone, -⟩, -⟩ y hy hwork
          obtain ⟨hy, hother⟩ := List.mem_filter.mp hy
          exact hnone y hy ⟨hout, hends, by simpa using hother, hwork⟩
      · have hreturns : (body x s).2 = none := (v.ends hx hout h.inv huntouched).mpr hends
        rw [forEach_cons_ok hreturns, ← hsame, ih h.tail]
        exact ⟨fun hrest => ⟨⟨fun y _ hstarves => hends hstarves.2.1, hrest.1⟩, hloses, hrest.2⟩,
          fun hall => ⟨hall.1.2, hall.2.2⟩⟩

/-- **The loop does for the others what the loop without the visits that are left out does, exactly
when none of these ends it before one of the others that has work, and puts off none.** -/
theorem erase_forEach_iff (hinv : v.Inv s) (huntouched : ∀ x ∈ visits, v.Untouched x s) :
    v.erase (forEach body visits s).1 =
        (forEach body' (visits.filter fun x => !v.leftOut x) (v.erase s)).1 ↔
      (visits.Pairwise fun x y => ¬ v.Starves x y) ∧ ∀ x ∈ visits, ¬ v.Loses x :=
  erase_forEach_iff_of_ahead ⟨fun _ hx => hx, v.nodup, hinv, huntouched⟩

end Visits
