import Mathlib.Tactic.TypeStar

/-!
# Throws — computations that may throw, and loops whose body may throw

`forEach body xs s` runs `body` on the elements in order.  The first error ends the loop and is
returned, with the state as the body left it.
-/

universe u

theorem Except.bind_eq_ok {ε : Type*} {α β : Type u} {x : Except ε α} {f : α → Except ε β} {b : β} :
    (x >>= f) = .ok b ↔ ∃ a, x = .ok a ∧ f a = .ok b := by
  cases x with
  | error e => simp [bind, Except.bind]
  | ok a => simp [bind, Except.bind]

/-- A program throws when its first part does, or when the rest does. -/
theorem Except.throws_bind {ε : Type*} {α β : Type u} {x : Except ε α} {f : α → Except ε β}
    {P : Prop} (hf : ∀ a, x = .ok a → ((∃ e, f a = .error e) ↔ P)) :
    (∃ e, (x >>= f) = .error e) ↔ (∃ e, x = .error e) ∨ P := by
  cases x with
  | error e => exact iff_of_true ⟨e, rfl⟩ (.inl ⟨e, rfl⟩)
  | ok a =>
    refine (hf a rfl).trans ⟨.inr, fun h => h.resolve_left ?_⟩
    rintro ⟨e, he⟩
    cases he

theorem Except.map_eq_ok {ε α β : Type*} {x : Except ε α} {f : α → β} {b : β} :
    x.map f = .ok b ↔ ∃ a, x = .ok a ∧ f a = b := by
  cases x with
  | error e => simp [Except.map]
  | ok a => simp [Except.map]

/-- The elements of a list that is computed one by one, and what they were computed from. -/
theorem List.mapM_eq_ok {ε : Type*} {α : Type*} {β : Type u} {f : α → Except ε β} {xs : List α}
    {ys : List β} (h : xs.mapM f = .ok ys) :
    (∀ x ∈ xs, ∃ y ∈ ys, f x = .ok y) ∧ ∀ y ∈ ys, ∃ x ∈ xs, f x = .ok y := by
  induction xs generalizing ys with
  | nil =>
    cases h
    exact ⟨nofun, nofun⟩
  | cons x xs ih =>
    rw [List.mapM_cons] at h
    obtain ⟨y, hy, h⟩ := Except.bind_eq_ok.mp h
    obtain ⟨ys, hys, h⟩ := Except.bind_eq_ok.mp h
    cases h
    obtain ⟨hfrom, hback⟩ := ih hys
    constructor
    · intro x' hx'
      rcases List.mem_cons.mp hx' with rfl | hx'
      · exact ⟨y, List.mem_cons_self, hy⟩
      · obtain ⟨y', hy', heq⟩ := hfrom x' hx'
        exact ⟨y', List.mem_cons_of_mem y hy', heq⟩
    · intro y' hy'
      rcases List.mem_cons.mp hy' with rfl | hy'
      · exact ⟨x, List.mem_cons_self, hy⟩
      · obtain ⟨x', hx', heq⟩ := hback y' hy'
        exact ⟨x', List.mem_cons_of_mem x hx', heq⟩

/-- A list that is computed one by one is missing exactly when one of its elements is. -/
theorem List.mapM_eq_error_iff {ε : Type*} {α : Type*} {β : Type u} {f : α → Except ε β}
    {xs : List α} : (∃ e, xs.mapM f = .error e) ↔ ∃ x ∈ xs, ∃ e, f x = .error e := by
  induction xs with
  | nil => exact ⟨fun ⟨_, h⟩ => (by cases h), fun ⟨_, h, _⟩ => (by cases h)⟩
  | cons x xs ih =>
    rw [List.mapM_cons]
    cases hx : f x with
    | error e => exact ⟨fun _ => ⟨x, List.mem_cons_self, e, hx⟩, fun _ => ⟨e, rfl⟩⟩
    | ok y =>
      have hrest : (∃ e, (Except.ok y >>= fun y => xs.mapM f >>= fun ys => pure (y :: ys)) =
          Except.error e) ↔ ∃ e, xs.mapM f = .error e := by
        cases xs.mapM f with
        | error e => exact Iff.rfl
        | ok ys => exact ⟨fun ⟨_, h⟩ => (by cases h), fun ⟨_, h⟩ => (by cases h)⟩
      rw [hrest, ih]
      constructor
      · rintro ⟨x', hx', he⟩
        exact ⟨x', List.mem_cons_of_mem x hx', he⟩
      · rintro ⟨x', hx', e, he⟩
        rcases List.mem_cons.mp hx' with rfl | hx'
        · rw [hx] at he
          cases he
        · exact ⟨x', hx', e, he⟩

def forEach {α ε σ : Type*} (body : α → σ → σ × Option ε) : List α → σ → σ × Option ε
  | [], s => (s, none)
  | x :: xs, s =>
    match body x s with
    | (s', none) => forEach body xs s'
    | (s', some e) => (s', some e)

section

variable {α ε σ : Type*} {body : α → σ → σ × Option ε} {x : α} {xs : List α} {s : σ}

theorem forEach_cons_ok (h : (body x s).2 = none) :
    forEach body (x :: xs) s = forEach body xs (body x s).1 := by
  cases hbody : body x s with
  | mk s' e =>
    rw [hbody] at h
    cases h
    rw [forEach, hbody]

/-- The error ends the loop. -/
theorem forEach_cons_error (h : (body x s).2 ≠ none) : forEach body (x :: xs) s = body x s := by
  cases hbody : body x s with
  | mk s' e =>
    rw [hbody] at h
    cases e with
    | none => exact absurd rfl h
    | some e => rw [forEach, hbody]

end

/-- What every iteration preserves, the loop preserves, whether or not it ends with an error. -/
theorem forEach_inv {α ε σ : Type*} {body : α → σ → σ × Option ε} {I : σ → Prop} (xs : List α)
    (hbody : ∀ x ∈ xs, ∀ s, I s → I (body x s).1) (s : σ) (hs : I s) :
    I (forEach body xs s).1 := by
  induction xs generalizing s with
  | nil => exact hs
  | cons x xs ih =>
    have hx : I (body x s).1 := hbody x List.mem_cons_self s hs
    unfold forEach
    split
    next s' hrun =>
      rw [hrun] at hx
      exact ih (fun y hy => hbody y (List.mem_cons_of_mem x hy)) s' hx
    next s' e hrun =>
      rw [hrun] at hx
      exact hx

/-- What holds of the error of every iteration holds of the error that ends the loop. -/
theorem forEach_error {α ε σ : Type*} {body : α → σ → σ × Option ε} {I : σ → Prop} {P : ε → Prop}
    (xs : List α) (hbody : ∀ x ∈ xs, ∀ s, I s → I (body x s).1)
    (herror : ∀ x ∈ xs, ∀ s e, I s → (body x s).2 = some e → P e) (s : σ) (hs : I s) {e : ε}
    (h : (forEach body xs s).2 = some e) : P e := by
  induction xs generalizing s with
  | nil => cases h
  | cons x xs ih =>
    have hx : I (body x s).1 := hbody x List.mem_cons_self s hs
    have hfirst := herror x List.mem_cons_self s
    unfold forEach at h
    split at h
    next s' hrun =>
      rw [hrun] at hx
      exact ih (fun y hy => hbody y (List.mem_cons_of_mem x hy))
        (fun y hy => herror y (List.mem_cons_of_mem x hy)) s' hx h
    next s' e' hrun =>
      rw [hrun] at hfirst
      exact hfirst e hs h
