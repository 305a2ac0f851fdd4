/-!
# Remote — programs that send requests

A program sends requests to a system whose state it does not hold.  A request that fails may have
taken effect all the same.  The first error ends the program and leaves the state as it is then.
-/

/-- A program over a state -/
structure Remote (ε σ α : Type) where
  run : σ → Except ε α × σ

/-- A failure of a request -/
structure Failure (ε : Type) where
  error : ε
  -- the request took effect
  applied : Bool := false
  deriving DecidableEq, Repr

namespace Remote

variable {ε σ α β : Type}

protected def pure (a : α) : Remote ε σ α where
  run s := (.ok a, s)

protected def bind (m : Remote ε σ α) (k : α → Remote ε σ β) : Remote ε σ β where
  run s :=
    match m.run s with
    | (.ok a, s) => (k a).run s
    | (.error e, s) => (.error e, s)

instance : Monad (Remote ε σ) where
  pure := Remote.pure
  bind := Remote.bind

def fail (e : ε) : Remote ε σ α where
  run s := (.error e, s)

/-- A request: what it is answered, and what it does to the state when the answer is no error. -/
def request (failure : Option (Failure ε)) (answer : σ → Except ε α) (effect : σ → σ) :
    Remote ε σ α where
  run s :=
    match failure, answer s with
    | some failure, _ => (.error failure.error, if failure.applied then effect s else s)
    | none, .error e => (.error e, s)
    | none, .ok a => (.ok a, effect s)

/-! ## Runs -/

section

variable {m : Remote ε σ α} {k : α → Remote ε σ β} {s s' : σ} {a : α} {e : ε}
  {answer : σ → Except ε α} {effect : σ → σ}

@[simp] theorem run_pure (a : α) (s : σ) : (pure a : Remote ε σ α).run s = (.ok a, s) := rfl

@[simp] theorem run_fail (e : ε) (s : σ) : (fail e : Remote ε σ α).run s = (.error e, s) := rfl

theorem bind_ok (h : m.run s = (.ok a, s')) : (m >>= k).run s = (k a).run s' := by
  change (Remote.bind m k).run s = _
  unfold Remote.bind
  dsimp only
  rw [h]

theorem bind_error (h : m.run s = (.error e, s')) : (m >>= k).run s = (.error e, s') := by
  change (Remote.bind m k).run s = _
  unfold Remote.bind
  dsimp only
  rw [h]

theorem request_ok (h : answer s = .ok a) :
    (request none answer effect).run s = (.ok a, effect s) := by
  unfold request
  dsimp only
  rw [h]

theorem request_error (h : answer s = .error e) :
    (request none answer effect).run s = (.error e, s) := by
  unfold request
  dsimp only
  rw [h]

/-- After a request the state is the old one, or the one after its effect; without an error it is
the latter. -/
theorem request_cases (failure : Option (Failure ε)) (answer : σ → Except ε α) (effect : σ → σ)
    (s : σ) : (∃ e, (request failure answer effect).run s = (.error e, s)) ∨
      (∃ e, (request failure answer effect).run s = (.error e, effect s)) ∨
      ∃ a, answer s = .ok a ∧ (request failure answer effect).run s = (.ok a, effect s) := by
  unfold request
  cases failure with
  | some failure =>
    cases happlied : failure.applied with
    | false => exact .inl ⟨failure.error, by simp [happlied]⟩
    | true => exact .inr (.inl ⟨failure.error, by simp [happlied]⟩)
  | none =>
    cases hanswer : answer s with
    | error e => exact .inl ⟨e, by simp [hanswer]⟩
    | ok a => exact .inr (.inr ⟨a, rfl, by simp [hanswer]⟩)

end

/-! ## Invariants -/

/-- The program keeps an invariant, whether it fails or not. -/
def Preserves (I : σ → Prop) (m : Remote ε σ α) : Prop := ∀ s, I s → I (m.run s).2

section

variable {I : σ → Prop} {m : Remote ε σ α} {k : α → Remote ε σ β}

theorem preserves_pure (a : α) : (pure a : Remote ε σ α).Preserves I := fun _ hs => hs

theorem preserves_fail (e : ε) : (fail e : Remote ε σ α).Preserves I := fun _ hs => hs

theorem preserves_bind (hm : m.Preserves I) (hk : ∀ a, (k a).Preserves I) :
    (m >>= k).Preserves I := by
  intro s hs
  have hnext := hm s hs
  rcases hms : m.run s with ⟨e | a, s'⟩
  · rw [bind_error hms]
    rw [hms] at hnext
    exact hnext
  · rw [bind_ok hms]
    rw [hms] at hnext
    exact hk a s' hnext

theorem preserves_request {failure : Option (Failure ε)} {answer : σ → Except ε α}
    {effect : σ → σ} (h : ∀ s, I s → I (effect s)) :
    (request failure answer effect).Preserves I := by
  intro s hs
  rcases request_cases failure answer effect s with ⟨e, h'⟩ | ⟨e, h'⟩ | ⟨a, -, h'⟩ <;> rw [h']
  · exact hs
  · exact h s hs
  · exact h s hs

end

/-! ## Runs that return -/

/-- Where the first program returns, the second one does the same. -/
def ReturnsAs (m m' : Remote ε σ α) : Prop :=
  ∀ s a s', m.run s = (.ok a, s') → m'.run s = (.ok a, s')

section

variable {m m' : Remote ε σ α} {k k' : α → Remote ε σ β}

theorem returnsAs_refl (m : Remote ε σ α) : m.ReturnsAs m := fun _ _ _ h => h

theorem returnsAs_bind (hm : m.ReturnsAs m') (hk : ∀ a, (k a).ReturnsAs (k' a)) :
    (m >>= k).ReturnsAs (m' >>= k') := by
  intro s b s' h
  rcases hrun : m.run s with ⟨e | a, s₁⟩
  · rw [bind_error hrun] at h
    cases h
  · rw [bind_ok hrun] at h
    rw [bind_ok (hm s a s₁ hrun)]
    exact hk a s₁ b s' h

/-- A request that returns has not failed. -/
theorem returnsAs_request (failure : Option (Failure ε)) (answer : σ → Except ε α)
    (effect : σ → σ) : (request failure answer effect).ReturnsAs (request none answer effect) := by
  intro s a s' h
  cases failure with
  | none => exact h
  | some failure => cases h

end

end Remote
