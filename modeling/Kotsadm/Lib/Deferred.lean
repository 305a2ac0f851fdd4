import Mathlib.Tactic.TypeStar

/-!
# Deferred — Go functions with a deferred handler

The idiom: a function keeps a variable `finalError`, each of its error returns may assign it, and a
deferred function reads it when the function returns.  A `Body` is the part of such a function after
the `defer` statement.  Its `clean` field says that a body which goes on has assigned nothing, so
what the handler sees is decided by the return that was taken.

`wp` computes along a body what it ends in.  `Leads` and `Reports` are the facts about a body that
need no computation: what it does to the state, and that every error return has assigned the error
it returns, which is the correctness of the idiom.
-/

/-- The contexts that `errors.Wrap` put around a cause, the outermost first. -/
structure GoError where
  contexts : List String := []
  cause : String
  deriving DecidableEq, Repr

namespace GoError

def wrap (e : GoError) (context : String) : GoError := { e with contexts := context :: e.contexts }

/-- `err.Error()` -/
def text (e : GoError) : String := ": ".intercalate (e.contexts ++ [e.cause])

/-- `e` is `e₀`, or `e₀` with one more context. -/
def Wraps (e e₀ : GoError) : Prop := e = e₀ ∨ ∃ context, e = e₀.wrap context

theorem wraps_wrap (e : GoError) (context : String) : (e.wrap context).Wraps e :=
  .inr ⟨context, rfl⟩

end GoError

/-- `errors.Wrap` of the error of a call. -/
def Except.wrapError {α : Type*} (context : String) : Except GoError α → Except GoError α
  | .ok a => .ok a
  | .error e => .error (e.wrap context)

theorem Except.wrapError_eq_ok {α : Type*} {context : String} {x : Except GoError α} {a : α} :
    x.wrapError context = .ok a ↔ x = .ok a := by
  cases x with
  | error e => simp [Except.wrapError]
  | ok b => simp [Except.wrapError]

/-- How a body ends before its last statement. -/
inductive Abort where
  | error (e : GoError)
  | panic
  deriving DecidableEq, Repr

structure Frame (σ : Type*) where
  state : σ
  finalError : Option GoError

structure Body (σ α : Type) where
  run : Frame σ → Except Abort α × Frame σ
  clean : ∀ f a f', run f = (.ok a, f') → f'.finalError = f.finalError

namespace Body

variable {σ α β : Type}

protected def pure (a : α) : Body σ α where
  run f := (.ok a, f)
  clean f b f' h := by
    cases h
    rfl

protected def bind (m : Body σ α) (k : α → Body σ β) : Body σ β where
  run f :=
    match m.run f with
    | (.ok a, f') => (k a).run f'
    | (.error e, f') => (.error e, f')
  clean f b f' h := by
    split at h
    next a g hm => rw [(k a).clean g b f' h, m.clean f a g hm]
    next => cases h

instance : Monad (Body σ) where
  pure := Body.pure
  bind := Body.bind

/-- `if err := call; err != nil { return errors.Wrap(err, context) }` -/
def orReturn (context : String) (call : σ → Except GoError α × σ) : Body σ α where
  run f :=
    match call f.state with
    | (.ok a, s) => (.ok a, { f with state := s })
    | (.error e, s) => (.error (.error (e.wrap context)), { f with state := s })
  clean f a f' h := by
    split at h
    next =>
      cases h
      rfl
    next => cases h

/-- `if err := call; err != nil { return err }` -/
def orReturnErr (call : σ → Except GoError α × σ) : Body σ α where
  run f :=
    match call f.state with
    | (.ok a, s) => (.ok a, { f with state := s })
    | (.error e, s) => (.error (.error e), { f with state := s })
  clean f a f' h := by
    split at h
    next =>
      cases h
      rfl
    next => cases h

/-- `if err := call; err != nil { finalError = err; return errors.Wrap(err, context) }` -/
def orFinal (context : String) (call : σ → Except GoError α × σ) : Body σ α where
  run f :=
    match call f.state with
    | (.ok a, s) => (.ok a, { f with state := s })
    | (.error e, s) => (.error (.error (e.wrap context)), ⟨s, some e⟩)
  clean f a f' h := by
    split at h
    next =>
      cases h
      rfl
    next => cases h

/-- `finalError = err; return err` -/
def fail (e : GoError) : Body σ α where
  run f := (.error (.error e), { f with finalError := some e })
  clean f a f' h := by cases h

def panic : Body σ α where
  run f := (.error .panic, f)
  clean f a f' h := by cases h

def forEach (xs : List α) (body : α → Body σ Unit) : Body σ Unit :=
  match xs with
  | [] => Body.pure ()
  | x :: xs => Body.bind (body x) fun _ => forEach xs body

/-- A call whose outcome does not depend on the state and that leaves the state alone. -/
def outcome (x : Except GoError α) : σ → Except GoError α × σ := fun s => (x, s)

theorem run_bind (m : Body σ α) (k : α → Body σ β) (f : Frame σ) :
    (m >>= k).run f =
      match m.run f with
      | (.ok a, f') => (k a).run f'
      | (.error e, f') => (.error e, f') := rfl

/-- After a call that succeeds, the rest goes on from the state it leaves. -/
theorem run_orReturn_ok {context : String} {call : σ → Except GoError α × σ} {k : α → Body σ β}
    {f : Frame σ} {a : α} {s : σ} (h : call f.state = (.ok a, s)) :
    (orReturn context call >>= k).run f = (k a).run { f with state := s } := by
  rw [run_bind]
  unfold orReturn
  dsimp only
  rw [h]

theorem run_orReturn_error {context : String} {call : σ → Except GoError α × σ}
    {k : α → Body σ β} {f : Frame σ} {e : GoError} {s : σ} (h : call f.state = (.error e, s)) :
    (orReturn context call >>= k).run f =
      (.error (.error (e.wrap context)), { f with state := s }) := by
  rw [run_bind]
  unfold orReturn
  dsimp only
  rw [h]

theorem run_orReturn_outcome_ok {context : String} {x : Except GoError α} {k : α → Body σ β}
    {f : Frame σ} {a : α} (h : x = .ok a) :
    (orReturn context (outcome x) >>= k).run f = (k a).run f :=
  run_orReturn_ok (congrArg (·, f.state) h)

theorem run_orReturn_outcome_error {context : String} {x : Except GoError α} {k : α → Body σ β}
    {f : Frame σ} {e : GoError} (h : x = .error e) :
    (orReturn context (outcome x) >>= k).run f = (.error (.error (e.wrap context)), f) :=
  run_orReturn_error (congrArg (·, f.state) h)

/-! ## What a body ends in -/

/-- The weakest precondition of `Q`: what the body ends in satisfies `Q`. -/
def wp (m : Body σ α) (Q : Except Abort α → Frame σ → Prop) (f : Frame σ) : Prop :=
  Q (m.run f).1 (m.run f).2

section Wp

variable {Q : Except Abort β → Frame σ → Prop} {f : Frame σ}

theorem wp_bind (m : Body σ α) (k : α → Body σ β) :
    (m >>= k).wp Q f ↔
      m.wp (fun r f' =>
        match r with
        | .ok a => (k a).wp Q f'
        | .error e => Q (.error e) f') f := by
  unfold wp
  rw [run_bind]
  rcases m.run f with ⟨a | e, f'⟩ <;> rfl

theorem wp_pure (b : β) : (Pure.pure b : Body σ β).wp Q f ↔ Q (.ok b) f := Iff.rfl

/-- A call that is recorded when it fails, and what comes after it. -/
theorem wp_orFinal_bind (context : String) (call : σ → Except GoError α × σ) (k : α → Body σ β) :
    (orFinal context call >>= k).wp Q f ↔
      match call f.state with
      | (.ok a, s) => (k a).wp Q { f with state := s }
      | (.error e, s) => Q (.error (.error (e.wrap context))) ⟨s, some e⟩ := by
  rw [wp_bind]
  unfold wp orFinal
  dsimp only
  rcases call f.state with ⟨e | a, s⟩ <;> rfl

/-- A call that is not recorded when it fails, and what comes after it. -/
theorem wp_orReturn_bind (context : String) (call : σ → Except GoError α × σ)
    (k : α → Body σ β) :
    (orReturn context call >>= k).wp Q f ↔
      match call f.state with
      | (.ok a, s) => (k a).wp Q { f with state := s }
      | (.error e, s) => Q (.error (.error (e.wrap context))) { f with state := s } := by
  rw [wp_bind]
  unfold wp orReturn
  dsimp only
  rcases call f.state with ⟨e | a, s⟩ <;> rfl

theorem wp_orReturnErr_bind (call : σ → Except GoError α × σ) (k : α → Body σ β) :
    (orReturnErr call >>= k).wp Q f ↔
      match call f.state with
      | (.ok a, s) => (k a).wp Q { f with state := s }
      | (.error e, s) => Q (.error (.error e)) { f with state := s } := by
  rw [wp_bind]
  unfold wp orReturnErr
  dsimp only
  rcases call f.state with ⟨e | a, s⟩ <;> rfl

theorem wp_orFinal (context : String) (call : σ → Except GoError β × σ) :
    (orFinal context call).wp Q f ↔
      match call f.state with
      | (.ok b, s) => Q (.ok b) { f with state := s }
      | (.error e, s) => Q (.error (.error (e.wrap context))) ⟨s, some e⟩ := by
  unfold wp orFinal
  dsimp only
  rcases call f.state with ⟨e | b, s⟩ <;> rfl

theorem wp_orReturn (context : String) (call : σ → Except GoError β × σ) :
    (orReturn context call).wp Q f ↔
      match call f.state with
      | (.ok b, s) => Q (.ok b) { f with state := s }
      | (.error e, s) => Q (.error (.error (e.wrap context))) { f with state := s } := by
  unfold wp orReturn
  dsimp only
  rcases call f.state with ⟨e | b, s⟩ <;> rfl

end Wp

/-! ## What a body does to the state -/

/-- From a state in `P` a normal end with `a` satisfies `Q a`, and any other end satisfies `I`. -/
def Leads (I P : σ → Prop) (m : Body σ α) (Q : α → σ → Prop) : Prop :=
  ∀ f, P f.state →
    match m.run f with
    | (.ok a, f') => Q a f'.state
    | (.error _, f') => I f'.state

/-- The same for a call, whose error keeps the body from going on. -/
def CallLeads (I P : σ → Prop) (call : σ → Except GoError α × σ) (Q : α → σ → Prop) : Prop :=
  ∀ s, P s →
    match call s with
    | (.ok a, s') => Q a s'
    | (.error _, s') => I s'

section Leads

variable {I P : σ → Prop} {Q : α → σ → Prop}

theorem leads_mono {P' : σ → Prop} {m : Body σ α} (hP : ∀ s, P' s → P s) (hm : m.Leads I P Q) :
    m.Leads I P' Q :=
  fun f hf => hm f (hP f.state hf)

/-- Weaker ends. -/
theorem leads_post {I' : σ → Prop} {Q' : α → σ → Prop} {m : Body σ α} (hm : m.Leads I P Q)
    (hI : ∀ s, I s → I' s) (hQ : ∀ a s, Q a s → Q' a s) : m.Leads I' P Q' := by
  intro f hf
  have hend := hm f hf
  generalize m.run f = ending at hend ⊢
  obtain ⟨e | a, f'⟩ := ending
  · exact hI f'.state hend
  · exact hQ a f'.state hend

theorem leads_pure {a : α} (h : ∀ s, P s → Q a s) : (Pure.pure a : Body σ α).Leads I P Q :=
  fun f hf => h f.state hf

theorem leads_fail {e : GoError} (h : ∀ s, P s → I s) : (fail e : Body σ α).Leads I P Q :=
  fun f hf => h f.state hf

theorem leads_panic (h : ∀ s, P s → I s) : (panic : Body σ α).Leads I P Q :=
  fun f hf => h f.state hf

theorem leads_bind {R : β → σ → Prop} {m : Body σ α} {k : α → Body σ β} (hm : m.Leads I P Q)
    (hk : ∀ a, (k a).Leads I (Q a) R) : (m >>= k).Leads I P R := by
  intro f hf
  have hm' := hm f hf
  rw [run_bind]
  generalize m.run f = ending at hm' ⊢
  obtain ⟨e | a, f'⟩ := ending
  · exact hm'
  · exact hk a f' hm'

theorem leads_orFinal {context : String} {call : σ → Except GoError α × σ}
    (hcall : CallLeads I P call Q) : (orFinal context call).Leads I P Q := by
  intro f hf
  have hs := hcall f.state hf
  unfold orFinal
  dsimp only
  generalize call f.state = returned at hs ⊢
  obtain ⟨e | a, s⟩ := returned <;> exact hs

theorem leads_orReturn {context : String} {call : σ → Except GoError α × σ}
    (hcall : CallLeads I P call Q) : (orReturn context call).Leads I P Q := by
  intro f hf
  have hs := hcall f.state hf
  unfold orReturn
  dsimp only
  generalize call f.state = returned at hs ⊢
  obtain ⟨e | a, s⟩ := returned <;> exact hs

theorem leads_orReturnErr {call : σ → Except GoError α × σ}
    (hcall : CallLeads I P call Q) : (orReturnErr call).Leads I P Q := by
  intro f hf
  have hs := hcall f.state hf
  unfold orReturnErr
  dsimp only
  generalize call f.state = returned at hs ⊢
  obtain ⟨e | a, s⟩ := returned <;> exact hs

/-- A call that leaves the state alone, and what its outcome was. -/
theorem leads_orFinal_outcome {context : String} {x : Except GoError α}
    (hI : ∀ s e, P s → x = .error e → I s) :
    (orFinal context (outcome x)).Leads I P fun a s => P s ∧ x = .ok a := by
  apply leads_orFinal
  intro s hs
  unfold outcome
  cases hx : x with
  | error e => exact hI s e hs hx
  | ok a => exact ⟨hs, rfl⟩

theorem leads_orReturn_outcome {context : String} {x : Except GoError α}
    (hI : ∀ s e, P s → x = .error e → I s) :
    (orReturn context (outcome x)).Leads I P fun a s => P s ∧ x = .ok a := by
  apply leads_orReturn
  intro s hs
  unfold outcome
  cases hx : x with
  | error e => exact hI s e hs hx
  | ok a => exact ⟨hs, rfl⟩

/-- A loop over calls that leave the state alone. -/
theorem leads_forEach_outcome {context : String} {xs : List α} {x : α → Except GoError Unit}
    (hI : ∀ s, ∀ a ∈ xs, ∀ e, P s → x a = .error e → I s) :
    (forEach xs fun a => orFinal context (outcome (x a))).Leads I P
      fun _ s => P s ∧ ∀ a ∈ xs, x a = .ok () := by
  induction xs generalizing P with
  | nil => exact leads_pure fun s hs => ⟨hs, fun a ha => by cases ha⟩
  | cons a xs ih =>
    have hfirst : (orFinal context (outcome (x a))).Leads I P fun b s => P s ∧ x a = .ok b :=
      leads_orFinal_outcome fun s e hs he => hI s a List.mem_cons_self e hs he
    refine leads_bind hfirst fun b => ?_
    intro f hf
    have hrest := ih (P := fun s => P s ∧ x a = .ok b)
      (fun s c hc e hs he => hI s c (List.mem_cons_of_mem a hc) e hs.1 he) f hf
    generalize (forEach xs fun a => orFinal context (outcome (x a))).run f = ending at hrest ⊢
    obtain ⟨e | u, f'⟩ := ending
    · exact hrest
    · refine ⟨hrest.1.1, ?_⟩
      intro c hc
      rcases List.mem_cons.mp hc with rfl | hc
      · exact hrest.1.2
      · exact hrest.2 c hc

theorem leads_forEach {xs : List α} {body : α → Body σ Unit}
    (hbody : ∀ x ∈ xs, (body x).Leads I P fun _ => P) : (forEach xs body).Leads I P fun _ => P := by
  induction xs with
  | nil => exact leads_pure fun _ hs => hs
  | cons x xs ih =>
    have hrest := ih fun y hy => hbody y (List.mem_cons_of_mem x hy)
    exact leads_bind (hbody x List.mem_cons_self) fun _ => hrest

theorem leads_pure_bind {a : α} {k : α → Body σ β} {R : β → σ → Prop} (hk : (k a).Leads I P R) :
    (Pure.pure a >>= k : Body σ β).Leads I P R := hk

/-- A body that keeps `P`, which implies what its aborts are to satisfy, and what comes after it. -/
theorem leads_keep {m : Body σ α} {k : α → Body σ β} {R : β → σ → Prop} (hI : ∀ s, P s → I s)
    (hm : m.Leads P P fun _ => P) (hk : ∀ a, (k a).Leads I P R) : (m >>= k).Leads I P R := by
  apply leads_bind (Q := fun _ => P) ?_ hk
  intro f hf
  have hend := hm f hf
  generalize m.run f = ending at hend ⊢
  obtain ⟨e | a, f'⟩ := ending
  · exact hI f'.state hend
  · exact hend

/-- A call that keeps `P`, which implies what its errors are to satisfy. -/
theorem callLeads_of_keeps {call : σ → Except GoError α × σ} (hI : ∀ s, P s → I s)
    (hcall : ∀ s, P s → P (call s).2) : CallLeads I P call fun _ => P := by
  intro s hs
  have hs' := hcall s hs
  generalize call s = returned at hs' ⊢
  obtain ⟨e | a, s'⟩ := returned
  · exact hI s' hs'
  · exact hs'

end Leads

/-- Whatever the body ends in, the state satisfies `I` if it did before. -/
def Preserves (I : σ → Prop) (m : Body σ α) : Prop := m.Leads I I fun _ => I

section Preserves

variable {I : σ → Prop}

theorem preserves_state {m : Body σ α} (h : m.Preserves I) (f : Frame σ) (hf : I f.state) :
    I (m.run f).2.state := by
  have hend := h f hf
  generalize m.run f = ending at hend ⊢
  obtain ⟨e | a, f'⟩ := ending <;> exact hend

theorem preserves_pure (a : α) : (Pure.pure a : Body σ α).Preserves I := leads_pure fun _ hs => hs

theorem preserves_fail (e : GoError) : (fail e : Body σ α).Preserves I := leads_fail fun _ hs => hs

theorem preserves_panic : (panic : Body σ α).Preserves I := leads_panic fun _ hs => hs

theorem preserves_bind {m : Body σ α} {k : α → Body σ β} (hm : m.Preserves I)
    (hk : ∀ a, (k a).Preserves I) : (m >>= k).Preserves I := leads_bind hm hk

theorem preserves_orFinal {context : String} {call : σ → Except GoError α × σ}
    (hcall : ∀ s, I s → I (call s).2) : (orFinal context call).Preserves I :=
  leads_orFinal (callLeads_of_keeps (fun _ hs => hs) hcall)

theorem preserves_orReturn {context : String} {call : σ → Except GoError α × σ}
    (hcall : ∀ s, I s → I (call s).2) : (orReturn context call).Preserves I :=
  leads_orReturn (callLeads_of_keeps (fun _ hs => hs) hcall)

theorem preserves_orReturnErr {call : σ → Except GoError α × σ}
    (hcall : ∀ s, I s → I (call s).2) : (orReturnErr call).Preserves I :=
  leads_orReturnErr (callLeads_of_keeps (fun _ hs => hs) hcall)

theorem preserves_forEach {xs : List α} {body : α → Body σ Unit}
    (hbody : ∀ x ∈ xs, (body x).Preserves I) : (forEach xs body).Preserves I :=
  leads_forEach hbody

end Preserves

/-! ## Reports -/

/-- The body does not panic, and an error return has assigned the error that it returns. -/
def Reports (m : Body σ α) : Prop :=
  ∀ f e f', m.run f = (.error e, f') →
    ∃ e₀ e₁, e = .error e₁ ∧ f'.finalError = some e₀ ∧ e₁.Wraps e₀

theorem reports_pure (a : α) : (Pure.pure a : Body σ α).Reports := by
  intro f e f' h
  cases h

theorem reports_fail (e : GoError) : (fail e : Body σ α).Reports := by
  intro f e' f' h
  cases h
  exact ⟨e, e, rfl, rfl, .inl rfl⟩

theorem reports_orFinal (context : String) (call : σ → Except GoError α × σ) :
    (orFinal context call).Reports := by
  intro f e f' h
  unfold orFinal at h
  dsimp only at h
  split at h
  next => cases h
  next e₀ s _ =>
    cases h
    exact ⟨e₀, e₀.wrap context, rfl, rfl, e₀.wraps_wrap context⟩

theorem reports_bind {m : Body σ α} {k : α → Body σ β} (hm : m.Reports)
    (hk : ∀ a, (k a).Reports) : (m >>= k).Reports := by
  intro f e f' h
  rw [run_bind] at h
  split at h
  next a g _ => exact hk a g e f' h
  next e' g hrun =>
    cases h
    exact hm f e f' hrun

theorem reports_forEach {xs : List α} {body : α → Body σ Unit} (hbody : ∀ x ∈ xs, (body x).Reports) :
    (forEach xs body).Reports := by
  induction xs with
  | nil => exact reports_pure ()
  | cons x xs ih =>
    apply reports_bind (hbody x List.mem_cons_self)
    intro _
    exact ih fun y hy => hbody y (List.mem_cons_of_mem x hy)

/-! ## Panics -/

def NoPanic (m : Body σ α) : Prop := ∀ f f', m.run f ≠ (.error .panic, f')

theorem noPanic_of_reports {m : Body σ α} (h : m.Reports) : m.NoPanic := by
  intro f f' hrun
  obtain ⟨e₀, e₁, hpanic, -, -⟩ := h f .panic f' hrun
  cases hpanic

theorem noPanic_pure (a : α) : (Pure.pure a : Body σ α).NoPanic := by
  intro f f' h
  cases h

theorem noPanic_orReturn (context : String) (call : σ → Except GoError α × σ) :
    (orReturn context call).NoPanic := by
  intro f f' h
  unfold orReturn at h
  dsimp only at h
  split at h <;> cases h

theorem noPanic_bind {m : Body σ α} {k : α → Body σ β} (hm : m.NoPanic) (hk : ∀ a, (k a).NoPanic) :
    (m >>= k).NoPanic := by
  intro f f' h
  rw [run_bind] at h
  split at h
  next a g _ => exact hk a g f' h
  next e g hrun =>
    cases h
    exact hm f f' hrun

/-- What holds of the normal ends and of the reported errors holds of the ends of a body that
reports all its errors. -/
theorem wp_of_reports {I : σ → Prop} {m : Body σ α} {Q : Except Abort α → Frame σ → Prop}
    {f : Frame σ} (hreports : m.Reports) (hpreserves : m.Preserves I) (hf : I f.state)
    (hok : ∀ a f', I f'.state → f'.finalError = f.finalError → Q (.ok a) f')
    (herror : ∀ e e₀ f', I f'.state → f'.finalError = some e₀ → e.Wraps e₀ →
      Q (.error (.error e)) f') : m.wp Q f := by
  have hstate := preserves_state hpreserves f hf
  unfold wp
  cases hrun : m.run f with
  | mk result f' =>
    rw [hrun] at hstate
    cases result with
    | ok a => exact hok a f' hstate (m.clean f a f' hrun)
    | error e =>
      obtain ⟨e₀, e₁, rfl, hfinal, hwraps⟩ := hreports f e f' hrun
      exact herror e₁ e₀ f' hstate hfinal hwraps

/-! ## The deferred handler -/

/-- Runs a body and then the deferred function, also after a panic. -/
def withDeferred (handler : Option GoError → σ → σ) (m : Body σ α) (s : σ) :
    Except Abort α × σ :=
  let (result, f) := m.run ⟨s, none⟩
  (result, handler f.finalError f.state)

end Body
