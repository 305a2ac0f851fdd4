import Mathlib.Logic.Basic

/-!
# Effects — programs that act on an outside world

A program gets the list of what was done before it, and gives what it returns, or the error it ends
with, and the list of what it did itself, the first action first.  What the world answers may depend
on everything that was done before.
-/

/-- Actions are of type `E`, errors of type `ε`. -/
def Effects (ε E α : Type) : Type := List E → Except ε α × List E

namespace Effects

variable {ε E α β σ : Type}

protected def pure (a : α) : Effects ε E α := fun _ => (.ok a, [])

protected def bind (m : Effects ε E α) (k : α → Effects ε E β) : Effects ε E β := fun before =>
  match m before with
  | (.ok a, done) =>
    let (r, done') := k a (before ++ done)
    (r, done ++ done')
  | (.error e, done) => (.error e, done)

instance : Monad (Effects ε E) where
  pure := Effects.pure
  bind := Effects.bind

/-- A result that is there without an action. -/
def ofExcept (x : Except ε α) : Effects ε E α := fun _ => (x, [])

/-- The world is asked, which is no action. -/
def look (answer : List E → α) : Effects ε E α := fun before => (.ok (answer before), [])

/-- One action, which may show what the answer was. -/
def act (answer : List E → α) (action : α → E) : Effects ε E α := fun before =>
  (.ok (answer before), [action (answer before)])

def throwIf (error : Option ε) : Effects ε E Unit := fun _ =>
  match error with
  | none => (.ok (), [])
  | some e => (.error e, [])

/-- The error is not passed on. -/
def attempt (m : Effects ε E α) : Effects ε E (Except ε α) := fun before =>
  let (r, done) := m before
  (.ok r, done)

def mapError {ε' : Type} (f : ε → ε') (m : Effects ε E α) : Effects ε' E α := fun before =>
  let (r, done) := m before
  (r.mapError f, done)

def forEach (body : α → Effects ε E Unit) : List α → Effects ε E Unit
  | [] => Effects.pure ()
  | x :: xs => (body x).bind fun _ => forEach body xs

/-- A loop that assigns to a variable. -/
def fold (body : σ → α → Effects ε E σ) : σ → List α → Effects ε E σ
  | s, [] => Effects.pure s
  | s, x :: xs => (body s x).bind fun s' => fold body s' xs

/-! ## Equations -/

section

variable (before : List E)

@[simp] theorem pure_apply (a : α) : (pure a : Effects ε E α) before = (.ok a, []) := rfl

@[simp] theorem ofExcept_apply (x : Except ε α) :
    (ofExcept x : Effects ε E α) before = (x, []) := rfl

@[simp] theorem look_apply (answer : List E → α) :
    (look answer : Effects ε E α) before = (.ok (answer before), []) := rfl

@[simp] theorem act_apply (answer : List E → α) (action : α → E) :
    (act answer action : Effects ε E α) before = (.ok (answer before), [action (answer before)]) :=
  rfl

@[simp] theorem throwIf_none : (throwIf none : Effects ε E Unit) before = (.ok (), []) := rfl

@[simp] theorem throwIf_some (e : ε) :
    (throwIf (some e) : Effects ε E Unit) before = (.error e, []) := rfl

theorem attempt_apply (m : Effects ε E α) :
    attempt m before = (.ok (m before).1, (m before).2) := rfl

theorem mapError_apply {ε' : Type} (f : ε → ε') (m : Effects ε E α) :
    mapError f m before = ((m before).1.mapError f, (m before).2) := rfl

theorem eq_of_fst {m : Effects ε E α} {r : Except ε α} (h : (m before).1 = r) :
    m before = (r, (m before).2) := by
  rw [← h]

/-- After a part that returns, the rest goes on from there. -/
theorem bind_ok {m : Effects ε E α} {k : α → Effects ε E β} {a : α} {done : List E}
    (h : m before = (.ok a, done)) :
    (m >>= k) before = ((k a (before ++ done)).1, done ++ (k a (before ++ done)).2) := by
  change m.bind k before = _
  unfold Effects.bind
  rw [h]

/-- What a program that returns has been through. -/
theorem bind_eq_ok {m : Effects ε E α} {k : α → Effects ε E β} {b : β} {done : List E} :
    (m >>= k) before = (.ok b, done) ↔ ∃ a done₁ done₂, m before = (.ok a, done₁) ∧
      k a (before ++ done₁) = (.ok b, done₂) ∧ done = done₁ ++ done₂ := by
  change m.bind k before = _ ↔ _
  unfold Effects.bind
  rcases hrun : m before with ⟨e | a, done₁⟩
  · simp
  · simp only
    rcases hrest : k a (before ++ done₁) with ⟨r, done₂⟩
    constructor
    · intro h
      cases h
      exact ⟨a, done₁, done₂, rfl, hrest, rfl⟩
    · intro h
      obtain ⟨a', done₁', done₂', h₁, h₂, rfl⟩ := h
      cases h₁
      rw [hrest] at h₂
      cases h₂
      rfl

theorem bind_error {m : Effects ε E α} {k : α → Effects ε E β} {e : ε} {done : List E}
    (h : m before = (.error e, done)) : (m >>= k) before = (.error e, done) := by
  change m.bind k before = _
  unfold Effects.bind
  rw [h]

@[simp] theorem ofExcept_ok_bind (a : α) (k : α → Effects ε E β) :
    (ofExcept (.ok a) >>= k) before = k a before := by
  rw [bind_ok before (ofExcept_apply before _), List.append_nil, List.nil_append]

@[simp] theorem ofExcept_error_bind (e : ε) (k : α → Effects ε E β) :
    (ofExcept (.error e) >>= k) before = (.error e, []) :=
  bind_error before (ofExcept_apply before _)

end

/-! ## What a program does -/

/-- Every action satisfies `P`, whatever was done before. -/
def Does (P : E → Prop) (m : Effects ε E α) : Prop := ∀ before, ∀ e ∈ (m before).2, P e

section Does

variable {P : E → Prop}

theorem does_pure (a : α) : (pure a : Effects ε E α).Does P := fun _ _ he => by cases he

theorem does_ofExcept (x : Except ε α) : (ofExcept x : Effects ε E α).Does P :=
  fun _ _ he => by cases he

theorem does_look (answer : List E → α) : (look answer : Effects ε E α).Does P :=
  fun _ _ he => by cases he

theorem does_act {answer : List E → α} {action : α → E} (h : ∀ a, P (action a)) :
    (act answer action : Effects ε E α).Does P := by
  intro before e he
  rw [act_apply, List.mem_singleton] at he
  rw [he]
  exact h _

theorem does_throwIf (error : Option ε) : (throwIf error : Effects ε E Unit).Does P := by
  intro before e he
  cases error <;> cases he

theorem does_attempt {m : Effects ε E α} (h : m.Does P) : (attempt m).Does P :=
  fun before e he => h before e he

theorem does_mapError {ε' : Type} {f : ε → ε'} {m : Effects ε E α} (h : m.Does P) :
    (mapError f m).Does P := fun before e he => h before e he

theorem does_bind {m : Effects ε E α} {k : α → Effects ε E β} (hm : m.Does P)
    (hk : ∀ a, (k a).Does P) : (m >>= k).Does P := by
  intro before e he
  have hfirst := hm before
  rcases hrun : m before with ⟨r, done⟩
  rw [hrun] at hfirst
  cases r with
  | error e' =>
    rw [bind_error before hrun] at he
    exact hfirst e he
  | ok a =>
    rw [bind_ok before hrun] at he
    rcases List.mem_append.mp he with he | he
    · exact hfirst e he
    · exact hk a _ e he

theorem does_forEach {body : α → Effects ε E Unit} {xs : List α}
    (h : ∀ x ∈ xs, (body x).Does P) : (forEach body xs).Does P := by
  induction xs with
  | nil => exact does_pure ()
  | cons x xs ih =>
    have hrest := ih fun y hy => h y (List.mem_cons_of_mem x hy)
    exact does_bind (h x List.mem_cons_self) fun _ => hrest

theorem does_fold {body : σ → α → Effects ε E σ} {xs : List α}
    (h : ∀ s, ∀ x ∈ xs, (body s x).Does P) (s : σ) : (fold body s xs).Does P := by
  induction xs generalizing s with
  | nil => exact does_pure s
  | cons x xs ih =>
    have hrest := ih fun s y hy => h s y (List.mem_cons_of_mem x hy)
    exact does_bind (h s x List.mem_cons_self) hrest

end Does

/-! ## Loops that return -/

/-- Each iteration of a loop that returns has been run and has returned. -/
theorem forEach_eq_ok {body : α → Effects ε E Unit} {xs : List α} {before done : List E}
    (h : forEach body xs before = (.ok (), done)) :
    ∀ x ∈ xs, ∃ earlier own later, done = earlier ++ own ++ later ∧
      body x (before ++ earlier) = (.ok (), own) := by
  induction xs generalizing before done with
  | nil =>
    intro x hx
    cases hx
  | cons x xs ih =>
    obtain ⟨⟨⟩, own, rest, hfirst, hrest, rfl⟩ := (bind_eq_ok before).mp h
    intro y hy
    rcases List.mem_cons.mp hy with rfl | hy
    · exact ⟨[], own, rest, rfl, by rw [List.append_nil]; exact hfirst⟩
    · obtain ⟨earlier, own', later, rfl, hrun⟩ := ih hrest y hy
      refine ⟨own ++ earlier, own', later, ?_, ?_⟩
      · simp only [List.append_assoc]
      · rw [← List.append_assoc]
        exact hrun

/-- Iterations that return after actions of their own, whatever was done before. -/
theorem fold_done {body : σ → α → Effects ε E σ} {acts : α → List E} {xs : List α}
    (hbody : ∀ s, ∀ x ∈ xs, ∀ before, ∃ s', body s x before = (.ok s', acts x)) (s : σ)
    (before : List E) : ∃ s', fold body s xs before = (.ok s', xs.flatMap acts) := by
  induction xs generalizing s before with
  | nil => exact ⟨s, rfl⟩
  | cons x xs ih =>
    obtain ⟨s₁, hfirst⟩ := hbody s x List.mem_cons_self before
    have hbody' := fun s y hy => hbody s y (List.mem_cons_of_mem x hy)
    obtain ⟨s₂, hrest⟩ := ih hbody' s₁ (before ++ acts x)
    refine ⟨s₂, ?_⟩
    change (body s x >>= fun s' => fold body s' xs) before = _
    rw [bind_ok before hfirst, hrest, List.flatMap_cons]

/-- A flag that is set after a loop was set before it, and every iteration has left it set. -/
theorem fold_true {body : Bool → α → Effects ε E Bool} {P : α → Prop} {xs : List α}
    (hbody : ∀ b, ∀ x ∈ xs, ∀ before, (body b x before).1 = .ok true → b = true ∧ P x)
    {b : Bool} {before : List E} (h : (fold body b xs before).1 = .ok true) :
    b = true ∧ ∀ x ∈ xs, P x := by
  induction xs generalizing b before with
  | nil =>
    cases h
    exact ⟨rfl, fun x hx => by cases hx⟩
  | cons x xs ih =>
    obtain ⟨b', done₁, done₂, hfirst, hrest, -⟩ := (bind_eq_ok before).mp (eq_of_fst before h)
    have hbody' := fun b y hy => hbody b y (List.mem_cons_of_mem x hy)
    obtain ⟨rfl, htail⟩ := ih hbody' (by rw [hrest])
    obtain ⟨hb, hx⟩ := hbody b x List.mem_cons_self before (by rw [hfirst])
    exact ⟨hb, List.forall_mem_cons.mpr ⟨hx, htail⟩⟩

/-! ## What a program comes to -/

/-- The program returns if `R`, ends with an error in `T` if `Q`, and acts if `A`, whatever was done
before. -/
structure Comes (T : ε → Prop) (m : Effects ε E α) (R Q A : Prop) : Prop where
  ok : ∀ before, (∃ a, (m before).1 = .ok a) ↔ R
  error : ∀ before, (∃ e, T e ∧ (m before).1 = .error e) ↔ Q
  acts : ∀ before, (m before).2 ≠ [] ↔ A

section Comes

variable {T : ε → Prop} {R R' Q Q' A A' : Prop}

theorem comes_pure (a : α) : Comes T (pure a : Effects ε E α) True False False where
  ok _ := iff_of_true ⟨a, rfl⟩ trivial
  error _ := iff_of_false (fun ⟨_, _, he⟩ => by cases he) id
  acts _ := iff_of_false (fun hne => hne rfl) id

theorem comes_ofExcept {x : Except ε α} (hok : (∃ a, x = .ok a) ↔ R)
    (herror : (∃ e, T e ∧ x = .error e) ↔ Q) : Comes T (ofExcept x : Effects ε E α) R Q False where
  ok _ := hok
  error _ := herror
  acts _ := iff_of_false (fun hne => hne rfl) id

theorem comes_act {answer : List E → α} {action : α → E} :
    Comes T (act answer action : Effects ε E α) True False True where
  ok before := iff_of_true ⟨answer before, rfl⟩ trivial
  error _ := iff_of_false (fun ⟨_, _, he⟩ => by cases he) id
  acts _ := iff_of_true (List.cons_ne_nil _ _) trivial

theorem Comes.congr {m : Effects ε E α} (h : Comes T m R Q A) (hR : R ↔ R') (hQ : Q ↔ Q')
    (hA : A ↔ A') : Comes T m R' Q' A' where
  ok before := (h.ok before).trans hR
  error before := (h.error before).trans hQ
  acts before := (h.acts before).trans hA

/-- The second part is run if the first returns. -/
theorem Comes.bind {m : Effects ε E α} {k : α → Effects ε E β} (hm : Comes T m R Q A)
    (hk : ∀ before a, (m before).1 = .ok a → Comes T (k a) R' Q' A') :
    Comes T (m >>= k) (R ∧ R') (Q ∨ R ∧ Q') (A ∨ R ∧ A') := by
  -- the same case split for the three of them: how the first part ends
  refine ⟨fun before => ?_, fun before => ?_, fun before => ?_⟩ <;>
    rw [← hm.ok before] <;>
    rcases hrun : m before with ⟨e | a, done⟩
  · rw [bind_error before hrun]
    simp
  · have hrest := (hk before a (by rw [hrun])).ok (before ++ done)
    rw [bind_ok before hrun, ← hrest]
    simp
  · rw [bind_error before hrun, ← hm.error before, hrun]
    simp
  · have hrest := (hk before a (by rw [hrun])).error (before ++ done)
    rw [bind_ok before hrun, ← hrest, ← hm.error before, hrun]
    simp
  · rw [bind_error before hrun, ← hm.acts before, hrun]
    simp
  · have hrest := (hk before a (by rw [hrun])).acts (before ++ done)
    rw [bind_ok before hrun, ← hrest, ← hm.acts before, hrun]
    simp only [ne_eq, List.append_eq_nil_iff, not_and_or, Except.ok.injEq, exists_eq', true_and]

theorem exists_mapError_eq_ok {ε' : Type} {x : Except ε' α} {f : ε' → ε} :
    (∃ a, x.mapError f = .ok a) ↔ ∃ a, x = .ok a := by
  refine exists_congr fun a => ?_
  constructor
  · intro h
    cases x with
    | error e => cases h
    | ok b =>
      cases h
      rfl
  · rintro rfl
    rfl

theorem exists_mapError_eq_error {ε' : Type} {T' : ε' → Prop} {x : Except ε' α} {f : ε' → ε}
    (hf : ∀ e, T (f e) ↔ T' e) :
    (∃ e, T e ∧ x.mapError f = .error e) ↔ ∃ e, T' e ∧ x = .error e := by
  constructor
  · rintro ⟨e, htrue, heq⟩
    cases x with
    | error e' =>
      cases heq
      exact ⟨e', (hf e').mp htrue, rfl⟩
    | ok a => cases heq
  · rintro ⟨e, htrue, rfl⟩
    exact ⟨f e, (hf e).mpr htrue, rfl⟩

/-- A result whose errors get names that are not in `T`. -/
theorem comes_ofExcept_mapError {ε' : Type} {x : Except ε' α} {f : ε' → ε} (hf : ∀ e, ¬ T (f e))
    (hok : (∃ a, x = .ok a) ↔ R) :
    Comes T (ofExcept (x.mapError f) : Effects ε E α) R False False := by
  refine comes_ofExcept (exists_mapError_eq_ok.trans hok) ?_
  rw [exists_mapError_eq_error fun e => iff_false_intro (hf e)]
  refine iff_of_false ?_ id
  rintro ⟨e, hfalse, -⟩
  exact hfalse

/-- Errors that are passed on under other names. -/
theorem Comes.mapError {m : Effects ε E α} (h : Comes T m R Q A) {f : ε → ε}
    (hf : ∀ e, T (f e) ↔ T e) : Comes T (m.mapError f) R Q A := by
  refine ⟨fun before => ?_, fun before => ?_, fun before => ?_⟩
  · rw [← h.ok before, mapError_apply]
    exact exists_mapError_eq_ok
  · rw [← h.error before, mapError_apply]
    exact exists_mapError_eq_error hf
  · rw [← h.acts before, mapError_apply]

/-! ## Loops, iteration by iteration -/

/-- A loop gets to an element that satisfies `Q`, where it goes on past an element if `P` holds. -/
def Reached (P Q : α → Prop) (xs : List α) : Prop :=
  ∃ before x after, xs = before ++ x :: after ∧ (∀ y ∈ before, P y) ∧ Q x

theorem not_reached_nil {P Q : α → Prop} : ¬ Reached P Q [] := by
  rintro ⟨before, x, after, hxs, -⟩
  exact List.append_ne_nil_of_right_ne_nil before (List.cons_ne_nil x after) hxs.symm

theorem reached_cons {P Q : α → Prop} {x : α} {xs : List α} :
    Reached P Q (x :: xs) ↔ Q x ∨ P x ∧ Reached P Q xs := by
  constructor
  · rintro ⟨before, y, after, hxs, hbefore, hy⟩
    cases before with
    | nil =>
      cases hxs
      exact .inl hy
    | cons z before =>
      cases hxs
      have hrest : ∀ y ∈ before, P y := fun y hy => hbefore y (List.mem_cons_of_mem x hy)
      exact .inr ⟨hbefore x List.mem_cons_self, before, y, after, rfl, hrest, hy⟩
  · rintro (hx | ⟨hx, before, y, after, rfl, hbefore, hy⟩)
    · exact ⟨[], x, xs, rfl, (fun y hy => by cases hy), hx⟩
    · exact ⟨x :: before, y, after, rfl, List.forall_mem_cons.mpr ⟨hx, hbefore⟩, hy⟩

theorem not_reached_false {P : α → Prop} {xs : List α} : ¬ Reached P (fun _ => False) xs := by
  rintro ⟨before, x, after, -, -, hx⟩
  exact hx

/-- What every iteration that goes on preserves, the loop preserves. -/
theorem fold_inv {body : σ → α → Effects ε E σ} {I : σ → Prop} {xs : List α}
    (hbody : ∀ s, ∀ x ∈ xs, ∀ before s', I s → (body s x before).1 = .ok s' → I s')
    {s s' : σ} {before : List E} (hs : I s) (h : (fold body s xs before).1 = .ok s') : I s' := by
  induction xs generalizing s before with
  | nil =>
    cases h
    exact hs
  | cons x xs ih =>
    obtain ⟨s₁, done₁, done₂, hfirst, hrest, -⟩ := (bind_eq_ok before).mp (eq_of_fst before h)
    have hs₁ : I s₁ := hbody s x List.mem_cons_self before s₁ hs (by rw [hfirst])
    have hbody' := fun s y hy => hbody s y (List.mem_cons_of_mem x hy)
    exact ih hbody' hs₁ (by rw [hrest])

/-- What one iteration comes to carries over to the loop, where `I` relates the state to the
elements that are left. -/
theorem comes_fold {body : σ → α → Effects ε E σ} {I : σ → List α → Prop} {P Q A : α → Prop}
    (hbody : ∀ s x xs, I s (x :: xs) → Comes T (body s x) (P x) (Q x) (A x))
    (hnext : ∀ s x xs before s', I s (x :: xs) → (body s x before).1 = .ok s' → I s' xs)
    {s : σ} {xs : List α} (hs : I s xs) :
    Comes T (fold body s xs) (∀ x ∈ xs, P x) (Reached P Q xs) (Reached P A xs) := by
  induction xs generalizing s with
  | nil =>
    have hdone : Comes T (pure s : Effects ε E σ) True False False := comes_pure s
    refine hdone.congr ?_ (iff_of_false id not_reached_nil) (iff_of_false id not_reached_nil)
    exact iff_of_true trivial fun x hx => by cases hx
  | cons x xs ih =>
    have hrest : ∀ before s', (body s x before).1 = .ok s' →
        Comes T (fold body s' xs) (∀ x ∈ xs, P x) (Reached P Q xs) (Reached P A xs) :=
      fun before s' hrun => ih (hnext s x xs before s' hs hrun)
    have hloop := (hbody s x xs hs).bind hrest
    exact hloop.congr List.forall_mem_cons.symm reached_cons.symm reached_cons.symm

/-- The same for iterations that come to the same whatever the state is. -/
theorem comes_fold_of_forall {body : σ → α → Effects ε E σ} {P Q A : α → Prop}
    (hbody : ∀ s x, Comes T (body s x) (P x) (Q x) (A x)) (s : σ) (xs : List α) :
    Comes T (fold body s xs) (∀ x ∈ xs, P x) (Reached P Q xs) (Reached P A xs) :=
  comes_fold (I := fun _ _ => True) (fun s x _ _ => hbody s x)
    (fun _ _ _ _ _ _ _ => trivial) trivial

end Comes

end Effects
