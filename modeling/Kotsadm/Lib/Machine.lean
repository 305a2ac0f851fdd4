import Mathlib.Data.List.Basic

/-!
# Machine — labelled machines, their runs and their guarded runs

A machine steps from a state under an action, or refuses the action.  A guard `G : σ → α → Prop`
selects the steps a run may take; `fun _ _ => True` selects them all.  The rules below turn a
one-step preservation lemma into a fact about every state, and every step, of a guarded run.
-/

/-- A deterministic machine: `step s a = none` when the action `a` is not enabled in `s`. -/
structure Machine (σ α : Type*) where
  step : σ → α → Option σ

namespace Machine

variable {σ α : Type*} (M : Machine σ α)

/-- The states reachable from `init` by steps that meet the guard `G`. -/
inductive Reachable (init : σ → Prop) (G : σ → α → Prop) : σ → Prop
  | init {s : σ} : init s → Reachable init G s
  | step {s s' : σ} {a : α} :
      Reachable init G s → G s a → M.step s a = some s' → Reachable init G s'

/-- Every step taken in a guarded run from `init` satisfies `P`. -/
def EveryStep (init : σ → Prop) (G : σ → α → Prop) (P : σ → α → σ → Prop) : Prop :=
  ∀ s a s', M.Reachable init G s → G s a → M.step s a = some s' → P s a s'

/-- Every state reached in a guarded run from `init` satisfies `P`. -/
def EveryState (init : σ → Prop) (G : σ → α → Prop) (P : σ → Prop) : Prop :=
  ∀ s, M.Reachable init G s → P s

/-- Executes a list of actions; `none` as soon as one of them is not enabled. -/
def run : σ → List α → Option σ
  | s, [] => some s
  | s, a :: as => (M.step s a).bind fun s' => run s' as

@[simp] theorem run_nil (s : σ) : M.run s [] = some s := rfl

@[simp] theorem run_cons (s : σ) (a : α) (as : List α) :
    M.run s (a :: as) = (M.step s a).bind fun s' => M.run s' as := rfl

theorem run_append (s : σ) (as bs : List α) :
    M.run s (as ++ bs) = (M.run s as).bind fun s' => M.run s' bs := by
  induction as generalizing s with
  | nil => rfl
  | cons a as ih =>
    rw [List.cons_append, run_cons, run_cons, Option.bind_assoc]
    congr 1
    funext t
    exact ih t

/-- Executes a list of actions, each of which has to meet the guard where it is taken. -/
def guardedRun (G : σ → α → Prop) [∀ s a, Decidable (G s a)] : σ → List α → Option σ
  | s, [] => some s
  | s, a :: as => if G s a then (M.step s a).bind fun s' => guardedRun G s' as else none

/-- The unguarded runs: any enabled action may be taken. -/
abbrev Free : σ → α → Prop := fun _ _ => True

variable {M} {init : σ → Prop} {G : σ → α → Prop}

/-- Executed lists of actions that meet the guard in every state reach reachable states. -/
theorem Reachable.run {s s' : σ} (h : M.Reachable init G s) (as : List α)
    (hG : ∀ a ∈ as, ∀ t, G t a) (hrun : M.run s as = some s') : M.Reachable init G s' := by
  induction as generalizing s with
  | nil =>
    cases hrun
    exact h
  | cons a as ih =>
    rw [run_cons, Option.bind_eq_some_iff] at hrun
    obtain ⟨t, hstep, hrest⟩ := hrun
    have ht : M.Reachable init G t := h.step (hG a List.mem_cons_self s) hstep
    exact ih ht (fun b hb => hG b (List.mem_cons_of_mem a hb)) hrest

/-- The same, where the guard is evaluated along the run. -/
theorem Reachable.guardedRun [∀ s a, Decidable (G s a)] {s s' : σ} (h : M.Reachable init G s)
    (as : List α) (hrun : M.guardedRun G s as = some s') : M.Reachable init G s' := by
  induction as generalizing s with
  | nil =>
    cases hrun
    exact h
  | cons a as ih =>
    unfold Machine.guardedRun at hrun
    split at hrun
    next hG =>
      rw [Option.bind_eq_some_iff] at hrun
      obtain ⟨t, hstep, hrest⟩ := hrun
      exact ih (h.step hG hstep) hrest
    next => cases hrun

/-- A run that ends where `P` holds, as the evaluation tells. -/
theorem exists_of_guardedRun [∀ s a, Decidable (G s a)] {P : σ → Prop} [DecidablePred P] {s₀ : σ}
    (hs₀ : init s₀) (as : List α)
    (hend : (M.guardedRun G s₀ as).any (fun s => decide (P s)) = true) :
    ∃ s, M.Reachable init G s ∧ P s := by
  obtain ⟨s, hrun, hP⟩ := (Option.any_eq_true _ _).mp hend
  exact ⟨s, (Reachable.init hs₀).guardedRun as hrun, of_decide_eq_true hP⟩

/-- A guarded run is a run. -/
theorem Reachable.free {s : σ} (h : M.Reachable init G s) : M.Reachable init Free s := by
  induction h with
  | init hs => exact .init hs
  | step _ _ hstep ih => exact ih.step trivial hstep

/-- **The invariant rule.**  What holds initially and is kept by every guarded step holds in every
state a guarded run reaches. -/
theorem everyState_of_inv {I : σ → Prop} (hinit : ∀ s, init s → I s)
    (hstep : ∀ s a s', I s → G s a → M.step s a = some s' → I s') : M.EveryState init G I := by
  intro s h
  induction h with
  | init hs => exact hinit _ hs
  | step _ hG hs ih => exact hstep _ _ _ ih hG hs

/-- A single step of an executed run refutes a property of every step. -/
theorem not_everyStep {P : σ → α → σ → Prop} {s₀ s s' : σ} {a : α} (hs₀ : init s₀) (as : List α)
    (hrun : M.run s₀ as = some s) (hstep : M.step s a = some s') (hP : ¬ P s a s') :
    ¬ M.EveryStep init Free P :=
  fun h => hP (h s a s' ((Reachable.init hs₀).run as (fun _ _ _ => trivial) hrun) trivial hstep)

/-- A state reached by an executed run refutes a property of every state. -/
theorem not_everyState {P : σ → Prop} {s₀ s : σ} (hs₀ : init s₀) (as : List α)
    (hrun : M.run s₀ as = some s) (hP : ¬ P s) : ¬ M.EveryState init Free P :=
  fun h => hP (h s ((Reachable.init hs₀).run as (fun _ _ _ => trivial) hrun))

end Machine
