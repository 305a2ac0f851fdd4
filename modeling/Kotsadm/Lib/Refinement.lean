import Mathlib.Logic.Relation
import Kotsadm.Lib.Machine

/-!
# Refinement — machines against abstract systems

A system says what may happen, as a relation on states of any type.  A machine is compared with it
by a mapping of the states that turns each of its steps into any number of steps of the system.
-/

/-- Where a system starts, and its steps. -/
structure System (τ : Type*) where
  init : τ → Prop
  step : τ → τ → Prop

namespace System

variable {τ : Type*} (S : System τ)

inductive Reachable : τ → Prop
  | init {t : τ} : S.init t → Reachable t
  | step {t t' : τ} : Reachable t → S.step t t' → Reachable t'

variable {S} {t t' : τ}

theorem Reachable.steps (h : S.Reachable t) (hsteps : Relation.ReflTransGen S.step t t') :
    S.Reachable t' := by
  induction hsteps with
  | refl => exact h
  | tail _ hstep ih => exact ih.step hstep

/-- What holds at the start and is kept by every step holds in every reachable state. -/
theorem Reachable.of_inv {I : τ → Prop} (h : S.Reachable t) (hinit : ∀ t, S.init t → I t)
    (hstep : ∀ t t', I t → S.step t t' → I t') : I t := by
  induction h with
  | init ht => exact hinit _ ht
  | step _ hs ih => exact hstep _ _ ih hs

end System

namespace Machine

variable {σ α : Type*} {M : Machine σ α} {init : σ → Prop} {G : σ → α → Prop}

/-- A run that meets a guard meets a weaker one. -/
theorem Reachable.mono {G' : σ → α → Prop} {s : σ} (h : M.Reachable init G s)
    (hG : ∀ s a, G s a → G' s a) : M.Reachable init G' s := by
  induction h with
  | init hinit => exact .init hinit
  | step _ ha hstep ih => exact ih.step (hG _ _ ha) hstep

/-- A run from a state that another run reaches. -/
theorem Reachable.trans {s s' : σ} (h : M.Reachable init G s) (h' : M.Reachable (· = s) G s') :
    M.Reachable init G s' := by
  induction h' with
  | init heq => exact heq ▸ h
  | step _ hG hstep ih => exact ih.step hG hstep

end Machine
