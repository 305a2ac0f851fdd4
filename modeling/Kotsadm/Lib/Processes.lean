import Mathlib.Data.List.Basic

/-!
# Processes — processes that share a state

A system is a shared state and the list of the states of its processes; a process is its index.  A
step of one process changes its own entry and the shared state.  The invariants here have three
parts: about the shared state, about the shared state and one process, and about two processes.  A
step then has to be checked against one other process only.
-/

namespace Processes

variable {σ π : Type*}

/-- The shared state is good, each process fits it and any two processes are apart. -/
structure Inv (Good : σ → Prop) (Each : σ → π → Prop) (Apart : π → π → Prop) (s : σ)
    (ps : List π) : Prop where
  good : Good s
  each : ∀ (i : Nat) (p : π), ps[i]? = some p → Each s p
  apart : ∀ (i j : Nat) (p q : π), i ≠ j → ps[i]? = some p → ps[j]? = some q → Apart p q

theorem getElem?_set_cases {ps : List π} {i j : Nat} {p q : π} (h : (ps.set i p)[j]? = some q) :
    (j = i ∧ q = p) ∨ (j ≠ i ∧ ps[j]? = some q) := by
  rw [List.getElem?_set] at h
  by_cases hij : i = j
  · left
    rw [if_pos hij] at h
    split at h
    next => exact ⟨hij.symm, (Option.some.inj h).symm⟩
    next => cases h
  · right
    rw [if_neg hij] at h
    exact ⟨fun hji => hij hji.symm, h⟩

theorem getElem?_concat_cases {ps : List π} {j : Nat} {p q : π} (h : (ps ++ [p])[j]? = some q) :
    (j = ps.length ∧ q = p) ∨ (j ≠ ps.length ∧ ps[j]? = some q) := by
  rw [List.getElem?_append] at h
  split at h
  next hlt => exact .inr ⟨by omega, h⟩
  next hge =>
    left
    have hlength : j - ps.length < [p].length := (List.getElem?_eq_some_iff.mp h).1
    simp only [List.length_singleton] at hlength
    have hj : j = ps.length := by omega
    rw [hj, Nat.sub_self] at h
    exact ⟨hj, (Option.some.inj h).symm⟩

section

variable {Good : σ → Prop} {Each : σ → π → Prop} {Apart : π → π → Prop} {s s' : σ} {ps : List π}

theorem inv_nil (hgood : Good s) : Inv Good Each Apart s [] where
  good := hgood
  each := fun _ _ h => by cases h
  apart := fun _ _ _ _ _ h _ => by cases h

/-- **The rule for a step.**  What the step of process `i` may break in another process is checked
for one that fits the old state and is apart from `i`. -/
theorem Inv.setAt (h : Inv Good Each Apart s ps) (hsymm : ∀ p q, Apart p q → Apart q p) {i : Nat}
    {p p' : π} (hp : ps[i]? = some p) (hgood : Good s') (heach : Each s' p')
    (hother : ∀ (j : Nat) (q : π), j ≠ i → ps[j]? = some q → Each s q → Apart p q →
      Each s' q ∧ Apart p' q) :
    Inv Good Each Apart s' (ps.set i p') where
  good := hgood
  each := by
    intro j q hq
    rcases getElem?_set_cases hq with ⟨-, rfl⟩ | ⟨hne, hold⟩
    · exact heach
    · exact (hother j q hne hold (h.each j q hold) (h.apart i j p q hne.symm hp hold)).1
  apart := by
    intro j k q r hjk hq hr
    rcases getElem?_set_cases hq with ⟨rfl, rfl⟩ | ⟨hj, hq'⟩
    · rcases getElem?_set_cases hr with ⟨hk, -⟩ | ⟨hk, hr'⟩
      · exact absurd hk.symm hjk
      · exact (hother k r hk hr' (h.each k r hr') (h.apart j k p r hjk hp hr')).2
    · rcases getElem?_set_cases hr with ⟨rfl, rfl⟩ | ⟨hk, hr'⟩
      · have happart := h.apart k j p q hjk.symm hp hq'
        exact hsymm _ _ (hother j q hj hq' (h.each j q hq') happart).2
      · exact h.apart j k q r hjk hq' hr'

/-- The same, when it does not matter which process the other one is. -/
theorem Inv.set (h : Inv Good Each Apart s ps) (hsymm : ∀ p q, Apart p q → Apart q p) {i : Nat}
    {p p' : π} (hp : ps[i]? = some p) (hgood : Good s') (heach : Each s' p')
    (hother : ∀ q ∈ ps, Each s q → Apart p q → Each s' q ∧ Apart p' q) :
    Inv Good Each Apart s' (ps.set i p') :=
  h.setAt hsymm hp hgood heach fun _ q _ hq => hother q (List.mem_of_getElem? hq)

/-- **The rule for a new process.** -/
theorem Inv.concat (h : Inv Good Each Apart s ps) (hsymm : ∀ p q, Apart p q → Apart q p) {p : π}
    (heach : Each s p) (hapart : ∀ q ∈ ps, Each s q → Apart p q) :
    Inv Good Each Apart s (ps ++ [p]) where
  good := h.good
  each := by
    intro j q hq
    rcases getElem?_concat_cases hq with ⟨-, rfl⟩ | ⟨-, hold⟩
    · exact heach
    · exact h.each j q hold
  apart := by
    intro j k q r hjk hq hr
    rcases getElem?_concat_cases hq with ⟨hj, rfl⟩ | ⟨-, hq'⟩
    · rcases getElem?_concat_cases hr with ⟨hk, -⟩ | ⟨-, hr'⟩
      · exact absurd (hj.trans hk.symm) hjk
      · exact hapart r (List.mem_of_getElem? hr') (h.each k r hr')
    · rcases getElem?_concat_cases hr with ⟨-, rfl⟩ | ⟨-, hr'⟩
      · exact hsymm _ _ (hapart q (List.mem_of_getElem? hq') (h.each j q hq'))
      · exact h.apart j k q r hjk hq' hr'

/-- **The rule for a change of the shared state** by nobody in the list. -/
theorem Inv.share (h : Inv Good Each Apart s ps) (hgood : Good s')
    (heach : ∀ p ∈ ps, Each s p → Each s' p) : Inv Good Each Apart s' ps where
  good := hgood
  each := fun i p hp => heach p (List.mem_of_getElem? hp) (h.each i p hp)
  apart := h.apart

end

end Processes
