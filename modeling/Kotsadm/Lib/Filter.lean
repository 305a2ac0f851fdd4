import Mathlib.Data.List.Basic

/-!
# Filter — how many elements of a list pass

A stronger condition lets fewer elements pass, and as many only if it lets the same ones pass.
-/

namespace List

variable {α : Type*} {l : List α} {p q : α → Bool}

theorem length_filter_le_of_imp (h : ∀ a, p a = true → q a = true) :
    (l.filter p).length ≤ (l.filter q).length :=
  (monotone_filter_right l h).length_le

theorem filter_eq_filter_iff (h : ∀ a, p a = true → q a = true) :
    l.filter p = l.filter q ↔ ∀ a ∈ l, q a = true → p a = true := by
  constructor
  · intro hsame a ha hq
    have hmem : a ∈ l.filter p := by
      rw [hsame]
      exact mem_filter.mpr ⟨ha, hq⟩
    exact (mem_filter.mp hmem).2
  · intro hboth
    apply filter_congr
    intro a ha
    exact Bool.eq_iff_iff.mpr ⟨h a, hboth a ha⟩

theorem length_filter_eq_iff (h : ∀ a, p a = true → q a = true) :
    (l.filter p).length = (l.filter q).length ↔ ∀ a ∈ l, q a = true → p a = true := by
  rw [(monotone_filter_right l h).length_eq, filter_eq_filter_iff h]

end List
