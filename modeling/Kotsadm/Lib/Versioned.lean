import Kotsadm.Lib.Dictionary

/-!
# Versioned — objects that are updated by the version that was read

Every write gives an object a version that nothing had before.  An update names the version it was
made from and is refused when the object has another one by now; readers may be behind.
-/

/-- The objects with their versions, and everything that was ever written. -/
structure Versioned (κ β : Type*) [DecidableEq κ] where
  objects : Dictionary κ (Nat × β)
  revision : Nat := 0
  history : List (κ × Nat × β) := []

namespace Versioned

variable {κ β : Type*} [DecidableEq κ]

def get (t : Versioned κ β) (k : κ) : Option (Nat × β) := t.objects.get k

/-- Writes whatever is there. -/
def put (t : Versioned κ β) (k : κ) (b : β) : Versioned κ β where
  objects := t.objects.set k (t.revision + 1, b)
  revision := t.revision + 1
  history := t.history ++ [(k, t.revision + 1, b)]

def delete (t : Versioned κ β) (k : κ) : Versioned κ β :=
  { t with objects := t.objects.remove k, revision := t.revision + 1 }

/-- The object still has this version. -/
def At (t : Versioned κ β) (k : κ) (version : Nat) : Prop := (t.get k).map Prod.fst = some version

instance (t : Versioned κ β) (k : κ) (version : Nat) : Decidable (t.At k version) :=
  inferInstanceAs (Decidable (_ = _))

theorem At.get {t : Versioned κ β} {k : κ} {version : Nat} (h : t.At k version) :
    ∃ b, t.get k = some (version, b) := by
  obtain ⟨⟨v, b⟩, hget, rfl⟩ := Option.map_eq_some_iff.mp h
  exact ⟨b, hget⟩

/-- Writes what was made from this version, if the object still has it. -/
def update (t : Versioned κ β) (k : κ) (version : Nat) (b : β) : Option (Versioned κ β) :=
  if t.At k version then some (t.put k b) else none

structure Good (t : Versioned κ β) : Prop where
  written : ∀ k v b, t.get k = some (v, b) → (k, v, b) ∈ t.history
  bound : ∀ k v b, (k, v, b) ∈ t.history → v ≤ t.revision
  -- no version is given twice
  unique : ∀ k v b k' b', (k, v, b) ∈ t.history → (k', v, b') ∈ t.history → k' = k ∧ b' = b

variable {t : Versioned κ β} {k k' : κ} {b b' : β} {v : Nat}

theorem good_empty : Good ({ objects := .empty } : Versioned κ β) where
  written := fun _ _ _ h => by cases h
  bound := fun _ _ _ h => by cases h
  unique := fun _ _ _ _ _ h => by cases h

theorem get_put : (t.put k b).get k' = if k = k' then some (t.revision + 1, b) else t.get k' :=
  Dictionary.get_set _ _ _ _

theorem get_put_self : (t.put k b).get k = some (t.revision + 1, b) :=
  get_put.trans (if_pos rfl)

theorem get_put_ne (h : k ≠ k') : (t.put k b).get k' = t.get k' := get_put.trans (if_neg h)

theorem get_delete_self : (t.delete k).get k = none := Dictionary.get_remove

theorem get_delete_ne (h : k' ≠ k) : (t.delete k).get k' = t.get k' := Dictionary.get_remove_ne h

theorem mem_put {e : κ × Nat × β} :
    e ∈ (t.put k b).history ↔ e ∈ t.history ∨ e = (k, t.revision + 1, b) := by
  unfold put
  rw [List.mem_append, List.mem_singleton]

theorem Good.put (h : t.Good) (k : κ) (b : β) : (t.put k b).Good where
  written := by
    intro k' v b' hget
    rw [get_put] at hget
    rw [mem_put]
    split at hget
    next heq =>
      cases hget
      exact .inr (heq ▸ rfl)
    next => exact .inl (h.written k' v b' hget)
  bound := by
    intro k' v b' hmem
    show v ≤ t.revision + 1
    rcases mem_put.mp hmem with hmem | heq
    · exact Nat.le_succ_of_le (h.bound k' v b' hmem)
    · cases heq
      exact Nat.le_refl _
  unique := by
    intro k₁ v b₁ k₂ b₂ h₁ h₂
    rcases mem_put.mp h₁ with h₁ | h₁ <;> rcases mem_put.mp h₂ with h₂ | h₂
    · exact h.unique k₁ v b₁ k₂ b₂ h₁ h₂
    · cases h₂
      have := h.bound k₁ _ b₁ h₁
      omega
    · cases h₁
      have := h.bound k₂ _ b₂ h₂
      omega
    · cases h₁
      cases h₂
      exact ⟨rfl, rfl⟩

theorem Good.delete (h : t.Good) (k : κ) : (t.delete k).Good where
  written := by
    intro k' v b' hget
    by_cases hk : k' = k
    · rw [hk, get_delete_self] at hget
      cases hget
    · rw [get_delete_ne hk] at hget
      exact h.written k' v b' hget
  bound := fun k' v b' hmem => Nat.le_succ_of_le (h.bound k' v b' hmem)
  unique := h.unique

/-- **What is updated is what was read.**  If the object still has a version that was once written,
then it is what was written. -/
theorem Good.current (h : t.Good) (hmem : (k, v, b) ∈ t.history) (hat : t.At k v) :
    t.get k = some (v, b) := by
  obtain ⟨b', hget⟩ := hat.get
  obtain ⟨-, rfl⟩ := h.unique k v b k b' hmem (h.written k v b' hget)
  exact hget

end Versioned
