import Mathlib.Data.Multiset.MapFold
import Mathlib.Data.Set.Insert
import Kotsadm.Lib.Refinement

/-!
# Rpc — calls over a channel that loses messages

A call is issued under an identifier that no call had before.  Its request is lost or executed;
what an execution answers may be returned to the call any time later, or never.
-/

namespace Rpc

variable {ι π ρ : Type*}

/-- The identifiers `ι` of calls, what they ask `π` and their results `ρ`. -/
structure State (ι π ρ : Type*) where
  issued : Set (ι × π)
  -- on their way
  requests : Multiset (ι × π)
  -- by now, in this order
  executed : List (ι × π × ρ)
  returned : Set (ι × ρ)

namespace State

/-- The calls whose request is on its way or was executed. -/
def asked (s : State ι π ρ) : Multiset (ι × π) :=
  s.requests + ↑(s.executed.map fun e => (e.1, e.2.1))

def issue (s : State ι π ρ) (i : ι) (p : π) : State ι π ρ :=
  { s with issued := insert (i, p) s.issued, requests := (i, p) ::ₘ s.requests }

def keep (s : State ι π ρ) (left : Multiset (ι × π)) : State ι π ρ := { s with requests := left }

def execute (s : State ι π ρ) (i : ι) (p : π) (r : ρ) : State ι π ρ :=
  { s with executed := s.executed ++ [(i, p, r)] }

def deliver (s : State ι π ρ) (i : ι) (r : ρ) : State ι π ρ :=
  { s with returned := insert (i, r) s.returned }

theorem asked_issue (s : State ι π ρ) (i : ι) (p : π) :
    (s.issue i p).asked = (i, p) ::ₘ s.asked := Multiset.cons_add _ _ _

theorem asked_execute (s : State ι π ρ) (i : ι) (p : π) (r : ρ) (left : Multiset (ι × π)) :
    ((s.keep left).execute i p r).asked = ((s.keep ((i, p) ::ₘ left))).asked := by
  show left + ↑((s.executed ++ [(i, p, r)]).map fun e => (e.1, e.2.1)) =
    (i, p) ::ₘ left + ↑(s.executed.map fun e => (e.1, e.2.1))
  rw [List.map_append, ← Multiset.coe_add, Multiset.cons_add, ← Multiset.add_cons]
  congr 1
  exact Multiset.add_comm _ _

end State

/-- What may happen. -/
inductive Step : State ι π ρ → State ι π ρ → Prop
  | issue {s : State ι π ρ} (i : ι) (p : π) (hfresh : ∀ q, (i, q) ∉ s.issued) :
      Step s (s.issue i p)
  | lose {s : State ι π ρ} (left : Multiset (ι × π)) (hleft : left ≤ s.requests) :
      Step s (s.keep left)
  | execute {s : State ι π ρ} (i : ι) (p : π) (r : ρ) (left : Multiset (ι × π))
      (hleft : (i, p) ::ₘ left ≤ s.requests) : Step s ((s.keep left).execute i p r)
  | deliver {s : State ι π ρ} (i : ι) (p : π) (r : ρ) (hexecuted : (i, p, r) ∈ s.executed) :
      Step s (s.deliver i r)

/-! The steps, by what they leave as it is. -/

section

variable {s s' : State ι π ρ}

theorem step_lose (hissued : s'.issued = s.issued) (hrequests : s'.requests ≤ s.requests)
    (hexecuted : s'.executed = s.executed) (hreturned : s'.returned = s.returned) : Step s s' := by
  cases s'
  subst hissued hexecuted hreturned
  exact .lose _ hrequests

theorem step_issue {i : ι} {p : π} (hfresh : ∀ q, (i, q) ∉ s.issued)
    (hissued : s'.issued = insert (i, p) s.issued) (hrequests : s'.requests = (i, p) ::ₘ s.requests)
    (hexecuted : s'.executed = s.executed) (hreturned : s'.returned = s.returned) : Step s s' := by
  cases s'
  subst hissued hrequests hexecuted hreturned
  exact .issue i p hfresh

theorem step_execute {i : ι} {p : π} {r : ρ} (hissued : s'.issued = s.issued)
    (hrequests : (i, p) ::ₘ s'.requests ≤ s.requests)
    (hexecuted : s'.executed = s.executed ++ [(i, p, r)]) (hreturned : s'.returned = s.returned) :
    Step s s' := by
  cases s'
  subst hissued hexecuted hreturned
  exact .execute i p r _ hrequests

theorem step_deliver {i : ι} {p : π} {r : ρ} (hmem : (i, p, r) ∈ s.executed)
    (hissued : s'.issued = s.issued) (hrequests : s'.requests = s.requests)
    (hexecuted : s'.executed = s.executed) (hreturned : s'.returned = insert (i, r) s.returned) :
    Step s s' := by
  cases s'
  subst hissued hrequests hexecuted hreturned
  exact .deliver i p r hmem

end

def system (ι π ρ : Type*) : System (State ι π ρ) where
  init s := s = { issued := ∅, requests := 0, executed := [], returned := ∅ }
  step := Step

structure Good (s : State ι π ρ) : Prop where
  -- two calls have two identifiers
  unique : ∀ i p q, (i, p) ∈ s.issued → (i, q) ∈ s.issued → p = q
  -- no request is there twice
  once : (s.asked.map Prod.fst).Nodup
  asked : ∀ a ∈ s.asked, a ∈ s.issued
  returned : ∀ i r, (i, r) ∈ s.returned → ∃ p, (i, p, r) ∈ s.executed

theorem Good.of_asked_le {s s' : State ι π ρ} (h : Good s) (hasked : s'.asked ≤ s.asked)
    (hissued : s'.issued = s.issued)
    (hreturned : ∀ i r, (i, r) ∈ s'.returned → ∃ p, (i, p, r) ∈ s'.executed) : Good s' where
  unique := by
    rw [hissued]
    exact h.unique
  once := Multiset.nodup_of_le (Multiset.map_le_map hasked) h.once
  asked := by
    rw [hissued]
    exact fun a ha => h.asked a (Multiset.mem_of_le hasked ha)
  returned := hreturned

theorem good_step {s s' : State ι π ρ} (h : Good s) (hstep : Step s s') : Good s' := by
  cases hstep with
  | issue i p hfresh =>
    refine ⟨?_, ?_, ?_, h.returned⟩
    · rintro j q q' (hq | hq) (hq' | hq')
      · cases hq
        cases hq'
        rfl
      · cases hq
        exact absurd hq' (hfresh q')
      · cases hq'
        exact absurd hq (hfresh q)
      · exact h.unique j q q' hq hq'
    · rw [State.asked_issue, Multiset.map_cons, Multiset.nodup_cons]
      refine ⟨?_, h.once⟩
      intro hmem
      obtain ⟨a, ha, heq⟩ := Multiset.mem_map.mp hmem
      obtain rfl : a.1 = i := heq
      exact hfresh a.2 (h.asked a ha)
    · intro a ha
      rw [State.asked_issue] at ha
      rcases Multiset.mem_cons.mp ha with rfl | ha
      · exact .inl rfl
      · exact .inr (h.asked a ha)
  | lose left hleft => exact h.of_asked_le (Multiset.add_le_add_right hleft) rfl h.returned
  | execute i p r left hleft =>
    refine h.of_asked_le ?_ rfl ?_
    · rw [State.asked_execute]
      exact Multiset.add_le_add_right hleft
    · intro j q hq
      obtain ⟨p', hp'⟩ := h.returned j q hq
      exact ⟨p', List.mem_append_left _ hp'⟩
  | deliver i p r hexecuted =>
    refine h.of_asked_le le_rfl rfl ?_
    rintro j q (hq | hq)
    · cases hq
      exact ⟨p, hexecuted⟩
    · exact h.returned j q hq

theorem good {s : State ι π ρ} (h : (system ι π ρ).Reachable s) : Good s := by
  refine h.of_inv ?_ fun t t' => good_step
  rintro t rfl
  refine ⟨?_, Multiset.nodup_zero, ?_, ?_⟩
  · intro i p q hp
    exact absurd hp (Set.notMem_empty _)
  · intro a ha
    exact absurd ha (Multiset.notMem_zero a)
  · intro i r hr
    exact absurd hr (Set.notMem_empty _)

/-- **At most once.**  No call is executed twice. -/
theorem Good.executed_nodup {s : State ι π ρ} (h : Good s) :
    (s.executed.map Prod.fst).Nodup := by
  have hle : ↑(s.executed.map Prod.fst) ≤ s.asked.map Prod.fst := by
    unfold State.asked
    rw [Multiset.map_add, Multiset.map_coe, List.map_map]
    exact Multiset.le_add_left _ _
  exact Multiset.coe_nodup.mp (Multiset.nodup_of_le hle h.once)

theorem Good.executed_issued {s : State ι π ρ} (h : Good s) {i : ι} {p : π} {r : ρ}
    (hexecuted : (i, p, r) ∈ s.executed) : (i, p) ∈ s.issued := by
  apply h.asked
  unfold State.asked
  exact Multiset.mem_add.mpr (.inr (Multiset.mem_coe.mpr (List.mem_map_of_mem hexecuted)))

end Rpc
