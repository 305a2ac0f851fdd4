import Kotsadm.AppState.EventHandlers
import Mathlib.Order.MinMax

/-!
# MinState — the order of the states

`MinState` of the operator and `KotsAppStatus.getState` of the API take the least of some states.
The one goes on from the empty string, which is above all states, the other one from `ready`.
-/

namespace Kotsadm.AppState

/-! ## The order -/

def State.rank : State → Nat
  | .missing => 0
  | .unavailable => 1
  | .degraded => 2
  | .ready => 3

theorem State.rank_injective : Function.Injective State.rank := by
  intro s t h
  cases s <;> cases t <;> first | rfl | cases h

instance : LinearOrder State := LinearOrder.lift' State.rank State.rank_injective

example : State.missing < .unavailable ∧ State.unavailable < .degraded ∧
    State.degraded < .ready := by decide

theorem missing_le (s : State) : State.missing ≤ s := by cases s <;> decide

theorem le_ready (s : State) : s ≤ .ready := by cases s <;> decide

/-! ## MinState -/

theorem foldl_merge_missing (ss : List (Option State)) :
    ss.foldl (Option.merge min) (some .missing) = some .missing := by
  induction ss with
  | nil => rfl
  | cons s ss ih =>
    have hmissing : Option.merge min (some State.missing) s = some .missing := by
      cases s with
      | none => rfl
      | some s => exact congrArg some (min_eq_left (missing_le s))
    rw [List.foldl_cons, hmissing]
    exact ih

/-- The loop takes the minimum, and the empty string counts for nothing. -/
theorem minLoop_eq (m : Option State) (ss : List (Option State)) :
    minLoop m ss = ss.foldl (Option.merge min) m := by
  induction ss generalizing m with
  | nil => rfl
  | cons s ss ih =>
    rw [minLoop, List.foldl_cons]
    split
    next hmissing =>
      have hmerge : Option.merge min m s = some .missing := by
        rcases hmissing with rfl | rfl
        · cases m with
          | none => rfl
          | some m => exact congrArg some (min_eq_right (missing_le m))
        · cases s with
          | none => rfl
          | some s => exact congrArg some (min_eq_left (missing_le s))
      rw [hmerge, foldl_merge_missing]
    next hset =>
      -- no part is missing, and the branches are those of the minimum
      rw [ih, ih, ih, ih]
      rcases m with _ | m <;> rcases s with _ | s
      · rfl
      · cases s <;> first | rfl | exact absurd (.inl rfl) hset
      · cases m <;> rfl
      · cases m <;> cases s <;>
          first | rfl | exact absurd (.inl rfl) hset | exact absurd (.inr rfl) hset

theorem minState_eq {ss : List (Option State)} (hne : ss ≠ []) :
    minState ss = ss.foldl (Option.merge min) none := by
  unfold minState
  rw [if_neg hne]
  exact minLoop_eq none ss

theorem minState_pair (s t : Option State) : minState [s, t] = Option.merge min s t := by
  rw [minState_eq (List.cons_ne_nil _ _)]
  cases s <;> rfl

theorem foldl_merge_some (m : State) (ss : List State) :
    (ss.map some).foldl (Option.merge min) (some m) = some (ss.foldl min m) := by
  induction ss generalizing m with
  | nil => rfl
  | cons s ss ih => exact ih (min m s)

/-- `MinState` of states that are set is the minimum of the list. -/
theorem minState_map {ss : List State} (hne : ss ≠ []) : minState (ss.map some) = ss.min? := by
  cases ss with
  | nil => exact absurd rfl hne
  | cons s ss =>
    rw [List.map_cons, minState_eq (List.cons_ne_nil _ _), List.min?_cons']
    exact foldl_merge_some s ss

/-! ## KotsAppStatus -/

/-- The function `minState` of `kots_app_status.ts`. -/
def minOf (a b : State) : State :=
  if a = .missing ∨ b = .missing then .missing
  else if a = .unavailable ∨ b = .unavailable then .unavailable
  else if a = .degraded ∨ b = .degraded then .degraded
  else if a = .ready ∨ b = .ready then .ready
  else .missing

/-- `KotsAppStatus.getState`; an app without a status has no resource states. -/
def getState (resourceStates : Option (List ResourceState)) : State :=
  match resourceStates with
  | none => .missing
  | some resourceStates =>
    resourceStates.foldl (fun max resourceState => minOf max resourceState.state) .ready

theorem minOf_eq (a b : State) : minOf a b = min a b := by
  cases a <;> cases b <;> rfl

theorem getState_eq (resourceStates : List ResourceState) :
    getState (some resourceStates) = (resourceStates.map (·.state)).foldl min .ready := by
  unfold getState
  dsimp only
  simp only [minOf_eq]
  rw [List.foldl_map]

theorem getState_of_min? {resourceStates : List ResourceState} {m : State}
    (h : (resourceStates.map (·.state)).min? = some m) :
    getState (some resourceStates) = m := by
  rw [getState_eq]
  cases hstates : resourceStates.map (·.state) with
  | nil =>
    rw [hstates] at h
    cases h
  | cons s ss =>
    rw [hstates, List.min?_cons'] at h
    rw [List.foldl_cons, min_eq_right (le_ready s)]
    exact Option.some.inj h

/-! ## Both take the least state -/

/-- **One aggregated state.**  `MinState` returns the least of the states, however often and in which
order they come, of two lists the least of the least ones, and it is the state that the API shows
for resources with these states. -/
theorem minState_least (ss : List State) (hne : ss ≠ []) :
    ∃ m, minState (ss.map some) = some m ∧
      (m ∈ ss ∧ ∀ s ∈ ss, m ≤ s) ∧
      (∀ ss' : List State, (∀ s, s ∈ ss' ↔ s ∈ ss) → minState (ss'.map some) = some m) ∧
      (∀ ts : List State, ts ≠ [] →
        minState ((ss ++ ts).map some) = minState [some m, minState (ts.map some)]) ∧
      ∀ resourceStates : List ResourceState, resourceStates.map (·.state) = ss →
        getState (some resourceStates) = m := by
  obtain ⟨m, hm⟩ : ∃ m, ss.min? = some m :=
    Option.isSome_iff_exists.mp (List.isSome_min?_of_ne_nil hne)
  obtain ⟨hmem, hle⟩ := List.min?_eq_some_iff.mp hm
  refine ⟨m, (minState_map hne).trans hm, ⟨hmem, hle⟩, ?_, ?_, ?_⟩
  · intro ss' hsame
    have hne' : ss' ≠ [] := List.ne_nil_of_mem ((hsame m).mpr hmem)
    rw [minState_map hne', List.min?_eq_some_iff]
    exact ⟨(hsame m).mpr hmem, fun s hs => hle s ((hsame s).mp hs)⟩
  · intro ts hts
    obtain ⟨n, hn⟩ : ∃ n, ts.min? = some n :=
      Option.isSome_iff_exists.mp (List.isSome_min?_of_ne_nil hts)
    obtain ⟨hnmem, hnle⟩ := List.min?_eq_some_iff.mp hn
    rw [minState_map hts, hn, minState_map (List.append_ne_nil_of_left_ne_nil hne ts)]
    show (ss ++ ts).min? = minState ([m, n].map some)
    rw [minState_map (List.cons_ne_nil m [n])]
    show (ss ++ ts).min? = some (min m n)
    rw [List.min?_eq_some_iff]
    constructor
    · rcases min_choice m n with hmin | hmin
      · rw [hmin]
        exact List.mem_append_left ts hmem
      · rw [hmin]
        exact List.mem_append_right ss hnmem
    · intro s hs
      rcases List.mem_append.mp hs with hs | hs
      · exact (min_le_left m n).trans (hle s hs)
      · exact (min_le_right m n).trans (hnle s hs)
  · intro resourceStates hstates
    apply getState_of_min?
    rw [hstates]
    exact hm

theorem minState_least_two :
    ∃ m, minState [some .ready, some .degraded] = some m ∧ m = .degraded := by
  obtain ⟨m, hm, -⟩ := minState_least [.ready, .degraded] (List.cons_ne_nil _ _)
  refine ⟨m, hm, ?_⟩
  have hvalue : minState [some State.ready, some .degraded] = some .degraded := by decide
  exact Option.some.inj (hm.symm.trans hvalue)

end Kotsadm.AppState
