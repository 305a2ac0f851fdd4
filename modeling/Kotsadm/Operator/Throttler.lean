import Kotsadm.Lib.Machine

/-!
# Throttler — the last function that was added is called

`add` keeps the function and starts a timer if there is none; the goroutine of the timer calls what
is kept when the timer expires.  Both hold the lock, but the goroutine reads `t.timer` once before
it does.
-/

namespace Kotsadm.Throttler

/-- `time.Timer`, with the value in its channel. -/
inductive Timer where
  | running
  | fired
  | drained
  deriving DecidableEq, Repr

/-- The goroutine that was started with a timer, up to its return. -/
inductive Goroutine where
  | started
  -- waits for `t.timer.C`, of the timer that it has read
  | receiving (timer : Nat)
  | locking
  | holding
  | done
  deriving DecidableEq, Repr

/-- Who holds the lock, and what it does next. -/
inductive Holder (φ : Type) where
  -- a call of `add`
  | store (f : φ)
  | check (f : φ)
  -- the goroutine of a timer
  | call (n : Nat)
  | running (n : Nat) (f : φ)
  | clear (n : Nat)
  -- either of them
  | unlock
  deriving DecidableEq, Repr

inductive Event (φ : Type) where
  | add (f : φ)
  | call (timer : Nat) (f : φ)
  | ret (timer : Nat) (f : φ)
  deriving DecidableEq, Repr

/-- The throttler and its goroutines; timers are numbered as they are started. -/
structure State (φ : Type) where
  f : Option φ := none
  timer : Option Nat := none
  lock : Option (Holder φ) := none
  timers : List Timer := []
  goroutines : List Goroutine := []
  -- a nil timer was read, or a nil function called
  crashed : Bool := false
  -- newest first
  history : List (Event φ) := []
  deriving DecidableEq, Repr

inductive Action (φ : Type) where
  | lock (f : φ)
  | store
  | check
  | unlock
  | expire (timer : Nat)
  | read (n : Nat)
  | receive (n : Nat)
  | wake (n : Nat)
  | call
  | ret
  | clear
  deriving DecidableEq, Repr

section

variable {φ : Type}

/-! ## The functions of a history -/

def added : List (Event φ) → List φ
  | [] => []
  | .add f :: history => f :: added history
  | .call _ _ :: history => added history
  | .ret _ _ :: history => added history

/-- The functions that were called, with the timers. -/
def called : List (Event φ) → List (Nat × φ)
  | [] => []
  | .call timer f :: history => (timer, f) :: called history
  | .add _ :: history => called history
  | .ret _ _ :: history => called history

def sinceLastAdd : List (Event φ) → List (Event φ)
  | [] => []
  | .add _ :: _ => []
  | .call timer f :: history => .call timer f :: sinceLastAdd history
  | .ret timer f :: history => .ret timer f :: sinceLastAdd history

/-- The function that was added last was called after that, and has returned. -/
def LastCalled (history : List (Event φ)) : Prop :=
  ∀ f, (added history).head? = some f →
    ∃ timer, .call timer f ∈ sinceLastAdd history ∧ .ret timer f ∈ sinceLastAdd history

/-! ## Steps -/

/-- `if t.timer == nil`; with this `add` has done its work. -/
def State.startTimer (s : State φ) : State φ :=
  match s.timer with
  | some _ => s
  | none => { s with
      timer := some s.timers.length
      timers := s.timers ++ [.running]
      goroutines := s.goroutines ++ [.started] }

def stepHolder (s : State φ) : Holder φ → Action φ → Option (State φ)
  | .store f, .store => some { s with f := some f, lock := some (.check f) }
  | .check f, .check =>
    some { s.startTimer with lock := some .unlock, history := .add f :: s.history }
  | .call n, .call =>
    match s.f with
    | some f => some { s with lock := some (.running n f), history := .call n f :: s.history }
    | none => some { s with crashed := true }
  | .running n f, .ret => some { s with lock := some (.clear n), history := .ret n f :: s.history }
  | .clear n, .clear =>
    some { s with timer := none, goroutines := s.goroutines.set n .done, lock := some .unlock }
  | .unlock, .unlock => some { s with lock := none }
  | _, _ => none

/-- The goroutine of timer `n`, without the lock. -/
def stepGoroutine (s : State φ) (n : Nat) : Goroutine → Action φ → Option (State φ)
  | .started, .read _ =>
    match s.timer with
    | some timer => some { s with goroutines := s.goroutines.set n (.receiving timer) }
    | none => some { s with crashed := true }
  | .receiving timer, .receive _ =>
    if s.timers[timer]? = some .fired then
      some { s with
        timers := s.timers.set timer .drained
        goroutines := s.goroutines.set n .locking }
    else none
  | .locking, .wake _ =>
    match s.lock with
    | none => some { s with goroutines := s.goroutines.set n .holding, lock := some (.call n) }
    | some _ => none
  | _, _ => none

/-- A call of `add` that waits for the lock has not done anything yet. -/
def step (s : State φ) (a : Action φ) : Option (State φ) :=
  if s.crashed then none
  else
    match a with
    | .lock f =>
      match s.lock with
      | none => some { s with lock := some (.store f) }
      | some _ => none
    | .expire timer =>
      if s.timers[timer]? = some .running then
        some { s with timers := s.timers.set timer .fired }
      else none
    | .read n | .receive n | .wake n => do
      let goroutine ← s.goroutines[n]?
      stepGoroutine s n goroutine a
    | .store | .check | .unlock | .call | .ret | .clear => do
      let holder ← s.lock
      stepHolder s holder a

end

def machine (φ : Type) : Machine (State φ) (Action φ) := ⟨step⟩

/-- `NewThrottle` -/
def Init {φ : Type} (s : State φ) : Prop := s = {}

/-! ## The invariant -/

/-- The timer whose goroutine holds the lock. -/
def Holder.timer {φ : Type} : Holder φ → Option Nat
  | .call n => some n
  | .running n _ => some n
  | .clear n => some n
  | .store _ => none
  | .check _ => none
  | .unlock => none

/-- On the way to the lock. -/
def Goroutine.Waits (goroutine : Goroutine) (n : Nat) : Prop :=
  goroutine = .started ∨ goroutine = .receiving n ∨ goroutine = .locking

section

variable {φ : Type} {s s' : State φ} {n : Nat} {f : φ}

/-- The lock is not held by a goroutine. -/
def LockFree (s : State φ) : Prop := ∀ holder, s.lock = some holder → holder.timer = none

/-- The function that was added last is still to be called, by timer `n`. -/
def Due (n : Nat) (history : List (Event φ)) : Prop :=
  ∃ f rest, added history = f :: rest ∧ ((called history).map Prod.snd).Sublist rest ∧
    ∀ c ∈ called history, c.1 ≠ n

/-- How far the goroutine of the timer is. -/
inductive Stage (s : State φ) (n : Nat) : Prop where
  | waiting {goroutine : Goroutine} (hgoroutine : s.goroutines[n]? = some goroutine)
      (hwaits : goroutine.Waits n) (hfree : LockFree s) (hdue : Due n s.history)
  | call (hgoroutine : s.goroutines[n]? = some .holding) (hlock : s.lock = some (.call n))
      (hdue : Due n s.history)
  | running (f : φ) (hgoroutine : s.goroutines[n]? = some .holding)
      (hlock : s.lock = some (.running n f)) (hadded : (added s.history).head? = some f)
      (hcall : .call n f ∈ sinceLastAdd s.history)
  | clear (hgoroutine : s.goroutines[n]? = some .holding) (hlock : s.lock = some (.clear n))
      (hcalled : LastCalled s.history)

/-- What `t.f` is: between the two statements of `add` it is not added yet. -/
def Stored (s : State φ) : Prop :=
  match s.lock with
  | some (.check f) => s.f = some f
  | _ => s.f = (added s.history).head?

structure Inv (s : State φ) : Prop where
  crashed : s.crashed = false
  length : s.timers.length = s.goroutines.length
  stored : Stored s
  done : ∀ n goroutine, s.goroutines[n]? = some goroutine → s.timer ≠ some n → goroutine = .done
  last : ∀ n, s.timer = some n → n + 1 = s.goroutines.length
  stage : ∀ n, s.timer = some n → Stage s n
  holder : ∀ holder n, s.lock = some holder → holder.timer = some n → s.timer = some n
  lastCalled : s.timer = none → LastCalled s.history
  calls : ((called s.history).map Prod.snd).Sublist (added s.history)
  nodup : ((called s.history).map Prod.fst).Nodup
  started : ∀ c ∈ called s.history, c.1 < s.timers.length

theorem inv_init : Inv ({} : State φ) where
  crashed := rfl
  length := rfl
  stored := rfl
  done n goroutine h _ := by cases h
  last n h := by cases h
  stage n h := by cases h
  holder holder n h _ := by cases h
  lastCalled _ f h := by cases h
  calls := List.Sublist.refl []
  nodup := List.nodup_nil
  started c h := by cases h

/-- While no goroutine has the lock, the one of the timer waits. -/
theorem Stage.waits (h : Stage s n) (hfree : LockFree s) :
    ∃ goroutine, s.goroutines[n]? = some goroutine ∧ goroutine.Waits n ∧ Due n s.history := by
  cases h with
  | waiting hgoroutine hwaits _ hdue => exact ⟨_, hgoroutine, hwaits, hdue⟩
  | call _ hlock _ => cases hfree _ hlock
  | running f _ hlock _ _ => cases hfree _ hlock
  | clear _ hlock _ => cases hfree _ hlock

/-! ### Steps of `add` -/

/-- The lock passes on, and no goroutine has it. -/
theorem Inv.setLock (hs : Inv s) (hfree : LockFree s) {f : Option φ} {lock : Option (Holder φ)}
    (hlock : ∀ holder, lock = some holder → holder.timer = none)
    (hstored : Stored { s with f := f, lock := lock }) :
    Inv { s with f := f, lock := lock } where
  crashed := hs.crashed
  length := hs.length
  stored := hstored
  done := hs.done
  last := hs.last
  stage n htimer := by
    obtain ⟨goroutine, hgoroutine, hwaits, hdue⟩ := (hs.stage n htimer).waits hfree
    exact .waiting hgoroutine hwaits hlock hdue
  holder holder n hholder htimer := by
    cases (hlock holder hholder).symm.trans htimer
  lastCalled := hs.lastCalled
  calls := hs.calls
  nodup := hs.nodup
  started := hs.started

theorem LockFree.of_lock {holder : Holder φ} (hlock : s.lock = some holder)
    (hnone : holder.timer = none) : LockFree s := by
  intro other hother
  cases hlock.symm.trans hother
  exact hnone

/-- `add` finds a timer. -/
theorem inv_added (hs : Inv s) (hlock : s.lock = some (.check f)) (htimer : s.timer = some n) :
    Inv { s with lock := some .unlock, history := .add f :: s.history } where
  crashed := hs.crashed
  length := hs.length
  stored := by
    have hstored := hs.stored
    unfold Stored at hstored ⊢
    rw [hlock] at hstored
    exact hstored
  done := hs.done
  last := hs.last
  stage m hm := by
    obtain ⟨goroutine, hgoroutine, hwaits, f', rest, hadded, hcalls, hnumbers⟩ :=
      (hs.stage m hm).waits (.of_lock hlock rfl)
    refine .waiting hgoroutine hwaits (.of_lock rfl rfl)
      ⟨f, added s.history, rfl, ?_, hnumbers⟩
    show ((called s.history).map Prod.snd).Sublist (added s.history)
    rw [hadded]
    exact hcalls.cons f'
  holder holder m hholder hm := by
    cases hholder
    cases hm
  lastCalled hnone := by
    cases htimer.symm.trans hnone
  calls := hs.calls.cons f
  nodup := hs.nodup
  started := hs.started

/-- `add` starts a timer and its goroutine. -/
theorem inv_addedFirst (hs : Inv s) (hlock : s.lock = some (.check f)) (htimer : s.timer = none) :
    Inv { s with
      timer := some s.timers.length
      timers := s.timers ++ [.running]
      goroutines := s.goroutines ++ [.started]
      lock := some .unlock
      history := .add f :: s.history } where
  crashed := hs.crashed
  length := by
    show (s.timers ++ [_]).length = (s.goroutines ++ [_]).length
    rw [List.length_append, List.length_append, hs.length]
    rfl
  stored := by
    have hstored := hs.stored
    unfold Stored at hstored ⊢
    rw [hlock] at hstored
    exact hstored
  done m goroutine hm hne := by
    have hm' : (s.goroutines ++ [.started])[m]? = some goroutine := hm
    by_cases hlt : m < s.goroutines.length
    · rw [List.getElem?_append_left hlt] at hm'
      exact hs.done m goroutine hm' (by simp [htimer])
    · have hbound := (List.getElem?_eq_some_iff.mp hm').1
      rw [List.length_append, List.length_singleton] at hbound
      have hlength := hs.length
      exact absurd (congrArg some (show s.timers.length = m by omega)) hne
  last m hm := by
    cases hm
    show s.timers.length + 1 = (s.goroutines ++ [_]).length
    rw [List.length_append, hs.length]
    rfl
  stage m hm := by
    cases hm
    have hnew : (s.goroutines ++ [.started])[s.timers.length]? = some .started := by
      rw [hs.length, List.getElem?_concat_length]
    refine .waiting hnew (.inl rfl) (.of_lock rfl rfl) ⟨f, added s.history, rfl, hs.calls, ?_⟩
    intro c hc
    exact Nat.ne_of_lt (hs.started c hc)
  holder holder m hholder hm := by
    cases hholder
    cases hm
  lastCalled hnone := by cases hnone
  calls := hs.calls.cons f
  nodup := hs.nodup
  started c hc := by
    show c.1 < (s.timers ++ [_]).length
    rw [List.length_append]
    exact Nat.lt_add_right _ (hs.started c hc)

/-! ### Steps of a goroutine -/

/-- A goroutine that is not done is the one of the timer. -/
theorem Inv.timer_of (hs : Inv s) {goroutine : Goroutine}
    (hgoroutine : s.goroutines[n]? = some goroutine) (hne : goroutine ≠ .done) :
    s.timer = some n := by
  apply Classical.byContradiction
  intro htimer
  exact hne (hs.done n goroutine hgoroutine htimer)

/-- The goroutine of the timer goes on, and the lock may pass to it. -/
theorem Inv.setGoroutine (hs : Inv s) (htimer : s.timer = some n) {timers : List Timer}
    {goroutine : Goroutine} {lock : Option (Holder φ)} (htimers : timers.length = s.timers.length)
    (hstored : Stored { s with lock := lock })
    (hstage : Stage { s with
      timers := timers, goroutines := s.goroutines.set n goroutine, lock := lock } n)
    (hholder : ∀ holder m, lock = some holder → holder.timer = some m → s.timer = some m) :
    Inv { s with
      timers := timers, goroutines := s.goroutines.set n goroutine, lock := lock } where
  crashed := hs.crashed
  length := by
    show timers.length = (s.goroutines.set n goroutine).length
    rw [htimers, hs.length, List.length_set]
  stored := hstored
  done m other hm hne := by
    have hm' : (s.goroutines.set n goroutine)[m]? = some other := hm
    have hmn : n ≠ m := fun heq => hne (heq ▸ htimer)
    rw [List.getElem?_set_ne hmn] at hm'
    exact hs.done m other hm' hne
  last m hm := by
    show m + 1 = (s.goroutines.set n goroutine).length
    rw [List.length_set]
    exact hs.last m hm
  stage m hm := by
    cases htimer.symm.trans hm
    exact hstage
  holder := hholder
  lastCalled := hs.lastCalled
  calls := hs.calls
  nodup := hs.nodup
  started c hc := by
    show c.1 < timers.length
    rw [htimers]
    exact hs.started c hc

/-- The goroutine calls the function that was added last. -/
theorem inv_called (hs : Inv s) (hlock : s.lock = some (.call n)) (hf : s.f = some f) :
    Inv { s with lock := some (.running n f), history := .call n f :: s.history } := by
  have htimer : s.timer = some n := hs.holder _ n hlock rfl
  have hstored : s.f = (added s.history).head? := by
    have hstored := hs.stored
    unfold Stored at hstored
    rw [hlock] at hstored
    exact hstored
  have hstage : s.goroutines[n]? = some .holding ∧ Due n s.history := by
    cases hs.stage n htimer with
    | waiting _ _ hfree _ => cases hfree _ hlock
    | call hgoroutine _ hdue => exact ⟨hgoroutine, hdue⟩
    | running f' _ hlock' _ _ => cases hlock.symm.trans hlock'
    | clear _ hlock' _ => cases hlock.symm.trans hlock'
  obtain ⟨hgoroutine, f', rest, hadded, hcalls, hnumbers⟩ := hstage
  have hhead : f' = f := by
    rw [hf, hadded] at hstored
    exact (Option.some.inj hstored).symm
  subst hhead
  exact {
    crashed := hs.crashed
    length := hs.length
    stored := hstored
    done := hs.done
    last := hs.last
    stage m hm := by
      cases htimer.symm.trans hm
      refine .running f' hgoroutine rfl ?_ List.mem_cons_self
      show (added s.history).head? = some f'
      rw [hadded]
      rfl
    holder holder m hholder hm := by
      cases hholder
      exact htimer.trans hm
    lastCalled hnone := by cases htimer.symm.trans hnone
    calls := by
      show (f' :: (called s.history).map Prod.snd).Sublist (added s.history)
      rw [hadded]
      exact hcalls.cons_cons f'
    nodup := by
      show (n :: (called s.history).map Prod.fst).Nodup
      refine List.nodup_cons.mpr ⟨?_, hs.nodup⟩
      intro hmem
      obtain ⟨c, hc, heq⟩ := List.mem_map.mp hmem
      exact hnumbers c hc heq
    started c hc := by
      rcases List.mem_cons.mp hc with rfl | hc
      · have hlast := hs.last n htimer
        have hlength := hs.length
        show n < s.timers.length
        omega
      · exact hs.started c hc }

/-- The function returns. -/
theorem inv_returned (hs : Inv s) (hlock : s.lock = some (.running n f)) :
    Inv { s with lock := some (.clear n), history := .ret n f :: s.history } := by
  have htimer : s.timer = some n := hs.holder _ n hlock rfl
  have hstage : s.goroutines[n]? = some .holding ∧ (added s.history).head? = some f ∧
      .call n f ∈ sinceLastAdd s.history := by
    cases hs.stage n htimer with
    | waiting _ _ hfree _ => cases hfree _ hlock
    | call _ hlock' _ => cases hlock.symm.trans hlock'
    | running f' hgoroutine hlock' hadded hcall =>
      cases hlock.symm.trans hlock'
      exact ⟨hgoroutine, hadded, hcall⟩
    | clear _ hlock' _ => cases hlock.symm.trans hlock'
  obtain ⟨hgoroutine, hadded, hcall⟩ := hstage
  exact {
    crashed := hs.crashed
    length := hs.length
    stored := by
      have hstored := hs.stored
      unfold Stored at hstored ⊢
      rw [hlock] at hstored
      exact hstored
    done := hs.done
    last := hs.last
    stage m hm := by
      cases htimer.symm.trans hm
      refine .clear hgoroutine rfl ?_
      intro g hg
      have heq : f = g := Option.some.inj (hadded.symm.trans hg)
      subst heq
      exact ⟨n, List.mem_cons_of_mem _ hcall, List.mem_cons_self⟩
    holder holder m hholder hm := by
      cases hholder
      exact htimer.trans hm
    lastCalled hnone := by cases htimer.symm.trans hnone
    calls := hs.calls
    nodup := hs.nodup
    started := hs.started }

/-- The goroutine ends, and there is no timer. -/
theorem inv_cleared (hs : Inv s) (hlock : s.lock = some (.clear n)) :
    Inv { s with
      timer := none, goroutines := s.goroutines.set n .done, lock := some .unlock } := by
  have htimer : s.timer = some n := hs.holder _ n hlock rfl
  have hcalled : LastCalled s.history := by
    cases hs.stage n htimer with
    | waiting _ _ hfree _ => cases hfree _ hlock
    | call _ hlock' _ => cases hlock.symm.trans hlock'
    | running f' _ hlock' _ _ => cases hlock.symm.trans hlock'
    | clear _ _ hcalled => exact hcalled
  exact {
    crashed := hs.crashed
    length := by
      show s.timers.length = (s.goroutines.set n .done).length
      rw [List.length_set, hs.length]
    stored := by
      have hstored := hs.stored
      unfold Stored at hstored ⊢
      rw [hlock] at hstored
      exact hstored
    done m goroutine hm _ := by
      have hm' : (s.goroutines.set n .done)[m]? = some goroutine := hm
      by_cases heq : n = m
      · subst heq
        rw [List.getElem?_set_self (by have := hs.last n htimer; omega)] at hm'
        exact (Option.some.inj hm').symm
      · rw [List.getElem?_set_ne heq] at hm'
        refine hs.done m goroutine hm' ?_
        rw [htimer]
        exact fun h => heq (Option.some.inj h)
    last m hm := by cases hm
    stage m hm := by cases hm
    holder holder m hholder hm := by
      cases hholder
      cases hm
    lastCalled _ := hcalled
    calls := hs.calls
    nodup := hs.nodup
    started := hs.started }

/-! ### Every step -/

theorem inv_stepHolder (hs : Inv s) {holder : Holder φ} (hlock : s.lock = some holder)
    {a : Action φ} (hstep : stepHolder s holder a = some s') : Inv s' := by
  cases holder with
  | store f =>
    cases a <;> cases hstep
    refine hs.setLock (.of_lock hlock rfl) ?_ rfl
    intro holder hholder
    cases hholder
    rfl
  | check f =>
    cases a <;> cases hstep
    cases htimer : s.timer with
    | none =>
      have hstart : s.startTimer = { s with
          timer := some s.timers.length
          timers := s.timers ++ [.running]
          goroutines := s.goroutines ++ [.started] } := by
        unfold State.startTimer
        rw [htimer]
      rw [hstart]
      exact inv_addedFirst hs hlock htimer
    | some n =>
      have hstart : s.startTimer = s := by
        unfold State.startTimer
        rw [htimer]
      rw [hstart]
      exact inv_added hs hlock htimer
  | call n =>
    cases a with
    | call =>
      have htimer := hs.holder _ n hlock rfl
      cases hf : s.f with
      | some f =>
        simp only [stepHolder, hf] at hstep
        cases hstep
        exact hf ▸ inv_called hs hlock hf
      | none =>
        -- a function was stored before the timer was started
        have hstored := hs.stored
        unfold Stored at hstored
        rw [hlock, hf] at hstored
        cases hs.stage n htimer with
        | waiting _ _ hfree _ => cases hfree _ hlock
        | call _ _ hdue =>
          obtain ⟨f, rest, hadded, -⟩ := hdue
          rw [hadded] at hstored
          cases hstored
        | running f _ hlock' _ _ => cases hlock.symm.trans hlock'
        | clear _ hlock' _ => cases hlock.symm.trans hlock'
    | _ => cases hstep
  | running n f =>
    cases a <;> cases hstep
    exact inv_returned hs hlock
  | clear n =>
    cases a <;> cases hstep
    exact inv_cleared hs hlock
  | unlock =>
    cases a <;> cases hstep
    refine hs.setLock (f := s.f) (.of_lock hlock rfl) (fun _ h => by cases h) ?_
    have hstored := hs.stored
    unfold Stored at hstored ⊢
    rw [hlock] at hstored
    exact hstored

theorem inv_stepGoroutine (hs : Inv s) {goroutine : Goroutine}
    (hgoroutine : s.goroutines[n]? = some goroutine) {a : Action φ}
    (hstep : stepGoroutine s n goroutine a = some s') : Inv s' := by
  cases goroutine with
  | started =>
    cases a with
    | read m =>
      have htimer := hs.timer_of hgoroutine (by decide)
      -- the timer that it reads is its own
      simp only [stepGoroutine, htimer] at hstep
      cases hstep
      cases hs.stage n htimer with
      | waiting _ _ hfree hdue =>
        have hset : (s.goroutines.set n (.receiving n))[n]? = some (.receiving n) :=
          List.getElem?_set_self (List.getElem?_eq_some_iff.mp hgoroutine).1
        exact htimer ▸ hs.setGoroutine htimer rfl hs.stored
          (.waiting hset (.inr (.inl rfl)) hfree hdue) hs.holder
      | call hholding _ _ => cases hgoroutine.symm.trans hholding
      | running f hholding _ _ _ => cases hgoroutine.symm.trans hholding
      | clear hholding _ _ => cases hgoroutine.symm.trans hholding
    | _ => cases hstep
  | receiving timer =>
    cases a with
    | receive m =>
      have htimer := hs.timer_of hgoroutine (by simp)
      simp only [stepGoroutine] at hstep
      split at hstep
      next =>
        cases hstep
        cases hs.stage n htimer with
        | waiting _ _ hfree hdue =>
          have hset : (s.goroutines.set n .locking)[n]? = some .locking :=
            List.getElem?_set_self (List.getElem?_eq_some_iff.mp hgoroutine).1
          exact hs.setGoroutine htimer (List.length_set ..) hs.stored
            (.waiting hset (.inr (.inr rfl)) hfree hdue) hs.holder
        | call hholding _ _ => cases hgoroutine.symm.trans hholding
        | running f hholding _ _ _ => cases hgoroutine.symm.trans hholding
        | clear hholding _ _ => cases hgoroutine.symm.trans hholding
      next => cases hstep
    | _ => cases hstep
  | locking =>
    cases a with
    | wake m =>
      have htimer := hs.timer_of hgoroutine (by decide)
      simp only [stepGoroutine] at hstep
      split at hstep
      next hlock =>
        cases hstep
        obtain ⟨_, _, _, hdue⟩ := (hs.stage n htimer).waits (by
          intro holder hholder
          cases hlock.symm.trans hholder)
        refine hs.setGoroutine htimer rfl ?_ (.call ?_ rfl hdue) ?_
        · have hstored := hs.stored
          unfold Stored at hstored ⊢
          rw [hlock] at hstored
          exact hstored
        · exact List.getElem?_set_self (List.getElem?_eq_some_iff.mp hgoroutine).1
        · intro holder m hholder hm
          cases hholder
          cases hm
          exact htimer
      next => cases hstep
    | _ => cases hstep
  | holding => cases a <;> cases hstep
  | done => cases a <;> cases hstep

theorem inv_step {a : Action φ} (hs : Inv s) (hstep : (machine φ).step s a = some s') :
    Inv s' := by
  have hcrashed : ¬ s.crashed = true := by simp [hs.crashed]
  change step s a = some s' at hstep
  unfold step at hstep
  rw [if_neg hcrashed] at hstep
  cases a with
  | lock f =>
    dsimp only at hstep
    split at hstep
    next hlock =>
      cases hstep
      refine hs.setLock (f := s.f) ?_ ?_ ?_
      · intro holder hholder
        cases hlock.symm.trans hholder
      · intro holder hholder
        cases hholder
        rfl
      · have hstored := hs.stored
        unfold Stored at hstored ⊢
        rw [hlock] at hstored
        exact hstored
    next => cases hstep
  | expire timer =>
    dsimp only at hstep
    split at hstep
    next =>
      cases hstep
      exact {
        crashed := hs.crashed
        length := (List.length_set ..).trans hs.length
        stored := hs.stored
        done := hs.done
        last := hs.last
        stage m hm := by
          cases hs.stage m hm with
          | waiting hgoroutine hwaits hfree hdue => exact .waiting hgoroutine hwaits hfree hdue
          | call hgoroutine hlock hdue => exact .call hgoroutine hlock hdue
          | running f hgoroutine hlock hadded hcall =>
            exact .running f hgoroutine hlock hadded hcall
          | clear hgoroutine hlock hcalled => exact .clear hgoroutine hlock hcalled
        holder := hs.holder
        lastCalled := hs.lastCalled
        calls := hs.calls
        nodup := hs.nodup
        started c hc := (List.length_set ..).symm ▸ hs.started c hc }
    next => cases hstep
  | read n | receive n | wake n =>
    obtain ⟨goroutine, hgoroutine, hstep⟩ := Option.bind_eq_some_iff.mp hstep
    exact inv_stepGoroutine hs hgoroutine hstep
  | store | check | unlock | call | ret | clear =>
    obtain ⟨holder, hlock, hstep⟩ := Option.bind_eq_some_iff.mp hstep
    exact inv_stepHolder hs hlock hstep

end

theorem inv_everyState (φ : Type) : (machine φ).EveryState Init Machine.Free Inv := by
  refine Machine.everyState_of_inv ?_ fun _ _ _ hs _ hstep => inv_step hs hstep
  intro s hs
  rw [hs]
  exact inv_init

/-- No nil timer is read, and no nil function is called. -/
theorem crashed_everyState (φ : Type) :
    (machine φ).EveryState Init Machine.Free fun s => s.crashed = false :=
  fun s hs => (inv_everyState φ s hs).crashed

/-- What a throttler is for. -/
structure Throttled {φ : Type} (s : State φ) : Prop where
  /-- The functions are called in the order in which they were added; some are skipped. -/
  subsequence : ((called s.history).map Prod.snd).Sublist (added s.history)
  /-- Each call is the only one of its timer. -/
  nodup : ((called s.history).map Prod.fst).Nodup
  started : ∀ c ∈ called s.history, c.1 < s.timers.length
  lastCalled : s.timer = none → LastCalled s.history

/-- Two functions are added while a timer runs: the second one is called. -/
def burst : List (Action Nat) :=
  [.lock 1, .store, .check, .unlock, .read 0, .lock 2, .store, .check, .unlock, .expire 0,
    .receive 0, .wake 0, .call, .ret, .clear, .unlock]

end Kotsadm.Throttler
