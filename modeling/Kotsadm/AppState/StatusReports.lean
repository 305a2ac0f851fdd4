import Mathlib.Logic.Function.Basic
import Kotsadm.Lib.Machine
import Kotsadm.AppState.ResourceStates

/-!
# StatusReports — what the operator reports of the statuses it receives

`runAppStateMonitor` hands each status to a throttler of its app, which sends a second later.  What
it sends is read from the variable of the `range` loop, of which there is one for the whole loop.
-/

namespace Kotsadm.StatusReports

open AppState

/-- A throttler.  From `running` on its goroutine holds the lock. -/
inductive Throttler where
  -- there is no timer
  | idle
  | waiting
  | running
  | sending (appStatus : AppStatus)
  | sent
  deriving DecidableEq, Repr

structure State where
  -- the variable of the loop
  appStatus : Option AppStatus := none
  -- the app whose throttler the loop is about to call
  adding : Option String := none
  throttlers : String → Throttler := fun _ => .idle
  -- history, newest first
  received : List AppStatus := []
  sent : List AppStatus := []

inductive Action where
  | receive (appStatus : AppStatus)
  | add
  | expire (appID : String)
  | call (appID : String)
  | send (appID : String)
  | release (appID : String)

namespace State

def setThrottler (s : State) (appID : String) (throttler : Throttler) : State :=
  { s with throttlers := Function.update s.throttlers appID throttler }

end State

/-- `throttler.add`, which waits for the lock.  Which function it keeps makes no difference: all of
them read the same variable. -/
def add (s : State) (appID : String) : Option State :=
  match s.throttlers appID with
  | .idle | .waiting => some { s.setThrottler appID .waiting with adding := none }
  | _ => none

/-- The throttled function: it reads the variable when it calls `sendAppStatus`. -/
def step (s : State) : Action → Option State
  | .receive appStatus =>
    match s.adding with
    | some _ => none
    | none =>
      some { s with
        appStatus := some appStatus
        adding := some appStatus.appID
        received := appStatus :: s.received }
  | .add => s.adding.bind fun appID => add s appID
  | .expire appID =>
    match s.throttlers appID with
    | .waiting => some (s.setThrottler appID .running)
    | _ => none
  | .call appID =>
    match s.throttlers appID, s.appStatus with
    | .running, some appStatus => some (s.setThrottler appID (.sending appStatus))
    | _, _ => none
  | .send appID =>
    match s.throttlers appID with
    | .sending appStatus =>
      some { s.setThrottler appID .sent with sent := appStatus :: s.sent }
    | _ => none
  | .release appID =>
    match s.throttlers appID with
    | .sent => some (s.setThrottler appID .idle)
    | _ => none

def machine : Machine State Action := ⟨step⟩

/-- The monitor has just been started. -/
def Init (s : State) : Prop := s = {}

/-- The newest status of an app. -/
def lastOf (appID : String) (statuses : List AppStatus) : Option AppStatus :=
  statuses.find? fun appStatus => appStatus.appID = appID

/-- All throttlers are idle, and none is about to be called. -/
structure Idle (s : State) : Prop where
  adding : s.adding = none
  throttlers : ∀ appID, s.throttlers appID = .idle

/-- For each app the last status received was the last one sent. -/
def Reported (s : State) : Prop :=
  Idle s → ∀ appID appStatus, lastOf appID s.received = some appStatus →
    lastOf appID s.sent = some appStatus

/-- A throttled function is called only while the last status received is one of its app. -/
def Guard (s : State) : Action → Prop
  | .call appID => ∀ appStatus, s.appStatus = some appStatus → appStatus.appID = appID
  | _ => True

/-! ## The invariant -/

/-- The throttler is still going to send the status. -/
def Throttler.Pending (throttler : Throttler) (appStatus : AppStatus) : Prop :=
  throttler = .waiting ∨ throttler = .running ∨ throttler = .sending appStatus

structure Inv (s : State) : Prop where
  appStatus : ∀ appStatus, s.appStatus = some appStatus →
    lastOf appStatus.appID s.received = some appStatus
  sending : ∀ appID appStatus, s.throttlers appID = .sending appStatus →
    appStatus.appID = appID ∧ (s.adding = some appID ∨ lastOf appID s.received = some appStatus)
  received : ∀ appID appStatus, lastOf appID s.received = some appStatus →
    s.adding = some appID ∨ (s.throttlers appID).Pending appStatus ∨
      lastOf appID s.sent = some appStatus

theorem lastOf_cons (appStatus : AppStatus) (statuses : List AppStatus) (appID : String) :
    lastOf appID (appStatus :: statuses) =
      if appStatus.appID = appID then some appStatus else lastOf appID statuses := by
  unfold lastOf
  rw [List.find?_cons]
  by_cases happ : appStatus.appID = appID
  · rw [decide_eq_true happ, if_pos happ]
  · rw [decide_eq_false happ, if_neg happ]

theorem setThrottler_apply (s : State) (appID appID' : String) (throttler : Throttler) :
    (s.setThrottler appID throttler).throttlers appID' =
      if appID' = appID then throttler else s.throttlers appID' :=
  Function.update_apply _ _ _ _

section

variable {s s' : State}

theorem inv_init : Inv {} where
  appStatus _ h := by cases h
  sending _ _ h := by cases h
  received _ _ h := by cases h

theorem inv_receive {appStatus : AppStatus} (hs : Inv s) (hadding : s.adding = none) :
    Inv { s with
      appStatus := some appStatus
      adding := some appStatus.appID
      received := appStatus :: s.received } where
  appStatus other hother := by
    cases hother
    rw [lastOf_cons, if_pos rfl]
  sending appID other hsending := by
    obtain ⟨happ, hlast⟩ := hs.sending appID other hsending
    refine ⟨happ, ?_⟩
    rw [hadding] at hlast
    rcases hlast with hnone | hlast
    · cases hnone
    · by_cases heq : appStatus.appID = appID
      · exact .inl (congrArg some heq)
      · exact .inr ((lastOf_cons _ _ _).trans (by rw [if_neg heq, hlast]))
  received appID other hlast := by
    rw [lastOf_cons] at hlast
    by_cases heq : appStatus.appID = appID
    · exact .inl (congrArg some heq)
    · rw [if_neg heq] at hlast
      rcases hs.received appID other hlast with hnone | hpending
      · rw [hadding] at hnone
        cases hnone
      · exact .inr hpending

/-- A throttler goes on, and still sends what it was to send. -/
theorem inv_setThrottler {appID : String} {throttler : Throttler} {adding : Option String}
    (hs : Inv s) (hadding : adding = s.adding ∨ s.adding = some appID)
    (hsending : ∀ appStatus, throttler = .sending appStatus →
      appStatus.appID = appID ∧ lastOf appID s.received = some appStatus)
    (hpending : ∀ appStatus, lastOf appID s.received = some appStatus →
      adding = some appID ∨ throttler.Pending appStatus ∨ lastOf appID s.sent = some appStatus) :
    Inv { s.setThrottler appID throttler with adding := adding } where
  appStatus := hs.appStatus
  sending other appStatus hother := by
    dsimp only at hother
    rw [setThrottler_apply] at hother
    split at hother
    next heq =>
      subst heq
      obtain ⟨happ, hlast⟩ := hsending appStatus hother
      exact ⟨happ, .inr hlast⟩
    next hne =>
      obtain ⟨happ, hlast⟩ := hs.sending other appStatus hother
      refine ⟨happ, ?_⟩
      rcases hadding with rfl | hadding
      · exact hlast
      · rw [hadding] at hlast
        rcases hlast with heq | hlast
        · exact absurd (Option.some.inj heq).symm hne
        · exact .inr hlast
  received other appStatus hlast := by
    dsimp only
    rw [setThrottler_apply]
    split
    next heq =>
      subst heq
      exact hpending appStatus hlast
    next hne =>
      rcases hs.received other appStatus hlast with heq | hrest
      · rcases hadding with rfl | hadding
        · exact .inl heq
        · rw [hadding] at heq
          exact absurd (Option.some.inj heq).symm hne
      · exact .inr hrest

theorem inv_send {appID : String} {appStatus : AppStatus} (hs : Inv s)
    (hphase : s.throttlers appID = .sending appStatus) :
    Inv { s.setThrottler appID .sent with sent := appStatus :: s.sent } where
  appStatus := hs.appStatus
  sending other status hother := by
    dsimp only at hother
    rw [setThrottler_apply] at hother
    split at hother
    next => cases hother
    next => exact hs.sending other status hother
  received other status hlast := by
    obtain ⟨happ, hold⟩ := hs.sending appID appStatus hphase
    dsimp only
    rw [setThrottler_apply, lastOf_cons, happ]
    by_cases heq : other = appID
    · subst heq
      rw [if_pos rfl, if_pos rfl]
      -- what is sent is the last one received, unless the loop waits for the lock
      rcases hold with hadding | hold
      · exact .inl hadding
      · exact .inr (.inr (hold.symm.trans hlast))
    · rw [if_neg heq, if_neg (Ne.symm heq)]
      exact hs.received other status hlast

theorem inv_step {a : Action} (hs : Inv s) (hguard : Guard s a)
    (hstep : machine.step s a = some s') : Inv s' := by
  cases a with
  | receive appStatus =>
    simp only [machine, step] at hstep
    split at hstep
    next => cases hstep
    next hadding =>
      cases hstep
      exact inv_receive hs hadding
  | add =>
    obtain ⟨appID, hadding, hstep⟩ := Option.bind_eq_some_iff.mp hstep
    have hwaiting : s' = { s.setThrottler appID .waiting with adding := none } := by
      unfold add at hstep
      split at hstep
      next => exact (Option.some.inj hstep).symm
      next => exact (Option.some.inj hstep).symm
      next => cases hstep
    rw [hwaiting]
    exact inv_setThrottler hs (.inr hadding) (fun _ h => by cases h)
      fun _ _ => .inr (.inl (.inl rfl))
  | expire appID =>
    simp only [machine, step] at hstep
    split at hstep
    next =>
      cases hstep
      exact inv_setThrottler hs (.inl rfl) (fun _ h => by cases h)
        fun _ _ => .inr (.inl (.inr (.inl rfl)))
    next => cases hstep
  | call appID =>
    simp only [machine, step] at hstep
    split at hstep
    next appStatus _ happ =>
      -- the variable of the loop holds the last status received, of this app by the guard
      cases hstep
      have hown : appStatus.appID = appID := hguard appStatus happ
      have hlast : lastOf appID s.received = some appStatus := by
        rw [← hown]
        exact hs.appStatus appStatus happ
      refine inv_setThrottler hs (.inl rfl) ?_ ?_
      · intro other hother
        cases hother
        exact ⟨hown, hlast⟩
      · intro other hother
        cases hlast.symm.trans hother
        exact .inr (.inl (.inr (.inr rfl)))
    next => cases hstep
  | send appID =>
    simp only [machine, step] at hstep
    split at hstep
    next appStatus hphase =>
      cases hstep
      exact inv_send hs hphase
    next => cases hstep
  | release appID =>
    simp only [machine, step] at hstep
    split at hstep
    next hphase =>
      cases hstep
      refine inv_setThrottler hs (.inl rfl) (fun _ h => by cases h) ?_
      intro appStatus hlast
      -- a throttler that has sent is not about to send
      rcases hs.received appID appStatus hlast with hadding | hpending | hsent
      · exact .inl hadding
      · rw [hphase] at hpending
        rcases hpending with h | h | h <;> cases h
      · exact .inr (.inr hsent)
    next => cases hstep

end

/-- **The last status is reported**, in every run in which a throttled function is called only while
the last status received is one of its app. -/
theorem reported_everyState {s : State} (hs : machine.Reachable Init Guard s) : Reported s := by
  have hinv : machine.EveryState Init Guard Inv := by
    refine Machine.everyState_of_inv ?_ fun _ _ _ => inv_step
    intro s hs
    rw [hs]
    exact inv_init
  intro hidle appID appStatus hlast
  rcases (hinv s hs).received appID appStatus hlast with hadding | hpending | hsent
  · rw [hidle.adding] at hadding
    cases hadding
  · rw [hidle.throttlers appID] at hpending
    rcases hpending with h | h | h <;> cases h
  · exact hsent

def statusOf (appID : String) : AppStatus where
  appID := appID
  resourceStates := []
  updatedAt := 0

/-- From the timer of an app to the end of its function. -/
def throttled (appID : String) : List Action :=
  [.expire appID, .call appID, .send appID, .release appID]

/-- The statuses of two apps, each reported before the other one comes. -/
theorem reported_oneByOne : ∃ s, machine.Reachable Init Guard s ∧
    s.sent = [statusOf "b", statusOf "a"] ∧ Reported s := by
  have hinit : machine.Reachable Init Guard {} := .init rfl
  have hwaiting := hinit.run [.receive (statusOf "a"), .add, .expire "a"] (by simp [Guard]) rfl
  have hcalled := hwaiting.step (a := Action.call "a") (fun other hother => by
    cases hother
    rfl) rfl
  have hnext := hcalled.run
    [.send "a", .release "a", .receive (statusOf "b"), .add, .expire "b"] (by simp [Guard]) rfl
  have hcalled' := hnext.step (a := Action.call "b") (fun other hother => by
    cases hother
    rfl) rfl
  have hsent := hcalled'.run [.send "b", .release "b"] (by simp [Guard]) rfl
  exact ⟨_, hsent, rfl, reported_everyState hsent⟩

/-- A status of `b` comes while the timer of `a` runs: `b` is reported twice, and `a` never. -/
theorem not_reported_otherApp : ¬ machine.EveryState Init Machine.Free Reported := by
  refine Machine.not_everyState (show Init {} from rfl)
    ([.receive (statusOf "a"), .add, .receive (statusOf "b"), .add] ++ throttled "a" ++
      throttled "b") rfl ?_
  intro hreported
  have hlast := hreported ⟨rfl, ?_⟩ "a" (statusOf "a") rfl
  · cases hlast
  · intro appID
    by_cases ha : appID = "a" <;> by_cases hb : appID = "b" <;>
      simp [State.setThrottler, statusOf, ha, hb]

end Kotsadm.StatusReports
