import Mathlib.Data.List.Basic
import Kotsadm.AppState.AppMonitor

/-!
# Monitor — shutting down the monitor of all apps

`Monitor.run` keeps an `AppMonitor` for each app, and for each of them a goroutine that forwards its
statuses to the channel the operator reads.  The channels are closed by the `run` that reads from
them, or forwards to them, when its context is done; nobody waits for the goroutines that send.
-/

namespace Kotsadm.AppState

/-- The goroutine that forwards the statuses of an app. -/
inductive Forwarder where
  | ranging
  | sending (appStatus : AppStatus)
  | done
  deriving DecidableEq, Repr

structure MonitoredApp where
  monitor : AppMonitor
  forwarder : Forwarder := .ranging

/-- Where `Monitor.run` is. -/
inductive MonitorPhase where
  | selecting
  -- in `appMonitor.Apply` of app `i`
  | applying (i : Nat) (informers : List StatusInformer) (now : Int)
  -- in its deferred calls
  | stopping
  | done
  deriving DecidableEq, Repr

structure Monitor where
  targetNamespace : String
  phase : MonitorPhase := .selecting
  -- the context is done
  cancelled : Bool := false
  appStatusClosed : Bool := false
  apps : List MonitoredApp := []
  panicked : Bool := false

namespace Monitor

inductive Action where
  | shutdown
  -- Monitor.run
  | apply (appID : String) (informers : List StatusInformer) (now : Int)
  | applyInformers
  | stop
  | shutdownApp (i : Nat)
  | closeAppStatus
  -- a step of the monitor of app `i`, or of one of its goroutines
  | app (i : Nat) (a : AppMonitor.Action)
  -- the forwarder of app `i`
  | forward (i : Nat)
  | finish (i : Nat)
  | panic (i : Nat)

def put (m : Monitor) (i : Nat) (app : MonitoredApp) : Monitor :=
  { m with apps := m.apps.set i app }

/-- The map `appMonitors`. -/
def findApp (m : Monitor) (appID : String) : Option Nat :=
  m.apps.findIdx? fun app => app.monitor.appID = appID

/-- The case of the `select` up to the call of `appMonitor.Apply`. -/
def apply (m : Monitor) (appID : String) (informers : List StatusInformer) (now : Int) : Monitor :=
  match m.findApp appID with
  | some i => { m with phase := .applying i informers now }
  | none =>
    { m with
      apps := m.apps ++ [{ monitor := { targetNamespace := m.targetNamespace, appID } }]
      phase := .applying m.apps.length informers now }

/-- A send on `informersCh` is received, or panics because the channel is closed. -/
def applyInformers (sort : Reorder ResourceState) (m : Monitor) : Option Monitor :=
  match m.phase with
  | .applying i informers now =>
    (m.apps[i]?).bind fun app =>
      if app.monitor.informersClosed then some { m with panicked := true }
      else (AppMonitor.step sort app.monitor (.apply informers now)).map fun monitor =>
        { m.put i { app with monitor } with phase := .selecting }
  | _ => none

/-- Only the deferred calls end an app monitor, and a status is received by the forwarder. -/
def appStep (sort : Reorder ResourceState) (m : Monitor) (i : Nat) (app : MonitoredApp) :
    AppMonitor.Action → Option Monitor
  | .apply .. | .shutdown => none
  | .deliver j =>
    if app.forwarder = .ranging then
      (AppMonitor.step sort app.monitor (.deliver j)).bind fun monitor =>
        (monitor.delivered.head?).map fun d =>
          m.put i { monitor, forwarder := .sending d.appStatus }
    else none
  | a => (AppMonitor.step sort app.monitor a).map fun monitor => m.put i { app with monitor }

/-- The operator receives the status. -/
def forward (m : Monitor) (i : Nat) (app : MonitoredApp) : Option Monitor :=
  match app.forwarder with
  | .sending _ =>
    if m.appStatusClosed then none else some (m.put i { app with forwarder := .ranging })
  | _ => none

/-- The `range` ends with the channel. -/
def finish (m : Monitor) (i : Nat) (app : MonitoredApp) : Option Monitor :=
  if app.forwarder = .ranging && app.monitor.appStatusClosed then
    some (m.put i { app with forwarder := .done })
  else none

def panic (m : Monitor) (i : Nat) (app : MonitoredApp) : Option Monitor :=
  match app.forwarder with
  | .sending _ =>
    if m.appStatusClosed then
      some { m.put i { app with forwarder := .done } with panicked := true }
    else none
  | _ => none

def step (sort : Reorder ResourceState) (m : Monitor) : Action → Option Monitor
  | .shutdown => some { m with cancelled := true }
  | .apply appID informers now =>
    if m.phase = .selecting then some (m.apply appID informers now) else none
  | .applyInformers => m.applyInformers sort
  | .stop =>
    if m.phase = .selecting && m.cancelled then some { m with phase := .stopping } else none
  | .shutdownApp i =>
    if m.phase = .stopping then
      (m.apps[i]?).bind fun app => (AppMonitor.step sort app.monitor .shutdown).map fun monitor =>
        m.put i { app with monitor }
    else none
  | .closeAppStatus =>
    if m.phase = .stopping && m.apps.all (·.monitor.cancelled) then
      some { m with phase := .done, appStatusClosed := true }
    else none
  | .app i a => (m.apps[i]?).bind fun app => m.appStep sort i app a
  | .forward i => (m.apps[i]?).bind fun app => m.forward i app
  | .finish i => (m.apps[i]?).bind fun app => m.finish i app
  | .panic i => (m.apps[i]?).bind fun app => m.panic i app

def machine (sort : Reorder ResourceState) : Machine Monitor Action := ⟨step sort⟩

/-- `NewMonitor` -/
def Init (m : Monitor) : Prop := m = { targetNamespace := m.targetNamespace }

/-- Nobody has sent on a closed channel. -/
def Sound (m : Monitor) : Prop :=
  m.panicked = false ∧ ∀ app ∈ m.apps, app.monitor.panicked = false

/-- A channel is closed only when nobody is to send on it, and afterwards nobody gets something to
send: no goroutine of the app takes a resource state, and no forwarder a status. -/
def Guard (m : Monitor) : Action → Prop
  | .closeAppStatus => ∀ app ∈ m.apps, ∀ appStatus, app.forwarder ≠ .sending appStatus
  | .app i .closeAppStatus => ∀ app, m.apps[i]? = some app →
      ∀ g ∈ app.monitor.generations, g.phase.Sends = false
  | .app i (.event ..) => ∀ app, m.apps[i]? = some app → app.monitor.appStatusClosed = false
  | .app _ (.deliver _) => m.appStatusClosed = false
  | _ => True

end Monitor

/-! ## The monitor of one app -/

namespace AppMonitor

/-- On a closed channel nobody is to send, and only a cancelled monitor closes one. -/
structure Sound (m : AppMonitor) : Prop where
  closed : m.appStatusClosed = true →
    ∀ (j : Nat) g, m.generations[j]? = some g → g.phase.Sends = false
  selecting : m.phase = .selecting → m.appStatusClosed = false ∧ m.informersClosed = false
  stopped : m.phase = .selecting ∨ m.cancelled = true
  panicked : m.panicked = false

theorem sound_init (targetNamespace appID : String) : Sound { targetNamespace, appID } where
  closed h := by cases h
  selecting _ := ⟨rfl, rfl⟩
  stopped := .inl rfl
  panicked := rfl

theorem Sound.step {sort : Reorder ResourceState} {m m' : AppMonitor} {a : Action} (hm : Sound m)
    (hclose : a = .closeAppStatus → ∀ g ∈ m.generations, g.phase.Sends = false)
    (hevent : ∀ i resourceState now, a = .event i resourceState now → m.appStatusClosed = false)
    (hstep : AppMonitor.step sort m a = some m') : Sound m' := by
  -- who sends after the step, in a channel that was open before it or is closed by it
  have hsends : (a = .closeAppStatus ∨ m'.appStatusClosed = m.appStatusClosed) →
      m'.appStatusClosed = true →
      ∀ (j : Nat) g, m'.generations[j]? = some g → g.phase.Sends = false := by
    intro hchannel hclosed j g hg
    by_contra hother
    rw [Bool.not_eq_false] at hother
    -- the sender was one before, or is new, or has just taken a resource state
    rcases sends_step hstep hg hother with ⟨old, hold, hsame⟩ | ⟨-, informers, now, rfl, hphase⟩ |
      ⟨resourceState, now, rfl⟩
    · rcases hchannel with rfl | hchannel
      · rw [hclose rfl old (List.mem_of_getElem? hold)] at hsame
        cases hsame
      · rw [hchannel] at hclosed
        rw [hm.closed hclosed j old hold] at hsame
        cases hsame
    · rcases hchannel with heq | hchannel
      · cases heq
      · rw [hchannel, (hm.selecting hphase).1] at hclosed
        cases hclosed
    · rcases hchannel with heq | hchannel
      · cases heq
      · rw [hchannel, hevent j resourceState now rfl] at hclosed
        cases hclosed
  rcases step_cases hstep with ⟨informers, now, rfl, hphase, rfl⟩ | ⟨hquiet, -, hchannel⟩ |
    ⟨i, g, hg, hgoes⟩
  · exact ⟨hsends (.inr rfl), hm.selecting, hm.stopped, hm.panicked⟩
  · refine ⟨hsends hchannel, ?_, hquiet.stopped hm.stopped, hquiet.panicked.trans hm.panicked⟩
    intro hphase
    obtain ⟨hold, happ, hinformers⟩ := hquiet.selecting hphase
    rw [happ, hinformers]
    exact hm.selecting hold
  · cases hgoes with
    | panic hother hclosed =>
      -- nobody is to send on a closed channel, so there is no panic
      rw [hm.closed hclosed i g hg] at hother
      cases hother
    | deliver | event | finish =>
      exact ⟨hsends (.inr rfl), hm.selecting, hm.stopped, hm.panicked⟩

end AppMonitor

/-! ## The monitor of all apps -/

namespace Monitor

/-- The apps are sound, and only the deferred calls cancel them; on the closed channel no forwarder
is to send. -/
structure Inv (m : Monitor) : Prop where
  apps : ∀ app ∈ m.apps, app.monitor.Sound
  live : ∀ app ∈ m.apps, app.monitor.cancelled = true → m.phase = .stopping ∨ m.phase = .done
  forwarders : m.appStatusClosed = true → ∀ app ∈ m.apps, ∀ appStatus,
    app.forwarder ≠ .sending appStatus
  panicked : m.panicked = false

section

variable {sort : Reorder ResourceState} {m m' : Monitor}

theorem inv_init (targetNamespace : String) : Inv { targetNamespace } where
  apps _ h := by cases h
  live _ h := by cases h
  forwarders h := by cases h
  panicked := rfl

/-- A step of one app, while the monitor stays where it is or gets back to its `select`. -/
theorem Inv.put (hm : Inv m) {i : Nat} {app : MonitoredApp} {phase : MonitorPhase}
    (hphase : phase = m.phase ∨ ∀ other ∈ m.apps, other.monitor.cancelled = false)
    (hsound : app.monitor.Sound)
    (hlive : app.monitor.cancelled = true → phase = .stopping ∨ phase = .done)
    (hforwarder : m.appStatusClosed = true → ∀ appStatus, app.forwarder ≠ .sending appStatus) :
    Inv { m.put i app with phase := phase } where
  apps other hother := by
    rcases List.mem_or_eq_of_mem_set hother with hold | rfl
    · exact hm.apps other hold
    · exact hsound
  live other hother hcancelled := by
    rcases List.mem_or_eq_of_mem_set hother with hold | rfl
    · rcases hphase with rfl | hnone
      · exact hm.live other hold hcancelled
      · rw [hnone other hold] at hcancelled
        cases hcancelled
    · exact hlive hcancelled
  forwarders hclosed other hother := by
    rcases List.mem_or_eq_of_mem_set hother with hold | rfl
    · exact hm.forwarders hclosed other hold
    · exact hforwarder hclosed
  panicked := hm.panicked

theorem Inv.live_of_selecting (hm : Inv m) (hphase : m.phase ≠ .stopping ∧ m.phase ≠ .done) :
    ∀ app ∈ m.apps, app.monitor.cancelled = false := by
  intro app happ
  by_contra hcancelled
  rw [Bool.not_eq_false] at hcancelled
  rcases hm.live app happ hcancelled with h | h
  · exact hphase.1 h
  · exact hphase.2 h

theorem inv_apply (hm : Inv m) (hphase : m.phase = .selecting) (appID : String)
    (informers : List StatusInformer) (now : Int) : Inv (m.apply appID informers now) := by
  have hlive := hm.live_of_selecting (by rw [hphase]; exact ⟨nofun, nofun⟩)
  unfold apply
  split
  -- the app is known, and its monitor is handed the informers
  next i _ =>
    refine ⟨hm.apps, ?_, hm.forwarders, hm.panicked⟩
    intro app happ hcancelled
    rw [hlive app happ] at hcancelled
    cases hcancelled
  -- a new monitor, with a forwarder that waits
  next =>
    refine ⟨?_, ?_, ?_, hm.panicked⟩
    · intro app happ
      rcases List.mem_append.mp happ with hold | hnew
      · exact hm.apps app hold
      · rw [List.mem_singleton.mp hnew]
        exact AppMonitor.sound_init _ _
    · intro app happ hcancelled
      rcases List.mem_append.mp happ with hold | hnew
      · rw [hlive app hold] at hcancelled
        cases hcancelled
      · rw [List.mem_singleton.mp hnew] at hcancelled
        cases hcancelled
    · intro hclosed app happ
      rcases List.mem_append.mp happ with hold | hnew
      · exact hm.forwarders hclosed app hold
      · rw [List.mem_singleton.mp hnew]
        exact fun _ => nofun

theorem inv_applyInformers (hm : Inv m) (hstep : m.applyInformers sort = some m') : Inv m' := by
  unfold applyInformers at hstep
  split at hstep
  next i informers now hphase =>
    have hlive := hm.live_of_selecting (by rw [hphase]; exact ⟨nofun, nofun⟩)
    obtain ⟨app, hi, hstep⟩ := Option.bind_eq_some_iff.mp hstep
    have happ := List.mem_of_getElem? hi
    have hsound := hm.apps app happ
    -- nothing has been cancelled, so the app monitor is in its `select`
    have hselecting : app.monitor.phase = .selecting :=
      hsound.stopped.resolve_right (by rw [hlive app happ]; decide)
    rw [(hsound.selecting hselecting).2] at hstep
    obtain ⟨monitor, hmonitor, rfl⟩ := Option.map_eq_some_iff.mp hstep
    have hcancelled := (AppMonitor.cancelled_step hmonitor nofun).trans (hlive app happ)
    have happlied := hsound.step (a := .apply informers now) nofun nofun hmonitor
    refine hm.put (.inr hlive) happlied ?_ ?_
    · intro h
      rw [hcancelled] at h
      cases h
    · exact fun hclosed => hm.forwarders hclosed app happ
  next => cases hstep

theorem inv_app {i : Nat} {app : MonitoredApp} {a : AppMonitor.Action} (hm : Inv m)
    (hi : m.apps[i]? = some app) (hguard : Guard m (.app i a))
    (hstep : m.appStep sort i app a = some m') : Inv m' := by
  have happ := List.mem_of_getElem? hi
  have hsound := hm.apps app happ
  have hlive := hm.live app happ
  -- whatever the app does, its monitor stays sound under the guard
  have hgo : ∀ {monitor forwarder}, a ≠ .shutdown →
      AppMonitor.step sort app.monitor a = some monitor →
      (a = .closeAppStatus → ∀ g ∈ app.monitor.generations, g.phase.Sends = false) →
      (∀ j resourceState now, a = .event j resourceState now →
        app.monitor.appStatusClosed = false) →
      (m.appStatusClosed = true → ∀ appStatus, forwarder ≠ .sending appStatus) →
      Inv (m.put i { monitor, forwarder }) := by
    intro monitor forwarder ha hmonitor hclose hevent hforwarder
    refine hm.put (.inl rfl) (hsound.step hclose hevent hmonitor) ?_ hforwarder
    intro hcancelled
    rw [AppMonitor.cancelled_step hmonitor ha] at hcancelled
    exact hlive hcancelled
  have hforwarder : m.appStatusClosed = true → ∀ appStatus, app.forwarder ≠ .sending appStatus :=
    fun hclosed => hm.forwarders hclosed app happ
  cases a with
  | apply | shutdown => cases hstep
  | deliver j =>
    simp only [appStep] at hstep
    split at hstep
    next =>
      obtain ⟨monitor, hmonitor, hstep⟩ := Option.bind_eq_some_iff.mp hstep
      obtain ⟨d, -, rfl⟩ := Option.map_eq_some_iff.mp hstep
      refine hgo nofun hmonitor nofun nofun fun hclosed => ?_
      rw [show m.appStatusClosed = false from hguard] at hclosed
      cases hclosed
    next => cases hstep
  | closeAppStatus =>
    obtain ⟨monitor, hmonitor, rfl⟩ := Option.map_eq_some_iff.mp hstep
    exact hgo nofun hmonitor (fun _ => hguard app hi) nofun hforwarder
  | event j resourceState now =>
    obtain ⟨monitor, hmonitor, rfl⟩ := Option.map_eq_some_iff.mp hstep
    exact hgo nofun hmonitor nofun (fun _ _ _ _ => hguard app hi) hforwarder
  | stop | closeInformers | finish | panic =>
    obtain ⟨monitor, hmonitor, rfl⟩ := Option.map_eq_some_iff.mp hstep
    exact hgo nofun hmonitor nofun nofun hforwarder

/-- The forwarder of an app goes on, and has nothing to send. -/
theorem Inv.putForwarder (hm : Inv m) {i : Nat} {app : MonitoredApp} {forwarder : Forwarder}
    (hi : m.apps[i]? = some app) (hforwarder : ∀ appStatus, forwarder ≠ .sending appStatus) :
    Inv (m.put i { app with forwarder }) :=
  hm.put (.inl rfl) (hm.apps app (List.mem_of_getElem? hi))
    (hm.live app (List.mem_of_getElem? hi)) fun _ => hforwarder

theorem inv_step {a : Action} (hm : Inv m) (hguard : Guard m a)
    (hstep : (machine sort).step m a = some m') : Inv m' := by
  cases a with
  | shutdown =>
    cases hstep
    exact ⟨hm.apps, hm.live, hm.forwarders, hm.panicked⟩
  | apply appID informers now =>
    simp only [machine, step] at hstep
    split at hstep <;> cases hstep
    next hphase => exact inv_apply hm hphase appID informers now
  | applyInformers => exact inv_applyInformers hm hstep
  | stop =>
    simp only [machine, step] at hstep
    split at hstep <;> cases hstep
    exact ⟨hm.apps, fun _ _ _ => .inl rfl, hm.forwarders, hm.panicked⟩
  | shutdownApp i =>
    simp only [machine, step] at hstep
    split at hstep
    next hphase =>
      obtain ⟨app, hi, hstep⟩ := Option.bind_eq_some_iff.mp hstep
      obtain ⟨monitor, hmonitor, rfl⟩ := Option.map_eq_some_iff.mp hstep
      have happ := List.mem_of_getElem? hi
      have hsound := (hm.apps app happ).step (a := .shutdown) nofun nofun hmonitor
      exact hm.put (.inl rfl) hsound (fun _ => .inl hphase) fun hclosed =>
        hm.forwarders hclosed app happ
    next => cases hstep
  | closeAppStatus =>
    simp only [machine, step] at hstep
    split at hstep <;> cases hstep
    exact ⟨hm.apps, fun _ _ _ => .inr rfl, fun _ => hguard, hm.panicked⟩
  | app i a =>
    obtain ⟨app, hi, hstep⟩ := Option.bind_eq_some_iff.mp hstep
    exact inv_app hm hi hguard hstep
  | forward i =>
    obtain ⟨app, hi, hforward⟩ := Option.bind_eq_some_iff.mp hstep
    unfold forward at hforward
    split at hforward
    next =>
      split at hforward <;> cases hforward
      exact hm.putForwarder hi fun _ => nofun
    next => cases hforward
  | finish i =>
    obtain ⟨app, hi, hfinish⟩ := Option.bind_eq_some_iff.mp hstep
    unfold finish at hfinish
    split at hfinish <;> cases hfinish
    exact hm.putForwarder hi fun _ => nofun
  | panic i =>
    obtain ⟨app, hi, hpanic⟩ := Option.bind_eq_some_iff.mp hstep
    unfold panic at hpanic
    split at hpanic
    next appStatus hsending =>
      split at hpanic
      next hclosed => exact absurd hsending (hm.forwarders hclosed app (List.mem_of_getElem? hi) _)
      next => cases hpanic
    next => cases hpanic

end

/-- **Shutting down does not panic**, in every run in which a channel is closed only when nobody is
to send on it, and nobody gets something to send on a closed one. -/
theorem sound_everyState (sort : Reorder ResourceState) {m : Monitor}
    (hm : (machine sort).Reachable Init Guard m) : Sound m := by
  have hinv : (machine sort).EveryState Init Guard Inv := by
    refine Machine.everyState_of_inv ?_ fun _ _ _ => inv_step
    intro m hm
    rw [hm]
    exact inv_init _
  exact ⟨(hinv m hm).panicked, fun app happ => ((hinv m hm).apps app happ).panicked⟩

def newMonitor : Monitor where
  targetNamespace := "default"

/-- The informers of an app are started. -/
def started : List Action :=
  [.apply "app" [AppMonitor.deploymentInformer "web"] 0, .applyInformers]

/-- The context of every monitor is done. -/
def stopped : List Action := [.shutdown, .stop, .shutdownApp 0]

/-- Everything ends when nothing happens during the shutdown. -/
theorem sound_quiet : ∃ m, (machine (.id _)).Reachable Init Guard m ∧
    m.appStatusClosed = true ∧ m.apps.map (·.monitor.appStatusClosed) = [true] ∧ Sound m := by
  have hinit : (machine (.id _)).Reachable Init Guard newMonitor := .init rfl
  have hstarted := hinit.run started (by simp [started, Guard]) rfl
  have hreset := hstarted.step (a := Action.app 0 (.deliver 0)) rfl rfl
  have hstopped := hreset.run (.forward 0 :: stopped ++ [.app 0 .stop, .app 0 (.finish 0)])
    (by simp [stopped, Guard]) rfl
  have hclosedApp := hstopped.step (a := Action.app 0 .closeAppStatus) (fun app happ g hg => by
    cases happ
    cases List.mem_singleton.mp hg
    rfl) rfl
  have hfinished := hclosedApp.run [.app 0 .closeInformers, .finish 0] (by simp [Guard]) rfl
  have hclosed := hfinished.step (a := Action.closeAppStatus) (fun app happ appStatus => by
    cases List.mem_singleton.mp happ
    exact nofun) rfl
  exact ⟨_, hclosed, rfl, rfl, sound_everyState _ hclosed⟩

/-- The informers have just been started when the connection is lost: the goroutine sends its first
status on the channel that its app monitor has closed. -/
theorem not_sound_reset : ¬ ∃ sort, (machine sort).EveryState Init Machine.Free Sound := by
  rintro ⟨sort, hsound⟩
  have hinit : Init newMonitor := rfl
  refine Machine.not_everyState (M := machine sort) hinit
    (started ++ stopped ++ [.app 0 .stop, .app 0 .closeAppStatus, .app 0 (.panic 0)]) rfl ?_ hsound
  intro h
  have hpanicked := h.2 _ List.mem_cons_self
  cases hpanicked

/-- The forwarder has received a status when the channel of all apps is closed. -/
theorem not_sound_forwarder : ¬ ∃ sort, (machine sort).EveryState Init Machine.Free Sound := by
  rintro ⟨sort, hsound⟩
  have hinit : Init newMonitor := rfl
  refine Machine.not_everyState (M := machine sort) hinit
    (started ++ [.app 0 (.deliver 0)] ++ stopped ++ [.closeAppStatus, .panic 0]) rfl ?_ hsound
  intro h
  have hpanicked := h.1
  cases hpanicked

end Monitor

end Kotsadm.AppState
