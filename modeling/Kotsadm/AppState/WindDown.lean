import Kotsadm.AppState.AppMonitor
import Kotsadm.AppState.EventHandlers

/-!
# WindDown — the controllers of informers that were replaced

`runInformers` starts a controller for each namespace and kind.  The handlers of all of them send on
one `resourceStateCh`, which has no buffer and which only `runInformers` receives from; when it has
left its loop, it waits for the controllers.  `informer.Run` returns when the context is done, but
not while its handler runs.
-/

namespace Kotsadm.AppState.WindDown

open Grouping

/-! ## The goroutines -/

/-- Where a controller is. -/
inductive ControllerPhase where
  -- in `informer.Run`, and no handler runs
  | running
  -- its handler is in the send on `resourceStateCh`
  | sending (resourceState : ResourceState)
  -- `shutdown.Done` was called
  | returned
  deriving DecidableEq, Repr

def ControllerPhase.Sends : ControllerPhase → Bool
  | .sending _ => true
  | .running | .returned => false

structure Controller where
  kind : String
  informers : List StatusInformer
  phase : ControllerPhase := .running
  deriving DecidableEq, Repr

/-- What a handler sends for a notification; `none` is a panic. -/
def kindImpls (kind : String) :
    Option (List StatusInformer → Notification → Option (List ResourceState)) :=
  match kind with
  | "deployment" => some (runController deploymentEventHandler)
  | "ingress" => some (runController ingressEventHandler)
  | "persistentvolumeclaim" => some (runController persistentVolumeClaimEventHandler)
  | "service" => some (runController serviceEventHandler)
  | "statefulset" => some (runController statefulSetEventHandler)
  | _ => none

def Controller.handle (c : Controller) (n : Notification) : Option (List ResourceState) :=
  (kindImpls c.kind).elim (some []) fun impl => impl c.informers n

/-- The controllers that `runInformers` starts; a kind without an implementation is logged. -/
def controllers (informers : List StatusInformer) : List Controller :=
  (pairs (namespaceKinds informers)).filterMap fun ((_, kind), informers) =>
    if (kindImpls kind).isSome then some { kind, informers } else none

/-- What belongs to a goroutine of `runInformers`. -/
structure Workers where
  informers : List StatusInformer
  controllers : List Controller := []
  -- `resourceStateCh` is closed, and `runInformers` has returned
  closed : Bool := false
  deriving DecidableEq, Repr

structure State where
  monitor : AppMonitor
  -- one for each goroutine of `runInformers`
  workers : List Workers := []
  -- a panic has ended the process
  crashed : Bool := false

inductive Action where
  -- `AppMonitor.run`, and what is called from outside
  | apply (informers : List StatusInformer) (now : Int)
  | shutdown
  | stop
  | closeAppStatus
  | closeInformers
  -- goroutine `i` of `runInformers`: its sends, its `select` and its deferred function
  | deliver (i : Nat)
  | receive (i j : Nat) (now : Int)
  | finish (i : Nat)
  | wait (i : Nat)
  | panic (i : Nat)
  -- controller `j` of goroutine `i`
  | notify (i j : Nat) (n : Notification)
  | done (i j : Nat)

namespace State

variable (sort : Reorder ResourceState) (s : State)

/-- A step of the model without controllers. -/
def lift (a : AppMonitor.Action) (rest : AppMonitor → State) : Option State :=
  (AppMonitor.step sort s.monitor a).map rest

def setController (i : Nat) (w : Workers) (j : Nat) (c : Controller) (phase : ControllerPhase) :
    State :=
  { s with workers :=
      s.workers.set i { w with controllers := w.controllers.set j { c with phase } } }

/-- After its first send, goroutine `i` starts the controllers. -/
def start (i : Nat) (w : Workers) : State :=
  if (s.monitor.generations[i]?).any (·.phase = .resetting) then
    { s with workers := s.workers.set i { w with controllers := controllers w.informers } }
  else s

/-- The send of controller `j` is received in the `select`. -/
def receive (i : Nat) (w : Workers) (j : Nat) (now : Int) : Option State :=
  (w.controllers[j]?).bind fun c =>
    match c.phase with
    | .sending resourceState =>
      s.lift sort (.event i resourceState now) fun monitor =>
        { s.setController i w j c .running with monitor }
    | .running | .returned => none

/-- `shutdown.Wait` returns, and the channel is closed. -/
def wait (i : Nat) (w : Workers) : Option State :=
  (s.monitor.generations[i]?).bind fun g =>
    if g.phase = .done ∧ w.closed = false ∧ ∀ c ∈ w.controllers, c.phase = .returned then
      some { s with workers := s.workers.set i { w with closed := true } }
    else none

/-- A notification comes, and its handler runs up to the send. -/
def notify (i : Nat) (w : Workers) (j : Nat) (n : Notification) : Option State :=
  (w.controllers[j]?).bind fun c =>
    if c.phase = .running then
      match c.handle n with
      | none => some { s with crashed := true }
      | some [] => some s
      | some (resourceState :: _) => some (s.setController i w j c (.sending resourceState))
    else none

/-- `informer.Run` returns, and `shutdown.Done` is called. -/
def done (i : Nat) (w : Workers) (j : Nat) : Option State :=
  (w.controllers[j]?).bind fun c => (s.monitor.generations[i]?).bind fun g =>
    if c.phase = .running ∧ g.cancelled = true then some (s.setController i w j c .returned)
    else none

end State

def step (sort : Reorder ResourceState) (s : State) (a : Action) : Option State :=
  if s.crashed then none
  else match a with
  | .apply informers now =>
    s.lift sort (.apply informers now) fun monitor => { s with
      monitor
      workers := s.workers ++
        [{ informers := normalizeStatusInformers informers monitor.targetNamespace }] }
  | .shutdown => s.lift sort .shutdown fun monitor => { s with monitor }
  | .stop => s.lift sort .stop fun monitor => { s with monitor }
  | .closeAppStatus => s.lift sort .closeAppStatus fun monitor => { s with monitor }
  | .closeInformers => s.lift sort .closeInformers fun monitor => { s with monitor }
  | .deliver i => (s.workers[i]?).bind fun w =>
    s.lift sort (.deliver i) fun monitor => { s.start i w with monitor }
  | .receive i j now => (s.workers[i]?).bind fun w => s.receive sort i w j now
  | .finish i => s.lift sort (.finish i) fun monitor => { s with monitor }
  | .wait i => (s.workers[i]?).bind fun w => s.wait i w
  | .panic i => s.lift sort (.panic i) fun monitor => { s with monitor, crashed := true }
  | .notify i j n => (s.workers[i]?).bind fun w => s.notify i w j n
  | .done i j => (s.workers[i]?).bind fun w => s.done i w j

def machine (sort : Reorder ResourceState) : Machine State Action := ⟨step sort⟩

def Init (s : State) : Prop := AppMonitor.Init s.monitor ∧ s.workers = [] ∧ s.crashed = false

/-! ## The property -/

/-- A step that a generation takes by itself, or with the consumer of the app status channel. -/
def Own (i : Nat) : Action → Prop
  | .deliver k | .receive k _ _ | .finish k | .wait k | .panic k | .done k _ => k = i
  | .apply _ _ | .shutdown | .stop | .closeAppStatus | .closeInformers | .notify _ _ _ => False

/-- Controller `j` of generation `i` is in its send. -/
def Sends (s : State) (i j : Nat) : Prop :=
  s.crashed = false ∧ ∃ w c, s.workers[i]? = some w ∧ w.controllers[j]? = some c ∧
    c.phase.Sends = true

/-- Whatever its generation does, it stays there. -/
def StuckForever (sort : Reorder ResourceState) (s : State) (i j : Nat) : Prop :=
  ∀ actions, (∀ a ∈ actions, Own i a) → ∀ s', (machine sort).run s actions = some s' →
    Sends s' i j

/-- `runInformers` and its controllers have returned. -/
def Returned (w : Workers) : Prop := w.closed = true ∧ ∀ c ∈ w.controllers, c.phase = .returned

/-- A generation whose context is done goes on until all of it has returned, and no send of it is
stuck. -/
def WindsDown (sort : Reorder ResourceState) (s : State) : Prop :=
  s.crashed = false → ∀ i g, s.monitor.generations[i]? = some g → g.cancelled = true →
    ∃ w, s.workers[i]? = some w ∧
      (Returned w ∨ ∃ a s', Own i a ∧ (machine sort).step s a = some s') ∧
      ∀ j, ¬ StuckForever sort s i j

/-! ## The condition -/

/-- The handler gets to a send. -/
def Controller.sendsFor (c : Controller) (n : Notification) : Bool :=
  match c.handle n with
  | some (_ :: _) => true
  | some [] | none => false

/-- `runInformers` leaves its loop only when no handler is in its send, and none of its controllers
has something to send afterwards. -/
def Guard (s : State) : Action → Prop
  | .finish i => ∀ w, s.workers[i]? = some w → ∀ c ∈ w.controllers, c.phase.Sends = false
  | .notify i j n => ∀ g w c, s.monitor.generations[i]? = some g → g.phase = .done →
      s.workers[i]? = some w → w.controllers[j]? = some c → c.sendsFor n = false
  | _ => True

/-! ## What a step can do -/

section

variable {sort : Reorder ResourceState} {m m' : AppMonitor} {i : Nat}

/-- The goroutine is where it was, and its context is not undone. -/
def Later (g g' : Informers) : Prop :=
  g'.phase = g.phase ∧ (g.cancelled = true → g'.cancelled = true)

theorem generations_apply {informers : List StatusInformer} {now : Int}
    (hstep : AppMonitor.step sort m (.apply informers now) = some m') :
    m'.generations.length = m.generations.length + 1 ∧
      ∀ (j : Nat) (g' : Informers), m'.generations[j]? = some g' →
        (j = m.generations.length ∧ g'.phase = .resetting) ∨
          ∃ g, m.generations[j]? = some g ∧ Later g g' := by
  simp only [AppMonitor.step] at hstep
  split at hstep <;> cases hstep
  refine ⟨?_, ?_⟩
  · rw [AppMonitor.apply, List.length_append, List.length_modify, List.length_singleton]
  · intro j g' hg'
    rcases Processes.getElem?_concat_cases hg' with ⟨hj, rfl⟩ | ⟨-, hold⟩
    · rw [List.length_modify] at hj
      exact .inl ⟨hj, rfl⟩
    · rw [List.getElem?_modify] at hold
      obtain ⟨g, hg, rfl⟩ := Option.map_eq_some_iff.mp hold
      refine .inr ⟨g, hg, ?_⟩
      split
      next => exact ⟨rfl, fun _ => rfl⟩
      next => exact ⟨rfl, id⟩

theorem generations_shutdown (hstep : AppMonitor.step sort m .shutdown = some m') :
    m'.generations.length = m.generations.length ∧
      ∀ (j : Nat) (g' : Informers), m'.generations[j]? = some g' →
        ∃ g, m.generations[j]? = some g ∧ Later g g' := by
  cases hstep
  refine ⟨List.length_map _, ?_⟩
  intro j g' hg'
  dsimp only at hg'
  rw [List.getElem?_map] at hg'
  obtain ⟨g, hg, rfl⟩ := Option.map_eq_some_iff.mp hg'
  exact ⟨g, hg, rfl, fun _ => rfl⟩

theorem generations_deliver (hstep : AppMonitor.step sort m (.deliver i) = some m') :
    ∃ g, m.generations[i]? = some g ∧ g.phase.Sends = true ∧
      m'.generations = m.generations.set i { g with phase := .selecting } := by
  obtain ⟨g, hg, hdeliver⟩ := Option.bind_eq_some_iff.mp hstep
  unfold AppMonitor.deliver at hdeliver
  split at hdeliver <;> cases hdeliver
  next hsends =>
    rw [Bool.and_eq_true] at hsends
    exact ⟨g, hg, hsends.1, rfl⟩

theorem generations_event {resourceState : ResourceState} {now : Int}
    (hstep : AppMonitor.step sort m (.event i resourceState now) = some m') :
    ∃ g appStatus, m.generations[i]? = some g ∧ g.phase = .selecting ∧
      m'.generations = m.generations.set i { g with appStatus, phase := .updating } := by
  obtain ⟨g, hg, hevent⟩ := Option.bind_eq_some_iff.mp hstep
  unfold AppMonitor.event at hevent
  split at hevent <;> cases hevent
  next hphase => exact ⟨g, _, hg, hphase, rfl⟩

theorem generations_finish (hstep : AppMonitor.step sort m (.finish i) = some m') :
    ∃ g, m.generations[i]? = some g ∧ g.phase = .selecting ∧ g.cancelled = true ∧
      m'.generations = m.generations.set i { g with phase := .done } := by
  obtain ⟨g, hg, hfinish⟩ := Option.bind_eq_some_iff.mp hstep
  unfold AppMonitor.finish at hfinish
  split at hfinish <;> cases hfinish
  next hphase =>
    rw [Bool.and_eq_true, decide_eq_true_eq] at hphase
    exact ⟨g, hg, hphase.1, hphase.2, rfl⟩

theorem generations_panic (hstep : AppMonitor.step sort m (.panic i) = some m') :
    ∃ g, m.generations[i]? = some g ∧ g.phase.Sends = true := by
  obtain ⟨g, hg, hpanic⟩ := Option.bind_eq_some_iff.mp hstep
  unfold AppMonitor.panic at hpanic
  split at hpanic <;> cases hpanic
  next hsends =>
    rw [Bool.and_eq_true] at hsends
    exact ⟨g, hg, hsends.1⟩

end

section

variable {sort : Reorder ResourceState} {s s' : State}

/-- The steps of the model without controllers that are no step of `runInformers`. -/
inductive RunStep : Action → AppMonitor.Action → Prop
  | shutdown : RunStep .shutdown .shutdown
  | stop : RunStep .stop .stop
  | closeAppStatus : RunStep .closeAppStatus .closeAppStatus
  | closeInformers : RunStep .closeInformers .closeInformers

/-- What a step can do. -/
inductive Next (sort : Reorder ResourceState) (s : State) : Action → State → Prop
  | apply (informers : List StatusInformer) (now : Int) (w : Workers) (monitor : AppMonitor) :
      AppMonitor.step sort s.monitor (.apply informers now) = some monitor →
      w.controllers = [] → w.closed = false →
      Next sort s (.apply informers now) { s with monitor, workers := s.workers ++ [w] }
  | run (a : Action) (b : AppMonitor.Action) (monitor : AppMonitor) :
      RunStep a b → AppMonitor.step sort s.monitor b = some monitor →
      Next sort s a { s with monitor }
  | deliver (i : Nat) (w : Workers) (monitor : AppMonitor) :
      s.workers[i]? = some w → AppMonitor.step sort s.monitor (.deliver i) = some monitor →
      Next sort s (.deliver i) { s.start i w with monitor }
  | receive (i j : Nat) (now : Int) (w : Workers) (c : Controller) (resourceState : ResourceState)
      (monitor : AppMonitor) :
      s.workers[i]? = some w → w.controllers[j]? = some c → c.phase = .sending resourceState →
      AppMonitor.step sort s.monitor (.event i resourceState now) = some monitor →
      Next sort s (.receive i j now) { s.setController i w j c .running with monitor }
  | finish (i : Nat) (monitor : AppMonitor) :
      AppMonitor.step sort s.monitor (.finish i) = some monitor →
      Next sort s (.finish i) { s with monitor }
  | wait (i : Nat) (w : Workers) (g : Informers) :
      s.workers[i]? = some w → s.monitor.generations[i]? = some g → g.phase = .done →
      (∀ c ∈ w.controllers, c.phase = .returned) →
      Next sort s (.wait i) { s with workers := s.workers.set i { w with closed := true } }
  | panic (i : Nat) (monitor : AppMonitor) :
      AppMonitor.step sort s.monitor (.panic i) = some monitor →
      Next sort s (.panic i) { s with monitor, crashed := true }
  | crash (i j : Nat) (n : Notification) (w : Workers) (c : Controller) :
      s.workers[i]? = some w → w.controllers[j]? = some c → c.sendsFor n = false →
      Next sort s (.notify i j n) { s with crashed := true }
  | ignore (i j : Nat) (n : Notification) (w : Workers) (c : Controller) :
      s.workers[i]? = some w → w.controllers[j]? = some c → c.sendsFor n = false →
      Next sort s (.notify i j n) s
  | notify (i j : Nat) (n : Notification) (w : Workers) (c : Controller)
      (resourceState : ResourceState) :
      s.workers[i]? = some w → w.controllers[j]? = some c → c.phase = .running →
      c.sendsFor n = true →
      Next sort s (.notify i j n) (s.setController i w j c (.sending resourceState))
  | done (i j : Nat) (w : Workers) (c : Controller) (g : Informers) :
      s.workers[i]? = some w → w.controllers[j]? = some c →
      s.monitor.generations[i]? = some g → c.phase = .running → g.cancelled = true →
      Next sort s (.done i j) (s.setController i w j c .returned)

theorem lift_eq_some {a : AppMonitor.Action} {rest : AppMonitor → State}
    (h : s.lift sort a rest = some s') :
    ∃ monitor, AppMonitor.step sort s.monitor a = some monitor ∧ rest monitor = s' :=
  Option.map_eq_some_iff.mp h

theorem next_of_step {a : Action} (hstep : (machine sort).step s a = some s') :
    s.crashed = false ∧ Next sort s a s' := by
  change step sort s a = some s' at hstep
  unfold step at hstep
  split at hstep
  next => cases hstep
  next hcrashed =>
    refine ⟨Bool.eq_false_iff.mpr hcrashed, ?_⟩
    cases a with
    | apply informers now =>
      obtain ⟨monitor, hmonitor, rfl⟩ := lift_eq_some hstep
      exact .apply informers now _ monitor hmonitor rfl rfl
    | shutdown =>
      obtain ⟨monitor, hmonitor, rfl⟩ := lift_eq_some hstep
      exact .run _ _ monitor .shutdown hmonitor
    | stop =>
      obtain ⟨monitor, hmonitor, rfl⟩ := lift_eq_some hstep
      exact .run _ _ monitor .stop hmonitor
    | closeAppStatus =>
      obtain ⟨monitor, hmonitor, rfl⟩ := lift_eq_some hstep
      exact .run _ _ monitor .closeAppStatus hmonitor
    | closeInformers =>
      obtain ⟨monitor, hmonitor, rfl⟩ := lift_eq_some hstep
      exact .run _ _ monitor .closeInformers hmonitor
    | deliver i =>
      obtain ⟨w, hw, hdeliver⟩ := Option.bind_eq_some_iff.mp hstep
      obtain ⟨monitor, hmonitor, rfl⟩ := lift_eq_some hdeliver
      exact .deliver i w monitor hw hmonitor
    | receive i j now =>
      obtain ⟨w, hw, hreceive⟩ := Option.bind_eq_some_iff.mp hstep
      obtain ⟨c, hc, hrest⟩ := Option.bind_eq_some_iff.mp hreceive
      split at hrest
      next resourceState hphase =>
        obtain ⟨monitor, hmonitor, rfl⟩ := lift_eq_some hrest
        exact .receive i j now w c resourceState monitor hw hc hphase hmonitor
      next => cases hrest
      next => cases hrest
    | finish i =>
      obtain ⟨monitor, hmonitor, rfl⟩ := lift_eq_some hstep
      exact .finish i monitor hmonitor
    | wait i =>
      obtain ⟨w, hw, hwait⟩ := Option.bind_eq_some_iff.mp hstep
      obtain ⟨g, hg, hrest⟩ := Option.bind_eq_some_iff.mp hwait
      split at hrest <;> cases hrest
      next hall => exact .wait i w g hw hg hall.1 hall.2.2
    | panic i =>
      obtain ⟨monitor, hmonitor, rfl⟩ := lift_eq_some hstep
      exact .panic i monitor hmonitor
    | notify i j n =>
      obtain ⟨w, hw, hnotify⟩ := Option.bind_eq_some_iff.mp hstep
      obtain ⟨c, hc, hrest⟩ := Option.bind_eq_some_iff.mp hnotify
      split at hrest
      next hphase =>
        split at hrest <;> cases hrest
        next hhandle => exact .crash i j n w c hw hc (by rw [Controller.sendsFor, hhandle])
        next hhandle => exact .ignore i j n w c hw hc (by rw [Controller.sendsFor, hhandle])
        next hhandle =>
          exact .notify i j n w c _ hw hc hphase (by rw [Controller.sendsFor, hhandle])
      next => cases hrest
    | done i j =>
      obtain ⟨w, hw, hdone⟩ := Option.bind_eq_some_iff.mp hstep
      obtain ⟨c, hc, hcontroller⟩ := Option.bind_eq_some_iff.mp hdone
      obtain ⟨g, hg, hrest⟩ := Option.bind_eq_some_iff.mp hcontroller
      split at hrest <;> cases hrest
      next hrun => exact .done i j w c g hw hc hg hrun.1 hrun.2

/-- **Refinement.**  Every step is one of the model without controllers, or does not show there. -/
theorem monitor_step {a : Action} (hstep : (machine sort).step s a = some s') :
    s'.monitor = s.monitor ∨ ∃ b, AppMonitor.step sort s.monitor b = some s'.monitor := by
  cases (next_of_step hstep).2 with
  | apply _ _ _ _ hmonitor => exact .inr ⟨_, hmonitor⟩
  | run _ _ _ _ hmonitor => exact .inr ⟨_, hmonitor⟩
  | deliver _ _ _ _ hmonitor => exact .inr ⟨_, hmonitor⟩
  | receive _ _ _ _ _ _ _ _ _ _ hmonitor => exact .inr ⟨_, hmonitor⟩
  | finish _ _ hmonitor => exact .inr ⟨_, hmonitor⟩
  | panic _ _ hmonitor => exact .inr ⟨_, hmonitor⟩
  | wait | crash | ignore | notify | done => exact .inl rfl

theorem monitor_reachable (h : (machine sort).Reachable Init Machine.Free s) :
    (AppMonitor.machine sort).Reachable AppMonitor.Init Machine.Free s.monitor := by
  induction h with
  | init hs => exact .init hs.1
  | step _ _ hstep ih =>
    rcases monitor_step hstep with hsame | ⟨b, hb⟩
    · rwa [hsame]
    · exact ih.step trivial hb

/-! ## The invariant -/

/-- What goroutine `g` and its controllers have in common: no controllers before the first send, and
no send after the loop. -/
structure Fits (g : Informers) (w : Workers) : Prop where
  resetting : g.phase = .resetting → w.controllers = []
  done : g.phase = .done → g.cancelled = true ∧ ∀ c ∈ w.controllers, c.phase.Sends = false
  closed : w.closed = true → g.phase = .done ∧ ∀ c ∈ w.controllers, c.phase = .returned

structure Inv (s : State) : Prop where
  length : s.workers.length = s.monitor.generations.length
  fits : ∀ (i : Nat) (g : Informers) (w : Workers), s.monitor.generations[i]? = some g →
    s.workers[i]? = some w → Fits g w

theorem Fits.later {g g' : Informers} {w : Workers} (h : Fits g w) (hlater : Later g g') :
    Fits g' w where
  resetting hphase := h.resetting (hlater.1 ▸ hphase)
  done hphase :=
    have hdone := h.done (hlater.1 ▸ hphase)
    ⟨hlater.2 hdone.1, hdone.2⟩
  closed hclosed := ⟨hlater.1.trans (h.closed hclosed).1, (h.closed hclosed).2⟩

/-- The generations are where they were. -/
theorem Inv.later (h : Inv s) {s' : State} (hworkers : s'.workers = s.workers)
    (hlength : s'.monitor.generations.length = s.monitor.generations.length)
    (hlater : ∀ (j : Nat) (g' : Informers), s'.monitor.generations[j]? = some g' →
      ∃ g, s.monitor.generations[j]? = some g ∧ Later g g') : Inv s' where
  length := by rw [hworkers, h.length, hlength]
  fits := by
    intro j g' w hg' hw
    obtain ⟨g, hg, hsame⟩ := hlater j g' hg'
    rw [hworkers] at hw
    exact (h.fits j g w hg hw).later hsame

/-- Generation `i` goes on. -/
theorem Inv.setAt (h : Inv s) {s' : State} {i : Nat} {g' : Informers} {w' : Workers}
    (hgenerations : s'.monitor.generations = s.monitor.generations.set i g')
    (hworkers : s'.workers = s.workers.set i w') (hfits : Fits g' w') : Inv s' where
  length := by rw [hgenerations, hworkers, List.length_set, List.length_set, h.length]
  fits := by
    intro j g w hg hw
    rw [hgenerations] at hg
    rw [hworkers] at hw
    rcases Processes.getElem?_set_cases hg with ⟨rfl, rfl⟩ | ⟨hne, hg⟩
    · rcases Processes.getElem?_set_cases hw with ⟨-, rfl⟩ | ⟨hne, -⟩
      · exact hfits
      · exact absurd rfl hne
    · rcases Processes.getElem?_set_cases hw with ⟨heq, -⟩ | ⟨-, hw⟩
      · exact absurd heq hne
      · exact h.fits j g w hg hw

end

section

variable {sort : Reorder ResourceState} {s s' : State}

theorem set_eq_self {α : Type} {l : List α} {i : Nat} {a : α} (h : l[i]? = some a) :
    l.set i a = l := by
  obtain ⟨hi, rfl⟩ := List.getElem?_eq_some_iff.mp h
  exact List.set_getElem_self hi

/-- In its loop, a goroutine has controllers that may be anywhere. -/
theorem fits_looping {g : Informers} {w : Workers} (hphase : g.phase = .selecting ∨
    g.phase = .updating) (hclosed : w.closed = false) : Fits g w where
  resetting h := by rcases hphase with hphase | hphase <;> rw [hphase] at h <;> cases h
  done h := by rcases hphase with hphase | hphase <;> rw [hphase] at h <;> cases h
  closed h := by rw [hclosed] at h; cases h

theorem Fits.open {g : Informers} {w : Workers} (h : Fits g w) (hphase : g.phase ≠ .done) :
    w.closed = false :=
  Bool.eq_false_iff.mpr fun hclosed => hphase (h.closed hclosed).1

/-- A controller that has not returned goes on. -/
theorem Fits.setController {g : Informers} {w : Workers} {j : Nat} {c : Controller}
    (h : Fits g w) (hc : w.controllers[j]? = some c) (hrunning : c.phase ≠ .returned)
    (phase : ControllerPhase) (hsends : g.phase = .done → phase.Sends = false) :
    Fits g { w with controllers := w.controllers.set j { c with phase } } where
  resetting hphase := by
    rw [h.resetting hphase] at hc
    cases hc
  done hphase := by
    refine ⟨(h.done hphase).1, ?_⟩
    intro d hd
    rcases List.mem_or_eq_of_mem_set hd with hold | rfl
    · exact (h.done hphase).2 d hold
    · exact hsends hphase
  closed hclosed := absurd ((h.closed hclosed).2 c (List.mem_of_getElem? hc)) hrunning

theorem start_workers {i : Nat} {w : Workers} (hw : s.workers[i]? = some w) :
    (s.start i w).crashed = s.crashed ∧
      ∃ controllers, (s.start i w).workers = s.workers.set i { w with controllers } := by
  unfold State.start
  split
  next => exact ⟨rfl, _, rfl⟩
  next => exact ⟨rfl, w.controllers, (set_eq_self hw).symm⟩

theorem inv_init (hs : Init s) : Inv s := by
  obtain ⟨hmonitor, hworkers, -⟩ := hs
  refine ⟨?_, ?_⟩
  · rw [hmonitor, hworkers]
    rfl
  · intro i g w _ hw
    rw [hworkers] at hw
    cases hw

theorem inv_step {a : Action} (h : Inv s) (hguard : Guard s a)
    (hstep : (machine sort).step s a = some s') (hcrashed : s'.crashed = false) : Inv s' := by
  cases (next_of_step hstep).2 with
  | apply informers now w monitor hmonitor hcontrollers hclosed =>
    obtain ⟨hlength, hgenerations⟩ := generations_apply hmonitor
    refine ⟨?_, ?_⟩
    · rw [List.length_append, h.length, hlength]
      rfl
    · intro j g' w' hg' hw'
      rcases Processes.getElem?_concat_cases hw' with ⟨hj, rfl⟩ | ⟨hj, hold⟩
      · rcases hgenerations j g' hg' with ⟨-, hphase⟩ | ⟨g, hg, -⟩
        · refine ⟨fun _ => hcontrollers, fun hdone => ?_, fun htrue => ?_⟩
          · rw [hphase] at hdone
            cases hdone
          · rw [hclosed] at htrue
            cases htrue
        · have hlt := (List.getElem?_eq_some_iff.mp hg).1
          rw [h.length] at hj
          omega
      · rcases hgenerations j g' hg' with ⟨hlast, -⟩ | ⟨g, hg, hlater⟩
        · rw [h.length] at hj
          exact absurd hlast hj
        · exact (h.fits j g w' hg hold).later hlater
  | run a b monitor hrun hmonitor =>
    cases hrun with
    | shutdown =>
      obtain ⟨hlength, hlater⟩ := generations_shutdown hmonitor
      exact h.later rfl hlength hlater
    | stop | closeAppStatus | closeInformers =>
      simp only [AppMonitor.step] at hmonitor
      split at hmonitor <;> cases hmonitor
      exact h.later rfl rfl fun j g' hg' => ⟨g', hg', rfl, id⟩
  | deliver i w monitor hw hmonitor =>
    obtain ⟨g, hg, hsends, hgenerations⟩ := generations_deliver hmonitor
    obtain ⟨-, controllers, hworkers⟩ := start_workers hw
    have hphase : g.phase ≠ .done := by
      intro hdone
      rw [hdone] at hsends
      cases hsends
    exact h.setAt hgenerations hworkers (fits_looping (.inl rfl) ((h.fits i g w hg hw).open hphase))
  | receive i j now w c resourceState monitor hw hc hphase hmonitor =>
    obtain ⟨g, appStatus, hg, hselecting, hgenerations⟩ := generations_event hmonitor
    have hdone : g.phase ≠ .done := by
      rw [hselecting]
      decide
    exact h.setAt hgenerations rfl (fits_looping (.inr rfl) ((h.fits i g w hg hw).open hdone))
  | finish i monitor hmonitor =>
    obtain ⟨g, hg, hselecting, hcancelled, hgenerations⟩ := generations_finish hmonitor
    have hi : i < s.workers.length := h.length ▸ (List.getElem?_eq_some_iff.mp hg).1
    have hw : s.workers[i]? = some s.workers[i] := List.getElem?_eq_getElem hi
    have hdone : g.phase ≠ .done := by
      rw [hselecting]
      decide
    refine h.setAt hgenerations (set_eq_self hw).symm ⟨?_, fun _ => ⟨hcancelled, ?_⟩, ?_⟩
    · intro hlooping
      cases hlooping
    · exact hguard _ hw
    · intro hclosed
      rw [(h.fits i g _ hg hw).open hdone] at hclosed
      cases hclosed
  | wait i w g hw hg hdone hreturned =>
    have hfits := h.fits i g w hg hw
    refine h.setAt (set_eq_self hg).symm rfl ?_
    exact ⟨hfits.resetting, hfits.done, fun _ => ⟨hdone, hreturned⟩⟩
  | panic | crash => cases hcrashed
  | ignore => exact h
  | notify i j n w c resourceState hw hc hrunning hsends =>
    have hi : i < s.monitor.generations.length := h.length ▸ (List.getElem?_eq_some_iff.mp hw).1
    have hg := List.getElem?_eq_getElem hi
    refine h.setAt (set_eq_self hg).symm rfl ((h.fits i _ w hg hw).setController hc ?_ _ ?_)
    · rw [hrunning]
      decide
    · intro hdone
      rw [hguard _ w c hg hdone hw hc] at hsends
      cases hsends
  | done i j w c g hw hc hg hrunning hcancelled =>
    refine h.setAt (set_eq_self hg).symm rfl ((h.fits i g w hg hw).setController hc ?_ _ ?_)
    · rw [hrunning]
      decide
    · exact fun _ => rfl

end

/-! ## A generation goes on -/

section

variable (sort : Reorder ResourceState) {s : State} {i j : Nat} {g : Informers} {w : Workers}
  {c : Controller} (hcrashed : s.crashed = false) (hg : s.monitor.generations[i]? = some g)
  (hw : s.workers[i]? = some w)

include hcrashed hg

theorem step_finish (hselecting : g.phase = .selecting) (hcancelled : g.cancelled = true) :
    ∃ s', (machine sort).step s (.finish i) = some s' := by
  have hmonitor : AppMonitor.step sort s.monitor (.finish i) = some (s.monitor.put i g .done) := by
    change (s.monitor.generations[i]?).bind _ = _
    rw [hg]
    exact if_pos (by simp [hselecting, hcancelled])
  refine ⟨{ s with monitor := s.monitor.put i g .done }, ?_⟩
  simp [machine, step, State.lift, hcrashed, hmonitor]

theorem step_panic (hsends : g.phase.Sends = true) (hclosed : s.monitor.appStatusClosed = true) :
    ∃ s', (machine sort).step s (.panic i) = some s' ∧ s'.crashed = true := by
  have hmonitor : AppMonitor.step sort s.monitor (.panic i) =
      some { s.monitor.put i g .done with panicked := true } := by
    change (s.monitor.generations[i]?).bind _ = _
    rw [hg]
    exact if_pos (by simp [hsends, hclosed])
  refine ⟨{ s with monitor := { s.monitor.put i g .done with panicked := true }, crashed := true },
    ?_, rfl⟩
  simp [machine, step, State.lift, hcrashed, hmonitor]

include hw

theorem step_deliver (hsends : g.phase.Sends = true)
    (hopen : s.monitor.appStatusClosed = false) :
    ∃ monitor, (machine sort).step s (.deliver i) = some { s.start i w with monitor } ∧
      monitor.generations = s.monitor.generations.set i { g with phase := .selecting } := by
  obtain ⟨monitor, hmonitor, hgenerations⟩ : ∃ monitor,
      AppMonitor.step sort s.monitor (.deliver i) = some monitor ∧
        monitor.generations = s.monitor.generations.set i { g with phase := .selecting } := by
    refine ⟨{ s.monitor.put i g .selecting with
      delivered := ⟨i, g.phase = .resetting, g.appStatus⟩ :: s.monitor.delivered }, ?_, rfl⟩
    change (s.monitor.generations[i]?).bind _ = _
    rw [hg]
    exact if_pos (by simp [hsends, hopen])
  refine ⟨monitor, ?_, hgenerations⟩
  simp [machine, step, State.lift, hcrashed, hw, hmonitor]

theorem step_receive {resourceState : ResourceState} (hc : w.controllers[j]? = some c)
    (hphase : c.phase = .sending resourceState) (hselecting : g.phase = .selecting) :
    ∃ monitor, (machine sort).step s (.receive i j 0) =
      some { s.setController i w j c .running with monitor } := by
  obtain ⟨monitor, hmonitor⟩ : ∃ monitor,
      AppMonitor.step sort s.monitor (.event i resourceState 0) = some monitor := by
    refine ⟨s.monitor.put i
      { g with appStatus := g.appStatus.receive sort resourceState 0 } .updating, ?_⟩
    change (s.monitor.generations[i]?).bind _ = _
    rw [hg]
    exact if_pos hselecting
  refine ⟨monitor, ?_⟩
  simp [machine, step, State.receive, State.lift, hcrashed, hw, hc, hphase, hmonitor]

theorem step_wait (hdone : g.phase = .done) (hopen : w.closed = false)
    (hreturned : ∀ c ∈ w.controllers, c.phase = .returned) :
    ∃ s', (machine sort).step s (.wait i) = some s' := by
  have hwait : s.wait i w =
      some { s with workers := s.workers.set i { w with closed := true } } := by
    unfold State.wait
    rw [hg]
    exact if_pos ⟨hdone, hopen, hreturned⟩
  exact ⟨_, by simp [machine, step, hcrashed, hw, hwait]; rfl⟩

theorem step_done (hc : w.controllers[j]? = some c) (hrunning : c.phase = .running)
    (hcancelled : g.cancelled = true) : ∃ s', (machine sort).step s (.done i j) = some s' := by
  have hdone : s.done i w j = some (s.setController i w j c .returned) := by
    unfold State.done
    rw [hc, hg]
    exact if_pos ⟨hrunning, hcancelled⟩
  exact ⟨_, by simp [machine, step, hcrashed, hw, hdone]; rfl⟩

/-- Some goroutine of the generation has a step. -/
theorem progress (hfits : Fits g w) (hcancelled : g.cancelled = true) :
    Returned w ∨ ∃ a s', Own i a ∧ (machine sort).step s a = some s' := by
  have hsend : g.phase.Sends = true → ∃ a s', Own i a ∧ (machine sort).step s a = some s' := by
    intro hsends
    cases hopen : s.monitor.appStatusClosed with
    | false =>
      obtain ⟨monitor, hstep, -⟩ := step_deliver sort hcrashed hg hw hsends hopen
      exact ⟨.deliver i, _, rfl, hstep⟩
    | true =>
      obtain ⟨s', hstep, -⟩ := step_panic sort hcrashed hg hsends hopen
      exact ⟨.panic i, s', rfl, hstep⟩
  cases hphase : g.phase with
  | resetting => exact .inr (hsend (by rw [hphase]; rfl))
  | updating => exact .inr (hsend (by rw [hphase]; rfl))
  | selecting =>
    obtain ⟨s', hstep⟩ := step_finish sort hcrashed hg hphase hcancelled
    exact .inr ⟨.finish i, s', rfl, hstep⟩
  | done =>
    by_cases hreturned : ∀ c ∈ w.controllers, c.phase = .returned
    · cases hopen : w.closed with
      | true => exact .inl ⟨hopen, hreturned⟩
      | false =>
        obtain ⟨s', hstep⟩ := step_wait sort hcrashed hg hw hphase hopen hreturned
        exact .inr ⟨.wait i, s', rfl, hstep⟩
    · -- a controller that has not returned is not in a send, and so its `Run` can return
      push Not at hreturned
      obtain ⟨c, hmem, hnot⟩ := hreturned
      obtain ⟨j, hc⟩ := List.mem_iff_getElem?.mp hmem
      have hsends := (hfits.done hphase).2 c hmem
      have hrunning : c.phase = .running := by
        cases hcontroller : c.phase with
        | running => rfl
        | sending =>
          rw [hcontroller] at hsends
          cases hsends
        | returned => exact absurd hcontroller hnot
      obtain ⟨s', hstep⟩ := step_done sort hcrashed hg hw hc hrunning hcancelled
      exact .inr ⟨.done i j, s', rfl, hstep⟩

/-- A send that the loop has come to is received. -/
theorem received (hselecting : g.phase = .selecting) (hsends : Sends s i j) :
    ∃ s', (machine sort).step s (.receive i j 0) = some s' ∧ ¬ Sends s' i j := by
  obtain ⟨-, w', c, hw', hc, hphase⟩ := hsends
  cases hw.symm.trans hw'
  cases hsending : c.phase with
  | running | returned =>
    rw [hsending] at hphase
    cases hphase
  | sending resourceState =>
    obtain ⟨monitor, hstep⟩ := step_receive sort hcrashed hg hw hc hsending hselecting
    refine ⟨_, hstep, ?_⟩
    rintro ⟨-, w₁, c₁, hw₁, hc₁, hagain⟩
    rcases Processes.getElem?_set_cases hw₁ with ⟨-, rfl⟩ | ⟨hne, -⟩
    · rcases Processes.getElem?_set_cases hc₁ with ⟨-, rfl⟩ | ⟨hne, -⟩
      · cases hagain
      · exact hne rfl
    · exact hne rfl

/-- No send is stuck while `runInformers` has not left its loop. -/
theorem not_stuckForever (hfits : Fits g w) : ¬ StuckForever sort s i j := by
  intro hstuck
  have hsends : Sends s i j := hstuck [] (List.forall_mem_nil _) s rfl
  obtain ⟨-, w', c, hw', hc, hphase⟩ := id hsends
  cases hw.symm.trans hw'
  have hmem : c ∈ w.controllers := List.mem_of_getElem? hc
  cases hloop : g.phase with
  | resetting =>
    rw [hfits.resetting hloop] at hmem
    cases hmem
  | done =>
    rw [(hfits.done hloop).2 c hmem] at hphase
    cases hphase
  | selecting =>
    obtain ⟨s', hstep, hnot⟩ := received sort hcrashed hg hw hloop hsends
    refine hnot (hstuck [.receive i j 0] ?_ s' ?_)
    · intro a ha
      rw [List.mem_singleton.mp ha]
      rfl
    · rw [Machine.run_cons, hstep]
      rfl
  | updating =>
    have hsend : g.phase.Sends = true := by rw [hloop]; rfl
    cases hopen : s.monitor.appStatusClosed with
    | true =>
      -- the send on the closed channel ends the process
      obtain ⟨s', hstep, hend⟩ := step_panic sort hcrashed hg hsend hopen
      have hagain : Sends s' i j := by
        refine hstuck [.panic i] ?_ s' ?_
        · intro a ha
          rw [List.mem_singleton.mp ha]
          rfl
        · rw [Machine.run_cons, hstep]
          rfl
      rw [hagain.1] at hend
      cases hend
    | false =>
      obtain ⟨monitor, hstep, hgenerations⟩ := step_deliver sort hcrashed hg hw hsend hopen
      have hstart : s.start i w = s := by
        unfold State.start
        rw [hg]
        simp [hloop]
      rw [hstart] at hstep
      have hi := (List.getElem?_eq_some_iff.mp hg).1
      have hg' : monitor.generations[i]? = some { g with phase := .selecting } := by
        rw [hgenerations, List.getElem?_set_self hi]
      have hthere : Sends { s with monitor } i j := hsends
      obtain ⟨s', hnext, hnot⟩ := received sort (s := { s with monitor }) hcrashed hg' hw
        rfl hthere
      refine hnot (hstuck [.deliver i, .receive i j 0] ?_ s' ?_)
      · intro a ha
        rcases List.mem_cons.mp ha with rfl | ha
        · rfl
        · rw [List.mem_singleton.mp ha]
          rfl
      · rw [Machine.run_cons, hstep, Option.bind_some, Machine.run_cons, hnext]
        rfl

end

theorem inv_everyState (sort : Reorder ResourceState) :
    (machine sort).EveryState Init Guard fun s => s.crashed = false → Inv s := by
  refine Machine.everyState_of_inv (fun s hs _ => inv_init hs) ?_
  intro s a s' h hguard hstep hcrashed
  exact inv_step (h (next_of_step hstep).1) hguard hstep hcrashed

/-- **Replaced informers wind down**, in every run in which `runInformers` leaves its loop when no
handler is in its send, and no handler gets to one afterwards. -/
theorem windsDown_everyState (sort : Reorder ResourceState) :
    (machine sort).EveryState Init Guard (WindsDown sort) := by
  intro s hs hcrashed i g hg hcancelled
  have h := inv_everyState sort s hs hcrashed
  have hi : i < s.workers.length := h.length ▸ (List.getElem?_eq_some_iff.mp hg).1
  have hw := List.getElem?_eq_getElem hi
  have hfits := h.fits i g _ hg hw
  exact ⟨_, hw, progress sort hcrashed hg hw hfits hcancelled,
    fun j => not_stuckForever sort hcrashed hg hw hfits⟩

/-! ## A generation that is stuck -/

/-- `runInformers` has left its loop while controller `j` was in its send. -/
def Blocked (s : State) (i j : Nat) : Prop :=
  s.crashed = false ∧ ∃ g w c, s.monitor.generations[i]? = some g ∧ g.phase = .done ∧
    s.workers[i]? = some w ∧ w.controllers[j]? = some c ∧ c.phase.Sends = true

section

variable {sort : Reorder ResourceState} {s s' : State} {i j : Nat}

theorem blocked_step {a : Action} (h : Blocked s i j) (hown : Own i a)
    (hstep : (machine sort).step s a = some s') : Blocked s' i j := by
  obtain ⟨hcrashed, g, w, c, hg, hphase, hw, hc, hsends⟩ := h
  have hsend : g.phase.Sends = false := by rw [hphase]; rfl
  cases (next_of_step hstep).2 with
  | apply | crash | ignore | notify => cases hown
  | run a b monitor hrun => cases hrun <;> cases hown
  | deliver k w' monitor hw' hmonitor =>
    cases hown
    obtain ⟨g', hg', hsends', -⟩ := generations_deliver hmonitor
    cases hg.symm.trans hg'
    rw [hsend] at hsends'
    cases hsends'
  | receive k j' now w' c' resourceState monitor hw' hc' hsending hmonitor =>
    cases hown
    obtain ⟨g', appStatus, hg', hselecting, -⟩ := generations_event hmonitor
    cases hg.symm.trans hg'
    rw [hphase] at hselecting
    cases hselecting
  | finish k monitor hmonitor =>
    cases hown
    obtain ⟨g', hg', hselecting, -⟩ := generations_finish hmonitor
    cases hg.symm.trans hg'
    rw [hphase] at hselecting
    cases hselecting
  | panic k monitor hmonitor =>
    cases hown
    obtain ⟨g', hg', hsends'⟩ := generations_panic hmonitor
    cases hg.symm.trans hg'
    rw [hsend] at hsends'
    cases hsends'
  | wait k w' g' hw' hg' hdone hreturned =>
    -- it waits for the controller that is in its send
    cases hown
    cases hw.symm.trans hw'
    rw [hreturned c (List.mem_of_getElem? hc)] at hsends
    cases hsends
  | done k j' w' c' g' hw' hc' hg' hrunning hcancelled =>
    cases hown
    cases hw.symm.trans hw'
    have hne : j' ≠ j := by
      rintro rfl
      cases hc.symm.trans hc'
      rw [hrunning] at hsends
      cases hsends
    have hi := (List.getElem?_eq_some_iff.mp hw).1
    refine ⟨hcrashed, g, _, c, hg, hphase, List.getElem?_set_self hi, ?_, hsends⟩
    exact (List.getElem?_set_ne hne).trans hc

theorem stuckForever_of_blocked (h : Blocked s i j) : StuckForever sort s i j := by
  intro actions
  induction actions generalizing s with
  | nil =>
    intro _ s' hrun
    cases hrun
    obtain ⟨hcrashed, g, w, c, -, -, hw, hc, hsends⟩ := h
    exact ⟨hcrashed, w, c, hw, hc, hsends⟩
  | cons a actions ih =>
    intro hown s' hrun
    obtain ⟨t, hstep, hrest⟩ := Option.bind_eq_some_iff.mp hrun
    have ht := blocked_step h (hown a List.mem_cons_self) hstep
    exact ih ht (fun b hb => hown b (List.mem_cons_of_mem a hb)) s' hrest

theorem not_windsDown_of_blocked (h : Blocked s i j)
    (hcancelled : ∀ g, s.monitor.generations[i]? = some g → g.cancelled = true) :
    ¬ WindsDown sort s := by
  intro hwinds
  obtain ⟨hcrashed, g, -, -, hg, -⟩ := id h
  obtain ⟨w, -, -, hnot⟩ := hwinds hcrashed i g hg (hcancelled g hg)
  exact hnot j (stuckForever_of_blocked h)

/-- The condition is exact: the first step that does not meet it leaves a handler stuck. -/
theorem guard_of_windsDown {a : Action} (hs : (machine sort).Reachable Init Guard s)
    (hstep : (machine sort).step s a = some s') (hwinds : WindsDown sort s') : Guard s a := by
  by_contra hnot
  have hcrashed := (next_of_step hstep).1
  cases a with
  | finish i =>
    unfold Guard at hnot
    push Not at hnot
    obtain ⟨w, hw, c, hmem, hsends⟩ := hnot
    obtain ⟨j, hc⟩ := List.mem_iff_getElem?.mp hmem
    cases (next_of_step hstep).2 with
    | run a b monitor hrun => cases hrun
    | finish _ monitor hmonitor =>
      obtain ⟨g, hg, -, hcancelled, hgenerations⟩ := generations_finish hmonitor
      have hi := (List.getElem?_eq_some_iff.mp hg).1
      have hg' : monitor.generations[i]? = some { g with phase := .done } := by
        rw [hgenerations, List.getElem?_set_self hi]
      have hblocked : Blocked { s with monitor } i j :=
        ⟨hcrashed, _, w, c, hg', rfl, hw, hc, by simpa using hsends⟩
      refine not_windsDown_of_blocked hblocked (fun g' hg'' => ?_) hwinds
      cases hg'.symm.trans hg''
      exact hcancelled
  | notify i j n =>
    unfold Guard at hnot
    push Not at hnot
    obtain ⟨g, w, c, hg, hphase, hw, hc, hsends⟩ := hnot
    cases (next_of_step hstep).2 with
    | run a b monitor hrun => cases hrun
    | crash _ _ _ w' c' hw' hc' hsame | ignore _ _ _ w' c' hw' hc' hsame =>
      cases hw.symm.trans hw'
      cases hc.symm.trans hc'
      exact hsends hsame
    | notify _ _ _ w' c' resourceState hw' hc' hrunning hsends' =>
      have hi := (List.getElem?_eq_some_iff.mp hw').1
      have hj := (List.getElem?_eq_some_iff.mp hc').1
      have hblocked : Blocked (s.setController i w' j c' (.sending resourceState)) i j :=
        ⟨hcrashed, g, _, _, hg, hphase, List.getElem?_set_self hi, List.getElem?_set_self hj, rfl⟩
      refine not_windsDown_of_blocked hblocked (fun g' hg' => ?_) hwinds
      cases hg.symm.trans hg'
      have hfits := (inv_everyState sort s hs hcrashed).fits i g w hg hw
      exact (hfits.done hphase).1
  | _ => exact hnot trivial

end

/-! ## A blocked handler -/

def newState : State where
  monitor := AppMonitor.newMonitor

def readyDeployment : Notification where
  event := .add (.deployment
    { ns := "default", name := "web", replicas := some 1, readyReplicas := 1 })
  clientset := { endpoints _ _ := none, services _ _ := none }
  now := 1

/-- The informers are replaced while the handler of a deployment is in its send, and `runInformers`
takes `ctx.Done()`: it waits for a controller that waits for it. -/
theorem not_windsDown_replaced :
    ¬ ∃ sort, (machine sort).EveryState Init Machine.Free (WindsDown sort) := by
  rintro ⟨sort, hwinds⟩
  have hinit : Init newState := ⟨rfl, rfl, rfl⟩
  refine Machine.not_everyState (M := machine sort) hinit
    [.apply [AppMonitor.deploymentInformer "web"] 0, .deliver 0, .notify 0 0 readyDeployment,
      .apply [AppMonitor.deploymentInformer "api"] 2, .finish 0] rfl ?_ hwinds
  refine not_windsDown_of_blocked (i := 0) (j := 0) ⟨rfl, _, _, _, rfl, rfl, rfl, rfl, rfl⟩ ?_
  intro g hg
  cases hg
  rfl

end Kotsadm.AppState.WindDown
