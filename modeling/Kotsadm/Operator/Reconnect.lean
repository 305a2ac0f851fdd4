import Kotsadm.Operator.Requests

/-!
# Reconnect — the monitors of the connections

`Client.connect` dials, stores a new monitor in the client, starts `runAppStateMonitor` and waits.
When the connection is lost it shuts the monitor down and returns, and `Run` connects again.  The
field of the client keeps the monitor that was shut down until there is a new one, and the socket
delivers messages from `Dial` on.
-/

namespace Kotsadm.Reconnect

open Requests (InformRequest)

/-! ## The client and its goroutines -/

/-- Where `connect` is. -/
inductive ConnectPhase where
  | idle
  -- inLoop is running
  | dialed
  -- the monitor is in the client
  | stored (monitor : Nat)
  -- runAppStateMonitor has been started
  | waiting (monitor : Nat)
  -- the socket is still open
  | closing
  deriving DecidableEq, Repr

/-- The monitor of the connection. -/
def ConnectPhase.monitor : ConnectPhase → Option Nat
  | .stored monitor | .waiting monitor => some monitor
  | .idle | .dialed | .closing => none

structure MonitorState where
  -- the number of the connection it was made for
  connection : Nat
  -- Shutdown has been called
  cancelled : Bool := false
  -- Monitor.run has seen that, and has returned
  stopped : Bool := false
  deriving DecidableEq, Repr

/-- Where the handler of an `appInformers` message is. -/
inductive RequestPhase where
  | received
  -- in Monitor.Apply, with the monitor that the client held
  | sending (monitor : Option Nat)
  -- Monitor.run has received the informers; `late` when the monitor was shut down by then
  | applied (monitor : Nat) (late : Bool)
  -- an informer does not parse
  | failed
  deriving DecidableEq, Repr

def RequestPhase.isDone : RequestPhase → Bool
  | .applied _ _ | .failed => true
  | .received | .sending _ => false

structure Request where
  connection : Nat
  args : InformRequest
  phase : RequestPhase := .received
  deriving DecidableEq, Repr

structure Client where
  -- the connections dialed so far, which is the number of the last one
  connections : Nat := 0
  phase : ConnectPhase := .idle
  monitors : List MonitorState := []
  appStateMonitor : Option Nat := none
  -- for each runAppStateMonitor, the monitor whose channel it ranges over once it has begun
  consumers : List (Option Nat) := []
  requests : List Request := []
  -- a nil monitor was used
  panicked : Bool := false
  deriving DecidableEq, Repr

inductive Action where
  | dial
  -- there is no config of the cluster
  | fail
  | newMonitor
  | runAppStateMonitor
  -- the goroutine of runAppStateMonitor begins
  | appStatusChan (i : Nat)
  | shutdown
  | close
  | receive (args : InformRequest)
  -- the handler parses the informers and takes the monitor from the client
  | read (i : Nat)
  | apply (i : Nat)
  -- Monitor.run selects `ctx.Done()`
  | done (monitor : Nat)

def Client.setRequest (c : Client) (i : Nat) (r : Request) (phase : RequestPhase) : Client :=
  { c with requests := c.requests.set i { r with phase } }

def stepOf (c : Client) : Action → Option Client
  | .dial =>
    match c.phase with
    | .idle => some { c with phase := .dialed, connections := c.connections + 1 }
    | _ => none
  | .fail =>
    match c.phase with
    | .dialed => some { c with phase := .closing }
    | _ => none
  | .newMonitor =>
    match c.phase with
    | .dialed => some { c with
        monitors := c.monitors ++ [{ connection := c.connections }]
        appStateMonitor := some c.monitors.length
        phase := .stored c.monitors.length }
    | _ => none
  | .runAppStateMonitor =>
    match c.phase with
    | .stored monitor => some { c with
        consumers := c.consumers ++ [none]
        phase := .waiting monitor }
    | _ => none
  | .appStatusChan i =>
    match c.consumers[i]? with
    | some none =>
      match c.appStateMonitor with
      | none => some { c with panicked := true }
      | some monitor => some { c with consumers := c.consumers.set i (some monitor) }
    | _ => none
  | .shutdown =>
    match c.phase with
    | .waiting monitor => some { c with
        monitors := c.monitors.modify monitor fun state => { state with cancelled := true }
        phase := .closing }
    | _ => none
  | .close =>
    match c.phase with
    | .closing => some { c with phase := .idle }
    | _ => none
  | .receive args =>
    match c.phase with
    | .idle => none
    | _ => some { c with requests := c.requests ++ [{ connection := c.connections, args }] }
  | .read i => do
    let r ← c.requests[i]?
    match r.phase with
    | .received =>
      if r.args.parsed = none then some (c.setRequest i r .failed)
      else some (c.setRequest i r (.sending c.appStateMonitor))
    | _ => none
  | .apply i => do
    let r ← c.requests[i]?
    match r.phase with
    | .sending none => some { c with panicked := true }
    | .sending (some monitor) =>
      let state ← c.monitors[monitor]?
      -- nobody receives from the channel any more
      if state.stopped then none
      else some (c.setRequest i r (.applied monitor state.cancelled))
    | _ => none
  | .done monitor => do
    let state ← c.monitors[monitor]?
    if state.cancelled then
      some { c with
        monitors := c.monitors.modify monitor fun state => { state with stopped := true } }
    else none

/-- A panic ends the process. -/
def step (c : Client) (a : Action) : Option Client :=
  if c.panicked then none else stepOf c a

def machine : Machine Client Action := ⟨step⟩

def Init (c : Client) : Prop := c = {}

/-! ## What is asked -/

/-- A `runAppStateMonitor` ranges over the channel of the monitor, or will when it begins. -/
def Consumed (c : Client) (monitor : Nat) : Prop :=
  some monitor ∈ c.consumers ∨
    c.appStateMonitor = some monitor ∧ (none ∈ c.consumers ∨ c.phase = .stored monitor)

/-- The monitor was made for the connection. -/
def MadeFor (monitors : List MonitorState) (monitor connection : Nat) : Prop :=
  ∃ state, monitors[monitor]? = some state ∧ state.connection = connection

/-- Every request is applied to the monitor of its connection. -/
structure Survives (c : Client) : Prop where
  running : c.panicked = false
  applied : ∀ r ∈ c.requests, ∀ monitor late, r.phase = .applied monitor late →
    late = false ∧ MadeFor c.monitors monitor r.connection ∧ Consumed c monitor
  sending : ∀ r ∈ c.requests, ∀ monitor, r.phase = .sending monitor →
    ∃ m, monitor = some m ∧ MadeFor c.monitors m r.connection
  -- no handler waits for a monitor that has stopped
  enabled : ∀ (i : Nat) (r : Request), c.requests[i]? = some r → r.phase.isDone = false →
    (step c (.read i)).isSome ∨ (step c (.apply i)).isSome

/-- A request arrives when the monitor of its connection is in the client, the monitor is shut down
when no request is left, and there is a new one when each `runAppStateMonitor` has begun. -/
def Guard (c : Client) : Action → Prop
  | .receive args => c.phase.monitor ≠ none ∨ args.parsed = none
  | .shutdown => ∀ r ∈ c.requests, r.phase.isDone ∨ r.args.parsed = none
  | .newMonitor => none ∉ c.consumers
  | _ => True

instance (c : Client) (a : Action) : Decidable (Guard c a) :=
  match a with
  | .receive args => inferInstanceAs (Decidable (c.phase.monitor ≠ none ∨ args.parsed = none))
  | .shutdown =>
    inferInstanceAs (Decidable (∀ r ∈ c.requests, r.phase.isDone ∨ r.args.parsed = none))
  | .newMonitor => inferInstanceAs (Decidable (none ∉ c.consumers))
  | .dial | .fail | .runAppStateMonitor | .appStatusChan _ | .close | .read _ | .apply _
  | .done _ => .isTrue trivial

theorem step_running {c : Client} (h : c.panicked = false) (a : Action) :
    step c a = stepOf c a := by
  unfold step
  rw [h]
  rfl

/-- What a step does. -/
inductive Next (c : Client) : Action → Client → Prop
  | dial (hphase : c.phase = .idle) :
    Next c .dial { c with phase := .dialed, connections := c.connections + 1 }
  | fail (hphase : c.phase = .dialed) : Next c .fail { c with phase := .closing }
  | newMonitor (hphase : c.phase = .dialed) : Next c .newMonitor { c with
      monitors := c.monitors ++ [{ connection := c.connections }]
      appStateMonitor := some c.monitors.length
      phase := .stored c.monitors.length }
  | runAppStateMonitor {monitor : Nat} (hphase : c.phase = .stored monitor) :
    Next c .runAppStateMonitor { c with
      consumers := c.consumers ++ [none]
      phase := .waiting monitor }
  | noMonitor {i : Nat} (hi : c.consumers[i]? = some none) (hnone : c.appStateMonitor = none) :
    Next c (.appStatusChan i) { c with panicked := true }
  | appStatusChan {i monitor : Nat} (hi : c.consumers[i]? = some none)
      (hmonitor : c.appStateMonitor = some monitor) :
    Next c (.appStatusChan i) { c with consumers := c.consumers.set i (some monitor) }
  | shutdown {monitor : Nat} (hphase : c.phase = .waiting monitor) : Next c .shutdown { c with
      monitors := c.monitors.modify monitor fun state => { state with cancelled := true }
      phase := .closing }
  | close (hphase : c.phase = .closing) : Next c .close { c with phase := .idle }
  | receive {args : InformRequest} (hphase : c.phase ≠ .idle) : Next c (.receive args) { c with
      requests := c.requests ++ [{ connection := c.connections, args }] }
  | notParsed {i : Nat} {r : Request} (hi : c.requests[i]? = some r) (hphase : r.phase = .received)
      (hparsed : r.args.parsed = none) : Next c (.read i) (c.setRequest i r .failed)
  | read {i : Nat} {r : Request} (hi : c.requests[i]? = some r) (hphase : r.phase = .received)
      (hparsed : r.args.parsed ≠ none) :
    Next c (.read i) (c.setRequest i r (.sending c.appStateMonitor))
  | nilMonitor {i : Nat} {r : Request} (hi : c.requests[i]? = some r)
      (hphase : r.phase = .sending none) : Next c (.apply i) { c with panicked := true }
  | apply {i monitor : Nat} {r : Request} {state : MonitorState} (hi : c.requests[i]? = some r)
      (hphase : r.phase = .sending (some monitor)) (hstate : c.monitors[monitor]? = some state)
      (hstopped : state.stopped = false) :
    Next c (.apply i) (c.setRequest i r (.applied monitor state.cancelled))
  | done {monitor : Nat} {state : MonitorState} (hstate : c.monitors[monitor]? = some state)
      (hcancelled : state.cancelled = true) : Next c (.done monitor) { c with
      monitors := c.monitors.modify monitor fun state => { state with stopped := true } }

theorem next_of_step {c c' : Client} {a : Action} (hstep : stepOf c a = some c') : Next c a c' := by
  cases a with
  | dial =>
    simp only [stepOf] at hstep
    split at hstep
    next hphase => cases hstep; exact .dial hphase
    next => cases hstep
  | fail =>
    simp only [stepOf] at hstep
    split at hstep
    next hphase => cases hstep; exact .fail hphase
    next => cases hstep
  | newMonitor =>
    simp only [stepOf] at hstep
    split at hstep
    next hphase => cases hstep; exact .newMonitor hphase
    next => cases hstep
  | runAppStateMonitor =>
    simp only [stepOf] at hstep
    split at hstep
    next hphase => cases hstep; exact .runAppStateMonitor hphase
    next => cases hstep
  | appStatusChan i =>
    simp only [stepOf] at hstep
    split at hstep
    next hi =>
      split at hstep
      next hnone => cases hstep; exact .noMonitor hi hnone
      next hmonitor => cases hstep; exact .appStatusChan hi hmonitor
    next => cases hstep
  | shutdown =>
    simp only [stepOf] at hstep
    split at hstep
    next hphase => cases hstep; exact .shutdown hphase
    next => cases hstep
  | close =>
    simp only [stepOf] at hstep
    split at hstep
    next hphase => cases hstep; exact .close hphase
    next => cases hstep
  | receive args =>
    simp only [stepOf] at hstep
    split at hstep
    next => cases hstep
    next hphase => cases hstep; exact .receive hphase
  | read i =>
    obtain ⟨r, hi, hrest⟩ := Option.bind_eq_some_iff.mp hstep
    split at hrest
    next hphase =>
      split at hrest
      next hparsed => cases hrest; exact .notParsed hi hphase hparsed
      next hparsed => cases hrest; exact .read hi hphase hparsed
    next => cases hrest
  | apply i =>
    obtain ⟨r, hi, hrest⟩ := Option.bind_eq_some_iff.mp hstep
    split at hrest
    next hphase => cases hrest; exact .nilMonitor hi hphase
    next hphase =>
      obtain ⟨state, hstate, hend⟩ := Option.bind_eq_some_iff.mp hrest
      split at hend
      next => cases hend
      next hstopped =>
        cases hend
        exact .apply hi hphase hstate (Bool.eq_false_iff.mpr hstopped)
    next => cases hrest
  | done monitor =>
    obtain ⟨state, hstate, hrest⟩ := Option.bind_eq_some_iff.mp hstep
    split at hrest
    next hcancelled => cases hrest; exact .done hstate hcancelled
    next => cases hrest

/-! ## The invariant -/

/-- The handler is done, or will be without a monitor. -/
def Settled (monitors : List MonitorState) (r : Request) : Prop :=
  match r.phase with
  | .received => r.args.parsed = none
  | .sending _ => False
  | .applied monitor late => late = false ∧ MadeFor monitors monitor r.connection
  | .failed => True

/-- The handler needs the monitor of its connection, which is in the client. -/
structure Underway (c : Client) (r : Request) : Prop where
  parsed : r.args.parsed ≠ none
  connection : r.connection = c.connections
  monitor : c.phase.monitor ≠ none
  phase : r.phase = .received ∨ r.phase = .sending c.phase.monitor

structure Inv (c : Client) : Prop where
  running : c.panicked = false
  current : ∀ m, c.phase.monitor = some m →
    c.appStateMonitor = some m ∧ c.monitors[m]? = some { connection := c.connections }
  begun : none ∈ c.consumers → c.appStateMonitor ≠ none
  consumed : ∀ m < c.monitors.length, Consumed c m
  requests : ∀ r ∈ c.requests, Settled c.monitors r ∨ Underway c r

theorem Settled.mono {monitors monitors' : List MonitorState} {r : Request}
    (h : Settled monitors r)
    (hmono : ∀ m connection, MadeFor monitors m connection → MadeFor monitors' m connection) :
    Settled monitors' r := by
  unfold Settled at h ⊢
  cases hphase : r.phase with
  | received =>
    rw [hphase] at h
    exact h
  | sending monitor =>
    rw [hphase] at h
    exact h
  | applied monitor late =>
    rw [hphase] at h
    exact ⟨h.1, hmono monitor r.connection h.2⟩
  | failed => trivial

/-- Without a monitor in the client no handler is left that needs one. -/
theorem Inv.settled {c : Client} (hc : Inv c) (hnone : c.phase.monitor = none) :
    ∀ r ∈ c.requests, Settled c.monitors r := by
  intro r hr
  rcases hc.requests r hr with hsettled | hunderway
  · exact hsettled
  · exact absurd hnone hunderway.monitor

theorem madeFor_append {monitors : List MonitorState} {m connection : Nat}
    (h : MadeFor monitors m connection) (state : MonitorState) :
    MadeFor (monitors ++ [state]) m connection := by
  obtain ⟨old, hold, hconnection⟩ := h
  have hlt := (List.getElem?_eq_some_iff.mp hold).1
  exact ⟨old, by rw [List.getElem?_append_left hlt, hold], hconnection⟩

/-- A monitor is for the same connection after it is told to stop and after it has stopped. -/
theorem madeFor_modify {monitors : List MonitorState} {m connection i : Nat}
    {f : MonitorState → MonitorState} (hf : ∀ state, (f state).connection = state.connection)
    (h : MadeFor monitors m connection) : MadeFor (monitors.modify i f) m connection := by
  obtain ⟨old, hold, hconnection⟩ := h
  refine ⟨if i = m then f old else old, ?_, ?_⟩
  · rw [List.getElem?_modify, hold]
    rfl
  · split
    next => rw [hf, hconnection]
    next => exact hconnection

theorem inv_init : Inv {} where
  running := rfl
  current := fun m h => by cases h
  begun := fun h => by cases h
  consumed := fun m h => absurd h (Nat.not_lt_zero m)
  requests := fun r h => by cases h

/-- `connect` moves on, and there is no monitor before or after. -/
theorem inv_phase {c : Client} (hc : Inv c) (phase : ConnectPhase) (connections : Nat)
    (hbefore : c.phase.monitor = none) (hafter : phase.monitor = none) :
    Inv { c with phase, connections } where
  running := hc.running
  current := by
    intro m hm
    rw [hafter] at hm
    cases hm
  begun := hc.begun
  consumed := by
    intro m hm
    rcases hc.consumed m hm with hconsumed | ⟨hmonitor, hnone | hstored⟩
    · exact .inl hconsumed
    · exact .inr ⟨hmonitor, .inl hnone⟩
    · rw [hstored] at hbefore
      cases hbefore
  requests := fun r hr => .inl (hc.settled hbefore r hr)

theorem inv_newMonitor {c : Client} (hc : Inv c) (hphase : c.phase = .dialed)
    (hG : none ∉ c.consumers) :
    Inv { c with
      monitors := c.monitors ++ [{ connection := c.connections }]
      appStateMonitor := some c.monitors.length
      phase := .stored c.monitors.length } where
  running := hc.running
  current := by
    intro m hm
    cases hm
    exact ⟨rfl, List.getElem?_concat_length⟩
  begun := fun hnone => absurd hnone hG
  consumed := by
    intro m hm
    rw [List.length_append, List.length_singleton] at hm
    rcases Nat.lt_or_ge m c.monitors.length with hlt | hge
    · -- each of the earlier ones has begun
      rcases hc.consumed m hlt with hconsumed | ⟨-, hnone | hstored⟩
      · exact .inl hconsumed
      · exact absurd hnone hG
      · rw [hphase] at hstored
        cases hstored
    · have hnew : m = c.monitors.length := by omega
      subst hnew
      exact .inr ⟨rfl, .inr rfl⟩
  requests := by
    intro r hr
    have hsettled := hc.settled (by rw [hphase]; rfl) r hr
    exact .inl (hsettled.mono fun m connection hmade => madeFor_append hmade _)

theorem inv_runAppStateMonitor {c : Client} {monitor : Nat} (hc : Inv c)
    (hphase : c.phase = .stored monitor) :
    Inv { c with consumers := c.consumers ++ [none], phase := .waiting monitor } := by
  have hmonitor : c.phase.monitor = some monitor := by rw [hphase]; rfl
  have hsame : (ConnectPhase.waiting monitor).monitor = c.phase.monitor := hmonitor.symm
  obtain ⟨hcurrent, hstate⟩ := hc.current monitor hmonitor
  exact {
    running := hc.running
    current := fun m hm => hc.current m (hsame ▸ hm)
    begun := by
      intro _ hnone
      rw [hcurrent] at hnone
      cases hnone
    consumed := by
      intro m hm
      have hnone : none ∈ c.consumers ++ [none] := List.mem_append_right _ List.mem_cons_self
      rcases hc.consumed m hm with hconsumed | ⟨heq, -⟩
      · exact .inl (List.mem_append_left _ hconsumed)
      · exact .inr ⟨heq, .inl hnone⟩
    requests := by
      intro r hr
      rcases hc.requests r hr with hsettled | hunderway
      · exact .inl hsettled
      · exact .inr {
          parsed := hunderway.parsed
          connection := hunderway.connection
          monitor := by rw [hsame]; exact hunderway.monitor
          phase := by rw [hsame]; exact hunderway.phase } }

theorem inv_appStatusChan {c : Client} {i monitor : Nat} (hc : Inv c)
    (hi : c.consumers[i]? = some none) (hmonitor : c.appStateMonitor = some monitor) :
    Inv { c with consumers := c.consumers.set i (some monitor) } where
  running := hc.running
  current := hc.current
  begun := by
    intro _ hnone
    rw [hmonitor] at hnone
    cases hnone
  consumed := by
    intro m hm
    have hlt := (List.getElem?_eq_some_iff.mp hi).1
    -- the consumer that begins had no monitor, so none loses its own
    rcases hc.consumed m hm with hconsumed | ⟨heq, -⟩
    · obtain ⟨j, hj⟩ := List.mem_iff_getElem?.mp hconsumed
      have hne : i ≠ j := by
        rintro rfl
        rw [hi] at hj
        cases hj
      exact .inl (List.mem_iff_getElem?.mpr ⟨j, by rw [List.getElem?_set_ne hne, hj]⟩)
    · rw [hmonitor] at heq
      cases heq
      exact .inl (List.mem_set hlt _)
  requests := fun r hr => (hc.requests r hr).imp_right fun h => { h with }

theorem inv_shutdown {c : Client} {monitor : Nat} (hc : Inv c) (hphase : c.phase = .waiting monitor)
    (hG : ∀ r ∈ c.requests, r.phase.isDone ∨ r.args.parsed = none) :
    Inv { c with
      monitors := c.monitors.modify monitor fun state => { state with cancelled := true }
      phase := .closing } where
  running := hc.running
  current := fun m hm => by cases hm
  begun := hc.begun
  consumed := by
    intro m hm
    rw [List.length_modify] at hm
    rcases hc.consumed m hm with hconsumed | ⟨heq, hnone | hstored⟩
    · exact .inl hconsumed
    · exact .inr ⟨heq, .inl hnone⟩
    · rw [hphase] at hstored
      cases hstored
  requests := by
    intro r hr
    have hkept : ∀ m connection, MadeFor c.monitors m connection →
        MadeFor (c.monitors.modify monitor fun state => { state with cancelled := true }) m
          connection := fun m connection hmade => madeFor_modify (fun _ => rfl) hmade
    rcases hc.requests r hr with hsettled | hunderway
    · exact .inl (hsettled.mono hkept)
    · -- it would be a request that is left
      rcases hG r hr with hdone | hparsed
      · rcases hunderway.phase with hreceived | hsending
        · rw [hreceived] at hdone
          cases hdone
        · rw [hsending] at hdone
          cases hdone
      · exact absurd hparsed hunderway.parsed

theorem inv_receive {c : Client} {args : InformRequest} (hc : Inv c)
    (hG : c.phase.monitor ≠ none ∨ args.parsed = none) :
    Inv { c with requests := c.requests ++ [{ connection := c.connections, args }] } where
  running := hc.running
  current := hc.current
  begun := hc.begun
  consumed := hc.consumed
  requests := by
    intro r hr
    rcases List.mem_append.mp hr with hold | hnew
    · exact (hc.requests r hold).imp_right fun h => { h with }
    · rw [List.mem_singleton] at hnew
      subst hnew
      -- a request that does not parse needs no monitor
      by_cases hparsed : args.parsed = none
      · exact .inl hparsed
      · exact .inr {
          parsed := hparsed
          connection := rfl
          monitor := hG.resolve_right hparsed
          phase := .inl rfl }

/-- The step of a handler. -/
theorem inv_setRequest {c : Client} {i : Nat} {r : Request} {phase : RequestPhase} (hc : Inv c)
    (hr : Settled c.monitors { r with phase } ∨ Underway c { r with phase }) :
    Inv (c.setRequest i r phase) where
  running := hc.running
  current := hc.current
  begun := hc.begun
  consumed := hc.consumed
  requests := by
    intro g hg
    have hplaced : Settled c.monitors g ∨ Underway c g := by
      rcases List.mem_or_eq_of_mem_set hg with hold | heq
      · exact hc.requests g hold
      · rw [heq]
        exact hr
    exact hplaced.imp_right fun h => { h with }

theorem inv_done {c : Client} {monitor : Nat} {state : MonitorState} (hc : Inv c)
    (hstate : c.monitors[monitor]? = some state) (hcancelled : state.cancelled = true) :
    Inv { c with
      monitors := c.monitors.modify monitor fun state => { state with stopped := true } } where
  running := hc.running
  current := by
    intro m hm
    obtain ⟨hcurrent, hnew⟩ := hc.current m hm
    -- the monitor of the connection is not told to stop
    have hne : monitor ≠ m := by
      rintro rfl
      rw [hstate] at hnew
      cases hnew
      cases hcancelled
    refine ⟨hcurrent, ?_⟩
    rw [List.getElem?_modify, hnew]
    exact congrArg some (if_neg hne)
  begun := hc.begun
  consumed := by
    intro m hm
    rw [List.length_modify] at hm
    exact hc.consumed m hm
  requests := by
    intro r hr
    rcases hc.requests r hr with hsettled | hunderway
    · exact .inl (hsettled.mono fun m connection hmade => madeFor_modify (fun _ => rfl) hmade)
    · exact .inr { hunderway with }

/-- A handler that sends has the monitor of its connection, which is not shut down. -/
theorem Inv.sending {c : Client} {r : Request} {monitor : Option Nat} (hc : Inv c)
    (hr : r ∈ c.requests) (hphase : r.phase = .sending monitor) :
    ∃ m, monitor = some m ∧ c.monitors[m]? = some { connection := r.connection } := by
  rcases hc.requests r hr with hsettled | hunderway
  · unfold Settled at hsettled
    rw [hphase] at hsettled
    cases hsettled
  · obtain ⟨m, hm⟩ := Option.ne_none_iff_exists'.mp hunderway.monitor
    refine ⟨m, ?_, ?_⟩
    · rcases hunderway.phase with hreceived | hsending
      · rw [hphase] at hreceived
        cases hreceived
      · rw [hphase, hm] at hsending
        cases hsending
        rfl
    · rw [hunderway.connection]
      exact (hc.current m hm).2

theorem inv_read {c : Client} {i : Nat} {r : Request} (hc : Inv c) (hi : c.requests[i]? = some r)
    (hphase : r.phase = .received) (hparsed : r.args.parsed ≠ none) :
    Inv (c.setRequest i r (.sending c.appStateMonitor)) := by
  rcases hc.requests r (List.mem_of_getElem? hi) with hsettled | hunderway
  · unfold Settled at hsettled
    rw [hphase] at hsettled
    exact absurd hsettled hparsed
  · obtain ⟨m, hm⟩ := Option.ne_none_iff_exists'.mp hunderway.monitor
    -- while a handler is under way the client holds the monitor of the connection
    have hheld : c.appStateMonitor = c.phase.monitor := by rw [hm, (hc.current m hm).1]
    exact inv_setRequest hc (.inr {
      parsed := hparsed
      connection := hunderway.connection
      monitor := hunderway.monitor
      phase := .inr (congrArg RequestPhase.sending hheld) })

theorem inv_apply {c : Client} {i monitor : Nat} {r : Request} {state : MonitorState} (hc : Inv c)
    (hi : c.requests[i]? = some r) (hphase : r.phase = .sending (some monitor))
    (hstate : c.monitors[monitor]? = some state) :
    Inv (c.setRequest i r (.applied monitor state.cancelled)) := by
  obtain ⟨m, hm, hnew⟩ := hc.sending (List.mem_of_getElem? hi) hphase
  cases hm
  rw [hstate] at hnew
  cases hnew
  exact inv_setRequest hc (.inl ⟨rfl, _, hstate, rfl⟩)

/-- **The step.** -/
theorem inv_step {c c' : Client} {a : Action} (hc : Inv c) (hG : Guard c a)
    (hstep : step c a = some c') : Inv c' := by
  rw [step_running hc.running] at hstep
  cases next_of_step hstep with
  | dial hphase => exact inv_phase hc .dialed _ (by rw [hphase]; rfl) rfl
  | fail hphase => exact inv_phase hc .closing c.connections (by rw [hphase]; rfl) rfl
  | newMonitor hphase => exact inv_newMonitor hc hphase hG
  | runAppStateMonitor hphase => exact inv_runAppStateMonitor hc hphase
  -- runAppStateMonitor is started after the monitor is stored
  | noMonitor hi hnone => exact absurd hnone (hc.begun (List.mem_of_getElem? hi))
  | appStatusChan hi hmonitor => exact inv_appStatusChan hc hi hmonitor
  | shutdown hphase => exact inv_shutdown hc hphase hG
  | close hphase => exact inv_phase hc .idle c.connections (by rw [hphase]; rfl) rfl
  | receive => exact inv_receive hc hG
  | notParsed => exact inv_setRequest hc (.inl trivial)
  | read hi hphase hparsed => exact inv_read hc hi hphase hparsed
  | nilMonitor hi hphase =>
    obtain ⟨m, hm, -⟩ := hc.sending (List.mem_of_getElem? hi) hphase
    cases hm
  | apply hi hphase hstate => exact inv_apply hc hi hphase hstate
  | done hstate hcancelled => exact inv_done hc hstate hcancelled

/-! ## Every run -/

theorem isSome_read {c : Client} {i : Nat} {r : Request} (hrunning : c.panicked = false)
    (hi : c.requests[i]? = some r) (hphase : r.phase = .received) : (step c (.read i)).isSome := by
  rw [step_running hrunning]
  simp only [stepOf, hi, hphase, Option.bind_eq_bind, Option.bind_some]
  split <;> rfl

theorem isSome_apply {c : Client} {i m : Nat} {r : Request} {state : MonitorState}
    (hrunning : c.panicked = false) (hi : c.requests[i]? = some r)
    (hphase : r.phase = .sending (some m)) (hstate : c.monitors[m]? = some state)
    (hstopped : state.stopped = false) : (step c (.apply i)).isSome := by
  rw [step_running hrunning]
  simp only [stepOf, hi, hphase, hstate, hstopped, Option.bind_eq_bind, Option.bind_some]
  rfl

theorem Inv.survives {c : Client} (hc : Inv c) : Survives c where
  running := hc.running
  applied := by
    intro r hr monitor late hphase
    rcases hc.requests r hr with hsettled | hunderway
    · unfold Settled at hsettled
      rw [hphase] at hsettled
      obtain ⟨hlate, state, hstate, hconnection⟩ := hsettled
      exact ⟨hlate, ⟨state, hstate, hconnection⟩,
        hc.consumed monitor (List.getElem?_eq_some_iff.mp hstate).1⟩
    · rcases hunderway.phase with hreceived | hsending
      · rw [hphase] at hreceived
        cases hreceived
      · rw [hphase] at hsending
        cases hsending
  sending := by
    intro r hr monitor hphase
    obtain ⟨m, hm, hstate⟩ := hc.sending hr hphase
    exact ⟨m, hm, _, hstate, rfl⟩
  enabled := by
    intro i r hi hdone
    cases hphase : r.phase with
    | received => exact .inl (isSome_read hc.running hi hphase)
    | sending monitor =>
      obtain ⟨m, rfl, hstate⟩ := hc.sending (List.mem_of_getElem? hi) hphase
      exact .inr (isSome_apply hc.running hi hphase hstate rfl)
    | applied monitor late => rw [hphase] at hdone; cases hdone
    | failed => rw [hphase] at hdone; cases hdone

/-- The informers survive every sequence of connections that meets the guard. -/
theorem survives_everyState {c : Client} (hc : machine.Reachable Init Guard c) : Survives c := by
  have hinv : machine.EveryState Init Guard Inv := by
    refine Machine.everyState_of_inv ?_ fun _ _ _ hc hG hstep => inv_step hc hG hstep
    intro c hc
    rw [hc]
    exact inv_init
  exact (hinv c hc).survives

def informDeployment : InformRequest := { appID := "app", informers := ["deployment/web"] }

/-- On both connections a message arrives when the monitor is in the client. -/
def reconnected : List Action :=
  [.dial, .newMonitor, .runAppStateMonitor, .appStatusChan 0, .receive informDeployment, .read 0,
    .apply 0, .shutdown, .done 0, .close, .dial, .newMonitor, .runAppStateMonitor, .appStatusChan 1,
    .receive informDeployment, .read 1, .apply 1]

theorem run_reconnected : (machine.guardedRun Guard {} reconnected).map
    (fun c => c.requests.map (·.phase)) = some [.applied 0 false, .applied 1 false] := by
  decide +kernel

theorem survives_reconnected :
    ∃ c, machine.guardedRun Guard {} reconnected = some c ∧ Survives c := by
  obtain ⟨c, hrun, _⟩ := Option.map_eq_some_iff.mp run_reconnected
  have hinit : Init {} := rfl
  have hreached := (Machine.Reachable.init hinit).guardedRun reconnected hrun
  exact ⟨c, hrun, survives_everyState hreached⟩

/-! ## A request between Dial and NewMonitor -/

/-- The monitors are for connections that were dialed, and `connect` makes one for each. -/
def Numbered (c : Client) : Prop :=
  ∀ state ∈ c.monitors,
    state.connection < c.connections ∨ state.connection = c.connections ∧ c.phase ≠ .dialed

theorem Numbered.of_eq {c c' : Client} (h : Numbered c)
    (hmonitors : ∀ state ∈ c'.monitors, ∃ old ∈ c.monitors, state.connection = old.connection)
    (hconnections : c'.connections = c.connections)
    (hphase : c'.phase ≠ .dialed ∨ c'.phase = c.phase) : Numbered c' := by
  intro state hstate
  obtain ⟨old, hold, hconnection⟩ := hmonitors state hstate
  rw [hconnection, hconnections]
  refine (h old hold).imp_right fun ⟨heq, hdialed⟩ => ⟨heq, ?_⟩
  rcases hphase with hne | hsame
  · exact hne
  · rw [hsame]
    exact hdialed

theorem mem_modify_connection {monitors : List MonitorState} {i : Nat}
    {f : MonitorState → MonitorState} (hf : ∀ state, (f state).connection = state.connection) :
    ∀ state ∈ monitors.modify i f, ∃ old ∈ monitors, state.connection = old.connection := by
  intro state hstate
  obtain ⟨m, hm⟩ := List.mem_iff_getElem?.mp hstate
  rw [List.getElem?_modify, Option.map_eq_map, Option.map_eq_some_iff] at hm
  obtain ⟨old, hold, heq⟩ := hm
  refine ⟨old, List.mem_of_getElem? hold, ?_⟩
  rw [← heq]
  split
  next => exact hf old
  next => rfl

theorem numbered_step {c c' : Client} {a : Action} (hc : Numbered c)
    (hstep : stepOf c a = some c') : Numbered c' := by
  -- most steps leave the monitors, the number and the phase
  have hsame : ∀ state ∈ c.monitors, ∃ old ∈ c.monitors, state.connection = old.connection :=
    fun state hstate => ⟨state, hstate, rfl⟩
  cases next_of_step hstep with
  | dial =>
    intro state hstate
    rcases hc state hstate with hlt | ⟨heq, -⟩
    · exact .inl (Nat.lt_succ_of_lt hlt)
    · exact .inl (Nat.lt_succ_of_le (Nat.le_of_eq heq))
  | newMonitor =>
    intro state hstate
    rcases List.mem_append.mp hstate with hold | hnew
    · exact (hc state hold).imp_right fun h => ⟨h.1, ConnectPhase.noConfusion⟩
    · rw [List.mem_singleton.mp hnew]
      exact .inr ⟨rfl, ConnectPhase.noConfusion⟩
  | fail => exact hc.of_eq hsame rfl (.inl ConnectPhase.noConfusion)
  | close => exact hc.of_eq hsame rfl (.inl ConnectPhase.noConfusion)
  | runAppStateMonitor => exact hc.of_eq hsame rfl (.inl ConnectPhase.noConfusion)
  | shutdown =>
    exact hc.of_eq (mem_modify_connection fun _ => rfl) rfl (.inl ConnectPhase.noConfusion)
  | done => exact hc.of_eq (mem_modify_connection fun _ => rfl) rfl (.inr rfl)
  | noMonitor => exact hc.of_eq hsame rfl (.inr rfl)
  | appStatusChan => exact hc.of_eq hsame rfl (.inr rfl)
  | receive => exact hc.of_eq hsame rfl (.inr rfl)
  | notParsed => exact hc.of_eq hsame rfl (.inr rfl)
  | read => exact hc.of_eq hsame rfl (.inr rfl)
  | nilMonitor => exact hc.of_eq hsame rfl (.inr rfl)
  | apply => exact hc.of_eq hsame rfl (.inr rfl)

theorem numbered_everyState : machine.EveryState Init Machine.Free Numbered := by
  refine Machine.everyState_of_inv ?_ ?_
  · intro c hc state hstate
    rw [hc] at hstate
    cases hstate
  · intro c a c' hc _ hstep
    change (if c.panicked then none else stepOf c a) = some c' at hstep
    split at hstep
    next => cases hstep
    next => exact numbered_step hc hstep

/-- On every connection a request that arrives before its monitor is in the client may be taken to
another one. -/
theorem not_survives_early {c : Client} {args : InformRequest}
    (hc : machine.Reachable Init Machine.Free c) (hrunning : c.panicked = false)
    (hphase : c.phase = .dialed) (hparsed : args.parsed ≠ none) :
    ∃ c', machine.run c [.receive args, .read c.requests.length] = some c' ∧ ¬ Survives c' := by
  let r : Request := { connection := c.connections, args }
  let received : Client := { c with phase := .dialed, requests := c.requests ++ [r] }
  have hreceive : machine.step c (.receive args) = some received := by
    show step c _ = _
    rw [step_running hrunning]
    simp only [stepOf, hphase]
    rfl
  have hget : received.requests[c.requests.length]? = some r := List.getElem?_concat_length
  have hread : machine.step received (.read c.requests.length) =
      some (received.setRequest c.requests.length r (.sending c.appStateMonitor)) := by
    show step received _ = _
    rw [step_running (c := received) hrunning]
    simp only [stepOf, hget, Option.bind_eq_bind, Option.bind_some]
    exact if_neg hparsed
  refine ⟨received.setRequest c.requests.length r (.sending c.appStateMonitor), ?_, ?_⟩
  · rw [Machine.run_cons, hreceive, Option.bind_some, Machine.run_cons, hread]
    rfl
  · intro hsurvives
    have hmem : { r with phase := .sending c.appStateMonitor } ∈
        received.requests.set c.requests.length { r with phase := .sending c.appStateMonitor } :=
      List.mem_set (List.getElem?_eq_some_iff.mp hget).1 _
    obtain ⟨m, -, state, hstate, hconnection⟩ := hsurvives.sending _ hmem _ rfl
    -- it would have been made for a connection that has none
    rcases numbered_everyState c hc state (List.mem_of_getElem? hstate) with hlt | ⟨-, hne⟩
    · exact Nat.lt_irrefl _ (hconnection ▸ hlt)
    · exact hne hphase

/-- The request on the second connection goes to the monitor of the first one, which is shut
down. -/
theorem not_survives_reconnected : ¬ machine.EveryState Init Machine.Free Survives := by
  have hrun : machine.run {} [.dial, .newMonitor, .runAppStateMonitor, .appStatusChan 0, .shutdown,
      .close, .dial, .receive informDeployment, .read 0, .apply 0] = some {
        connections := 2
        phase := .dialed
        monitors := [{ connection := 1, cancelled := true }]
        appStateMonitor := some 0
        consumers := [some 0]
        requests := [{ connection := 2, args := informDeployment, phase := .applied 0 true }] } := by
    decide +kernel
  refine Machine.not_everyState (show Init {} from rfl) _ hrun ?_
  intro hsurvives
  have hlate := (hsurvives.applied _ List.mem_cons_self 0 true rfl).1
  cases hlate

end Kotsadm.Reconnect
