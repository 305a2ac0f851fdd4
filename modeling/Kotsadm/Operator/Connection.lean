import Mathlib.Logic.Function.Basic
import Kotsadm.Lib.Dictionary
import Kotsadm.Lib.Machine
import Kotsadm.Operator.Protocol

/-!
# Connection — the two ends of a socket and their goroutines

Each end has a `Channel`: its loops, its pinger, the calls of `Ack` and `Emit`, a goroutine for every
message that arrived and those that close it.  They step in any order; an end reads what the other
has written in order.
-/

namespace Kotsadm.Operator.Connection

open GoString Protocol

def queueBufferSize : Nat := 500

/-! ## The goroutines -/

/-- What `json.Marshal` makes of arguments; `send` recovers its panics.  The text of `nil` is empty. -/
inductive Marshalled
  | text (json : GoString)
  | error
  | panics
  deriving DecidableEq, Repr

/-- How `send` ended in a call of `Ack`. -/
inductive Sent
  | enqueued
  | failed
  | panicked
  deriving DecidableEq, Repr

inductive Phase
  /-- the call has its id, and makes its waiter -/
  | numbered
  | registered
  /-- before the queue is checked -/
  | encoded (command : GoString)
  /-- at `c.out <- command` -/
  | putting (command : GoString)
  /-- `send` returned an error -/
  | removing
  | selecting
  | returned (result : GoString)
  /-- the timer of the `select` fired -/
  | expired
  | timedOut
  deriving DecidableEq, Repr

/-- A call of `Ack`; its waiter is known by its index. -/
structure Call where
  ackId : Int64
  method : GoString
  args : Marshalled
  phase : Phase := .numbered
  sent : Option Sent := none
  deriving DecidableEq, Repr

/-- A goroutine in `send` whose result nobody looks at. -/
inductive Sending
  | encoded (command : GoString)
  | putting (command : GoString)
  | done
  deriving DecidableEq, Repr

/-- A goroutine of `processIncomingMessage` -/
inductive Incoming
  | received (msg : Message)
  /-- at `waiter <- msg.Args` -/
  | delivering (waiter : Nat) (args : GoString)
  | done
  deriving DecidableEq, Repr

/-- What becomes of a message with a method. -/
inductive Outcome
  /-- there is no such method, it has no result, or the arguments are not its own -/
  | ignored
  | called (result : Marshalled)
  deriving DecidableEq, Repr

inductive OutLoop
  | checking
  /-- at `msg := <-c.out` -/
  | receiving
  | writing (msg : GoString)
  | ended
  deriving DecidableEq, Repr

inductive InLoop
  | reading
  /-- at `c.out <- protocol.PongMessage` -/
  | replying
  | ended
  | panicked
  deriving DecidableEq, Repr

inductive Pinger
  | sleeping
  | putting
  | ended
  deriving DecidableEq, Repr

/-- The goroutine in `closeChannel` that has the lock and found the channel alive. -/
inductive Closing
  /-- at `len(c.out) > 0` -/
  | checking
  /-- at `<-c.out` -/
  | receiving
  /-- at `c.out <- protocol.CloseMessage` -/
  | putting
  deriving DecidableEq, Repr

/-- What was called for an ack request. -/
structure Execution where
  ackId : Int64
  method : GoString
  args : GoString
  result : Marshalled
  deriving DecidableEq, Repr

structure Channel where
  -- `ack.counter` and `ack.resultWaiters`
  counter : Int64 := 0
  waiters : Dictionary Int64 Nat := .empty
  calls : List Call := []
  sends : List Sending := []
  incoming : List Incoming := []
  out : List GoString := []
  -- the connection is closed when this becomes false
  alive : Bool := true
  -- the goroutines that wait for `aliveLock` in `closeChannel`
  closers : Nat := 0
  closing : Option Closing := none
  outLoop : OutLoop := .checking
  inLoop : InLoop := .reading
  pinger : Pinger := .sleeping
  -- what was written and not read at the other end
  wire : List GoString := []
  -- what happened
  enqueued : List GoString := []
  read : List GoString := []
  executed : List Execution := []
  events : List String := []

/-- The message of a call whose arguments have the text `json`. -/
def Call.message (call : Call) (json : GoString) : Message :=
  { type := .ackRequest, ackId := call.ackId, method := call.method, args := json }

namespace Channel

/-! ## ack.go -/

/-- `getNextId` -/
def getNextId (c : Channel) : Int64 × Channel :=
  (c.counter + 1, { c with counter := c.counter + 1 })

def addWaiter (c : Channel) (id : Int64) (w : Nat) : Channel :=
  { c with waiters := c.waiters.set id w }

def removeWaiter (c : Channel) (id : Int64) : Channel :=
  { c with waiters := c.waiters.remove id }

def getWaiter (c : Channel) (id : Int64) : Option Nat := c.waiters.get id

/-! ## send.go -/

/-- `c.out <- command`, which waits while the queue is full -/
def put (c : Channel) (command : GoString) : Option Channel :=
  if c.out.length < queueBufferSize then
    some { c with out := c.out ++ [command], enqueued := c.enqueued ++ [command] }
  else none

def setCall (c : Channel) (k : Nat) (call : Call) : Channel :=
  { c with calls := c.calls.set k call }

/-- A new call of `Ack`, up to its id. -/
def ack (c : Channel) (method : GoString) (args : Marshalled) : Channel :=
  let (id, c) := c.getNextId
  { c with calls := c.calls ++ [{ ackId := id, method := method, args := args }] }

/-- The next step of a call, its timer apart. -/
def stepCall (c : Channel) (k : Nat) (call : Call) : Option Channel :=
  match call.phase with
  | .numbered => some ((c.addWaiter call.ackId k).setCall k { call with phase := .registered })
  | .registered =>
    match call.args with
    | .text json =>
      match encode (call.message json) with
      | .ok command => some (c.setCall k { call with phase := .encoded command })
      | .error _ => some (c.setCall k { call with phase := .removing, sent := some .failed })
    | .error => some (c.setCall k { call with phase := .removing, sent := some .failed })
    -- the error that `send` returns is then still `nil`
    | .panics => some (c.setCall k { call with phase := .selecting, sent := some .panicked })
  | .encoded command =>
    if c.out.length = queueBufferSize then
      some (c.setCall k { call with phase := .removing, sent := some .failed })
    else some (c.setCall k { call with phase := .putting command })
  | .putting command =>
    (c.put command).map fun c =>
      c.setCall k { call with phase := .selecting, sent := some .enqueued }
  -- the error is not returned: the call waits for its timeout
  | .removing => some ((c.removeWaiter call.ackId).setCall k { call with phase := .selecting })
  | .expired => some ((c.removeWaiter call.ackId).setCall k { call with phase := .timedOut })
  | .selecting | .returned _ | .timedOut => none

/-- The timer of the `select`. -/
def expire (c : Channel) (k : Nat) (call : Call) : Option Channel :=
  if call.phase = .selecting then some (c.setCall k { call with phase := .expired }) else none

/-- The other calls of `send`, which drop the error. -/
def send (c : Channel) (message : GoString → Message) (args : Marshalled) : Channel :=
  match args with
  | .text json =>
    match encode (message json) with
    | .ok command => { c with sends := c.sends ++ [.encoded command] }
    | .error _ => c
  | .error | .panics => c

def emit (c : Channel) (method : GoString) (args : Marshalled) : Channel :=
  c.send (fun json => { type := .emit, method := method, args := json }) args

def setSend (c : Channel) (k : Nat) (sending : Sending) : Channel :=
  { c with sends := c.sends.set k sending }

def stepSend (c : Channel) (k : Nat) (sending : Sending) : Option Channel :=
  match sending with
  | .encoded command =>
    if c.out.length = queueBufferSize then some (c.setSend k .done)
    else some (c.setSend k (.putting command))
  | .putting command => (c.put command).map fun c => c.setSend k .done
  | .done => none

/-! ## handler.go -/

def setIncoming (c : Channel) (k : Nat) (incoming : Incoming) : Channel :=
  { c with incoming := c.incoming.set k incoming }

/-- `processIncomingMessage`, up to where it waits. -/
def processIncomingMessage (c : Channel) (k : Nat) (msg : Message) (outcome : Outcome) : Channel :=
  match msg.type with
  | .ackRequest =>
    match outcome with
    | .ignored => c.setIncoming k .done
    | .called result =>
      let c := c.setIncoming k .done
      let execution : Execution := ⟨msg.ackId, msg.method, msg.args, result⟩
      let c := { c with executed := c.executed ++ [execution] }
      c.send (fun json => { type := .ackResponse, ackId := msg.ackId, args := json }) result
  | .ackResponse =>
    match c.getWaiter msg.ackId with
    | some w => c.setIncoming k (.delivering w msg.args)
    | none => c.setIncoming k .done
  -- an emit calls its method, and anything else does nothing
  | _ => c.setIncoming k .done

/-- `waiter <- msg.Args`, which waits for the `select` of the call -/
def deliver (c : Channel) (k w : Nat) (args : GoString) : Option Channel :=
  (c.calls[w]?).bind fun call =>
    if call.phase = .selecting then
      some ((c.setIncoming k .done).setCall w { call with phase := .returned args })
    else none

/-! ## loop.go -/

def callLoopEvent (c : Channel) (event : String) : Channel :=
  { c with events := c.events ++ [event] }

/-- A goroutine calls `closeChannel`. -/
def closeChannel (c : Channel) : Channel := { c with closers := c.closers + 1 }

/-- One of them gets the lock. -/
def enterClose (c : Channel) : Option Channel :=
  if c.closers = 0 ∨ c.closing ≠ none then none
  else if c.alive then
    some { c with closers := c.closers - 1, alive := false, closing := some .checking }
  else some { c with closers := c.closers - 1 }

def stepClose (c : Channel) : Closing → Option Channel
  | .checking =>
    if 0 < c.out.length then some { c with closing := some .receiving }
    else some { c with closing := some .putting }
  | .receiving =>
    match c.out with
    | [] => none
    | _ :: out => some { c with out := out, closing := some .checking }
  | .putting =>
    if c.out.length < queueBufferSize then
      some ({ c with out := c.out ++ [closeMessage], closing := none }.callLoopEvent
        "disconnection")
    else none

def stepOutLoop (c : Channel) : Option Channel :=
  match c.outLoop with
  | .checking =>
    if queueBufferSize - 1 ≤ c.out.length then some { c.closeChannel with outLoop := .ended }
    else some { c with outLoop := .receiving }
  | .receiving =>
    match c.out with
    | [] => none
    | msg :: out =>
      if msg = closeMessage then some { c with out := out, outLoop := .ended }
      else some { c with out := out, outLoop := .writing msg }
  | .writing msg =>
    if c.alive then some { c with wire := c.wire ++ [msg], outLoop := .checking } else none
  | .ended => none

/-- `WriteMessage` fails. -/
def failWrite (c : Channel) : Option Channel :=
  match c.outLoop with
  | .writing _ => some { c.closeChannel with outLoop := .ended }
  | _ => none

/-- `inLoop`, for a message of the other end; a wrong header closes the channel. -/
def readMessage (c : Channel) (pkg : GoString) (header : Bool) : Option Channel :=
  if c.alive ∧ c.inLoop = .reading then
    let c := { c with read := c.read ++ [pkg] }
    match decode pkg with
    | .error .panic => some { c with inLoop := .panicked }
    | .error _ => some { c.closeChannel with inLoop := .ended }
    | .ok msg =>
      match msg.type with
      | .open => some ((if header then c else c.closeChannel).callLoopEvent "connection")
      | .ping => some { c with inLoop := .replying }
      | .pong => some c
      | _ => some { c with incoming := c.incoming ++ [.received msg] }
  else none

/-- `GetMessage` fails. -/
def failRead (c : Channel) : Option Channel :=
  if c.inLoop = .reading then some { c.closeChannel with inLoop := .ended } else none

def reply (c : Channel) : Option Channel :=
  if c.inLoop = .replying then (c.put pongMessage).map fun c => { c with inLoop := .reading }
  else none

/-- `pinger`; `IsAlive` needs the lock. -/
def stepPinger (c : Channel) : Option Channel :=
  match c.pinger with
  | .sleeping =>
    if c.closing ≠ none then none
    else if c.alive then some { c with pinger := .putting }
    else some { c with pinger := .ended }
  | .putting => (c.put pingMessage).map fun c => { c with pinger := .sleeping }
  | .ended => none

end Channel

/-! ## The steps -/

/-- Which goroutine of an end steps. -/
inductive Action
  | ack (method : GoString) (args : Marshalled)
  | emit (method : GoString) (args : Marshalled)
  | call (k : Nat)
  | timeout (k : Nat)
  | send (k : Nat)
  | process (k : Nat) (outcome : Outcome)
  | deliver (k : Nat)
  | outLoop
  | failWrite
  /-- with whether a header that arrives is right -/
  | read (header : Bool)
  | failRead
  | reply
  | ping
  /-- somebody calls `Close` -/
  | close
  | enterClose
  | stepClose
  deriving DecidableEq, Repr

/-- A step of one end; reading is the step that needs the other. -/
def Channel.step (c : Channel) : Action → Option Channel
  | .ack method args => some (c.ack method args)
  | .emit method args => some (c.emit method args)
  | .call k => (c.calls[k]?).bind (c.stepCall k)
  | .timeout k => (c.calls[k]?).bind (c.expire k)
  | .send k => (c.sends[k]?).bind (c.stepSend k)
  | .process k outcome =>
    match c.incoming[k]? with
    | some (.received msg) => some (c.processIncomingMessage k msg outcome)
    | _ => none
  | .deliver k =>
    match c.incoming[k]? with
    | some (.delivering w args) => c.deliver k w args
    | _ => none
  | .outLoop => c.stepOutLoop
  | .failWrite => c.failWrite
  | .read _ => none
  | .failRead => c.failRead
  | .reply => c.reply
  | .ping => c.stepPinger
  | .close => some c.closeChannel
  | .enterClose => c.enterClose
  | .stepClose => c.closing.bind c.stepClose

inductive End
  | client
  | server
  deriving DecidableEq, Repr

def End.other : End → End
  | .client => .server
  | .server => .client

@[simp] theorem End.other_other (x : End) : x.other.other = x := by cases x <;> rfl

@[simp] theorem End.other_ne (x : End) : x.other ≠ x := by cases x <;> decide

abbrev Conn := End → Channel

def Conn.read (s : Conn) (x : End) (header : Bool) : Option Conn :=
  match (s x.other).wire with
  | [] => none
  | pkg :: wire =>
    ((s x).readMessage pkg header).map fun c =>
      Function.update (Function.update s x.other { s x.other with wire := wire }) x c

def Conn.step (s : Conn) (a : End × Action) : Option Conn :=
  match a.2 with
  | .read header => s.read a.1 header
  | action => ((s a.1).step action).map (Function.update s a.1)

/-- `Dial` and `SetupEventLoop`: the server begins with its header, and has no pinger. -/
def Conn.setup (header : GoString) : Conn
  | .client => {}
  | .server =>
    { out := [openMessage ++ header, emptyMessage]
      enqueued := [openMessage ++ header, emptyMessage]
      pinger := .ended }

def connection : Machine Conn (End × Action) := ⟨Conn.step⟩

def Setup (s : Conn) : Prop := ∃ header, s = Conn.setup header

/-- A step is one of the end alone, or takes the next packet from the other. -/
theorem Conn.step_cases {s s' : Conn} {x : End} {a : Action} (h : s.step (x, a) = some s') :
    (∃ c, (s x).step a = some c ∧ s' = Function.update s x c) ∨
    (∃ header pkg wire c, a = .read header ∧ (s x.other).wire = pkg :: wire ∧
      (s x).readMessage pkg header = some c ∧
      s' = Function.update (Function.update s x.other { s x.other with wire := wire }) x c) := by
  unfold Conn.step at h
  split at h
  next header haction =>
    right
    unfold Conn.read at h
    split at h
    next => cases h
    next pkg wire hwire =>
      obtain ⟨c, hread, rfl⟩ := Option.map_eq_some_iff.mp h
      exact ⟨header, pkg, wire, c, haction, hwire, hread, rfl⟩
  next =>
    left
    obtain ⟨c, hstep, rfl⟩ := Option.map_eq_some_iff.mp h
    exact ⟨c, hstep, rfl⟩

theorem Conn.step_of_step {s : Conn} {x : End} {a : Action} {c : Channel}
    (h : (s x).step a = some c) : s.step (x, a) = some (Function.update s x c) := by
  unfold Conn.step
  split
  next header haction =>
    change a = .read header at haction
    rw [haction] at h
    cases h
  next =>
    rw [h]
    rfl

/-! ## What holds of both ends -/

section

variable {P : Channel → Channel → Prop} {G : Channel → Action → Prop}

/-- `P` relates each end to the other. -/
def Pair (P : Channel → Channel → Prop) (s : Conn) : Prop := ∀ x, P (s x) (s x.other)

theorem pair_update {s : Conn} {x : End} {c d : Channel} (hcd : P c d) (hdc : P d c) :
    Pair P (Function.update (Function.update s x.other d) x c) := by
  intro y
  have hx : Function.update (Function.update s x.other d) x c x = c := Function.update_self ..
  have hother : Function.update (Function.update s x.other d) x c x.other = d := by
    rw [Function.update_of_ne (End.other_ne x), Function.update_self]
  by_cases hy : y = x
  · rw [hy, hx, hother]
    exact hcd
  · have hy : y = x.other := by
      cases x <;> cases y <;> first | rfl | exact absurd rfl hy
    rw [hy, End.other_other, hx, hother]
    exact hdc

/-- The guard of an end, for both. -/
def Each (G : Channel → Action → Prop) (s : Conn) (a : End × Action) : Prop := G (s a.1) a.2

/-- **The rule for two ends.**  What relates the two has to be kept by the steps of one of them. -/
theorem everyState_pair (hsetup : ∀ header, Pair P (Conn.setup header))
    (hstep : ∀ c d c' a, P c d → P d c → G c a → c.step a = some c' → P c' d ∧ P d c')
    (hread : ∀ c d c' pkg wire header, P c d → P d c → d.wire = pkg :: wire →
      c.readMessage pkg header = some c' →
      P c' { d with wire := wire } ∧ P { d with wire := wire } c') :
    connection.EveryState Setup (Each G) (Pair P) := by
  apply Machine.everyState_of_inv
  · rintro s ⟨header, rfl⟩
    exact hsetup header
  · rintro s ⟨x, a⟩ s' hs hG h
    have hother := hs x.other
    rw [End.other_other] at hother
    rcases Conn.step_cases h with ⟨c, hc, rfl⟩ | ⟨header, pkg, wire, c, -, hwire, hc, rfl⟩
    · obtain ⟨hcd, hdc⟩ := hstep _ _ _ _ (hs x) hother hG hc
      have hself : s = Function.update s x.other (s x.other) := (Function.update_eq_self _ _).symm
      rw [hself]
      exact pair_update hcd hdc
    · obtain ⟨hcd, hdc⟩ := hread _ _ _ _ _ _ (hs x) hother hwire hc
      exact pair_update hcd hdc

end

end Kotsadm.Operator.Connection
