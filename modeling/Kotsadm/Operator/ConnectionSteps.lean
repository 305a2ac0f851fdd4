import Kotsadm.Operator.Connection

/-!
# ConnectionSteps — what a step of a channel can do

What each step puts into the queue or takes from it, how it moves the calls on, and what it leaves
alone.
-/

namespace Kotsadm.Operator.Connection

open GoString Protocol

/-! ## What a step puts into the queue -/

def Phase.command? : Phase → Option GoString
  | .encoded command | .putting command => some command
  | _ => none

def Sending.command? : Sending → Option GoString
  | .encoded command | .putting command => some command
  | .done => none

/-- What the loop took from the queue and has to write. -/
def OutLoop.held : OutLoop → List GoString
  | .writing msg => [msg]
  | _ => []

def Phase.puts : Phase → List GoString
  | .putting command => [command]
  | _ => []

def Sending.puts : Sending → List GoString
  | .putting command => [command]
  | _ => []

namespace Channel

/-- What the step sends to `c.out`, the message that closes it apart. -/
def puts (c : Channel) : Action → List GoString
  | .call k =>
    match c.calls[k]? with
    | some call => call.phase.puts
    | none => []
  | .send k =>
    match c.sends[k]? with
    | some sending => sending.puts
    | none => []
  | .reply => [pongMessage]
  | .ping => if c.pinger = .putting then [pingMessage] else []
  | _ => []

def queue (c : Channel) :
    List GoString × List GoString × Bool × OutLoop × List GoString × Option Closing :=
  (c.out, c.enqueued, c.alive, c.outLoop, c.wire, c.closing)

/-- The queue got `commands`, and was not touched otherwise. -/
structure QueueGrows (c c' : Channel) (commands : List GoString) : Prop where
  out : c'.out = c.out ++ commands
  enqueued : c'.enqueued = c.enqueued ++ commands
  alive : c'.alive = c.alive
  outLoop : c'.outLoop = c.outLoop
  wire : c'.wire = c.wire
  closing : c'.closing = c.closing

variable {c c' : Channel}

theorem queueGrows_nil (h : c'.queue = c.queue) : QueueGrows c c' [] := by
  unfold queue at h
  simp only [Prod.mk.injEq] at h
  obtain ⟨hout, henqueued, halive, houtLoop, hwire, hclosing⟩ := h
  exact ⟨by rw [hout, List.append_nil], by rw [henqueued, List.append_nil], halive, houtLoop, hwire,
    hclosing⟩

theorem puts_call {k : Nat} {call : Call} (h : c.calls[k]? = some call) :
    c.puts (.call k) = call.phase.puts := by
  simp only [puts, h]

theorem puts_send {k : Nat} {sending : Sending} (h : c.sends[k]? = some sending) :
    c.puts (.send k) = sending.puts := by
  simp only [puts, h]

theorem put_eq_some {command : GoString} (h : c.put command = some c') :
    c.out.length < queueBufferSize ∧
      c' = { c with out := c.out ++ [command], enqueued := c.enqueued ++ [command] } := by
  unfold put at h
  split at h
  next hlength => exact ⟨hlength, (Option.some.inj h).symm⟩
  next => cases h

theorem queue_send (c : Channel) (message : GoString → Message) (args : Marshalled) :
    QueueGrows c (c.send message args) [] := by
  unfold send
  split
  · split <;> exact queueGrows_nil rfl
  · exact queueGrows_nil rfl
  · exact queueGrows_nil rfl

theorem queue_stepCall {k : Nat} {call : Call} (hcall : c.calls[k]? = some call)
    (h : c.stepCall k call = some c') : QueueGrows c c' (c.puts (.call k)) := by
  rw [puts_call hcall]
  unfold stepCall at h
  split at h
  next hphase =>
    rw [hphase]
    cases h
    exact queueGrows_nil rfl
  next hphase =>
    rw [hphase]
    split at h
    · split at h <;> (cases h; exact queueGrows_nil rfl)
    · cases h
      exact queueGrows_nil rfl
    · cases h
      exact queueGrows_nil rfl
  next hphase =>
    rw [hphase]
    split at h <;> (cases h; exact queueGrows_nil rfl)
  next command hphase =>
    rw [hphase]
    obtain ⟨c₁, hput, rfl⟩ := Option.map_eq_some_iff.mp h
    obtain ⟨-, rfl⟩ := put_eq_some hput
    exact ⟨rfl, rfl, rfl, rfl, rfl, rfl⟩
  next hphase =>
    rw [hphase]
    cases h
    exact queueGrows_nil rfl
  next hphase =>
    rw [hphase]
    cases h
    exact queueGrows_nil rfl
  all_goals cases h

theorem queue_stepSend {k : Nat} {sending : Sending} (hsend : c.sends[k]? = some sending)
    (h : c.stepSend k sending = some c') : QueueGrows c c' (c.puts (.send k)) := by
  rw [puts_send hsend]
  unfold stepSend at h
  split at h
  next =>
    split at h <;> (cases h; exact queueGrows_nil rfl)
  next command =>
    obtain ⟨c₁, hput, rfl⟩ := Option.map_eq_some_iff.mp h
    obtain ⟨-, rfl⟩ := put_eq_some hput
    exact ⟨rfl, rfl, rfl, rfl, rfl, rfl⟩
  next => cases h

theorem queue_processIncomingMessage (c : Channel) (k : Nat) (msg : Message) (outcome : Outcome) :
    QueueGrows c (c.processIncomingMessage k msg outcome) [] := by
  unfold processIncomingMessage
  split
  · split
    · exact queueGrows_nil rfl
    · -- the answer is put later on
      have hsend := queue_send { c.setIncoming k .done with
        executed := c.executed ++ [⟨msg.ackId, msg.method, msg.args, ‹Marshalled›⟩] }
        (fun json => { type := .ackResponse, ackId := msg.ackId, args := json }) ‹Marshalled›
      exact ⟨hsend.out, hsend.enqueued, hsend.alive, hsend.outLoop, hsend.wire, hsend.closing⟩
  · split <;> exact queueGrows_nil rfl
  · exact queueGrows_nil rfl

/-- The actions that take from the queue, or close it. -/
def TakesOut : Action → Prop
  | .outLoop | .failWrite | .enterClose | .stepClose => True
  | _ => False

/-- Any other step puts into the queue what it has to. -/
theorem queue_of_step {a : Action} (h : c.step a = some c') (ha : ¬ TakesOut a) :
    QueueGrows c c' (c.puts a) := by
  cases a with
  | ack method args =>
    cases h
    exact queueGrows_nil rfl
  | emit method args =>
    cases h
    exact queue_send c _ args
  | call k =>
    obtain ⟨call, hcall, h⟩ := Option.bind_eq_some_iff.mp h
    exact queue_stepCall hcall h
  | timeout k =>
    obtain ⟨call, -, h⟩ := Option.bind_eq_some_iff.mp h
    unfold expire at h
    split at h
    · cases h
      exact queueGrows_nil rfl
    · cases h
  | send k =>
    obtain ⟨sending, hsend, h⟩ := Option.bind_eq_some_iff.mp h
    exact queue_stepSend hsend h
  | process k outcome =>
    unfold step at h
    dsimp only at h
    split at h
    · cases h
      exact queue_processIncomingMessage c k _ outcome
    · cases h
  | deliver k =>
    unfold step at h
    dsimp only at h
    split at h
    · unfold deliver at h
      obtain ⟨call, -, h⟩ := Option.bind_eq_some_iff.mp h
      split at h
      · cases h
        exact queueGrows_nil rfl
      · cases h
    · cases h
  | read header => cases h
  | failRead =>
    unfold step failRead at h
    dsimp only at h
    split at h
    · cases h
      exact queueGrows_nil rfl
    · cases h
  | reply =>
    unfold step reply at h
    dsimp only at h
    split at h
    · obtain ⟨c₁, hput, rfl⟩ := Option.map_eq_some_iff.mp h
      obtain ⟨-, rfl⟩ := put_eq_some hput
      exact ⟨rfl, rfl, rfl, rfl, rfl, rfl⟩
    · cases h
  | ping =>
    unfold step stepPinger at h
    unfold puts
    dsimp only at h ⊢
    split at h
    next hpinger =>
      rw [hpinger, if_neg (by decide)]
      split at h
      · cases h
      · split at h <;> (cases h; exact queueGrows_nil rfl)
    next hpinger =>
      rw [if_pos hpinger]
      obtain ⟨c₁, hput, rfl⟩ := Option.map_eq_some_iff.mp h
      obtain ⟨-, rfl⟩ := put_eq_some hput
      exact ⟨rfl, rfl, rfl, rfl, rfl, rfl⟩
    next => cases h
  | close =>
    cases h
    exact queueGrows_nil rfl
  | outLoop => exact absurd trivial ha
  | failWrite => exact absurd trivial ha
  | enterClose => exact absurd trivial ha
  | stepClose => exact absurd trivial ha

end Channel

/-! ## The calls -/

/-- The steps of one call. -/
inductive Call.Next : Call → Call → Prop
  | register {call : Call} (hphase : call.phase = .numbered) :
      Next call { call with phase := .registered }
  | encode {call : Call} (json command : GoString) (hphase : call.phase = .registered)
      (hargs : call.args = .text json) (hencode : encode (call.message json) = .ok command) :
      Next call { call with phase := .encoded command }
  | refuse {call : Call} (hphase : call.phase = .registered ∨ ∃ command, call.phase = .encoded command) :
      Next call { call with phase := .removing, sent := some .failed }
  | panic {call : Call} (hphase : call.phase = .registered) :
      Next call { call with phase := .selecting, sent := some .panicked }
  | check {call : Call} (command : GoString) (hphase : call.phase = .encoded command) :
      Next call { call with phase := .putting command }
  | put {call : Call} (command : GoString) (hphase : call.phase = .putting command) :
      Next call { call with phase := .selecting, sent := some .enqueued }
  | remove {call : Call} (hphase : call.phase = .removing) :
      Next call { call with phase := .selecting }
  | expire {call : Call} (hphase : call.phase = .selecting) :
      Next call { call with phase := .expired }
  | deliver {call : Call} (args : GoString) (hphase : call.phase = .selecting) :
      Next call { call with phase := .returned args }
  | giveUp {call : Call} (hphase : call.phase = .expired) :
      Next call { call with phase := .timedOut }

theorem Call.Next.kept {call call' : Call} (h : Call.Next call call') :
    call'.ackId = call.ackId ∧ call'.method = call.method ∧ call'.args = call.args := by
  cases h <;> exact ⟨rfl, rfl, rfl⟩

/-- What the step from here does to the waiters. -/
def Phase.changeWaiters (phase : Phase) (id : Int64) (k : Nat) (waiters : Dictionary Int64 Nat) :
    Dictionary Int64 Nat :=
  match phase with
  | .numbered => waiters.set id k
  | .removing | .expired => waiters.remove id
  | _ => waiters

namespace Channel

variable {c c' : Channel}

/-- A step of a call of the channel. -/
structure CallStep (c c' : Channel) (k : Nat) (call call' : Call) : Prop where
  found : c.calls[k]? = some call
  next : call.Next call'
  calls : c'.calls = c.calls.set k call'
  counter : c'.counter = c.counter
  waiters : c'.waiters = call.phase.changeWaiters call.ackId k c.waiters
  answer : ∀ result, call'.phase = .returned result →
    ∃ j : Nat, c.incoming[j]? = some (.delivering k result)

theorem callStep_stepCall {k : Nat} {call : Call} (hcall : c.calls[k]? = some call)
    (h : c.stepCall k call = some c') : ∃ call', CallStep c c' k call call' := by
  unfold stepCall at h
  split at h
  next hphase =>
    cases h
    exact ⟨_, hcall, .register hphase, rfl, rfl, by rw [hphase]; rfl,
      fun _ hreturned => by cases hreturned⟩
  next hphase =>
    have hsame : c.waiters = call.phase.changeWaiters call.ackId k c.waiters := by rw [hphase]; rfl
    split at h
    next json hargs =>
      split at h
      next command hencode =>
        cases h
        exact ⟨_, hcall, .encode json command hphase hargs hencode, rfl, rfl, hsame,
          fun _ hreturned => by cases hreturned⟩
      next =>
        cases h
        exact ⟨_, hcall, .refuse (.inl hphase), rfl, rfl, hsame,
          fun _ hreturned => by cases hreturned⟩
    next =>
      cases h
      exact ⟨_, hcall, .refuse (.inl hphase), rfl, rfl, hsame,
          fun _ hreturned => by cases hreturned⟩
    next =>
      cases h
      exact ⟨_, hcall, .panic hphase, rfl, rfl, hsame,
          fun _ hreturned => by cases hreturned⟩
  next command hphase =>
    have hsame : c.waiters = call.phase.changeWaiters call.ackId k c.waiters := by rw [hphase]; rfl
    split at h
    next =>
      cases h
      exact ⟨_, hcall, .refuse (.inr ⟨command, hphase⟩), rfl, rfl, hsame,
          fun _ hreturned => by cases hreturned⟩
    next =>
      cases h
      exact ⟨_, hcall, .check command hphase, rfl, rfl, hsame,
          fun _ hreturned => by cases hreturned⟩
  next command hphase =>
    obtain ⟨c₁, hput, rfl⟩ := Option.map_eq_some_iff.mp h
    obtain ⟨-, rfl⟩ := put_eq_some hput
    exact ⟨_, hcall, .put command hphase, rfl, rfl, by rw [hphase]; rfl,
      fun _ hreturned => by cases hreturned⟩
  next hphase =>
    cases h
    exact ⟨_, hcall, .remove hphase, rfl, rfl, by rw [hphase]; rfl,
      fun _ hreturned => by cases hreturned⟩
  next hphase =>
    cases h
    exact ⟨_, hcall, .giveUp hphase, rfl, rfl, by rw [hphase]; rfl,
      fun _ hreturned => by cases hreturned⟩
  all_goals cases h

/-! ## What a step leaves alone -/

def ledger (c : Channel) : List Call × Int64 × Dictionary Int64 Nat :=
  (c.calls, c.counter, c.waiters)

def answering (c : Channel) : List Sending × List Execution := (c.sends, c.executed)

def StepsCalls : Action → Prop
  | .ack _ _ | .call _ | .timeout _ | .deliver _ => True
  | _ => False

def StepsSends : Action → Prop
  | .emit _ _ | .send _ | .process _ _ => True
  | _ => False

def StepsIncoming : Action → Prop
  | .process _ _ | .deliver _ => True
  | _ => False

/-- The rest of the channel is as it was. -/
structure Frame (c c' : Channel) (calls sends incoming : Prop) : Prop where
  ledger : ¬ calls → c'.ledger = c.ledger
  answering : ¬ sends → c'.answering = c.answering
  incoming : ¬ incoming → c'.incoming = c.incoming
  read : c'.read = c.read
  panicked : c'.inLoop = .panicked → c.inLoop = .panicked

theorem frame_stepCall {k : Nat} {call : Call} (h : c.stepCall k call = some c') :
    Frame c c' True False False := by
  unfold stepCall at h
  split at h
  case h_1 =>
    cases h
    exact ⟨absurd trivial, fun _ => rfl, fun _ => rfl, rfl, id⟩
  case h_2 =>
    split at h
    · split at h <;> (cases h; exact ⟨absurd trivial, fun _ => rfl, fun _ => rfl, rfl, id⟩)
    · cases h
      exact ⟨absurd trivial, fun _ => rfl, fun _ => rfl, rfl, id⟩
    · cases h
      exact ⟨absurd trivial, fun _ => rfl, fun _ => rfl, rfl, id⟩
  case h_3 =>
    split at h <;> (cases h; exact ⟨absurd trivial, fun _ => rfl, fun _ => rfl, rfl, id⟩)
  case h_4 =>
    obtain ⟨c₁, hput, rfl⟩ := Option.map_eq_some_iff.mp h
    obtain ⟨-, rfl⟩ := put_eq_some hput
    exact ⟨absurd trivial, fun _ => rfl, fun _ => rfl, rfl, id⟩
  case h_5 =>
    cases h
    exact ⟨absurd trivial, fun _ => rfl, fun _ => rfl, rfl, id⟩
  case h_6 =>
    cases h
    exact ⟨absurd trivial, fun _ => rfl, fun _ => rfl, rfl, id⟩
  all_goals cases h

theorem frame_send (c : Channel) (message : GoString → Message) (args : Marshalled) :
    Frame c (c.send message args) False True False := by
  unfold send
  split
  · split <;> exact ⟨fun _ => rfl, absurd trivial, fun _ => rfl, rfl, id⟩
  · exact ⟨fun _ => rfl, absurd trivial, fun _ => rfl, rfl, id⟩
  · exact ⟨fun _ => rfl, absurd trivial, fun _ => rfl, rfl, id⟩

theorem frame_stepSend {k : Nat} {sending : Sending} (h : c.stepSend k sending = some c') :
    Frame c c' False True False := by
  unfold stepSend at h
  split at h
  · split at h <;> (cases h; exact ⟨fun _ => rfl, absurd trivial, fun _ => rfl, rfl, id⟩)
  · obtain ⟨c₁, hput, rfl⟩ := Option.map_eq_some_iff.mp h
    obtain ⟨-, rfl⟩ := put_eq_some hput
    exact ⟨fun _ => rfl, absurd trivial, fun _ => rfl, rfl, id⟩
  · cases h

theorem frame_processIncomingMessage (c : Channel) (k : Nat) (msg : Message) (outcome : Outcome) :
    Frame c (c.processIncomingMessage k msg outcome) False True True := by
  unfold processIncomingMessage
  split
  · split
    · exact ⟨fun _ => rfl, absurd trivial, absurd trivial, rfl, id⟩
    · have hsend := frame_send { c.setIncoming k .done with
        executed := c.executed ++ [⟨msg.ackId, msg.method, msg.args, ‹Marshalled›⟩] }
        (fun json => { type := .ackResponse, ackId := msg.ackId, args := json }) ‹Marshalled›
      exact ⟨hsend.ledger, absurd trivial, absurd trivial, hsend.read, hsend.panicked⟩
  · split <;> exact ⟨fun _ => rfl, absurd trivial, absurd trivial, rfl, id⟩
  · exact ⟨fun _ => rfl, absurd trivial, absurd trivial, rfl, id⟩

/-- The channel when a method was called for an ack request. -/
def execute (c : Channel) (k : Nat) (msg : Message) (result : Marshalled) : Channel :=
  { c.setIncoming k .done with
    executed := c.executed ++ [⟨msg.ackId, msg.method, msg.args, result⟩] }

/-- A message is only answered when its method was called. -/
theorem processIncomingMessage_cases (c : Channel) (k : Nat) (msg : Message) (outcome : Outcome) :
    (c.processIncomingMessage k msg outcome).answering = c.answering ∨
    (msg.type = .ackRequest ∧ ∃ result, c.processIncomingMessage k msg outcome =
      (c.execute k msg result).send
        (fun json => { type := .ackResponse, ackId := msg.ackId, args := json }) result) := by
  unfold processIncomingMessage
  split
  next htype =>
    cases outcome with
    | ignored => exact .inl rfl
    | called result => exact .inr ⟨htype, result, rfl⟩
  next =>
    left
    split <;> rfl
  next => exact .inl rfl

/-- The steps that touch neither calls nor answers nor messages. -/
theorem frame_loop (h : c.stepOutLoop = some c' ∨ c.failWrite = some c' ∨ c.failRead = some c' ∨
    c.reply = some c' ∨ c.stepPinger = some c' ∨ c.enterClose = some c' ∨
    c.closing.bind c.stepClose = some c') : Frame c c' False False False := by
  suffices hsame : c'.ledger = c.ledger ∧ c'.answering = c.answering ∧ c'.incoming = c.incoming ∧
      c'.read = c.read ∧ (c'.inLoop = .panicked → c.inLoop = .panicked) from
    ⟨fun _ => hsame.1, fun _ => hsame.2.1, fun _ => hsame.2.2.1, hsame.2.2.2.1, hsame.2.2.2.2⟩
  rcases h with h | h | h | h | h | h | h
  · unfold stepOutLoop at h
    split at h
    · split at h <;> (cases h; exact ⟨rfl, rfl, rfl, rfl, id⟩)
    · split at h
      · cases h
      · split at h <;> (cases h; exact ⟨rfl, rfl, rfl, rfl, id⟩)
    · split at h
      · cases h
        exact ⟨rfl, rfl, rfl, rfl, id⟩
      · cases h
    · cases h
  · unfold failWrite at h
    split at h
    · cases h
      exact ⟨rfl, rfl, rfl, rfl, id⟩
    · cases h
  · unfold failRead at h
    split at h
    · cases h
      exact ⟨rfl, rfl, rfl, rfl, fun hinLoop => by cases hinLoop⟩
    · cases h
  · unfold reply at h
    split at h
    · obtain ⟨c₁, hput, rfl⟩ := Option.map_eq_some_iff.mp h
      obtain ⟨-, rfl⟩ := put_eq_some hput
      exact ⟨rfl, rfl, rfl, rfl, fun hinLoop => by cases hinLoop⟩
    · cases h
  · unfold stepPinger at h
    split at h
    · split at h
      · cases h
      · split at h <;> (cases h; exact ⟨rfl, rfl, rfl, rfl, id⟩)
    · obtain ⟨c₁, hput, rfl⟩ := Option.map_eq_some_iff.mp h
      obtain ⟨-, rfl⟩ := put_eq_some hput
      exact ⟨rfl, rfl, rfl, rfl, id⟩
    · cases h
  · unfold enterClose at h
    split at h
    · cases h
    · split at h <;> (cases h; exact ⟨rfl, rfl, rfl, rfl, id⟩)
  · obtain ⟨closing, -, h⟩ := Option.bind_eq_some_iff.mp h
    cases closing with
    | checking =>
      dsimp only [stepClose] at h
      split at h <;> (cases h; exact ⟨rfl, rfl, rfl, rfl, id⟩)
    | receiving =>
      dsimp only [stepClose] at h
      split at h
      · cases h
      · cases h
        exact ⟨rfl, rfl, rfl, rfl, id⟩
    | putting =>
      dsimp only [stepClose] at h
      split at h
      · cases h
        exact ⟨rfl, rfl, rfl, rfl, id⟩
      · cases h

theorem frame_of_step {a : Action} (h : c.step a = some c') :
    Frame c c' (StepsCalls a) (StepsSends a) (StepsIncoming a) := by
  cases a with
  | ack method args =>
    cases h
    exact ⟨absurd trivial, fun _ => rfl, fun _ => rfl, rfl, id⟩
  | emit method args =>
    cases h
    exact frame_send _ _ _
  | call k =>
    obtain ⟨call, -, h⟩ := Option.bind_eq_some_iff.mp h
    exact frame_stepCall h
  | timeout k =>
    obtain ⟨call, -, h⟩ := Option.bind_eq_some_iff.mp h
    unfold expire at h
    split at h
    · cases h
      exact ⟨absurd trivial, fun _ => rfl, fun _ => rfl, rfl, id⟩
    · cases h
  | send k =>
    obtain ⟨sending, -, h⟩ := Option.bind_eq_some_iff.mp h
    exact frame_stepSend h
  | process k outcome =>
    unfold step at h
    dsimp only at h
    split at h
    · cases h
      exact frame_processIncomingMessage _ _ _ _
    · cases h
  | deliver k =>
    unfold step at h
    dsimp only at h
    split at h
    · unfold deliver at h
      obtain ⟨call, -, h⟩ := Option.bind_eq_some_iff.mp h
      split at h
      · cases h
        exact ⟨absurd trivial, fun _ => rfl, absurd trivial, rfl, id⟩
      · cases h
    · cases h
  | read header => cases h
  | close =>
    cases h
    exact ⟨fun _ => rfl, fun _ => rfl, fun _ => rfl, rfl, id⟩
  | outLoop => exact frame_loop (.inl h)
  | failWrite => exact frame_loop (.inr (.inl h))
  | failRead => exact frame_loop (.inr (.inr (.inl h)))
  | reply => exact frame_loop (.inr (.inr (.inr (.inl h))))
  | ping => exact frame_loop (.inr (.inr (.inr (.inr (.inl h)))))
  | enterClose => exact frame_loop (.inr (.inr (.inr (.inr (.inr (.inl h))))))
  | stepClose => exact frame_loop (.inr (.inr (.inr (.inr (.inr (.inr h))))))

/-- **The steps of the calls.**  A step begins a call, is a step of one, or leaves them alone. -/
theorem calls_of_step {a : Action} (h : c.step a = some c') :
    (¬ StepsCalls a ∧ c'.ledger = c.ledger) ∨ (∃ method args, a = .ack method args ∧ c' = c.ack method args) ∨
      ∃ k call call', CallStep c c' k call call' ∧ c.puts a = call.phase.puts := by
  by_cases ha : StepsCalls a
  · right
    cases a with
    | ack method args =>
      cases h
      exact .inl ⟨method, args, rfl, rfl⟩
    | call k =>
      obtain ⟨call, hcall, h⟩ := Option.bind_eq_some_iff.mp h
      obtain ⟨call', hstep⟩ := callStep_stepCall hcall h
      exact .inr ⟨k, call, call', hstep, puts_call hcall⟩
    | timeout k =>
      obtain ⟨call, hcall, h⟩ := Option.bind_eq_some_iff.mp h
      unfold expire at h
      split at h
      next hphase =>
        cases h
        refine .inr ⟨k, call, _, ⟨hcall, .expire hphase, rfl, rfl, ?_,
          fun _ hreturned => by cases hreturned⟩, ?_⟩
        · rw [hphase]
          rfl
        · rw [hphase]
          rfl
      next => cases h
    | deliver k =>
      unfold step at h
      dsimp only at h
      split at h
      next w args hincoming =>
        unfold deliver at h
        obtain ⟨call, hcall, h⟩ := Option.bind_eq_some_iff.mp h
        split at h
        next hphase =>
          cases h
          refine .inr ⟨w, call, _, ⟨hcall, .deliver args hphase, rfl, rfl, ?_, ?_⟩, ?_⟩
          · rw [hphase]
            rfl
          · intro result hreturned
            cases hreturned
            exact ⟨k, hincoming⟩
          · rw [hphase]
            rfl
        next => cases h
      next => cases h
    | _ => exact absurd ha id
  · exact .inl ⟨ha, (frame_of_step h).ledger ha⟩

/-- A step of the goroutine of a message. -/
inductive IncomingStep (c c' : Channel) : Incoming → Incoming → Prop
  | ignored (msg : Message) (hexecuted : c'.executed = c.executed) :
      IncomingStep c c' (.received msg) .done
  | called (msg : Message) (result : Marshalled) (htype : msg.type = .ackRequest)
      (hexecuted : c'.executed = c.executed ++ [⟨msg.ackId, msg.method, msg.args, result⟩]) :
      IncomingStep c c' (.received msg) .done
  | found (msg : Message) (w : Nat) (htype : msg.type = .ackResponse)
      (hwaiter : c.waiters.get msg.ackId = some w) (hexecuted : c'.executed = c.executed) :
      IncomingStep c c' (.received msg) (.delivering w msg.args)
  | delivered (w : Nat) (args : GoString) (hexecuted : c'.executed = c.executed) :
      IncomingStep c c' (.delivering w args) .done

theorem send_executed (c : Channel) (message : GoString → Message) (args : Marshalled) :
    (c.send message args).executed = c.executed ∧ (c.send message args).incoming = c.incoming := by
  unfold send
  split
  · split <;> exact ⟨rfl, rfl⟩
  · exact ⟨rfl, rfl⟩
  · exact ⟨rfl, rfl⟩

theorem incomingStep_process (c : Channel) (k : Nat) (msg : Message) (outcome : Outcome) :
    ∃ new, (c.processIncomingMessage k msg outcome).incoming = c.incoming.set k new ∧
      IncomingStep c (c.processIncomingMessage k msg outcome) (.received msg) new := by
  unfold processIncomingMessage
  split
  next htype =>
    cases outcome with
    | ignored => exact ⟨.done, rfl, .ignored msg rfl⟩
    | called result =>
      obtain ⟨hexecuted, hincoming⟩ := send_executed (c.execute k msg result)
        (fun json => { type := .ackResponse, ackId := msg.ackId, args := json }) result
      exact ⟨.done, hincoming, .called msg result htype hexecuted⟩
  next htype =>
    split
    next w hwaiter => exact ⟨_, rfl, .found msg w htype hwaiter rfl⟩
    next => exact ⟨.done, rfl, .ignored msg rfl⟩
  next => exact ⟨.done, rfl, .ignored msg rfl⟩

/-- **The steps of the messages.** -/
theorem incoming_of_step {a : Action} (h : c.step a = some c') :
    (c'.incoming = c.incoming ∧ c'.executed = c.executed) ∨
      ∃ k old new, c.incoming[k]? = some old ∧ c'.incoming = c.incoming.set k new ∧
        IncomingStep c c' old new := by
  have hframe := frame_of_step h
  cases a with
  | process k outcome =>
    right
    unfold step at h
    dsimp only at h
    split at h
    next msg hincoming =>
      cases h
      obtain ⟨new, hset, hstep⟩ := incomingStep_process c k msg outcome
      exact ⟨k, _, new, hincoming, hset, hstep⟩
    next => cases h
  | deliver k =>
    right
    unfold step at h
    dsimp only at h
    split at h
    next w args hincoming =>
      unfold deliver at h
      obtain ⟨call, -, h⟩ := Option.bind_eq_some_iff.mp h
      split at h
      · cases h
        exact ⟨k, _, .done, hincoming, rfl, .delivered w args rfl⟩
      · cases h
    next => cases h
  | emit method args =>
    cases h
    obtain ⟨hexecuted, hincoming⟩ := send_executed c
      (fun json => { type := .emit, method := method, args := json }) args
    exact .inl ⟨hincoming, hexecuted⟩
  | send k =>
    left
    obtain ⟨sending, -, h⟩ := Option.bind_eq_some_iff.mp h
    unfold stepSend at h
    split at h
    · split at h <;> (cases h; exact ⟨rfl, rfl⟩)
    · obtain ⟨c₁, hput, rfl⟩ := Option.map_eq_some_iff.mp h
      obtain ⟨-, rfl⟩ := put_eq_some hput
      exact ⟨rfl, rfl⟩
    · cases h
  | _ => exact .inl ⟨hframe.incoming id, (Prod.mk.inj (hframe.answering id)).2⟩

/-! ## Reading -/

/-- The packets that were taken from the queue or are in it, in their order. -/
def outgoing (c : Channel) : List GoString := c.wire ++ (c.outLoop.held ++ c.out)

structure ReadStep (c c' : Channel) (pkg : GoString) : Prop where
  alive : c.alive = true
  queue : c'.queue = c.queue
  ledger : c'.ledger = c.ledger
  answering : c'.answering = c.answering
  read : c'.read = c.read ++ [pkg]
  incoming : c'.incoming = c.incoming ∨
    ∃ msg, decode pkg = .ok msg ∧ c'.incoming = c.incoming ++ [.received msg]
  panicked : c'.inLoop = .panicked → decode pkg = .error .panic
  events : c'.events = c.events ∨ c'.events = c.events ++ ["connection"]

theorem readStep_of_readMessage {pkg : GoString} {header : Bool}
    (h : c.readMessage pkg header = some c') : ReadStep c c' pkg := by
  unfold readMessage at h
  split at h
  next hreading =>
    have hinLoop : ¬ c.inLoop = .panicked := by
      rw [hreading.2]
      decide
    dsimp only at h
    split at h
    next hdecode =>
      cases h
      exact ⟨hreading.1, rfl, rfl, rfl, rfl, .inl rfl, fun _ => hdecode, .inl rfl⟩
    next =>
      cases h
      exact ⟨hreading.1, rfl, rfl, rfl, rfl, .inl rfl, fun hend => (by cases hend),
        .inl rfl⟩
    next msg hdecode =>
      split at h
      next =>
        cases h
        cases header
        · exact ⟨hreading.1, rfl, rfl, rfl, rfl, .inl rfl, (absurd · hinLoop),
          .inr rfl⟩
        · exact ⟨hreading.1, rfl, rfl, rfl, rfl, .inl rfl, (absurd · hinLoop),
          .inr rfl⟩
      next =>
        cases h
        exact ⟨hreading.1, rfl, rfl, rfl, rfl, .inl rfl, fun hend => (by cases hend),
        .inl rfl⟩
      next =>
        cases h
        exact ⟨hreading.1, rfl, rfl, rfl, rfl, .inl rfl, (absurd · hinLoop),
          .inl rfl⟩
      next =>
        cases h
        exact ⟨hreading.1, rfl, rfl, rfl, rfl, .inr ⟨msg, hdecode, rfl⟩, (absurd · hinLoop),
          .inl rfl⟩
  next => cases h

/-! ## Taking from the queue -/

/-- A step of the outgoing loop, or of the goroutine that closes the channel. -/
structure TakeStep (c c' : Channel) : Prop where
  enqueued : c'.enqueued = c.enqueued
  outgoing : List.Sublist c'.outgoing c.outgoing ∨ c'.outgoing = c.outgoing ++ [closeMessage]
  wire : c'.wire = c.wire ∨
    ∃ msg, c.alive = true ∧ c.outLoop = .writing msg ∧ c'.wire = c.wire ++ [msg]
  alive : c'.alive = true → c.alive = true
  closing : c'.closing ≠ none → c'.alive = false ∨ c.closing ≠ none
  -- nothing is lost before the loop ends
  kept : c'.alive = true → c'.outLoop ≠ .ended → c.closing = none →
    c.alive = true ∧ c.outLoop ≠ .ended ∧ c'.outgoing = c.outgoing

theorem takeStep_stepOutLoop (h : c.stepOutLoop = some c') : TakeStep c c' := by
  unfold stepOutLoop at h
  split at h
  next houtLoop =>
    have houtgoing : c.outgoing = c.wire ++ c.out := by
      unfold outgoing
      rw [houtLoop]
      rfl
    split at h
    next =>
      cases h
      refine ⟨rfl, .inl ?_, .inl rfl, id, .inr, fun _ hend => absurd rfl hend⟩
      rw [houtgoing]
      exact List.Sublist.refl _
    next =>
      cases h
      have hsame : ({ c with outLoop := .receiving } : Channel).outgoing = c.outgoing :=
        houtgoing.symm
      refine ⟨rfl, .inl (hsame ▸ List.Sublist.refl _), .inl rfl, id, .inr,
        fun halive _ _ => ⟨halive, ?_, hsame⟩⟩
      rw [houtLoop]
      decide
  next houtLoop =>
    have houtgoing : c.outgoing = c.wire ++ c.out := by
      unfold outgoing
      rw [houtLoop]
      rfl
    split at h
    next => cases h
    next msg out hout =>
      split at h
      next =>
        cases h
        refine ⟨rfl, .inl ?_, .inl rfl, id, .inr, fun _ hend => absurd rfl hend⟩
        rw [houtgoing, hout]
        exact List.Sublist.append_left (List.sublist_cons_self _ _) _
      next =>
        cases h
        have hsame : ({ c with out := out, outLoop := .writing msg } : Channel).outgoing =
            c.outgoing := by
          rw [houtgoing, hout]
          rfl
        refine ⟨rfl, .inl (hsame ▸ List.Sublist.refl _), .inl rfl, id, .inr,
          fun halive _ _ => ⟨halive, ?_, hsame⟩⟩
        rw [houtLoop]
        decide
  next msg houtLoop =>
    split at h
    next halive =>
      cases h
      have hsame : ({ c with wire := c.wire ++ [msg], outLoop := .checking } : Channel).outgoing =
          c.outgoing := by
        unfold outgoing
        rw [houtLoop]
        exact List.append_assoc _ _ _
      refine ⟨rfl, .inl (hsame ▸ List.Sublist.refl _), .inr ⟨msg, halive, houtLoop, rfl⟩, id, .inr,
        fun _ _ _ => ⟨halive, ?_, hsame⟩⟩
      rw [houtLoop]
      exact fun hend => by cases hend
    next => cases h
  next => cases h

theorem takeStep_failWrite (h : c.failWrite = some c') : TakeStep c c' := by
  unfold failWrite at h
  split at h
  next msg houtLoop =>
    cases h
    refine ⟨rfl, .inl ?_, .inl rfl, id, .inr, fun _ hend => absurd rfl hend⟩
    unfold outgoing
    rw [houtLoop]
    exact List.Sublist.append_left (List.sublist_cons_self _ _) _
  next => cases h

theorem takeStep_enterClose (h : c.enterClose = some c') : TakeStep c c' := by
  unfold enterClose at h
  split at h
  · cases h
  · split at h
    next =>
      cases h
      exact ⟨rfl, .inl (List.Sublist.refl _), .inl rfl, (by cases ·), fun _ => .inl rfl,
        (by cases ·)⟩
    next hclosed =>
      cases h
      exact ⟨rfl, .inl (List.Sublist.refl _), .inl rfl, id, .inr, (absurd · hclosed)⟩

theorem takeStep_stepClose {closing : Closing} (hclosing : c.closing = some closing)
    (h : c.stepClose closing = some c') : TakeStep c c' := by
  have hkept : c.closing = none → c.alive = true ∧ c.outLoop ≠ .ended ∧
      c'.outgoing = c.outgoing := by
    intro hnone
    rw [hclosing] at hnone
    cases hnone
  have hsome : c'.closing ≠ none → c'.alive = false ∨ c.closing ≠ none := by
    rw [hclosing]
    exact fun _ => .inr (Option.some_ne_none closing)
  cases closing with
  | checking =>
    dsimp only [stepClose] at h
    split at h <;>
      (cases h; exact ⟨rfl, .inl (List.Sublist.refl _), .inl rfl, id, hsome, fun _ _ => hkept⟩)
  | receiving =>
    dsimp only [stepClose] at h
    split at h
    next => cases h
    next msg out hout =>
      cases h
      refine ⟨rfl, .inl ?_, .inl rfl, id, hsome, fun _ _ => hkept⟩
      unfold outgoing
      rw [hout]
      exact List.Sublist.append_left (List.Sublist.append_left (List.sublist_cons_self _ _) _) _
  | putting =>
    dsimp only [stepClose] at h
    split at h
    next =>
      cases h
      refine ⟨rfl, .inr ?_, .inl rfl, id, hsome, fun _ _ => hkept⟩
      show c.wire ++ (c.outLoop.held ++ (c.out ++ [closeMessage])) =
        c.wire ++ (c.outLoop.held ++ c.out) ++ [closeMessage]
      simp only [List.append_assoc]
    next => cases h

theorem takeStep_of_step {a : Action} (h : c.step a = some c') (ha : TakesOut a) :
    TakeStep c c' := by
  cases a with
  | outLoop => exact takeStep_stepOutLoop h
  | failWrite => exact takeStep_failWrite h
  | enterClose => exact takeStep_enterClose h
  | stepClose =>
    obtain ⟨closing, hclosing, h⟩ := Option.bind_eq_some_iff.mp h
    exact takeStep_stepClose hclosing h
  | _ => exact absurd ha id

end Channel

end Kotsadm.Operator.Connection
