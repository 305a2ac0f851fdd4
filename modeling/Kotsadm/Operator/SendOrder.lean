import Kotsadm.Operator.ConnectionSteps
import Kotsadm.Operator.InLoop
import Kotsadm.Operator.ProtocolRoundTrip

/-!
# SendOrder — what is sent arrives in order

Whatever the goroutines of the two ends do, an end has read a prefix of what the other put into its
queue; nothing between the two is lost as long as the other end writes.
-/

namespace Kotsadm.Operator.Connection

open GoString Protocol

/-! ## Where a command comes from -/

/-- The command of a call. -/
def Call.Encodes (call : Call) (command : GoString) : Prop :=
  ∃ json, call.args = .text json ∧ encode (call.message json) = .ok command

/-- `send` has not returned. -/
def Phase.unsent : Phase → Bool
  | .numbered | .registered | .encoded _ | .putting _ => true
  | _ => false

structure Call.Good (call : Call) : Prop where
  command : ∀ command, call.phase.command? = some command → call.Encodes command
  unsent : call.phase.unsent = true → call.sent = none
  sent : call.phase.unsent = false → call.sent ≠ none
  removing : call.phase = .removing → call.sent = some .failed

theorem Call.good_of_unsent {call : Call} (hunsent : call.phase.unsent = true)
    (hsent : call.sent = none)
    (hcommand : ∀ command, call.phase.command? = some command → call.Encodes command) :
    call.Good where
  command := hcommand
  unsent := fun _ => hsent
  sent := by
    rw [hunsent]
    exact fun h => by cases h
  removing := by
    intro hphase
    rw [hphase] at hunsent
    cases hunsent

theorem Call.good_of_sent {call : Call} (hunsent : call.phase.unsent = false)
    (hsent : call.sent ≠ none) (hremoving : call.phase = .removing → call.sent = some .failed) :
    call.Good where
  command := by
    intro command hcommand
    cases hphase : call.phase with
    | encoded _ | putting _ =>
      rw [hphase] at hunsent
      cases hunsent
    | _ =>
      rw [hphase] at hcommand
      cases hcommand
  unsent := by
    rw [hunsent]
    exact fun h => by cases h
  sent := fun _ => hsent
  removing := hremoving

theorem Call.good_next {call call' : Call} (h : call.Good) (hnext : call.Next call') :
    call'.Good := by
  cases hnext with
  | register hphase =>
    exact good_of_unsent rfl (h.unsent (by rw [hphase]; rfl)) fun _ hcommand => by cases hcommand
  | encode json command hphase hargs hencode =>
    refine good_of_unsent rfl (h.unsent (by rw [hphase]; rfl)) fun _ hcommand => ?_
    cases hcommand
    exact ⟨json, hargs, hencode⟩
  | refuse hphase => exact good_of_sent rfl (Option.some_ne_none _) fun _ => rfl
  | panic hphase => exact good_of_sent rfl (Option.some_ne_none _) fun h => by cases h
  | check command hphase =>
    refine good_of_unsent rfl (h.unsent (by rw [hphase]; rfl)) fun _ hcommand => ?_
    cases hcommand
    exact h.command command (by rw [hphase]; rfl)
  | put command hphase => exact good_of_sent rfl (Option.some_ne_none _) fun h => by cases h
  | remove hphase | expire hphase | giveUp hphase =>
    exact good_of_sent rfl (h.sent (by rw [hphase]; rfl)) fun h => by cases h
  | deliver args hphase =>
    exact good_of_sent rfl (h.sent (by rw [hphase]; rfl)) fun h => by cases h

/-- What was sent stays sent. -/
theorem Call.Next.sent_kept {call call' : Call} (h : call.Good) (hnext : call.Next call')
    (hsent : call.sent = some .enqueued) : call'.sent = some .enqueued := by
  have hunsent : ¬ call.phase.unsent = true := by
    intro hunsent
    rw [h.unsent hunsent] at hsent
    cases hsent
  cases hnext with
  | refuse hphase =>
    rcases hphase with hphase | ⟨command, hphase⟩
    · exact absurd (by rw [hphase]; rfl) hunsent
    · exact absurd (by rw [hphase]; rfl) hunsent
  | panic hphase => exact absurd (by rw [hphase]; rfl) hunsent
  | put command hphase => rfl
  | _ => exact hsent

theorem Call.Next.encodes {call call' : Call} (hnext : call.Next call') {command : GoString} :
    call'.Encodes command ↔ call.Encodes command := by
  obtain ⟨hackId, hmethod, hargs⟩ := hnext.kept
  unfold Call.Encodes Call.message
  rw [hackId, hmethod, hargs]

/-- The command that answers what was executed. -/
def Execution.Answers (e : Execution) (command : GoString) : Prop :=
  ∃ json, e.result = .text json ∧
    encode { type := .ackResponse, ackId := e.ackId, args := json } = .ok command

def Emits (command : GoString) : Prop :=
  ∃ method json, encode { type := .emit, method := method, args := json } = .ok command

/-- The commands of the loops, and of `SendOpenSequence`. -/
def Control (command : GoString) : Prop :=
  command = pingMessage ∨ command = pongMessage ∨ command = emptyMessage ∨
    ∃ header, command = openMessage ++ header

namespace Channel

def Sends (c : Channel) (command : GoString) : Prop :=
  Emits command ∨ ∃ e ∈ c.executed, e.Answers command

def Calls (c : Channel) (command : GoString) : Prop :=
  ∃ call ∈ c.calls, call.sent = some .enqueued ∧ call.Encodes command

structure Commands (c : Channel) : Prop where
  calls : ∀ call ∈ c.calls, call.Good
  sends : ∀ sending ∈ c.sends, ∀ command, sending.command? = some command → c.Sends command
  enqueued : ∀ command ∈ c.enqueued, Control command ∨ c.Sends command ∨ c.Calls command

variable {c c' : Channel}

theorem Sends.mono {command : GoString} (h : c.Sends command) {e : List Execution}
    (hexecuted : c'.executed = c.executed ++ e) : c'.Sends command := by
  rcases h with h | ⟨execution, hmem, h⟩
  · exact .inl h
  · refine .inr ⟨execution, ?_, h⟩
    rw [hexecuted]
    exact List.mem_append_left _ hmem

theorem sends_send (c : Channel) (message : GoString → Message) (args : Marshalled)
    (hmessage : ∀ json command, args = .text json → encode (message json) = .ok command →
      (c.send message args).Sends command) :
    (c.send message args).executed = c.executed ∧
      ∀ sending ∈ (c.send message args).sends, ∀ command, sending.command? = some command →
        (∃ old ∈ c.sends, old.command? = some command) ∨ (c.send message args).Sends command := by
  unfold send at hmessage ⊢
  split
  next json =>
    split
    next command hencode =>
      refine ⟨rfl, ?_⟩
      intro sending hmem command' hcommand
      rcases List.mem_append.mp hmem with hmem | hmem
      · exact .inl ⟨sending, hmem, hcommand⟩
      · rw [List.mem_singleton] at hmem
        subst hmem
        cases hcommand
        right
        have hsends := hmessage json command rfl hencode
        dsimp only at hsends
        rw [hencode] at hsends
        exact hsends
    next => exact ⟨rfl, fun sending hmem command hcommand => .inl ⟨sending, hmem, hcommand⟩⟩
  next => exact ⟨rfl, fun sending hmem command hcommand => .inl ⟨sending, hmem, hcommand⟩⟩
  next => exact ⟨rfl, fun sending hmem command hcommand => .inl ⟨sending, hmem, hcommand⟩⟩

/-- What the step of an answering goroutine has to send is an emit or an answer. -/
theorem sends_of_step {a : Action} (h : c.step a = some c') :
    (∃ e, c'.executed = c.executed ++ e) ∧
      ∀ sending ∈ c'.sends, ∀ command, sending.command? = some command →
        (∃ old ∈ c.sends, old.command? = some command) ∨ c'.Sends command := by
  have hsame : c'.answering = c.answering → (∃ e, c'.executed = c.executed ++ e) ∧
      ∀ sending ∈ c'.sends, ∀ command, sending.command? = some command →
        (∃ old ∈ c.sends, old.command? = some command) ∨ c'.Sends command := by
    intro hanswering
    obtain ⟨hsends, hexecuted⟩ := Prod.mk.inj hanswering
    refine ⟨⟨[], by rw [hexecuted, List.append_nil]⟩, fun sending hmem command hcommand => ?_⟩
    exact .inl ⟨sending, hsends ▸ hmem, hcommand⟩
  by_cases ha : StepsSends a
  · cases a with
    | emit method args =>
      cases h
      obtain ⟨hexecuted, hsends⟩ := sends_send c
        (fun json => { type := .emit, method := method, args := json }) args
        fun json command _ hencode => .inl ⟨method, json, hencode⟩
      exact ⟨⟨[], by rw [List.append_nil]; exact hexecuted⟩, hsends⟩
    | send k =>
      obtain ⟨sending, hsending, h⟩ := Option.bind_eq_some_iff.mp h
      have hmem := List.mem_of_getElem? hsending
      have hset : ∀ sending', c'.executed = c.executed → c'.sends = c.sends.set k sending' →
          (∀ command, sending'.command? = some command → sending.command? = some command) →
          (∃ e, c'.executed = c.executed ++ e) ∧
            ∀ sending ∈ c'.sends, ∀ command, sending.command? = some command →
              (∃ old ∈ c.sends, old.command? = some command) ∨ c'.Sends command := by
        intro sending' hexecuted hsends hcommand
        refine ⟨⟨[], by rw [hexecuted, List.append_nil]⟩, fun other hother command hother' => ?_⟩
        rw [hsends] at hother
        rcases List.mem_or_eq_of_mem_set hother with hold | rfl
        · exact .inl ⟨other, hold, hother'⟩
        · exact .inl ⟨sending, hmem, hcommand command hother'⟩
      unfold stepSend at h
      split at h
      next =>
        split at h
        · cases h
          exact hset .done rfl rfl fun _ hcommand => by cases hcommand
        · cases h
          exact hset _ rfl rfl fun _ hcommand => hcommand
      next =>
        obtain ⟨c₁, hput, rfl⟩ := Option.map_eq_some_iff.mp h
        obtain ⟨-, rfl⟩ := put_eq_some hput
        exact hset .done rfl rfl fun _ hcommand => by cases hcommand
      next => cases h
    | process k outcome =>
      unfold step at h
      dsimp only at h
      split at h
      next msg _ =>
        cases h
        rcases processIncomingMessage_cases c k msg outcome with hanswering | ⟨-, result, heq⟩
        · exact hsame hanswering
        · -- the execution is there before its answer is sent
          rw [heq]
          obtain ⟨hexecuted, hsends⟩ := sends_send (c.execute k msg result)
            (fun json => { type := .ackResponse, ackId := msg.ackId, args := json }) result (by
              intro json command hjson hencode
              refine .inr ⟨⟨msg.ackId, msg.method, msg.args, result⟩, ?_, json, hjson, hencode⟩
              rw [hjson]
              unfold send
              dsimp only
              rw [hencode]
              exact List.mem_append_right _ List.mem_cons_self)
          exact ⟨⟨_, hexecuted⟩, hsends⟩
      next => cases h
    | _ => exact absurd ha id
  · exact hsame ((frame_of_step h).answering ha)

theorem calls_kept {a : Action} (hgood : ∀ call ∈ c.calls, call.Good) (h : c.step a = some c')
    {command : GoString} (hcalls : c.Calls command) : c'.Calls command := by
  obtain ⟨call, hmem, hsent, hencodes⟩ := hcalls
  rcases calls_of_step h with ⟨-, hledger⟩ | ⟨method, args, -, rfl⟩ | ⟨k, old, call', hstep, -⟩
  · have hcalls : c'.calls = c.calls := (Prod.mk.inj hledger).1
    exact ⟨call, hcalls ▸ hmem, hsent, hencodes⟩
  · exact ⟨call, List.mem_append_left _ hmem, hsent, hencodes⟩
  · rw [Calls, hstep.calls]
    obtain ⟨j, hj⟩ := List.mem_iff_getElem?.mp hmem
    by_cases hkj : k = j
    · subst hkj
      obtain rfl : old = call := Option.some.inj (hstep.found.symm.trans hj)
      exact ⟨call', List.mem_set (List.getElem?_eq_some_iff.mp hj).1 _,
        hstep.next.sent_kept (hgood old hmem) hsent, hstep.next.encodes.mpr hencodes⟩
    · exact ⟨call, List.mem_of_getElem? ((List.getElem?_set_ne hkj).trans hj), hsent, hencodes⟩

theorem good_calls {a : Action} (hgood : ∀ call ∈ c.calls, call.Good) (h : c.step a = some c') :
    ∀ call ∈ c'.calls, call.Good := by
  intro call hmem
  rcases calls_of_step h with ⟨-, hledger⟩ | ⟨method, args, -, rfl⟩ | ⟨k, old, call', hstep, -⟩
  · have hcalls : c'.calls = c.calls := (Prod.mk.inj hledger).1
    exact hgood call (hcalls ▸ hmem)
  · rcases List.mem_append.mp hmem with hmem | hmem
    · exact hgood call hmem
    · rw [List.mem_singleton] at hmem
      subst hmem
      exact Call.good_of_unsent rfl rfl fun _ hcommand => by cases hcommand
  · rw [hstep.calls] at hmem
    rcases List.mem_or_eq_of_mem_set hmem with hmem | rfl
    · exact hgood call hmem
    · exact Call.good_next (hgood old (List.mem_of_getElem? hstep.found)) hstep.next

/-- What a step puts into the queue. -/
theorem puts_of_step {a : Action} (hc : Commands c) (h : c.step a = some c') :
    ∀ command ∈ c.puts a, Control command ∨ c'.Sends command ∨ c'.Calls command := by
  intro command hputs
  cases a with
  | call k =>
    obtain ⟨call, hcall, hstep⟩ := Option.bind_eq_some_iff.mp h
    rw [puts_call hcall] at hputs
    have hphase : call.phase = .putting command := by
      unfold Phase.puts at hputs
      split at hputs
      next hphase =>
        rw [List.mem_singleton] at hputs
        rw [hphase, hputs]
      next => cases hputs
    unfold stepCall at hstep
    rw [hphase] at hstep
    obtain ⟨c₁, hput, rfl⟩ := Option.map_eq_some_iff.mp hstep
    obtain ⟨-, rfl⟩ := put_eq_some hput
    have hencodes := (hc.calls call (List.mem_of_getElem? hcall)).command command
      (by rw [hphase]; rfl)
    exact .inr (.inr ⟨_, List.mem_set (List.getElem?_eq_some_iff.mp hcall).1 _, rfl, hencodes⟩)
  | send k =>
    obtain ⟨sending, hsending, -⟩ := Option.bind_eq_some_iff.mp h
    rw [puts_send hsending] at hputs
    have hcommand : sending.command? = some command := by
      unfold Sending.puts at hputs
      split at hputs
      next =>
        rw [List.mem_singleton] at hputs
        rw [hputs]
        rfl
      next => cases hputs
    obtain ⟨⟨e, hexecuted⟩, -⟩ := sends_of_step h
    have hsends := hc.sends sending (List.mem_of_getElem? hsending) command hcommand
    exact .inr (.inl (hsends.mono hexecuted))
  | reply =>
    rw [puts, List.mem_singleton] at hputs
    exact .inl (.inr (.inl hputs))
  | ping =>
    unfold puts at hputs
    dsimp only at hputs
    split at hputs
    · rw [List.mem_singleton] at hputs
      exact .inl (.inl hputs)
    · cases hputs
  | _ => cases hputs

theorem commands_step {a : Action} (hc : Commands c) (h : c.step a = some c') : Commands c' where
  calls := good_calls hc.calls h
  sends := by
    obtain ⟨⟨e, hexecuted⟩, hsends⟩ := sends_of_step h
    intro sending hmem command hcommand
    rcases hsends sending hmem command hcommand with ⟨old, hold, hcommand⟩ | hsends
    · exact (hc.sends old hold command hcommand).mono hexecuted
    · exact hsends
  enqueued := by
    obtain ⟨⟨e, hexecuted⟩, -⟩ := sends_of_step h
    have hold : ∀ command ∈ c.enqueued, Control command ∨ c'.Sends command ∨ c'.Calls command := by
      intro command hmem
      rcases hc.enqueued command hmem with hcontrol | hsends | hcalls
      · exact .inl hcontrol
      · exact .inr (.inl (hsends.mono hexecuted))
      · exact .inr (.inr (calls_kept hc.calls h hcalls))
    by_cases ha : TakesOut a
    · rw [(takeStep_of_step h ha).enqueued]
      exact hold
    · rw [(queue_of_step h ha).enqueued]
      intro command hmem
      rcases List.mem_append.mp hmem with hmem | hmem
      · exact hold command hmem
      · exact puts_of_step hc h command hmem

theorem commands_read {pkg : GoString} (hc : Commands c) (h : ReadStep c c' pkg) :
    Commands c' := by
  obtain ⟨hsends, hexecuted⟩ := Prod.mk.inj h.answering
  obtain ⟨hcalls, -⟩ := Prod.mk.inj h.ledger
  have henqueued : c'.enqueued = c.enqueued := (Prod.mk.inj (Prod.mk.inj h.queue).2).1
  constructor
  · rw [hcalls]
    exact hc.calls
  · rw [hsends]
    unfold Channel.Sends
    rw [hexecuted]
    exact hc.sends
  · rw [henqueued]
    unfold Channel.Sends Channel.Calls
    rw [hexecuted, hcalls]
    exact hc.enqueued

end Channel

/-! ## Commands as packets -/

/-- A command does not close, and the loop that reads it does not panic. -/
structure Readable (command : GoString) : Prop where
  first : command.take 1 ≠ closeMessage
  decodes : decode command ≠ .error .panic

theorem readable_common (rest : GoString) : Readable (commonMessage ++ rest) where
  first := by
    intro h
    have hbyte : ascii "4" = closeMessage := h
    exact absurd hbyte (by decide)
  decodes := by
    rw [Ne, decode_eq_panic]
    rintro ⟨number, ack, -, h⟩
    have htype : commonMessage = ackMessage := congrArg (List.take 2) h
    exact absurd htype (by decide)

theorem readable_answer (n : Int64) (args : GoString) :
    Readable (ackMessage ++ (itoa n ++ (ascii "[" ++ args ++ ascii "]"))) where
  first := by
    intro h
    have hbyte : ascii "4" = closeMessage := h
    exact absurd hbyte (by decide)
  decodes := by
    have hdecode := decode_ackResponse n args
    dsimp only at hdecode
    rw [hdecode]
    exact fun h => by cases h

theorem readable_control {command : GoString} (h : Control command) : Readable command := by
  rcases h with rfl | rfl | rfl | ⟨header, rfl⟩
  · exact ⟨by decide, by decide⟩
  · exact ⟨by decide, by decide⟩
  · exact ⟨by decide, by decide⟩
  · refine ⟨?_, fun h => by cases h⟩
    intro h
    have hbyte : openMessage = closeMessage := h
    exact absurd hbyte (by decide)

namespace Channel

variable {c c' : Channel}

theorem Commands.readable (hc : Commands c) {command : GoString} (hmem : command ∈ c.enqueued) :
    Readable command := by
  rcases hc.enqueued command hmem with hcontrol | hsends | ⟨call, -, -, json, -, hencode⟩
  · exact readable_control hcontrol
  · rcases hsends with ⟨method, json, hencode⟩ | ⟨e, -, json, -, hencode⟩
    · rw [encode_emit rfl] at hencode
      cases hencode
      exact readable_common _
    · rw [encode_ackResponse rfl] at hencode
      cases hencode
      exact readable_answer _ _
  · rw [encode_ackRequest rfl] at hencode
    cases hencode
    exact readable_common _

/-! ## The order -/

/-- What the other end has read of the channel, and what is on its way. -/
structure Ordered (c : Channel) (read : List GoString) : Prop where
  arrived : read ++ c.wire <+: c.enqueued
  kept : c.alive = true → c.outLoop ≠ .ended → c.enqueued = read ++ c.outgoing
  closing : c.closing ≠ none → c.alive = false

theorem ordered_take {read : List GoString} (hc : Ordered c read) (h : TakeStep c c') :
    Ordered c' read where
  arrived := by
    rw [h.enqueued]
    rcases h.wire with hwire | ⟨msg, halive, houtLoop, hwire⟩
    · rw [hwire]
      exact hc.arrived
    · -- what is written was the next in the queue
      have hkept := hc.kept halive (by rw [houtLoop]; exact fun hend => by cases hend)
      refine ⟨c.out, ?_⟩
      rw [hkept, hwire]
      unfold outgoing
      rw [houtLoop]
      simp only [List.append_assoc, OutLoop.held]
  kept := by
    intro halive houtLoop
    have hnone : c.closing = none := by
      by_contra hclosing
      exact absurd ((hc.closing hclosing).symm.trans (h.alive halive)) (by decide)
    obtain ⟨halive, houtLoop, hsame⟩ := h.kept halive houtLoop hnone
    rw [h.enqueued, hsame]
    exact hc.kept halive houtLoop
  closing := by
    intro hclosing
    rcases h.closing hclosing with hclosed | hclosing
    · exact hclosed
    · by_contra halive
      rw [Bool.not_eq_false] at halive
      exact absurd ((hc.closing hclosing).symm.trans (h.alive halive)) (by decide)

theorem ordered_grow {read commands : List GoString} (hc : Ordered c read)
    (h : QueueGrows c c' commands) : Ordered c' read where
  arrived := by
    rw [h.enqueued, h.wire]
    exact hc.arrived.trans (List.prefix_append _ _)
  kept := by
    rw [h.alive, h.outLoop, h.enqueued]
    intro halive houtLoop
    rw [hc.kept halive houtLoop]
    unfold outgoing
    rw [h.wire, h.outLoop, h.out]
    simp only [List.append_assoc]
  closing := by
    rw [h.closing, h.alive]
    exact hc.closing

theorem ordered_step {read : List GoString} {a : Action} (hc : Ordered c read)
    (h : c.step a = some c') : Ordered c' read := by
  by_cases ha : TakesOut a
  · exact ordered_take hc (takeStep_of_step h ha)
  · exact ordered_grow hc (queue_of_step h ha)

theorem ordered_read {read : List GoString} {pkg : GoString} (hc : Ordered c read)
    (h : ReadStep c c' pkg) : Ordered c' read := by
  have hgrows := queueGrows_nil h.queue
  exact ordered_grow hc hgrows

/-- The next packet is read at the other end. -/
theorem ordered_wire {read wire : List GoString} {pkg : GoString} (hc : Ordered c read)
    (hwire : c.wire = pkg :: wire) : Ordered { c with wire := wire } (read ++ [pkg]) where
  arrived := by
    have harrived := hc.arrived
    rw [hwire] at harrived
    rw [List.append_assoc]
    exact harrived
  kept := by
    intro halive houtLoop
    rw [hc.kept halive houtLoop]
    unfold outgoing
    rw [hwire]
    simp only [List.append_assoc, List.cons_append, List.nil_append]
  closing := hc.closing

theorem Ordered.mem_enqueued {read wire : List GoString} {pkg : GoString} (hc : Ordered c read)
    (hwire : c.wire = pkg :: wire) : pkg ∈ c.enqueued := by
  apply hc.arrived.subset
  rw [hwire]
  exact List.mem_append_right _ List.mem_cons_self

end Channel

/-- What holds of an end towards the other. -/
structure Sound (c d : Channel) : Prop where
  commands : c.Commands
  ordered : c.Ordered d.read
  panicked : c.inLoop ≠ .panicked

theorem sound_setup (header : GoString) : Pair Sound (Conn.setup header) := by
  intro x
  cases x with
  | client =>
    refine ⟨⟨?_, ?_, ?_⟩, ⟨List.prefix_rfl, fun _ _ => rfl, ?_⟩, ?_⟩
    · exact fun _ hmem => by cases hmem
    · exact fun _ hmem => by cases hmem
    · exact fun _ hmem => by cases hmem
    · exact fun hclosing => absurd rfl hclosing
    · exact fun hpanicked => by cases hpanicked
  | server =>
    refine ⟨⟨?_, ?_, ?_⟩, ⟨List.nil_prefix, fun _ _ => rfl, ?_⟩, ?_⟩
    · exact fun _ hmem => by cases hmem
    · exact fun _ hmem => by cases hmem
    · intro command hmem
      left
      rcases List.mem_cons.mp hmem with rfl | hmem
      · exact .inr (.inr (.inr ⟨header, rfl⟩))
      · exact .inr (.inr (.inl (List.mem_singleton.mp hmem)))
    · exact fun hclosing => absurd rfl hclosing
    · exact fun hpanicked => by cases hpanicked

theorem sound_step {c d c' : Channel} {a : Action} (hcd : Sound c d) (hdc : Sound d c)
    (h : c.step a = some c') : Sound c' d ∧ Sound d c' := by
  have hframe := Channel.frame_of_step h
  refine ⟨⟨Channel.commands_step hcd.commands h, Channel.ordered_step hcd.ordered h,
    mt hframe.panicked hcd.panicked⟩, ⟨hdc.commands, ?_, hdc.panicked⟩⟩
  rw [hframe.read]
  exact hdc.ordered

theorem sound_read {c d c' : Channel} {pkg : GoString} {wire : List GoString} {header : Bool}
    (hcd : Sound c d) (hdc : Sound d c) (hwire : d.wire = pkg :: wire)
    (h : c.readMessage pkg header = some c') :
    Sound c' { d with wire := wire } ∧ Sound { d with wire := wire } c' := by
  have hread := Channel.readStep_of_readMessage h
  constructor
  · refine ⟨Channel.commands_read hcd.commands hread, Channel.ordered_read hcd.ordered hread, ?_⟩
    intro hpanicked
    have hreadable := hdc.commands.readable (hdc.ordered.mem_enqueued hwire)
    exact hreadable.decodes (hread.panicked hpanicked)
  · refine ⟨⟨hdc.commands.calls, hdc.commands.sends, hdc.commands.enqueued⟩, ?_, hdc.panicked⟩
    rw [hread.read]
    exact Channel.ordered_wire hdc.ordered hwire

theorem everyState_sound : connection.EveryState Setup Machine.Free (Pair Sound) :=
  everyState_pair (G := fun _ _ => True) sound_setup
    (fun _ _ _ _ hcd hdc _ h => sound_step hcd hdc h)
    (fun _ _ _ _ _ _ hcd hdc hwire h => sound_read hcd hdc hwire h)

/-- **In order, once, and without loss.**  What an end has read is a prefix of what the other put into
its queue, whatever the goroutines of both do and however they close; while the other end is open
and writes, the rest is on its way in the same order.  No packet makes a loop panic. -/
theorem read_in_order : connection.EveryState Setup Machine.Free fun s => ∀ x : End,
    (s x.other).read <+: (s x).enqueued ∧
    ((s x).alive = true → (s x).outLoop ≠ .ended →
      (s x).enqueued = (s x.other).read ++ (s x).wire ++ (s x).outLoop.held ++ (s x).out) ∧
    (s x).inLoop ≠ .panicked := by
  intro s hs x
  have hsound := everyState_sound s hs x
  refine ⟨(List.prefix_append _ _).trans hsound.ordered.arrived, ?_, hsound.panicked⟩
  intro halive houtLoop
  rw [hsound.ordered.kept halive houtLoop]
  simp only [Channel.outgoing, List.append_assoc]

end Kotsadm.Operator.Connection
