import Kotsadm.Lib.Rpc
import Kotsadm.Operator.Waiters

/-!
# Acks — the calls of `Ack` as remote calls

The connection refines the calls over a channel that loses messages: a request is what is on its way
and decodes as one.  So a call is executed at most once, and the result it returns is its own.
-/

namespace Kotsadm.Operator.Connection

open GoString Protocol

/-- What a call asks for: its id, its method and its arguments. -/
abbrev Request := Int64 × GoString × GoString

def request? (msg : Message) : Option Request :=
  if msg.type = .ackRequest then some (msg.ackId, msg.method, msg.args) else none

def packetRequest? (pkg : GoString) : Option Request :=
  match decode pkg with
  | .ok msg => request? msg
  | .error _ => none

def Incoming.request? : Incoming → Option Request
  | .received msg => Connection.request? msg
  | .delivering _ _ | .done => none

/-- What the packet of the call asks for. -/
def Call.asks (call : Call) : Option Request :=
  match call.args with
  | .text json =>
    match encode (call.message json) with
    | .ok command => packetRequest? command
    | .error _ => none
  | .error | .panics => none

theorem Call.Encodes.asks {call : Call} {command : GoString} (h : call.Encodes command) :
    call.asks = packetRequest? command := by
  obtain ⟨json, hargs, hencode⟩ := h
  unfold Call.asks
  rw [hargs]
  dsimp only
  rw [hencode]

theorem packetRequest?_eq_some {pkg : GoString} {a : Request} :
    packetRequest? pkg = some a ↔
      ∃ msg, decode pkg = .ok msg ∧ msg.type = .ackRequest ∧ a = (msg.ackId, msg.method, msg.args) := by
  unfold packetRequest?
  cases hdecode : decode pkg with
  | error e =>
    constructor
    · exact fun h => by cases h
    · rintro ⟨msg, h, -⟩
      cases h
  | ok msg =>
    dsimp only [request?]
    constructor
    · intro h
      split at h
      next htype =>
        cases h
        exact ⟨msg, rfl, htype, rfl⟩
      next => cases h
    · rintro ⟨msg', h, htype, rfl⟩
      cases h
      exact if_pos htype

/-- The id of the request is that of the call. -/
theorem Call.asks_eq_some {call : Call} {a : Request} (h : call.asks = some a) :
    ∃ json, call.args = .text json ∧ a.1 = call.ackId ∧
      getMethod (payload call.method json) = .ok a.2 := by
  unfold Call.asks at h
  split at h
  next json hargs =>
    rw [encode_ackRequest rfl] at h
    obtain ⟨msg, hdecode, -, rfl⟩ := packetRequest?_eq_some.mp h
    rw [decode_ackRequest] at hdecode
    refine ⟨json, hargs, ?_⟩
    cases hmethod : getMethod (payload call.method json) with
    | error e =>
      rw [show (call.message json).method = call.method from rfl] at hdecode
      rw [show (call.message json).args = json from rfl, hmethod] at hdecode
      cases hdecode
    | ok decoded =>
      rw [show (call.message json).method = call.method from rfl] at hdecode
      rw [show (call.message json).args = json from rfl, hmethod] at hdecode
      cases hdecode
      exact ⟨rfl, rfl⟩
  all_goals cases h

/-! ## Packets that are no requests -/

theorem packetRequest?_emit {command : GoString} (h : Emits command) :
    packetRequest? command = none := by
  obtain ⟨method, json, hencode⟩ := h
  rw [encode_emit rfl] at hencode
  cases hencode
  unfold packetRequest?
  rw [decode_emit]
  cases getMethod (payload method json) <;> rfl

theorem packetRequest?_answer {e : Execution} {command : GoString} (h : e.Answers command) :
    packetRequest? command = none := by
  obtain ⟨json, -, hencode⟩ := h
  rw [encode_ackResponse rfl] at hencode
  cases hencode
  have hdecode := decode_ackResponse e.ackId json
  dsimp only at hdecode
  unfold packetRequest?
  rw [hdecode]
  rfl

theorem packetRequest?_control {command : GoString} (h : Control command) :
    packetRequest? command = none := by
  rcases h with rfl | rfl | rfl | ⟨header, rfl⟩
  · decide
  · decide
  · decide
  · rfl

theorem packetRequest?_close : packetRequest? closeMessage = none := by decide

theorem packetRequest?_sends {c : Channel} {command : GoString} (h : c.Sends command) :
    packetRequest? command = none := by
  rcases h with h | ⟨e, -, h⟩
  · exact packetRequest?_emit h
  · exact packetRequest?_answer h

namespace Channel

variable {c c' d d' : Channel}

/-- A step that is no step of a call puts no request into the queue. -/
theorem packetRequest?_puts {a : Action} (hc : Commands c) (h : c.step a = some c')
    (ha : ¬ StepsCalls a) : (c.puts a).filterMap packetRequest? = [] := by
  rw [List.filterMap_eq_nil_iff]
  intro command hputs
  cases a with
  | send k =>
    obtain ⟨sending, hsending, -⟩ := Option.bind_eq_some_iff.mp h
    rw [puts_send hsending] at hputs
    have hcommand : sending.command? = some command := by
      unfold Sending.puts at hputs
      split at hputs
      next =>
        rw [List.mem_singleton] at hputs
        rw [hputs]
        rfl
      next => cases hputs
    exact packetRequest?_sends (hc.sends sending (List.mem_of_getElem? hsending) command hcommand)
  | reply =>
    rw [puts, List.mem_singleton] at hputs
    exact packetRequest?_control (.inr (.inl hputs))
  | ping =>
    unfold puts at hputs
    dsimp only at hputs
    split at hputs
    · rw [List.mem_singleton] at hputs
      exact packetRequest?_control (.inl hputs)
    · cases hputs
  | call k => exact absurd trivial ha
  | _ => cases hputs

end Channel

/-! ## The remote calls of one end -/

def Call.issues (call : Call) : Set Request :=
  { a | call.sent = some .enqueued ∧ call.asks = some a }

def Call.returns (call : Call) : Set (Int64 × Marshalled) :=
  { a | ∃ result, call.phase = .returned result ∧ a = (call.ackId, .text result) }

/-- What some call of the list contributes. -/
def gather {τ : Type} (F : Call → Set τ) (calls : List Call) : Set τ :=
  { a | ∃ call ∈ calls, a ∈ F call }

def Execution.entry (e : Execution) : Int64 × (GoString × GoString) × Marshalled :=
  (e.ackId, (e.method, e.args), e.result)

/-- The calls of the end `c`, which the other end `d` executes. -/
def remote (c d : Channel) : Rpc.State Int64 (GoString × GoString) Marshalled where
  issued := gather Call.issues c.calls
  requests := ↑(c.outgoing.filterMap packetRequest?) + ↑(d.incoming.filterMap Incoming.request?)
  executed := d.executed.map Execution.entry
  returned := gather Call.returns c.calls

abbrev remoteCalls : System (Rpc.State Int64 (GoString × GoString) Marshalled) :=
  Rpc.system Int64 (GoString × GoString) Marshalled

theorem gather_set {τ : Type} {F : Call → Set τ} {calls : List Call} {k : Nat} {call call' : Call}
    {X : Set τ} (hcall : calls[k]? = some call) (hF : F call' = X ∪ F call) :
    gather F (calls.set k call') = X ∪ gather F calls := by
  have hlt := (List.getElem?_eq_some_iff.mp hcall).1
  ext a
  constructor
  · rintro ⟨other, hother, ha⟩
    rcases List.mem_or_eq_of_mem_set hother with hother | rfl
    · exact .inr ⟨other, hother, ha⟩
    · rw [hF] at ha
      rcases ha with ha | ha
      · exact .inl ha
      · exact .inr ⟨call, List.mem_of_getElem? hcall, ha⟩
  · rintro (ha | ⟨other, hother, ha⟩)
    · refine ⟨call', List.mem_set hlt _, ?_⟩
      rw [hF]
      exact .inl ha
    · obtain ⟨j, hj⟩ := List.mem_iff_getElem?.mp hother
      by_cases hkj : k = j
      · subst hkj
        obtain rfl : call = other := Option.some.inj (hcall.symm.trans hj)
        refine ⟨call', List.mem_set hlt _, ?_⟩
        rw [hF]
        exact .inr ha
      · exact ⟨other, List.mem_of_getElem? ((List.getElem?_set_ne hkj).trans hj), ha⟩

theorem gather_set_same {τ : Type} {F : Call → Set τ} {calls : List Call} {k : Nat}
    {call call' : Call} (hcall : calls[k]? = some call) (hF : F call' = F call) :
    gather F (calls.set k call') = gather F calls := by
  rw [gather_set hcall (hF.trans (Set.empty_union _).symm), Set.empty_union]

theorem gather_concat {τ : Type} {F : Call → Set τ} {calls : List Call} {call : Call}
    (hF : F call = ∅) : gather F (calls ++ [call]) = gather F calls := by
  ext a
  constructor
  · rintro ⟨other, hother, ha⟩
    rcases List.mem_append.mp hother with hother | hother
    · exact ⟨other, hother, ha⟩
    · rw [List.mem_singleton.mp hother, hF] at ha
      exact absurd ha (Set.notMem_empty a)
  · rintro ⟨other, hother, ha⟩
    exact ⟨other, List.mem_append_left _ hother, ha⟩

theorem Call.issues_eq_empty {call : Call} (h : call.sent ≠ some .enqueued) : call.issues = ∅ :=
  Set.eq_empty_of_forall_notMem fun _ ha => h ha.1

theorem Call.returns_eq_empty {call : Call} (h : ∀ result, call.phase ≠ .returned result) :
    call.returns = ∅ :=
  Set.eq_empty_of_forall_notMem fun _ ⟨result, hphase, _⟩ => h result hphase

/-- Only a step that enqueues issues the call. -/
theorem Call.Next.issues {call call' : Call} (hgood : call.Good) (h : call.Next call')
    (hput : ∀ command, call.phase ≠ .putting command) : call'.issues = call.issues := by
  have hsame : call'.sent = call.sent → call'.issues = call.issues := by
    intro hsent
    obtain ⟨hackId, hmethod, hargs⟩ := h.kept
    unfold Call.issues Call.asks Call.message
    rw [hsent, hackId, hmethod, hargs]
  have hunsent : call.phase.unsent = true → call'.sent ≠ some .enqueued →
      call'.issues = call.issues := by
    intro hphase hsent
    rw [issues_eq_empty hsent, issues_eq_empty]
    rw [hgood.unsent hphase]
    exact fun hnone => by cases hnone
  cases h with
  | refuse hphase =>
    refine hunsent ?_ fun hsent => by cases hsent
    rcases hphase with hphase | ⟨command, hphase⟩
    · rw [hphase]
      rfl
    · rw [hphase]
      rfl
  | panic hphase => exact hunsent (by rw [hphase]; rfl) fun hsent => by cases hsent
  | put command hphase => exact absurd hphase (hput command)
  | _ => exact hsame rfl

/-- Only a delivered answer makes the call return. -/
theorem Call.Next.returns {call call' : Call} (h : call.Next call')
    (hreturned : ∀ result, call'.phase ≠ .returned result) : call'.returns = call.returns := by
  rw [returns_eq_empty hreturned, returns_eq_empty]
  intro result hphase
  cases h with
  | refuse hrefused =>
    rw [hphase] at hrefused
    rcases hrefused with hrefused | ⟨command, hrefused⟩ <;> cases hrefused
  | register hnext | encode json command hnext | panic hnext | check command hnext
  | put command hnext | remove hnext | expire hnext | deliver args hnext | giveUp hnext =>
    rw [hphase] at hnext
    cases hnext

theorem Call.Next.of_putting {call call' : Call} (h : call.Next call') {command : GoString}
    (hphase : call.phase = .putting command) :
    call' = { call with phase := .selecting, sent := some .enqueued } := by
  cases h with
  | put => rfl
  | refuse hrefused =>
    rw [hphase] at hrefused
    rcases hrefused with hrefused | ⟨command, hrefused⟩ <;> cases hrefused
  | register hnext | encode json command hnext | panic hnext | check command hnext
  | remove hnext | expire hnext | deliver args hnext | giveUp hnext =>
    rw [hphase] at hnext
    cases hnext

theorem Call.Next.of_returned {call call' : Call} (h : call.Next call') {result : GoString}
    (hphase : call'.phase = .returned result) : call.phase = .selecting := by
  cases h with
  | deliver args hselecting => exact hselecting
  | _ => cases hphase

/-! ## What the goroutines of the answers know -/

/-- The result is of an execution with this id. -/
def Result (executed : List Execution) (id : Int64) (args : GoString) : Prop :=
  ∃ e ∈ executed, e.ackId = id ∧ e.result = .text args

/-- What arrived at `c` as an answer is a result of `d`. -/
def Answered (c d : Channel) : Prop :=
  ∀ incoming ∈ c.incoming,
    (∀ msg, incoming = .received msg → msg.type = .ackResponse →
      Result d.executed msg.ackId msg.args) ∧
    ∀ w args, incoming = .delivering w args →
      ∃ call, c.calls[w]? = some call ∧ Result d.executed call.ackId args

theorem Result.mono {executed e : List Execution} {id : Int64} {args : GoString}
    (h : Result executed id args) : Result (executed ++ e) id args := by
  obtain ⟨execution, hmem, hresult⟩ := h
  exact ⟨execution, List.mem_append_left _ hmem, hresult⟩

/-- A packet that decodes as an answer is one. -/
theorem Channel.Commands.result {c : Channel} (hc : c.Commands) {pkg : GoString} {msg : Message}
    (hmem : pkg ∈ c.enqueued) (hdecode : decode pkg = .ok msg) (htype : msg.type = .ackResponse) :
    Result c.executed msg.ackId msg.args := by
  rcases hc.enqueued pkg hmem with hcontrol | hsends | ⟨call, -, -, json, -, hencode⟩
  · rcases hcontrol with rfl | rfl | rfl | ⟨header, rfl⟩
    all_goals
      cases hdecode
      cases htype
  · rcases hsends with ⟨method, json, hencode⟩ | ⟨e, he, json, hresult, hencode⟩
    · rw [encode_emit rfl] at hencode
      cases hencode
      rw [decode_emit] at hdecode
      obtain ⟨decoded, -, rfl⟩ := Except.map_eq_ok.mp hdecode
      cases htype
    · rw [encode_ackResponse rfl] at hencode
      cases hencode
      have hanswer := decode_ackResponse e.ackId json
      dsimp only at hanswer
      rw [hanswer] at hdecode
      cases hdecode
      exact ⟨e, he, rfl, hresult⟩
  · rw [encode_ackRequest rfl] at hencode
    cases hencode
    rw [decode_ackRequest] at hdecode
    obtain ⟨decoded, -, rfl⟩ := Except.map_eq_ok.mp hdecode
    cases htype

namespace Channel

variable {c c' d d' : Channel}

/-- The steps of a call keep its id. -/
theorem ackId_kept {a : Action} (h : c.step a = some c') {k : Nat} {call : Call}
    (hcall : c.calls[k]? = some call) :
    ∃ call', c'.calls[k]? = some call' ∧ call'.ackId = call.ackId := by
  have hlt := (List.getElem?_eq_some_iff.mp hcall).1
  rcases calls_of_step h with ⟨-, hledger⟩ | ⟨method, args, -, rfl⟩ | ⟨j, old, call', hstep, -⟩
  · have hcalls : c'.calls = c.calls := (Prod.mk.inj hledger).1
    exact ⟨call, hcalls ▸ hcall, rfl⟩
  · exact ⟨call, (List.getElem?_append_left hlt).trans hcall, rfl⟩
  · rw [hstep.calls]
    by_cases hjk : j = k
    · subst hjk
      obtain rfl : old = call := Option.some.inj (hstep.found.symm.trans hcall)
      exact ⟨call', List.getElem?_set_self hlt, hstep.next.kept.1⟩
    · exact ⟨call, (List.getElem?_set_ne hjk).trans hcall, rfl⟩

theorem answered_own {a : Action} (hanswered : Answered c d) (hledger : Ledger c)
    (h : c.step a = some c') : Answered c' d := by
  have hold : ∀ incoming ∈ c.incoming,
      (∀ msg, incoming = .received msg → msg.type = .ackResponse →
        Result d.executed msg.ackId msg.args) ∧
      ∀ w args, incoming = .delivering w args →
        ∃ call, c'.calls[w]? = some call ∧ Result d.executed call.ackId args := by
    intro incoming hmem
    refine ⟨(hanswered incoming hmem).1, fun w args heq => ?_⟩
    obtain ⟨call, hcall, hresult⟩ := (hanswered incoming hmem).2 w args heq
    obtain ⟨call', hcall', hid⟩ := ackId_kept h hcall
    exact ⟨call', hcall', hid ▸ hresult⟩
  rcases incoming_of_step h with ⟨hincoming, -⟩ | ⟨k, old, new, hk, hset, hstep⟩
  · unfold Answered
    rw [hincoming]
    exact hold
  · intro incoming hmem
    rw [hset] at hmem
    rcases List.mem_or_eq_of_mem_set hmem with hmem | rfl
    · exact hold incoming hmem
    · have hreceived := hanswered old (List.mem_of_getElem? hk)
      cases hstep with
      | found msg w htype hwaiter =>
        refine ⟨fun msg' heq => (by cases heq), ?_⟩
        intro w' args heq
        cases heq
        -- the waiter is that of the call with the id of the answer
        obtain ⟨call, hcall, hid, -⟩ := (hledger.waiters msg.ackId w).mp hwaiter
        obtain ⟨call', hcall', hid'⟩ := ackId_kept h hcall
        refine ⟨call', hcall', ?_⟩
        rw [hid', hid]
        exact hreceived.1 msg rfl htype
      | ignored | called | delivered =>
        exact ⟨fun msg' heq => (by cases heq), fun w' args heq => (by cases heq)⟩

theorem answered_other {a : Action} (hanswered : Answered c d) (h : d.step a = some d') :
    Answered c d' := by
  obtain ⟨⟨e, hexecuted⟩, -⟩ := sends_of_step h
  intro incoming hmem
  rw [hexecuted]
  refine ⟨fun msg heq htype => ((hanswered incoming hmem).1 msg heq htype).mono, ?_⟩
  intro w args heq
  obtain ⟨call, hcall, hresult⟩ := (hanswered incoming hmem).2 w args heq
  exact ⟨call, hcall, hresult.mono⟩

theorem answered_read {pkg : GoString} {wire : List GoString} (hanswered : Answered c d)
    (hd : Sound d c) (hwire : d.wire = pkg :: wire) (h : ReadStep c c' pkg) : Answered c' d := by
  have hcalls : c'.calls = c.calls := (Prod.mk.inj h.ledger).1
  unfold Answered
  rw [hcalls]
  rcases h.incoming with hincoming | ⟨msg, hdecode, hincoming⟩
  · rw [hincoming]
    exact hanswered
  · rw [hincoming]
    intro incoming hmem
    rcases List.mem_append.mp hmem with hmem | hmem
    · exact hanswered incoming hmem
    · rw [List.mem_singleton] at hmem
      subst hmem
      refine ⟨?_, fun w args heq => by cases heq⟩
      intro msg' heq htype
      cases heq
      exact hd.commands.result (hd.ordered.mem_enqueued hwire) hdecode htype

/-! ## The steps of the remote calls -/

theorem requests_filterMap_append (xs ys : List GoString) :
    (xs ++ ys).filterMap packetRequest? =
      xs.filterMap packetRequest? ++ ys.filterMap packetRequest? := List.filterMap_append

/-- The step leaves the calls as they are, and no request is new. -/
theorem remote_same (hissued : gather Call.issues c'.calls = gather Call.issues c.calls)
    (hreturned : gather Call.returns c'.calls = gather Call.returns c.calls)
    (hrequests : (c'.outgoing.filterMap packetRequest?).Sublist
      (c.outgoing.filterMap packetRequest?)) :
    Relation.ReflTransGen remoteCalls.step (remote c d) (remote c' d) := by
  refine .single (Rpc.step_lose hissued ?_ rfl hreturned)
  exact Multiset.add_le_add_right (Multiset.coe_le.mpr hrequests.subperm)

theorem outgoing_grow {commands : List GoString} (h : QueueGrows c c' commands) :
    c'.outgoing = c.outgoing ++ commands := by
  unfold outgoing
  rw [h.wire, h.outLoop, h.out]
  simp only [List.append_assoc]

theorem remote_take (h : TakeStep c c') (hcalls : c'.calls = c.calls) :
    Relation.ReflTransGen remoteCalls.step (remote c d) (remote c' d) := by
  refine remote_same (by rw [hcalls]) (by rw [hcalls]) ?_
  rcases h.outgoing with hsublist | hclose
  · exact hsublist.filterMap _
  · rw [hclose, requests_filterMap_append, List.filterMap_cons_none packetRequest?_close,
      List.filterMap_nil, List.append_nil]

/-- The call enqueues its request, which is on its way then. -/
theorem remote_put (hc : Commands c) (hledger : Ledger c) {k : Nat} {call call' : Call}
    {command : GoString} (hstep : CallStep c c' k call call')
    (hphase : call.phase = .putting command)
    (houtgoing : c'.outgoing = c.outgoing ++ [command]) :
    Relation.ReflTransGen remoteCalls.step (remote c d) (remote c' d) := by
  have hgood := hc.calls call (List.mem_of_getElem? hstep.found)
  have hencodes := hgood.command command (by rw [hphase]; rfl)
  have hsent : call.sent = none := hgood.unsent (by rw [hphase]; rfl)
  obtain rfl := hstep.next.of_putting hphase
  have hreturned : gather Call.returns c'.calls = gather Call.returns c.calls := by
    rw [hstep.calls]
    exact gather_set_same hstep.found (hstep.next.returns fun result hreturned => by cases hreturned)
  have hissues : call.issues = ∅ := by
    apply Call.issues_eq_empty
    rw [hsent]
    exact fun hnone => by cases hnone
  cases hasks : call.asks with
  | none =>
    -- the method is one that cannot be read
    refine remote_same ?_ hreturned ?_
    · rw [hstep.calls]
      refine gather_set_same hstep.found ?_
      rw [hissues]
      refine Set.eq_empty_of_forall_notMem fun b hb => ?_
      exact absurd (hasks.symm.trans hb.2) (Option.some_ne_none b).symm
    · rw [hencodes.asks] at hasks
      rw [houtgoing, requests_filterMap_append]
      show List.Sublist (_ ++ [command].filterMap packetRequest?) _
      rw [List.filterMap_cons_none hasks, List.filterMap_nil, List.append_nil]
  | some request =>
    obtain ⟨id, p⟩ := request
    obtain ⟨json, -, hid, -⟩ := Call.asks_eq_some hasks
    -- no other call has the id
    have hfresh : ∀ q, (id, q) ∉ (remote c d).issued := by
      rintro q ⟨other, hother, hsent', hasks'⟩
      obtain ⟨json', -, hid', -⟩ := Call.asks_eq_some hasks'
      obtain ⟨j, hj⟩ := List.mem_iff_getElem?.mp hother
      obtain rfl : j = k := hledger.eq_of_ackId hj hstep.found (hid'.symm.trans hid)
      obtain rfl : call = other := Option.some.inj (hstep.found.symm.trans hj)
      rw [hsent] at hsent'
      cases hsent'
    refine .single (Rpc.step_issue (p := p) hfresh ?_ ?_ rfl hreturned)
    · rw [Set.insert_eq]
      show gather Call.issues c'.calls = _
      rw [hstep.calls]
      refine gather_set hstep.found ?_
      rw [hissues, Set.union_empty]
      ext b
      constructor
      · rintro ⟨-, hb⟩
        exact (Option.some.inj (hasks.symm.trans hb)).symm
      · rintro rfl
        exact ⟨rfl, hasks⟩
    · rw [hencodes.asks] at hasks
      show ↑(c'.outgoing.filterMap packetRequest?) + _ = (id, p) ::ₘ (_ + _)
      rw [houtgoing, requests_filterMap_append, ← Multiset.cons_add]
      congr 1
      rw [List.filterMap_cons_some hasks, List.filterMap_nil, ← Multiset.coe_add,
        Multiset.add_comm]
      rfl

/-- The answer that is delivered is a result of the call. -/
theorem remote_deliver (hanswered : Answered c d) {k : Nat} {call call' : Call} {result : GoString}
    (hstep : CallStep c c' k call call') (hphase : call'.phase = .returned result)
    (hissued : gather Call.issues c'.calls = gather Call.issues c.calls)
    (houtgoing : c'.outgoing = c.outgoing) :
    Relation.ReflTransGen remoteCalls.step (remote c d) (remote c' d) := by
  obtain ⟨j, hj⟩ := hstep.answer result hphase
  obtain ⟨found, hfound, e, he, hid, hresult⟩ :=
    (hanswered _ (List.mem_of_getElem? hj)).2 k result rfl
  obtain rfl : call = found := Option.some.inj (hstep.found.symm.trans hfound)
  have hmem : (call.ackId, (e.method, e.args), .text result) ∈ (remote c d).executed := by
    rw [← hid, ← hresult]
    exact List.mem_map_of_mem he
  have hrequests : (remote c' d).requests = (remote c d).requests := by
    unfold remote
    rw [houtgoing]
  have hreturns : call.returns = ∅ := by
    apply Call.returns_eq_empty
    intro result' hreturned
    rw [hstep.next.of_returned hphase] at hreturned
    cases hreturned
  refine .single (Rpc.step_deliver hmem hissued hrequests rfl ?_)
  rw [Set.insert_eq]
  show gather Call.returns c'.calls = _
  rw [hstep.calls]
  refine gather_set hstep.found ?_
  rw [hreturns, Set.union_empty]
  ext b
  constructor
  · rintro ⟨result', hresult', rfl⟩
    rw [hphase] at hresult'
    cases hresult'
    rw [hstep.next.kept.1]
    rfl
  · rintro rfl
    exact ⟨result, hphase, by rw [hstep.next.kept.1]⟩

/-- A step of the end whose calls they are. -/
theorem remote_own {a : Action} (hc : Commands c) (hledger : Ledger c) (hanswered : Answered c d)
    (h : c.step a = some c') :
    Relation.ReflTransGen remoteCalls.step (remote c d) (remote c' d) := by
  by_cases ha : TakesOut a
  · have hcalls : c'.calls = c.calls := by
      have hframe := (frame_of_step h).ledger
      cases a with
      | outLoop | failWrite | enterClose | stepClose => exact (Prod.mk.inj (hframe id)).1
      | _ => exact absurd ha id
    exact remote_take (takeStep_of_step h ha) hcalls
  · have houtgoing := outgoing_grow (queue_of_step h ha)
    rcases calls_of_step h with ⟨hother, hsame⟩ | ⟨method, args, rfl, rfl⟩ |
      ⟨k, call, call', hstep, hputs⟩
    · have hcalls : c'.calls = c.calls := (Prod.mk.inj hsame).1
      refine remote_same (by rw [hcalls]) (by rw [hcalls]) ?_
      rw [houtgoing, requests_filterMap_append, packetRequest?_puts hc h hother, List.append_nil]
    · refine remote_same ?_ ?_ ?_
      · exact gather_concat (Call.issues_eq_empty fun hsent => by cases hsent)
      · exact gather_concat (Call.returns_eq_empty fun result hphase => by cases hphase)
      · exact List.Sublist.refl _
    · have hgood := hc.calls call (List.mem_of_getElem? hstep.found)
      by_cases hput : ∃ command, call.phase = .putting command
      · obtain ⟨command, hphase⟩ := hput
        rw [hputs, hphase] at houtgoing
        exact remote_put hc hledger hstep hphase houtgoing
      · have hputs' : c.puts a = [] := by
          rw [hputs]
          unfold Phase.puts
          split
          next command hphase => exact absurd ⟨command, hphase⟩ hput
          next => rfl
        rw [hputs', List.append_nil] at houtgoing
        have hissued : gather Call.issues c'.calls = gather Call.issues c.calls := by
          rw [hstep.calls]
          exact gather_set_same hstep.found
            (hstep.next.issues hgood fun command hphase => hput ⟨command, hphase⟩)
        by_cases hdeliver : ∃ result, call'.phase = .returned result
        · obtain ⟨result, hphase⟩ := hdeliver
          exact remote_deliver hanswered hstep hphase hissued houtgoing
        · refine remote_same hissued ?_ ?_
          · rw [hstep.calls]
            exact gather_set_same hstep.found
              (hstep.next.returns fun result hphase => hdeliver ⟨result, hphase⟩)
          · rw [houtgoing]

theorem requests_set {incoming : List Incoming} {k : Nat} {old new : Incoming}
    (hk : incoming[k]? = some old) (hnew : new.request? = none) :
    (incoming.filterMap Incoming.request?).Perm
      (old.request?.toList ++ (incoming.set k new).filterMap Incoming.request?) := by
  obtain ⟨hlt, hget⟩ := List.getElem?_eq_some_iff.mp hk
  have hold : (incoming.filterMap Incoming.request?).Perm
      ((old :: incoming.eraseIdx k).filterMap Incoming.request?) := by
    rw [← hget]
    exact (List.getElem_cons_eraseIdx_perm hlt).symm.filterMap _
  have hset := (List.set_perm_cons_eraseIdx hlt new).filterMap Incoming.request?
  rw [List.filterMap_cons_none hnew] at hset
  refine hold.trans ?_
  rw [List.filterMap_cons]
  cases old.request? with
  | none => exact hset.symm
  | some request => exact hset.symm.cons request

/-- A step of the other end, which executes them. -/
theorem remote_other {a : Action} (h : d.step a = some d') :
    Relation.ReflTransGen remoteCalls.step (remote c d) (remote c d') := by
  rcases incoming_of_step h with ⟨hincoming, hexecuted⟩ | ⟨k, old, new, hk, hset, hstep⟩
  · have hsame : remote c d' = remote c d := by
      unfold remote
      rw [hincoming, hexecuted]
    rw [hsame]
  · have hnew : new.request? = none := by
      cases hstep <;> rfl
    have hperm := requests_set hk hnew
    rw [← hset] at hperm
    have hlose : d'.executed = d.executed →
        Relation.ReflTransGen remoteCalls.step (remote c d) (remote c d') := by
      intro hexecuted
      refine .single (Rpc.step_lose rfl ?_ ?_ rfl)
      · apply Multiset.add_le_add_left
        exact Multiset.coe_le.mpr ((List.sublist_append_right _ _).subperm.trans hperm.symm.subperm)
      · unfold remote
        rw [hexecuted]
    cases hstep with
    | ignored msg hexecuted => exact hlose hexecuted
    | found msg w htype hwaiter hexecuted => exact hlose hexecuted
    | delivered w args hexecuted => exact hlose hexecuted
    | called msg result htype hexecuted =>
      have hrequest : (Incoming.received msg).request? = some (msg.ackId, msg.method, msg.args) :=
        if_pos htype
      rw [hrequest] at hperm
      refine .single (Rpc.step_execute (i := msg.ackId) (p := (msg.method, msg.args)) (r := result)
        rfl ?_ ?_ rfl)
      · have heq : (↑(d.incoming.filterMap Incoming.request?) : Multiset Request) =
            (msg.ackId, msg.method, msg.args) ::ₘ ↑(d'.incoming.filterMap Incoming.request?) :=
          Multiset.coe_eq_coe.mpr hperm
        unfold remote
        rw [heq, Multiset.add_cons]
      · unfold remote
        rw [hexecuted, List.map_append]
        rfl

/-- Reading does nothing to the calls of the end that reads. -/
theorem remote_read_own {pkg : GoString} {wire : List GoString} (h : ReadStep c c' pkg) :
    remote c' { d with wire := wire } = remote c d := by
  have hcalls : c'.calls = c.calls := (Prod.mk.inj h.ledger).1
  have houtgoing : c'.outgoing = c.outgoing :=
    (outgoing_grow (queueGrows_nil h.queue)).trans (List.append_nil _)
  unfold remote
  rw [hcalls, houtgoing]

theorem remote_read_other {pkg : GoString} {wire : List GoString} (hwire : d.wire = pkg :: wire)
    (h : ReadStep c c' pkg) :
    Relation.ReflTransGen remoteCalls.step (remote d c) (remote { d with wire := wire } c') := by
  have houtgoing : d.outgoing = pkg :: ({ d with wire := wire } : Channel).outgoing := by
    unfold outgoing
    rw [hwire]
    rfl
  have hexecuted : c'.executed = c.executed := (Prod.mk.inj h.answering).2
  refine .single (Rpc.step_lose rfl ?_ ?_ rfl)
  · unfold remote
    dsimp only
    rw [houtgoing, Multiset.coe_add, Multiset.coe_add, Multiset.coe_le]
    rcases h.incoming with hincoming | ⟨msg, hdecode, hincoming⟩
    · rw [hincoming]
      exact (((List.sublist_cons_self _ _).filterMap _).append_right _).subperm
    · have hpkg : packetRequest? pkg = request? msg := by
        unfold packetRequest?
        rw [hdecode]
      rw [hincoming, List.filterMap_append, ← List.append_assoc]
      cases hrequest : request? msg with
      | none =>
        rw [List.filterMap_cons_none (hpkg.trans hrequest),
          List.filterMap_cons_none (show (Incoming.received msg).request? = none from hrequest),
          List.filterMap_nil, List.append_nil]
      | some request =>
        rw [List.filterMap_cons_some (hpkg.trans hrequest), List.filterMap_cons_some
          (show (Incoming.received msg).request? = some request from hrequest), List.filterMap_nil]
        exact (List.perm_append_singleton request _).subperm
  · unfold remote
    rw [hexecuted]

end Channel

/-! ## Runs -/

structure Linked (c d : Channel) : Prop where
  sound : Sound c d
  ledger : c.Ledger
  answered : Answered c d
  remote : remoteCalls.Reachable (remote c d)

theorem ledger_init {c : Channel} (hcalls : c.calls = []) (hcounter : c.counter = 0)
    (hwaiters : c.waiters = .empty) : c.Ledger where
  bound := by
    rw [hcalls]
    exact Nat.zero_le _
  counter := by
    rw [hcounter, hcalls]
    rfl
  ids := by
    rw [hcalls]
    exact fun _ _ hcall => by cases hcall
  waiters := by
    intro id k
    unfold Channel.Waits
    rw [hwaiters, hcalls]
    constructor
    · exact fun hget => by cases hget
    · rintro ⟨call, hcall, -⟩
      cases hcall

theorem gather_nil {τ : Type} (F : Call → Set τ) : gather F [] = ∅ :=
  Set.eq_empty_of_forall_notMem fun _ ⟨_, hcall, _⟩ => by cases hcall

theorem linked_setup (header : GoString) : Pair Linked (Conn.setup header) := by
  intro x
  refine ⟨sound_setup header x, ?_, ?_, .init ?_⟩
  · cases x <;> exact ledger_init rfl rfl rfl
  · cases x <;> exact fun _ hmem => by cases hmem
  · have hheader : packetRequest? (openMessage ++ header) = none :=
      packetRequest?_control (.inr (.inr (.inr ⟨header, rfl⟩)))
    have hempty : packetRequest? emptyMessage = none :=
      packetRequest?_control (.inr (.inr (.inl rfl)))
    have hrequests : (remote (Conn.setup header x) (Conn.setup header x.other)).requests = 0 := by
      cases x with
      | client => rfl
      | server =>
        show (↑([openMessage ++ header, emptyMessage].filterMap packetRequest?) : Multiset Request) +
          0 = 0
        rw [List.filterMap_cons_none hheader, List.filterMap_cons_none hempty]
        rfl
    have hissued : (remote (Conn.setup header x) (Conn.setup header x.other)).issued = ∅ := by
      cases x <;> exact gather_nil _
    have hreturned : (remote (Conn.setup header x) (Conn.setup header x.other)).returned = ∅ := by
      cases x <;> exact gather_nil _
    have hexecuted : (remote (Conn.setup header x) (Conn.setup header x.other)).executed = [] := by
      cases x <;> rfl
    show _ = _
    rw [← hissued, ← hrequests, ← hexecuted, ← hreturned]

theorem linked_step {c d c' : Channel} {a : Action} (hcd : Linked c d) (hdc : Linked d c)
    (hfits : Fits c a) (h : c.step a = some c') : Linked c' d ∧ Linked d c' := by
  obtain ⟨hsound, hsound'⟩ := sound_step hcd.sound hdc.sound h
  constructor
  · exact ⟨hsound, Channel.ledger_step hcd.ledger hcd.sound.commands.calls hfits h,
      Channel.answered_own hcd.answered hcd.ledger h,
      hcd.remote.steps (Channel.remote_own hcd.sound.commands hcd.ledger hcd.answered h)⟩
  · exact ⟨hsound', hdc.ledger, Channel.answered_other hdc.answered h,
      hdc.remote.steps (Channel.remote_other h)⟩

theorem linked_read {c d c' : Channel} {pkg : GoString} {wire : List GoString} {header : Bool}
    (hcd : Linked c d) (hdc : Linked d c) (hwire : d.wire = pkg :: wire)
    (h : c.readMessage pkg header = some c') :
    Linked c' { d with wire := wire } ∧ Linked { d with wire := wire } c' := by
  obtain ⟨hsound, hsound'⟩ := sound_read hcd.sound hdc.sound hwire h
  have hread := Channel.readStep_of_readMessage h
  constructor
  · have hanswered : Answered c' d := Channel.answered_read hcd.answered hdc.sound hwire hread
    refine ⟨hsound, Channel.ledger_eq hcd.ledger hread.ledger, hanswered, ?_⟩
    rw [Channel.remote_read_own hread]
    exact hcd.remote
  · refine ⟨hsound', Channel.ledger_eq hdc.ledger rfl, ?_,
      hdc.remote.steps (Channel.remote_read_other hwire hread)⟩
    have hexecuted : c'.executed = c.executed := (Prod.mk.inj hread.answering).2
    unfold Answered
    rw [hexecuted]
    exact hdc.answered

/-- The connection refines the remote calls, of each end at the other. -/
theorem everyState_linked : connection.EveryState Setup (Each Fits) (Pair Linked) :=
  everyState_pair linked_setup (fun _ _ _ _ hcd hdc hfits h => linked_step hcd hdc hfits h)
    (fun _ _ _ _ _ _ hcd hdc hwire h => linked_read hcd hdc hwire h)

/-- What was called is what the call asked for, if its method needs no escapes. -/
def Execution.Of (e : Execution) (call : Call) : Prop :=
  e.ackId = call.ackId ∧ (call.method.Plain → e.method = call.method ∧ call.args = .text e.args)

theorem Linked.executed {c d : Channel} (h : Linked c d) {e : Execution} (he : e ∈ d.executed) :
    ∃ call ∈ c.calls, call.sent = some .enqueued ∧ e.Of call := by
  have hgood := Rpc.good h.remote
  obtain ⟨call, hcall, hsent, hasks⟩ := hgood.executed_issued (List.mem_map_of_mem he)
  obtain ⟨json, hargs, hid, hmethod⟩ := Call.asks_eq_some hasks
  refine ⟨call, hcall, hsent, hid, fun hplain => ?_⟩
  rw [(getMethod_payload_iff call.method json).mpr hplain] at hmethod
  obtain ⟨hcalled, hjson⟩ := Prod.mk.inj (Except.ok.inj hmethod)
  exact ⟨hcalled.symm, hargs.trans (congrArg Marshalled.text hjson)⟩

theorem Linked.returned {c d : Channel} (h : Linked c d) {call : Call} (hcall : call ∈ c.calls)
    {result : GoString} (hphase : call.phase = .returned result) :
    call.sent = some .enqueued ∧ ∃ e ∈ d.executed, e.Of call ∧ e.result = .text result := by
  obtain ⟨p, hexecuted⟩ := (Rpc.good h.remote).returned call.ackId (.text result)
    ⟨call, hcall, result, hphase, rfl⟩
  obtain ⟨e, he, hentry⟩ := List.mem_map.mp hexecuted
  obtain ⟨call', hcall', hsent, hof⟩ := h.executed he
  obtain ⟨hid, hrest⟩ := Prod.mk.inj hentry
  -- the call of the execution has the id, so it is this call
  obtain ⟨j, hj⟩ := List.mem_iff_getElem?.mp hcall
  obtain ⟨k, hk⟩ := List.mem_iff_getElem?.mp hcall'
  obtain rfl := h.ledger.eq_of_ackId hj hk (hid.symm.trans hof.1)
  obtain rfl := Option.some.inj (hj.symm.trans hk)
  exact ⟨hsent, e, he, hof, (Prod.mk.inj hrest).2⟩

/-- **Its own result, and at most once.**  In any run of two ends, with less than 2^64 calls each: no
call is executed twice; what is executed was sent by a call; and a call that returns was executed,
with this result. -/
theorem ack_returns_own : connection.EveryState Setup (Each Fits) fun s => ∀ x : End,
    ((s x.other).executed.map Execution.ackId).Nodup ∧
    (∀ e ∈ (s x.other).executed, ∃ call ∈ (s x).calls, call.sent = some .enqueued ∧ e.Of call) ∧
    ∀ call ∈ (s x).calls, ∀ result, call.phase = .returned result →
      call.sent = some .enqueued ∧
      ∃ e ∈ (s x.other).executed, e.Of call ∧ e.result = .text result := by
  intro s hs x
  have hlinked := everyState_linked s hs x
  have hgood := Rpc.good hlinked.remote
  refine ⟨?_, fun e he => hlinked.executed he, ?_⟩
  · have hnodup := hgood.executed_nodup
    unfold remote at hnodup
    rw [List.map_map] at hnodup
    exact hnodup
  · exact fun call hcall result hphase => hlinked.returned hcall hphase

/-- A call that is answered: the server's header and its `40` come first. -/
example :
    ((connection.run (Conn.setup (ascii "{}"))
      [(.client, .ack (ascii "m") (.text (ascii "7"))), (.client, .call 0), (.client, .call 0),
        (.client, .call 0), (.client, .call 0), (.client, .outLoop), (.client, .outLoop),
        (.client, .outLoop), (.server, .read true), (.server, .process 0 (.called (.text (ascii "8")))),
        (.server, .send 0), (.server, .send 0), (.server, .outLoop), (.server, .outLoop),
        (.server, .outLoop), (.server, .outLoop), (.server, .outLoop), (.server, .outLoop),
        (.server, .outLoop), (.server, .outLoop), (.server, .outLoop), (.client, .read true),
        (.client, .read true), (.client, .read true), (.client, .process 0 .ignored),
        (.client, .process 1 .ignored), (.client, .deliver 1)]).map fun s =>
      (s .client).calls.map Call.phase) = some [.returned (ascii "8")] := by decide

/-! ## What is left in the map -/

theorem Channel.Ledger.nodup_ids {c : Channel} (h : c.Ledger) : (c.calls.map Call.ackId).Nodup := by
  rw [List.nodup_iff_injective_get]
  intro i j heq
  have hi := Nat.lt_of_lt_of_eq i.isLt (List.length_map _)
  have hj := Nat.lt_of_lt_of_eq j.isLt (List.length_map _)
  simp only [List.get_eq_getElem, List.getElem_map] at heq
  exact Fin.ext (h.eq_of_ackId (List.getElem?_eq_getElem hi) (List.getElem?_eq_getElem hj) heq)

theorem Channel.Ledger.length_waiters {c : Channel} (h : c.Ledger) :
    c.waiters.rows.length = c.calls.countP Call.hasWaiter := by
  have hnodup : ((c.calls.filter Call.hasWaiter).map Call.ackId).Nodup :=
    h.nodup_ids.sublist (List.filter_sublist.map _)
  have hperm : (c.waiters.rows.map Prod.fst).Perm ((c.calls.filter Call.hasWaiter).map Call.ackId) := by
    rw [List.perm_ext_iff_of_nodup c.waiters.nodup hnodup]
    intro id
    constructor
    · intro hid
      obtain ⟨⟨id', k⟩, hrow, rfl⟩ := List.mem_map.mp hid
      obtain ⟨call, hcall, hid, hwaiter⟩ :=
        (h.waiters id' k).mp (Dictionary.get_eq_some.mpr hrow)
      exact List.mem_map.mpr
        ⟨call, List.mem_filter.mpr ⟨List.mem_of_getElem? hcall, hwaiter⟩, hid⟩
    · intro hid
      obtain ⟨call, hmem, rfl⟩ := List.mem_map.mp hid
      obtain ⟨hmem, hwaiter⟩ := List.mem_filter.mp hmem
      obtain ⟨k, hk⟩ := List.mem_iff_getElem?.mp hmem
      have hget := (h.waiters call.ackId k).mpr ⟨call, hk, rfl, hwaiter⟩
      exact List.mem_map.mpr ⟨_, Dictionary.get_eq_some.mp hget, rfl⟩
  rw [List.countP_eq_length_filter, ← List.length_map Prod.fst, hperm.length_eq, List.length_map]

def Call.isReturned (call : Call) : Bool :=
  match call.phase with
  | .returned _ => true
  | _ => false

/-- **Waiters stay behind.**  A waiter is removed when the call times out or could not be sent, and
never when it was answered: when no call is under way the map has one waiter for every call that
returned a result, and no other. -/
theorem waiters_left : connection.EveryState Setup (Each Fits) fun s => ∀ x : End,
    (∀ id k, (s x).waiters.get id = some k ↔ (s x).Waits id k) ∧
    ((∀ call ∈ (s x).calls, call.phase = .timedOut ∨ ∃ result, call.phase = .returned result) →
      (s x).waiters.rows.length = (s x).calls.countP Call.isReturned) := by
  intro s hs x
  have hlinked := everyState_linked s hs x
  refine ⟨hlinked.ledger.waiters, fun hquiet => ?_⟩
  rw [hlinked.ledger.length_waiters]
  apply List.countP_congr
  intro call hcall
  rcases hquiet call hcall with hphase | ⟨result, hphase⟩
  · unfold Call.hasWaiter Call.isReturned
    rw [hphase]
  · have hsent := (hlinked.returned hcall hphase).1
    unfold Call.hasWaiter Call.isReturned
    rw [hphase]
    dsimp only
    rw [hsent]
    decide

end Kotsadm.Operator.Connection
