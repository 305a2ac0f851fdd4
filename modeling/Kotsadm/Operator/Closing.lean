import Kotsadm.Lib.Refinement
import Kotsadm.Operator.ConnectionSteps

/-!
# Closing — when `closeChannel` gets to the disconnection event

`connect` of the operator waits for the event.  `closeChannel` empties the queue with
`for len(c.out) > 0 { <-c.out }`, while the outgoing loop takes from it as well: when the loop takes
the last message in between, the receive waits with the lock held.
-/

namespace Kotsadm.Operator.Connection

open GoString Protocol

/-- What the operator does: it calls neither `Ack` nor `Emit`, and no method it has registered has a
result. -/
def Quiet : Action → Prop
  | .ack _ _ | .emit _ _ | .process _ (.called _) => False
  | _ => True

instance (a : Action) : Decidable (Quiet a) := by
  unfold Quiet
  split <;> infer_instance

/-- The client is an operator; the other end does anything. -/
def Operates (_ : Conn) (a : End × Action) : Prop := a.1 = .client → Quiet a.2

instance (s : Conn) (a : End × Action) : Decidable (Operates s a) := by
  unfold Operates
  infer_instance

namespace Channel

/-- The messages that the loops are about to send. -/
def pending (c : Channel) : Nat :=
  (if c.pinger = .putting then 1 else 0) + (if c.inLoop = .replying then 1 else 0)

theorem pending_le (c : Channel) : c.pending ≤ 2 := by
  unfold pending
  split <;> split <;> omega

/-- The closing goroutine waits for a message, and nobody is about to send one. -/
structure Stuck (c : Channel) : Prop where
  closing : c.closing = some .receiving
  out : c.out = []
  pending : c.pending = 0

structure Closes (c : Channel) : Prop where
  calls : c.calls = []
  sends : c.sends = []
  alive : c.closing ≠ none → c.alive = false
  -- the queue was empty, and only the loops send
  putting : c.closing = some .putting → c.out.length + c.pending ≤ 2
  events : c.events.count "disconnection" = if c.alive = true ∨ c.closing ≠ none then 0 else 1

variable {c c' : Channel}

/-- What the loops and the closing goroutine know of the channel. -/
def loops (c : Channel) : List GoString × Bool × Option Closing × Pinger × InLoop × List String :=
  (c.out, c.alive, c.closing, c.pinger, c.inLoop, c.events)

theorem loops_quiet {a : Action} (hcalls : c.calls = []) (hsends : c.sends = []) (ha : Quiet a)
    (h : c.step a = some c') :
    (c'.calls = [] ∧ c'.sends = []) ∧ (c'.loops = c.loops ∨
      a ∈ [.outLoop, .failRead, .reply, .ping, .enterClose, .stepClose]) := by
  have hframe := frame_of_step h
  cases a with
  | ack method args | emit method args => exact ha.elim
  | call k | timeout k =>
    obtain ⟨call, hcall, -⟩ := Option.bind_eq_some_iff.mp h
    rw [hcalls] at hcall
    cases hcall
  | send k =>
    obtain ⟨sending, hsending, -⟩ := Option.bind_eq_some_iff.mp h
    rw [hsends] at hsending
    cases hsending
  | process k outcome =>
    cases outcome with
    | called result => exact ha.elim
    | ignored =>
      unfold step at h
      dsimp only at h
      split at h
      next msg _ =>
        cases h
        unfold processIncomingMessage
        split
        · exact ⟨⟨hcalls, hsends⟩, .inl rfl⟩
        · split <;> exact ⟨⟨hcalls, hsends⟩, .inl rfl⟩
        · exact ⟨⟨hcalls, hsends⟩, .inl rfl⟩
      next => cases h
  | deliver k =>
    unfold step at h
    dsimp only at h
    split at h
    · obtain ⟨call, hcall, -⟩ := Option.bind_eq_some_iff.mp h
      rw [hcalls] at hcall
      cases hcall
    · cases h
  | failWrite =>
    unfold step failWrite at h
    dsimp only at h
    split at h
    · cases h
      exact ⟨⟨hcalls, hsends⟩, .inl rfl⟩
    · cases h
  | close =>
    cases h
    exact ⟨⟨hcalls, hsends⟩, .inl rfl⟩
  | read header => cases h
  | outLoop | failRead | reply | ping | enterClose | stepClose =>
    obtain ⟨hcalls', -⟩ := Prod.mk.inj (hframe.ledger id)
    obtain ⟨hsends', -⟩ := Prod.mk.inj (hframe.answering id)
    exact ⟨⟨hcalls'.trans hcalls, hsends'.trans hsends⟩, .inr (by decide)⟩

theorem closes_same (hc : Closes c) (hcalls : c'.calls = []) (hsends : c'.sends = [])
    (hloops : c'.loops = c.loops) : Closes c' := by
  unfold loops at hloops
  simp only [Prod.mk.injEq] at hloops
  obtain ⟨hout, halive, hclosing, hpinger, hinLoop, hevents⟩ := hloops
  have hpending : c'.pending = c.pending := by
    unfold pending
    rw [hpinger, hinLoop]
  refine ⟨hcalls, hsends, ?_, ?_, ?_⟩
  · rw [hclosing, halive]
    exact hc.alive
  · rw [hclosing, hout, hpending]
    exact hc.putting
  · rw [hevents, halive, hclosing]
    exact hc.events

/-- The queue gets shorter, or what is pending goes into it. -/
theorem closes_queue (hc : Closes c) (hcalls : c'.calls = []) (hsends : c'.sends = [])
    (halive : c'.alive = c.alive) (hclosing : c'.closing = c.closing) (hevents : c'.events = c.events)
    (hout : c.closing = some .putting → c'.out.length + c'.pending ≤ c.out.length + c.pending) :
    Closes c' := by
  refine ⟨hcalls, hsends, ?_, ?_, ?_⟩
  · rw [hclosing, halive]
    exact hc.alive
  · rw [hclosing]
    exact fun hputting => Nat.le_trans (hout hputting) (hc.putting hputting)
  · rw [hevents, halive, hclosing]
    exact hc.events

theorem closes_stepOutLoop (hc : Closes c) (hcalls : c'.calls = []) (hsends : c'.sends = [])
    (h : c.stepOutLoop = some c') : Closes c' := by
  unfold stepOutLoop at h
  split at h
  · split at h <;> (cases h; exact closes_queue hc hcalls hsends rfl rfl rfl fun _ => Nat.le_refl _)
  · split at h
    next => cases h
    next msg out hout =>
      have hle : c.closing = some .putting → out.length + c.pending ≤ c.out.length + c.pending := by
        intro _
        rw [hout, List.length_cons]
        omega
      split at h <;> (cases h; exact closes_queue hc hcalls hsends rfl rfl rfl hle)
  · split at h
    · cases h
      exact closes_queue hc hcalls hsends rfl rfl rfl fun _ => Nat.le_refl _
    · cases h
  · cases h

theorem closes_failRead (hc : Closes c) (hcalls : c'.calls = []) (hsends : c'.sends = [])
    (h : c.failRead = some c') : Closes c' := by
  unfold failRead at h
  split at h
  next hreading =>
    cases h
    refine closes_queue hc hcalls hsends rfl rfl rfl fun _ => Nat.add_le_add_left ?_ _
    unfold pending
    rw [hreading]
    exact Nat.le_refl _
  next => cases h

theorem closes_reply (hc : Closes c) (hcalls : c'.calls = []) (hsends : c'.sends = [])
    (h : c.reply = some c') : Closes c' := by
  unfold reply at h
  split at h
  next hreplying =>
    obtain ⟨c₁, hput, rfl⟩ := Option.map_eq_some_iff.mp h
    obtain ⟨-, rfl⟩ := put_eq_some hput
    refine closes_queue hc hcalls hsends rfl rfl rfl fun _ => ?_
    show (c.out ++ [pongMessage]).length + ((if c.pinger = .putting then 1 else 0) + 0) ≤ _
    unfold pending
    rw [if_pos hreplying, List.length_append, List.length_singleton]
    omega
  next => cases h

theorem closes_stepPinger (hc : Closes c) (hcalls : c'.calls = []) (hsends : c'.sends = [])
    (h : c.stepPinger = some c') : Closes c' := by
  unfold stepPinger at h
  split at h
  next hpinger =>
    split at h
    next => cases h
    next hclosing =>
      have hputting : c.closing ≠ some .putting := by
        intro hputting
        rw [hputting] at hclosing
        exact hclosing (Option.some_ne_none _)
      split at h <;>
        (cases h; exact closes_queue hc hcalls hsends rfl rfl rfl fun h => absurd h hputting)
  next hpinger =>
    obtain ⟨c₁, hput, rfl⟩ := Option.map_eq_some_iff.mp h
    obtain ⟨-, rfl⟩ := put_eq_some hput
    refine closes_queue hc hcalls hsends rfl rfl rfl fun _ => ?_
    show (c.out ++ [pingMessage]).length + (0 + (if c.inLoop = .replying then 1 else 0)) ≤ _
    unfold pending
    rw [if_pos hpinger, List.length_append, List.length_singleton]
    omega
  next => cases h

theorem closes_enterClose (hc : Closes c) (hcalls : c'.calls = []) (hsends : c'.sends = [])
    (h : c.enterClose = some c') : Closes c' := by
  unfold enterClose at h
  split at h
  next => cases h
  next hfree =>
    split at h
    next halive =>
      cases h
      refine ⟨hcalls, hsends, fun _ => rfl, fun hputting => (by cases hputting), ?_⟩
      rw [if_pos (.inr (Option.some_ne_none _))]
      have hevents := hc.events
      rw [if_pos (.inl halive)] at hevents
      exact hevents
    next =>
      cases h
      exact closes_queue hc hcalls hsends rfl rfl rfl fun _ => Nat.le_refl _

theorem closes_stepClose (hc : Closes c) (hcalls : c'.calls = []) (hsends : c'.sends = [])
    {closing : Closing} (hclosing : c.closing = some closing) (h : c.stepClose closing = some c') :
    Closes c' := by
  have hsome : c.closing ≠ none := by
    rw [hclosing]
    exact Option.some_ne_none _
  have halive := hc.alive hsome
  have hevents := hc.events
  rw [if_pos (.inr hsome)] at hevents
  -- the event comes with the last step
  have hgoes : ∀ c', c'.calls = [] → c'.sends = [] → c'.alive = c.alive → c'.events = c.events →
      c'.closing ≠ none → (c'.closing = some .putting → c'.out.length + c'.pending ≤ 2) →
      Closes c' := by
    intro c' hcalls hsends halive' hevents' hclosing' hputting
    refine ⟨hcalls, hsends, fun _ => halive'.trans halive, hputting, ?_⟩
    rw [hevents', if_pos (.inr hclosing')]
    exact hevents
  cases closing with
  | checking =>
    dsimp only [stepClose] at h
    split at h
    next =>
      cases h
      exact hgoes _ hcalls hsends rfl rfl (Option.some_ne_none _) fun hputting => by cases hputting
    next hempty =>
      cases h
      refine hgoes _ hcalls hsends rfl rfl (Option.some_ne_none _) fun _ => ?_
      have hlength : c.out.length = 0 := by omega
      show c.out.length + c.pending ≤ 2
      rw [hlength, Nat.zero_add]
      exact c.pending_le
  | receiving =>
    dsimp only [stepClose] at h
    split at h
    next => cases h
    next =>
      cases h
      exact hgoes _ hcalls hsends rfl rfl (Option.some_ne_none _) fun hputting => by cases hputting
  | putting =>
    dsimp only [stepClose] at h
    split at h
    next =>
      cases h
      refine ⟨hcalls, hsends, fun hnone => absurd rfl hnone, fun hputting => (by cases hputting), ?_⟩
      show (c.events ++ ["disconnection"]).count "disconnection" =
        if c.alive = true ∨ (none : Option Closing) ≠ none then 0 else 1
      rw [List.count_append, hevents, halive]
      rfl
    next => cases h

theorem closes_step {a : Action} (hc : Closes c) (ha : Quiet a) (h : c.step a = some c') :
    Closes c' := by
  obtain ⟨⟨hcalls, hsends⟩, hloops | hmem⟩ := loops_quiet hc.calls hc.sends ha h
  · exact closes_same hc hcalls hsends hloops
  · simp only [List.mem_cons, List.not_mem_nil, or_false] at hmem
    rcases hmem with rfl | rfl | rfl | rfl | rfl | rfl
    · exact closes_stepOutLoop hc hcalls hsends h
    · exact closes_failRead hc hcalls hsends h
    · exact closes_reply hc hcalls hsends h
    · exact closes_stepPinger hc hcalls hsends h
    · exact closes_enterClose hc hcalls hsends h
    · obtain ⟨closing, hclosing, h⟩ := Option.bind_eq_some_iff.mp h
      exact closes_stepClose hc hcalls hsends hclosing h

theorem closes_read {pkg : GoString} {header : Bool} (hc : Closes c)
    (h : c.readMessage pkg header = some c') : Closes c' := by
  have hread := readStep_of_readMessage h
  have hcalls : c'.calls = [] := (Prod.mk.inj hread.ledger).1.trans hc.calls
  have hsends : c'.sends = [] := (Prod.mk.inj hread.answering).1.trans hc.sends
  have hgrows := queueGrows_nil hread.queue
  have halive : c'.alive = true := hgrows.alive.trans hread.alive
  have hopen : c'.closing = none := by
    rw [hgrows.closing]
    by_contra hclosing
    exact absurd ((hc.alive hclosing).symm.trans hread.alive) (by decide)
  have hevents : c'.events.count "disconnection" = c.events.count "disconnection" := by
    rcases hread.events with hevents | hevents
    · rw [hevents]
    · rw [hevents, List.count_append]
      rfl
  refine ⟨hcalls, hsends, fun hclosing => absurd hopen hclosing, fun hputting => ?_, ?_⟩
  · rw [hopen] at hputting
    cases hputting
  · rw [hevents, hc.events, if_pos (.inl hread.alive), if_pos (.inl halive)]

/-! ## Stuck -/

theorem stuck_step {a : Action} (hs : Stuck c) (hc : Closes c) (ha : Quiet a)
    (h : c.step a = some c') : Stuck c' := by
  obtain ⟨hclosing, hout, hpending⟩ := hs
  have halive := hc.alive (by rw [hclosing]; exact Option.some_ne_none _)
  have hpinger : c.pinger ≠ .putting := by
    intro hputting
    unfold pending at hpending
    rw [if_pos hputting] at hpending
    omega
  have hinLoop : c.inLoop ≠ .replying := by
    intro hreplying
    unfold pending at hpending
    rw [if_pos hreplying] at hpending
    omega
  obtain ⟨-, hloops | hmem⟩ := loops_quiet hc.calls hc.sends ha h
  · unfold loops at hloops
    simp only [Prod.mk.injEq] at hloops
    obtain ⟨hout', -, hclosing', hpinger', hinLoop', -⟩ := hloops
    refine ⟨hclosing'.trans hclosing, hout'.trans hout, ?_⟩
    unfold pending at hpending ⊢
    rw [hpinger', hinLoop']
    exact hpending
  · simp only [List.mem_cons, List.not_mem_nil, or_false] at hmem
    rcases hmem with rfl | rfl | rfl | rfl | rfl | rfl
    · -- there is nothing to take, and the connection is closed
      unfold step stepOutLoop at h
      dsimp only at h
      split at h
      · split at h <;> (cases h; exact ⟨hclosing, hout, hpending⟩)
      · rw [hout] at h
        cases h
      · rw [halive] at h
        cases h
      · cases h
    · unfold step failRead at h
      dsimp only at h
      split at h
      · cases h
        refine ⟨hclosing, hout, ?_⟩
        show (if c.pinger = .putting then 1 else 0) + 0 = 0
        rw [if_neg hpinger]
      · cases h
    · unfold step reply at h
      dsimp only at h
      rw [if_neg hinLoop] at h
      cases h
    · unfold step stepPinger at h
      dsimp only at h
      split at h
      · rw [hclosing, if_pos (Option.some_ne_none _)] at h
        cases h
      next hputting => exact absurd hputting hpinger
      next => cases h
    · unfold step enterClose at h
      dsimp only at h
      rw [hclosing, if_pos (.inr (Option.some_ne_none _))] at h
      cases h
    · unfold step at h
      dsimp only at h
      rw [hclosing] at h
      change c.stepClose .receiving = some c' at h
      dsimp only [stepClose] at h
      rw [hout] at h
      cases h

/-! ## Otherwise the goroutine finishes -/

/-- Steps of the channel that the operator takes by itself. -/
def Steps : Channel → Channel → Prop :=
  Relation.ReflTransGen fun c c' => ∃ a, Quiet a ∧ c.step a = some c'

theorem steps_stepClose {closing : Closing} (hclosing : c.closing = some closing)
    (h : c.stepClose closing = some c') : Steps c c' := by
  refine .single ⟨.stepClose, trivial, ?_⟩
  show c.closing.bind c.stepClose = some c'
  rw [hclosing]
  exact h

theorem finishes_putting (hclosing : c.closing = some .putting)
    (hlength : c.out.length < queueBufferSize) :
    ∃ c', Steps c c' ∧ "disconnection" ∈ c'.events := by
  refine ⟨_, steps_stepClose hclosing (if_pos hlength), ?_⟩
  exact List.mem_append_right _ List.mem_cons_self

/-- The goroutine by itself empties the queue. -/
theorem finishes_checking {out : List GoString} (hout : c.out = out)
    (hclosing : c.closing = some .checking) :
    ∃ c', Steps c c' ∧ "disconnection" ∈ c'.events := by
  induction out generalizing c with
  | nil =>
    have hempty : ¬ 0 < c.out.length := by
      rw [hout]
      decide
    have hstep := steps_stepClose hclosing (if_neg hempty)
    have hlength : ({ c with closing := some .putting } : Channel).out.length < queueBufferSize := by
      show c.out.length < _
      rw [hout]
      decide
    obtain ⟨c', hsteps, hevent⟩ := finishes_putting rfl hlength
    exact ⟨c', hstep.trans hsteps, hevent⟩
  | cons msg out ih =>
    have hfull : 0 < c.out.length := by
      rw [hout]
      exact Nat.succ_pos _
    have hstep := steps_stepClose hclosing (if_pos hfull)
    have htake : ({ c with closing := some .receiving } : Channel).stepClose .receiving =
        some { c with out := out, closing := some .checking } := by
      dsimp only [stepClose]
      rw [hout]
    obtain ⟨c', hsteps, hevent⟩ := ih (c := { c with out := out, closing := some .checking }) rfl rfl
    exact ⟨c', (hstep.trans (steps_stepClose rfl htake)).trans hsteps, hevent⟩

theorem finishes_receiving {msg : GoString} {out : List GoString} (hout : c.out = msg :: out)
    (hclosing : c.closing = some .receiving) :
    ∃ c', Steps c c' ∧ "disconnection" ∈ c'.events := by
  have htake : c.stepClose .receiving = some { c with out := out, closing := some .checking } := by
    dsimp only [stepClose]
    rw [hout]
  obtain ⟨c', hsteps, hevent⟩ := finishes_checking
    (c := { c with out := out, closing := some .checking }) rfl rfl
  exact ⟨c', (steps_stepClose hclosing htake).trans hsteps, hevent⟩

/-- A message that is sent in time lets the goroutine go on. -/
theorem finishes_robbed (hclosing : c.closing = some .receiving) (hout : c.out = [])
    (hpending : c.pending ≠ 0) : ∃ c', Steps c c' ∧ "disconnection" ∈ c'.events := by
  have hput : ∀ command, c.put command =
      some { c with out := [command], enqueued := c.enqueued ++ [command] } := by
    intro command
    unfold put
    rw [hout]
    rfl
  by_cases hpinger : c.pinger = .putting
  · have hstep : c.stepPinger = some { c with
        out := [pingMessage], enqueued := c.enqueued ++ [pingMessage], pinger := .sleeping } := by
      unfold stepPinger
      rw [hpinger]
      dsimp only
      rw [hput]
      rfl
    obtain ⟨c', hsteps, hevent⟩ := finishes_receiving (c := { c with
      out := [pingMessage], enqueued := c.enqueued ++ [pingMessage], pinger := .sleeping })
      rfl hclosing
    refine ⟨c', .trans (.single ⟨.ping, trivial, hstep⟩) hsteps,
      hevent⟩
  · have hreplying : c.inLoop = .replying := by
      by_contra hreplying
      apply hpending
      unfold pending
      rw [if_neg hpinger, if_neg hreplying]
    have hstep : c.reply = some { c with
        out := [pongMessage], enqueued := c.enqueued ++ [pongMessage], inLoop := .reading } := by
      unfold reply
      rw [if_pos hreplying, hput]
      rfl
    obtain ⟨c', hsteps, hevent⟩ := finishes_receiving (c := { c with
      out := [pongMessage], enqueued := c.enqueued ++ [pongMessage], inLoop := .reading })
      rfl hclosing
    refine ⟨c', .trans (.single ⟨.reply, trivial, hstep⟩) hsteps,
      hevent⟩

theorem finishes (hc : Closes c) (hclosing : c.closing ≠ none) (hstuck : ¬ Stuck c) :
    ∃ c', Steps c c' ∧ "disconnection" ∈ c'.events := by
  obtain ⟨closing, hclosing⟩ := Option.ne_none_iff_exists'.mp hclosing
  cases closing with
  | checking => exact finishes_checking rfl hclosing
  | putting =>
    have hputting := hc.putting hclosing
    exact finishes_putting hclosing (by unfold queueBufferSize; omega)
  | receiving =>
    cases hout : c.out with
    | cons msg out => exact finishes_receiving hout hclosing
    | nil => exact finishes_robbed hclosing hout fun hpending => hstuck ⟨hclosing, hout, hpending⟩

end Channel

/-! ## Runs of the operator -/

/-- What the channel does by itself is a run of the connection. -/
theorem reachable_steps {s : Conn} {c : Channel} (h : Channel.Steps (s .client) c) :
    connection.Reachable (· = s) Operates (Function.update s .client c) := by
  induction h with
  | refl =>
    rw [Function.update_eq_self]
    exact .init rfl
  | @tail b c _ hstep ih =>
    obtain ⟨a, hquiet, hstep⟩ := hstep
    refine ih.step (a := (.client, a)) (fun _ => hquiet) ?_
    have hclient : (Function.update s .client b .client).step a = some c := by
      rw [Function.update_self]
      exact hstep
    have hrun := Conn.step_of_step hclient
    rw [Function.update_idem] at hrun
    exact hrun

theorem closes_run {s s' : Conn} {a : End × Action} (hs : (s .client).Closes) (ha : Operates s a)
    (h : connection.step s a = some s') :
    (s' .client).Closes ∧ ((s .client).Stuck → (s' .client).Stuck) := by
  obtain ⟨x, action⟩ := a
  cases x with
  | client =>
    rcases Conn.step_cases h with ⟨c, hstep, rfl⟩ | ⟨header, pkg, wire, c, -, -, hread, rfl⟩
    · rw [Function.update_self]
      exact ⟨Channel.closes_step hs (ha rfl) hstep, fun hstuck =>
        Channel.stuck_step hstuck hs (ha rfl) hstep⟩
    · rw [Function.update_self]
      refine ⟨Channel.closes_read hs hread, fun hstuck => ?_⟩
      have halive := hs.alive (by rw [hstuck.closing]; exact Option.some_ne_none _)
      have hopen := (Channel.readStep_of_readMessage hread).alive
      exact absurd (halive.symm.trans hopen) (by decide)
  | server =>
    have hclient : End.client ≠ .server := by decide
    rcases Conn.step_cases h with ⟨c, -, rfl⟩ | ⟨header, pkg, wire, c, -, -, -, rfl⟩
    · rw [Function.update_of_ne hclient]
      exact ⟨hs, id⟩
    · rw [Function.update_of_ne hclient]
      have hupdate : Function.update s End.server.other { s End.server.other with wire := wire }
          .client = { s .client with wire := wire } := Function.update_self ..
      rw [hupdate]
      exact ⟨⟨hs.calls, hs.sends, hs.alive, hs.putting, hs.events⟩,
        fun hstuck => ⟨hstuck.closing, hstuck.out, hstuck.pending⟩⟩

theorem everyState_closes : connection.EveryState Setup Operates fun s => (s .client).Closes := by
  apply Machine.everyState_of_inv
  · rintro s ⟨header, rfl⟩
    exact ⟨rfl, rfl, fun hclosing => absurd rfl hclosing, fun hputting => (by cases hputting), rfl⟩
  · intro s a s' hs ha h
    exact (closes_run hs ha h).1

/-- A ping is in the queue when the channel closes, and the outgoing loop takes it after the goroutine
has looked. -/
def robbing : List (End × Action) :=
  [(.client, .ping), (.client, .ping), (.client, .outLoop), (.client, .failRead),
    (.client, .enterClose), (.client, .stepClose), (.client, .outLoop)]

theorem stuck_reachable : ∃ s, connection.Reachable Setup Operates s ∧ (s .client).Stuck := by
  have hsome : (connection.guardedRun Operates (Conn.setup []) robbing).isSome = true := by decide
  obtain ⟨s, hrun⟩ := Option.isSome_iff_exists.mp hsome
  refine ⟨s, (Machine.Reachable.init ⟨[], rfl⟩).guardedRun robbing hrun, ?_⟩
  have hend : (connection.guardedRun Operates (Conn.setup []) robbing).map (fun s =>
      ((s .client).closing, (s .client).out, (s .client).pending)) =
        some (some .receiving, [], 0) := by decide
  rw [hrun] at hend
  simp only [Option.map_some, Option.some.injEq, Prod.mk.injEq] at hend
  exact ⟨hend.1, hend.2.1, hend.2.2⟩

/-- **When the disconnection is noticed.**  In every run of an operator the disconnection event comes
once, at the end of `closeChannel`, and never before.  From a state in which a goroutine is closing
the channel some run gets to the event, unless the goroutine waits for a message of an empty queue and
neither loop is about to send one; from there no run does, and there are runs that get there. -/
theorem disconnection_iff :
    (connection.EveryState Setup Operates fun s =>
      ((s .client).events.count "disconnection" =
        if (s .client).alive = true ∨ (s .client).closing ≠ none then 0 else 1) ∧
      ((s .client).closing ≠ none →
        ((∃ s', connection.Reachable (· = s) Operates s' ∧ "disconnection" ∈ (s' .client).events) ↔
          ¬ (s .client).Stuck))) ∧
    ∃ s, connection.Reachable Setup Operates s ∧ (s .client).Stuck := by
  refine ⟨fun s hs => ?_, stuck_reachable⟩
  have hcloses := everyState_closes s hs
  refine ⟨hcloses.events, fun hclosing => ⟨?_, ?_⟩⟩
  · rintro ⟨s', hreach, hevent⟩ hstuck
    have hstuck' : (s' .client).Closes ∧ (s' .client).Stuck := by
      refine Machine.everyState_of_inv (I := fun t => (t .client).Closes ∧ (t .client).Stuck) ?_ ?_
        s' hreach
      · rintro t rfl
        exact ⟨hcloses, hstuck⟩
      · rintro t a t' ⟨ht, hstuck⟩ ha h
        obtain ⟨hcloses, hkept⟩ := closes_run ht ha h
        exact ⟨hcloses, hkept hstuck⟩
    have hevents := hstuck'.1.events
    rw [if_pos (.inr (by rw [hstuck'.2.closing]; exact Option.some_ne_none _))] at hevents
    exact List.count_eq_zero.mp hevents hevent
  · intro hstuck
    obtain ⟨c, hsteps, hevent⟩ := Channel.finishes hcloses hclosing hstuck
    refine ⟨_, reachable_steps hsteps, ?_⟩
    rw [Function.update_self]
    exact hevent

end Kotsadm.Operator.Connection
