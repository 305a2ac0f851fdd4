import Kotsadm.Lib.Processes
import Kotsadm.Operator.SendOrder

/-!
# Waiters — the ids of the calls and the map `resultWaiters`

The counter is an `int`: as long as a channel makes less than 2^64 calls their ids are its own.  Then
the map holds exactly the waiters that were added and not removed.
-/

namespace Kotsadm.Operator.Connection

open GoString Protocol

/-- The counter has not come round. -/
def Fits (c : Channel) : Action → Prop
  | .ack _ _ => c.calls.length < 2 ^ 64
  | _ => True

theorem ofNat_add_one (n : Nat) : Int64.ofNat n + 1 = Int64.ofNat (n + 1) := by
  rw [Int64.ofNat_add]
  rfl

theorem ofNat_injective {j k : Nat} (hj : j < 2 ^ 64) (hk : k < 2 ^ 64)
    (h : Int64.ofNat (j + 1) = Int64.ofNat (k + 1)) : j = k := by
  have hbits := congrArg Int64.toBitVec h
  simp only [Int64.toBitVec_ofNat'] at hbits
  have hnat := congrArg BitVec.toNat hbits
  simp only [BitVec.toNat_ofNat] at hnat
  omega

/-- The waiter was added and not removed: `Ack` keeps it when there is an answer. -/
def Call.hasWaiter (call : Call) : Bool :=
  match call.phase with
  | .numbered | .timedOut => false
  | .registered | .encoded _ | .putting _ | .removing => true
  | .selecting | .returned _ | .expired => decide (call.sent ≠ some .failed)

namespace Channel

variable {c c' : Channel}

/-- A waiter belongs to a call. -/
def Waits (c : Channel) (id : Int64) (k : Nat) : Prop :=
  ∃ call, c.calls[k]? = some call ∧ call.ackId = id ∧ call.hasWaiter = true

structure Ledger (c : Channel) : Prop where
  bound : c.calls.length ≤ 2 ^ 64
  counter : c.counter = Int64.ofNat c.calls.length
  ids : ∀ (k : Nat) (call : Call), c.calls[k]? = some call → call.ackId = Int64.ofNat (k + 1)
  waiters : ∀ id k, c.waiters.get id = some k ↔ c.Waits id k

theorem Ledger.eq_of_ackId (h : Ledger c) {j k : Nat} {first second : Call}
    (hfirst : c.calls[j]? = some first) (hsecond : c.calls[k]? = some second)
    (hid : first.ackId = second.ackId) : j = k := by
  have hj := (List.getElem?_eq_some_iff.mp hfirst).1
  have hk := (List.getElem?_eq_some_iff.mp hsecond).1
  rw [h.ids j first hfirst, h.ids k second hsecond] at hid
  have hbound := h.bound
  exact ofNat_injective (by omega) (by omega) hid

theorem get_remove_iff {waiters : Dictionary Int64 Nat} {id id' : Int64} {k : Nat} :
    (waiters.remove id).get id' = some k ↔ waiters.get id' = some k ∧ id' ≠ id := by
  rw [Dictionary.get_eq_some, Dictionary.get_eq_some, Dictionary.mem_remove]

theorem waits_ack {method : GoString} {args : Marshalled} {id : Int64} {k : Nat} :
    (c.ack method args).Waits id k ↔ c.Waits id k := by
  constructor
  · rintro ⟨call, hcall, hid, hwaiter⟩
    rcases Processes.getElem?_concat_cases hcall with ⟨-, rfl⟩ | ⟨-, hold⟩
    · cases hwaiter
    · exact ⟨call, hold, hid, hwaiter⟩
  · rintro ⟨call, hcall, hid, hwaiter⟩
    have hlt := (List.getElem?_eq_some_iff.mp hcall).1
    exact ⟨call, (List.getElem?_append_left hlt).trans hcall, hid, hwaiter⟩

theorem ledger_ack (h : Ledger c) (hfits : c.calls.length < 2 ^ 64) (method : GoString)
    (args : Marshalled) : Ledger (c.ack method args) where
  bound := by
    show (c.calls ++ [_]).length ≤ _
    rw [List.length_append]
    exact hfits
  counter := by
    show c.counter + 1 = Int64.ofNat (c.calls ++ [_]).length
    rw [h.counter, List.length_append]
    exact ofNat_add_one _
  ids := by
    intro k call hcall
    rcases Processes.getElem?_concat_cases hcall with ⟨rfl, rfl⟩ | ⟨-, hold⟩
    · show c.counter + 1 = _
      rw [h.counter]
      exact ofNat_add_one _
    · exact h.ids k call hold
  waiters := by
    intro id k
    rw [waits_ack]
    exact h.waiters id k

theorem CallStep.waits {k : Nat} {call call' : Call} (h : CallStep c c' k call call') {id : Int64}
    {j : Nat} : c'.Waits id j ↔
      (j = k ∧ call.ackId = id ∧ call'.hasWaiter = true) ∨ (j ≠ k ∧ c.Waits id j) := by
  unfold Waits
  rw [h.calls]
  constructor
  · rintro ⟨other, hother, hid, hwaiter⟩
    rcases Processes.getElem?_set_cases hother with ⟨hj, rfl⟩ | ⟨hj, hold⟩
    · exact .inl ⟨hj, h.next.kept.1 ▸ hid, hwaiter⟩
    · exact .inr ⟨hj, other, hold, hid, hwaiter⟩
  · rintro (⟨rfl, hid, hwaiter⟩ | ⟨hj, other, hother, hid, hwaiter⟩)
    · have hlt := (List.getElem?_eq_some_iff.mp h.found).1
      exact ⟨call', List.getElem?_set_self hlt, h.next.kept.1.trans hid, hwaiter⟩
    · exact ⟨other, (List.getElem?_set_ne (Ne.symm hj)).trans hother, hid, hwaiter⟩

/-- A step of a call changes the map as it changes whether the call has a waiter. -/
theorem waiters_next {k : Nat} {call call' : Call} (hgood : call.Good) (hnext : call.Next call')
    (waiters : Dictionary Int64 Nat) :
    (waiters' : Dictionary Int64 Nat) → waiters' = call.phase.changeWaiters call.ackId k waiters →
      (call'.hasWaiter = true ∧ waiters' = waiters.set call.ackId k) ∨
      (call'.hasWaiter = false ∧ waiters' = waiters.remove call.ackId) ∨
      (call'.hasWaiter = call.hasWaiter ∧ waiters' = waiters) := by
  rintro waiters' rfl
  have hsame : call.phase ≠ .numbered → call.phase ≠ .removing → call.phase ≠ .expired →
      call.phase.changeWaiters call.ackId k waiters = waiters := by
    intro hnumbered hremoving hexpired
    unfold Phase.changeWaiters
    split
    next hphase => exact absurd hphase hnumbered
    next hphase => exact absurd hphase hremoving
    next hphase => exact absurd hphase hexpired
    next => rfl
  cases hnext with
  | register hphase =>
    left
    exact ⟨rfl, by rw [hphase]; rfl⟩
  | remove hphase =>
    right; left
    refine ⟨?_, by rw [hphase]; rfl⟩
    show decide (call.sent ≠ some .failed) = false
    rw [hgood.removing hphase]
    rfl
  | giveUp hphase =>
    right; left
    exact ⟨rfl, by rw [hphase]; rfl⟩
  | refuse hphase =>
    right; right
    rcases hphase with hphase | ⟨command, hphase⟩
    · exact ⟨by unfold Call.hasWaiter; rw [hphase], by rw [hphase]; rfl⟩
    · exact ⟨by unfold Call.hasWaiter; rw [hphase], by rw [hphase]; rfl⟩
  | encode json command hphase hargs hencode =>
    exact .inr (.inr ⟨by unfold Call.hasWaiter; rw [hphase], by rw [hphase]; rfl⟩)
  | panic hphase =>
    exact .inr (.inr ⟨by unfold Call.hasWaiter; rw [hphase]; rfl, by rw [hphase]; rfl⟩)
  | check command hphase =>
    exact .inr (.inr ⟨by unfold Call.hasWaiter; rw [hphase], by rw [hphase]; rfl⟩)
  | put command hphase =>
    exact .inr (.inr ⟨by unfold Call.hasWaiter; rw [hphase]; rfl, by rw [hphase]; rfl⟩)
  | expire hphase =>
    exact .inr (.inr ⟨by unfold Call.hasWaiter; rw [hphase], by rw [hphase]; rfl⟩)
  | deliver args hphase =>
    exact .inr (.inr ⟨by unfold Call.hasWaiter; rw [hphase], by rw [hphase]; rfl⟩)

theorem ledger_callStep {k : Nat} {call call' : Call} (h : Ledger c)
    (hgood : call.Good) (hstep : CallStep c c' k call call') : Ledger c' where
  bound := by
    rw [hstep.calls, List.length_set]
    exact h.bound
  counter := by
    rw [hstep.calls, List.length_set, hstep.counter]
    exact h.counter
  ids := by
    intro j other hother
    rw [hstep.calls] at hother
    rcases Processes.getElem?_set_cases hother with ⟨rfl, rfl⟩ | ⟨-, hold⟩
    · rw [hstep.next.kept.1]
      exact h.ids j call hstep.found
    · exact h.ids j other hold
  waiters := by
    intro id j
    have hunique : c.Waits call.ackId j → j = k := by
      rintro ⟨other, hother, hid, -⟩
      exact h.eq_of_ackId hother hstep.found hid
    rw [hstep.waits]
    rcases waiters_next hgood hstep.next c.waiters c'.waiters hstep.waiters with
      ⟨hwaiter, hwaiters⟩ | ⟨hwaiter, hwaiters⟩ | ⟨hwaiter, hwaiters⟩
    · rw [hwaiters, Dictionary.get_set, hwaiter]
      by_cases hid : call.ackId = id
      · subst hid
        rw [if_pos rfl, Option.some.injEq, eq_comm]
        constructor
        · exact fun hj => .inl ⟨hj, rfl, rfl⟩
        · rintro (⟨hj, -, -⟩ | ⟨-, hwaits⟩)
          · exact hj
          · exact hunique hwaits
      · rw [if_neg hid, h.waiters]
        constructor
        · intro hwaits
          refine .inr ⟨?_, hwaits⟩
          rintro rfl
          obtain ⟨other, hother, hid', -⟩ := hwaits
          rw [hstep.found] at hother
          cases hother
          exact hid hid'
        · rintro (⟨-, hid', -⟩ | ⟨-, hwaits⟩)
          · exact absurd hid' hid
          · exact hwaits
    · rw [hwaiters, get_remove_iff, hwaiter, h.waiters]
      constructor
      · rintro ⟨hwaits, hid⟩
        refine .inr ⟨?_, hwaits⟩
        rintro rfl
        obtain ⟨other, hother, hid', -⟩ := hwaits
        rw [hstep.found] at hother
        cases hother
        exact hid hid'.symm
      · rintro (⟨-, -, hfalse⟩ | ⟨hj, hwaits⟩)
        · cases hfalse
        · refine ⟨hwaits, ?_⟩
          rintro rfl
          exact hj (hunique hwaits)
    · rw [hwaiters, h.waiters, hwaiter]
      constructor
      · intro hwaits
        by_cases hj : j = k
        · subst hj
          obtain ⟨other, hother, hid, hwaiter⟩ := hwaits
          rw [hstep.found] at hother
          cases hother
          exact .inl ⟨rfl, hid, hwaiter⟩
        · exact .inr ⟨hj, hwaits⟩
      · rintro (⟨rfl, hid, hwaiter⟩ | ⟨-, hwaits⟩)
        · exact ⟨call, hstep.found, hid, hwaiter⟩
        · exact hwaits

theorem ledger_eq (h : Ledger c) (heq : c'.ledger = c.ledger) : Ledger c' := by
  obtain ⟨hcalls, hrest⟩ := Prod.mk.inj heq
  obtain ⟨hcounter, hwaiters⟩ := Prod.mk.inj hrest
  constructor
  · rw [hcalls]
    exact h.bound
  · rw [hcalls, hcounter]
    exact h.counter
  · rw [hcalls]
    exact h.ids
  · unfold Waits
    rw [hwaiters, hcalls]
    exact h.waiters

theorem ledger_step {a : Action} (h : Ledger c) (hgood : ∀ call ∈ c.calls, call.Good)
    (hfits : Fits c a) (hstep : c.step a = some c') : Ledger c' := by
  rcases calls_of_step hstep with ⟨-, heq⟩ | ⟨method, args, rfl, rfl⟩ | ⟨k, call, call', hcall, -⟩
  · exact ledger_eq h heq
  · exact ledger_ack h hfits method args
  · exact ledger_callStep h (hgood call (List.mem_of_getElem? hcall.found)) hcall

end Channel

end Kotsadm.Operator.Connection
