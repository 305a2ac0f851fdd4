import Kotsadm.Lib.Machine
import Kotsadm.Store.KotsAppStore

/-!
# DeployStatus — results of one deploy that are stored at the same time

`updateDownstreamDeployStatus` looks for a row without error and then upserts its own.  The two
queries go to the pool one by one: another call may store its row between them.
-/

namespace Kotsadm.DeployStatus

open KotsAppStore

/-! ## Calls -/

/-- The arguments of a call. -/
structure Report where
  appId : AppId
  clusterId : ClusterId
  sequence : Int
  isError : Bool
  output : DeployOutput
  deriving DecidableEq, Repr

def Report.key (report : Report) : AppId × ClusterId × Int :=
  (report.appId, report.clusterId, report.sequence)

def Report.row (report : Report) : AppDownstreamOutputRow :=
  report.output.row report.appId report.clusterId report.sequence report.isError

/-- The query that a call makes next. -/
inductive Phase
  | select
  | upsert
  | returned
  | failed
  deriving DecidableEq, Repr

structure Call extends Report where
  phase : Phase := .select
  -- history: another call has stored a different result without error since the select
  overtaken : Bool := false
  deriving DecidableEq, Repr

/-- `hasOtherResults && !otherResultIsError` -/
def hasSuccess (db : Database) (key : AppId × ClusterId × Int) : Bool :=
  (db.appDownstreamOutput.find? key).any (!·.isError)

def Call.select (db : Database) (c : Call) : Call :=
  { c with phase := if hasSuccess db c.key then .returned else .upsert, overtaken := false }

/-- `insert into app_downstream_output … on conflict … do update` -/
def upsertOutput (db : Database) (row : AppDownstreamOutputRow) : Database :=
  { db with
    appDownstreamOutput := db.appDownstreamOutput.upsert row
      (fun r => { row with appId := r.appId, clusterId := r.clusterId,
                           downstreamSequence := r.downstreamSequence }) fun _ => rfl }

/-- Another call has stored a row. -/
def Call.mark (row : AppDownstreamOutputRow) (c : Call) : Call :=
  if c.key = row.key ∧ row.isError = false ∧ c.row ≠ row then { c with overtaken := true } else c

/-! ## The system -/

structure State where
  db : Database
  calls : List Call := []

inductive Action
  | call (report : Report)
  | select (k : Nat)
  | upsert (k : Nat)
  -- a query throws
  | fail (k : Nat)
  deriving DecidableEq, Repr

def step (s : State) : Action → Option State
  | .call report => some { s with calls := s.calls ++ [{ toReport := report }] }
  | .select k => do
    let c ← s.calls[k]?
    if c.phase = .select then some { s with calls := s.calls.set k (c.select s.db) } else none
  | .upsert k => do
    let c ← s.calls[k]?
    if c.phase = .upsert then
      some { db := upsertOutput s.db c.row
             calls := (s.calls.map (Call.mark c.row)).set k { c with phase := .returned } }
    else none
  | .fail k => do
    let c ← s.calls[k]?
    if c.phase = .select ∨ c.phase = .upsert then
      some { s with calls := s.calls.set k { c with phase := .failed } }
    else none

def machine : Machine State Action := ⟨step⟩

/-- Any database, and no call yet. -/
def Init (s : State) : Prop := s.calls = []

/-- A row without error is not replaced by another result. -/
def Final (s s' : State) : Prop :=
  ∀ key row, s.db.appDownstreamOutput.find? key = some row → row.isError = false →
    s'.db.appDownstreamOutput.find? key = some row

/-- No call upserts its row if another one stored a different result without error since the
select. -/
def Guard (s : State) : Action → Prop
  | .upsert k => ∀ c ∈ s.calls[k]?, c.overtaken = false
  | _ => True

instance (s : State) (a : Action) : Decidable (Guard s a) :=
  match a with
  | .upsert k => inferInstanceAs (Decidable (∀ c ∈ s.calls[k]?, c.overtaken = false))
  | .call _ | .select _ | .fail _ => .isTrue trivial

/-! ## The two queries -/

theorem find?_upsertOutput (db : Database) (row : AppDownstreamOutputRow)
    (key : AppId × ClusterId × Int) :
    (upsertOutput db row).appDownstreamOutput.find? key =
      if row.key = key then some row else db.appDownstreamOutput.find? key := by
  show (Keyed.upsert _ _ _ _).find? key = _
  rw [Keyed.find?_upsert]
  split
  next hkey =>
    cases hrow : db.appDownstreamOutput.find? key with
    | none => rfl
    | some old =>
      have hold : old.key = row.key := (Keyed.find?_eq_some.mp hrow).2.trans hkey.symm
      have hparts := hold
      simp only [AppDownstreamOutputRow.key, Prod.mk.injEq] at hparts
      simp only [Option.elim_some, hparts]
  next => rfl

@[simp] theorem Report.key_row (report : Report) : report.row.key = report.key := rfl

theorem hasSuccess_iff {db : Database} {key : AppId × ClusterId × Int} :
    hasSuccess db key = true ↔
      ∃ row, db.appDownstreamOutput.find? key = some row ∧ row.isError = false := by
  unfold hasSuccess
  rw [Option.any_eq_true]
  constructor
  · rintro ⟨row, hrow, hnot⟩
    rw [Bool.not_eq_true'] at hnot
    exact ⟨row, hrow, hnot⟩
  · rintro ⟨row, hrow, herror⟩
    refine ⟨row, hrow, ?_⟩
    rw [herror, Bool.not_false]

/-- A call that nobody disturbs does what `updateDownstreamDeployStatus` does. -/
theorem updateDownstreamDeployStatus_eq (db : Database) (report : Report) :
    updateDownstreamDeployStatus db report.appId report.clusterId report.sequence report.isError
        report.output =
      if ((⟨report, .select, false⟩ : Call).select db).phase = .upsert then
        upsertOutput db report.row
      else db := by
  unfold updateDownstreamDeployStatus Call.select
  show (if hasSuccess db report.key = true then db else upsertOutput db report.row) =
    if (if hasSuccess db report.key = true then Phase.returned else .upsert) = .upsert then
      upsertOutput db report.row else db
  by_cases hsuccess : hasSuccess db report.key = true
  · rw [if_pos hsuccess, if_pos hsuccess, if_neg (by decide)]
  · rw [if_neg hsuccess, if_neg hsuccess, if_pos rfl]

/-! ## The invariant -/

/-- A call that goes on to its upsert was overtaken exactly if a different result without error is
stored. -/
def Call.Knows (db : Database) (c : Call) : Prop :=
  c.phase = .upsert → (c.overtaken = true ↔
    ∃ row, db.appDownstreamOutput.find? c.key = some row ∧ row.isError = false ∧ c.row ≠ row)

def Inv (s : State) : Prop := ∀ c ∈ s.calls, c.Knows s.db

theorem Call.knows_select (db : Database) (c : Call) : (c.select db).Knows db := by
  intro hphase
  have hnone : hasSuccess db c.key ≠ true := by
    intro hsuccess
    have hreturned : (c.select db).phase = .returned := if_pos hsuccess
    rw [hreturned] at hphase
    cases hphase
  constructor
  · intro h
    cases h
  · rintro ⟨row, hrow, herror, -⟩
    exact absurd (hasSuccess_iff.mpr ⟨row, hrow, herror⟩) hnone

/-- An upsert is final exactly if no other row without error was stored. -/
theorem final_upsertOutput_iff {s s' : State} {row : AppDownstreamOutputRow}
    (h : s'.db = upsertOutput s.db row) :
    Final s s' ↔ ¬ ∃ old, s.db.appDownstreamOutput.find? row.key = some old ∧
      old.isError = false ∧ row ≠ old := by
  unfold Final
  rw [h]
  constructor
  · rintro hfinal ⟨old, hold, herror, hne⟩
    have hkept := hfinal row.key old hold herror
    rw [find?_upsertOutput, if_pos rfl] at hkept
    exact hne (Option.some.inj hkept)
  · intro hnone key old hold herror
    rw [find?_upsertOutput]
    split
    next hkey =>
      subst hkey
      by_contra hne
      exact hnone ⟨old, hold, herror, fun heq => hne (congrArg some heq)⟩
    next => exact hold

/-- What the upsert of one call does to another one. -/
theorem Call.knows_mark {db : Database} {row : AppDownstreamOutputRow} {c : Call}
    (hc : c.Knows db)
    (hrow : ¬ ∃ old, db.appDownstreamOutput.find? row.key = some old ∧ old.isError = false ∧
      row ≠ old) :
    (c.mark row).Knows (upsertOutput db row) := by
  unfold Call.mark
  split
  next hmark =>
    obtain ⟨hkey, herror, hne⟩ := hmark
    intro _
    refine ⟨fun _ => ⟨row, ?_, herror, hne⟩, fun _ => rfl⟩
    rw [find?_upsertOutput, if_pos hkey.symm]
  next hmark =>
    intro hphase
    rw [hc hphase, find?_upsertOutput]
    by_cases hkey : row.key = c.key
    · rw [if_pos hkey]
      rw [hkey] at hrow
      constructor
      · -- the stored row without error is the new one, or the new one would have replaced it
        rintro ⟨old, hold, herror, hne⟩
        have heq : row = old := by
          by_contra hother
          exact hrow ⟨old, hold, herror, hother⟩
        exact absurd ⟨hkey.symm, heq ▸ herror, heq ▸ hne⟩ hmark
      · rintro ⟨old, hold, herror, hne⟩
        cases hold
        exact absurd ⟨hkey.symm, herror, hne⟩ hmark
    · rw [if_neg hkey]

/-! ## What a step does -/

section

variable {s s' : State} {a : Action}

/-- A call is new, changes its phase, or upserts its row. -/
theorem step_cases (h : machine.step s a = some s') :
    (∃ report : Report, a = .call report ∧
      s' = { s with calls := s.calls ++ [{ toReport := report }] }) ∨
    (∃ k c, Guard s a ∧ (c.phase = .failed ∨ ∃ old, c = Call.select s.db old) ∧
      s' = { s with calls := s.calls.set k c }) ∨
    ∃ k c, a = .upsert k ∧ s.calls[k]? = some c ∧ c.phase = .upsert ∧
      s' = { db := upsertOutput s.db c.row
             calls := (s.calls.map (Call.mark c.row)).set k { c with phase := .returned } } := by
  change step s a = some s' at h
  cases a with
  | call report => exact .inl ⟨report, rfl, (Option.some.inj h).symm⟩
  | select k =>
    obtain ⟨c, -, h⟩ := Option.bind_eq_some_iff.mp h
    split at h
    next =>
      cases h
      exact .inr (.inl ⟨k, c.select s.db, trivial, .inr ⟨c, rfl⟩, rfl⟩)
    next => cases h
  | upsert k =>
    obtain ⟨c, hc, h⟩ := Option.bind_eq_some_iff.mp h
    split at h
    next hphase =>
      cases h
      exact .inr (.inr ⟨k, c, rfl, hc, hphase, rfl⟩)
    next => cases h
  | fail k =>
    obtain ⟨c, -, h⟩ := Option.bind_eq_some_iff.mp h
    split at h
    next =>
      cases h
      exact .inr (.inl ⟨k, { c with phase := .failed }, trivial, .inl rfl, rfl⟩)
    next => cases h

theorem final_of_db_eq (h : s'.db = s.db) : Final s s' := by
  intro key row hrow _
  rw [h]
  exact hrow

/-- Exactly the steps that meet the guard keep every row without error. -/
theorem final_iff_guard (hinv : Inv s) (h : machine.step s a = some s') :
    Final s s' ↔ Guard s a := by
  rcases step_cases h with ⟨report, rfl, rfl⟩ | ⟨k, c, hguard, -, rfl⟩ |
    ⟨k, c, rfl, hc, hphase, rfl⟩
  · exact ⟨fun _ => trivial, fun _ => final_of_db_eq rfl⟩
  · exact ⟨fun _ => hguard, fun _ => final_of_db_eq rfl⟩
  · have hknows := hinv c (List.mem_of_getElem? hc) hphase
    rw [final_upsertOutput_iff rfl, Report.key_row, ← hknows, Bool.not_eq_true]
    constructor
    · intro hnot d hd
      rw [hc] at hd
      cases hd
      exact hnot
    · intro hguard
      exact hguard c hc

/-- **The step.** -/
theorem Inv.step (hinv : Inv s) (hguard : Guard s a) (h : machine.step s a = some s') : Inv s' := by
  have hfinal := (final_iff_guard hinv h).mpr hguard
  rcases step_cases h with ⟨report, rfl, rfl⟩ | ⟨k, c, -, hc, rfl⟩ | ⟨k, c, rfl, hc, hphase, rfl⟩
  · intro d hd
    rcases List.mem_append.mp hd with hold | hnew
    · exact hinv d hold
    · rw [List.mem_singleton.mp hnew]
      intro hphase
      cases hphase
  · intro d hd
    rcases List.mem_or_eq_of_mem_set hd with hold | rfl
    · exact hinv d hold
    · rcases hc with hfailed | ⟨old, rfl⟩
      · intro hphase
        rw [hfailed] at hphase
        cases hphase
      · exact old.knows_select s.db
  · -- the guard: what is stored without error is the row of the call itself
    have hrow := (final_upsertOutput_iff rfl).mp hfinal
    intro d hd
    rcases List.mem_or_eq_of_mem_set hd with hold | rfl
    · obtain ⟨e, he, rfl⟩ := List.mem_map.mp hold
      exact Call.knows_mark (hinv e he) hrow
    · intro hreturned
      cases hreturned

end

theorem inv_everyState : machine.EveryState Init Guard Inv := by
  refine Machine.everyState_of_inv ?_ fun s a s' hinv hguard h => hinv.step hguard h
  intro s hinit c hc
  rw [hinit] at hc
  cases hc

/-- **The run.** -/
theorem Final.guardedRun {s s' : State} (hs : machine.Reachable Init Guard s) (as : List Action)
    (hrun : machine.guardedRun Guard s as = some s') : Final s s' := by
  induction as generalizing s with
  | nil =>
    cases hrun
    exact final_of_db_eq rfl
  | cons a as ih =>
    unfold Machine.guardedRun at hrun
    split at hrun
    next hguard =>
      obtain ⟨t, hstep, hrest⟩ := Option.bind_eq_some_iff.mp hrun
      have hfirst := (final_iff_guard (inv_everyState s hs) hstep).mpr hguard
      have hlater := ih (hs.step hguard hstep) hrest
      intro key row hrow herror
      exact hlater key row (hfirst key row hrow herror) herror
    next => cases hrun

/-- While no call that was overtaken upserts its row, a row without error stays what it is to the
end of the run; the first call that does so all the same replaces one. -/
theorem success_final {s : State} (hs : machine.Reachable Init Guard s) :
    (∀ as s', machine.guardedRun Guard s as = some s' → Final s s') ∧
      ∀ a s', machine.step s a = some s' → (Final s s' ↔ Guard s a) :=
  ⟨fun as _ hrun => Final.guardedRun hs as hrun,
    fun _ _ hstep => final_iff_guard (inv_everyState s hs) hstep⟩

/-! ## Two operators that report the same deploy -/

def report (isError : Bool) : Report where
  appId := "app"
  clusterId := "cluster"
  sequence := 3
  isError := isError
  output := ⟨none, none, none, none⟩

/-- A success, then an error that comes too late. -/
def oneByOne : List Action :=
  [.call (report false), .select 0, .upsert 0, .call (report true), .select 1]

/-- The row that the run leaves -/
def stored (s : State) : Option AppDownstreamOutputRow :=
  s.db.appDownstreamOutput.find? ("app", "cluster", 3)

theorem run_oneByOne :
    (machine.guardedRun Guard { db := {} } oneByOne).map
        (fun s => (stored s, s.calls.map (·.phase))) =
      some (some (report false).row, [.returned, .returned]) := by
  decide

theorem success_final_oneByOne : ∃ s, machine.guardedRun Guard { db := {} } oneByOne = some s ∧
    ∀ as s', machine.guardedRun Guard s as = some s' → Final s s' := by
  obtain ⟨s, hrun, _⟩ := Option.map_eq_some_iff.mp run_oneByOne
  have hreached := (Machine.Reachable.init (show Init { db := {} } from rfl)).guardedRun _ hrun
  exact ⟨s, hrun, (success_final hreached).1⟩

/-- Both calls select before one of them upserts. -/
def sideBySide : List Action :=
  [.call (report false), .call (report true), .select 0, .select 1, .upsert 0]

theorem run_sideBySide : ∃ s s', machine.run { db := {} } sideBySide = some s ∧
    machine.step s (.upsert 1) = some s' ∧ stored s = some (report false).row ∧
    stored s' = some (report true).row :=
  ⟨_, _, rfl, rfl, by decide, by decide⟩

theorem not_success_final :
    ¬ machine.EveryStep Init Machine.Free fun s _ s' => Final s s' := by
  obtain ⟨s, s', hrun, hstep, hstored, hstored'⟩ := run_sideBySide
  refine Machine.not_everyStep (show Init { db := {} } from rfl) sideBySide hrun hstep ?_
  intro hfinal
  have hkept := hfinal _ _ hstored rfl
  rw [show s'.db.appDownstreamOutput.find? _ = stored s' from rfl, hstored'] at hkept
  exact absurd hkept (by decide)

end Kotsadm.DeployStatus
