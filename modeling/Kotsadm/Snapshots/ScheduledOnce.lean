import Kotsadm.Snapshots.Replicas

/-!
# ScheduledOnce — scheduled snapshots run once

`Change` says once what a statement can do to the rows, the locks and the backups.  The invariant is
that no two runs hold the same lock, that the row a transaction is about stays pending until its
commit, and that it has no `Backup` before `backup` is called.
-/

namespace Kotsadm.Replicas

open Snapshots

/-! ## The pending rows -/

section Pending

variable {t t' : ScheduledSnapshots} {appId : AppId} {id : String}

theorem length_pendingIds :
    (pendingIds t appId).length = (listPendingScheduledSnapshots t appId).length :=
  List.length_map _

theorem eq_of_length_le_one {ids : List String} (h : ids.length ≤ 1) {other : String}
    (hother : other ∈ ids) (hid : id ∈ ids) : other = id := by
  cases ids with
  | nil => cases hid
  | cons first rest =>
    have hrest : rest = [] := by
      rw [List.length_cons] at h
      exact List.length_eq_zero_iff.mp (by omega)
    rw [hrest, List.mem_singleton] at hother hid
    rw [hother, hid]

theorem pendingIds_update {backupName : String} :
    pendingIds (updateScheduledSnapshot t id backupName) appId =
      (pendingIds t appId).filter fun other => decide (other ≠ id) := by
  unfold pendingIds
  rw [listPending_update, List.filter_map]
  rfl

theorem pendingIds_deleteRows {deleted : List String} :
    pendingIds (deleteRows t deleted) appId =
      (pendingIds t appId).filter fun other => !decide (other ∈ deleted) := by
  unfold pendingIds listPendingScheduledSnapshots deleteRows Keyed.deleteWhere
  rw [List.filter_map, List.filter_filter, List.filter_filter]
  congr 2
  funext r
  exact Bool.and_comm _ _

theorem pendingIds_create {ss : ScheduledSnapshot} (h : createScheduledSnapshot t ss = .ok t') :
    pendingIds t' appId = pendingIds t appId ++ if ss.appId = appId then [ss.id] else [] := by
  unfold pendingIds
  rw [listPending_create h, List.map_append]
  by_cases happ : ss.appId = appId
  · rw [if_pos happ, if_pos happ]
    rfl
  · rw [if_neg happ, if_neg happ]
    rfl

theorem pendingIds_commit {next queued : ScheduledSnapshot} {backupName : String}
    {deleted : List String} (h : commit t next backupName deleted queued = .ok t') :
    pendingIds t' appId =
      ((pendingIds t appId).filter fun other => decide (other ≠ next.id)).filter
          (fun other => !decide (other ∈ deleted)) ++
        if queued.appId = appId then [queued.id] else [] := by
  unfold commit at h
  rw [pendingIds_create h, pendingIds_deleteRows, pendingIds_update]

end Pending

/-! ## What a statement can do -/

/-- The row that the transaction of a run is about. -/
def Run.next? (r : Run) : Option String :=
  match r.phase with
  | .backingUp next _ | .updating next _ _ | .deletingOthers next _ _ _ | .creating next _ _
  | .committing next _ _ _ => some next.id
  | _ => none

/-- The row that a run is going to queue. -/
def Run.queued? (r : Run) : Option ScheduledSnapshot :=
  match r.phase with
  | .committing _ _ _ queued | .queueing queued => some queued
  | _ => none

def Run.AtBackup (r : Run) : Prop :=
  match r.phase with
  | .backingUp _ _ => True
  | _ => False

theorem eq_of_phase {α : Type} (f : Run → α) {r : Run} {phase : Phase} (h : r.phase = phase) :
    f r = f { r with phase } := by
  rw [← h]

/-- A run that becomes `r'` in the world `w'`. -/
inductive Change (s : State) (r r' : Run) (w' : World) : Prop
  /-- It reads, or gives up. -/
  | free (htable : w'.table = s.world.table) (hbackups : w'.backups = s.world.backups)
      (hholds : r'.holds = []) (hnext : r'.next? = none) (hidle : ¬ r'.AtBackup)
  | lock (next : ScheduledSnapshot) (pending : Nat) (hphase : r.phase = .locking next pending)
      (hlock : lockScheduledSnapshot s.world.table s.locked next.id = true)
      (hworld : w' = s.world) (hphase' : r'.phase = .backingUp next pending)
  | backup (next : ScheduledSnapshot) (pending : Nat) (b : String)
      (hphase : r.phase = .backingUp next pending) (htable : w'.table = s.world.table)
      (hbackups : w'.backups = next.id :: s.world.backups)
      (hphase' : r'.phase = .updating next pending b)
  /-- It keeps its locks, and may take another one. -/
  | keep (hworld : w' = s.world) (hnext : r'.next? = r.next?) (hidle : ¬ r'.AtBackup)
      (hholds : ∀ id ∈ r'.holds, id ∈ r.holds ∨ s.locked id = false)
  | commit (next : ScheduledSnapshot) (b : String) (deleted : List String)
      (queued : ScheduledSnapshot) (hphase : r.phase = .committing next b deleted queued)
      (hcommit : Replicas.commit s.world.table next b deleted queued = .ok w'.table)
      (hbackups : w'.backups = s.world.backups) (hphase' : r'.phase = .done)
  | delete (expression : Option String) (deleted : List String)
      (hphase : r.phase = .deleting expression [] deleted)
      (htable : w'.table = deleteRows s.world.table deleted)
      (hbackups : w'.backups = s.world.backups)
      (hholds : r'.holds = []) (hnext : r'.next? = none) (hidle : ¬ r'.AtBackup)
  | queue (queued : ScheduledSnapshot) (hphase : r.phase = .queueing queued)
      (hcreate : createScheduledSnapshot s.world.table queued = .ok w'.table)
      (hbackups : w'.backups = s.world.backups) (hphase' : r'.phase = .done)

theorem mem_takeRow {t : ScheduledSnapshots} {appId : AppId} {id other : String}
    {deleted : List String} (h : other ∈ takeRow t appId id deleted) :
    other ∈ deleted ∨ other = id := by
  unfold takeRow at h
  split at h
  next =>
    rw [List.mem_append, List.mem_singleton] at h
    exact h
  next => exact .inl h

/-- What a run queues is for its own app. -/
def QueuesOwn (r : Run) : Prop := ∀ queued, r.queued? = some queued → queued.appId = r.appId

/-- Run `i` makes a change. -/
def Changes (s : State) (i : Nat) (r : Run) (s' : State) : Prop :=
  ∃ w' r', s' = { world := w', runs := s.runs.set i r' } ∧ r'.appId = r.appId ∧
    (QueuesOwn r → QueuesOwn r') ∧ Change s r r' w'

/-- A run that queues nothing. -/
theorem changes_of_change {s : State} {i : Nat} {r : Run} {w' : World} {phase : Phase}
    (hchange : Change s r { r with phase } w') (hqueued : ({ r with phase } : Run).queued? = none) :
    Changes s i r { world := w', runs := s.runs.set i { r with phase } } := by
  refine ⟨w', _, rfl, rfl, ?_, hchange⟩
  intro _ queued hsome
  rw [hqueued] at hsome
  cases hsome

theorem changes_free {s : State} {i : Nat} {r : Run} {w' : World} {phase : Phase}
    (htable : w'.table = s.world.table) (hbackups : w'.backups = s.world.backups)
    (hholds : ({ r with phase } : Run).holds = []) (hnext : ({ r with phase } : Run).next? = none)
    (hidle : ¬ ({ r with phase } : Run).AtBackup)
    (hqueued : ({ r with phase } : Run).queued? = none) :
    Changes s i r { world := w', runs := s.runs.set i { r with phase } } :=
  changes_of_change (.free htable hbackups hholds hnext hidle) hqueued

theorem changes_done {s : State} {i : Nat} {r : Run} : Changes s i r (s.put i r .done) :=
  changes_free rfl rfl rfl rfl id rfl

/-- The runs that do not lock anything before their next statement. -/
theorem changes_queueing {s : State} {i : Nat} {r : Run} {w' : World} {queued : ScheduledSnapshot}
    (htable : w'.table = s.world.table) (hbackups : w'.backups = s.world.backups)
    (happ : queued.appId = r.appId) :
    Changes s i r { world := w', runs := s.runs.set i { r with phase := .queueing queued } } := by
  refine ⟨w', _, rfl, rfl, ?_, .free htable hbackups rfl rfl id⟩
  intro _ other hother
  cases hother
  exact happ

section Next

variable {s s' : State} {i : Nat} {r : Run} {env : Env} {first : Nat}

/-- `handleApp` queues the first snapshot, goes on with the pending one, or has nothing to do. -/
theorem next_listing (hphase : r.phase = .listing) (h : next s i r env first = some s') :
    Changes s i r s' := by
  unfold next at h
  dsimp only at h
  rw [hphase] at h
  dsimp only at h
  split at h
  next =>
    cases h
    exact changes_done
  next =>
    split at h
    next =>
      split at h
      next =>
        cases h
        exact changes_done
      next queued hqueued =>
        cases h
        exact changes_queueing rfl rfl (nextScheduled_appId hqueued)
    next =>
      split at h
      next => cases h
      next =>
        split at h
        next =>
          cases h
          exact changes_done
        next =>
          cases h
          exact changes_free rfl rfl rfl rfl id rfl

/-- The transaction of `handleApp` waits for the lock of each other pending row. -/
theorem next_deletingOthers {row : ScheduledSnapshot} {b : String} {todo deleted : List String}
    (hphase : r.phase = .deletingOthers row b todo deleted) (h : next s i r env first = some s') :
    Changes s i r s' := by
  unfold next at h
  dsimp only at h
  have hnext : r.next? = some row.id := eq_of_phase Run.next? hphase
  have hholds : r.holds = row.id :: deleted := eq_of_phase Run.holds hphase
  rw [hphase] at h
  cases todo with
  | nil =>
    cases h
    refine changes_of_change (.keep rfl hnext.symm id ?_) rfl
    intro id hid
    rw [hholds]
    exact .inl hid
  | cons other todo =>
    dsimp only at h
    split at h
    next => cases h
    next hfree =>
      cases h
      refine changes_of_change (.keep rfl hnext.symm id ?_) rfl
      intro id hid
      rw [hholds]
      rcases List.mem_cons.mp hid with rfl | htaken
      · exact .inl List.mem_cons_self
      · rcases mem_takeRow htaken with hold | rfl
        · exact .inl (List.mem_cons_of_mem _ hold)
        · exact .inr (by simpa using hfree)

theorem next_creating {row : ScheduledSnapshot} {b : String} {deleted : List String}
    (hphase : r.phase = .creating row b deleted) (h : next s i r env first = some s') :
    Changes s i r s' := by
  unfold next at h
  dsimp only at h
  have hnext : r.next? = some row.id := eq_of_phase Run.next? hphase
  have hholds : r.holds = row.id :: deleted := eq_of_phase Run.holds hphase
  rw [hphase] at h
  dsimp only at h
  split at h
  next =>
    cases h
    exact changes_done
  next queued hqueued =>
    cases h
    refine ⟨_, _, rfl, rfl, ?_, .keep rfl hnext.symm id ?_⟩
    · intro _ other hother
      cases hother
      exact nextScheduled_appId hqueued
    · intro id hid
      rw [hholds]
      exact .inl hid

/-- `saveSnapshotConfig` waits for the lock of each pending row. -/
theorem next_deleting {scheduleExpression : Option String} {todo deleted : List String}
    (hphase : r.phase = .deleting scheduleExpression todo deleted)
    (h : next s i r env first = some s') : Changes s i r s' := by
  unfold next at h
  dsimp only at h
  have hnext : r.next? = none := eq_of_phase Run.next? hphase
  have hholds : r.holds = deleted := eq_of_phase Run.holds hphase
  cases todo with
  | nil =>
    rw [hphase] at h
    dsimp only at h
    split at h <;> cases h
    · exact changes_of_change (.delete _ deleted hphase rfl rfl rfl rfl id) rfl
    · exact changes_of_change (.delete _ deleted hphase rfl rfl rfl rfl id) rfl
  | cons row todo =>
    rw [hphase] at h
    dsimp only at h
    split at h
    next => cases h
    next hfree =>
      cases h
      refine changes_of_change (.keep rfl hnext.symm id ?_) rfl
      intro id hid
      rw [hholds]
      rcases mem_takeRow hid with hold | rfl
      · exact .inl hold
      · exact .inr (by simpa using hfree)

theorem next_cases (h : next s i r env first = some s') : Changes s i r s' := by
  have hrun := h
  unfold next at h
  dsimp only at h
  cases hphase : r.phase with
  | listing => exact next_listing hphase hrun
  | checking next pending =>
    rw [hphase] at h
    dsimp only at h
    split at h
    next =>
      cases h
      exact changes_done
    next =>
      split at h
      next =>
        cases h
        exact changes_done
      next =>
        cases h
        exact changes_free rfl rfl rfl rfl id rfl
  | locking next pending =>
    rw [hphase] at h
    dsimp only at h
    split at h
    next hlock =>
      cases h
      exact changes_of_change (.lock next pending hphase hlock rfl rfl) rfl
    next =>
      cases h
      exact changes_done
  | backingUp next pending =>
    rw [hphase] at h
    dsimp only at h
    split at h
    next =>
      cases h
      exact changes_done
    next b _ =>
      cases h
      exact changes_of_change (.backup next pending b hphase rfl rfl rfl) rfl
  | updating next pending b =>
    have hnext : r.next? = some next.id := eq_of_phase Run.next? hphase
    have hholds : r.holds = [next.id] := eq_of_phase Run.holds hphase
    rw [hphase] at h
    dsimp only at h
    split at h <;> cases h <;> refine changes_of_change (.keep rfl hnext.symm id ?_) rfl <;>
    · intro id hid
      rw [hholds]
      exact .inl hid
  | deletingOthers next b todo deleted => exact next_deletingOthers hphase hrun
  | creating next b deleted => exact next_creating hphase hrun
  | committing next b deleted queued =>
    rw [hphase] at h
    dsimp only at h
    split at h
    next =>
      cases h
      exact changes_done
    next t hcommit =>
      cases h
      exact changes_of_change (.commit next b deleted queued hphase hcommit rfl rfl) rfl
  | reading autoEnabled scheduleExpression =>
    rw [hphase] at h
    dsimp only at h
    split at h
    next =>
      cases h
      exact changes_free rfl rfl rfl rfl id rfl
    next =>
      split at h
      next =>
        cases h
        exact changes_free rfl rfl rfl rfl id rfl
      next =>
        cases h
        exact changes_done
  | disabling =>
    rw [hphase] at h
    cases h
    exact changes_free rfl rfl rfl rfl id rfl
  | clearing scheduleExpression =>
    rw [hphase] at h
    cases h
    exact changes_free rfl rfl rfl rfl id rfl
  | deleting scheduleExpression todo deleted => exact next_deleting hphase hrun
  | setting scheduleExpression =>
    rw [hphase] at h
    dsimp only at h
    split at h
    next =>
      cases h
      exact changes_free rfl rfl rfl rfl id rfl
    next queued hqueued =>
      cases h
      exact changes_queueing rfl rfl (nextScheduled_appId hqueued)
  | queueing queued =>
    rw [hphase] at h
    dsimp only at h
    split at h
    next =>
      cases h
      exact changes_done
    next t hcreate =>
      cases h
      exact changes_of_change (.queue queued hphase hcreate rfl rfl) rfl
  | done =>
    rw [hphase] at h
    cases h

end Next

/-! ## The invariant -/

structure Good (w : World) : Prop where
  single : ∀ appId, (pendingIds w.table appId).length ≤ 1
  once : w.backups.Nodup

structure RunOk (w : World) (r : Run) : Prop where
  /-- The row of an open transaction is pending. -/
  pending : ∀ id, r.next? = some id → id ∈ pendingIds w.table r.appId
  fresh : r.AtBackup → ∀ id, r.next? = some id → id ∉ w.backups
  queues : QueuesOwn r

/-- No lock is held twice. -/
def Apart (r q : Run) : Prop := ∀ id ∈ r.holds, id ∉ q.holds

def Inv (s : State) : Prop := Processes.Inv Good RunOk Apart s.world s.runs

theorem apart_symm (r q : Run) (h : Apart r q) : Apart q r :=
  fun id hq hr => h id hr hq

theorem apart_of_holds_nil {r q : Run} (h : r.holds = []) : Apart r q := by
  intro id hid
  rw [h] at hid
  cases hid

theorem mem_holds_of_next {r : Run} {id : String} (h : r.next? = some id) : id ∈ r.holds := by
  unfold Run.next? at h
  unfold Run.holds
  cases hphase : r.phase <;> rw [hphase] at h <;> cases h <;> simp

theorem not_mem_holds_of_not_locked {s : State} {id : String} (h : s.locked id = false) {q : Run}
    (hq : q ∈ s.runs) : id ∉ q.holds := by
  intro hid
  have hlocked : s.locked id = true := List.any_eq_true.mpr ⟨q, hq, decide_eq_true hid⟩
  rw [h] at hlocked
  cases hlocked

/-- The run is in no transaction. -/
theorem runOk_of_idle {w : World} {r : Run} (hnext : r.next? = none) (hqueues : QueuesOwn r) :
    RunOk w r where
  pending := by
    intro id hid
    rw [hnext] at hid
    cases hid
  fresh := by
    intro _ id hid
    rw [hnext] at hid
    cases hid
  queues := hqueues

/-- The row of another run stays as it is when this one writes the rows that it has locked. -/
theorem runOk_of_table {w w' : World} {r q : Run} (hq : RunOk w q) (happart : Apart r q)
    (htable : ∀ id ∈ pendingIds w.table q.appId, id ∉ r.holds → id ∈ pendingIds w'.table q.appId)
    (hbackups : w'.backups = w.backups) : RunOk w' q where
  pending := by
    intro id hid
    have hfree : id ∉ r.holds := fun hr => happart id hr (mem_holds_of_next hid)
    exact htable id (hq.pending id hid) hfree
  fresh := by
    rw [hbackups]
    exact hq.fresh
  queues := hq.queues

/-! ## Every statement keeps it -/

section Step

variable {s : State} {i : Nat} {r r' : Run} {w' : World}

theorem inv_free (hs : Inv s) (hr : s.runs[i]? = some r) (hqueues : QueuesOwn r')
    (htable : w'.table = s.world.table) (hbackups : w'.backups = s.world.backups)
    (hholds : r'.holds = []) (hnext : r'.next? = none) :
    Inv { world := w', runs := s.runs.set i r' } := by
  have hgood : Good w' := by
    refine ⟨?_, ?_⟩
    · rw [htable]
      exact hs.good.single
    · rw [hbackups]
      exact hs.good.once
  refine Processes.Inv.set hs apart_symm hr hgood (runOk_of_idle hnext hqueues) ?_
  intro q _ hq happart
  refine ⟨runOk_of_table hq happart ?_ hbackups, apart_of_holds_nil hholds⟩
  intro id hid _
  rw [htable]
  exact hid

theorem inv_lock (hs : Inv s) (hr : s.runs[i]? = some r) (happ : r'.appId = r.appId)
    (hqueues : QueuesOwn r') {next : ScheduledSnapshot} {pending : Nat}
    (hlock : lockScheduledSnapshot s.world.table s.locked next.id = true)
    (hpending : next.id ∈ pendingIds s.world.table r.appId) (hfresh : next.id ∉ s.world.backups)
    (hphase : r'.phase = .backingUp next pending) :
    Inv { world := s.world, runs := s.runs.set i r' } := by
  have hnext : r'.next? = some next.id := eq_of_phase Run.next? hphase
  have hholds : r'.holds = [next.id] := eq_of_phase Run.holds hphase
  have hfree : s.locked next.id = false := by
    unfold lockScheduledSnapshot at hlock
    rw [Bool.and_eq_true] at hlock
    simpa using hlock.2
  refine Processes.Inv.set hs apart_symm hr hs.good ⟨?_, ?_, hqueues⟩ ?_
  · intro id hid
    rw [hnext] at hid
    cases hid
    rw [happ]
    exact hpending
  · intro _ id hid
    rw [hnext] at hid
    cases hid
    exact hfresh
  · intro q hmem hq _
    refine ⟨hq, ?_⟩
    intro id hid
    rw [hholds, List.mem_singleton] at hid
    rw [hid]
    exact not_mem_holds_of_not_locked hfree hmem

/-- `backup` is called for a row that has no `Backup` yet, and no other run is about that row. -/
theorem inv_backup (hs : Inv s) (hr : s.runs[i]? = some r) (happ : r'.appId = r.appId)
    (hqueues : QueuesOwn r') {next : ScheduledSnapshot} {pending : Nat} {b : String}
    (hphase : r.phase = .backingUp next pending) (htable : w'.table = s.world.table)
    (hbackups : w'.backups = next.id :: s.world.backups)
    (hphase' : r'.phase = .updating next pending b) :
    Inv { world := w', runs := s.runs.set i r' } := by
  have hnext : r.next? = some next.id := eq_of_phase Run.next? hphase
  have hnext' : r'.next? = some next.id := eq_of_phase Run.next? hphase'
  have hholds : r'.holds = [next.id] := eq_of_phase Run.holds hphase'
  have hat : r.AtBackup := (eq_of_phase Run.AtBackup hphase).mpr trivial
  have hok := hs.each i r hr
  have hgood : Good w' := by
    refine ⟨?_, ?_⟩
    · rw [htable]
      exact hs.good.single
    · rw [hbackups, List.nodup_cons]
      exact ⟨hok.fresh hat next.id hnext, hs.good.once⟩
  refine Processes.Inv.set hs apart_symm hr hgood ⟨?_, ?_, hqueues⟩ ?_
  · intro id hid
    rw [hnext'] at hid
    cases hid
    rw [htable, happ]
    exact hok.pending next.id hnext
  · intro hat'
    exact ((eq_of_phase Run.AtBackup hphase').mp hat').elim
  · intro q _ hq happart
    have hother : next.id ∉ q.holds := happart next.id (mem_holds_of_next hnext)
    refine ⟨⟨?_, ?_, hq.queues⟩, ?_⟩
    · rw [htable]
      exact hq.pending
    · intro hqat id hid
      rw [hbackups, List.mem_cons]
      rintro (rfl | hold)
      · exact hother (mem_holds_of_next hid)
      · exact hq.fresh hqat id hid hold
    · intro id hid
      rw [hholds, List.mem_singleton] at hid
      rw [hid]
      exact hother

theorem inv_keep (hs : Inv s) (hr : s.runs[i]? = some r) (happ : r'.appId = r.appId)
    (hqueues : QueuesOwn r') (hnext : r'.next? = r.next?) (hidle : ¬ r'.AtBackup)
    (hholds : ∀ id ∈ r'.holds, id ∈ r.holds ∨ s.locked id = false) :
    Inv { world := s.world, runs := s.runs.set i r' } := by
  have hok := hs.each i r hr
  refine Processes.Inv.set hs apart_symm hr hs.good ⟨?_, ?_, hqueues⟩ ?_
  · intro id hid
    rw [hnext] at hid
    rw [happ]
    exact hok.pending id hid
  · intro hat
    exact absurd hat hidle
  · intro q hmem hq happart
    refine ⟨hq, ?_⟩
    intro id hid
    rcases hholds id hid with hold | hfree
    · exact happart id hold
    · exact not_mem_holds_of_not_locked hfree hmem

/-- The row of the transaction was the only pending one of the app, and the queued one takes its
place. -/
theorem inv_commit (hs : Inv s) (hr : s.runs[i]? = some r) (hqueues : QueuesOwn r')
    {next queued : ScheduledSnapshot} {b : String} {deleted : List String}
    (hphase : r.phase = .committing next b deleted queued)
    (hcommit : commit s.world.table next b deleted queued = .ok w'.table)
    (hbackups : w'.backups = s.world.backups) (hphase' : r'.phase = .done) :
    Inv { world := w', runs := s.runs.set i r' } := by
  have hnext : r.next? = some next.id := eq_of_phase Run.next? hphase
  have hholds : r.holds = next.id :: deleted := eq_of_phase Run.holds hphase
  have hholds' : r'.holds = [] := eq_of_phase Run.holds hphase'
  have hnext' : r'.next? = none := eq_of_phase Run.next? hphase'
  have hok := hs.each i r hr
  have happ : queued.appId = r.appId := hok.queues queued (eq_of_phase Run.queued? hphase)
  have hgood : Good w' := by
    refine ⟨?_, ?_⟩
    · intro appId
      have hle := hs.good.single appId
      rw [pendingIds_commit hcommit, List.length_append]
      by_cases hqueued : queued.appId = appId
      · have hmem : next.id ∈ pendingIds s.world.table appId := by
          rw [← hqueued, happ]
          exact hok.pending next.id hnext
        have hnone : (pendingIds s.world.table appId).filter
            (fun other => decide (other ≠ next.id)) = [] := by
          rw [List.filter_eq_nil_iff]
          intro other hother
          have heq : other = next.id := eq_of_length_le_one hle hother hmem
          simp [heq]
        rw [hnone, if_pos hqueued]
        exact Nat.le_refl 1
      · rw [if_neg hqueued]
        have hfilter := List.length_filter_le (fun other => !decide (other ∈ deleted))
          ((pendingIds s.world.table appId).filter fun other => decide (other ≠ next.id))
        have hfilter' := List.length_filter_le (fun other => decide (other ≠ next.id))
          (pendingIds s.world.table appId)
        rw [List.length_nil]
        omega
    · rw [hbackups]
      exact hs.good.once
  refine Processes.Inv.set hs apart_symm hr hgood (runOk_of_idle hnext' hqueues) ?_
  intro q _ hq happart
  refine ⟨runOk_of_table hq happart ?_ hbackups, apart_of_holds_nil hholds'⟩
  intro id hid hfree
  rw [hholds, List.mem_cons, not_or] at hfree
  rw [pendingIds_commit hcommit]
  refine List.mem_append_left _ (List.mem_filter.mpr ⟨List.mem_filter.mpr ⟨hid, ?_⟩, ?_⟩)
  · exact decide_eq_true hfree.1
  · rw [decide_eq_false hfree.2]
    rfl

theorem inv_delete (hs : Inv s) (hr : s.runs[i]? = some r) (hqueues : QueuesOwn r')
    {expression : Option String} {deleted : List String}
    (hphase : r.phase = .deleting expression [] deleted)
    (htable : w'.table = deleteRows s.world.table deleted)
    (hbackups : w'.backups = s.world.backups) (hholds' : r'.holds = [])
    (hnext' : r'.next? = none) : Inv { world := w', runs := s.runs.set i r' } := by
  have hholds : r.holds = deleted := eq_of_phase Run.holds hphase
  have hgood : Good w' := by
    refine ⟨?_, ?_⟩
    · intro appId
      rw [htable, pendingIds_deleteRows]
      exact (List.length_filter_le _ _).trans (hs.good.single appId)
    · rw [hbackups]
      exact hs.good.once
  refine Processes.Inv.set hs apart_symm hr hgood (runOk_of_idle hnext' hqueues) ?_
  intro q _ hq happart
  refine ⟨runOk_of_table hq happart ?_ hbackups, apart_of_holds_nil hholds'⟩
  intro id hid hfree
  rw [hholds] at hfree
  rw [htable, pendingIds_deleteRows, List.mem_filter, decide_eq_false hfree]
  exact ⟨hid, rfl⟩

theorem inv_queue (hs : Inv s) (hr : s.runs[i]? = some r) (hqueues : QueuesOwn r')
    {queued : ScheduledSnapshot} (hphase : r.phase = .queueing queued)
    (hempty : pendingIds s.world.table r.appId = [])
    (hcreate : createScheduledSnapshot s.world.table queued = .ok w'.table)
    (hbackups : w'.backups = s.world.backups) (hphase' : r'.phase = .done) :
    Inv { world := w', runs := s.runs.set i r' } := by
  have hholds' : r'.holds = [] := eq_of_phase Run.holds hphase'
  have hnext' : r'.next? = none := eq_of_phase Run.next? hphase'
  have happ : queued.appId = r.appId :=
    (hs.each i r hr).queues queued (eq_of_phase Run.queued? hphase)
  have hgood : Good w' := by
    refine ⟨?_, ?_⟩
    · intro appId
      rw [pendingIds_create hcreate]
      by_cases hqueued : queued.appId = appId
      · rw [← hqueued, happ, hempty]
        split
        · exact Nat.le_refl 1
        · exact Nat.zero_le 1
      · rw [if_neg hqueued, List.append_nil]
        exact hs.good.single appId
    · rw [hbackups]
      exact hs.good.once
  refine Processes.Inv.set hs apart_symm hr hgood (runOk_of_idle hnext' hqueues) ?_
  intro q _ hq happart
  refine ⟨runOk_of_table hq happart ?_ hbackups, apart_of_holds_nil hholds'⟩
  intro id hid _
  rw [pendingIds_create hcreate]
  exact List.mem_append_left _ hid

end Step

theorem inv_next {s s' : State} {i : Nat} {env : Env} {first : Nat} (hs : Inv s)
    (hguard : Guard s (.next i env first)) {r : Run} (hr : s.runs[i]? = some r)
    (h : next s i r env first = some s') : Inv s' := by
  obtain ⟨w', r', rfl, happ, hown, hchange⟩ := next_cases h
  have hqueues : QueuesOwn r' := hown (hs.each i r hr).queues
  have hpermitted := hguard r hr
  cases hchange with
  | free htable hbackups hholds hnext _ => exact inv_free hs hr hqueues htable hbackups hholds hnext
  | lock next pending hphase hlock hworld hphase' =>
    rw [hphase] at hpermitted
    obtain ⟨hpending, hfresh⟩ := hpermitted hlock
    rw [hworld]
    exact inv_lock hs hr happ hqueues hlock hpending hfresh hphase'
  | backup next pending b hphase htable hbackups hphase' =>
    exact inv_backup hs hr happ hqueues hphase htable hbackups hphase'
  | keep hworld hnext hidle hholds =>
    rw [hworld]
    exact inv_keep hs hr happ hqueues hnext hidle hholds
  | commit next b deleted queued hphase hcommit hbackups hphase' =>
    exact inv_commit hs hr hqueues hphase hcommit hbackups hphase'
  | delete expression deleted hphase htable hbackups hholds hnext _ =>
    exact inv_delete hs hr hqueues hphase htable hbackups hholds hnext
  | queue queued hphase hcreate hbackups hphase' =>
    rw [hphase] at hpermitted
    exact inv_queue hs hr hqueues hphase hpermitted hcreate hbackups hphase'

/-- A new run holds nothing. -/
theorem inv_start {s : State} {r : Run} (hs : Inv s) (hholds : r.holds = [])
    (hnext : r.next? = none) (hqueued : r.queued? = none) :
    Inv { s with runs := s.runs ++ [r] } := by
  have hqueues : QueuesOwn r := by
    intro queued hsome
    rw [hqueued] at hsome
    cases hsome
  exact Processes.Inv.concat hs apart_symm (runOk_of_idle hnext hqueues)
    fun _ _ _ => apart_of_holds_nil hholds

theorem inv_step {s s' : State} {a : Action} (hs : Inv s) (hguard : Guard s a)
    (h : machine.step s a = some s') : Inv s' := by
  cases a with
  | handleApp appId snapshotSchedule =>
    cases h
    exact inv_start hs rfl rfl rfl
  | saveSnapshotConfig appId autoEnabled scheduleExpression =>
    cases h
    exact inv_start hs rfl rfl rfl
  | next i env first =>
    simp only [machine] at h
    split at h
    next => cases h
    next r hr => exact inv_next hs hguard hr h
  | fail i =>
    simp only [machine] at h
    split at h
    next => cases h
    next r hr =>
      cases h
      refine inv_free hs hr ?_ rfl rfl rfl rfl
      intro queued hsome
      cases hsome

theorem inv_init {s : State} (h : Init s) : Inv s := by
  obtain ⟨hruns, hbackups, hsingle⟩ := h
  unfold Inv
  rw [hruns]
  refine Processes.inv_nil ⟨?_, ?_⟩
  · intro appId
    rw [length_pendingIds]
    exact hsingle appId
  · rw [hbackups]
    exact List.nodup_nil

theorem runsOnce_of_inv {s : State} (hs : Inv s) : RunsOnce s where
  once := List.nodup_iff_count_le_one.mp hs.good.once
  single := by
    intro _ appId
    rw [← length_pendingIds]
    exact hs.good.single appId

/-- **Scheduled snapshots run once**, in every interleaving that locks only rows that are still
pending and without a `Backup`, and queues a row on its own only when none is pending. -/
theorem runsOnce_everyState {s : State} (hs : machine.Reachable Init Guard s) : RunsOnce s := by
  have hinv : machine.EveryState Init Guard Inv :=
    Machine.everyState_of_inv (fun _ h => inv_init h) fun _ _ _ hs hG h => inv_step hs hG h
  exact runsOnce_of_inv (hinv s hs)

/-- One row is pending, and it is due. -/
def duePending : State where
  world := {
    table := {
      rows := [{ id := "r1", appId := "app", scheduledTimestamp := 0 }]
      nodup := by decide }
    snapshotSchedule := fun _ => some "0 0 * * *" }

def midnight (randomstring : String) : Env where
  now := 1
  cron := fun _ => .ok 86400
  randomstring := randomstring

theorem init_duePending : Init duePending := by
  refine ⟨rfl, rfl, ?_⟩
  intro appId
  rw [← length_pendingIds]
  exact (List.length_map _).trans_le (List.length_filter_le _ _)

/-- One run handles the row, and queues the next one. -/
theorem runsOnce_oneReplica : ∃ s, machine.Reachable Init Guard s ∧
    (s.world.backups, pendingIds s.world.table "app") = (["r1"], ["r2"]) ∧ RunsOnce s := by
  have hinit := Machine.Reachable.init (M := machine) (G := Guard) init_duePending
  have hstarted := hinit.run [.handleApp "app" "0 0 * * *"] (by simp [Guard]) rfl
  let next : Action := .next 0 (midnight "r2") 0
  have hlisted := hstarted.step (a := next) (fun r hr => by cases hr; trivial) rfl
  have hchecked := hlisted.step (a := next) (fun r hr => by cases hr; trivial) rfl
  have hlocked := hchecked.step (a := next) (fun r hr => by
    cases hr
    exact fun _ => ⟨List.mem_singleton.mpr rfl, List.not_mem_nil⟩) rfl
  have hbackedUp := hlocked.step (a := next) (fun r hr => by cases hr; trivial) rfl
  have hupdated := hbackedUp.step (a := next) (fun r hr => by cases hr; trivial) rfl
  have hcreated := hupdated.step (a := next) (fun r hr => by cases hr; trivial) rfl
  have hcommitted := hcreated.step (a := next) (fun r hr => by cases hr; trivial) rfl
  exact ⟨_, hcommitted, by decide, runsOnce_everyState hcommitted⟩

/-- The second run lists the row before the first one commits, and locks it afterwards. -/
def twoReplicas : List Action :=
  [.handleApp "app" "0 0 * * *", .handleApp "app" "0 0 * * *"] ++
    List.replicate 2 (.next 0 (midnight "r2") 0) ++ List.replicate 2 (.next 1 (midnight "r3") 0) ++
    List.replicate 5 (.next 0 (midnight "r2") 0) ++ List.replicate 5 (.next 1 (midnight "r3") 0)

/-- Two backups were created for the row, and two rows are pending. -/
theorem run_twoReplicas :
    (machine.run duePending twoReplicas).map
        (fun s => (s.world.backups, pendingIds s.world.table "app", s.runs.map (·.phase))) =
      some (["r1", "r1"], ["r2", "r3"], [.done, .done]) := by
  decide +kernel

theorem not_runsOnce : ¬ machine.EveryState Init Machine.Free RunsOnce := by
  obtain ⟨s, hrun, hs⟩ := Option.map_eq_some_iff.mp run_twoReplicas
  refine Machine.not_everyState init_duePending twoReplicas hrun ?_
  intro honce
  have hcount := honce.once "r1"
  have hbackups : s.world.backups = ["r1", "r1"] := congrArg Prod.fst hs
  rw [hbackups] at hcount
  revert hcount
  decide

end Kotsadm.Replicas
