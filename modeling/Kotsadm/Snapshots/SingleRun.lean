import Kotsadm.Snapshots.ScheduledOnce

/-!
# SingleRun — a run that is not interrupted

The statements of a `handleApp`, one after the other and with nothing in between, leave the table
that `Snapshots.handleApp` returns.
-/

namespace Kotsadm.Replicas

open Snapshots

section Alone

variable {env : Env} {w w' : World} {r : Run} {t t' : ScheduledSnapshots} {appId : AppId}

/-- Run 0 takes some steps. -/
def Alone (env : Env) (s s' : State) : Prop :=
  ∃ n, machine.run s (List.replicate n (.next 0 env 0)) = some s'

theorem alone_refl (s : State) : Alone env s s := ⟨0, rfl⟩

/-- The next statement of run 0, which is alone. -/
def StepsTo (env : Env) (w : World) (r : Run) (w' : World) (phase : Phase) : Prop :=
  next ⟨w, [r]⟩ 0 r env 0 = some ⟨w', [{ r with phase }]⟩

theorem alone_step {phase : Phase} {s' : State} (h : StepsTo env w r w' phase)
    (hrest : Alone env ⟨w', [{ r with phase }]⟩ s') : Alone env ⟨w, [r]⟩ s' := by
  obtain ⟨n, hrun⟩ := hrest
  refine ⟨n + 1, ?_⟩
  have hstep : machine.step ⟨w, [r]⟩ (.next 0 env 0) = some ⟨w', [{ r with phase }]⟩ := h
  rw [List.replicate_succ, Machine.run_cons, hstep]
  exact hrun

/-- Nobody else holds the rows that a `DELETE` waits for, so it takes them all. -/
theorem alone_deletingOthers {next : ScheduledSnapshot} {b : String} {todo deleted : List String}
    {s' : State} (hr : r.phase = .deletingOthers next b todo deleted)
    (hnodup : (next.id :: (deleted ++ todo)).Nodup)
    (hpending : ∀ id ∈ todo, id ∈ pendingIds w.table r.appId)
    (hrest : Alone env ⟨w, [{ r with phase := .creating next b (deleted ++ todo) }]⟩ s') :
    Alone env ⟨w, [r]⟩ s' := by
  induction todo generalizing r deleted with
  | nil =>
    rw [List.append_nil] at hrest
    refine alone_step ?_ hrest
    unfold StepsTo Replicas.next
    rw [hr]
    rfl
  | cons id todo ih =>
    have hfree : (⟨w, [r]⟩ : State).locked id = false := by
      have hholds : r.holds = next.id :: deleted := eq_of_phase Run.holds hr
      rw [← List.cons_append] at hnodup
      have hid : id ∉ next.id :: deleted := fun hmem =>
        (List.nodup_append.mp hnodup).2.2 id hmem id List.mem_cons_self rfl
      unfold State.locked
      rw [List.any_cons, List.any_nil, Bool.or_false, hholds]
      exact decide_eq_false hid
    have htake : takeRow w.table r.appId id deleted = deleted ++ [id] :=
      if_pos (hpending id List.mem_cons_self)
    have hassoc : deleted ++ id :: todo = (deleted ++ [id]) ++ todo := by simp
    rw [hassoc] at hnodup hrest
    refine alone_step ?_ (ih rfl hnodup (fun other hother => hpending other
      (List.mem_cons_of_mem _ hother)) hrest)
    unfold StepsTo Replicas.next
    rw [hr]
    dsimp only
    rw [hfree, htake]
    rfl

/-- The rows that a `DELETE` of the pending rows takes are the pending rows. -/
theorem deleteRows_pendingIds :
    deleteRows t (pendingIds t appId) = deletePendingScheduledSnapshots t appId := by
  apply Keyed.ext
  unfold deleteRows deletePendingScheduledSnapshots Keyed.deleteWhere
  dsimp only
  apply List.filter_congr
  intro r hr
  congr 1
  by_cases hpending : r.isPending appId = true
  · rw [hpending]
    exact decide_eq_true (List.mem_map_of_mem (List.mem_filter.mpr ⟨hr, hpending⟩))
  · rw [Bool.eq_false_iff.mpr hpending, decide_eq_false_iff_not]
    intro hmem
    obtain ⟨other, hother, hid⟩ := List.mem_map.mp hmem
    obtain ⟨hmem', hpending'⟩ := List.mem_filter.mp hother
    rw [t.eq_of_key_eq hmem' hr hid] at hpending'
    exact hpending hpending'

theorem deleteRows_nil : deleteRows t [] = t := by
  apply Keyed.ext
  unfold deleteRows Keyed.deleteWhere
  simp

theorem nodup_pendingIds : (pendingIds t appId).Nodup :=
  (List.Sublist.map _ List.filter_sublist).nodup t.nodup

/-- The statements after the lock. -/
theorem takeSnapshot_alone {snapshotSchedule : String} {next : ScheduledSnapshot}
    {rest : List ScheduledSnapshot} (hr : r.phase = .backingUp next (rest.length + 1))
    (hschedule : r.snapshotSchedule = snapshotSchedule)
    (h : takeSnapshot env r.appId snapshotSchedule (next :: rest) next w.table = .ok t') :
    ∃ w', w'.table = t' ∧ Alone env ⟨w, [r]⟩ ⟨w', [{ r with phase := .done }]⟩ := by
  obtain ⟨b, cleared, queued, hbackup, hcleared, hqueued, hcreated⟩ := takeSnapshot_spec h
  let w₁ : World := { w with backups := next.id :: w.backups }
  -- from the deletion of the others on
  have hcommit : ∀ deleted,
      deleteRows (updateScheduledSnapshot w.table next.id b) deleted = cleared →
      Alone env ⟨w₁, [{ r with phase := .creating next b deleted }]⟩
        ⟨{ w₁ with table := t' }, [{ r with phase := .done }]⟩ := by
    intro deleted hdeleted
    have hwritten : commit w.table next b deleted queued = .ok t' := by
      unfold commit
      rw [hdeleted]
      exact hcreated
    have hcreating : StepsTo env w₁ { r with phase := .creating next b deleted }
        w₁ (.committing next b deleted queued) := by
      unfold StepsTo Replicas.next
      dsimp only
      rw [hschedule, hqueued]
      rfl
    have hcommitting : StepsTo env w₁ { r with phase := .committing next b deleted queued }
        { w₁ with table := t' } .done := by
      unfold StepsTo Replicas.next
      dsimp only
      rw [hwritten]
      rfl
    exact alone_step hcreating (alone_step hcommitting (alone_refl _))
  refine ⟨{ w₁ with table := t' }, rfl, ?_⟩
  have hbackingUp : StepsTo env w r w₁ (.updating next (rest.length + 1) b) := by
    unfold StepsTo Replicas.next
    rw [hr]
    dsimp only
    rw [hbackup]
    rfl
  refine alone_step hbackingUp ?_
  split at hcleared
  next hothers =>
    let others := (pendingIds w.table r.appId).filter (· ≠ next.id)
    have hupdated : pendingIds (updateScheduledSnapshot w.table next.id b) r.appId = others :=
      pendingIds_update
    have hnodup : (next.id :: ([] ++ others)).Nodup := by
      rw [List.nil_append, List.nodup_cons]
      exact ⟨fun hmem => by simp [others] at hmem, nodup_pendingIds.filter _⟩
    have hlisted : ∀ id ∈ others, id ∈ pendingIds w₁.table r.appId :=
      fun id hid => (List.mem_filter.mp hid).1
    have hupdating : StepsTo env w₁ { r with phase := .updating next (rest.length + 1) b }
        w₁ (.deletingOthers next b others []) := by
      unfold StepsTo Replicas.next
      dsimp only
      rw [if_pos (by simpa using hothers)]
      rfl
    refine alone_step hupdating
      (alone_deletingOthers rfl hnodup hlisted (hcommit ([] ++ others) ?_))
    rw [List.nil_append, ← hupdated, hcleared]
    exact deleteRows_pendingIds
  next hsingle =>
    have hupdating : StepsTo env w₁ { r with phase := .updating next (rest.length + 1) b }
        w₁ (.creating next b []) := by
      unfold StepsTo Replicas.next
      dsimp only
      rw [if_neg (by simpa using hsingle)]
      rfl
    exact alone_step hupdating (hcommit [] (deleteRows_nil.trans hcleared.symm))

/-- Nothing is pending: the run queues the next snapshot. -/
theorem queueing_alone {snapshotSchedule : String} {queued : ScheduledSnapshot}
    (hschedule : snapshotSchedule ≠ "") (hnone : listPendingScheduledSnapshots w.table appId = [])
    (hqueued : nextScheduled env appId snapshotSchedule = .ok queued)
    (hcreated : createScheduledSnapshot w.table queued = .ok t') :
    Alone env ⟨w, [{ appId, snapshotSchedule, phase := .listing }]⟩
      ⟨{ w with table := t' }, [{ appId, snapshotSchedule, phase := .done }]⟩ := by
  have hlisting : StepsTo env w { appId, snapshotSchedule, phase := .listing }
      w (.queueing queued) := by
    unfold StepsTo Replicas.next
    dsimp only
    rw [if_neg hschedule, hnone]
    dsimp only
    rw [hqueued]
    rfl
  have hqueueing : StepsTo env w { appId, snapshotSchedule, phase := .queueing queued }
      { w with table := t' } .done := by
    unfold StepsTo Replicas.next
    dsimp only
    rw [hcreated]
    rfl
  exact alone_step hlisting (alone_step hqueueing (alone_refl _))

/-- Something is pending: the run checks the first one when it is due. -/
theorem stepsTo_listing {snapshotSchedule : String} {next : ScheduledSnapshot}
    {rest : List ScheduledSnapshot} (hschedule : snapshotSchedule ≠ "")
    (hsome : listPendingScheduledSnapshots w.table appId = next :: rest) :
    StepsTo env w { appId, snapshotSchedule, phase := .listing } w
      (if next.scheduledTimestamp > env.now then .done else .checking next (rest.length + 1)) := by
  unfold StepsTo Replicas.next
  dsimp only
  rw [if_neg hschedule, hsome]
  dsimp only [List.getElem?_cons_zero]
  split <;> rfl

theorem stepsTo_checking {snapshotSchedule : String} {next : ScheduledSnapshot} {pending : Nat}
    {backups : List Snapshots.Backup} (hbackups : env.backups = .ok backups) :
    StepsTo env w { appId, snapshotSchedule, phase := .checking next pending } w
      (if hasUnfinishedBackup appId backups then .done else .locking next pending) := by
  unfold StepsTo Replicas.next
  dsimp only
  rw [hbackups]
  dsimp only
  split <;> rfl

/-- The lock is free. -/
theorem stepsTo_locking {snapshotSchedule : String} {next : ScheduledSnapshot} {pending : Nat}
    (hlisted : next ∈ listPendingScheduledSnapshots w.table appId) :
    StepsTo env w { appId, snapshotSchedule, phase := .locking next pending } w
      (.backingUp next pending) := by
  unfold StepsTo Replicas.next
  dsimp only
  rw [lockScheduledSnapshot_of_listed hlisted]
  rfl

/-- **A run on its own** leaves the table that `handleApp` returns. -/
theorem handleApp_alone {snapshotSchedule : String} (hlocks : ∀ id, env.lockedByOthers id = false)
    (hr : r = { appId, snapshotSchedule, phase := .listing })
    (h : handleApp env appId (some snapshotSchedule) w.table = .ok t') :
    ∃ w', w'.table = t' ∧ Alone env ⟨w, [r]⟩ ⟨w', [{ r with phase := .done }]⟩ := by
  subst hr
  unfold handleApp at h
  split at h
  next heq => cases heq
  next heq =>
    cases heq
    cases h
    exact ⟨w, rfl, alone_step rfl (alone_refl _)⟩
  next schedule hne heq =>
    cases heq
    have hschedule : snapshotSchedule ≠ "" := fun hempty => hne (by rw [hempty])
    obtain ⟨_, -, h⟩ := Except.bind_eq_ok.mp h
    dsimp only at h
    split at h
    next hnone =>
      obtain ⟨queued, hqueued, h⟩ := Except.bind_eq_ok.mp h
      obtain ⟨_, -, hcreated⟩ := Except.bind_eq_ok.mp h
      exact ⟨{ w with table := t' }, rfl, queueing_alone hschedule hnone hqueued hcreated⟩
    next next rest hsome =>
      have hlisting : StepsTo env w _ w _ := stepsTo_listing hschedule hsome
      split at h
      next hfuture =>
        cases h
        rw [if_pos hfuture] at hlisting
        exact ⟨w, rfl, alone_step hlisting (alone_refl _)⟩
      next hdue =>
        obtain ⟨backups, hbackups, h⟩ := Except.bind_eq_ok.mp h
        rw [if_neg hdue] at hlisting
        have hchecking : StepsTo env w
            { appId, snapshotSchedule, phase := .checking next (rest.length + 1) } w _ :=
          stepsTo_checking hbackups
        split at h
        next hunfinished =>
          cases h
          rw [if_pos hunfinished] at hchecking
          exact ⟨w, rfl, alone_step hlisting (alone_step hchecking (alone_refl _))⟩
        next hidle =>
          obtain ⟨_, -, h⟩ := Except.bind_eq_ok.mp h
          obtain ⟨_, -, h⟩ := Except.bind_eq_ok.mp h
          obtain ⟨_, -, h⟩ := Except.bind_eq_ok.mp h
          rw [if_neg hidle] at hchecking
          have hlisted : next ∈ listPendingScheduledSnapshots w.table appId := by
            rw [hsome]
            exact List.mem_cons_self
          rw [lockScheduledSnapshot_of_listed hlisted, hlocks] at h
          rw [hsome] at h
          obtain ⟨w', htable, hrest⟩ := takeSnapshot_alone
            (r := { appId, snapshotSchedule, phase := .backingUp next (rest.length + 1) })
            rfl rfl h
          exact ⟨w', htable, alone_step hlisting
            (alone_step hchecking (alone_step (stepsTo_locking hlisted) hrest))⟩

end Alone

end Kotsadm.Replicas
