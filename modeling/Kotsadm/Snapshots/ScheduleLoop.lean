import Kotsadm.Lib.TwoRuns
import Kotsadm.Snapshots.Schedule
import Kotsadm.Sockets.BrokenApps

/-!
# ScheduleLoop — a tick of `scheduleLoop` in which steps fail

`scheduleLoop` of `schedule.ts` has one `try` for all apps, so whatever `handleApp` throws for one
of them ends the tick.  The tick is compared with the one without the apps that fail.
-/

namespace Kotsadm.ScheduleLoop

open Snapshots KotsAppStore BrokenApps

/-! ## handleApp and the rows of other apps -/

/-- The table without the rows of some apps. -/
def withoutSnapshots (broken : AppId → Bool) (t : ScheduledSnapshots) : ScheduledSnapshots :=
  t.deleteWhere fun r => broken r.appId

/-- The random id of the next row is new. -/
def NewId (env : Snapshots.Env) (t : ScheduledSnapshots) : Prop :=
  ∀ r ∈ t.rows, r.id ≠ env.randomstring

section HandleApp

variable {env : Snapshots.Env} {broken : AppId → Bool} {appId : AppId} {t t' : ScheduledSnapshots}
  {schedule : String} {snapshotSchedule : Option String}

theorem NewId.updateScheduledSnapshot (h : NewId env t) (id backupName : String) :
    NewId env (updateScheduledSnapshot t id backupName) := by
  intro r hr
  obtain ⟨r', hr', rfl⟩ := Keyed.mem_updateWhere.mp hr
  split <;> exact h r' hr'

theorem NewId.deleteWhere (h : NewId env t) (p : ScheduledSnapshot → Bool) :
    NewId env (t.deleteWhere p) := fun r hr => h r (Keyed.mem_deleteWhere.mp hr).1

/-- A row with a new id can be queued. -/
theorem createScheduledSnapshot_of_newId (h : NewId env t) (ss : ScheduledSnapshot)
    (hid : ss.id = env.randomstring) :
    ∃ t', createScheduledSnapshot t ss = .ok t' ∧
      t'.rows = t.rows ++ [{ ss with backupName := none }] := by
  unfold createScheduledSnapshot
  cases hinsert : t.insert? { ss with backupName := none } with
  | none =>
    obtain ⟨r, hr⟩ := Option.isSome_iff_exists.mp (Keyed.insert?_eq_none.mp hinsert)
    obtain ⟨hmem, hkey⟩ := Keyed.find?_eq_some.mp hr
    exact absurd (hkey.trans hid) (h r hmem)
  | some t' => exact ⟨t', rfl, (Keyed.insert?_eq_some hinsert).1⟩

theorem listPending_withoutSnapshots (happ : broken appId = false) :
    listPendingScheduledSnapshots (withoutSnapshots broken t) appId =
      listPendingScheduledSnapshots t appId := by
  unfold listPendingScheduledSnapshots withoutSnapshots Keyed.deleteWhere
  dsimp only
  rw [List.filter_filter]
  apply List.filter_congr
  intro r _
  by_cases hr : r.appId = appId
  · simp [hr, happ]
  · simp [ScheduledSnapshot.isPending, hr]

/-- The two tables are the same but for the apps that are left out. -/
abbrev SameOthers (broken : AppId → Bool) (t u : ScheduledSnapshots) : Prop :=
  u = withoutSnapshots broken t

theorem related_create (happ : broken appId = false) (h : NewId env t) (scheduledTimestamp : Nat) :
    Except.Related (SameOthers broken)
      (createScheduledSnapshot t { id := env.randomstring, appId, scheduledTimestamp })
      (createScheduledSnapshot (withoutSnapshots broken t)
        { id := env.randomstring, appId, scheduledTimestamp }) := by
  let ss : ScheduledSnapshot := { id := env.randomstring, appId, scheduledTimestamp }
  obtain ⟨u, hu, hrows⟩ := createScheduledSnapshot_of_newId h ss rfl
  obtain ⟨u', hu', hrows'⟩ :=
    createScheduledSnapshot_of_newId (h.deleteWhere fun r => broken r.appId) ss rfl
  unfold withoutSnapshots
  rw [hu, hu']
  refine .ok (Keyed.ext ?_)
  unfold withoutSnapshots Keyed.deleteWhere
  dsimp only
  rw [hrows, hrows', List.filter_append]
  simp [Keyed.deleteWhere, ss, happ]

theorem nextScheduled_bind {α : Type} (f : ScheduledSnapshot → Except String α) :
    nextScheduled env appId schedule >>= f = env.cron schedule >>= fun scheduledTimestamp =>
      f { id := env.randomstring, appId, scheduledTimestamp } := by
  unfold nextScheduled
  cases env.cron schedule <;> rfl

theorem related_deleteOthers (pending : List ScheduledSnapshot) (h : NewId env t) :
    Except.Related (fun u v => SameOthers broken u v ∧ NewId env u)
      (deleteOthers env appId pending t)
      (deleteOthers env appId pending (withoutSnapshots broken t)) := by
  unfold deleteOthers
  refine .ite Iff.rfl (.same _ fun _ => .ok ⟨?_, h.deleteWhere _⟩) (.ok ⟨rfl, h⟩)
  exact Keyed.deleteWhere_comm t _ _

theorem related_takeSnapshot (happ : broken appId = false) (h : NewId env t)
    (pending : List ScheduledSnapshot) (next : ScheduledSnapshot) :
    Except.Related (SameOthers broken) (takeSnapshot env appId schedule pending next t)
      (takeSnapshot env appId schedule pending next (withoutSnapshots broken t)) := by
  unfold takeSnapshot
  refine .same _ fun b => .same _ fun _ => ?_
  have hupdated : withoutSnapshots broken (updateScheduledSnapshot t next.id b) =
      updateScheduledSnapshot (withoutSnapshots broken t) next.id b :=
    Keyed.deleteWhere_updateWhere t fun _ => rfl
  rw [← hupdated]
  refine (related_deleteOthers pending (h.updateScheduledSnapshot next.id b)).bind ?_
  rintro u _ ⟨rfl, hu⟩
  rw [nextScheduled_bind, nextScheduled_bind]
  refine .same _ fun scheduledTimestamp => .same _ fun _ => ?_
  refine (related_create happ hu scheduledTimestamp).bind ?_
  rintro u' _ rfl
  exact .same _ fun _ => .ok rfl

/-- For another app the same is done without the broken apps. -/
theorem related_handleApp (happ : broken appId = false) (h : NewId env t) :
    Except.Related (SameOthers broken) (handleApp env appId snapshotSchedule t)
      (handleApp env appId snapshotSchedule (withoutSnapshots broken t)) := by
  unfold handleApp
  split
  · exact .ok rfl
  · exact .ok rfl
  next schedule _ =>
    refine .same _ fun _ => ?_
    dsimp only
    rw [listPending_withoutSnapshots happ]
    split
    next =>
      rw [nextScheduled_bind, nextScheduled_bind]
      exact .same _ fun scheduledTimestamp => .same _ fun _ =>
        related_create happ h scheduledTimestamp
    next next rest hpending =>
      have hlisted : next ∈ listPendingScheduledSnapshots t appId := by
        rw [hpending]
        exact List.mem_cons_self
      have hlisted' : next ∈ listPendingScheduledSnapshots (withoutSnapshots broken t) appId := by
        rw [listPending_withoutSnapshots happ]
        exact hlisted
      rw [lockScheduledSnapshot_of_listed hlisted, lockScheduledSnapshot_of_listed hlisted']
      refine .ite Iff.rfl (.ok rfl) (.same _ fun backups => .ite Iff.rfl (.ok rfl) ?_)
      refine .same _ fun _ => .same _ fun _ => .same _ fun _ => .ite Iff.rfl (.ok rfl) ?_
      exact related_takeSnapshot happ h _ next

/-! ### What a run changes -/

theorem withoutSnapshots_create (happ : broken appId = true) {queued : ScheduledSnapshot}
    (hqueued : queued.appId = appId) (h : createScheduledSnapshot t queued = .ok t') :
    withoutSnapshots broken t' = withoutSnapshots broken t := by
  unfold createScheduledSnapshot at h
  split at h
  next => cases h
  next table hinsert =>
    cases h
    apply Keyed.ext
    unfold withoutSnapshots Keyed.deleteWhere
    dsimp only
    rw [(Keyed.insert?_eq_some hinsert).1, List.filter_append]
    simp [hqueued, happ]

/-- A run changes the rows of its own app only. -/
theorem withoutSnapshots_handleApp (happ : broken appId = true)
    (h : handleApp env appId snapshotSchedule t = .ok t') :
    withoutSnapshots broken t' = withoutSnapshots broken t := by
  have hother : ∀ schedule, snapshotSchedule = some schedule → schedule ≠ "" →
      withoutSnapshots broken t' = withoutSnapshots broken t := by
    rintro schedule rfl hschedule
    rcases handleApp_cases hschedule h with
      ⟨-, queued, hqueued, hcreated⟩ | ⟨next, rest, hsome, ⟨-, rfl⟩ | ⟨-, htaken⟩⟩
    · exact withoutSnapshots_create happ (nextScheduled_appId hqueued) hcreated
    · rfl
    · obtain ⟨b, cleared, queued, -, hcleared, hqueued, hcreated⟩ := takeSnapshot_spec htaken
      have hnext : next ∈ t.rows ∧ next.appId = appId ∧ next.backupName = none :=
        mem_listPending.mp (by rw [hsome]; exact List.mem_cons_self)
      have hupdated : withoutSnapshots broken (updateScheduledSnapshot t next.id b) =
          withoutSnapshots broken t := by
        unfold withoutSnapshots updateScheduledSnapshot
        rw [Keyed.deleteWhere_updateWhere, Keyed.updateWhere_of_none]
        · intro r hr
          obtain ⟨hr, hkept⟩ := Keyed.mem_deleteWhere.mp hr
          refine decide_eq_false fun hid => ?_
          -- the row with this id is the one of the app
          rw [t.eq_of_key_eq hr hnext.1 hid, hnext.2.1, happ] at hkept
          cases hkept
        · intro r
          rfl
      rw [withoutSnapshots_create happ (nextScheduled_appId hqueued) hcreated, hcleared]
      split
      · unfold deletePendingScheduledSnapshots
        unfold withoutSnapshots at hupdated ⊢
        rw [Keyed.deleteWhere_comm, hupdated]
        apply Keyed.ext
        unfold Keyed.deleteWhere
        dsimp only
        rw [List.filter_eq_self]
        intro r hr
        have hkept : broken r.appId = false := by simpa using (List.mem_filter.mp hr).2
        have hne : r.appId ≠ appId := fun heq => by
          rw [heq, happ] at hkept
          cases hkept
        simp [ScheduledSnapshot.isPending, hne]
      · exact hupdated
  cases snapshotSchedule with
  | none =>
    cases h
    rfl
  | some schedule =>
    by_cases hschedule : schedule = ""
    · rw [hschedule] at h
      cases h
      rfl
    · exact hother schedule rfl hschedule

/-! ### The ways a run can fail -/

/-- There is a snapshot to be queued or to be taken. -/
inductive Works (env : Snapshots.Env) (appId : AppId) : List ScheduledSnapshot → Prop where
  | queue : Works env appId []
  | take {next : ScheduledSnapshot} {rest : List ScheduledSnapshot}
      (htakes : env.Takes appId next) : Works env appId (next :: rest)

/-- A step that a run comes to fails, by what is pending. -/
inductive Fails (env : Snapshots.Env) (appId : AppId) (schedule : String) :
    List ScheduledSnapshot → Prop where
  | list {pending : List ScheduledSnapshot} {e : String} (h : env.failure .listPending = some e) :
    Fails env appId schedule pending
  | queue {e : String} (h : env.cron schedule = .error e ∨ env.failure .create = some e) :
    Fails env appId schedule []
  | check {next : ScheduledSnapshot} {rest : List ScheduledSnapshot} {e : String}
      (hdue : next.scheduledTimestamp ≤ env.now) (h : env.backups = .error e) :
    Fails env appId schedule (next :: rest)
  | lock {next : ScheduledSnapshot} {rest : List ScheduledSnapshot} {backups : List Backup}
      {e : String} (hdue : next.scheduledTimestamp ≤ env.now) (hbackups : env.backups = .ok backups)
      (hidle : hasUnfinishedBackup appId backups = false)
      (h : env.failure .connect = some e ∨ env.failure .begin = some e ∨
        env.failure .lock = some e) :
    Fails env appId schedule (next :: rest)
  | take {next : ScheduledSnapshot} {rest : List ScheduledSnapshot} {e : String}
      (htakes : env.Takes appId next)
      (h : env.backup = .error e ∨ env.failure .update = some e ∨
        ((next :: rest).length > 1 ∧ env.failure .deletePending = some e) ∨
        env.cron schedule = .error e ∨ env.failure .create = some e ∨
        env.failure .commit = some e) :
    Fails env appId schedule (next :: rest)

theorem fails_nil_iff :
    Fails env appId schedule [] ↔ (∃ e, env.failure .listPending = some e) ∨
      (∃ e, env.cron schedule = .error e) ∨ ∃ e, env.failure .create = some e := by
  constructor
  · intro hfails
    cases hfails with
    | @list _ e h => exact .inl ⟨e, h⟩
    | @queue e h =>
      rcases h with h | h
      · exact .inr (.inl ⟨e, h⟩)
      · exact .inr (.inr ⟨e, h⟩)
  · rintro (⟨e, h⟩ | ⟨e, h⟩ | ⟨e, h⟩)
    · exact .list h
    · exact .queue (.inl h)
    · exact .queue (.inr h)

theorem fails_cons_iff {next : ScheduledSnapshot} {rest : List ScheduledSnapshot} :
    Fails env appId schedule (next :: rest) ↔ (∃ e, env.failure .listPending = some e) ∨
      next.scheduledTimestamp ≤ env.now ∧
        ((∃ e, env.backups = .error e) ∨
          ∃ backups, env.backups = .ok backups ∧ hasUnfinishedBackup appId backups = false ∧
            ((∃ e, env.failure .connect = some e) ∨ (∃ e, env.failure .begin = some e) ∨
              (∃ e, env.failure .lock = some e) ∨
              (env.lockedByOthers next.id = false ∧
                ∃ e, env.backup = .error e ∨ env.failure .update = some e ∨
                  ((next :: rest).length > 1 ∧ env.failure .deletePending = some e) ∨
                  env.cron schedule = .error e ∨ env.failure .create = some e ∨
                  env.failure .commit = some e))) := by
  constructor
  · intro hfails
    cases hfails with
    | @list _ e h => exact .inl ⟨e, h⟩
    | @check _ _ e hdue h => exact .inr ⟨hdue, .inl ⟨e, h⟩⟩
    | @lock _ _ backups e hdue hbackups hidle h =>
      refine .inr ⟨hdue, .inr ⟨backups, hbackups, hidle, ?_⟩⟩
      rcases h with h | h | h
      · exact .inl ⟨e, h⟩
      · exact .inr (.inl ⟨e, h⟩)
      · exact .inr (.inr (.inl ⟨e, h⟩))
    | @take _ _ e htakes h =>
      obtain ⟨hdue, ⟨backups, hbackups, hidle⟩, hfree⟩ := htakes
      exact .inr ⟨hdue, .inr ⟨backups, hbackups, hidle, .inr (.inr (.inr ⟨hfree, e, h⟩))⟩⟩
  · rintro (⟨e, h⟩ | ⟨hdue, ⟨e, h⟩ | ⟨backups, hbackups, hidle, h⟩⟩)
    · exact .list h
    · exact .check hdue h
    · rcases h with ⟨e, h⟩ | ⟨e, h⟩ | ⟨e, h⟩ | ⟨hfree, e, h⟩
      · exact .lock hdue hbackups hidle (.inl h)
      · exact .lock hdue hbackups hidle (.inr (.inl h))
      · exact .lock hdue hbackups hidle (.inr (.inr h))
      · exact .take ⟨hdue, ⟨backups, hbackups, hidle⟩, hfree⟩ h

theorem query_throws {statement : Snapshots.Statement} :
    (∃ e, env.query statement = .error e) ↔ ∃ e, env.failure statement = some e := by
  unfold Snapshots.Env.query
  cases env.failure statement with
  | none => exact ⟨fun ⟨_, h⟩ => (by cases h), fun ⟨_, h⟩ => (by cases h)⟩
  | some e => exact ⟨fun _ => ⟨e, rfl⟩, fun _ => ⟨e, rfl⟩⟩

theorem create_not_throws (h : NewId env t) (scheduledTimestamp : Nat) :
    ¬ ∃ e, createScheduledSnapshot t { id := env.randomstring, appId, scheduledTimestamp } =
      .error e := by
  obtain ⟨t', ht', -⟩ := createScheduledSnapshot_of_newId h
    { id := env.randomstring, appId, scheduledTimestamp } rfl
  rw [ht']
  rintro ⟨e, he⟩
  cases he

theorem ok_not_throws {α : Type} {a : α} : ¬ ∃ e, (Except.ok a : Except String α) = .error e := by
  rintro ⟨e, he⟩
  cases he

theorem deleteOthers_throws {pending : List ScheduledSnapshot} :
    (∃ e, deleteOthers env appId pending t = .error e) ↔
      pending.length > 1 ∧ ∃ e, env.failure .deletePending = some e := by
  unfold deleteOthers
  split
  next hothers =>
    refine (Except.throws_bind fun _ _ => iff_false_intro ok_not_throws).trans ?_
    rw [query_throws, or_false, and_iff_right hothers]
  next hsingle => exact iff_of_false ok_not_throws fun h => hsingle h.1

theorem NewId.deleteOthers (h : NewId env t) {pending : List ScheduledSnapshot}
    (hdelete : deleteOthers env appId pending t = .ok t') : NewId env t' := by
  unfold Snapshots.deleteOthers at hdelete
  split at hdelete
  · obtain ⟨_, -, hdelete⟩ := Except.bind_eq_ok.mp hdelete
    cases hdelete
    exact h.deleteWhere _
  · cases hdelete
    exact h

theorem takeSnapshot_throws_iff (h : NewId env t) (pending : List ScheduledSnapshot)
    (next : ScheduledSnapshot) :
    (∃ e, takeSnapshot env appId schedule pending next t = .error e) ↔
      ∃ e, env.backup = .error e ∨ env.failure .update = some e ∨
        (pending.length > 1 ∧ env.failure .deletePending = some e) ∨ env.cron schedule = .error e ∨
        env.failure .create = some e ∨ env.failure .commit = some e := by
  simp only [exists_or, exists_and_left, ← query_throws]
  unfold takeSnapshot
  refine Except.throws_bind fun b _ => Except.throws_bind fun _ _ => ?_
  rw [query_throws, ← deleteOthers_throws]
  refine Except.throws_bind fun u hu => ?_
  have hnew := (h.updateScheduledSnapshot next.id b).deleteOthers hu
  rw [nextScheduled_bind]
  refine Except.throws_bind fun scheduledTimestamp _ => Except.throws_bind fun _ _ => ?_
  refine (Except.throws_bind fun u' _ => Except.throws_bind fun _ _ =>
    iff_false_intro ok_not_throws).trans ?_
  rw [or_false, or_iff_right (create_not_throws hnew scheduledTimestamp)]

/-- The run fails exactly when one of the steps that it comes to does. -/
theorem handleApp_throws_iff (hschedule : schedule ≠ "") (h : NewId env t) :
    (∃ e, handleApp env appId (some schedule) t = .error e) ↔
      Fails env appId schedule (listPendingScheduledSnapshots t appId) := by
  unfold handleApp
  split
  next heq => cases heq
  next heq => exact absurd (Option.some.inj heq) hschedule
  next schedule _ heq =>
    cases heq
    cases hpending : listPendingScheduledSnapshots t appId with
    | nil =>
      rw [fails_nil_iff, ← query_throws, ← @query_throws env .create]
      refine Except.throws_bind fun _ _ => ?_
      dsimp only
      rw [nextScheduled_bind]
      exact Except.throws_bind fun scheduledTimestamp _ =>
        (Except.throws_bind fun _ _ => iff_false_intro (create_not_throws h _)).trans
          (iff_of_eq (or_false _))
    | cons next rest =>
      rw [fails_cons_iff, ← query_throws]
      refine Except.throws_bind fun _ _ => ?_
      have hlisted : next ∈ listPendingScheduledSnapshots t appId := by
        rw [hpending]
        exact List.mem_cons_self
      dsimp only
      rw [lockScheduledSnapshot_of_listed hlisted, Bool.not_not]
      split
      next hfuture =>
        exact iff_of_false ok_not_throws fun hdue => absurd hdue.1 (Nat.not_le.mpr hfuture)
      next hdue =>
        rw [and_iff_right (Nat.not_lt.mp hdue)]
        refine Except.throws_bind fun backups hbackups => ?_
        rw [hbackups]
        simp only [Except.ok.injEq, exists_eq_left']
        split
        next hunfinished =>
          refine iff_of_false ok_not_throws fun hidle => ?_
          rw [hidle.1] at hunfinished
          cases hunfinished
        next hidle =>
          rw [and_iff_right (by simpa using hidle)]
          rw [← @query_throws env .connect, ← @query_throws env .begin, ← @query_throws env .lock,
            ← takeSnapshot_throws_iff h (next :: rest) next]
          refine Except.throws_bind fun _ _ => Except.throws_bind fun _ _ =>
            Except.throws_bind fun _ _ => ?_
          split
          next hlocked =>
            refine iff_of_false ok_not_throws fun hfree => ?_
            rw [hfree.1] at hlocked
            cases hlocked
          next hfree => rw [and_iff_right (by simpa using hfree)]

/-! ### What a run leaves -/

theorem handleApp_idle (hschedule : schedule ≠ "")
    (hidle : ¬ Works env appId (listPendingScheduledSnapshots t appId))
    (h : handleApp env appId (some schedule) t = .ok t') : t' = t := by
  rcases handleApp_cases hschedule h with
    ⟨hnone, -⟩ | ⟨next, rest, hsome, ⟨-, rfl⟩ | ⟨htakes, -⟩⟩
  · rw [hnone] at hidle
    exact absurd .queue hidle
  · rfl
  · rw [hsome] at hidle
    exact absurd (.take htakes) hidle

theorem queued_eq {queued : ScheduledSnapshot}
    (h : nextScheduled env appId schedule = .ok queued) :
    queued.id = env.randomstring ∧ queued.appId = appId := by
  refine ⟨?_, nextScheduled_appId h⟩
  unfold nextScheduled at h
  obtain ⟨_, -, h⟩ := Except.bind_eq_ok.mp h
  cases h
  rfl

/-- A row of the table was there before, or it is the one with the new id. -/
def RowFrom (env : Snapshots.Env) (appId : AppId) (t : ScheduledSnapshots) (r : ScheduledSnapshot) :
    Prop :=
  (∃ r' ∈ t.rows, r'.id = r.id ∧ r'.appId = r.appId) ∨ (r.id = env.randomstring ∧ r.appId = appId)

theorem mem_create {u : ScheduledSnapshots} {queued r : ScheduledSnapshot}
    (h : createScheduledSnapshot u queued = .ok t') :
    r ∈ t'.rows ↔ r ∈ u.rows ∨ r = { queued with backupName := none } := by
  unfold createScheduledSnapshot at h
  split at h
  next => cases h
  next table hinsert =>
    cases h
    rw [(Keyed.insert?_eq_some hinsert).1, List.mem_append, List.mem_singleton]

theorem rowFrom_handleApp (h : handleApp env appId snapshotSchedule t = .ok t')
    {r : ScheduledSnapshot} (hr : r ∈ t'.rows) : RowFrom env appId t r := by
  have hcreate : ∀ {u queued schedule}, nextScheduled env appId schedule = .ok queued →
      createScheduledSnapshot u queued = .ok t' → (∀ r ∈ u.rows, RowFrom env appId t r) →
      RowFrom env appId t r := by
    intro u queued schedule hqueued hcreated hu
    rcases (mem_create hcreated).mp hr with hr | rfl
    · exact hu r hr
    · obtain ⟨hid, happ⟩ := queued_eq hqueued
      exact .inr ⟨hid, happ⟩
  have hsame : ∀ r ∈ t.rows, RowFrom env appId t r := fun r hr => .inl ⟨r, hr, rfl, rfl⟩
  cases snapshotSchedule with
  | none =>
    cases h
    exact hsame r hr
  | some schedule =>
    by_cases hschedule : schedule = ""
    · rw [hschedule] at h
      cases h
      exact hsame r hr
    · rcases handleApp_cases hschedule h with
        ⟨-, queued, hqueued, h⟩ | ⟨next, rest, hsome, ⟨-, rfl⟩ | ⟨-, htaken⟩⟩
      · exact hcreate hqueued h hsame
      · exact hsame r hr
      · obtain ⟨b, cleared, queued, -, hcleared, hqueued, h⟩ := takeSnapshot_spec htaken
        have hupdated : ∀ r ∈ (updateScheduledSnapshot t next.id b).rows,
            RowFrom env appId t r := by
          intro r hr
          obtain ⟨r', hr', rfl⟩ := Keyed.mem_updateWhere.mp hr
          refine .inl ⟨r', hr', ?_⟩
          split <;> exact ⟨rfl, rfl⟩
        refine hcreate hqueued h fun r hr => ?_
        rw [hcleared] at hr
        split at hr
        · exact hupdated r (Keyed.mem_deleteWhere.mp hr).1
        · exact hupdated r hr

/-- A run with work queues a row. -/
theorem handleApp_works (hschedule : schedule ≠ "")
    (hworks : Works env appId (listPendingScheduledSnapshots t appId))
    (h : handleApp env appId (some schedule) t = .ok t') :
    ∃ r ∈ t'.rows, r.id = env.randomstring ∧ r.appId = appId := by
  have hcreated : ∀ {u queued}, nextScheduled env appId schedule = .ok queued →
      createScheduledSnapshot u queued = .ok t' →
      ∃ r ∈ t'.rows, r.id = env.randomstring ∧ r.appId = appId := by
    intro u queued hqueued hcreated
    obtain ⟨hid, happ⟩ := queued_eq hqueued
    exact ⟨_, (mem_create hcreated).mpr (.inr rfl), hid, happ⟩
  rcases handleApp_cases hschedule h with
    ⟨-, queued, hqueued, h⟩ | ⟨next, rest, hsome, ⟨hstays, rfl⟩ | ⟨-, htaken⟩⟩
  · exact hcreated hqueued h
  · rw [hsome] at hworks
    cases hworks with
    | take htakes => exact absurd htakes hstays
  · obtain ⟨b, cleared, queued, -, -, hqueued, h⟩ := takeSnapshot_spec htaken
    exact hcreated hqueued h

end HandleApp

/-! ## The tick -/

/-- What a tick meets besides the database. -/
structure Tick where
  /-- The apps for which `getApp` fails. -/
  getApp : AppId → Option String := fun _ => none
  /-- What the run of `handleApp` for an app meets.  A `Backup` that was created for another app
  earlier in the tick may be among the backups. -/
  handleApp : AppId → Snapshots.Env

structure ScheduleState where
  db : Database
  -- the column `snapshot_schedule` of the apps
  snapshotSchedule : AppId → Option String
  scheduledSnapshots : ScheduledSnapshots

def getApp (tick : Tick) (db : Database) (appId : AppId) : Except String KotsApp :=
  match tick.getApp appId with
  | some e => .error e
  | none => KotsAppStore.getApp db appId

/-- `select id from app` -/
def appIds (db : Database) : List AppId := db.app.rows.map (·.id)

def listApps (tick : Tick) (db : Database) : Except String (List KotsApp) :=
  (appIds db).mapM (getApp tick db)

/-- The body of the loop, with what escapes it. -/
def handleListed (tick : Tick) (app : KotsApp) (s : ScheduleState) :
    ScheduleState × Option String :=
  if restoreInProgress app then (s, none)
  else
    match handleApp (tick.handleApp app.id) app.id (s.snapshotSchedule app.id)
      s.scheduledSnapshots with
    | .error e => (s, some e)
    | .ok t => ({ s with scheduledSnapshots := t }, none)

/-- One tick; what escapes is logged. -/
def scheduleLoop (tick : Tick) (s : ScheduleState) : ScheduleState :=
  match listApps tick s.db with
  | .error _ => s
  | .ok apps => (forEach (handleListed tick) apps s).1

/-! ## Without some apps -/

def withoutApps (broken : AppId → Bool) (s : ScheduleState) : ScheduleState where
  db := withoutRows broken s.db
  snapshotSchedule := s.snapshotSchedule
  scheduledSnapshots := withoutSnapshots broken s.scheduledSnapshots

def withoutBackups (broken : AppId → Bool) (env : Snapshots.Env) : Snapshots.Env :=
  { env with backups := env.backups.map (List.filter fun b => !b.appId.any broken) }

/-- The tick in which velero has no `Backup` of a broken app. -/
def Tick.without (broken : AppId → Bool) (tick : Tick) : Tick :=
  { tick with handleApp := fun appId => withoutBackups broken (tick.handleApp appId) }

/-! ## The visits of a tick -/

inductive Visit where
  | listApps
  | app (appId : AppId)
  deriving DecidableEq, Repr

def visit (tick : Tick) : Visit → ScheduleState → ScheduleState × Option String
  | .listApps, s =>
    match listApps tick s.db with
    | .error e => (s, some e)
    | .ok _ => (s, none)
  | .app appId, s =>
    match getApp tick s.db appId with
    | .error e => (s, some e)
    | .ok app => handleListed tick app s

def visits (s : ScheduleState) : List Visit := .listApps :: (appIds s.db).map .app

section Tick

variable {tick : Tick} {s : ScheduleState}

theorem handleListed_db (app : KotsApp) (s : ScheduleState) :
    (handleListed tick app s).1.db = s.db ∧
      (handleListed tick app s).1.snapshotSchedule = s.snapshotSchedule := by
  unfold handleListed
  split
  · exact ⟨rfl, rfl⟩
  · split <;> exact ⟨rfl, rfl⟩

theorem visit_db (x : Visit) (s : ScheduleState) :
    (visit tick x s).1.db = s.db ∧ (visit tick x s).1.snapshotSchedule = s.snapshotSchedule := by
  cases x with
  | listApps =>
    unfold visit
    dsimp only
    split <;> exact ⟨rfl, rfl⟩
  | app appId =>
    unfold visit
    dsimp only
    split
    · exact ⟨rfl, rfl⟩
    · exact handleListed_db _ s

theorem scheduleLoop_eq (s : ScheduleState) :
    scheduleLoop tick s = (forEach (visit tick) (visits s) s).1 := by
  unfold scheduleLoop visits
  rw [forEach, visit]
  cases hlisted : listApps tick s.db with
  | error e => rfl
  | ok apps =>
    dsimp only
    rw [forEach_map]
    congr 1
    refine forEach_loaded (I := fun t => t.db = s.db)
      (fun app t ht => (handleListed_db app t).1.trans ht) ?_ hlisted s rfl
    intro appId app t happ ht
    unfold visit
    dsimp only
    rw [ht, happ]

end Tick

/-! ## The broken apps and the others -/

def Visit.isOther (broken : AppId → Bool) : Visit → Bool
  | .listApps => false
  | .app appId => !broken appId

/-- `handleApp` gets past the checks for a schedule. -/
def Scheduled (tick : Tick) (s : ScheduleState) (appId : AppId) (schedule : String) : Prop :=
  (∃ app, getApp tick s.db appId = .ok app ∧ restoreInProgress app = false) ∧
    s.snapshotSchedule appId = some schedule ∧ schedule ≠ ""

/-- The step that fails ends the tick. -/
def Ends (tick : Tick) (s : ScheduleState) : Visit → Prop
  | .listApps => ∃ appId ∈ appIds s.db, ∃ e, getApp tick s.db appId = .error e
  | .app appId => (∃ e, getApp tick s.db appId = .error e) ∨
    ∃ schedule, Scheduled tick s appId schedule ∧
      Fails (tick.handleApp appId) appId schedule
        (listPendingScheduledSnapshots s.scheduledSnapshots appId)

/-- There is a snapshot to be queued or to be taken. -/
def HasWork (tick : Tick) (s : ScheduleState) : Visit → Prop
  | .listApps => False
  | .app appId => ∃ schedule, Scheduled tick s appId schedule ∧
    Works (tick.handleApp appId) appId (listPendingScheduledSnapshots s.scheduledSnapshots appId)

/-- Velero has an unfinished `Backup` when the app asks. -/
def Postponed (tick : Tick) (s : ScheduleState) : Visit → Prop
  | .listApps => False
  | .app appId => listPendingScheduledSnapshots s.scheduledSnapshots appId ≠ [] ∧
    ∃ backups, (tick.handleApp appId).backups = .ok backups ∧
      hasUnfinishedBackup appId backups = true

/-- What is not broken does not fail, by itself. -/
def OthersSound (broken : AppId → Bool) (tick : Tick) (s : ScheduleState) : Prop :=
  ∀ appId ∈ appIds s.db, broken appId = false → ¬ Ends (tick.without broken) s (.app appId)

/-- A failure for a broken app ends the tick before another app is handled. -/
def Starves (broken : AppId → Bool) (tick : Tick) (s : ScheduleState) (x y : Visit) : Prop :=
  x.isOther broken = false ∧ Ends tick s x ∧
    y.isOther broken = true ∧ HasWork (tick.without broken) s y

/-- Another app is put off for a `Backup` of a broken one. -/
def PutOff (broken : AppId → Bool) (tick : Tick) (s : ScheduleState) (x : Visit) : Prop :=
  x.isOther broken = true ∧ HasWork (tick.without broken) s x ∧ Postponed tick s x

/-- The ids that `randomstring.generate` returns are new. -/
structure NewIds (tick : Tick) (s : ScheduleState) : Prop where
  new : ∀ appId ∈ appIds s.db, NewId (tick.handleApp appId) s.scheduledSnapshots
  distinct : ∀ appId ∈ appIds s.db, ∀ appId' ∈ appIds s.db,
    (tick.handleApp appId).randomstring = (tick.handleApp appId').randomstring → appId = appId'

/-- The rows of one app. -/
abbrev own (appId : AppId) (t : ScheduledSnapshots) : ScheduledSnapshots :=
  withoutSnapshots (fun other => decide (other ≠ appId)) t

/-- The part of a visit is the rows of its app. -/
def Untouched (s : ScheduleState) : Visit → ScheduleState → Prop
  | .listApps, _ => True
  | .app appId, t => own appId t.scheduledSnapshots = own appId s.scheduledSnapshots

/-- What holds throughout a tick from `s`. -/
structure Throughout (tick : Tick) (s t : ScheduleState) : Prop where
  db : t.db = s.db
  snapshotSchedule : t.snapshotSchedule = s.snapshotSchedule
  ids : ∀ appId ∈ appIds s.db, ∀ r ∈ t.scheduledSnapshots.rows,
    r.id = (tick.handleApp appId).randomstring → r.appId = appId

section Others

variable {broken : AppId → Bool} {tick : Tick} {s t : ScheduleState} {appId : AppId}

theorem throughout_refl (hids : NewIds tick s) : Throughout tick s s :=
  ⟨rfl, rfl, fun appId happ r hr hid => absurd hid (hids.new appId happ r hr)⟩

theorem getApp_id {db : Database} {app : KotsApp} (h : getApp tick db appId = .ok app) :
    app.id = appId := by
  unfold getApp at h
  split at h
  · cases h
  · exact Kotsadm.getApp_id h

/-- A new id is new until its app is handled. -/
theorem newId_of_untouched (hids : NewIds tick s) (h : Throughout tick s t)
    (happ : appId ∈ appIds s.db) (huntouched : Untouched s (.app appId) t) :
    NewId (tick.handleApp appId) t.scheduledSnapshots := by
  intro r hr hid
  have hrow : r ∈ (own appId t.scheduledSnapshots).rows :=
    Keyed.mem_deleteWhere.mpr ⟨hr, by simp [h.ids appId happ r hr hid]⟩
  rw [huntouched] at hrow
  exact hids.new appId happ r (Keyed.mem_deleteWhere.mp hrow).1 hid

theorem listPending_of_untouched (huntouched : Untouched s (.app appId) t) :
    listPendingScheduledSnapshots t.scheduledSnapshots appId =
      listPendingScheduledSnapshots s.scheduledSnapshots appId := by
  have hown : ∀ u, listPendingScheduledSnapshots (own appId u) appId =
      listPendingScheduledSnapshots u appId := fun u =>
    listPending_withoutSnapshots (by simp)
  rw [← hown, huntouched, hown]

theorem scheduled_iff {app : KotsApp} {schedule : String}
    (hload : getApp tick s.db appId = .ok app) :
    Scheduled tick s appId schedule ↔
      restoreInProgress app = false ∧ s.snapshotSchedule appId = some schedule ∧ schedule ≠ "" := by
  unfold Scheduled
  simp [hload]

/-- An app without a snapshot schedule, or in a restore, is passed over. -/
theorem passed_over {app : KotsApp} (hload : getApp tick s.db appId = .ok app)
    (hnone : ∀ schedule, ¬ Scheduled tick s appId schedule) :
    ¬ Ends tick s (.app appId) ∧ ¬ HasWork tick s (.app appId) := by
  refine ⟨?_, fun ⟨schedule, hscheduled, _⟩ => hnone schedule hscheduled⟩
  rintro (⟨e, he⟩ | ⟨schedule, hscheduled, -⟩)
  · rw [hload] at he
    cases he
  · exact hnone schedule hscheduled

theorem handleListed_of_ok {app : KotsApp} {table : ScheduledSnapshots}
    (hrestore : restoreInProgress app = false)
    (hrun : handleApp (tick.handleApp app.id) app.id (t.snapshotSchedule app.id)
      t.scheduledSnapshots = .ok table) :
    handleListed tick app t = ({ t with scheduledSnapshots := table }, none) := by
  unfold handleListed
  rw [if_neg (by simp [hrestore]), hrun]

theorem handleListed_of_error {app : KotsApp} {e : String}
    (hrestore : restoreInProgress app = false)
    (hrun : handleApp (tick.handleApp app.id) app.id (t.snapshotSchedule app.id)
      t.scheduledSnapshots = .error e) : handleListed tick app t = (t, some e) := by
  unfold handleListed
  rw [if_neg (by simp [hrestore]), hrun]

/-- The one schedule of an app that is not passed over. -/
theorem scheduled_iff_eq {app : KotsApp} {schedule : String}
    (hload : getApp tick s.db appId = .ok app) (hrestore : restoreInProgress app = false)
    (hschedule : s.snapshotSchedule appId = some schedule) (hne : schedule ≠ "")
    {schedule' : String} : Scheduled tick s appId schedule' ↔ schedule' = schedule := by
  rw [scheduled_iff hload, hschedule]
  constructor
  · rintro ⟨-, hsome, -⟩
    exact (Option.some.inj hsome).symm
  · rintro rfl
    exact ⟨hrestore, rfl, hne⟩

/-- The tick ends where the run of `handleApp` throws. -/
theorem ends_iff {app : KotsApp} {schedule : String} (hids : NewIds tick s)
    (h : Throughout tick s t) (happ : appId ∈ appIds s.db)
    (huntouched : Untouched s (.app appId) t) (hload : getApp tick s.db appId = .ok app)
    (hne : schedule ≠ "")
    (hscheduled : ∀ schedule', Scheduled tick s appId schedule' ↔ schedule' = schedule) :
    Ends tick s (.app appId) ↔
      ∃ e, handleApp (tick.handleApp appId) appId (some schedule) t.scheduledSnapshots =
        .error e := by
  have hnew := newId_of_untouched hids h happ huntouched
  rw [handleApp_throws_iff hne hnew, listPending_of_untouched huntouched]
  unfold Ends
  simp [hload, hscheduled]

theorem hasWork_iff {schedule : String} (huntouched : Untouched s (.app appId) t)
    (hscheduled : ∀ schedule', Scheduled tick s appId schedule' ↔ schedule' = schedule) :
    HasWork tick s (.app appId) ↔
      Works (tick.handleApp appId) appId
        (listPendingScheduledSnapshots t.scheduledSnapshots appId) := by
  rw [listPending_of_untouched huntouched]
  unfold HasWork
  simp [hscheduled]

/-- The ways a visit can go. -/
theorem visit_cases (hids : NewIds tick s) (h : Throughout tick s t) (happ : appId ∈ appIds s.db)
    (huntouched : Untouched s (.app appId) t) :
    (∃ e, visit tick (.app appId) t = (t, some e) ∧ Ends tick s (.app appId)) ∨
      (¬ Ends tick s (.app appId) ∧ ¬ HasWork tick s (.app appId) ∧
        visit tick (.app appId) t = (t, none)) ∨
      ∃ table, ¬ Ends tick s (.app appId) ∧ HasWork tick s (.app appId) ∧
        visit tick (.app appId) t = ({ t with scheduledSnapshots := table }, none) ∧
        ∃ r ∈ table.rows, r.id = (tick.handleApp appId).randomstring ∧ r.appId = appId := by
  cases hload : getApp tick s.db appId with
  | error e =>
    refine .inl ⟨e, ?_, .inl ⟨e, hload⟩⟩
    unfold visit
    dsimp only
    rw [h.db, hload]
  | ok app =>
    have hid : app.id = appId := getApp_id hload
    have hvisit : visit tick (.app appId) t = handleListed tick app t := by
      unfold visit
      dsimp only
      rw [h.db, hload]
    have hcolumn : t.snapshotSchedule app.id = s.snapshotSchedule appId := by
      rw [h.snapshotSchedule, hid]
    rw [hvisit]
    cases hrestore : restoreInProgress app with
    | true =>
      obtain ⟨hends, hwork⟩ := passed_over hload fun schedule hscheduled => by
        rw [((scheduled_iff hload).mp hscheduled).1] at hrestore
        cases hrestore
      refine .inr (.inl ⟨hends, hwork, ?_⟩)
      unfold handleListed
      rw [if_pos hrestore]
    | false =>
      cases hschedule : s.snapshotSchedule appId with
      | none =>
        obtain ⟨hends, hwork⟩ := passed_over hload fun schedule hscheduled => by
          rw [((scheduled_iff hload).mp hscheduled).2.1] at hschedule
          cases hschedule
        exact .inr (.inl ⟨hends, hwork,
          handleListed_of_ok hrestore (by rw [hcolumn, hschedule]; rfl)⟩)
      | some schedule =>
        by_cases hempty : schedule = ""
        · obtain ⟨hends, hwork⟩ := passed_over hload fun schedule' hscheduled => by
            obtain ⟨-, hsome, hne⟩ := (scheduled_iff hload).mp hscheduled
            rw [hschedule] at hsome
            cases hsome
            exact hne hempty
          exact .inr (.inl ⟨hends, hwork,
            handleListed_of_ok hrestore (by rw [hcolumn, hschedule, hempty]; rfl)⟩)
        · have hscheduled : ∀ schedule',
              Scheduled tick s appId schedule' ↔ schedule' = schedule := fun _ =>
            scheduled_iff_eq hload hrestore hschedule hempty
          have hends := ends_iff hids h happ huntouched hload hempty hscheduled
          have hwork := hasWork_iff huntouched hscheduled
          have hcalled : handleApp (tick.handleApp app.id) app.id (t.snapshotSchedule app.id)
              t.scheduledSnapshots =
                handleApp (tick.handleApp appId) appId (some schedule) t.scheduledSnapshots := by
            rw [hcolumn, hschedule, hid]
          cases hrun : handleApp (tick.handleApp appId) appId (some schedule)
              t.scheduledSnapshots with
          | error e =>
            exact .inl ⟨e, handleListed_of_error hrestore (hcalled.trans hrun),
              hends.mpr ⟨e, hrun⟩⟩
          | ok table =>
            have hlisted := handleListed_of_ok hrestore (hcalled.trans hrun)
            have hreturns : ¬ Ends tick s (.app appId) := fun hthrows => by
              obtain ⟨e, he⟩ := hends.mp hthrows
              rw [hrun] at he
              cases he
            by_cases hworks : HasWork tick s (.app appId)
            · exact .inr (.inr ⟨table, hreturns, hworks, hlisted,
                handleApp_works hempty (hwork.mp hworks) hrun⟩)
            · have hsame : table = t.scheduledSnapshots :=
                handleApp_idle hempty (fun h => hworks (hwork.mpr h)) hrun
              refine .inr (.inl ⟨hreturns, hworks, ?_⟩)
              rw [hlisted, hsame]

/-! ### What a visit changes -/

theorem visit_table (x : Visit) (t : ScheduleState) :
    (visit tick x t).1 = t ∨ ∃ appId schedule table, x = .app appId ∧
      handleApp (tick.handleApp appId) appId schedule t.scheduledSnapshots = .ok table ∧
      (visit tick x t).1 = { t with scheduledSnapshots := table } := by
  cases x with
  | listApps =>
    left
    unfold visit
    dsimp only
    split <;> rfl
  | app appId =>
    unfold visit
    dsimp only
    split
    next => exact .inl rfl
    next app happ =>
      unfold handleListed
      split
      next => exact .inl rfl
      next =>
        split
        next => exact .inl rfl
        next table hrun =>
          rw [getApp_id happ] at hrun
          exact .inr ⟨appId, t.snapshotSchedule appId, table, rfl, hrun, rfl⟩

theorem mem_appIds_of_mem_visits (h : Visit.app appId ∈ visits s) : appId ∈ appIds s.db := by
  rcases List.mem_cons.mp h with h | h
  · cases h
  · obtain ⟨_, hmem, heq⟩ := List.mem_map.mp h
    cases heq
    exact hmem

theorem app_of_other {x : Visit} (hx : x ∈ visits s) (hout : (!x.isOther broken) = false) :
    ∃ appId, x = .app appId ∧ broken appId = false ∧ appId ∈ appIds s.db := by
  cases x with
  | listApps => cases hout
  | app appId =>
    exact ⟨appId, rfl, by simpa [Visit.isOther] using hout, mem_appIds_of_mem_visits hx⟩

theorem throughout_visit (hids : NewIds tick s) (h : Throughout tick s t) {x : Visit}
    (hx : x ∈ visits s) : Throughout tick s (visit tick x t).1 := by
  rcases @visit_table tick x t with hsame | ⟨appId, schedule, table, rfl, hrun, hvisit⟩
  · rw [hsame]
    exact h
  · have happ : appId ∈ appIds s.db := mem_appIds_of_mem_visits hx
    rw [hvisit]
    refine ⟨h.db, h.snapshotSchedule, fun other hother r hr hid => ?_⟩
    rcases rowFrom_handleApp hrun hr with ⟨r', hr', hid', happ'⟩ | ⟨hnew, hown⟩
    · rw [← happ']
      exact h.ids other hother r' hr' (hid'.trans hid)
    · rw [hown]
      exact hids.distinct appId happ other hother (hnew.symm.trans hid)

theorem untouched_visit {x y : Visit} (hne : x ≠ y) (t : ScheduleState) :
    Untouched s y (visit tick x t).1 ↔ Untouched s y t := by
  cases y with
  | listApps => exact Iff.rfl
  | app appId =>
    rcases @visit_table tick x t with hsame | ⟨other, schedule, table, rfl, hrun, hvisit⟩
    · rw [hsame]
    · have hother : other ≠ appId := fun heq => hne (by rw [heq])
      unfold Untouched
      rw [hvisit]
      dsimp only
      unfold own
      rw [withoutSnapshots_handleApp (by simpa using hother) hrun]

theorem withoutApps_visit {x : Visit} (hout : x.isOther broken = false) (t : ScheduleState) :
    withoutApps broken (visit tick x t).1 = withoutApps broken t := by
  rcases @visit_table tick x t with hsame | ⟨appId, schedule, table, rfl, hrun, hvisit⟩
  · rw [hsame]
  · rw [hvisit]
    unfold withoutApps
    dsimp only
    rw [withoutSnapshots_handleApp (by simpa [Visit.isOther] using hout) hrun]

theorem handleListed_withoutApps {app : KotsApp} (happ : broken app.id = false)
    (hnew : NewId (tick.handleApp app.id) t.scheduledSnapshots) :
    handleListed tick app (withoutApps broken t) =
      (withoutApps broken (handleListed tick app t).1, (handleListed tick app t).2) := by
  unfold handleListed
  split
  · rfl
  · have hrelated : Except.Related (SameOthers broken)
        (handleApp (tick.handleApp app.id) app.id (t.snapshotSchedule app.id) t.scheduledSnapshots)
        (handleApp (tick.handleApp app.id) app.id (t.snapshotSchedule app.id)
          (withoutSnapshots broken t.scheduledSnapshots)) := related_handleApp happ hnew
    unfold withoutApps
    dsimp only
    revert hrelated
    cases handleApp (tick.handleApp app.id) app.id (t.snapshotSchedule app.id)
        t.scheduledSnapshots with
    | error e =>
      intro hrelated
      generalize handleApp (tick.handleApp app.id) app.id (t.snapshotSchedule app.id)
        (withoutSnapshots broken t.scheduledSnapshots) = run at hrelated ⊢
      cases hrelated
      rfl
    | ok table =>
      intro hrelated
      generalize handleApp (tick.handleApp app.id) app.id (t.snapshotSchedule app.id)
        (withoutSnapshots broken t.scheduledSnapshots) = run at hrelated ⊢
      cases hrelated with
      | ok hsame => rw [hsame]

theorem getApp_withoutRows (happ : broken appId = false) (db : Database) :
    getApp tick (withoutRows broken db) appId = getApp tick db appId := by
  unfold getApp KotsAppStore.getApp
  rw [(sameFor_withoutRows happ db).app]

theorem visit_withoutApps (happ : broken appId = false)
    (hnew : NewId (tick.handleApp appId) t.scheduledSnapshots) :
    visit tick (.app appId) (withoutApps broken t) =
      (withoutApps broken (visit tick (.app appId) t).1, (visit tick (.app appId) t).2) := by
  have hload : getApp tick (withoutApps broken t).db appId = getApp tick t.db appId :=
    getApp_withoutRows happ t.db
  unfold visit
  dsimp only
  rw [hload]
  cases hloaded : getApp tick t.db appId with
  | error e => rfl
  | ok app =>
    have hid : app.id = appId := getApp_id hloaded
    exact handleListed_withoutApps (by rw [hid]; exact happ) (by rw [hid]; exact hnew)

theorem own_withoutSnapshots (happ : broken appId = false) (u : ScheduledSnapshots) :
    own appId (withoutSnapshots broken u) = own appId u := by
  apply Keyed.ext
  unfold own withoutSnapshots Keyed.deleteWhere
  dsimp only
  rw [List.filter_filter]
  apply List.filter_congr
  intro r _
  by_cases hr : r.appId = appId
  · simp [hr, happ]
  · simp [hr]

/-- The visit of another app. -/
theorem visit_other (hids : NewIds tick s) (h : Throughout tick s t) (hmem : appId ∈ appIds s.db)
    (huntouched : Untouched s (.app appId) t) (happ : broken appId = false)
    (hsound : ¬ Ends tick s (.app appId)) :
    ((visit tick (.app appId) t).2 = none ∧
        visit tick (.app appId) (withoutApps broken t) =
          (withoutApps broken (visit tick (.app appId) t).1, none)) ∧
      (¬ HasWork tick s (.app appId) → (visit tick (.app appId) t).1 = t) ∧
      (HasWork tick s (.app appId) →
        ¬ Untouched s (.app appId) (visit tick (.app appId) t).1) := by
  have hnew := newId_of_untouched hids h hmem huntouched
  rw [visit_withoutApps happ hnew]
  rcases visit_cases hids h hmem huntouched with
    ⟨e, -, hends⟩ | ⟨-, hidle, hvisit⟩ | ⟨table, -, hwork, hvisit, r, hr, hid, hown⟩
  · exact absurd hends hsound
  · rw [hvisit]
    exact ⟨⟨rfl, rfl⟩, fun _ => rfl, fun hwork => absurd hwork hidle⟩
  · rw [hvisit]
    refine ⟨⟨rfl, rfl⟩, fun hidle => absurd hwork hidle, fun _ hsame => ?_⟩
    -- the new row would have been there before the tick
    have hrow : r ∈ (own appId table).rows := Keyed.mem_deleteWhere.mpr ⟨hr, by simp [hown]⟩
    unfold Untouched at hsame
    dsimp only at hsame
    rw [hsame] at hrow
    exact hids.new appId hmem r (Keyed.mem_deleteWhere.mp hrow).1 hid

theorem visit_none_iff (hids : NewIds tick s) (h : Throughout tick s t) {x : Visit}
    (hx : x ∈ visits s) (huntouched : Untouched s x t) :
    (visit tick x t).2 = none ↔ ¬ Ends tick s x := by
  cases x with
  | listApps =>
    have hends : Ends tick s .listApps ↔ ∃ e, listApps tick t.db = .error e := by
      unfold listApps
      rw [h.db, List.mapM_eq_error_iff]
      exact Iff.rfl
    rw [hends]
    unfold visit
    dsimp only
    cases listApps tick t.db with
    | error e => exact ⟨nofun, fun hnone => absurd ⟨e, rfl⟩ hnone⟩
    | ok apps => exact ⟨fun _ => ok_not_throws, fun _ => rfl⟩
  | app appId =>
    rcases visit_cases hids h (mem_appIds_of_mem_visits hx) huntouched with
      ⟨e, hvisit, hends⟩ | ⟨hends, -, hvisit⟩ | ⟨table, hends, -, hvisit, -⟩ <;> rw [hvisit]
    · exact ⟨nofun, fun hnone => absurd hends hnone⟩
    · exact ⟨fun _ => hends, fun _ => rfl⟩
    · exact ⟨fun _ => hends, fun _ => rfl⟩

/-! ### Other apps and the backups of the broken ones -/

theorem NewIds.without (hids : NewIds tick s) (broken : AppId → Bool) :
    NewIds (tick.without broken) s := ⟨hids.new, hids.distinct⟩

theorem Throughout.without (h : Throughout tick s t) (broken : AppId → Bool) :
    Throughout (tick.without broken) s t := ⟨h.db, h.snapshotSchedule, h.ids⟩

theorem hasUnfinishedBackup_filter {backups : List Backup} (p : Backup → Bool)
    (h : hasUnfinishedBackup appId backups = false) :
    hasUnfinishedBackup appId (backups.filter p) = false := by
  unfold hasUnfinishedBackup at h ⊢
  split
  · rfl
  next hid =>
    rw [if_neg hid, List.any_eq_false] at h
    rw [List.any_eq_false]
    exact fun b hb => h b (List.mem_filter.mp hb).1

/-- The backups of other apps matter only when they put off a snapshot. -/
theorem handleApp_withoutBackups {env : Snapshots.Env} {snapshotSchedule : Option String}
    {u : ScheduledSnapshots}
    (hidle : listPendingScheduledSnapshots u appId ≠ [] → ∀ backups, env.backups = .ok backups →
      hasUnfinishedBackup appId backups = false) :
    handleApp (withoutBackups broken env) appId snapshotSchedule u =
      handleApp env appId snapshotSchedule u := by
  unfold handleApp
  split
  · rfl
  · rfl
  next schedule _ =>
    change (env.query .listPending >>= fun _ => _) = _
    congr 1
    funext _
    dsimp only
    cases hpending : listPendingScheduledSnapshots u appId with
    | nil => rfl
    | cons next rest =>
      have hidle' := hidle (by rw [hpending]; exact List.cons_ne_nil next rest)
      dsimp only
      change (if next.scheduledTimestamp > env.now then _ else _) = _
      split
      · rfl
      · unfold withoutBackups
        dsimp only
        cases hbackups : env.backups with
        | error e => rfl
        | ok backups =>
          have hsome := hidle' backups hbackups
          change (if hasUnfinishedBackup appId (backups.filter _) = true then _ else _) =
            if hasUnfinishedBackup appId backups = true then _ else _
          rw [hasUnfinishedBackup_filter _ hsome, hsome]
          rfl

theorem handleApp_of_unfinished {env : Snapshots.Env} {snapshotSchedule : Option String}
    {u : ScheduledSnapshots} {backups : List Backup} (hlist : env.failure .listPending = none)
    (hpending : listPendingScheduledSnapshots u appId ≠ []) (hbackups : env.backups = .ok backups)
    (hunfinished : hasUnfinishedBackup appId backups = true) :
    handleApp env appId snapshotSchedule u = .ok u := by
  unfold handleApp
  split
  · rfl
  · rfl
  next schedule _ =>
    have hquery : env.query .listPending = .ok () := by
      unfold Snapshots.Env.query
      rw [hlist]
    have hbind : ∀ k : Unit → Except String ScheduledSnapshots, (Except.ok () >>= k) = k () :=
      fun _ => rfl
    rw [hquery, hbind]
    dsimp only
    cases hlisted : listPendingScheduledSnapshots u appId with
    | nil => exact absurd hlisted hpending
    | cons next rest =>
      dsimp only
      split
      · rfl
      · rw [hbackups]
        change (if hasUnfinishedBackup appId backups = true then _ else _) = _
        rw [if_pos hunfinished]
        rfl

theorem visit_postponed (h : Throughout tick s t) (huntouched : Untouched s (.app appId) t)
    (hsound : ¬ Ends (tick.without broken) s (.app appId))
    (hpostponed : Postponed tick s (.app appId)) : visit tick (.app appId) t = (t, none) := by
  cases hload : getApp tick s.db appId with
  | error e => exact absurd (.inl ⟨e, hload⟩) hsound
  | ok app =>
    have hid : app.id = appId := getApp_id hload
    unfold visit
    dsimp only
    rw [h.db, hload]
    dsimp only
    cases hrestore : restoreInProgress app with
    | true =>
      unfold handleListed
      rw [if_pos hrestore]
    | false =>
      refine handleListed_of_ok hrestore ?_
      rw [h.snapshotSchedule, hid]
      have hskip : ∀ schedule, s.snapshotSchedule appId = some schedule → schedule ≠ "" →
          (tick.handleApp appId).failure .listPending = none := by
        intro schedule hschedule hne
        by_contra hfails
        obtain ⟨e, he⟩ := Option.ne_none_iff_exists'.mp hfails
        exact hsound (.inr ⟨schedule, ⟨⟨app, hload, hrestore⟩, hschedule, hne⟩, .list he⟩)
      cases hschedule : s.snapshotSchedule appId with
      | none => rfl
      | some schedule =>
        by_cases hempty : schedule = ""
        · rw [hempty]
          rfl
        · obtain ⟨hpending, backups, hbackups, hunfinished⟩ := hpostponed
          rw [← listPending_of_untouched huntouched] at hpending
          exact handleApp_of_unfinished (hskip schedule hschedule hempty) hpending hbackups
            hunfinished

theorem visit_not_postponed (huntouched : Untouched s (.app appId) t)
    (hidle : ¬ Postponed tick s (.app appId)) :
    visit tick (.app appId) t = visit (tick.without broken) (.app appId) t := by
  have hbackups : listPendingScheduledSnapshots t.scheduledSnapshots appId ≠ [] →
      ∀ backups, (tick.handleApp appId).backups = .ok backups →
        hasUnfinishedBackup appId backups = false := by
    intro hpending backups hbackups
    rw [listPending_of_untouched huntouched] at hpending
    by_contra hunfinished
    exact hidle ⟨hpending, backups, hbackups, by simpa using hunfinished⟩
  change (match getApp tick t.db appId with
      | .error e => (t, some e)
      | .ok app => handleListed tick app t) =
    match getApp tick t.db appId with
      | .error e => (t, some e)
      | .ok app => handleListed (tick.without broken) app t
  cases hload : getApp tick t.db appId with
  | error e => rfl
  | ok app =>
    have hid : app.id = appId := getApp_id hload
    have hsame : handleApp (withoutBackups broken (tick.handleApp appId)) appId
        (t.snapshotSchedule appId) t.scheduledSnapshots =
          handleApp (tick.handleApp appId) appId (t.snapshotSchedule appId) t.scheduledSnapshots :=
      handleApp_withoutBackups hbackups
    rw [← hid] at hsame
    dsimp only
    unfold handleListed Tick.without
    dsimp only
    rw [hsame]

/-- The visits of a tick. -/
def parts (broken : AppId → Bool) (tick : Tick) (s : ScheduleState) (hids : NewIds tick s)
    (hsound : OthersSound broken tick s) :
    Visits (visit tick) (visit (tick.without broken)) (visits s) where
  leftOut x := !x.isOther broken
  erase := withoutApps broken
  Inv := Throughout tick s
  Untouched := Untouched s
  Ends := Ends tick s
  HasWork := HasWork (tick.without broken) s
  Postponed := Postponed tick s
  nodup := by
    refine List.nodup_cons.mpr ⟨by simp, ?_⟩
    exact List.Nodup.map (fun _ _ h => by injection h) s.db.app.nodup
  inv {x t} hx ht := by
    obtain ⟨hdb, hcolumn, hrows⟩ := throughout_visit (hids.without broken) (ht.without broken) hx
    exact ⟨throughout_visit hids ht hx, hdb, hcolumn, hrows⟩
  untouched {x y t} _ _ hne _ := ⟨untouched_visit hne t, untouched_visit hne t⟩
  ends hx _ ht huntouched := visit_none_iff hids ht hx huntouched
  erase_body {x t} _ hout _ := withoutApps_visit (by simpa using hout) t
  body_erase {x t} hx hout ht huntouched := by
    obtain ⟨appId, rfl, happ, hmem⟩ := app_of_other hx hout
    exact (visit_other (hids.without broken) (ht.without broken) hmem huntouched happ
      (hsound appId hmem happ)).1
  idle {x t} hx hout ht huntouched hidle := by
    obtain ⟨appId, rfl, happ, hmem⟩ := app_of_other hx hout
    exact (visit_other (hids.without broken) (ht.without broken) hmem huntouched happ
      (hsound appId hmem happ)).2.1 hidle
  works {x t} hx hout ht huntouched hwork := by
    obtain ⟨appId, rfl, happ, hmem⟩ := app_of_other hx hout
    exact (visit_other (hids.without broken) (ht.without broken) hmem huntouched happ
      (hsound appId hmem happ)).2.2 hwork
  postponed {x t} hx hout ht huntouched _ hpostponed := by
    obtain ⟨appId, rfl, happ, hmem⟩ := app_of_other hx hout
    exact visit_postponed ht huntouched (hsound appId hmem happ) hpostponed
  not_postponed {x t} hx hout ht huntouched hidle := by
    obtain ⟨appId, rfl, happ, hmem⟩ := app_of_other hx hout
    by_cases hpostponed : Postponed tick s (.app appId)
    · obtain ⟨⟨hreturns, -⟩, hstays, -⟩ := visit_other (hids.without broken)
        (ht.without broken) hmem huntouched happ (hsound appId hmem happ)
      rw [visit_postponed ht huntouched (hsound appId hmem happ) hpostponed]
      exact (Prod.ext (hstays fun hwork => hidle hwork hpostponed) hreturns).symm
    · exact visit_not_postponed huntouched hpostponed
  untouched_erase {x t} hx hout := by
    obtain ⟨appId, rfl, happ, -⟩ := app_of_other hx hout
    unfold Untouched withoutApps
    dsimp only
    rw [own_withoutSnapshots happ]

/-! ## The tick without the broken apps -/

theorem appIds_withoutRows (db : Database) :
    appIds (withoutRows broken db) = (appIds db).filter fun appId => !broken appId := by
  unfold appIds
  rw [List.filter_map]
  rfl

theorem visits_withoutApps :
    (visits (withoutApps broken s)).filter (fun x => x.isOther broken) =
      (visits s).filter fun x => x.isOther broken := by
  unfold visits
  change List.filter _ (_ :: (appIds (withoutRows broken s.db)).map _) = _
  rw [List.filter_cons_of_neg (by simp [Visit.isOther]),
    List.filter_cons_of_neg (by simp [Visit.isOther]), appIds_withoutRows, List.filter_map,
    List.filter_map, List.filter_filter]
  congr 1
  apply List.filter_congr
  intro appId _
  simp [Visit.isOther]

theorem scheduleLoop_withoutApps
    (hloads : ∀ appId ∈ appIds s.db, broken appId = false →
      ¬ ∃ e, getApp tick s.db appId = .error e) :
    scheduleLoop tick (withoutApps broken s) =
      (forEach (visit tick) ((visits s).filter fun x => x.isOther broken)
        (withoutApps broken s)).1 := by
  rw [scheduleLoop_eq, ← visits_withoutApps]
  congr 1
  refine forEach_filter (I := fun t => t.db = withoutRows broken s.db) _ _
    (fun x _ t ht => (visit_db x t).1.trans ht) ?_ _ rfl
  intro x hx hout t ht
  cases x with
  | listApps =>
    -- the apps that are left can all be loaded
    have hloaded : ¬ ∃ e, listApps tick t.db = .error e := by
      unfold listApps
      rw [ht, appIds_withoutRows, List.mapM_eq_error_iff]
      rintro ⟨appId, hmem, e, he⟩
      obtain ⟨hmem, hother⟩ := List.mem_filter.mp hmem
      have happ : broken appId = false := by simpa using hother
      rw [getApp_withoutRows happ] at he
      exact hloads appId hmem happ ⟨e, he⟩
    unfold visit
    dsimp only
    cases hlisted : listApps tick t.db with
    | error e => exact absurd ⟨e, hlisted⟩ hloaded
    | ok apps => rfl
  | app appId =>
    have hmem : appId ∈ appIds (withoutRows broken s.db) := mem_appIds_of_mem_visits hx
    rw [appIds_withoutRows] at hmem
    rw [Visit.isOther, (List.mem_filter.mp hmem).2] at hout
    cases hout

/-- **A tick handles the other apps as if the broken ones and their backups were not there, exactly
when no failure for a broken app ends it before another app that has a snapshot to be queued or
taken, and no such app is put off for a `Backup` of a broken one.** -/
theorem scheduleLoop_iff (hids : NewIds tick s) (hsound : OthersSound broken tick s) :
    withoutApps broken (scheduleLoop tick s) =
        scheduleLoop (tick.without broken) (withoutApps broken s) ↔
      ((visits s).Pairwise fun x y => ¬ Starves broken tick s x y) ∧
        ∀ x ∈ visits s, ¬ PutOff broken tick s x := by
  have hloop := (parts broken tick s hids hsound).erase_forEach_iff (s := s)
    (throughout_refl hids) fun x _ => by
      cases x with
      | listApps => exact trivial
      | app appId => exact rfl
  rw [scheduleLoop_withoutApps fun appId hmem happ he => hsound appId hmem happ (.inl he),
    scheduleLoop_eq]
  simpa [parts, Visits.Starves, Visits.Loses, Starves, PutOff] using hloop

end Others

/-! ## Both loops -/

def versionOf (appId : AppId) : AppDownstreamVersionRow where
  appId := appId
  clusterId := "c1"
  sequence := 0
  parentSequence := 0
  status := "deployed"

/-- Two apps for one cluster.  The version that `a` runs may be missing. -/
def twoApps (missing : Bool) : Database where
  app := {
    rows := [{ id := "a", name := "A", slug := "a" }, { id := "b", name := "B", slug := "b" }]
    nodup := by decide }
  appDownstream := {
    rows := [
      { appId := "a", clusterId := "c1", downstreamName := "main", currentSequence := some 0 },
      { appId := "b", clusterId := "c1", downstreamName := "main", currentSequence := some 0 }]
    nodup := by decide }
  appDownstreamVersion := {
    rows := (if missing then [] else [versionOf "a"]) ++ [versionOf "b"]
    nodup := by cases missing <;> decide }
  cluster := {
    rows := [{ id := "c1", title := "main", token := "t" }]
    nodup := by decide }

def brokenA (appId : AppId) : Bool := appId = "a"

/-- Rendering fails for `a`. -/
def deployA : BrokenApps.Tick := fun _ _ => {
  loadKotsAppSpec := fun _ => .ok {}
  render := fun appId _ _ _ => if appId = "a" then .error "exit status 1" else .ok ""
  getImagePullSecretFromArchive := fun _ _ => .ok ""
  readBackup := fun _ => .ok []
  base64 := id
  annotateSlug := false }

def connected (missing : Bool) : BrokenApps.TickState where
  db := twoApps missing
  clusterSocketHistory := [{ clusterId := "c1", socketId := "s1" }]
  lastDeployedSequences := fun _ _ => none
  deploys := []
  appInformers := []

/-- The table of the scheduled snapshots cannot be read for `a`. -/
def scheduleA (unreadable : Bool) : Tick where
  handleApp appId := {
    now := 0
    cron := fun _ => .ok 60
    randomstring := appId
    failure := fun _ => if unreadable && appId = "a" then some "ECONNRESET" else none }

def scheduled : ScheduleState where
  db := twoApps false
  snapshotSchedule := fun _ => some "0 0 * * *"
  scheduledSnapshots := .empty

theorem visits_connected (missing : Bool) :
    BrokenApps.visits (connected missing) =
      [.list ⟨"c1", "s1"⟩, .app ⟨"c1", "s1"⟩ "a", .app ⟨"c1", "s1"⟩ "b"] := by
  cases missing <;> rfl

theorem twoApps_sound (missing : Bool) :
    BrokenApps.OthersSound brokenA deployA (connected missing) := by
  intro history appId hmem hother
  rw [visits_connected] at hmem
  simp only [List.mem_cons, reduceCtorEq, BrokenApps.Visit.app.injEq, List.not_mem_nil, false_or,
    or_false] at hmem
  rcases hmem with ⟨rfl, rfl⟩ | ⟨rfl, rfl⟩
  · cases hother
  · refine ⟨mapKotsApp { id := "b", name := "B", slug := "b" }, by cases missing <;> rfl, ?_⟩
    have hdeploys : ∃ args, BrokenApps.decision (deployA ⟨"c1", "s1"⟩ "b") ⟨"c1", "s1"⟩
        (mapKotsApp { id := "b", name := "B", slug := "b" }) (connected missing) =
          .deploy 0 args := by
      cases missing <;> exact ⟨_, rfl⟩
    obtain ⟨args, hargs⟩ := hdeploys
    exact BrokenApps.not_stepFails_of_deploy hargs

theorem scheduleA_newIds (unreadable : Bool) : NewIds (scheduleA unreadable) scheduled :=
  ⟨fun _ _ _ hr => (by cases hr), fun _ _ _ _ h => h⟩

theorem twoApps_sound' (unreadable : Bool) :
    OthersSound brokenA (scheduleA unreadable) scheduled := by
  intro appId hmem hother
  have happ : appId = "b" := by
    have hids : appIds scheduled.db = ["a", "b"] := rfl
    rw [hids] at hmem
    simp only [List.mem_cons, List.not_mem_nil, or_false] at hmem
    rcases hmem with rfl | rfl
    · cases hother
    · rfl
  rw [happ]
  rintro (⟨e, he⟩ | ⟨schedule, ⟨-, hschedule, hne⟩, hfails⟩)
  · cases he
  · obtain ⟨e, he⟩ := (handleApp_throws_iff hne ((scheduleA_newIds unreadable).new "b"
      (by decide))).mpr hfails
    cases hschedule
    cases unreadable <;> cases he

end Kotsadm.ScheduleLoop
