import Mathlib.Tactic.Tauto
import Kotsadm.Snapshots.Schedule

/-!
# UnfinishedBackups — for which backups a scheduled snapshot waits

A `Backup` without a phase is a new one, of whatever app.  `hasUnfinishedBackup` looks at the app
only after it has looked for a phase, so a new `Backup` of another app, or of another tool, counts
as well.
-/

namespace Kotsadm.Snapshots

/-- The annotation names the app. -/
def Backup.isOf (appId : AppId) (b : Backup) : Bool := b.appId = some appId

/-- The phase is `New` or `InProgress`; no phase means `New`. -/
def Backup.unfinished (b : Backup) : Bool :=
  b.phase = none || b.phase = some .new || b.phase = some .inProgress

/-- A backup of the app is unfinished. -/
def OwnUnfinished (appId : AppId) (backups : List Backup) : Prop :=
  ∃ b ∈ backups, b.isOf appId ∧ b.unfinished

/-- A backup that is not one of the app has no phase. -/
def OtherWithoutPhase (appId : AppId) (backups : List Backup) : Prop :=
  ∃ b ∈ backups, ¬ b.isOf appId ∧ b.phase = none

/-- The first pending snapshot of the app is due. -/
def Due (env : Env) (appId : AppId) (snapshotSchedule : String) (t : ScheduledSnapshots) : Prop :=
  snapshotSchedule ≠ "" ∧ env.failure .listPending = none ∧
    ∃ next rest, listPendingScheduledSnapshots t appId = next :: rest ∧
      next.scheduledTimestamp ≤ env.now

/-- `handleApp` leaves a due snapshot for a later run, since a backup is unfinished. -/
def Postpones (env : Env) (appId : AppId) (snapshotSchedule : String) (t : ScheduledSnapshots) :
    Prop :=
  Due env appId snapshotSchedule t ∧
    ∃ backups, env.backups = .ok backups ∧ hasUnfinishedBackup appId backups = true

section

variable {appId : AppId} {backups backups' : List Backup} {b : Backup}

theorem hasUnfinishedBackup_empty : hasUnfinishedBackup "" backups = false := if_pos rfl

/-- What the code looks for. -/
theorem hasUnfinishedBackup_iff (happ : appId ≠ "") :
    hasUnfinishedBackup appId backups = true ↔
      OwnUnfinished appId backups ∨ OtherWithoutPhase appId backups := by
  -- a backup without a phase is counted before its app is looked at
  have hone : ∀ b : Backup, hasUnfinishedBackup appId [b] = true ↔
      b.isOf appId ∧ b.unfinished ∨ ¬ b.isOf appId ∧ b.phase = none := by
    intro b
    unfold hasUnfinishedBackup Backup.isOf Backup.unfinished
    rw [if_neg happ, List.any_cons, List.any_nil, Bool.or_false]
    cases hphase : b.phase with
    | none => simp [em]
    | some phase => simp
  have hany : hasUnfinishedBackup appId backups = true ↔
      ∃ b ∈ backups, hasUnfinishedBackup appId [b] = true := by
    unfold hasUnfinishedBackup
    simp only [if_neg happ, List.any_eq_true, List.any_cons, List.any_nil, Bool.or_false]
  rw [hany]
  constructor
  · rintro ⟨b, hb, hcounts⟩
    rcases (hone b).mp hcounts with hown | hother
    · exact .inl ⟨b, hb, hown⟩
    · exact .inr ⟨b, hb, hother⟩
  · rintro (⟨b, hb, hown⟩ | ⟨b, hb, hother⟩)
    · exact ⟨b, hb, (hone b).mpr (.inl hown)⟩
    · exact ⟨b, hb, (hone b).mpr (.inr hother)⟩

/-- Only the backups of the app matter to `OwnUnfinished`. -/
theorem ownUnfinished_filter :
    OwnUnfinished appId (backups.filter (·.isOf appId)) ↔ OwnUnfinished appId backups := by
  unfold OwnUnfinished
  constructor
  · rintro ⟨b, hb, hunfinished⟩
    exact ⟨b, (List.mem_filter.mp hb).1, hunfinished⟩
  · rintro ⟨b, hb, hunfinished⟩
    exact ⟨b, List.mem_filter.mpr ⟨hb, hunfinished.1⟩, hunfinished⟩

/-- A run that postpones leaves the table as it is. -/
theorem handleApp_of_postpones {env : Env} {snapshotSchedule : String} {t : ScheduledSnapshots}
    (h : Postpones env appId snapshotSchedule t) :
    handleApp env appId (some snapshotSchedule) t = .ok t := by
  obtain ⟨⟨hschedule, hquery, next, rest, hpending, hdue⟩, backups, hbackups, hunfinished⟩ := h
  unfold handleApp
  split
  next heq => cases heq
  next heq => exact absurd (Option.some.inj heq) hschedule
  next schedule _ heq =>
    cases heq
    have hlist : env.query .listPending = .ok () := by
      unfold Env.query
      rw [hquery]
    have hbind : ∀ k : Unit → Except String ScheduledSnapshots, (Except.ok () >>= k) = k () :=
      fun _ => rfl
    rw [hlist, hbind, hpending]
    dsimp only
    rw [if_neg (Nat.not_lt.mpr hdue), hbackups]
    show (if hasUnfinishedBackup appId backups = true then _ else _) = _
    rw [if_pos hunfinished]
    rfl

/-- Where the answer of velero is `backups`. -/
theorem postpones_iff {env : Env} {snapshotSchedule : String} {t : ScheduledSnapshots} :
    Postpones { env with backups := .ok backups } appId snapshotSchedule t ↔
      Due env appId snapshotSchedule t ∧ hasUnfinishedBackup appId backups = true := by
  constructor
  · rintro ⟨hdue, other, hother, hunfinished⟩
    cases hother
    exact ⟨hdue, hunfinished⟩
  · rintro ⟨hdue, hunfinished⟩
    exact ⟨hdue, backups, rfl, hunfinished⟩

end

/-- **A snapshot waits for the backups of its own app**, unless another one has no phase.  Other
backups make a difference exactly when one of the two lists has such a backup, and the app has no
unfinished one that it waits for anyway. -/
theorem waits_iff (appId : AppId) (backups : List Backup) :
    ((hasUnfinishedBackup appId backups = true ↔ OwnUnfinished appId backups) ↔
      if appId = "" then ¬ OwnUnfinished appId backups
      else OwnUnfinished appId backups ∨ ¬ OtherWithoutPhase appId backups) ∧
    ∀ (env : Env) (snapshotSchedule : String) (t : ScheduledSnapshots) (backups' : List Backup),
      backups'.filter (·.isOf appId) = backups.filter (·.isOf appId) →
      ((Postpones { env with backups := .ok backups } appId snapshotSchedule t ↔
          Postpones { env with backups := .ok backups' } appId snapshotSchedule t) ↔
        ¬ Due env appId snapshotSchedule t ∨ appId = "" ∨ OwnUnfinished appId backups ∨
          (OtherWithoutPhase appId backups ↔ OtherWithoutPhase appId backups')) := by
  constructor
  · by_cases happ : appId = ""
    · subst happ
      rw [if_pos rfl, hasUnfinishedBackup_empty]
      simp
    · rw [if_neg happ, hasUnfinishedBackup_iff happ]
      tauto
  · intro env snapshotSchedule t backups' hown
    -- the backups of the app are the same in both lists, so only the others can differ
    have hsame : OwnUnfinished appId backups' ↔ OwnUnfinished appId backups := by
      rw [← ownUnfinished_filter, hown, ownUnfinished_filter]
    rw [postpones_iff, postpones_iff]
    by_cases happ : appId = ""
    · subst happ
      rw [hasUnfinishedBackup_empty, hasUnfinishedBackup_empty]
      simp
    · rw [hasUnfinishedBackup_iff happ, hasUnfinishedBackup_iff happ, hsame]
      tauto

/-- Another tool has just created a backup. -/
theorem not_waits_otherTool : ¬ ∀ (appId : AppId) (backups : List Backup),
    hasUnfinishedBackup appId backups = true ↔ OwnUnfinished appId backups := by
  intro h
  obtain ⟨b, hb, hof, -⟩ := (h "app" [{ appId := none }]).mp rfl
  cases List.mem_singleton.mp hb
  cases hof

end Kotsadm.Snapshots
