import Kotsadm.Lib.Filter
import Kotsadm.Snapshots.ParseBackupLogs

/-!
# LostErrors — what becomes of the errors and warnings in the log of a backup

The lists of an exec are never made, so what should go there is thrown away with the whole log;
and no line of a log has the level that `isWarning` looks for.
-/

namespace Kotsadm.BackupLogs

/-- `first` begins the exec that is open for `line` after `before`. -/
def OpenAt (before : List BackupLogLine) (line first : BackupLogLine) : Prop :=
  ∃ earlier later, before = earlier ++ first :: later ∧ isExecBegin first = true ∧
    execKey first = execKey line ∧
      ∀ other ∈ later, isExecBegin other = true → execKey other ≠ execKey line

def levelIs (level : String) (line : BackupLogLine) : Bool := line.level = .string level

/-- The exec of a begin line. -/
def SnapshotHook.BegunBy (exec : SnapshotHook) (line : BackupLogLine) : Prop :=
  exec.namespace_ = line.namespace_ ∧ exec.podName = line.name ∧
    exec.containerName = line.hookContainer ∧ exec.command = line.hookCommand ∧
      exec.hookName = line.hookName ∧ exec.phase = line.hookPhase ∧ exec.started = line.time

def SnapshotHook.recorded (exec : SnapshotHook) : List SnapshotError :=
  exec.errors.getD [] ++ exec.warnings.getD []

/-- The lists are those of the lines without a hook, and a line with a hook is recorded in the
exec that is open for it. -/
def NothingLost (lines : List BackupLogLine) (result : Except TypeError ParsedBackupLogs) : Prop :=
  ∃ logs, result = .ok logs ∧
    logs.errors = (lines.filter fun line => levelIs "error" line && !isExec line).map errorOf ∧
    logs.warnings =
      (lines.filter fun line => levelIs "warning" line && !isExec line).map warningOf ∧
    ∀ before line after first, lines = before ++ line :: after →
      (levelIs "error" line || levelIs "warning" line) = true → isExec line = true →
        OpenAt before line first →
          ∃ exec ∈ logs.execs, exec.BegunBy first ∧ ∃ e ∈ exec.recorded, e.title = line.msg

/-- A line that should be recorded in an exec, or that the code tries to record there. -/
def belongsToExec (line : BackupLogLine) : Bool :=
  isExec line && (levelIs "error" line || levelIs "warning" line || !isRun line && isWarning line)

/-- No line comes where it is lost. -/
structure NoneInTheWay (lines : List BackupLogLine) : Prop where
  exec : ∀ before line after, lines = before ++ line :: after → belongsToExec line = true →
    ∀ first ∈ before, isExecBegin first = true → execKey first ≠ execKey line
  error : ∀ line ∈ lines, levelIs "error" line = true → isExec line = false → isRun line = false
  warning : (lines.filter savesWarning).map warningOf =
    (lines.filter fun line => levelIs "warning" line && !isExec line).map warningOf

/-! ## What is thrown -/

/-- The two lists have not been made. -/
def SnapshotHook.Unmade (exec : SnapshotHook) : Prop := exec.errors = none ∧ exec.warnings = none

section

variable {line : BackupLogLine} {lines : List BackupLogLine} {st : State} {exec : SnapshotHook}

theorem unmade_begun (h : begun line = some exec) : exec.Unmade := by
  unfold begun at h
  split at h
  · cases h
    exact ⟨rfl, rfl⟩
  · cases h

theorem unmade_update (h : exec.Unmade) : (update line exec).Unmade := by
  obtain ⟨herrors, hwarnings⟩ := h
  unfold update
  split
  · exact ⟨herrors, hwarnings⟩
  split
  · exact ⟨herrors, hwarnings⟩
  split
  · exact ⟨congrArg (Option.map _) herrors, hwarnings⟩
  split
  · exact ⟨herrors, congrArg (Option.map _) hwarnings⟩
  · exact ⟨herrors, hwarnings⟩

/-- They are never made. -/
theorem unmade_run {st : Sessions.State String SnapshotHook} (h : ∀ exec ∈ st.all, exec.Unmade) :
    ∀ exec ∈ (Sessions.run execKey begun update st lines).all, exec.Unmade :=
  Sessions.forall_run h (fun _ _ => unmade_begun) fun _ _ => unmade_update

theorem eachLine_throws_iff (h : ∀ exec ∈ st.sessions.all, exec.Unmade) :
    (eachLine line st).2 ≠ none ↔
      (isExecFailure line && !isRun line) = true ∧ st.openExecs.get (execKey line) ≠ none := by
  have hunmade : ∀ exec, st.openExecs.get (execKey line) = some exec → exec.Unmade := by
    intro exec hget
    apply h exec
    apply List.mem_append_right
    exact List.mem_map.mpr ⟨_, Dictionary.get_eq_some.mp hget, rfl⟩
  unfold isExecFailure isRun isOutput
  fun_cases eachLine line st
  case case8 hget errors herrors =>
    rw [(hunmade _ hget).1] at herrors
    cases herrors
  case case11 hget warnings hwarnings =>
    rw [(hunmade _ hget).2] at hwarnings
    cases hwarnings
  all_goals simp_all

/-- An exec is open after a line if it was before, or if the line begins it. -/
theorem get_eachLine (h : (eachLine line st).2 = none) {key : String} :
    (eachLine line st).1.openExecs.get key ≠ none ↔
      st.openExecs.get key ≠ none ∨ isExecBegin line = true ∧ execKey line = key := by
  have hstep : (Sessions.step execKey begun update st.sessions line).opened.get key = none ↔
      st.openExecs.get key = none ∧ ((begun line).isSome = true → execKey line ≠ key) :=
    Sessions.get_step_eq_none
  rw [← (eachLine_spec h).sessions, isSome_begun] at hstep
  have hstep' : (eachLine line st).1.openExecs.get key = none ↔
      st.openExecs.get key = none ∧ (isExecBegin line = true → execKey line ≠ key) := hstep
  rw [ne_eq, hstep', not_and_or, Classical.not_imp, not_not]

/-- Something is thrown at a failure of an exec that was begun. -/
theorem forEach_throws_iff (h : ∀ exec ∈ st.sessions.all, exec.Unmade) :
    (forEach eachLine lines st).2 ≠ none ↔
      ∃ before line after, lines = before ++ line :: after ∧
        (isExecFailure line && !isRun line) = true ∧
        (st.openExecs.get (execKey line) ≠ none ∨
          ∃ first ∈ before, isExecBegin first = true ∧ execKey first = execKey line) := by
  induction lines generalizing st with
  | nil => simp [forEach]
  | cons line lines ih =>
    by_cases hthrows : (eachLine line st).2 = none
    · have hunmade : ∀ exec ∈ (eachLine line st).1.sessions.all, exec.Unmade := by
        rw [(eachLine_spec hthrows).sessions]
        show ∀ exec ∈ (Sessions.run execKey begun update st.sessions [line]).all, exec.Unmade
        exact unmade_run h
      rw [forEach_cons_ok hthrows, ih hunmade]
      constructor
      · rintro ⟨before, failed, after, rfl, hfailed, hopen⟩
        refine ⟨line :: before, failed, after, rfl, hfailed, ?_⟩
        rcases hopen with hget | ⟨first, hfirst, hbegin⟩
        · rcases (get_eachLine hthrows).mp hget with hget | hbegin
          · exact Or.inl hget
          · exact Or.inr ⟨line, List.mem_cons_self, hbegin⟩
        · exact Or.inr ⟨first, List.mem_cons_of_mem line hfirst, hbegin⟩
      · rintro ⟨before, failed, after, hlines, hfailed, hopen⟩
        cases before with
        | nil =>
          -- the first line throws nothing
          cases hlines
          rcases hopen with hget | ⟨first, hfirst, -⟩
          · exact absurd hthrows ((eachLine_throws_iff h).mpr ⟨hfailed, hget⟩)
          · cases hfirst
        | cons line' before =>
          cases hlines
          refine ⟨before, failed, after, rfl, hfailed, ?_⟩
          rw [get_eachLine hthrows]
          rcases hopen with hget | ⟨first, hfirst, hbegin⟩
          · exact Or.inl (Or.inl hget)
          · rcases List.mem_cons.mp hfirst with rfl | hfirst
            · exact Or.inl (Or.inr hbegin)
            · exact Or.inr ⟨first, hfirst, hbegin⟩
    · obtain ⟨hfailed, hget⟩ := (eachLine_throws_iff h).mp hthrows
      rw [forEach_cons_error hthrows]
      exact ⟨fun _ => ⟨[], line, lines, rfl, hfailed, Or.inl hget⟩, fun _ => hthrows⟩

/-- Nothing is thrown at all if no line of an exec comes after its begin. -/
theorem forEach_throws_start_iff : (forEach eachLine lines {}).2 ≠ none ↔
    ∃ before line after, lines = before ++ line :: after ∧
      (isExecFailure line && !isRun line) = true ∧
      ∃ first ∈ before, isExecBegin first = true ∧ execKey first = execKey line := by
  rw [forEach_throws_iff (by rintro exec ⟨⟩)]
  have hnone : ∀ key, (({} : State).openExecs.get key ≠ none) ↔ False := by
    intro key
    exact iff_of_false (fun h => h rfl) not_false
  simp only [hnone, false_or]

/-! ## What is lost -/

/-- The last begin line with a key is the one of the open exec. -/
theorem exists_openAt {before : List BackupLogLine} {first : BackupLogLine}
    (hfirst : first ∈ before) (hbegin : isExecBegin first = true)
    (hkey : execKey first = execKey line) : ∃ first, OpenAt before line first := by
  induction before generalizing first with
  | nil => cases hfirst
  | cons other before ih =>
    by_cases hlater : ∃ later ∈ before, isExecBegin later = true ∧ execKey later = execKey line
    · obtain ⟨later, hmem, hbegin', hkey'⟩ := hlater
      obtain ⟨last, earlier, rest, rfl, hopen⟩ := ih hmem hbegin' hkey'
      exact ⟨last, other :: earlier, rest, rfl, hopen⟩
    · have hnone : ∀ later ∈ before, isExecBegin later = true → execKey later ≠ execKey line :=
        fun later hmem hbegin' hkey' => hlater ⟨later, hmem, hbegin', hkey'⟩
      rcases List.mem_cons.mp hfirst with rfl | hfirst
      · exact ⟨first, [], before, rfl, hbegin, hkey, hnone⟩
      · exact absurd hkey (hnone first hfirst hbegin)

theorem OpenAt.begins {before : List BackupLogLine} {first : BackupLogLine}
    (h : OpenAt before line first) :
    first ∈ before ∧ isExecBegin first = true ∧ execKey first = execKey line := by
  obtain ⟨earlier, later, rfl, hbegin, hkey, -⟩ := h
  exact ⟨List.mem_append_right _ List.mem_cons_self, hbegin, hkey⟩

/-- The errors are complete when none of them is a line of a run. -/
theorem errors_eq_iff : (lines.filter savesError).map errorOf =
      (lines.filter fun line => levelIs "error" line && !isExec line).map errorOf ↔
    ∀ line ∈ lines, levelIs "error" line = true → isExec line = false → isRun line = false := by
  have hweaker : ∀ line, savesError line = true →
      (levelIs "error" line && !isExec line) = true := by
    intro line h
    unfold savesError at h
    simp only [Bool.and_eq_true] at h
    exact Bool.and_eq_true_iff.mpr ⟨h.1.2, h.2⟩
  have hlines : (∀ line ∈ lines, (levelIs "error" line && !isExec line) = true →
        savesError line = true) ↔
      ∀ line ∈ lines, levelIs "error" line = true → isExec line = false → isRun line = false := by
    apply forall₂_congr
    intro line _
    unfold savesError isError levelIs
    cases isRun line <;> cases isExec line <;> simp
  rw [← hlines]
  constructor
  · intro hsame
    have hlength := congrArg List.length hsame
    rw [List.length_map, List.length_map] at hlength
    exact (List.length_filter_eq_iff hweaker).mp hlength
  · intro hboth
    rw [(List.filter_eq_filter_iff hweaker).mpr hboth]

/-- What is returned when nothing is thrown. -/
theorem parseBackupLogs_eq_ok {parse : String → BackupLogLine} {text : String}
    {logs : ParsedBackupLogs} (h : parseBackupLogs parse text = .ok logs) :
    (forEach eachLine (logLines parse text) {}).2 = none ∧
      logs.errors = ((logLines parse text).filter savesError).map errorOf ∧
      logs.warnings = ((logLines parse text).filter savesWarning).map warningOf ∧
      ∀ exec ∈ logs.execs, exec.Unmade := by
  unfold parseBackupLogs at h
  cases hrun : forEach eachLine (logLines parse text) {} with
  | mk st e =>
    rw [hrun] at h
    cases e with
    | some e => cases h
    | none =>
      have hruns := forEach_spec (congrArg Prod.snd hrun)
      rw [hrun] at hruns
      cases h
      refine ⟨rfl, hruns.errors, hruns.warnings, ?_⟩
      show ∀ exec ∈ st.sessions.all, exec.Unmade
      rw [hruns.sessions]
      apply unmade_run
      rintro exec ⟨⟩

theorem exists_parseBackupLogs {parse : String → BackupLogLine} {text : String}
    (h : (forEach eachLine (logLines parse text) {}).2 = none) :
    ∃ logs, parseBackupLogs parse text = .ok logs := by
  unfold parseBackupLogs
  cases hrun : forEach eachLine (logLines parse text) {} with
  | mk st e =>
    rw [hrun] at h
    cases h
    exact ⟨_, rfl⟩

/-- Nothing is ever recorded in an exec. -/
theorem recorded_of_unmade (h : exec.Unmade) : exec.recorded = [] := by
  unfold SnapshotHook.recorded
  rw [h.1, h.2]
  rfl

end

/-- **Nothing is lost** exactly when no line comes where it would be. -/
theorem nothingLost_iff (parse : String → BackupLogLine) (text : String) :
    NothingLost (logLines parse text) (parseBackupLogs parse text) ↔
      NoneInTheWay (logLines parse text) := by
  constructor
  · rintro ⟨logs, hlogs, herrors, hwarnings, hexecs⟩
    obtain ⟨hok, herrors', hwarnings', hunmade⟩ := parseBackupLogs_eq_ok hlogs
    constructor
    case exec =>
      intro before line after hlines hbelongs first hfirst hbegin hkey
      unfold belongsToExec at hbelongs
      by_cases hlevel : (levelIs "error" line || levelIs "warning" line) = true
      · obtain ⟨first', hopen⟩ := exists_openAt hfirst hbegin hkey
        have hexec : isExec line = true := (Bool.and_eq_true_iff.mp hbelongs).1
        obtain ⟨exec, hmem, -, e, he, -⟩ :=
          hexecs before line after first' hlines hlevel hexec hopen
        rw [recorded_of_unmade (hunmade exec hmem)] at he
        cases he
      · rw [Bool.eq_false_of_not_eq_true hlevel, Bool.false_or] at hbelongs
        refine forEach_throws_start_iff.mpr
          ⟨before, line, after, hlines, ?_, first, hfirst, hbegin, hkey⟩ hok
        obtain ⟨hexec, hmisspelled⟩ := Bool.and_eq_true_iff.mp hbelongs
        obtain ⟨hrun, hwarning⟩ := Bool.and_eq_true_iff.mp hmisspelled
        unfold isExecFailure
        rw [hexec, hwarning, hrun, Bool.or_true]
        rfl
    case error => exact errors_eq_iff.mp (herrors'.symm.trans herrors)
    case warning => exact hwarnings'.symm.trans hwarnings
  · intro h
    have hok : (forEach eachLine (logLines parse text) {}).2 = none := by
      apply Classical.byContradiction
      intro hthrows
      obtain ⟨before, line, after, hlines, hfailed, first, hfirst, hbegin, hkey⟩ :=
        forEach_throws_start_iff.mp hthrows
      refine h.exec before line after hlines ?_ first hfirst hbegin hkey
      obtain ⟨hfailure, hrun⟩ := Bool.and_eq_true_iff.mp hfailed
      obtain ⟨hexec, hlevel⟩ := Bool.and_eq_true_iff.mp hfailure
      unfold belongsToExec
      rw [hexec, hrun, Bool.true_and, Bool.true_and]
      rcases Bool.or_eq_true_iff.mp hlevel with herror | hwarning
      · have hlevel' : levelIs "error" line = true := herror
        rw [hlevel']
        rfl
      · rw [hwarning, Bool.or_true]
    obtain ⟨logs, hlogs⟩ := exists_parseBackupLogs hok
    obtain ⟨-, herrors, hwarnings, -⟩ := parseBackupLogs_eq_ok hlogs
    refine ⟨logs, hlogs, herrors.trans (errors_eq_iff.mpr h.error), hwarnings.trans h.warning, ?_⟩
    intro before line after first hlines hlevel hexec hopen
    obtain ⟨hfirst, hbegin, hkey⟩ := hopen.begins
    refine absurd hkey (h.exec before line after hlines ?_ first hfirst hbegin)
    unfold belongsToExec
    rw [hexec, hlevel]
    rfl

def parseFailed (s : String) : BackupLogLine :=
  if s = "time=1 msg=\"running exec hook\" hookName=hello" then
    { time := .string "1", msg := .string "running exec hook", hookName := .string "hello" }
  else if s = "time=2 level=error msg=failed hookName=hello error=timeout" then
    { time := .string "2", level := .string "error", msg := .string "failed",
      hookName := .string "hello", error := .string "timeout" }
  else {}

def failedLog : String :=
  "time=1 msg=\"running exec hook\" hookName=hello\n" ++
    "time=2 level=error msg=failed hookName=hello error=timeout"

/-- The error of an exec takes the whole log with it. -/
theorem not_nothingLost : ¬ ∀ parse text,
    NothingLost (logLines parse text) (parseBackupLogs parse text) := by
  intro h
  obtain ⟨logs, hlogs, -⟩ := h parseFailed failedLog
  have hthrows : parseBackupLogs parseFailed failedLog = .error .pushOfUndefined := by
    decide +kernel
  cases hthrows.symm.trans hlogs

end Kotsadm.BackupLogs
