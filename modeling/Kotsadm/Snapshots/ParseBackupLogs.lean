import Mathlib.Data.List.Induction
import Kotsadm.Lib.Sessions
import Kotsadm.Lib.Throws

/-!
# ParseBackupLogs — the hooks, errors and warnings in the log of a backup

Every line of the log goes through `eachLine`, which opens an exec, writes the output of an open
one, or saves an error or a warning.  Lines of one exec are found by their fields only, so an exec
is closed where the same one begins again.
-/

namespace Kotsadm.BackupLogs

open Sessions

/-- What a field of a parsed line can be. -/
inductive Value where
  | undefined
  | null
  | bool (b : Bool)
  | string (s : String)
deriving DecidableEq

/-- The value in a template literal. -/
def Value.text : Value → String
  | .undefined => "undefined"
  | .null => "null"
  | .bool b => if b then "true" else "false"
  | .string s => s

/-- `!!value` -/
def Value.truthy : Value → Bool
  | .undefined => false
  | .null => false
  | .bool b => b
  | .string s => s ≠ ""

structure BackupLogLine where
  time : Value := .undefined
  level : Value := .undefined
  msg : Value := .undefined
  name : Value := .undefined
  namespace_ : Value := .undefined
  hookName : Value := .undefined
  hookContainer : Value := .undefined
  hookPhase : Value := .undefined
  hookCommand : Value := .undefined
  error : Value := .undefined
  warning : Value := .undefined
deriving DecidableEq

structure SnapshotError where
  title : Value
  message : Value
deriving DecidableEq

/-- Fields that are not set are undefined. -/
structure SnapshotHook where
  namespace_ : Value
  podName : Value
  containerName : Value
  command : Value
  hookName : Value
  phase : Value
  started : Value
  finished : Value := .undefined
  stdout : Option String := none
  stderr : Option String := none
  errors : Option (List SnapshotError) := none
  warnings : Option (List SnapshotError) := none
deriving DecidableEq

structure ParsedBackupLogs where
  execs : List SnapshotHook
  errors : List SnapshotError
  warnings : List SnapshotError
deriving DecidableEq

/-- `Cannot read property 'push' of undefined` -/
inductive TypeError where
  | pushOfUndefined
deriving DecidableEq

def stdoutPrefix : String := "stdout: "

def stderrPrefix : String := "stderr: "

def execKey (line : BackupLogLine) : String :=
  line.namespace_.text ++ "/" ++ line.name.text ++ "/" ++ line.hookContainer.text ++ "/" ++
    line.hookName.text ++ "/" ++ line.hookPhase.text ++ "/" ++ line.hookCommand.text

/-- `_.startsWith`: the text of no other value starts with one of the two prefixes. -/
def startsWith (pre : String) : Value → Bool
  | .string s => pre.toList.isPrefixOf s.toList
  | _ => false

/-- `msg.replace(/^prefix/, "")`, for a message that starts with it. -/
def withoutPrefix (pre : String) (msg : Value) : String :=
  String.ofList (msg.text.toList.drop pre.toList.length)

def isExecBegin (line : BackupLogLine) : Bool := line.msg = .string "running exec hook"

def isExecStdout (line : BackupLogLine) : Bool := startsWith stdoutPrefix line.msg

def isExecStderr (line : BackupLogLine) : Bool := startsWith stderrPrefix line.msg

def isError (line : BackupLogLine) : Bool := line.level = .string "error"

def isWarning (line : BackupLogLine) : Bool := line.level = .string "warninng"

def isExec (line : BackupLogLine) : Bool := line.hookName.truthy

structure State where
  errors : List SnapshotError := []
  warnings : List SnapshotError := []
  execs : List SnapshotHook := []
  openExecs : Dictionary String SnapshotHook := Keyed.empty

/-- The exec of a begin line. -/
def newExec (line : BackupLogLine) : SnapshotHook where
  namespace_ := line.namespace_
  podName := line.name
  containerName := line.hookContainer
  command := line.hookCommand
  hookName := line.hookName
  phase := line.hookPhase
  started := line.time

/-- The function that is called for each line; `open` is one object with the row of `openExecs`. -/
def eachLine (line : BackupLogLine) (st : State) : State × Option TypeError :=
  if isExecBegin line then
    let key := execKey line
    let closed : State :=
      match st.openExecs.get key with
      | some exec =>
        -- close out the existing exec with the same key
        { st with execs := st.execs ++ [exec], openExecs := st.openExecs.remove key }
      | none => st
    ({ closed with openExecs := closed.openExecs.set key (newExec line) }, none)
  else if isExecStdout line then
    match st.openExecs.get (execKey line) with
    | none => (st, none)
    | some _ =>
      ({ st with
          openExecs := st.openExecs.modify (execKey line) fun exec =>
            { exec with
              stdout := some (withoutPrefix stdoutPrefix line.msg)
              finished := line.time } }, none)
  else if isExecStderr line then
    match st.openExecs.get (execKey line) with
    | none => (st, none)
    | some _ =>
      ({ st with
          openExecs := st.openExecs.modify (execKey line) fun exec =>
            { exec with
              stderr := some (withoutPrefix stderrPrefix line.msg)
              finished := line.time } }, none)
  else if isError line && isExec line then
    match st.openExecs.get (execKey line) with
    | none => (st, none)
    | some exec =>
      match exec.errors with
      | none => (st, some .pushOfUndefined)
      | some errors =>
        ({ st with
            openExecs := st.openExecs.modify (execKey line) fun exec =>
              { exec with errors := some (errors ++ [⟨line.msg, line.error⟩]) } }, none)
  else if isWarning line && isExec line then
    match st.openExecs.get (execKey line) with
    | none => (st, none)
    | some exec =>
      match exec.warnings with
      | none => (st, some .pushOfUndefined)
      | some warnings =>
        ({ st with
            openExecs := st.openExecs.modify (execKey line) fun exec =>
              { exec with warnings := some (warnings ++ [⟨line.msg, line.error⟩]) } }, none)
  else if isError line then
    ({ st with errors := st.errors ++ [⟨line.msg, line.error⟩] }, none)
  else if isWarning line then
    ({ st with warnings := st.warnings ++ [⟨line.msg, line.warning⟩] }, none)
  else (st, none)

/-- `s.replace("\\n", "\n")`: the first one only. -/
def unescape : List Char → List Char
  | '\\' :: 'n' :: rest => '\n' :: rest
  | c :: rest => c :: unescape rest
  | [] => []

/-- The lines of the log; `parse` is the one of logfmt. -/
def logLines (parse : String → BackupLogLine) (text : String) : List BackupLogLine :=
  (text.toList.splitOn '\n').map fun s => parse (String.ofList (unescape s))

def parseBackupLogs (parse : String → BackupLogLine) (text : String) :
    Except TypeError ParsedBackupLogs :=
  match forEach eachLine (logLines parse text) {} with
  | (st, none) =>
    .ok { errors := st.errors, warnings := st.warnings, execs := st.execs ++ st.openExecs.values }
  | (_, some e) => .error e

/-! ## The open execs as sessions -/

def begun (line : BackupLogLine) : Option SnapshotHook :=
  if isExecBegin line then some (newExec line) else none

theorem isSome_begun (line : BackupLogLine) : (begun line).isSome = isExecBegin line := by
  unfold begun
  split
  next hbegin => exact hbegin.symm
  next hbegin => exact (Bool.eq_false_of_not_eq_true hbegin).symm

/-- What a line that begins nothing does to the exec that is open. -/
def update (line : BackupLogLine) (exec : SnapshotHook) : SnapshotHook :=
  if isExecStdout line then
    { exec with
      stdout := some (withoutPrefix stdoutPrefix line.msg)
      finished := line.time }
  else if isExecStderr line then
    { exec with
      stderr := some (withoutPrefix stderrPrefix line.msg)
      finished := line.time }
  else if isError line && isExec line then
    { exec with errors := exec.errors.map (· ++ [⟨line.msg, line.error⟩]) }
  else if isWarning line && isExec line then
    { exec with warnings := exec.warnings.map (· ++ [⟨line.msg, line.error⟩]) }
  else exec

def State.sessions (st : State) : Sessions.State String SnapshotHook := ⟨st.execs, st.openExecs⟩

def isOutput (line : BackupLogLine) : Bool := isExecStdout line || isExecStderr line

/-- These lines are not looked at any further. -/
def isRun (line : BackupLogLine) : Bool := isExecBegin line || isOutput line

def savesError (line : BackupLogLine) : Bool := !isRun line && isError line && !isExec line

def savesWarning (line : BackupLogLine) : Bool := !isRun line && isWarning line && !isExec line

def errorOf (line : BackupLogLine) : SnapshotError := ⟨line.msg, line.error⟩

def warningOf (line : BackupLogLine) : SnapshotError := ⟨line.msg, line.warning⟩

/-- An error or a warning of an exec. -/
def isExecFailure (line : BackupLogLine) : Bool :=
  isExec line && (isError line || isWarning line)

section

variable {line : BackupLogLine} {st : State} {lines : List BackupLogLine}

theorem not_warning_of_error (h : isError line = true) : isWarning line = false := by
  have hlevel : line.level = .string "error" := of_decide_eq_true h
  unfold isWarning
  rw [hlevel]
  decide

theorem update_of_unhooked (hstdout : ¬ isExecStdout line = true)
    (hstderr : ¬ isExecStderr line = true) (herror : ¬ (isError line && isExec line) = true)
    (hwarning : ¬ (isWarning line && isExec line) = true) (exec : SnapshotHook) :
    update line exec = exec := by
  unfold update
  rw [if_neg hstdout, if_neg hstderr, if_neg herror, if_neg hwarning]

theorem step_begin (hbegin : isExecBegin line = true) :
    Sessions.step execKey begun update st.sessions line =
      { closed := st.execs ++ (st.openExecs.get (execKey line)).toList
        opened := (st.openExecs.remove (execKey line)).set (execKey line) (newExec line) } := by
  unfold Sessions.step begun
  rw [hbegin]
  rfl

theorem step_other (hbegin : isExecBegin line = false) :
    Sessions.step execKey begun update st.sessions line =
      { closed := st.execs
        opened := st.openExecs.modify (execKey line) (update line) } := by
  unfold Sessions.step begun
  rw [hbegin]
  rfl

/-- A change of the exec that is open. -/
theorem step_modify {exec : SnapshotHook} {f : SnapshotHook → SnapshotHook}
    (hbegin : ¬ isExecBegin line = true) (hget : st.openExecs.get (execKey line) = some exec)
    (hf : f exec = update line exec) :
    State.sessions { st with openExecs := st.openExecs.modify (execKey line) f } =
      Sessions.step execKey begun update st.sessions line := by
  rw [step_other (Bool.eq_false_of_not_eq_true hbegin)]
  apply congrArg (Sessions.State.mk st.execs)
  apply Dictionary.modify_congr
  intro exec' hget'
  cases hget.symm.trans hget'
  exact hf

/-- A line of an exec that is not open. -/
theorem step_dropped (hbegin : ¬ isExecBegin line = true)
    (h : st.openExecs.get (execKey line) = none) :
    st.sessions = Sessions.step execKey begun update st.sessions line := by
  rw [step_other (Bool.eq_false_of_not_eq_true hbegin), Dictionary.modify_eq_self]
  · rfl
  · intro exec hget
    cases hget.symm.trans h

/-- A line that is of no exec. -/
theorem step_unhooked (hbegin : ¬ isExecBegin line = true) (h : ∀ exec, update line exec = exec) :
    st.sessions = Sessions.step execKey begun update st.sessions line := by
  rw [step_other (Bool.eq_false_of_not_eq_true hbegin),
    Dictionary.modify_eq_self fun exec _ => h exec]
  rfl

/-- What a line adds to the two lists, and what it does to the execs. -/
structure Steps (line : BackupLogLine) (st st' : State) : Prop where
  sessions : st'.sessions = Sessions.step execKey begun update st.sessions line
  errors : st'.errors = st.errors ++ if savesError line then [errorOf line] else []
  warnings : st'.warnings = st.warnings ++ if savesWarning line then [warningOf line] else []

/-- A line of an exec is not saved. -/
theorem steps_of_exec {st' : State}
    (hsessions : st'.sessions = Sessions.step execKey begun update st.sessions line)
    (herrors : st'.errors = st.errors) (hwarnings : st'.warnings = st.warnings)
    (h : isRun line = true ∨ isExec line = true) : Steps line st st' := by
  have herror : savesError line = false := by
    unfold savesError
    rcases h with h | h <;> simp [h]
  have hwarning : savesWarning line = false := by
    unfold savesWarning
    rcases h with h | h <;> simp [h]
  constructor
  · exact hsessions
  · rw [herrors, herror]
    exact (List.append_nil _).symm
  · rw [hwarnings, hwarning]
    exact (List.append_nil _).symm

theorem eachLine_spec (h : (eachLine line st).2 = none) : Steps line st (eachLine line st).1 := by
  revert h
  fun_cases eachLine line st <;> intro h
  case case1 hbegin key closed =>
    -- an exec with its key that is still open is closed first
    have hrun : isRun line = true := by simp [isRun, hbegin]
    cases hget : st.openExecs.get (execKey line) with
    | none =>
      have hclosed : closed = st := by simp only [closed, key, hget]
      rw [hclosed]
      refine steps_of_exec ?_ rfl rfl (Or.inl hrun)
      rw [step_begin hbegin, Dictionary.remove_of_get_eq_none hget, hget]
      exact congrArg (Sessions.State.mk · _) (List.append_nil _).symm
    | some exec =>
      have hclosed : closed = { st with
          execs := st.execs ++ [exec]
          openExecs := st.openExecs.remove key } := by simp only [closed, key, hget]
      rw [hclosed]
      refine steps_of_exec ?_ rfl rfl (Or.inl hrun)
      rw [step_begin hbegin, hget]
      rfl
  -- output is dropped without an open exec
  case case2 hbegin hstdout hget =>
    have hrun : isRun line = true := by simp [isRun, isOutput, hstdout]
    exact steps_of_exec (step_dropped hbegin hget) rfl rfl (Or.inl hrun)
  case case3 hbegin hstdout exec hget =>
    have hrun : isRun line = true := by simp [isRun, isOutput, hstdout]
    refine steps_of_exec ?_ rfl rfl (Or.inl hrun)
    refine step_modify hbegin hget ?_
    unfold update
    rw [if_pos hstdout]
  case case4 hbegin hstdout hstderr hget =>
    have hrun : isRun line = true := by simp [isRun, isOutput, hstderr]
    exact steps_of_exec (step_dropped hbegin hget) rfl rfl (Or.inl hrun)
  case case5 hbegin hstdout hstderr exec hget =>
    have hrun : isRun line = true := by simp [isRun, isOutput, hstderr]
    refine steps_of_exec ?_ rfl rfl (Or.inl hrun)
    refine step_modify hbegin hget ?_
    unfold update
    rw [if_neg hstdout, if_pos hstderr]
  -- an error or a warning of an exec: without a list it throws
  case case6 hbegin hstdout hstderr herror hget =>
    have hexec := (Bool.and_eq_true_iff.mp herror).2
    exact steps_of_exec (step_dropped hbegin hget) rfl rfl (Or.inr hexec)
  case case7 => cases h
  case case8 hbegin hstdout hstderr herror exec hget errors herrors =>
    have hexec := (Bool.and_eq_true_iff.mp herror).2
    refine steps_of_exec ?_ rfl rfl (Or.inr hexec)
    refine step_modify hbegin hget ?_
    unfold update
    rw [if_neg hstdout, if_neg hstderr, if_pos herror, herrors]
    rfl
  case case9 hbegin hstdout hstderr herror hwarning hget =>
    have hexec := (Bool.and_eq_true_iff.mp hwarning).2
    exact steps_of_exec (step_dropped hbegin hget) rfl rfl (Or.inr hexec)
  case case10 => cases h
  case case11 hbegin hstdout hstderr herror hwarning exec hget warnings hwarnings =>
    have hexec := (Bool.and_eq_true_iff.mp hwarning).2
    refine steps_of_exec ?_ rfl rfl (Or.inr hexec)
    refine step_modify hbegin hget ?_
    unfold update
    rw [if_neg hstdout, if_neg hstderr, if_neg herror, if_pos hwarning, hwarnings]
    rfl
  -- the other lines do not touch an exec
  case case12 hbegin hstdout hstderr herror hwarning hlevel =>
    have hnot : isWarning line = false := not_warning_of_error hlevel
    have hexec : isExec line = false := by simpa [hlevel] using herror
    constructor
    · exact step_unhooked hbegin (update_of_unhooked hstdout hstderr herror hwarning)
    · simp [savesError, isRun, isOutput, hbegin, hstdout, hstderr, hlevel, hexec, errorOf]
    · simp [savesWarning, hnot]
  case case13 hbegin hstdout hstderr herror hwarning hlevel hlevel' =>
    have hexec : isExec line = false := by simpa [hlevel'] using hwarning
    constructor
    · exact step_unhooked hbegin (update_of_unhooked hstdout hstderr herror hwarning)
    · simp [savesError, hlevel]
    · simp [savesWarning, isRun, isOutput, hbegin, hstdout, hstderr, hlevel', hexec, warningOf]
  case case14 hbegin hstdout hstderr herror hwarning hlevel hlevel' =>
    constructor
    · exact step_unhooked hbegin (update_of_unhooked hstdout hstderr herror hwarning)
    · simp [savesError, hlevel]
    · simp [savesWarning, hlevel']

/-- A log on which nothing is thrown. -/
structure Runs (lines : List BackupLogLine) (st st' : State) : Prop where
  sessions : st'.sessions = Sessions.run execKey begun update st.sessions lines
  errors : st'.errors = st.errors ++ (lines.filter savesError).map errorOf
  warnings : st'.warnings = st.warnings ++ (lines.filter savesWarning).map warningOf

theorem forEach_spec (h : (forEach eachLine lines st).2 = none) :
    Runs lines st (forEach eachLine lines st).1 := by
  induction lines generalizing st with
  | nil => exact ⟨rfl, (List.append_nil _).symm, (List.append_nil _).symm⟩
  | cons line lines ih =>
    cases hline : (eachLine line st).2 with
    | some e =>
      have hthrows : (eachLine line st).2 ≠ none := by
        rw [hline]
        exact Option.some_ne_none e
      rw [forEach_cons_error hthrows] at h
      exact absurd h hthrows
    | none =>
      have hstep := eachLine_spec hline
      rw [forEach_cons_ok hline] at h ⊢
      have hrest := ih h
      constructor
      · rw [hrest.sessions, hstep.sessions]
        rfl
      · rw [hrest.errors, hstep.errors, List.filter_cons, List.append_assoc]
        split <;> rfl
      · rw [hrest.warnings, hstep.warnings, List.filter_cons, List.append_assoc]
        split <;> rfl

end

/-! ## One exec for each begin line -/

/-- The lines of the exec that begins at `line`: those with its key, before it begins again. -/
def linesOf (line : BackupLogLine) (after : List BackupLogLine) : List BackupLogLine :=
  List.filter (fun other => execKey other = execKey line)
    (after.takeWhile fun other => !(isExecBegin other && decide (execKey other = execKey line)))

/-- The exec that begins at `line`, with its last output. -/
def execOf (line : BackupLogLine) (after : List BackupLogLine) : SnapshotHook :=
  { newExec line with
    stdout := ((linesOf line after).filter isExecStdout).getLast?.map
      fun last => withoutPrefix stdoutPrefix last.msg
    stderr := ((linesOf line after).filter isExecStderr).getLast?.map
      fun last => withoutPrefix stderrPrefix last.msg
    finished := (((linesOf line after).filter isOutput).getLast?.map
      fun last => last.time).getD .undefined }

def execsOf : List BackupLogLine → List SnapshotHook
  | [] => []
  | line :: after =>
    if isExecBegin line then execOf line after :: execsOf after else execsOf after

section

variable {line : BackupLogLine} {lines : List BackupLogLine}

theorem not_stderr_of_stdout (h : isExecStdout line = true) : isExecStderr line = false := by
  apply Bool.eq_false_of_not_eq_true
  intro hstderr
  unfold isExecStdout startsWith at h
  unfold isExecStderr startsWith at hstderr
  split at h
  next s hmsg =>
    rw [hmsg] at hstderr
    have hsame := List.prefix_of_prefix_length_le (List.isPrefixOf_iff_prefix.mp h)
      (List.isPrefixOf_iff_prefix.mp hstderr) (by decide)
    revert hsame
    decide
  next => cases h

/-- Lines that are no failures leave only output in an exec. -/
theorem foldl_update (h : ∀ other ∈ lines, isExecFailure other = false) :
    lines.foldl (fun exec other => update other exec) (newExec line) =
      { newExec line with
        stdout := (lines.filter isExecStdout).getLast?.map
          fun last => withoutPrefix stdoutPrefix last.msg
        stderr := (lines.filter isExecStderr).getLast?.map
          fun last => withoutPrefix stderrPrefix last.msg
        finished := ((lines.filter isOutput).getLast?.map fun last => last.time).getD
          .undefined } := by
  induction lines using List.reverseRecOn with
  | nil => rfl
  | append_singleton lines last ih =>
    rw [List.foldl_append, ih fun other hother => h other (List.mem_append_left _ hother)]
    simp only [List.filter_append, List.foldl_cons, List.foldl_nil]
    by_cases hstdout : isExecStdout last = true
    · have hstderr := not_stderr_of_stdout hstdout
      simp [update, isOutput, hstdout, hstderr]
    · by_cases hstderr : isExecStderr last = true
      · simp [update, isOutput, hstdout, hstderr]
      · have hfailure := h last (List.mem_append_right _ List.mem_cons_self)
        simp only [isExecFailure, Bool.and_eq_false_iff, Bool.or_eq_false_iff] at hfailure
        rw [update_of_unhooked hstdout hstderr]
        · simp [isOutput, hstdout, hstderr]
        · rcases hfailure with hexec | hlevel
          · simp [hexec]
          · simp [hlevel.1]
        · rcases hfailure with hexec | hlevel
          · simp [hexec]
          · simp [hlevel.2]

theorem sessions_eq_execsOf (h : ∀ other ∈ lines, isExecFailure other = false) :
    Sessions.sessions execKey begun update lines = execsOf lines := by
  induction lines with
  | nil => rfl
  | cons line after ih =>
    have hafter := fun other hother => h other (List.mem_cons_of_mem line hother)
    unfold Sessions.sessions execsOf
    by_cases hbegin : isExecBegin line = true
    · have hbegun : begun line = some (newExec line) := if_pos hbegin
      rw [if_pos hbegin, hbegun]
      dsimp only
      rw [ih hafter, Sessions.session_eq_foldl]
      simp only [isSome_begun]
      congr 1
      apply foldl_update
      intro other hother
      exact hafter other ((List.takeWhile_prefix _).subset (List.mem_of_mem_filter hother))
    · have hbegun : begun line = none := if_neg hbegin
      rw [if_neg hbegin, hbegun]
      exact ih hafter

/-- A line that is no failure throws nothing. -/
theorem eachLine_ok {st : State} (h : isExecFailure line = false) :
    (eachLine line st).2 = none := by
  unfold isExecFailure at h
  fun_cases eachLine line st
  case case7 herror _ _ _ =>
    obtain ⟨hlevel, hexec⟩ := Bool.and_eq_true_iff.mp herror
    rw [hexec, hlevel] at h
    cases h
  case case10 hwarning _ _ _ =>
    obtain ⟨hlevel, hexec⟩ := Bool.and_eq_true_iff.mp hwarning
    rw [hexec, hlevel, Bool.or_true] at h
    cases h
  all_goals rfl

theorem forEach_ok {st : State} (h : ∀ other ∈ lines, isExecFailure other = false) :
    (forEach eachLine lines st).2 = none := by
  induction lines generalizing st with
  | nil => rfl
  | cons line lines ih =>
    rw [forEach_cons_ok (eachLine_ok (h line List.mem_cons_self))]
    exact ih fun other hother => h other (List.mem_cons_of_mem line hother)

end

/-- **One exec for each begin line**, with the output of its own lines. -/
theorem execs_of_beginLines (parse : String → BackupLogLine) (text : String)
    (h : ∀ line ∈ logLines parse text, isExecFailure line = false) :
    ∃ logs, parseBackupLogs parse text = .ok logs ∧
      logs.execs.Perm (execsOf (logLines parse text)) := by
  have hok : (forEach eachLine (logLines parse text) {}).2 = none := forEach_ok h
  have hruns := forEach_spec hok
  have hperm : (Sessions.run execKey begun update (State.sessions {})
      (logLines parse text)).all.Perm (_ ++ Sessions.sessions execKey begun update _) :=
    Sessions.all_run (State.sessions {}) (logLines parse text)
  rw [← hruns.sessions, sessions_eq_execsOf h] at hperm
  unfold parseBackupLogs
  cases hrun : forEach eachLine (logLines parse text) {} with
  | mk st e =>
    rw [hrun] at hok hperm
    cases hok
    exact ⟨_, rfl, hperm⟩

/-- What the parser makes of a log with one exec. -/
def parseHello (s : String) : BackupLogLine :=
  if s = "time=1 msg=\"running exec hook\" hookName=hello" then
    { time := .string "1", msg := .string "running exec hook", hookName := .string "hello" }
  else if s = "time=2 msg=\"stdout: hello\" hookName=hello" then
    { time := .string "2", msg := .string "stdout: hello", hookName := .string "hello" }
  else {}

def helloLog : String :=
  "time=1 msg=\"running exec hook\" hookName=hello\n" ++
    "time=2 msg=\"stdout: hello\" hookName=hello"

theorem execs_of_helloLog : ∃ logs, parseBackupLogs parseHello helloLog = .ok logs ∧
    logs.execs.Perm (execsOf (logLines parseHello helloLog)) :=
  execs_of_beginLines parseHello helloLog (by decide +kernel)

end Kotsadm.BackupLogs
