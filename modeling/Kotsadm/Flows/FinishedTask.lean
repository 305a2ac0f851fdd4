import Kotsadm.Flows.Update
import Kotsadm.Lib.GoText
import Kotsadm.Lib.Machine

/-!
# FinishedTask — the scanner goroutine and the deferred function

A write to the pipe of `DownloadUpdate` or `RewriteImages` returns when the scanner has read the
bytes.  The scanner goroutine writes a line into the status of the task when it gets to it; nobody
waits for it, and nobody closes the pipe.
-/

namespace Kotsadm.Flows.FinishedTask

inductive Function where
  | downloadUpdate
  | rewriteImages
  deriving DecidableEq, Repr

def Function.task : Function → String
  | .downloadUpdate => "update-download"
  | .rewriteImages => "image-rewrite"

/-- Where the function is. -/
inductive Main where
  -- `RewriteImages`: before its first statement
  | starting
  -- before the pipe is made
  | body
  -- the scanner goroutine is started
  | piped
  | returned
  deriving DecidableEq, Repr

def Function.start : Function → Main
  | .downloadUpdate => .body
  | .rewriteImages => .starting

/-- Where the scanner goroutine is, with the bytes in its buffer. -/
inductive Scanner where
  | absent
  -- in `Scan`
  | scanning (buffer : GoString)
  -- in `SetTaskStatus`, with the line that `Scan` has found
  | showing (line buffer : GoString)
  -- a line does not fit into the buffer
  | ended
  deriving DecidableEq, Repr

/-- A write of the run to the status of its task. -/
inductive Write where
  | running (message : String)
  | cleared
  | failed (message : String)
  deriving DecidableEq, Repr

def Write.Running : Write → Bool
  | .running _ => true
  | .cleared | .failed _ => false

structure Run where
  function : Function
  server : Server := {}
  main : Main
  scanner : Scanner := .absent
  -- the writes that went through, newest first
  writes : List Write := []

inductive Action where
  -- the function
  | setUpdating (outcome : Except GoError Unit) (now : Timestamp)
  | pipe
  | return (finalError : Option GoError) (outcome : Except GoError Unit) (now : Timestamp)
  -- a write of the pull, or a part of it, that the scanner reads
  | read (chunk : GoString)
  -- the scanner
  | scan
  | tooLong
  | show (outcome : Except GoError Unit) (now : Timestamp)
  -- the goroutine that touches the status
  | touch (outcome : Except GoError Unit) (now : Timestamp)
  -- the other statements of the function, and the rest of kotsadm
  | other (server : Server)

namespace Run

variable (r : Run)

/-- A write to the status that goes through is recorded. -/
def wrote (outcome : Except GoError Unit) (write : Write) : List Write :=
  match outcome with
  | .ok _ => write :: r.writes
  | .error _ => r.writes

/-- The first statement of `RewriteImages`; nothing is deferred yet when it fails. -/
def setUpdating (outcome : Except GoError Unit) (now : Timestamp) : Run :=
  let message := "Updating registry settings"
  let (result, server) := setTaskStatus outcome r.function.task message "running" now r.server
  { r with
    server
    main := if result.isOk then .body else .returned
    writes := r.wrote outcome (.running message) }

/-- The deferred function. -/
def runDeferred (finalError : Option GoError) (outcome : Except GoError Unit) (now : Timestamp) : Run :=
  { r with
    server := updateHandler outcome r.function.task now finalError r.server
    main := .returned
    writes := r.wrote outcome (finalError.elim .cleared fun e => .failed e.text) }

/-- The first line of the buffer, and what is after it. -/
def firstLine (buffer : GoString) : GoString × GoString :=
  let line := buffer.takeWhile (· ≠ 10)
  (GoString.dropCR line, buffer.drop (line.length + 1))

/-- `Scan` returns a line when there is a whole one in the buffer. -/
def scan (buffer : GoString) : Option Run :=
  if 10 ∈ buffer then
    some { r with scanner := .showing (firstLine buffer).1 (firstLine buffer).2 }
  else none

/-- What is read from the pipe goes to the end of the buffer, which holds no whole line then. -/
def read (buffer chunk : GoString) : Option Run :=
  if r.main = .piped ∧ 10 ∉ buffer ∧ buffer.length + chunk.length ≤ GoString.maxScanTokenSize then
    some { r with scanner := .scanning (buffer ++ chunk) }
  else none

/-- The scanner gives up, and with it the goroutine. -/
def tooLong (buffer : GoString) : Option Run :=
  if 10 ∉ buffer ∧ GoString.maxScanTokenSize ≤ buffer.length then
    some { r with scanner := .ended }
  else none

/-- The line is shown; `text` is what the database makes of its bytes. -/
def showLine (text : GoString → String) (line buffer : GoString) (outcome : Except GoError Unit)
    (now : Timestamp) : Run :=
  { r with
    server := reportLines r.function.task now [⟨text line, outcome.isOk⟩] r.server
    scanner := .scanning buffer
    writes := r.wrote outcome (.running (text line)) }

end Run

def step (text : GoString → String) (r : Run) : Action → Option Run
  | .setUpdating outcome now =>
    if r.main = .starting then some (r.setUpdating outcome now) else none
  | .pipe =>
    if r.main = .body then some { r with main := .piped, scanner := .scanning [] } else none
  | .return finalError outcome now =>
    if r.main = .body ∨ r.main = .piped then some (r.runDeferred finalError outcome now) else none
  | .read chunk =>
    match r.scanner with
    | .scanning buffer => r.read buffer chunk
    | .absent | .showing _ _ | .ended => none
  | .scan =>
    match r.scanner with
    | .scanning buffer => r.scan buffer
    | .absent | .showing _ _ | .ended => none
  | .tooLong =>
    match r.scanner with
    | .scanning buffer => r.tooLong buffer
    | .absent | .showing _ _ | .ended => none
  | .show outcome now =>
    match r.scanner with
    | .showing line buffer => some (r.showLine text line buffer outcome now)
    | .absent | .scanning _ | .ended => none
  | .touch outcome now =>
    if r.main = .starting then none
    else some { r with
      server := (updateTaskStatusTimestamp outcome r.function.task now r.server).2 }
  | .other server => some { r with server }

def machine (text : GoString → String) : Machine Run Action := ⟨step text⟩

/-- The database is arbitrary. -/
def Init (r : Run) : Prop :=
  r.main = r.function.start ∧ r.scanner = .absent ∧ r.writes = []

/-- After the task was cleared or has failed, it is not shown as running. -/
def StaysFinished (r : Run) : Prop :=
  r.writes.Pairwise fun later earlier => later.Running = true → earlier.Running = true

/-- The scanner has shown every whole line that it has read. -/
def Scanner.Idle : Scanner → Prop
  | .absent | .ended => True
  | .scanning buffer => 10 ∉ buffer
  | .showing _ _ => False

/-- When the deferred function writes, the scanner has nothing to show. -/
def Guard (r : Run) : Action → Prop
  | .return _ (.ok _) _ => r.scanner.Idle
  | _ => True

/-! ## The invariant -/

/-- Nothing but running writes, or an end after which the scanner has nothing to show. -/
structure Inv (r : Run) : Prop where
  finished : StaysFinished r
  ended : (∀ w ∈ r.writes, w.Running = true) ∨ (r.main = .returned ∧ r.scanner.Idle)

section

variable {text : GoString → String} {r r' : Run}

theorem inv_init (hr : Init r) : Inv r where
  finished := by
    unfold StaysFinished
    rw [hr.2.2]
    exact .nil
  ended := by
    rw [hr.2.2]
    exact .inl nofun

/-- The status of the task is not written, and the scanner is where nothing comes of it. -/
theorem Inv.same (h : Inv r) (hwrites : r'.writes = r.writes)
    (hended : r.main = .returned → r.scanner.Idle → r'.main = .returned ∧ r'.scanner.Idle) :
    Inv r' where
  finished := by
    unfold StaysFinished
    rw [hwrites]
    exact h.finished
  ended := by
    rw [hwrites]
    exact h.ended.imp_right fun ⟨hmain, hidle⟩ => hended hmain hidle

/-- A run that has not ended writes that it is running. -/
theorem Inv.running (h : Inv r) (hrunning : ∀ w ∈ r.writes, w.Running = true)
    {outcome : Except GoError Unit} {message : String}
    (hwrites : r'.writes = r.wrote outcome (.running message)) : Inv r' := by
  unfold Run.wrote at hwrites
  cases outcome with
  | error e => exact ⟨by rw [StaysFinished, hwrites]; exact h.finished, .inl (hwrites ▸ hrunning)⟩
  | ok _ =>
    refine ⟨?_, .inl ?_⟩
    · unfold StaysFinished
      rw [hwrites]
      exact List.pairwise_cons.mpr ⟨fun earlier hmem _ => hrunning earlier hmem, h.finished⟩
    · rw [hwrites]
      exact List.forall_mem_cons.mpr ⟨rfl, hrunning⟩

theorem Inv.runDeferred (h : Inv r) (hrunning : ∀ w ∈ r.writes, w.Running = true)
    (finalError : Option GoError) (outcome : Except GoError Unit) (now : Timestamp)
    (hidle : outcome = .ok () → r.scanner.Idle) : Inv (r.runDeferred finalError outcome now) := by
  cases outcome with
  | error e => exact ⟨h.finished, .inl hrunning⟩
  | ok _ =>
    refine ⟨?_, .inr ⟨rfl, hidle rfl⟩⟩
    have hend : (finalError.elim Write.cleared fun e => .failed e.text).Running = false := by
      cases finalError <;> rfl
    refine List.pairwise_cons.mpr ⟨fun earlier _ htrue => ?_, h.finished⟩
    rw [hend] at htrue
    cases htrue

theorem inv_step {a : Action} (h : Inv r) (hguard : Guard r a)
    (hstep : (machine text).step r a = some r') : Inv r' := by
  have hopen : r.main ≠ .returned → ∀ w ∈ r.writes, w.Running = true :=
    fun hmain => h.ended.resolve_right fun hended => hmain hended.1
  -- a scanner with a line to show belongs to a run that has not ended
  have hbusy : ¬ r.scanner.Idle → ∀ w ∈ r.writes, w.Running = true :=
    fun hscanner => h.ended.resolve_right fun hended => hscanner hended.2
  change step text r a = some r' at hstep
  cases a with
  | setUpdating outcome now =>
    simp only [step] at hstep
    split at hstep <;> cases hstep
    next hmain => exact h.running (hopen (by rw [hmain]; decide)) rfl
  | pipe =>
    simp only [step] at hstep
    split at hstep <;> cases hstep
    next hmain => exact h.same rfl fun hreturned => by rw [hmain] at hreturned; cases hreturned
  | «return» finalError outcome now =>
    simp only [step] at hstep
    split at hstep <;> cases hstep
    next hmain =>
      refine h.runDeferred (hopen ?_) finalError outcome now ?_
      · rcases hmain with hmain | hmain <;> rw [hmain] <;> decide
      · rintro rfl
        exact hguard
  | read chunk =>
    simp only [step] at hstep
    split at hstep
    next buffer hscanner =>
      unfold Run.read at hstep
      split at hstep <;> cases hstep
      next hread =>
        exact h.same rfl fun hreturned => by rw [hread.1] at hreturned; cases hreturned
    all_goals cases hstep
  | scan =>
    simp only [step] at hstep
    split at hstep
    next buffer hscanner =>
      unfold Run.scan at hstep
      split at hstep <;> cases hstep
      next hline =>
        have hnot : ¬ r.scanner.Idle := by
          rw [hscanner]
          exact not_not.mpr hline
        exact ⟨h.finished, .inl (hbusy hnot)⟩
    all_goals cases hstep
  | tooLong =>
    simp only [step] at hstep
    split at hstep
    next buffer hscanner =>
      unfold Run.tooLong at hstep
      split at hstep <;> cases hstep
      exact h.same rfl fun hreturned _ => ⟨hreturned, trivial⟩
    all_goals cases hstep
  | «show» outcome now =>
    simp only [step] at hstep
    split at hstep
    next line buffer hscanner =>
      cases hstep
      have hnot : ¬ r.scanner.Idle := by
        rw [hscanner]
        exact id
      exact h.running (hbusy hnot) rfl
    all_goals cases hstep
  | touch outcome now =>
    simp only [step] at hstep
    split at hstep <;> cases hstep
    exact h.same rfl fun hreturned hidle => ⟨hreturned, hidle⟩
  | other server =>
    cases hstep
    exact h.same rfl fun hreturned hidle => ⟨hreturned, hidle⟩

/-- **A finished task stays finished**, in every run whose deferred function writes when the scanner
has shown every line. -/
theorem staysFinished_everyState (text : GoString → String) :
    (machine text).EveryState Init Guard StaysFinished := by
  intro r hr
  have hinv : (machine text).EveryState Init Guard Inv :=
    Machine.everyState_of_inv (fun _ h => inv_init h) fun _ _ _ => inv_step
  exact (hinv r hr).finished

/-! ## A late line -/

theorem not_staysFinished_show {line buffer : GoString} {now : Timestamp}
    (hended : ∃ w ∈ r.writes, w.Running = false) :
    ¬ StaysFinished (r.showLine text line buffer (.ok ()) now) := by
  intro hfinished
  obtain ⟨w, hmem, hend⟩ := hended
  have hrunning := (List.pairwise_cons.mp hfinished).1 w hmem rfl
  rw [hend] at hrunning
  cases hrunning

/-- The condition is exact: when it is not met, the scanner can still show a line. -/
theorem exists_late {finalError : Option GoError} {now : Timestamp}
    (hstep : (machine text).step r (.return finalError (.ok ()) now) = some r')
    (hlate : ¬ r.scanner.Idle) :
    ∃ actions r'', (machine text).run r' actions = some r'' ∧ ¬ StaysFinished r'' := by
  change step text r (.return finalError (.ok ()) now) = some r' at hstep
  simp only [step] at hstep
  split at hstep <;> cases hstep
  have hended : ∃ w ∈ (r.runDeferred finalError (.ok ()) now).writes, w.Running = false :=
    ⟨_, List.mem_cons_self, by cases finalError <;> rfl⟩
  have hafter : (r.runDeferred finalError (.ok ()) now).scanner = r.scanner := rfl
  cases hscanner : r.scanner with
  | absent | ended =>
    rw [hscanner] at hlate
    exact absurd trivial hlate
  | showing line buffer =>
    rw [hscanner] at hafter
    refine ⟨[.show (.ok ()) now],
      (r.runDeferred finalError (.ok ()) now).showLine text line buffer (.ok ()) now, ?_,
      not_staysFinished_show hended⟩
    show (step text _ (.show (.ok ()) now)).bind some = _
    simp only [step, hafter, Option.bind_some]
  | scanning buffer =>
    rw [hscanner] at hlate hafter
    have hline : 10 ∈ buffer := not_not.mp hlate
    -- the scanner finds the line, and shows it
    let scanned : Run := { r.runDeferred finalError (.ok ()) now with
      scanner := .showing (Run.firstLine buffer).1 (Run.firstLine buffer).2 }
    have hscan : step text (r.runDeferred finalError (.ok ()) now) .scan = some scanned := by
      simp only [step, hafter, Run.scan, if_pos hline, scanned]
    refine ⟨[.scan, .show (.ok ()) now],
      scanned.showLine text (Run.firstLine buffer).1 (Run.firstLine buffer).2 (.ok ()) now, ?_,
      not_staysFinished_show hended⟩
    show ((step text _ .scan).bind fun r' => (step text r' (.show (.ok ()) now)).bind some) = _
    rw [hscan]
    rfl

/-- The last line of the pull is shown when the status has been cleared. -/
theorem not_staysFinished_late :
    ¬ (machine fun line => String.ofList (line.map fun b => Char.ofNat b.toNat)).EveryState Init
      Machine.Free StaysFinished := by
  have hinit : Init { function := .downloadUpdate, main := .body } := ⟨rfl, rfl, rfl⟩
  refine Machine.not_everyState hinit
    [.pipe, .read [112, 117, 108, 108, 10], .return none (.ok ()) 0, .scan, .show (.ok ()) 0] rfl ?_
  intro hfinished
  have hrunning := (List.pairwise_cons.mp hfinished).1 .cleared List.mem_cons_self rfl
  cases hrunning

end

end Kotsadm.Flows.FinishedTask
