import Kotsadm.Lib.Deferred
import Kotsadm.Store.Server

/-!
# Task — Go functions that show their progress in a task status

Five functions share one shape.  They write the status of a task, defer a function that clears it
or sets it to `failed`, and hand a pipe to the pull, whose lines a scanner goroutine writes into
the status.  The goroutine may still hold lines when the function returns; the line it reads last
is written whenever the goroutine is scheduled.
-/

namespace Kotsadm.Flows

/-- The state of such a function: the server, and the lines that the goroutine has read and will
show only after the deferred function. -/
structure TaskRun where
  server : Server
  lateLines : List ReportLine := []

/-- What a pull writes to its report. -/
structure Report where
  lines : List ReportLine := []
  lateLines : List ReportLine := []
  deriving DecidableEq, Repr

def Report.NoneLate (report : Report) : Prop := ∀ line ∈ report.lateLines, line.written = false

namespace TaskRun

/-- A call of a package function. -/
def call {α : Type} (c : Call α) (r : TaskRun) : Except GoError α × TaskRun :=
  let (result, server) := c r.server
  (result, { r with server })

/-- A query. -/
def query {α : Type} (q : Server → Except GoError α) (r : TaskRun) : Except GoError α × TaskRun :=
  (q r.server, r)

/-- A call that takes the pipe as its report writer. -/
def reporting {α : Type} (outcome : Except GoError α) (id : String) (now : Timestamp)
    (report : Report) (r : TaskRun) : Except GoError α × TaskRun :=
  (outcome, { server := reportLines id now report.lines r.server, lateLines := report.lateLines })

end TaskRun

/-- Runs the body of a function, its deferred function and what is left of its goroutine. -/
def runTask {α : Type} (id : String) (now : Timestamp) (handler : Option GoError → Server → Server)
    (body : Body TaskRun α) (s : Server) : Except Abort α × Server :=
  let (result, r) := Body.withDeferred (fun e r => { r with server := handler e r.server }) body
    { server := s }
  (result, reportLines id now r.lateLines r.server)

theorem runTask_iff_wp {α : Type} (id : String) (now : Timestamp)
    (handler : Option GoError → Server → Server) (body : Body TaskRun α) (s : Server)
    (P : Except Abort α → Server → Prop) :
    P (runTask id now handler body s).1 (runTask id now handler body s).2 ↔
      body.wp (fun result f => P result
        (reportLines id now f.state.lateLines (handler f.finalError f.state.server)))
        ⟨{ server := s }, none⟩ := Iff.rfl

/-- A body keeps `I` of the server and the lines that are late. -/
def Keeps {α : Type} (I : Server → Prop) (m : Body TaskRun α) : Prop :=
  ∀ lines, m.Preserves fun r => I r.server ∧ r.lateLines = lines

theorem keeps_call {α : Type} {I : Server → Prop} {context : String} {c : Call α}
    (hc : ∀ s, I s → I (c s).2) : Keeps I (Body.orFinal context (TaskRun.call c)) := by
  intro lines
  apply Body.preserves_orFinal
  intro r hr
  exact ⟨hc r.server hr.1, hr.2⟩

theorem keeps_query {α : Type} {I : Server → Prop} {context : String}
    {q : Server → Except GoError α} : Keeps I (Body.orFinal context (TaskRun.query q)) :=
  fun _ => Body.preserves_orFinal fun _ hr => hr

theorem keeps_outcome {α : Type} {I : Server → Prop} {context : String} {x : Except GoError α} :
    Keeps I (Body.orFinal context (Body.outcome x)) :=
  fun _ => Body.preserves_orFinal fun _ hr => hr

theorem keeps_bind {α β : Type} {I : Server → Prop} {m : Body TaskRun α} {k : α → Body TaskRun β}
    (hm : Keeps I m) (hk : ∀ a, Keeps I (k a)) : Keeps I (m >>= k) :=
  fun lines => Body.preserves_bind (hm lines) fun a => hk a lines

theorem keeps_pure {α : Type} {I : Server → Prop} (a : α) : Keeps I (pure a) :=
  fun _ => Body.preserves_pure a

theorem keeps_fail {α : Type} {I : Server → Prop} (e : GoError) :
    Keeps I (Body.fail e : Body TaskRun α) :=
  fun _ => Body.preserves_fail e

theorem keeps_forEach {α : Type} {I : Server → Prop} {xs : List α} {body : α → Body TaskRun Unit}
    (hbody : ∀ x, Keeps I (body x)) : Keeps I (Body.forEach xs body) :=
  fun lines => Body.preserves_forEach fun x _ => hbody x lines

/-- The late lines may be forgotten. -/
theorem preserves_of_keeps {α : Type} {I : Server → Prop} {m : Body TaskRun α} (h : Keeps I m) :
    m.Preserves fun r => I r.server := by
  intro f hf
  have hend := h f.state.lateLines f ⟨hf, rfl⟩
  generalize m.run f = ending at hend ⊢
  obtain ⟨e | a, f'⟩ := ending <;> exact hend.1

/-- What a call leads to, seen from the state of the function. -/
theorem callLeads_call {α : Type} {I P : Server → Prop} {Q : α → Server → Prop} {c : Call α}
    (hc : Body.CallLeads I P c Q) :
    Body.CallLeads (fun r : TaskRun => I r.server) (fun r => P r.server) (TaskRun.call c)
      fun a r => Q a r.server := by
  intro r hr
  have hend := hc r.server hr
  unfold TaskRun.call
  generalize c r.server = returned at hend ⊢
  obtain ⟨e | a, s⟩ := returned <;> exact hend

/-- What a body leads to in every case holds after the function, if the deferred function and the
report keep it. -/
theorem runTask_leads {α : Type} {I P : Server → Prop} {id : String} {now : Timestamp}
    {handler : Option GoError → Server → Server} {body : Body TaskRun α} {s : Server}
    (hbody : body.Leads (fun r => I r.server) (fun r => P r.server) fun _ r => I r.server)
    (hhandler : ∀ e s, I s → I (handler e s))
    (hlines : ∀ lines s, I s → I (reportLines id now lines s)) (hs : P s) :
    I (runTask id now handler body s).2 := by
  have hend := hbody ⟨{ server := s }, none⟩ hs
  show I (reportLines id now (body.run ⟨{ server := s }, none⟩).2.state.lateLines
    (handler (body.run ⟨{ server := s }, none⟩).2.finalError
      (body.run ⟨{ server := s }, none⟩).2.state.server))
  generalize body.run ⟨{ server := s }, none⟩ = ending at hend ⊢
  apply hlines
  apply hhandler
  obtain ⟨e | a, f⟩ := ending <;> exact hend

/-- The same for the result, when the two ends differ. -/
theorem runTask_result {α : Type} {I P Q : Server → Prop} {id : String} {now : Timestamp}
    {handler : Option GoError → Server → Server} {body : Body TaskRun α} {s : Server}
    (hbody : body.Leads (fun r => I r.server) (fun r => P r.server) fun _ r => Q r.server)
    (hhandler : ∀ e s, Q s → Q (handler e s))
    (hlines : ∀ lines s, Q s → Q (reportLines id now lines s)) (hs : P s) :
    ((runTask id now handler body s).1.isOk ∧ Q (runTask id now handler body s).2) ∨
      ((runTask id now handler body s).1.isOk = false ∧ ∃ s, I s) := by
  have hend := hbody ⟨{ server := s }, none⟩ hs
  show ((body.run ⟨{ server := s }, none⟩).1.isOk ∧
      Q (reportLines id now (body.run ⟨{ server := s }, none⟩).2.state.lateLines
        (handler (body.run ⟨{ server := s }, none⟩).2.finalError
          (body.run ⟨{ server := s }, none⟩).2.state.server))) ∨
    ((body.run ⟨{ server := s }, none⟩).1.isOk = false ∧ ∃ s, I s)
  generalize body.run ⟨{ server := s }, none⟩ = ending at hend ⊢
  obtain ⟨e | a, f⟩ := ending
  · exact .inr ⟨rfl, f.state.server, hend⟩
  · exact .inl ⟨rfl, hlines _ _ (hhandler _ _ hend)⟩

/-- A line shown late hides whatever the deferred function wrote. -/
theorem taskStatus_lateLines {id : String} {now : Timestamp} {lines : List ReportLine} {s : Server}
    (h : ¬ ∀ line ∈ lines, line.written = false) :
    ∃ text, taskStatus (reportLines id now lines s).db id = some ("running", text) := by
  rw [taskStatus_reportLines]
  cases hlast : (lines.filter (·.written)).getLast? with
  | some line => exact ⟨line.text, rfl⟩
  | none =>
    exfalso
    apply h
    intro line hline
    rw [List.getLast?_eq_none_iff, List.filter_eq_nil_iff] at hlast
    simpa using hlast line hline

theorem reportLines_noneWritten {id : String} {now : Timestamp} {lines : List ReportLine}
    {s : Server} (h : ∀ line ∈ lines, line.written = false) : reportLines id now lines s = s := by
  induction lines with
  | nil => rfl
  | cons line lines ih =>
    have hline : line.written = false := h line List.mem_cons_self
    unfold reportLines
    rw [hline]
    exact ih fun other hother => h other (List.mem_cons_of_mem line hother)

theorem taskStatus_noneLate {id : String} {now : Timestamp} {lines : List ReportLine} {s : Server}
    (h : ∀ line ∈ lines, line.written = false) :
    taskStatus (reportLines id now lines s).db id = taskStatus s.db id := by
  rw [reportLines_noneWritten h]

end Kotsadm.Flows
