import Kotsadm.Flows.FinishedTask
import Kotsadm.Flows.Request
import Kotsadm.Lib.Processes

/-!
# LongRunning — requests that start an image rewrite or a chain of update downloads

`UpdateAppRegistry` and `AppUpdateCheck` read the status of their task first, and do their work in
a goroutine that they start last.  Any number of requests run at the same time; each statement is
a step, and what other parts of kotsadm do to the database is a step of its own.
-/

namespace Kotsadm.Flows.LongRunning

open Version
open FinishedTask (Function Main)

/-- What a statement of a request gets from outside. -/
structure StatementEnv where
  scan : Except GoError Unit := .ok ()
  outcome : Except GoError Unit := .ok ()
  cipher : Except GoError Unit := .ok ()
  passwordEnc : String := ""
  /-- The cursors of the updates. -/
  getUpdates : Except GoError (List String) := .ok []
  now : Timestamp := 0

/-! ## UpdateAppRegistry -/

structure RegistryRequest where
  appSlug : String
  hostname : String
  username : String
  registryNamespace : String
  deriving DecidableEq, Repr

/-- The statement that a request to `UpdateAppRegistry` is before. -/
inductive RegistryPhase where
  | getTaskStatus
  | clearTaskStatus
  | getFromSlug
  | getRegistrySettings (a : App)
  -- nothing has to be pushed
  | updateRegistry (a : App)
  -- the goroutine
  | goroutine (a : App)
  | rewriteImages (a : App) (run : Nat)
  | done
  deriving DecidableEq, Repr

/-- Hostname and namespace have not changed. -/
def RegistryRequest.SamePlace (request : RegistryRequest) : Option RegistrySettings → Bool
  | some settings =>
    settings.hostname = request.hostname && settings.registryNamespace = request.registryNamespace
  | none => false

def RegistryRequest.next (request : RegistryRequest) (env : StatementEnv) (s : Server) :
    RegistryPhase → Option (RegistryPhase × Server)
  | .getTaskStatus =>
    match getTaskStatus env.outcome s.db "image-rewrite" env.now with
    | .error _ => some (.done, s)
    | .ok status => some (if status = "running" then .done else .clearTaskStatus, s)
  | .clearTaskStatus =>
    let (result, s) := clearTaskStatus env.outcome "image-rewrite" s
    some (if result.isOk then .getFromSlug else .done, s)
  | .getFromSlug =>
    match App.getFromSlug env.scan env.outcome s.db request.appSlug with
    | .error _ => some (.done, s)
    | .ok a => some (.getRegistrySettings a, s)
  | .getRegistrySettings a =>
    match getRegistrySettingsForApp env.outcome s.db a.id with
    | .error _ => some (.done, s)
    | .ok settings => some (if request.SamePlace settings then .updateRegistry a else .goroutine a, s)
  | .updateRegistry a =>
    let settings : RegistrySettings :=
      { hostname := request.hostname
        username := request.username
        passwordEnc := env.passwordEnc
        registryNamespace := request.registryNamespace }
    some (.done, (updateRegistry env.cipher env.outcome a.id settings s).2)
  | .goroutine _ | .rewriteImages _ _ | .done => none

/-! ## AppUpdateCheck -/

/-- The statement that a request to `AppUpdateCheck` is before. -/
inductive CheckPhase where
  | getFromSlug
  | getTaskStatus (a : App)
  | clearTaskStatus (a : App)
  | sync (a : App)
  | get (a : App)
  | getAppVersionArchive (a : App)
  | loadKotsKinds (a : App)
  | getUpdates (a : App)
  | lastUpdateAtTime (a : App) (updates : List String)
  -- the goroutine, with the updates that it has not downloaded
  | goroutine (a : App) (updates : List String)
  | downloadUpdate (a : App) (updates : List String) (run : Nat)
  | done
  deriving DecidableEq, Repr

def nextCheck (appSlug : String) (env : StatementEnv) (s : Server) :
    CheckPhase → Option (CheckPhase × Server)
  | .getFromSlug =>
    match App.getFromSlug env.scan env.outcome s.db appSlug with
    | .error _ => some (.done, s)
    | .ok a => some (.getTaskStatus a, s)
  | .getTaskStatus a =>
    match getTaskStatus env.outcome s.db "update-download" env.now with
    | .error _ => some (.done, s)
    | .ok status => some (if status = "running" then .done else .clearTaskStatus a, s)
  | .clearTaskStatus a =>
    let (result, s) := clearTaskStatus env.outcome "update-download" s
    some (if result.isOk then .sync a else .done, s)
  | .get a =>
    match App.get env.outcome s.db a.id with
    | .error _ => some (.done, s)
    | .ok reloaded => some (.getAppVersionArchive reloaded, s)
  | .getAppVersionArchive a =>
    match getAppVersionArchive env.outcome s.archives a.id a.currentSequence with
    | .error _ => some (.done, s)
    | .ok _ => some (.loadKotsKinds a, s)
  | .loadKotsKinds a => some (if env.outcome.isOk then .getUpdates a else .done, s)
  | .getUpdates a =>
    match env.getUpdates with
    | .error _ => some (.done, s)
    | .ok updates => some (.lastUpdateAtTime a updates, s)
  -- the column that it writes is read by nothing here
  | .lastUpdateAtTime a updates =>
    some (if env.outcome.isOk && updates ≠ [] then .goroutine a updates else .done, s)
  | .sync _ | .goroutine _ _ | .downloadUpdate _ _ _ | .done => none

/-- The license sync between the check and the download. -/
def syncCheck (env : SyncEnv) (s : Server) : CheckPhase → Option (CheckPhase × Server)
  | .sync a =>
    let (result, s) := runRequest (sync env a "") s
    some (if result.isOk then .get a else .done, s)
  | _ => none

/-! ## The system -/

inductive Request where
  | updateAppRegistry (request : RegistryRequest) (phase : RegistryPhase)
  | appUpdateCheck (appSlug : String) (phase : CheckPhase)
  deriving DecidableEq, Repr

namespace Request

/-- What the request does in its goroutine. -/
def function : Request → Function
  | updateAppRegistry _ _ => .rewriteImages
  | appUpdateCheck _ _ => .downloadUpdate

def next (env : StatementEnv) (s : Server) : Request → Option (Request × Server)
  | updateAppRegistry request phase =>
    (request.next env s phase).map fun (phase, s) => (updateAppRegistry request phase, s)
  | appUpdateCheck appSlug phase =>
    (nextCheck appSlug env s phase).map fun (phase, s) => (appUpdateCheck appSlug phase, s)

def sync (env : SyncEnv) (s : Server) : Request → Option (Request × Server)
  | updateAppRegistry _ _ => none
  | appUpdateCheck appSlug phase =>
    (syncCheck env s phase).map fun (phase, s) => (appUpdateCheck appSlug phase, s)

/-- The goroutine calls `RewriteImages`, or `DownloadUpdate` with the next update; its call gets the
number `run`. -/
def call (run : Nat) : Request → Option Request
  | updateAppRegistry request (.goroutine a) => some (updateAppRegistry request (.rewriteImages a run))
  | appUpdateCheck appSlug (.goroutine a (_ :: updates)) =>
    some (appUpdateCheck appSlug (.downloadUpdate a updates run))
  | _ => none

/-- The call that the goroutine waits for. -/
def run : Request → Option Nat
  | updateAppRegistry _ (.rewriteImages _ run) | appUpdateCheck _ (.downloadUpdate _ _ run) =>
    some run
  | _ => none

/-- The call has returned; an error of `DownloadUpdate` is logged. -/
def returned (outcome : Except GoError Unit) : Request → Option Request
  | updateAppRegistry request (.rewriteImages a _) =>
    some (updateAppRegistry request (if outcome.isOk then .updateRegistry a else .done))
  | appUpdateCheck appSlug (.downloadUpdate a updates _) =>
    some (appUpdateCheck appSlug (.goroutine a updates))
  | _ => none

/-- Every update was downloaded. -/
def finish : Request → Option Request
  | appUpdateCheck appSlug (.goroutine _ []) => some (appUpdateCheck appSlug .done)
  | _ => none

/-- The goroutine of the request has started and its work has not ended. -/
def Working : Request → Bool
  | updateAppRegistry _ (.goroutine _) | updateAppRegistry _ (.rewriteImages _ _) => true
  | appUpdateCheck _ (.goroutine _ _) | appUpdateCheck _ (.downloadUpdate _ _ _) => true
  | _ => false

/-- The request is before its check of the task status. -/
def Checking : Request → Bool
  | updateAppRegistry _ .getTaskStatus | appUpdateCheck _ (.getTaskStatus _) => true
  | _ => false

/-- The request has passed its check, and its work may still start or has not ended. -/
def Active : Request → Bool
  | updateAppRegistry _ phase =>
    match phase with
    | .getTaskStatus | .updateRegistry _ | .done => false
    | .clearTaskStatus | .getFromSlug | .getRegistrySettings _ | .goroutine _
    | .rewriteImages _ _ => true
  | appUpdateCheck _ phase =>
    match phase with
    | .getFromSlug | .getTaskStatus _ | .done => false
    | .lastUpdateAtTime _ updates => updates ≠ []
    | _ => true

end Request

structure System where
  server : Server
  requests : List Request := []
  -- the calls of `RewriteImages` and `DownloadUpdate`, oldest first
  runs : List FinishedTask.Run := []

inductive Action where
  | updateAppRegistry (request : RegistryRequest)
  | appUpdateCheck (appSlug : String)
  -- of the request with this index
  | next (i : Nat) (env : StatementEnv)
  | sync (i : Nat) (env : SyncEnv)
  | call (i : Nat)
  | returned (i : Nat) (outcome : Except GoError Unit)
  | finish (i : Nat)
  -- a step of the call with this index
  | work (k : Nat) (action : FinishedTask.Action)
  | other (server : Server)

namespace System

variable (s : System)

/-- A request takes a step; a request that is not there takes none. -/
def update (i : Nat) (step : Request → Option (Request × Server)) : Option System :=
  s.requests[i]?.bind fun r =>
    (step r).map fun (r', server) => { s with server, requests := s.requests.set i r' }

def call (i : Nat) : Option System :=
  s.requests[i]?.bind fun r =>
    (r.call s.runs.length).map fun r' =>
      { s with
        requests := s.requests.set i r'
        runs := s.runs ++ [{ function := r.function, main := r.function.start }] }

/-- The call that the goroutine of the request waits for has returned. -/
def returned (i : Nat) (outcome : Except GoError Unit) : Option System :=
  s.requests[i]?.bind fun r =>
    r.run.bind fun k =>
      s.runs[k]?.bind fun run =>
        if run.main = .returned then
          (r.returned outcome).map fun r' => { s with requests := s.requests.set i r' }
        else none

def work (text : GoString → String) (k : Nat) (action : FinishedTask.Action) : Option System :=
  s.runs[k]?.bind fun run =>
    (FinishedTask.step text { run with server := s.server } action).map fun run' =>
      { s with server := run'.server, runs := s.runs.set k run' }

end System

def step (text : GoString → String) (s : System) : Action → Option System
  | .updateAppRegistry request =>
    some { s with requests := s.requests ++ [.updateAppRegistry request .getTaskStatus] }
  | .appUpdateCheck appSlug =>
    some { s with requests := s.requests ++ [.appUpdateCheck appSlug .getFromSlug] }
  | .next i env => s.update i (Request.next env s.server)
  | .sync i env => s.update i (Request.sync env s.server)
  | .call i => s.call i
  | .returned i outcome => s.returned i outcome
  | .finish i => s.update i fun r => r.finish.map fun r' => (r', s.server)
  | .work k action => s.work text k action
  | .other server => some { s with server }

def machine (text : GoString → String) : Machine System Action := ⟨step text⟩

/-- The database is arbitrary; no request was made yet. -/
def Init (s : System) : Prop := s.requests = [] ∧ s.runs = []

/-- At most one goroutine of each kind is at work, and at most one call of each function has not
returned. -/
structure Exclusive (s : System) : Prop where
  working : ∀ (i j : Nat) (p q : Request), s.requests[i]? = some p → s.requests[j]? = some q → p.Working = true →
    q.Working = true → p.function = q.function → i = j
  running : ∀ (k l : Nat) (p q : FinishedTask.Run), s.runs[k]? = some p → s.runs[l]? = some q → p.main ≠ .returned →
    q.main ≠ .returned → p.function = q.function → k = l

/-- Another request has passed the check that `r` makes. -/
def Contended (s : System) (i : Nat) (r : Request) : Prop :=
  ∃ j q, j ≠ i ∧ s.requests[j]? = some q ∧ q.Active = true ∧ q.function = r.function

/-- While another request is past the check, the status says that the task is running. -/
def Guard (s : System) : Action → Prop
  | .next i env =>
    ∀ r, s.requests[i]? = some r → r.Checking = true → env.outcome = .ok () → Contended s i r →
      getTaskStatus (.ok ()) s.server.db r.function.task env.now = .ok "running"
  | _ => True

/-! ## What a step does to its request -/

namespace Request

/-- The request is of the same kind, and does not become active by the step. -/
structure Moves (r r' : Request) : Prop where
  function : r'.function = r.function
  active : r'.Active = true → r.Active = true

/-- The check has not found the task running. -/
theorem not_running_of_check {env : StatementEnv} {db : Database} {id status : String}
    (h : getTaskStatus env.outcome db id env.now = .ok status) (hstatus : status ≠ "running") :
    env.outcome = .ok () ∧ getTaskStatus (.ok ()) db id env.now ≠ .ok "running" := by
  cases houtcome : env.outcome with
  | error e =>
    rw [houtcome] at h
    cases h
  | ok _ =>
    rw [houtcome] at h
    refine ⟨rfl, fun hrunning => hstatus ?_⟩
    have heq : (Except.ok status : Except GoError String) = .ok "running" := h.symm.trans hrunning
    exact Except.ok.inj heq

/-- The request is at its check, which does not find its task running. -/
def PassesCheck (r : Request) (env : StatementEnv) (db : Database) : Prop :=
  r.Checking = true ∧ env.outcome = .ok () ∧
    getTaskStatus (.ok ()) db r.function.task env.now ≠ .ok "running"

theorem next_updateAppRegistry {request : RegistryRequest} {phase : RegistryPhase} {r' : Request}
    {env : StatementEnv} {s s' : Server}
    (h : (updateAppRegistry request phase).next env s = some (r', s')) (hactive : r'.Active = true) :
    (updateAppRegistry request phase).Active = true ∨
      (updateAppRegistry request phase).PassesCheck env s.db := by
  cases phase with
  | getTaskStatus =>
    right
    simp only [next, RegistryRequest.next] at h
    split at h
    next =>
      cases h
      cases hactive
    next status hcheck =>
      split at h <;> cases h
      next => cases hactive
      next hstatus => exact ⟨rfl, not_running_of_check hcheck hstatus⟩
  | updateRegistry a =>
    cases h
    cases hactive
  | done => cases h
  | clearTaskStatus | getFromSlug | getRegistrySettings a | goroutine a | rewriteImages a run =>
    exact .inl rfl

theorem next_appUpdateCheck {appSlug : String} {phase : CheckPhase} {r' : Request}
    {env : StatementEnv} {s s' : Server}
    (h : (appUpdateCheck appSlug phase).next env s = some (r', s')) (hactive : r'.Active = true) :
    (appUpdateCheck appSlug phase).Active = true ∨
      (appUpdateCheck appSlug phase).PassesCheck env s.db := by
  cases phase with
  | getFromSlug =>
    simp only [next, nextCheck] at h
    split at h <;> cases h <;> cases hactive
  | getTaskStatus a =>
    right
    simp only [next, nextCheck] at h
    split at h
    next =>
      cases h
      cases hactive
    next status hcheck =>
      split at h <;> cases h
      next => cases hactive
      next hstatus => exact ⟨rfl, not_running_of_check hcheck hstatus⟩
  | lastUpdateAtTime a updates =>
    simp only [next, nextCheck, Option.map_some] at h
    split at h <;> cases h
    next hupdates =>
      rw [Bool.and_eq_true] at hupdates
      exact .inl hupdates.2
    next => cases hactive
  | done => cases h
  | _ => exact .inl rfl

/-- A request becomes active by its check only. -/
theorem next_spec {r r' : Request} {env : StatementEnv} {s s' : Server}
    (h : r.next env s = some (r', s')) :
    r'.function = r.function ∧ r.run = none ∧
      (r'.Active = true → r.Active = true ∨ r.PassesCheck env s.db) := by
  cases r with
  | updateAppRegistry request phase =>
    refine ⟨?_, ?_, next_updateAppRegistry h⟩
    · obtain ⟨_, _, heq⟩ := Option.map_eq_some_iff.mp h
      cases heq
      rfl
    · cases phase with
      | rewriteImages a run => cases h
      | _ => rfl
  | appUpdateCheck appSlug phase =>
    refine ⟨?_, ?_, next_appUpdateCheck h⟩
    · obtain ⟨_, _, heq⟩ := Option.map_eq_some_iff.mp h
      cases heq
      rfl
    · cases phase with
      | downloadUpdate a updates run => cases h
      | _ => rfl

theorem sync_spec {r r' : Request} {env : SyncEnv} {s s' : Server}
    (h : r.sync env s = some (r', s')) : Moves r r' ∧ r.run = none := by
  cases r with
  | updateAppRegistry request phase => cases h
  | appUpdateCheck appSlug phase =>
    cases phase with
    | sync a =>
      simp only [sync, syncCheck, Option.map_some] at h
      cases h
      exact ⟨⟨rfl, fun _ => rfl⟩, rfl⟩
    | _ => cases h

theorem call_spec {r r' : Request} {run : Nat} (h : r.call run = some r') :
    Moves r r' ∧ r.run = none ∧ r'.run = some run := by
  unfold call at h
  split at h <;> cases h
  all_goals exact ⟨⟨rfl, fun _ => rfl⟩, rfl, rfl⟩

theorem returned_spec {r r' : Request} {outcome : Except GoError Unit}
    (h : r.returned outcome = some r') : Moves r r' := by
  unfold returned at h
  split at h <;> cases h
  all_goals exact ⟨rfl, fun _ => rfl⟩

theorem finish_spec {r r' : Request} (h : r.finish = some r') : Moves r r' ∧ r.run = none := by
  unfold finish at h
  split at h <;> cases h
  exact ⟨⟨rfl, fun hactive => by cases hactive⟩, rfl⟩

/-- A request that finds its task not running is active. -/
theorem active_of_check {r r' : Request} {env : StatementEnv} {s s' : Server}
    (hchecking : r.Checking = true) (houtcome : env.outcome = .ok ())
    (hstatus : getTaskStatus (.ok ()) s.db r.function.task env.now ≠ .ok "running")
    (h : r.next env s = some (r', s')) : r'.Active = true := by
  unfold Checking at hchecking
  split at hchecking
  next request =>
    simp only [next, RegistryRequest.next, houtcome] at h
    split at h
    next hcheck => cases hcheck
    next status hcheck =>
      rw [if_neg fun hrunning => hstatus (by rw [← hrunning]; exact hcheck)] at h
      cases h
      rfl
  next appSlug a =>
    simp only [next, nextCheck, houtcome] at h
    split at h
    next hcheck => cases hcheck
    next status hcheck =>
      rw [if_neg fun hrunning => hstatus (by rw [← hrunning]; exact hcheck)] at h
      cases h
      rfl
  next => cases hchecking

theorem active_of_working {r : Request} (h : r.Working = true) : r.Active = true := by
  unfold Working at h
  split at h <;> first | rfl | cases h

theorem active_of_run {r : Request} {k : Nat} (h : r.run = some k) : r.Active = true := by
  unfold run at h
  split at h <;> first | rfl | cases h

end Request

/-! ## The invariant -/

/-- Not both are active, unless they are of different kinds. -/
def Apart (p q : Request) : Prop := p.function = q.function → p.Active = true → q.Active = false

/-- One active request of each kind. -/
abbrev Single (requests : List Request) : Prop :=
  Processes.Inv (fun _ : Unit => True) (fun _ _ => True) Apart () requests

/-- A call that has not returned is the one that its request waits for. -/
def Owned (requests : List Request) (runs : List FinishedTask.Run) : Prop :=
  ∀ (k : Nat) (run : FinishedTask.Run), runs[k]? = some run → run.main ≠ .returned →
    ∃ (i : Nat) (r : Request), requests[i]? = some r ∧ r.run = some k ∧ r.function = run.function

structure Inv (s : System) : Prop where
  single : Single s.requests
  owned : Owned s.requests s.runs

section

variable {requests : List Request} {runs : List FinishedTask.Run} {i : Nat} {r r' : Request}

theorem apart_symm (p q : Request) (h : Apart p q) : Apart q p := by
  intro hfunction hq
  by_contra hp
  rw [h hfunction.symm (by simpa using hp)] at hq
  cases hq

theorem Single.eq (h : Single requests) {j : Nat} {p q : Request} (hp : requests[i]? = some p)
    (hq : requests[j]? = some q) (hpactive : p.Active = true) (hqactive : q.Active = true)
    (hfunction : p.function = q.function) : i = j := by
  by_contra hne
  have hidle := h.apart i j p q hne hp hq hfunction hpactive
  rw [hidle] at hqactive
  cases hqactive

/-- A request that becomes active does so when no other one is. -/
theorem Single.set (h : Single requests) (hr : requests[i]? = some r)
    (hfunction : r'.function = r.function)
    (hactive : r'.Active = true → r.Active = true ∨
      ∀ (j : Nat) (q : Request), j ≠ i → requests[j]? = some q → q.function = r.function →
        q.Active = false) :
    Single (requests.set i r') := by
  refine Processes.Inv.setAt h apart_symm hr trivial trivial fun j q hne hq _ hapart => ?_
  refine ⟨trivial, fun hsame hr' => ?_⟩
  rw [hfunction] at hsame
  rcases hactive hr' with hactive | hothers
  · exact hapart hsame hactive
  · exact hothers j q hne hq hsame.symm

theorem Single.moves (h : Single requests) (hr : requests[i]? = some r)
    (hmoves : Request.Moves r r') : Single (requests.set i r') :=
  h.set hr hmoves.function fun hactive => .inl (hmoves.active hactive)

theorem Single.concat (h : Single requests) (hidle : r.Active = false) :
    Single (requests ++ [r]) := by
  refine Processes.Inv.concat h apart_symm trivial fun q _ _ _ hactive => ?_
  rw [hidle] at hactive
  cases hactive

/-- A request that waits for no call, or for one that has returned, may change. -/
theorem Owned.set (h : Owned requests runs) (hr : requests[i]? = some r)
    (hwaits : ∀ (k : Nat) (run : FinishedTask.Run), r.run = some k → runs[k]? = some run →
      run.main = .returned) :
    Owned (requests.set i r') runs := by
  intro k run hrun hopen
  obtain ⟨j, q, hq, hk, hfunction⟩ := h k run hrun hopen
  have hne : i ≠ j := by
    rintro rfl
    obtain rfl : r = q := Option.some.inj (hr.symm.trans hq)
    exact hopen (hwaits k run hk hrun)
  exact ⟨j, q, by rw [List.getElem?_set_ne hne]; exact hq, hk, hfunction⟩

theorem Owned.idle (h : Owned requests runs) (hr : requests[i]? = some r) (hrun : r.run = none) :
    Owned (requests.set i r') runs :=
  h.set hr fun k run hk _ => by rw [hrun] at hk; cases hk

theorem Owned.concat (h : Owned requests runs) : Owned (requests ++ [r]) runs := by
  intro k run hrun hopen
  obtain ⟨j, q, hq, hk, hfunction⟩ := h k run hrun hopen
  exact ⟨j, q, List.getElem?_append_left (List.getElem?_eq_some_iff.mp hq).1 ▸ hq, hk, hfunction⟩

/-- The request waits for the call that it has made. -/
theorem Owned.call (h : Owned requests runs) (hr : requests[i]? = some r) (hnone : r.run = none)
    (hcall : r'.run = some runs.length) {run : FinishedTask.Run}
    (hfunction : r'.function = run.function) : Owned (requests.set i r') (runs ++ [run]) := by
  intro k other hother hopen
  rcases Processes.getElem?_concat_cases hother with ⟨rfl, rfl⟩ | ⟨-, hold⟩
  · have hi : i < requests.length := (List.getElem?_eq_some_iff.mp hr).1
    exact ⟨i, r', by rw [List.getElem?_set_self hi], hcall, hfunction⟩
  · exact (h.idle hr hnone) k other hold hopen

/-- A call that has returned stays so. -/
theorem Owned.work (h : Owned requests runs) {k : Nat} {run run' : FinishedTask.Run}
    (hrun : runs[k]? = some run) (hfunction : run'.function = run.function)
    (hreturned : run.main = .returned → run'.main = .returned) :
    Owned requests (runs.set k run') := by
  intro l other hother hopen
  rcases Processes.getElem?_set_cases hother with ⟨rfl, rfl⟩ | ⟨-, hold⟩
  · obtain ⟨i, r, hr, hl, hsame⟩ := h l run hrun fun hmain => hopen (hreturned hmain)
    exact ⟨i, r, hr, hl, hsame.trans hfunction.symm⟩
  · exact h l other hold hopen

end

/-- A step of a call keeps its function, and does not undo its return. -/
theorem step_finishedTask {text : GoString → String} {run run' : FinishedTask.Run}
    {action : FinishedTask.Action} (h : FinishedTask.step text run action = some run') :
    run'.function = run.function ∧ (run.main = .returned → run'.main = .returned) := by
  cases action with
  | setUpdating outcome now =>
    simp only [FinishedTask.step] at h
    split at h <;> cases h
    next hmain => exact ⟨rfl, fun hreturned => by rw [hmain] at hreturned; cases hreturned⟩
  | pipe =>
    simp only [FinishedTask.step] at h
    split at h <;> cases h
    next hmain => exact ⟨rfl, fun hreturned => by rw [hmain] at hreturned; cases hreturned⟩
  | «return» finalError outcome now =>
    simp only [FinishedTask.step] at h
    split at h <;> cases h
    exact ⟨rfl, fun _ => rfl⟩
  | read chunk | scan | tooLong =>
    simp only [FinishedTask.step] at h
    split at h
    next buffer _ =>
      simp only [FinishedTask.Run.read, FinishedTask.Run.scan, FinishedTask.Run.tooLong] at h
      split at h <;> cases h
      exact ⟨rfl, id⟩
    all_goals cases h
  | «show» outcome now =>
    simp only [FinishedTask.step] at h
    split at h <;> cases h
    exact ⟨rfl, id⟩
  | touch outcome now =>
    simp only [FinishedTask.step] at h
    split at h <;> cases h
    exact ⟨rfl, id⟩
  | other server =>
    cases h
    exact ⟨rfl, id⟩

section

variable {text : GoString → String} {s s' : System}

theorem Inv.exclusive (h : Inv s) : Exclusive s where
  working := fun i j p q hp hq hpworking hqworking =>
    h.single.eq hp hq (Request.active_of_working hpworking) (Request.active_of_working hqworking)
  running := by
    intro k l p q hp hq hpopen hqopen hfunction
    obtain ⟨i, a, ha, hak, hafunction⟩ := h.owned k p hp hpopen
    obtain ⟨j, b, hb, hbl, hbfunction⟩ := h.owned l q hq hqopen
    have hij : i = j := h.single.eq ha hb (Request.active_of_run hak) (Request.active_of_run hbl)
      (by rw [hafunction, hbfunction, hfunction])
    rw [hij, hb] at ha
    cases ha
    exact Option.some.inj (hak.symm.trans hbl)

theorem inv_init (hs : Init s) : Inv s where
  single := by
    rw [hs.1]
    exact Processes.inv_nil trivial
  owned := by
    rw [hs.2]
    exact fun k run hrun _ => nomatch hrun

theorem inv_next {i : Nat} {env : StatementEnv} (h : Inv s) (hguard : Guard s (.next i env))
    (hstep : s.update i (Request.next env s.server) = some s') : Inv s' := by
  obtain ⟨r, hr, hnext⟩ := Option.bind_eq_some_iff.mp hstep
  obtain ⟨⟨r', server⟩, hr', heq⟩ := Option.map_eq_some_iff.mp hnext
  cases heq
  obtain ⟨hfunction, hnone, hactive⟩ := Request.next_spec hr'
  refine ⟨h.single.set hr hfunction fun hr'active => ?_, h.owned.idle hr hnone⟩
  refine (hactive hr'active).imp_right fun ⟨hchecking, houtcome, hstatus⟩ j q hne hq hsame => ?_
  -- the check would have found the task of an active request running
  by_contra hqactive
  have hcontended : Contended s i r := ⟨j, q, hne, hq, by simpa using hqactive, hsame⟩
  exact hstatus (hguard r hr hchecking houtcome hcontended)

theorem inv_step {a : Action} (h : Inv s) (hguard : Guard s a)
    (hstep : (machine text).step s a = some s') : Inv s' := by
  change step text s a = some s' at hstep
  cases a with
  | updateAppRegistry request =>
    cases hstep
    exact ⟨h.single.concat rfl, h.owned.concat⟩
  | appUpdateCheck appSlug =>
    cases hstep
    exact ⟨h.single.concat rfl, h.owned.concat⟩
  | next i env => exact inv_next h hguard hstep
  | sync i env =>
    obtain ⟨r, hr, hsync⟩ := Option.bind_eq_some_iff.mp hstep
    obtain ⟨⟨r', server⟩, hr', heq⟩ := Option.map_eq_some_iff.mp hsync
    cases heq
    obtain ⟨hmoves, hnone⟩ := Request.sync_spec hr'
    exact ⟨h.single.moves hr hmoves, h.owned.idle hr hnone⟩
  | call i =>
    obtain ⟨r, hr, hcall⟩ := Option.bind_eq_some_iff.mp hstep
    obtain ⟨r', hr', heq⟩ := Option.map_eq_some_iff.mp hcall
    cases heq
    obtain ⟨hmoves, hnone, hrun⟩ := Request.call_spec hr'
    exact ⟨h.single.moves hr hmoves, h.owned.call hr hnone hrun hmoves.function⟩
  | returned i outcome =>
    obtain ⟨r, hr, hwaits⟩ := Option.bind_eq_some_iff.mp hstep
    obtain ⟨k, hk, hcall⟩ := Option.bind_eq_some_iff.mp hwaits
    obtain ⟨run, hrun, hreturned⟩ := Option.bind_eq_some_iff.mp hcall
    split at hreturned
    next hmain =>
      obtain ⟨r', hr', heq⟩ := Option.map_eq_some_iff.mp hreturned
      cases heq
      refine ⟨h.single.moves hr (Request.returned_spec hr'), h.owned.set hr ?_⟩
      intro l other hl hother
      obtain rfl : k = l := Option.some.inj (hk.symm.trans hl)
      obtain rfl : run = other := Option.some.inj (hrun.symm.trans hother)
      exact hmain
    next => cases hreturned
  | finish i =>
    obtain ⟨r, hr, hfinish⟩ := Option.bind_eq_some_iff.mp hstep
    obtain ⟨⟨r', server⟩, hr', heq⟩ := Option.map_eq_some_iff.mp hfinish
    cases heq
    obtain ⟨r'', hr'', hpair⟩ := Option.map_eq_some_iff.mp hr'
    cases hpair
    obtain ⟨hmoves, hnone⟩ := Request.finish_spec hr''
    exact ⟨h.single.moves hr hmoves, h.owned.idle hr hnone⟩
  | work k action =>
    obtain ⟨run, hrun, hwork⟩ := Option.bind_eq_some_iff.mp hstep
    obtain ⟨run', hrun', heq⟩ := Option.map_eq_some_iff.mp hwork
    cases heq
    obtain ⟨hfunction, hreturned⟩ := step_finishedTask hrun'
    exact ⟨h.single, h.owned.work hrun hfunction hreturned⟩
  | other server =>
    cases hstep
    exact ⟨h.single, h.owned⟩

/-- **Long-running tasks exclude each other**, in every run in which a check finds the task of an
active request running. -/
theorem exclusive_everyState (text : GoString → String) :
    (machine text).EveryState Init Guard Exclusive := by
  intro s hs
  have hinv : (machine text).EveryState Init Guard Inv :=
    Machine.everyState_of_inv (fun _ h => inv_init h) fun _ _ _ => inv_step
  exact (hinv s hs).exclusive

end

/-! ## Two checks before the first write -/

/-- From `s` the request with index `i` gets to work, and the others stay where they are. -/
def GetsToWork (text : GoString → String) (s : System) (i : Nat) (function : Function) : Prop :=
  ∃ actions s', (machine text).run s actions = some s' ∧
    (∃ r', s'.requests[i]? = some r' ∧ r'.Working = true ∧ r'.function = function) ∧
    ∀ j, j ≠ i → s'.requests[j]? = s.requests[j]?

section

variable {text : GoString → String} {s : System} {i : Nat} {r r' : Request}

theorem getsToWork_working (hr : s.requests[i]? = some r) (hworking : r.Working = true) :
    GetsToWork text s i r.function :=
  ⟨[], s, rfl, ⟨r, hr, hworking, rfl⟩, fun _ _ => rfl⟩

/-- A statement succeeds when the database is `server`. -/
theorem getsToWork_step (server : Server) {function : Function} {a : Action}
    {step : Server → Request → Option (Request × Server)}
    (hstep : ∀ s, LongRunning.step text s a = s.update i (step s.server))
    (hr : s.requests[i]? = some r) (hnext : (step server r).map Prod.fst = some r')
    (hrest : ∀ s' : System, s'.requests[i]? = some r' → GetsToWork text s' i function) :
    GetsToWork text s i function := by
  obtain ⟨⟨next, server'⟩, hstepped, hfst⟩ := Option.map_eq_some_iff.mp hnext
  obtain rfl : next = r' := hfst
  have hi : i < s.requests.length := (List.getElem?_eq_some_iff.mp hr).1
  let s' : System := { s with server := server', requests := s.requests.set i next }
  have hmoved : LongRunning.step text { s with server } a = some s' := by
    rw [hstep]
    show (s.requests[i]?.bind fun r => _) = _
    rw [hr, Option.bind_some, hstepped]
    rfl
  obtain ⟨actions, s'', hrun, hend, hothers⟩ := hrest s' (List.getElem?_set_self hi)
  refine ⟨.other server :: a :: actions, s'', ?_, hend, fun j hne => ?_⟩
  · show (LongRunning.step text { s with server } a).bind _ = _
    rw [hmoved]
    exact hrun
  · rw [hothers j hne]
    exact List.getElem?_set_ne hne.symm

theorem getsToWork_next (server : Server) (env : StatementEnv) {function : Function}
    (hr : s.requests[i]? = some r) (hnext : (r.next env server).map Prod.fst = some r')
    (hrest : ∀ s' : System, s'.requests[i]? = some r' → GetsToWork text s' i function) :
    GetsToWork text s i function :=
  getsToWork_step server (a := .next i env) (fun _ => rfl) hr hnext hrest

/-- The database of an app that has no registry. -/
def oneApp (id slug : String) : Database :=
  { app := ⟨[{ id, name := "App", slug }], List.nodup_singleton _⟩ }

theorem find?_oneApp (id slug : String) :
    (oneApp id slug).app.find? id = some { id, name := "App", slug } := by
  simp [oneApp, Keyed.find?]

theorem getFromSlug_oneApp (id slug : String) :
    ∃ a, App.getFromSlug (.ok ()) (.ok ()) (oneApp id slug) slug = .ok a := by
  have hrow : (oneApp id slug).app.rows.find? (fun r => r.slug = slug) =
      some { id, name := "App", slug } := by simp [oneApp]
  refine ⟨mapApp { id, name := "App", slug }, ?_⟩
  unfold App.getFromSlug
  rw [hrow]
  simp only [App.get, find?_oneApp]
  rfl

theorem getsToWork_registry {request : RegistryRequest} {phase : RegistryPhase}
    (hr : s.requests[i]? = some (.updateAppRegistry request phase))
    (hactive : (Request.updateAppRegistry request phase).Active = true) :
    GetsToWork text s i .rewriteImages := by
  have hsettings : ∀ (s : System) (a : App),
      s.requests[i]? = some (.updateAppRegistry request (.getRegistrySettings a)) →
      GetsToWork text s i .rewriteImages := by
    intro s a hr
    have hnext : ((Request.updateAppRegistry request (.getRegistrySettings a)).next {}
        { db := oneApp a.id "" }).map Prod.fst =
          some (.updateAppRegistry request (.goroutine a)) := by
      simp only [Request.next, RegistryRequest.next, getRegistrySettingsForApp, find?_oneApp]
      rfl
    exact getsToWork_next { db := oneApp a.id "" } {} hr hnext
      fun s' hr' => getsToWork_working hr' rfl
  have hslug : ∀ s : System, s.requests[i]? = some (.updateAppRegistry request .getFromSlug) →
      GetsToWork text s i .rewriteImages := by
    intro s hr
    obtain ⟨a, ha⟩ := getFromSlug_oneApp "app" request.appSlug
    refine getsToWork_next { db := oneApp "app" request.appSlug } {} hr ?_ fun s' => hsettings s' a
    simp only [Request.next, RegistryRequest.next, ha]
    rfl
  cases phase with
  | getTaskStatus | updateRegistry a | done => cases hactive
  | clearTaskStatus => exact getsToWork_next {} {} hr rfl hslug
  | getFromSlug => exact hslug s hr
  | getRegistrySettings a => exact hsettings s a hr
  | goroutine a | rewriteImages a run => exact getsToWork_working hr rfl

/-- A license sync that finds the license as it is. -/
def unchanged : SyncEnv :=
  { loadKotsKinds := .ok { license := some { appSlug := "app" } }
    version := { loadKotsKindsFromPath := fun _ => .ok {} }
    preflight := { loadKotsKinds := .ok {} } }

theorem getsToWork_check {appSlug : String} {phase : CheckPhase}
    (hr : s.requests[i]? = some (.appUpdateCheck appSlug phase))
    (hactive : (Request.appUpdateCheck appSlug phase).Active = true) :
    GetsToWork text s i .downloadUpdate := by
  have hlast : ∀ (s : System) (a : App) (updates : List String), updates ≠ [] →
      s.requests[i]? = some (.appUpdateCheck appSlug (.lastUpdateAtTime a updates)) →
      GetsToWork text s i .downloadUpdate := by
    intro s a updates hupdates hr
    have hnext : ((Request.appUpdateCheck appSlug (.lastUpdateAtTime a updates)).next {} {}).map
        Prod.fst = some (.appUpdateCheck appSlug (.goroutine a updates)) := by
      simp [Request.next, nextCheck, Except.isOk, Except.toBool, hupdates]
    exact getsToWork_next {} {} hr hnext fun s' hr' => getsToWork_working hr' rfl
  have hupdates : ∀ (s : System) (a : App),
      s.requests[i]? = some (.appUpdateCheck appSlug (.getUpdates a)) →
      GetsToWork text s i .downloadUpdate := fun s a hr =>
    getsToWork_next {} { getUpdates := .ok ["1"] } hr rfl fun s' => hlast s' a ["1"] (by decide)
  have hkinds : ∀ (s : System) (a : App),
      s.requests[i]? = some (.appUpdateCheck appSlug (.loadKotsKinds a)) →
      GetsToWork text s i .downloadUpdate := fun s a hr =>
    getsToWork_next {} {} hr rfl fun s' => hupdates s' a
  have harchive : ∀ (s : System) (a : App),
      s.requests[i]? = some (.appUpdateCheck appSlug (.getAppVersionArchive a)) →
      GetsToWork text s i .downloadUpdate := fun s a hr =>
    getsToWork_next { archives := fun _ _ => some "" } {} hr rfl fun s' => hkinds s' a
  have hget : ∀ (s : System) (a : App),
      s.requests[i]? = some (.appUpdateCheck appSlug (.get a)) →
      GetsToWork text s i .downloadUpdate := by
    intro s a hr
    refine getsToWork_next { db := oneApp a.id "" } {} hr ?_
      fun s' => harchive s' (mapApp { id := a.id, name := "App", slug := "" })
    simp only [Request.next, nextCheck, App.get, find?_oneApp]
    rfl
  have hsync : ∀ (s : System) (a : App),
      s.requests[i]? = some (.appUpdateCheck appSlug (.sync a)) →
      GetsToWork text s i .downloadUpdate := fun s a hr =>
    getsToWork_step { archives := fun _ _ => some "" } (a := .sync i unchanged) (fun _ => rfl) hr rfl
      fun s' => hget s' a
  cases phase with
  | getFromSlug | getTaskStatus a | done => cases hactive
  | clearTaskStatus a => exact getsToWork_next {} {} hr rfl fun s' => hsync s' a
  | sync a => exact hsync s a hr
  | get a => exact hget s a hr
  | getAppVersionArchive a => exact harchive s a hr
  | loadKotsKinds a => exact hkinds s a hr
  | getUpdates a => exact hupdates s a hr
  | lastUpdateAtTime a updates => exact hlast s a updates (of_decide_eq_true hactive) hr
  | goroutine a updates | downloadUpdate a updates run => exact getsToWork_working hr rfl

theorem getsToWork (hr : s.requests[i]? = some r) (hactive : r.Active = true) :
    GetsToWork text s i r.function := by
  cases r with
  | updateAppRegistry request phase => exact getsToWork_registry hr hactive
  | appUpdateCheck appSlug phase => exact getsToWork_check hr hactive

/-- Two active requests of a kind can both get to work. -/
theorem exists_twoWorking {j : Nat} {q : Request} (hne : i ≠ j) (hr : s.requests[i]? = some r)
    (hq : s.requests[j]? = some q) (hractive : r.Active = true) (hqactive : q.Active = true)
    (hfunction : r.function = q.function) :
    ∃ actions s', (machine text).run s actions = some s' ∧ ¬ Exclusive s' := by
  obtain ⟨first, s₁, hfirst, ⟨r₁, hr₁, hr₁working, hr₁function⟩, hothers⟩ := getsToWork hr hractive
  have hq₁ : s₁.requests[j]? = some q := (hothers j hne.symm).trans hq
  have hqwork : GetsToWork text s₁ j q.function := getsToWork hq₁ hqactive
  obtain ⟨second, s₂, hsecond, ⟨q₂, hq₂, hq₂working, hq₂function⟩, hothers₂⟩ := hqwork
  refine ⟨first ++ second, s₂, ?_, fun hexclusive => hne ?_⟩
  · rw [Machine.run_append, hfirst]
    exact hsecond
  · exact hexclusive.working i j r₁ q₂ ((hothers₂ i hne).trans hr₁) hq₂ hr₁working hq₂working
      (hr₁function.trans (hfunction.trans hq₂function.symm))

/-- The condition is exact: when a check does not meet it, both requests can get to work. -/
theorem exists_notExclusive {env : StatementEnv} {s' : System}
    (hstep : (machine text).step s (.next i env) = some s') (hguard : ¬ Guard s (.next i env)) :
    ∃ actions s'', (machine text).run s' actions = some s'' ∧ ¬ Exclusive s'' := by
  simp only [Guard, not_forall] at hguard
  obtain ⟨r, hr, hchecking, houtcome, ⟨j, q, hne, hq, hqactive, hfunction⟩, hstatus⟩ := hguard
  have hi : i < s.requests.length := (List.getElem?_eq_some_iff.mp hr).1
  obtain ⟨r₀, hr₀, hnext⟩ := Option.bind_eq_some_iff.mp hstep
  obtain rfl : r = r₀ := Option.some.inj (hr.symm.trans hr₀)
  obtain ⟨⟨r', server⟩, hr', heq⟩ := Option.map_eq_some_iff.mp hnext
  cases heq
  have hsame : r'.function = r.function := (Request.next_spec hr').1
  refine exists_twoWorking hne.symm (List.getElem?_set_self hi)
    (by rw [List.getElem?_set_ne hne.symm]; exact hq)
    (Request.active_of_check hchecking houtcome hstatus hr') hqactive (hsame.trans hfunction.symm)

end

/-- Two requests read the status before one of them has a goroutine. -/
theorem not_exclusive_twoChecks :
    ¬ (machine fun line => String.ofList (line.map fun b => Char.ofNat b.toNat)).EveryState Init
      Machine.Free Exclusive := by
  let request : RegistryRequest :=
    { appSlug := "app", hostname := "registry", username := "user", registryNamespace := "ns" }
  have hinit : Init { server := { db := oneApp "app" "app" } } := ⟨rfl, rfl⟩
  refine Machine.not_everyState hinit
    [.updateAppRegistry request, .updateAppRegistry request, .next 0 {}, .next 1 {},
      .next 0 {}, .next 0 {}, .next 0 {}, .call 0, .next 1 {}, .next 1 {}, .next 1 {}, .call 1] rfl ?_
  intro hexclusive
  have hsame := hexclusive.working 0 1 _ _ rfl rfl rfl rfl rfl
  cases hsame

end Kotsadm.Flows.LongRunning
