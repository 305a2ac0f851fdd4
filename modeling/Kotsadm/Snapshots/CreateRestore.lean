import Kotsadm.Lib.GoEncoding
import Kotsadm.Lib.Machine
import Kotsadm.Store.Server

/-!
# CreateRestore — requests to restore an app, side by side

The handler `CreateRestore` asks velero for the backup, reads the status of the version and the app,
deletes an old `Restore` of the name and only then writes the name into the row of the app.  Every
call is a step of its own, so any number of requests interleave.  What velero and the statements
answer is part of the action.
-/

namespace Kotsadm.CreateRestore

open KotsAppStore

/-- `CreateRestoreResponse`, with the status of the response. -/
structure Response where
  code : Nat
  success : Bool := false
  error : String := ""
  deriving DecidableEq, Repr

/-- The annotations of a velero `Backup`. -/
structure Backup where
  annotations : List (String × String)
  deriving DecidableEq, Repr

/-- A key that a map of Go does not have reads as the empty string. -/
def Backup.annotation (backup : Backup) (key : String) : String :=
  (backup.annotations.lookup key).getD ""

/-- `strconv.ParseInt(text, 10, 64)` -/
def parseInt (text : String) : Option Int :=
  (GoString.atoi (GoString.ofChars text.toList)).toOption.map Int64.toInt

/-- The call that a request makes next. -/
inductive Phase where
  | parseSession
  | getBackup
  | getDownstreamVersionStatus (appID : AppId) (sequence : Int)
  | getApp (appID : AppId)
  | deleteRestore (appID : AppId)
  | initiateRestore (appID : AppId)
  | answered (response : Response)
  deriving DecidableEq, Repr

structure Request where
  snapshotName : String
  phase : Phase := .parseSession
  -- history: another request has named a restore of the app since this one made its check, and the
  -- restore was not reset since
  overtaken : Bool := false
  deriving DecidableEq, Repr

structure State where
  db : Database
  requests : List Request := []
  -- history: how many requests were answered with success since the restore of the app was reset
  successes : AppId → Nat := fun _ => 0

/-- A call that has returned, with what it returned from outside. -/
inductive Call where
  /-- `session.Parse` gives the id of the session, if there is one. -/
  | parseSession (session : Except GoError (Option String))
  | getBackup (backup : Except GoError Backup)
  | getDownstreamVersionStatus (outcome : Except GoError Unit)
  | getApp (outcome : Except GoError Unit)
  | deleteRestore (outcome : Except GoError Unit)
  | initiateRestore (outcome : Except GoError Unit)

inductive Action where
  /-- A `POST` to `/api/v1/snapshot/{snapshotName}/restore`. -/
  | request (snapshotName : String)
  | call (i : Nat) (c : Call)
  /-- `updateAppRestoreReset`, at the end of a restore or when it is cancelled. -/
  | reset (appId : AppId)
  /-- The rest of kotsadm goes on. -/
  | other (db : Database)

/-! ## The handler -/

/-- The app for which a request has made its check and not yet named the restore. -/
def Phase.checked : Phase → Option AppId
  | .deleteRestore appID | .initiateRestore appID => some appID
  | _ => none

def Request.answer (r : Request) (response : Response) : Request :=
  { r with phase := .answered response, overtaken := false }

def Request.fail (r : Request) (code : Nat) (error : String) : Request :=
  r.answer { code, error }

/-- The call of `session.Parse`; every valid token is a valid session. -/
def Request.parseSession (r : Request) (session : Except GoError (Option String)) : Request :=
  match session with
  | .error _ | .ok none | .ok (some "") => r.fail 401 "failed to parse authorization header"
  | .ok (some _) => { r with phase := .getBackup }

def Request.getBackup (r : Request) (backup : Except GoError Backup) : Request :=
  match backup with
  | .error _ => r.fail 500 "failed to find backup"
  | .ok backup =>
    let appID := backup.annotation "kots.io/app-id"
    match parseInt (backup.annotation "kots.io/app-sequence") with
    | none => r.fail 500 "failed to parse sequence label"
    | some sequence => { r with phase := .getDownstreamVersionStatus appID sequence }

def Request.checkStatus (r : Request) (appID : AppId) (sequence : Int)
    (status : Except GoError String) : Request :=
  match status with
  | .error _ => r.fail 500 "failed to find downstream version"
  | .ok status =>
    if status ≠ "deployed" then
      r.fail 500 s!"sequence {sequence} of app {appID} was never deployed to this cluster"
    else { r with phase := .getApp appID }

def Request.checkApp (r : Request) (appID : AppId) (kotsApp : Except GoError App) : Request :=
  match kotsApp with
  | .error _ => r.fail 500 "failed to get app"
  | .ok kotsApp =>
    if kotsApp.restoreInProgressName ≠ "" then r.fail 500 "restore is already in progress"
    else { r with phase := .deleteRestore appID, overtaken := false }

def Request.deleteRestore (r : Request) (appID : AppId) (outcome : Except GoError Unit) : Request :=
  match outcome with
  | .error _ => r.fail 500 "failed to initiate restore"
  | .ok _ => { r with phase := .initiateRestore appID }

/-- Another request has named a restore of the app, or it was reset. -/
def Request.mark (appID : AppId) (overtaken : Bool) (r : Request) : Request :=
  if r.phase.checked = some appID then { r with overtaken } else r

namespace State

def put (s : State) (i : Nat) (r : Request) : State := { s with requests := s.requests.set i r }

/-- `InitiateRestore`, and the answer. -/
def initiateRestore (s : State) (i : Nat) (r : Request) (appID : AppId)
    (outcome : Except GoError Unit) : State :=
  match outcome with
  | .error _ => s.put i (r.fail 500 "failed to initiate restore")
  | .ok _ =>
    { db := KotsAppStore.initiateRestore s.db r.snapshotName appID
      requests := (s.requests.map (Request.mark appID true)).set i
        (r.answer { code := 200, success := true })
      successes := Function.update s.successes appID (s.successes appID + 1) }

def reset (s : State) (appId : AppId) : State where
  db := updateAppRestoreReset s.db appId
  requests := s.requests.map (Request.mark appId false)
  successes := Function.update s.successes appId 0

end State

/-- No app is removed, and the name of a restore is written by the steps above only. -/
def KeepsRestores (db db' : Database) : Prop :=
  (∀ r ∈ db.app.rows,
    (db'.app.find? r.id).map (·.restoreInProgressName) = some r.restoreInProgressName) ∧
  ∀ r ∈ db'.app.rows, (db.app.find? r.id).isNone → r.restoreInProgressName = none

instance (db db' : Database) : Decidable (KeepsRestores db db') :=
  inferInstanceAs (Decidable (_ ∧ _))

/-- The call that request `i` makes. -/
def call (s : State) (i : Nat) (r : Request) : Call → Option State
  | .parseSession session =>
    if r.phase = .parseSession then some (s.put i (r.parseSession session)) else none
  | .getBackup backup =>
    if r.phase = .getBackup then some (s.put i (r.getBackup backup)) else none
  | .getDownstreamVersionStatus outcome =>
    match r.phase with
    | .getDownstreamVersionStatus appID sequence =>
      some (s.put i (r.checkStatus appID sequence
        (getDownstreamVersionStatus outcome s.db appID sequence)))
    | _ => none
  | .getApp outcome =>
    match r.phase with
    | .getApp appID => some (s.put i (r.checkApp appID (App.get outcome s.db appID)))
    | _ => none
  | .deleteRestore outcome =>
    match r.phase with
    | .deleteRestore appID => some (s.put i (r.deleteRestore appID outcome))
    | _ => none
  | .initiateRestore outcome =>
    match r.phase with
    | .initiateRestore appID => some (s.initiateRestore i r appID outcome)
    | _ => none

def step (s : State) : Action → Option State
  -- the variable of the route is not empty
  | .request snapshotName =>
    if snapshotName = "" then none else some { s with requests := s.requests ++ [{ snapshotName }] }
  | .call i c => (s.requests[i]?).bind fun r => call s i r c
  | .reset appId => some (s.reset appId)
  | .other db => if KeepsRestores s.db db then some { s with db } else none

def machine : Machine State Action := ⟨step⟩

/-- The database is arbitrary. -/
def Init (s : State) : Prop := s.requests = [] ∧ s.successes = fun _ => 0

/-! ## The property -/

/-- At most one request was answered with success since the restore of the app was reset. -/
def OneSuccess (s : State) : Prop := ∀ appId, s.successes appId ≤ 1

/-- The name of a restore in progress is left, or reset. -/
def NotOverwritten (s s' : State) : Prop :=
  ∀ appId name name', restoreInProgressName s.db appId = some name → name ≠ "" →
    restoreInProgressName s'.db appId = some name' → name' ≠ "" → name' = name

/-! ## The condition -/

/-- No request names a restore of an app if another one did so since the check. -/
def Guard (s : State) : Action → Prop
  | .call i (.initiateRestore (.ok _)) => ∀ r ∈ s.requests[i]?, r.overtaken = false
  | _ => True

instance (s : State) (a : Action) : Decidable (Guard s a) :=
  match a with
  | .call i (.initiateRestore (.ok _)) =>
    inferInstanceAs (Decidable (∀ r ∈ s.requests[i]?, r.overtaken = false))
  | .call _ (.parseSession _) | .call _ (.getBackup _) | .call _ (.getDownstreamVersionStatus _)
  | .call _ (.getApp _) | .call _ (.deleteRestore _) | .call _ (.initiateRestore (.error _))
  | .request _ | .reset _ | .other _ => .isTrue trivial

/-! ## The invariant -/

/-- The app has its row, and no restore is in progress. -/
def Idle (db : Database) (appID : AppId) : Prop :=
  ∃ row, db.app.find? appID = some row ∧ row.restoreInProgressName.getD "" = ""

def InProgress (db : Database) (appID : AppId) : Prop :=
  ∃ row, db.app.find? appID = some row ∧ row.restoreInProgressName.getD "" ≠ ""

/-- What the check of a request has seen still is so, unless the request was overtaken. -/
structure Fits (db : Database) (successes : AppId → Nat) (r : Request) : Prop where
  name : r.snapshotName ≠ ""
  idle : ∀ appID, r.phase.checked = some appID → r.overtaken = false → Idle db appID
  overtaken : ∀ appID, r.phase.checked = some appID → r.overtaken = true → successes appID ≠ 0

structure Inv (s : State) : Prop where
  one : OneSuccess s
  inProgress : ∀ appId, s.successes appId ≠ 0 → InProgress s.db appId
  fits : ∀ r ∈ s.requests, Fits s.db s.successes r

theorem not_idle_of_inProgress {db : Database} {appID : AppId} (h : InProgress db appID) :
    ¬ Idle db appID := by
  intro hidle
  obtain ⟨row, hrow, hname⟩ := h
  obtain ⟨row', hrow', hname'⟩ := hidle
  rw [hrow] at hrow'
  cases hrow'
  exact hname hname'

theorem not_idle_of_name {db : Database} {appID : AppId} {name : String}
    (h : restoreInProgressName db appID = some name) (hname : name ≠ "") : ¬ Idle db appID := by
  intro hidle
  obtain ⟨row, hrow, hempty⟩ := hidle
  unfold restoreInProgressName at h
  rw [hrow, Option.bind_some] at h
  rw [h] at hempty
  exact hname hempty

theorem get_eq_ok {outcome : Except GoError Unit} {db : Database} {id : AppId} {app : App}
    (h : App.get outcome db id = .ok app) :
    ∃ row, db.app.find? id = some row ∧ app = mapApp row := by
  unfold App.get at h
  split at h
  next => cases h
  next => cases h
  next row hrow =>
    cases h
    exact ⟨row, hrow, rfl⟩

/-! ### One request -/

/-- A request that makes no check between its last call and its next one fits any state. -/
theorem fits_of_unchecked {db : Database} {successes : AppId → Nat} {r : Request}
    (hname : r.snapshotName ≠ "") (h : r.phase.checked = none) : Fits db successes r where
  name := hname
  idle := by
    intro appID hchecked
    rw [h] at hchecked
    cases hchecked
  overtaken := by
    intro appID hchecked
    rw [h] at hchecked
    cases hchecked

section

variable {db : Database} {successes : AppId → Nat} {r : Request} (hname : r.snapshotName ≠ "")

include hname

theorem fits_fail (code : Nat) (error : String) : Fits db successes (r.fail code error) :=
  fits_of_unchecked hname rfl

theorem fits_parseSession (session : Except GoError (Option String)) :
    Fits db successes (r.parseSession session) := by
  unfold Request.parseSession
  split
  next => exact fits_fail hname _ _
  next => exact fits_fail hname _ _
  next => exact fits_fail hname _ _
  next => exact fits_of_unchecked hname rfl

theorem fits_getBackup (backup : Except GoError Backup) :
    Fits db successes (r.getBackup backup) := by
  unfold Request.getBackup
  split
  next => exact fits_fail hname _ _
  next =>
    dsimp only
    split
    next => exact fits_fail hname _ _
    next => exact fits_of_unchecked hname rfl

theorem fits_checkStatus (appID : AppId) (sequence : Int) (status : Except GoError String) :
    Fits db successes (r.checkStatus appID sequence status) := by
  unfold Request.checkStatus
  split
  next => exact fits_fail hname _ _
  next =>
    split
    next => exact fits_fail hname _ _
    next => exact fits_of_unchecked hname rfl

/-- The check itself. -/
theorem fits_checkApp (appID : AppId) (outcome : Except GoError Unit) :
    Fits db successes (r.checkApp appID (App.get outcome db appID)) := by
  unfold Request.checkApp
  split
  next => exact fits_fail hname _ _
  next kotsApp hget =>
    obtain ⟨row, hrow, rfl⟩ := get_eq_ok hget
    split
    next => exact fits_fail hname _ _
    next hfree =>
      have hempty : row.restoreInProgressName.getD "" = "" := not_not.mp hfree
      refine ⟨hname, ?_, ?_⟩
      · intro appID' hchecked _
        have heq : appID = appID' := Option.some.inj hchecked
        exact ⟨row, heq ▸ hrow, hempty⟩
      · intro appID' _ hovertaken
        cases hovertaken

end

theorem fits_deleteRestore {db : Database} {successes : AppId → Nat} {r : Request} {appID : AppId}
    (h : Fits db successes r) (hphase : r.phase = .deleteRestore appID)
    (outcome : Except GoError Unit) : Fits db successes (r.deleteRestore appID outcome) := by
  have hchecked : r.phase.checked = some appID := by rw [hphase]; rfl
  unfold Request.deleteRestore
  split
  next => exact fits_fail h.name _ _
  next =>
    refine ⟨h.name, ?_, ?_⟩
    · intro appID' hchecked' hovertaken
      exact h.idle appID' (hchecked.trans hchecked') hovertaken
    · intro appID' hchecked' hovertaken
      exact h.overtaken appID' (hchecked.trans hchecked') hovertaken

/-! ### The shared state -/

theorem idle_initiateRestore {db : Database} {snapshotName : String} {appID appID' : AppId}
    (hne : appID' ≠ appID) (h : Idle db appID') :
    Idle (KotsAppStore.initiateRestore db snapshotName appID) appID' := by
  obtain ⟨row, hrow, hempty⟩ := h
  refine ⟨row, ?_, hempty⟩
  unfold KotsAppStore.initiateRestore
  rw [find?_updateApp, if_neg hne]
  exact hrow

theorem inProgress_initiateRestore {db : Database} {snapshotName : String} {appID appID' : AppId}
    (hname : snapshotName ≠ "") (hidle : Idle db appID)
    (h : appID' ≠ appID → InProgress db appID') :
    InProgress (KotsAppStore.initiateRestore db snapshotName appID) appID' := by
  unfold KotsAppStore.initiateRestore InProgress
  rw [find?_updateApp]
  by_cases heq : appID' = appID
  · subst heq
    obtain ⟨row, hrow, _⟩ := hidle
    rw [if_pos rfl, hrow]
    exact ⟨_, rfl, hname⟩
  · rw [if_neg heq]
    exact h heq

/-- A reset leaves every app without a restore, or as it was. -/
theorem idle_reset {db : Database} {appId appID : AppId} (hrow : (db.app.find? appID).isSome)
    (h : appID ≠ appId → Idle db appID) : Idle (updateAppRestoreReset db appId) appID := by
  unfold updateAppRestoreReset Idle
  rw [find?_updateApp]
  by_cases heq : appID = appId
  · obtain ⟨row, hrow⟩ := Option.isSome_iff_exists.mp hrow
    rw [if_pos heq, hrow]
    exact ⟨_, rfl, rfl⟩
  · rw [if_neg heq]
    exact h heq

theorem inProgress_reset {db : Database} {appId appID : AppId} (hne : appID ≠ appId)
    (h : InProgress db appID) : InProgress (updateAppRestoreReset db appId) appID := by
  obtain ⟨row, hrow, hname⟩ := h
  refine ⟨row, ?_, hname⟩
  unfold updateAppRestoreReset
  rw [find?_updateApp, if_neg hne]
  exact hrow

/-- What the rest of kotsadm keeps: the row and its column. -/
theorem KeepsRestores.find? {db db' : Database} (h : KeepsRestores db db') {appID : AppId}
    {row : AppRow} (hrow : db.app.find? appID = some row) :
    ∃ row', db'.app.find? appID = some row' ∧
      row'.restoreInProgressName = row.restoreInProgressName := by
  obtain ⟨hmem, hid⟩ := Keyed.find?_eq_some.mp hrow
  have hkeep := h.1 row hmem
  rw [Option.map_eq_some_iff] at hkeep
  obtain ⟨row', hrow', hname⟩ := hkeep
  exact ⟨row', hid ▸ hrow', hname⟩

/-! ### Every step -/

theorem inv_init {s : State} (h : Init s) : Inv s := by
  obtain ⟨hrequests, hsuccesses⟩ := h
  refine ⟨?_, ?_, ?_⟩
  · intro appId
    rw [hsuccesses]
    exact Nat.zero_le 1
  · intro appId hne
    rw [hsuccesses] at hne
    exact absurd rfl hne
  · intro r hr
    rw [hrequests] at hr
    cases hr

/-- A step of one request that leaves the shared state alone. -/
theorem inv_put {s : State} {i : Nat} {r : Request} (h : Inv s) (hr : Fits s.db s.successes r) :
    Inv (s.put i r) where
  one := h.one
  inProgress := h.inProgress
  fits := by
    intro q hq
    rcases List.mem_or_eq_of_mem_set hq with hold | rfl
    · exact h.fits q hold
    · exact hr

/-- The restore is named by a request that was not overtaken. -/
theorem inv_initiateRestore {s : State} {i : Nat} {r : Request} {appID : AppId} (h : Inv s)
    (hr : Fits s.db s.successes r) (hchecked : r.phase.checked = some appID)
    (hovertaken : r.overtaken = false) : Inv (s.initiateRestore i r appID (.ok ())) := by
  have hidle : Idle s.db appID := hr.idle appID hchecked hovertaken
  -- nobody has succeeded, or the restore of that request would be in progress
  have hzero : s.successes appID = 0 := by
    by_contra hne
    exact not_idle_of_inProgress (h.inProgress appID hne) hidle
  refine ⟨?_, ?_, ?_⟩
  · intro appId
    change Function.update s.successes appID (s.successes appID + 1) appId ≤ 1
    rw [Function.update_apply, hzero]
    split
    next => exact Nat.le_refl 1
    next => exact h.one appId
  · intro appId hne
    refine inProgress_initiateRestore hr.name hidle fun hother => h.inProgress appId ?_
    change Function.update s.successes appID _ appId ≠ 0 at hne
    rwa [Function.update_of_ne hother] at hne
  · intro q hq
    rcases List.mem_or_eq_of_mem_set hq with hold | rfl
    · obtain ⟨p, hp, rfl⟩ := List.mem_map.mp hold
      have hfits : Fits s.db s.successes p := h.fits p hp
      unfold Request.mark
      split
      next hsame =>
        refine ⟨hfits.name, fun _ _ hfalse => (by cases hfalse), fun appID' hchecked' _ => ?_⟩
        have heq : appID = appID' := Option.some.inj (hsame.symm.trans hchecked')
        change Function.update s.successes appID (s.successes appID + 1) appID' ≠ 0
        rw [heq, Function.update_self]
        exact Nat.succ_ne_zero _
      next hother =>
        have hne : ∀ appID', p.phase.checked = some appID' → appID' ≠ appID := by
          rintro appID' hchecked' rfl
          exact hother hchecked'
        refine ⟨hfits.name, fun appID' hchecked' hfalse => ?_, fun appID' hchecked' htrue => ?_⟩
        · exact idle_initiateRestore (hne appID' hchecked') (hfits.idle appID' hchecked' hfalse)
        · change Function.update s.successes appID _ appID' ≠ 0
          rw [Function.update_of_ne (hne appID' hchecked')]
          exact hfits.overtaken appID' hchecked' htrue
    · exact fits_of_unchecked hr.name rfl

theorem inv_reset {s : State} (h : Inv s) (appId : AppId) : Inv (s.reset appId) := by
  refine ⟨?_, ?_, ?_⟩
  · intro appID
    change Function.update s.successes appId 0 appID ≤ 1
    rw [Function.update_apply]
    split
    next => exact Nat.zero_le 1
    next => exact h.one appID
  · intro appID hne
    change Function.update s.successes appId 0 appID ≠ 0 at hne
    have hother : appID ≠ appId := by
      rintro rfl
      rw [Function.update_self] at hne
      exact hne rfl
    rw [Function.update_of_ne hother] at hne
    exact inProgress_reset hother (h.inProgress appID hne)
  · intro q hq
    obtain ⟨p, hp, rfl⟩ := List.mem_map.mp hq
    have hfits : Fits s.db s.successes p := h.fits p hp
    -- overtaken or not, the app that was checked has its row
    have hrow : ∀ appID, p.phase.checked = some appID → (s.db.app.find? appID).isSome := by
      intro appID hchecked
      cases hovertaken : p.overtaken with
      | false =>
        obtain ⟨row, hrow, _⟩ := hfits.idle appID hchecked hovertaken
        rw [hrow]
        rfl
      | true =>
        obtain ⟨row, hrow, _⟩ := h.inProgress appID (hfits.overtaken appID hchecked hovertaken)
        rw [hrow]
        rfl
    unfold Request.mark
    split
    next hsame =>
      refine ⟨hfits.name, fun appID hchecked _ => ?_, fun _ _ htrue => by cases htrue⟩
      have heq : appId = appID := Option.some.inj (hsame.symm.trans hchecked)
      exact idle_reset (hrow appID hchecked) fun hne => absurd heq.symm hne
    next hother =>
      have hne : ∀ appID, p.phase.checked = some appID → appID ≠ appId := by
        rintro appID hchecked rfl
        exact hother hchecked
      refine ⟨hfits.name, fun appID hchecked hfalse => ?_, fun appID hchecked htrue => ?_⟩
      · exact idle_reset (hrow appID hchecked) fun _ => hfits.idle appID hchecked hfalse
      · change Function.update s.successes appId 0 appID ≠ 0
        rw [Function.update_of_ne (hne appID hchecked)]
        exact hfits.overtaken appID hchecked htrue

theorem inv_other {s : State} {db : Database} (h : Inv s) (hkeep : KeepsRestores s.db db) :
    Inv { s with db := db } := by
  refine ⟨h.one, ?_, ?_⟩
  · intro appId hne
    obtain ⟨row, hrow, hname⟩ := h.inProgress appId hne
    obtain ⟨row', hrow', hsame⟩ := hkeep.find? hrow
    exact ⟨row', hrow', hsame ▸ hname⟩
  · intro r hr
    have hfits : Fits s.db s.successes r := h.fits r hr
    refine ⟨hfits.name, ?_, hfits.overtaken⟩
    intro appID hchecked hfalse
    obtain ⟨row, hrow, hempty⟩ := hfits.idle appID hchecked hfalse
    obtain ⟨row', hrow', hsame⟩ := hkeep.find? hrow
    exact ⟨row', hrow', hsame ▸ hempty⟩

theorem inv_call {s s' : State} {i : Nat} {r : Request} {c : Call} (h : Inv s)
    (hr : r ∈ s.requests) (hG : ∀ u, c = .initiateRestore (.ok u) → r.overtaken = false)
    (hcall : call s i r c = some s') : Inv s' := by
  have hfits : Fits s.db s.successes r := h.fits r hr
  unfold call at hcall
  split at hcall
  next session =>
    split at hcall
    next =>
      cases hcall
      exact inv_put h (fits_parseSession hfits.name session)
    next => cases hcall
  next backup =>
    split at hcall
    next =>
      cases hcall
      exact inv_put h (fits_getBackup hfits.name backup)
    next => cases hcall
  next outcome =>
    split at hcall
    next appID sequence _ =>
      cases hcall
      exact inv_put h (fits_checkStatus hfits.name appID sequence _)
    next => cases hcall
  next outcome =>
    split at hcall
    next appID _ =>
      cases hcall
      exact inv_put h (fits_checkApp hfits.name appID outcome)
    next => cases hcall
  next outcome =>
    split at hcall
    next appID hphase =>
      cases hcall
      exact inv_put h (fits_deleteRestore hfits hphase outcome)
    next => cases hcall
  next outcome =>
    split at hcall
    next appID hphase =>
      cases hcall
      cases outcome with
      | error e => exact inv_put h (fits_fail hfits.name _ _)
      | ok u =>
        have hchecked : r.phase.checked = some appID := by rw [hphase]; rfl
        exact inv_initiateRestore h hfits hchecked (hG u rfl)
    next => cases hcall

theorem inv_step (s : State) (a : Action) (s' : State) (h : Inv s) (hG : Guard s a)
    (hstep : machine.step s a = some s') : Inv s' := by
  change step s a = some s' at hstep
  unfold step at hstep
  split at hstep
  next snapshotName =>
    split at hstep
    next => cases hstep
    next hname =>
      cases hstep
      refine ⟨h.one, h.inProgress, ?_⟩
      intro r hr
      rcases List.mem_append.mp hr with hold | hnew
      · exact h.fits r hold
      · rw [List.mem_singleton.mp hnew]
        exact fits_of_unchecked hname rfl
  next i c =>
    rw [Option.bind_eq_some_iff] at hstep
    obtain ⟨r, hr, hcall⟩ := hstep
    refine inv_call h (List.mem_of_getElem? hr) ?_ hcall
    rintro u rfl
    exact hG r hr
  next appId =>
    cases hstep
    exact inv_reset h appId
  next db =>
    split at hstep
    next hkeep =>
      cases hstep
      exact inv_other h hkeep
    next => cases hstep

theorem inv_everyState : machine.EveryState Init Guard Inv :=
  Machine.everyState_of_inv (fun _ h => inv_init h) inv_step

/-! ## The name of a restore in progress -/

theorem notOverwritten_of_eq {s s' : State}
    (h : ∀ appId, restoreInProgressName s'.db appId = restoreInProgressName s.db appId) :
    NotOverwritten s s' := by
  intro appId name name' hname _ hname' _
  rw [h, hname] at hname'
  exact (Option.some.inj hname').symm

theorem db_call {s s' : State} {i : Nat} {r : Request} {c : Call}
    (hcall : call s i r c = some s') :
    s'.db = s.db ∨ ∃ appID u, c = .initiateRestore (.ok u) ∧ r.phase = .initiateRestore appID ∧
      s' = s.initiateRestore i r appID (.ok ()) := by
  unfold call at hcall
  split at hcall
  next =>
    split at hcall <;> cases hcall
    exact .inl rfl
  next =>
    split at hcall <;> cases hcall
    exact .inl rfl
  next =>
    split at hcall <;> cases hcall
    exact .inl rfl
  next =>
    split at hcall <;> cases hcall
    exact .inl rfl
  next =>
    split at hcall <;> cases hcall
    exact .inl rfl
  next outcome =>
    split at hcall
    next appID hphase =>
      cases hcall
      cases outcome with
      | error e => exact .inl rfl
      | ok u => exact .inr ⟨appID, u, rfl, hphase, rfl⟩
    next => cases hcall

theorem notOverwritten_step {s s' : State} {a : Action} (h : Inv s) (hG : Guard s a)
    (hstep : machine.step s a = some s') : NotOverwritten s s' := by
  change step s a = some s' at hstep
  unfold step at hstep
  split at hstep
  next snapshotName =>
    split at hstep <;> cases hstep
    exact notOverwritten_of_eq fun _ => rfl
  next i c =>
    rw [Option.bind_eq_some_iff] at hstep
    obtain ⟨r, hr, hcall⟩ := hstep
    rcases db_call hcall with hsame | ⟨appID, u, rfl, hphase, rfl⟩
    · exact notOverwritten_of_eq fun appId => by rw [hsame]
    · have hchecked : r.phase.checked = some appID := by rw [hphase]; rfl
      have hidle : Idle s.db appID :=
        (h.fits r (List.mem_of_getElem? hr)).idle appID hchecked (hG r hr)
      intro appId name name' hname hne hname' _
      have hnew := restoreInProgressName_initiateRestore s.db appID appId hname'
      split at hnew
      next heq =>
        -- the request has seen that no restore of this app was in progress
        rw [heq] at hname
        exact absurd hidle (not_idle_of_name hname hne)
      next =>
        rw [hname] at hnew
        exact (Option.some.inj hnew).symm
  next appId =>
    cases hstep
    intro appId' name name' hname _ hname' _
    have hold := restoreInProgressName_updateAppRestoreReset s.db appId appId' hname'
    rw [hname] at hold
    exact (Option.some.inj hold).symm
  next db =>
    split at hstep
    next hkeep =>
      cases hstep
      intro appId name name' hname _ hname' _
      unfold restoreInProgressName at hname hname'
      rw [Option.bind_eq_some_iff] at hname
      obtain ⟨row, hrow, hcolumn⟩ := hname
      obtain ⟨row', hrow', hsame⟩ := hkeep.find? hrow
      rw [hrow', Option.bind_some, hsame, hcolumn] at hname'
      exact (Option.some.inj hname').symm
    next => cases hstep

/-- A request that was overtaken and names its restore all the same is the second to succeed. -/
theorem not_oneSuccess_of_overtaken {s s' : State} {i : Nat} {r : Request} (h : Inv s)
    (hr : s.requests[i]? = some r) (hovertaken : r.overtaken = true)
    (hstep : machine.step s (.call i (.initiateRestore (.ok ()))) = some s') : ¬ OneSuccess s' := by
  change (s.requests[i]?).bind _ = some s' at hstep
  rw [hr, Option.bind_some] at hstep
  unfold call at hstep
  dsimp only at hstep
  split at hstep
  next appID hphase =>
    cases hstep
    have hchecked : r.phase.checked = some appID := by rw [hphase]; rfl
    have hne : s.successes appID ≠ 0 :=
      (h.fits r (List.mem_of_getElem? hr)).overtaken appID hchecked hovertaken
    intro hone
    have htwo : s.successes appID + 1 ≤ 1 := by
      have happ := hone appID
      change Function.update s.successes appID (s.successes appID + 1) appID ≤ 1 at happ
      rwa [Function.update_self] at happ
    omega
  next => cases hstep

/-- While no request that was overtaken names its restore, at most one request succeeds until the
restore is reset and no name is overwritten; the first one that does so all the same is the second
to succeed. -/
theorem oneRestore_everyRun {s : State} (hs : machine.Reachable Init Guard s) :
    OneSuccess s ∧ ∀ a s', machine.step s a = some s' →
      (Guard s a → NotOverwritten s s') ∧ (OneSuccess s' → Guard s a) := by
  refine ⟨(inv_everyState s hs).one, fun a s' hstep => ⟨?_, ?_⟩⟩
  · intro hG
    exact notOverwritten_step (inv_everyState s hs) hG hstep
  · intro hone
    unfold Guard
    split
    next i u =>
      intro r hr
      by_contra hovertaken
      exact not_oneSuccess_of_overtaken (inv_everyState s hs) hr
        (Bool.eq_true_of_not_eq_false hovertaken) hstep hone
    next => trivial

/-! ## Runs -/

/-- One app whose version 0 was deployed. -/
def deployedApp : State where
  db := {
    app := .single { id := "app", name := "App", slug := "app" }
    appDownstreamVersion := .single {
      appId := "app", clusterId := "c1", sequence := 0, parentSequence := 0, status := "deployed" } }

def backupOfApp : Backup where
  annotations := [("kots.io/app-id", "app"), ("kots.io/app-sequence", "0")]

/-- The calls of request `i` up to its check. -/
def upToCheck (i : Nat) : List Action :=
  [.call i (.parseSession (.ok (some "session"))), .call i (.getBackup (.ok backupOfApp)),
   .call i (.getDownstreamVersionStatus (.ok ())), .call i (.getApp (.ok ()))]

def initiate (i : Nat) : List Action :=
  [.call i (.deleteRestore (.ok ())), .call i (.initiateRestore (.ok ()))]

def responses (s : State) : List Phase := s.requests.map (·.phase)

theorem init_deployedApp : Init deployedApp := ⟨rfl, rfl⟩

/-- The second request comes after the first one; the third one comes after a reset. -/
def oneByOne : List Action :=
  .request "b1" :: upToCheck 0 ++ initiate 0 ++ .request "b2" :: upToCheck 1 ++
    .reset "app" :: .request "b2" :: upToCheck 2 ++ initiate 2

theorem run_oneByOne : (machine.guardedRun Guard deployedApp oneByOne).map responses =
    some [.answered { code := 200, success := true },
      .answered { code := 500, error := "restore is already in progress" },
      .answered { code := 200, success := true }] := by
  decide +kernel

theorem oneRestore_oneByOne : ∃ s, machine.guardedRun Guard deployedApp oneByOne = some s ∧
    OneSuccess s := by
  obtain ⟨s, hrun, _⟩ := Option.map_eq_some_iff.mp run_oneByOne
  have hreached := (Machine.Reachable.init init_deployedApp).guardedRun oneByOne hrun
  exact ⟨s, hrun, (oneRestore_everyRun hreached).1⟩

/-- Both requests make their check before one of them names its restore. -/
def sideBySide : List Action :=
  [.request "b1", .request "b2"] ++ upToCheck 0 ++ upToCheck 1 ++ initiate 0 ++
    [.call 1 (.deleteRestore (.ok ()))]

theorem run_sideBySide :
    ((machine.run deployedApp sideBySide).map fun s => restoreInProgressName s.db "app") =
      some (some "b1") := by
  decide +kernel

theorem run_secondNamed :
    ((machine.run deployedApp (sideBySide ++ [.call 1 (.initiateRestore (.ok ()))])).map
      fun s => (restoreInProgressName s.db "app", s.successes "app", responses s)) =
      some (some "b2", 2, [.answered { code := 200, success := true },
        .answered { code := 200, success := true }]) := by
  decide +kernel

theorem not_oneRestore : ¬ machine.EveryState Init Machine.Free OneSuccess ∧
    ¬ machine.EveryStep Init Machine.Free fun s _ s' => NotOverwritten s s' := by
  obtain ⟨s', hrun', hs'⟩ := Option.map_eq_some_iff.mp run_secondNamed
  have hname' : restoreInProgressName s'.db "app" = some "b2" := congrArg Prod.fst hs'
  have hsuccesses : s'.successes "app" = 2 := congrArg (·.2.1) hs'
  constructor
  · refine Machine.not_everyState init_deployedApp _ hrun' ?_
    intro hone
    have htwo := hone "app"
    rw [hsuccesses] at htwo
    omega
  · obtain ⟨s, hrun, hname⟩ := Option.map_eq_some_iff.mp run_sideBySide
    have hstep : machine.step s (.call 1 (.initiateRestore (.ok ()))) = some s' := by
      rw [Machine.run_append, hrun] at hrun'
      simpa using hrun'
    refine Machine.not_everyStep init_deployedApp sideBySide hrun hstep ?_
    intro hkept
    exact absurd (hkept "app" "b1" "b2" hname (by decide) hname' (by decide)) (by decide)

end Kotsadm.CreateRestore
