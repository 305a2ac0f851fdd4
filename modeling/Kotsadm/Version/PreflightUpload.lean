import Kotsadm.Lib.Json
import Kotsadm.Version.CurrentVersion

/-!
# PreflightUpload — the results of the checks, as a client posts them

The body of the request is any JSON value; what is no list where the store expects one, or `null`
where it reads a property, behaves as JavaScript has it.  `KotsAppStore.addKotsPreflight` is the
same function for the bodies that preflight itself posts.
-/

namespace Kotsadm.PreflightUpload

open KotsAppStore

variable {ν : Type} [JsonNumber ν]

/-! ## The store -/

/-- The loop over the checks. -/
def resultState : String → List (Json ν) → Except String String
  | state, [] => .ok state
  | state, check :: checks =>
    match check.get "isWarn", check.get "isFail" with
    | .error e, _ => .error e
    | .ok isWarn, isFail =>
      if Json.truthy isWarn then resultState "warn" checks
      else
        match isFail with
        | .error e => .error e
        | .ok isFail => if Json.truthy isFail then .ok "fail" else resultState state checks

def getPreflightResultState (preflightResults : Json ν) : Except String String :=
  match preflightResults.get "errors", preflightResults.get "results" with
  | .error e, _ => .error e
  | .ok errors, results =>
    if Json.size errors > 0 then .ok "fail"
    else
      match results with
      | .error e => .error e
      | .ok results =>
        if Json.size results = 0 then .ok "pass"
        else
          match Json.iterate "results" results with
          | .error e => .error e
          | .ok checks => resultState "pass" checks

/-- The `UPDATE`, for every cluster of the app. -/
def writeResult (db : Database) (appId : AppId) (sequence : Int) (preflightResult : Json ν)
    (now : Timestamp) : Database :=
  updateVersions db appId sequence (fun r => { r with
    preflightResult := some (String.ofList preflightResult.stringify)
    preflightResultCreatedAt := some now
    status := statusAfterResult r.status }) fun _ => rfl

def addKotsPreflight (db : Database) (appId : AppId) (_clusterId : ClusterId) (sequence : Int)
    (preflightResult : Json ν) (now : Timestamp) : Database × Except String Unit :=
  let db := writeResult db appId sequence preflightResult now
  -- Always deploy sequence 0 if preflight checks pass
  if sequence = 0 then
    match Json.parse preflightResult.stringify with
    | none => (db, .error "Unexpected token in JSON")
    | some (results : Json ν) =>
      match getPreflightResultState results with
      | .error e => (db, .error e)
      | .ok preflightState =>
        if preflightState = "pass" then (deployVersion db appId sequence now, .ok ())
        else (db, .ok ())
  else (db, .ok ())

/-- `parseInt(text, 10)`, of a text without leading spaces; `none` is `NaN`. -/
def parseInt (text : String) : Option Int :=
  let digits (cs : List Char) : Option Nat :=
    match cs.takeWhile Char.isDigit with
    | [] => none
    | ds => some (ds.foldl (fun n c => 10 * n + (c.toNat - '0'.toNat)) 0)
  match text.toList with
  | '-' :: cs => (digits cs).map fun n => -(n : Int)
  | '+' :: cs => (digits cs).map Int.ofNat
  | cs => (digits cs).map Int.ofNat

/-- `putPreflightStatus`, with the ids that the two slugs stand for.  The responses with status 400
do not end it. -/
def putPreflightStatus (db : Database) (appId : Except String AppId)
    (clusterId : Except String ClusterId) (sequence : String) (body : Json ν) (now : Timestamp) :
    Database × Except String Unit :=
  match appId, clusterId, parseInt sequence with
  | .error e, _, _ => (db, .error e)
  | .ok _, .error e, _ => (db, .error e)
  | .ok _, .ok _, none => (db, .error "invalid input syntax for integer: \"NaN\"")
  | .ok appId, .ok clusterId, some seqInt => addKotsPreflight db appId clusterId seqInt body now

/-! ## What passes -/

/-- The check is no warning and no failure. -/
def CheckPasses (check : Json ν) : Prop :=
  ∃ isWarn isFail, check.get "isWarn" = .ok isWarn ∧ check.get "isFail" = .ok isFail ∧
    Json.truthy isWarn = false ∧ Json.truthy isFail = false

/-- The result contains no error and no check that is a warning or a failure. -/
def Passes (body : Json ν) : Prop :=
  ∃ errors results, body.get "errors" = .ok errors ∧ body.get "results" = .ok results ∧
    Json.size errors = 0 ∧
    (Json.size results = 0 ∨
      ∃ checks, Json.iterate "results" results = .ok checks ∧ ∀ check ∈ checks, CheckPasses check)

/-- After a warning the state is never `pass` again. -/
theorem resultState_warn (checks : List (Json ν)) : resultState "warn" checks ≠ .ok "pass" := by
  induction checks with
  | nil =>
    unfold resultState
    decide
  | cons check checks ih =>
    unfold resultState
    split
    next => intro h; cases h
    next =>
      split
      next => exact ih
      next =>
        split
        next => intro h; cases h
        next =>
          split
          next => decide
          next => exact ih

theorem resultState_eq_pass (checks : List (Json ν)) :
    resultState "pass" checks = .ok "pass" ↔ ∀ check ∈ checks, CheckPasses check := by
  induction checks with
  | nil => simp [resultState]
  | cons check checks ih =>
    rw [List.forall_mem_cons, ← ih, resultState]
    unfold CheckPasses
    cases hwarn : check.get "isWarn" with
    | error e => simp
    | ok isWarn =>
      cases htruthy : Json.truthy isWarn with
      | true => simp [htruthy, resultState_warn]
      | false =>
        cases hfail : check.get "isFail" with
        | error e => simp [htruthy]
        | ok isFail => cases hfailed : Json.truthy isFail <;> simp [htruthy, hfailed]

/-- The order of the checks does not matter. -/
theorem getPreflightResultState_eq_pass (body : Json ν) :
    getPreflightResultState body = .ok "pass" ↔ Passes body := by
  unfold getPreflightResultState Passes
  cases herrors : body.get "errors" with
  | error e => simp
  | ok errors =>
    cases hresults : body.get "results" with
    | error e => by_cases hsize : Json.size errors = 0 <;> simp [hsize, Nat.pos_iff_ne_zero]
    | ok results =>
      by_cases hsize : Json.size errors = 0
      · by_cases hempty : Json.size results = 0
        · simp [hsize, hempty]
        · cases hchecks : Json.iterate "results" results with
          | error e => simp [hsize, hempty, hchecks]
          | ok checks => simp [hsize, hempty, hchecks, resultState_eq_pass]
      · simp [hsize, Nat.pos_iff_ne_zero]

/-! ## The result that preflight posts -/

/-- The check of a body and the flags that the store reads. -/
def RepresentsCheck (check : Json ν) (result : CheckResult) : Prop :=
  ∃ isWarn isFail, check.get "isWarn" = .ok isWarn ∧ check.get "isFail" = .ok isFail ∧
    Json.truthy isWarn = result.isWarn ∧ Json.truthy isFail = result.isFail

/-- A body with a list of errors and a list of checks, as `UploadPreflightResults` is written. -/
structure Represents (body : Json ν) (result : PreflightResult) : Prop where
  json : String.ofList body.stringify = result.json
  errors : ∃ errors, body.get "errors" = .ok errors ∧ Json.size errors = result.errors
  results : ∃ checks, body.get "results" = .ok (some (.arr checks)) ∧
    List.Forall₂ RepresentsCheck checks result.results

theorem resultState_represents {checks : List (Json ν)} {results : List CheckResult}
    (h : List.Forall₂ RepresentsCheck checks results) (state : String) :
    resultState state checks = .ok (KotsAppStore.resultState state results) := by
  induction h generalizing state with
  | nil => rfl
  | cons hcheck _ ih =>
    obtain ⟨isWarn, isFail, hwarn, hfail, hisWarn, hisFail⟩ := hcheck
    rw [resultState, KotsAppStore.resultState, hwarn, hfail]
    simp only [hisWarn, hisFail, ih]
    split
    next => rfl
    next => split <;> rfl

theorem getPreflightResultState_represents {body : Json ν} {result : PreflightResult}
    (h : Represents body result) :
    getPreflightResultState body = .ok (KotsAppStore.getPreflightResultState result) := by
  obtain ⟨errors, herrors, hsize⟩ := h.errors
  obtain ⟨checks, hresults, hchecks⟩ := h.results
  unfold getPreflightResultState KotsAppStore.getPreflightResultState
  rw [herrors, hresults]
  simp only [hsize]
  split
  next => rfl
  next =>
    rw [← resultState_represents hchecks "pass"]
    cases checks with
    | nil => rfl
    | cons check checks => rfl

/-- For these bodies the store does what `KotsAppStore.addKotsPreflight` does. -/
theorem addKotsPreflight_represents {body : Json ν} {result : PreflightResult}
    (h : Represents body result) (db : Database) (appId : AppId) (clusterId : ClusterId)
    (sequence : Int) (now : Timestamp) :
    addKotsPreflight db appId clusterId sequence body now =
      (KotsAppStore.addKotsPreflight db appId clusterId sequence result now, .ok ()) := by
  unfold addKotsPreflight KotsAppStore.addKotsPreflight writeResult
  rw [Json.parse_stringify, h.json]
  simp only [getPreflightResultState_represents h]
  by_cases hzero : sequence = 0
  · by_cases hpass : KotsAppStore.getPreflightResultState result = "pass" <;> simp [hzero, hpass]
  · simp [hzero]

/-! ## What is deployed afterwards -/

@[simp] theorem deployedSequence_writeResult (db : Database) (appId : AppId) (sequence : Int)
    (body : Json ν) (now : Timestamp) (appId' : AppId) (clusterId : ClusterId) :
    deployedSequence (writeResult db appId sequence body now) appId' clusterId =
      deployedSequence db appId' clusterId := rfl

theorem db_addKotsPreflight (db : Database) (appId : AppId) (clusterId : ClusterId)
    (sequence : Int) (body : Json ν) (now : Timestamp) :
    (addKotsPreflight db appId clusterId sequence body now).1 =
      if sequence = 0 ∧ getPreflightResultState body = .ok "pass" then
        deployVersion (writeResult db appId sequence body now) appId sequence now
      else writeResult db appId sequence body now := by
  unfold addKotsPreflight
  rw [Json.parse_stringify]
  dsimp only
  by_cases hzero : sequence = 0
  · rw [if_pos hzero]
    cases hstate : getPreflightResultState body with
    | error e => simp
    | ok state => by_cases hpass : state = "pass" <;> simp [hzero, hpass]
  · simp [hzero]

/-- The first version is deployed to every cluster of the app when its result passes, whatever
version they run; nothing else changes what is deployed. -/
theorem deployedSequence_addKotsPreflight (db : Database) (appId : AppId) (clusterId : ClusterId)
    (sequence : Int) (body : Json ν) (now : Timestamp) :
    (∀ appId' clusterId',
      deployedSequence (addKotsPreflight db appId clusterId sequence body now).1 appId' clusterId' ≠
          deployedSequence db appId' clusterId' →
        appId' = appId ∧ sequence = 0 ∧ Passes body) ∧
    (sequence = 0 → Passes body → ∀ d ∈ db.appDownstream.rows, d.appId = appId →
      deployedSequence (addKotsPreflight db appId clusterId sequence body now).1 appId d.clusterId =
        some 0) := by
  have hstate := getPreflightResultState_eq_pass body
  rw [db_addKotsPreflight]
  by_cases hpass : sequence = 0 ∧ getPreflightResultState body = .ok "pass"
  · rw [if_pos hpass]
    refine ⟨?_, ?_⟩
    · intro appId' clusterId' hchanged
      refine ⟨?_, hpass.1, hstate.mp hpass.2⟩
      by_contra happ
      rw [deployedSequence_deployVersion, if_neg happ] at hchanged
      exact hchanged rfl
    · intro hzero _ d hd happ
      have hrow : db.appDownstream.find? (appId, d.clusterId) = some d :=
        happ ▸ Keyed.find?_isSome_of_mem hd
      rw [deployedSequence_deployVersion, if_pos rfl, hzero]
      exact congrArg (Option.map fun _ => (0 : Int)) hrow
  · rw [if_neg hpass]
    refine ⟨?_, ?_⟩
    · intro appId' clusterId' hchanged
      exact absurd rfl hchanged
    · intro hzero hpasses
      exact absurd ⟨hzero, hstate.mpr hpasses⟩ hpass

/-! ## Runs -/

inductive Action (ν : Type) where
  | other (a : CurrentVersion.Action)
  | putPreflightStatus (appId : AppId) (clusterId : ClusterId) (sequence : String) (body : Json ν)
      (now : Timestamp)

def machine : Machine Server (Action ν) where
  step s
    | .other a => CurrentVersion.machine.step s a
    | .putPreflightStatus appId clusterId sequence body now =>
      some { s with
        db := (putPreflightStatus s.db (.ok appId) (.ok clusterId) sequence body now).1 }

/-- What an upload may deploy: the first version, by a result that passes, where no downstream of
the app runs a later one. -/
def NeverRollsBack (s : Server) : Action ν → Server → Prop
  | .other _, _ => True
  | .putPreflightStatus appId _ sequence body _, s' => ∀ appId' clusterId',
      deployedSequence s'.db appId' clusterId' ≠ deployedSequence s.db appId' clusterId' →
        parseInt sequence = some 0 ∧ Passes body ∧
          ∀ d ∈ s.db.appDownstream.rows, d.appId = appId → ∀ n, d.currentSequence = some n → n ≤ 0

/-- Two versions, of which the second one is deployed. -/
def secondDeployed : List (Action Empty) :=
  [.other (.createDownstream "app" "App" "c1"),
   .other (.createDownstreamVersion "app" 0 "c1" 1 { status := "pending_preflight" }),
   .other (.createDownstreamVersion "app" 1 "c1" 2 { status := "pending_preflight" }),
   .putPreflightStatus "app" "c1" "0" (.obj []) 3, .other (.deployVersion "app" 1 4)]

theorem run_secondDeployed :
    ((machine.run {} secondDeployed).map fun s => deployedSequence s.db "app" "c1") =
      some (some 1) := by
  decide +kernel

/-- The checks of the first version run again, and pass. -/
def firstAgain : Action Empty := .putPreflightStatus "app" "c1" "0" (.obj [("results", .arr [])]) 5

theorem run_firstAgain :
    ((machine.run {} (secondDeployed ++ [firstAgain])).map
      fun s => deployedSequence s.db "app" "c1") = some (some 0) := by
  decide +kernel

/-- The second version is taken back by a result of the first one without errors and checks. -/
theorem deployedSequence_again : ∃ s, machine.run {} secondDeployed = some s ∧
    deployedSequence s.db "app" "c1" = some 1 ∧
    deployedSequence (addKotsPreflight s.db "app" "c1" 0 (.obj [] : Json Empty) 5).1 "app" "c1" =
      some 0 := by
  obtain ⟨s, hrun, hs⟩ := Option.map_eq_some_iff.mp run_secondDeployed
  have hpasses : Passes (.obj [] : Json Empty) := ⟨none, none, rfl, rfl, rfl, .inl rfl⟩
  have hdeploys := (deployedSequence_addKotsPreflight s.db "app" "c1" 0 (.obj []) 5).2 rfl hpasses
  have hbind : (s.db.appDownstream.find? ("app", "c1")).bind (·.currentSequence) = some 1 := hs
  obtain ⟨d, hd, _⟩ := Option.bind_eq_some_iff.mp hbind
  obtain ⟨hmem, hkey⟩ := Keyed.find?_eq_some.mp hd
  have hcluster : d.clusterId = "c1" := congrArg Prod.snd hkey
  refine ⟨s, hrun, hs, ?_⟩
  rw [← hcluster]
  exact hdeploys d hmem (congrArg Prod.fst hkey)

theorem not_neverRollsBack :
    ¬ (machine (ν := Empty)).EveryStep (· = {}) Machine.Free NeverRollsBack := by
  obtain ⟨s, hrun, hs⟩ := Option.map_eq_some_iff.mp run_secondDeployed
  obtain ⟨s', hrun', hs'⟩ := Option.map_eq_some_iff.mp run_firstAgain
  have hstep : machine.step s firstAgain = some s' := by
    rw [Machine.run_append, hrun] at hrun'
    simpa using hrun'
  refine Machine.not_everyStep rfl secondDeployed hrun hstep ?_
  intro hkept
  have hchanged : deployedSequence s'.db "app" "c1" ≠ deployedSequence s.db "app" "c1" := by
    rw [hs, hs']
    decide
  have hlater := (hkept "app" "c1" hchanged).2.2
  -- the downstream runs version 1
  unfold deployedSequence at hs
  rw [Option.bind_eq_some_iff] at hs
  obtain ⟨d, hd, hcurrent⟩ := hs
  obtain ⟨hmem, hkey⟩ := Keyed.find?_eq_some.mp hd
  exact absurd (hlater d hmem (congrArg Prod.fst hkey) 1 hcurrent) (by decide)

end Kotsadm.PreflightUpload
