import Kotsadm.Version.CreateVersion

/-!
# Preflight — `preflight.Run`

What happens between a new version and the start of its preflight checks.  The checks themselves
run in a goroutine of their own.
-/

namespace Kotsadm.Version

structure PreflightEnv where
  loadKotsKinds : Except GoError KotsKinds
  getStatus : Except GoError Unit := .ok ()
  setStatus : Except GoError Unit := .ok ()
  getIgnoreRBACErrors : Except GoError Bool := .ok false
  getRegistrySettings : Except GoError Unit := .ok ()
  renderFile : Option RegistrySettings → String → Except GoError String := fun _ spec => .ok spec
  loadPreflight : String → Except GoError Unit := fun _ => .ok ()

/-- From the status write to the start of the checks. -/
def startPreflight (env : PreflightEnv) (db : Database) (appId : AppId) (kinds : KotsKinds) :
    Except GoError Unit := do
  let _ ← env.getIgnoreRBACErrors.wrapError "failed to get ignore rbac flag"
  let spec ← (kinds.marshal .preflight).wrapError "failed to marshal rendered preflight"
  let settings ← (getRegistrySettingsForApp env.getRegistrySettings db appId).wrapError
    "failed to get registry settings for app"
  let rendered ← (env.renderFile settings spec).wrapError "failed to render preflights"
  (env.loadPreflight rendered).wrapError "failed to load rendered preflight"

/-- `preflight.Run` -/
def runPreflight (env : PreflightEnv) (appId : AppId) (sequence : Int) : Call Unit := fun s =>
  match env.loadKotsKinds, getDownstreamVersionStatus env.getStatus s.db appId sequence,
      env.setStatus with
  | .error e, _, _ => (.error (e.wrap "failed to load rendered kots kinds"), s)
  | .ok _, .error e, _ =>
    (.error (e.wrap s!"failed to check downstream version {sequence} status"), s)
  | .ok kinds, .ok status, setStatus =>
    -- preflights should not run until config is finished
    if status = "pending_config" then (.ok (), s)
    else if kinds.hasPreflight then
      match setStatus with
      | .error e =>
        (.error ((e.wrap "failed to set downstream version pending preflight").wrap
          s!"failed to set downstream version {sequence} pending preflight"), s)
      | .ok _ =>
        (startPreflight env s.db appId kinds,
          { s with db := setDownstreamVersionStatus s.db appId sequence "pending_preflight" })
    else
      match setStatus with
      | .error e =>
        (.error ((e.wrap "failed to set downstream version ready").wrap
          "failed to set downstream version ready"), s)
      | .ok _ => (.ok (), { s with db := setDownstreamVersionStatus s.db appId sequence "pending" })

/-- Only the status of the downstream versions may change. -/
theorem runPreflight_frame (env : PreflightEnv) (appId : AppId) (sequence : Int) (s : Server) :
    ∃ versions, (runPreflight env appId sequence s).2 =
      { s with db := { s.db with appDownstreamVersion := versions } } := by
  unfold runPreflight
  split
  next => exact ⟨s.db.appDownstreamVersion, rfl⟩
  next => exact ⟨s.db.appDownstreamVersion, rfl⟩
  next =>
    split
    next => exact ⟨s.db.appDownstreamVersion, rfl⟩
    next => split <;> split <;> exact ⟨_, rfl⟩

end Kotsadm.Version
