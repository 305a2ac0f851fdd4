import Kotsadm.Flows.Request
import Kotsadm.Version.FirstVersion

/-!
# ConfigSteps — the steps of a config change

`updateAppConfig` writes nothing until the archive is rendered.  Then it stores a version, resets the
status of the version and calls `preflight.Run`.
-/

namespace Kotsadm.Flows

open Version Body

/-! ## The steps before the version is stored -/

/-- What `mergeConfigValues` returns, if it returns. -/
def mergedValues (env : ConfigEnv) (encryptionKey : String) :
    List ConfigItem → Option (String → Option ConfigValue) →
      Option (Option (String → Option ConfigValue))
  | [], values => some values
  | item :: items, values =>
    match submittedValue env encryptionKey item, values with
    | .ok value, some values =>
      mergedValues env encryptionKey items (some (setConfigValue values item.name value))
    | _, _ => none

/-- The request passes every step before the version is stored. -/
def ReachesStore (env : ConfigEnv) (a : App) (sequence : Int) (request : UpdateAppConfigRequest)
    (isPrimaryVersion : Bool) (s : Server) : Prop :=
  ∃ unit, getAppVersionArchive env.downloadArchive s.archives a.id sequence = .ok unit ∧
  ∃ kinds, env.loadKotsKinds = .ok kinds ∧
  ¬ (requiredItems request ≠ [] ∧ isPrimaryVersion) ∧
  ∃ configValues, kinds.configValues = some configValues ∧
  ∃ values, mergedValues env kinds.encryptionKey request.configGroups.flatten configValues.values =
    some values ∧
  ∃ text, env.marshalConfigValues { values } = .ok text ∧
  ∃ unit, env.writeConfigValues text = .ok unit ∧
  ∃ settings, getRegistrySettingsForApp env.getRegistrySettings s.db a.id = .ok settings ∧
  ∃ unit, env.renderDir settings = .ok unit ∧ True

/-- From the stored version up to `preflight.Run`: the sequence of the version. -/
def storeAndReset (env : ConfigEnv) (a : App) (sequence : Int) (request : UpdateAppConfigRequest) :
    Body ConfigRun Int := do
  let sequence ← storeConfig env a sequence request.createNewVersion
  orRespond "failed to set downstream status to 'pending preflight'"
    (setDownstreamVersionPendingPreflight env.setPendingPreflight a.id sequence)
  return sequence

def startChecks (env : ConfigEnv) (a : App) (sequence : Int) : Body ConfigRun Unit := do
  orReturnErr (responding GoError.cause (runPreflight env.preflight a.id sequence))
  respond { success := true }

/-! ## Steps that may end a body -/

/-- The body ended without a write and without a success. -/
def Stopped {α : Type} (f : Frame ConfigRun) (ending : Except Abort α × Frame ConfigRun) : Prop :=
  ending.2.state.server = f.state.server ∧ ending.2.state.response.success = false

/-- The first body runs as the second one when `P` holds, and stops otherwise. -/
def Decides {α : Type} (f : Frame ConfigRun) (P : Prop) (m m' : Body ConfigRun α) : Prop :=
  (P ∧ m.run f = m'.run f) ∨ (¬ P ∧ Stopped f (m.run f))

section Decides

variable {α β γ : Type} {f : Frame ConfigRun} {k : α → Body ConfigRun β} {m' : Body ConfigRun β}

theorem run_orRespond_bind (text : String) (call : Server → Except GoError α × Server)
    (k : α → Body ConfigRun β) (f : Frame ConfigRun) :
    (orRespond text call >>= k).run f =
      match call f.state.server with
      | (.ok a, s) => (k a).run { f with state := { f.state with server := s } }
      | (.error e, s) => (.error (.error e), { f with
          state := { server := s, response := { f.state.response with error := text } } }) := by
  rw [run_bind]
  unfold orRespond orReturnErr responding
  dsimp only
  rcases call f.state.server with ⟨e | a, s⟩ <;> rfl

theorem decides_of_run {m m' : Body ConfigRun α} (h : m.run f = m'.run f) :
    Decides f True m m' :=
  .inl ⟨trivial, h⟩

/-- A call that leaves the server alone. -/
theorem decides_orRespond {text : String} {call : Server → Except GoError α × Server}
    {x : Except GoError α} {P : α → Prop} (hf : f.state.response.success = false)
    (hcall : call f.state.server = (x, f.state.server))
    (hk : ∀ a, Decides f (P a) (k a) m') :
    Decides f (∃ a, x = .ok a ∧ P a) (orRespond text call >>= k) m' := by
  have hrun := run_orRespond_bind text call k f
  rw [hcall] at hrun
  cases x with
  | error e =>
    right
    rw [hrun]
    exact ⟨fun h => (by obtain ⟨a, ha, -⟩ := h; cases ha), rfl, hf⟩
  | ok a =>
    dsimp only at hrun
    rcases hk a with ⟨hP, hsame⟩ | ⟨hP, hstopped⟩
    · left
      exact ⟨⟨a, rfl, hP⟩, hrun.trans hsame⟩
    · right
      refine ⟨?_, ?_⟩
      · rintro ⟨a', ha', hP'⟩
        cases ha'
        exact hP hP'
      · rw [hrun]
        exact hstopped

/-- The merge of the values either returns or stops. -/
theorem run_mergeConfigValues (env : ConfigEnv) (encryptionKey : String) (items : List ConfigItem)
    (values : Option (String → Option ConfigValue)) (hf : f.state.response.success = false) :
    match mergedValues env encryptionKey items values with
    | some values' =>
      (mergeConfigValues env encryptionKey items values).run f = (.ok values', f)
    | none => ∃ e, ((mergeConfigValues env encryptionKey items values).run f).1 = .error e ∧
        Stopped f ((mergeConfigValues env encryptionKey items values).run f) := by
  induction items generalizing values with
  | nil => rfl
  | cons item items ih =>
    unfold mergedValues mergeConfigValues
    rw [run_orRespond_bind]
    unfold outcome
    cases submittedValue env encryptionKey item with
    | error e => exact ⟨.error e, rfl, rfl, hf⟩
    | ok value =>
      dsimp only
      rw [run_bind]
      cases values with
      | none => exact ⟨.panic, rfl, rfl, hf⟩
      | some values => exact ih (some (setConfigValue values item.name value))

theorem decides_mergeConfigValues {env : ConfigEnv} {encryptionKey : String}
    {items : List ConfigItem} {values : Option (String → Option ConfigValue)}
    {k : Option (String → Option ConfigValue) → Body ConfigRun β}
    {P : Option (String → Option ConfigValue) → Prop} (hf : f.state.response.success = false)
    (hk : ∀ values', Decides f (P values') (k values') m') :
    Decides f (∃ values', mergedValues env encryptionKey items values = some values' ∧ P values')
      (mergeConfigValues env encryptionKey items values >>= k) m' := by
  have hmerge := run_mergeConfigValues env encryptionKey items values hf
  unfold Decides
  rw [run_bind]
  cases hvalues : mergedValues env encryptionKey items values with
  | none =>
    rw [hvalues] at hmerge
    obtain ⟨e, hend, hstopped⟩ := hmerge
    right
    refine ⟨fun h => (by obtain ⟨values', h', -⟩ := h; cases h'), ?_⟩
    generalize (mergeConfigValues env encryptionKey items values).run f = ending at hend hstopped ⊢
    obtain ⟨result, f'⟩ := ending
    cases hend
    exact hstopped
  | some values' =>
    rw [hvalues] at hmerge
    dsimp only at hmerge
    rw [hmerge]
    rcases hk values' with ⟨hP, hsame⟩ | ⟨hP, hstopped⟩
    · exact .inl ⟨⟨values', rfl, hP⟩, hsame⟩
    · right
      refine ⟨?_, hstopped⟩
      rintro ⟨values'', heq, hP'⟩
      cases heq
      exact hP hP'

end Decides

/-! ## updateAppConfig -/

section Steps

variable {env : ConfigEnv} {a : App} {sequence : Int} {request : UpdateAppConfigRequest}
  {isPrimaryVersion : Bool} {f : Frame ConfigRun}

/-- The last steps of `applyConfig`, split at the call of `preflight.Run`. -/
theorem run_storeAndReset_startChecks (env : ConfigEnv) (a : App) (sequence : Int)
    (request : UpdateAppConfigRequest) (f : Frame ConfigRun) :
    (do
      let sequence ← storeConfig env a sequence request.createNewVersion
      orRespond "failed to set downstream status to 'pending preflight'"
        (setDownstreamVersionPendingPreflight env.setPendingPreflight a.id sequence)
      orReturnErr (responding GoError.cause (runPreflight env.preflight a.id sequence))
      respond { success := true } : Body ConfigRun Unit).run f =
      (storeAndReset env a sequence request >>= startChecks env a).run f := by
  unfold storeAndReset
  simp only [run_bind]
  rcases (storeConfig env a sequence request.createNewVersion).run f with ⟨e | n, f'⟩
  · rfl
  · dsimp only
    rcases (orRespond "failed to set downstream status to 'pending preflight'"
      (setDownstreamVersionPendingPreflight env.setPendingPreflight a.id n)).run f' with ⟨e | _, f''⟩
    · rfl
    · rfl

theorem decides_applyConfig (env : ConfigEnv) (a : App) (sequence : Int)
    (request : UpdateAppConfigRequest) (hf : f.state.response.success = false) (kinds : KotsKinds) :
    Decides f
      (∃ configValues, kinds.configValues = some configValues ∧
        ∃ values, mergedValues env kinds.encryptionKey request.configGroups.flatten
          configValues.values = some values ∧
        ∃ text, env.marshalConfigValues { values } = .ok text ∧
        ∃ unit, env.writeConfigValues text = .ok unit ∧
        ∃ settings, getRegistrySettingsForApp env.getRegistrySettings f.state.server.db a.id =
          .ok settings ∧
        ∃ unit, env.renderDir settings = .ok unit ∧ True)
      (applyConfig env a sequence request kinds)
      (storeAndReset env a sequence request >>= startChecks env a) := by
  have hrest : ∀ values, Decides f
      (∃ values', mergedValues env kinds.encryptionKey request.configGroups.flatten values =
          some values' ∧
        ∃ text, env.marshalConfigValues { values := values' } = .ok text ∧
        ∃ unit, env.writeConfigValues text = .ok unit ∧
        ∃ settings, getRegistrySettingsForApp env.getRegistrySettings f.state.server.db a.id =
          .ok settings ∧
        ∃ unit, env.renderDir settings = .ok unit ∧ True)
      (do
        let values ← mergeConfigValues env kinds.encryptionKey request.configGroups.flatten values
        let configValues ← orRespond "failed to marshal config values spec"
          (outcome (env.marshalConfigValues { values }))
        orRespond "failed to write config.yaml to upstream/userdata"
          (outcome (env.writeConfigValues configValues))
        let settings ← orRespond "failed to get registry settings" (fun s =>
          (getRegistrySettingsForApp env.getRegistrySettings s.db a.id, s))
        orRespond "failed to render archive directory" (outcome (env.renderDir settings))
        let sequence ← storeConfig env a sequence request.createNewVersion
        orRespond "failed to set downstream status to 'pending preflight'"
          (setDownstreamVersionPendingPreflight env.setPendingPreflight a.id sequence)
        orReturnErr (responding GoError.cause (runPreflight env.preflight a.id sequence))
        respond { success := true })
      (storeAndReset env a sequence request >>= startChecks env a) := by
    intro values
    refine decides_mergeConfigValues hf fun values' => ?_
    refine decides_orRespond hf rfl fun text => ?_
    refine decides_orRespond hf rfl fun _ => ?_
    refine decides_orRespond hf rfl fun settings => ?_
    refine decides_orRespond hf rfl fun _ => ?_
    exact decides_of_run (run_storeAndReset_startChecks env a sequence request f)
  unfold applyConfig specValues
  cases hvalues : kinds.configValues with
  | none =>
    right
    exact ⟨fun h => (by obtain ⟨configValues, h, -⟩ := h; cases h), rfl, hf⟩
  | some configValues =>
    rcases hrest configValues.values with ⟨hP, hsame⟩ | ⟨hP, hstopped⟩
    · exact .inl ⟨⟨configValues, rfl, hP⟩, hsame⟩
    · right
      refine ⟨?_, hstopped⟩
      rintro ⟨configValues', heq, hP'⟩
      cases heq
      exact hP hP'

/-- A request that passes the steps before it stores the version, stores it; any other request
stops. -/
theorem decides_updateAppConfig (env : ConfigEnv) (a : App) (sequence : Int)
    (request : UpdateAppConfigRequest) (isPrimaryVersion : Bool)
    (hf : f.state.response.success = false) :
    Decides f (ReachesStore env a sequence request isPrimaryVersion f.state.server)
      (updateAppConfig env a sequence request isPrimaryVersion)
      (storeAndReset env a sequence request >>= startChecks env a) := by
  unfold updateAppConfig ReachesStore
  refine decides_orRespond hf rfl fun _ => ?_
  refine decides_orRespond hf rfl fun kinds => ?_
  dsimp only
  by_cases hrequired : requiredItems request ≠ [] ∧ isPrimaryVersion
  · rw [if_pos hrequired]
    right
    exact ⟨fun h => h.1 hrequired, rfl, rfl⟩
  · rw [if_neg hrequired]
    rcases decides_applyConfig env a sequence request hf kinds with ⟨hP, hsame⟩ | ⟨hP, hstopped⟩
    · exact .inl ⟨⟨hrequired, hP⟩, hsame⟩
    · exact .inr ⟨fun h => hP h.2, hstopped⟩

/-! ## The stored version -/

/-- The version that a prepared request stores, and the database with it. -/
def storedVersion (env : ConfigEnv) (a : App) (sequence : Int) (createNewVersion : Bool)
    (s : Server) : Option (Int × Database) :=
  if createNewVersion then
    match createVersion env.version a.id "archiveDir" "Config Change" (some a.currentSequence) s with
    | (.ok newSequence, s') => some (newSequence, s'.db)
    | (.error _, _) => none
  else
    match updateConfigValuesInDB env.renderedConfigValues env.updateConfigValues a.id sequence s with
    | (.ok _, s') => some (sequence, s'.db)
    | (.error _, _) => none

/-- The steps between the stored version and `preflight.Run` succeed. -/
def Resets (env : ConfigEnv) : Prop := env.archive.isOk ∧ env.setPendingPreflight = .ok ()

theorem createVersion_error {env : VersionEnv} {appId : AppId} {filesInDir source : String}
    {currentSequence : Option Int} {s s' : Server} {e : GoError}
    (h : createVersion env appId filesInDir source currentSequence s = (.error e, s')) : s' = s := by
  unfold createVersion at h
  split at h
  next =>
    cases h
    rfl
  next => cases h

theorem updateConfigValuesInDB_error {rendered : Except GoError String} {x : Except GoError Unit}
    {appId : AppId} {s s' : Server} {e : GoError}
    (h : updateConfigValuesInDB rendered x appId sequence s = (.error e, s')) : s' = s := by
  unfold updateConfigValuesInDB at h
  split at h
  next =>
    cases h
    rfl
  next =>
    cases h
    rfl
  next => cases h

/-- A call of the store that fails leaves the server alone; after one that succeeds the archive
follows. -/
theorem run_storeConfig (env : ConfigEnv) (a : App) (sequence : Int) (createNewVersion : Bool)
    (f : Frame ConfigRun) (hf : f.state.response.success = false) :
    match storedVersion env a sequence createNewVersion f.state.server, env.archive with
    | none, _ => ∃ e, ((storeConfig env a sequence createNewVersion).run f).1 = .error e ∧
        Stopped f ((storeConfig env a sequence createNewVersion).run f)
    | some (_, db), .error _ =>
      ∃ e, ((storeConfig env a sequence createNewVersion).run f).1 = .error e ∧
        ((storeConfig env a sequence createNewVersion).run f).2.state.server.db = db ∧
        ((storeConfig env a sequence createNewVersion).run f).2.state.response.success = false
    | some (n, db), .ok _ => ∃ archives, (storeConfig env a sequence createNewVersion).run f =
        (.ok n, { f with state := { f.state with server := { db, archives } } }) := by
  unfold storedVersion storeConfig
  cases createNewVersion with
  | true =>
    rw [if_pos rfl, if_pos rfl, run_orRespond_bind]
    cases hcreate : createVersion env.version a.id "archiveDir" "Config Change"
        (some a.currentSequence) f.state.server with
    | mk result s' =>
      cases result with
      | error e => exact ⟨.error e, rfl, createVersion_error hcreate, hf⟩
      | ok n =>
        dsimp only
        rw [run_orRespond_bind]
        unfold createAppVersionArchive
        cases env.archive with
        | error e => exact ⟨.error e, rfl, rfl, hf⟩
        | ok archive => exact ⟨_, rfl⟩
  | false =>
    rw [if_neg Bool.false_ne_true, if_neg Bool.false_ne_true, run_orRespond_bind]
    cases hupdate : updateConfigValuesInDB env.renderedConfigValues env.updateConfigValues a.id
        sequence f.state.server with
    | mk result s' =>
      cases result with
      | error e => exact ⟨.error e, rfl, updateConfigValuesInDB_error hupdate, hf⟩
      | ok _ =>
        dsimp only
        rw [run_orRespond_bind]
        unfold createAppVersionArchive
        cases env.archive with
        | error e => exact ⟨.error e, rfl, rfl, hf⟩
        | ok archive => exact ⟨_, rfl⟩

/-- The server at the call of `preflight.Run`, if the request gets there. -/
theorem run_storeAndReset (env : ConfigEnv) (a : App) (sequence : Int)
    (request : UpdateAppConfigRequest) (f : Frame ConfigRun)
    (hf : f.state.response.success = false) :
    match storedVersion env a sequence request.createNewVersion f.state.server with
    | none => ∃ e, ((storeAndReset env a sequence request).run f).1 = .error e ∧
        Stopped f ((storeAndReset env a sequence request).run f)
    | some (n, db) =>
      (Resets env ∧ ∃ archives, (storeAndReset env a sequence request).run f =
        (.ok n, { f with state := { f.state with
          server := { db := setDownstreamVersionStatus db a.id n "pending_preflight", archives } } })) ∨
      (¬ Resets env ∧ ∃ e, ((storeAndReset env a sequence request).run f).1 = .error e ∧
        ((storeAndReset env a sequence request).run f).2.state.server.db = db ∧
        ((storeAndReset env a sequence request).run f).2.state.response.success = false) := by
  have hstore := run_storeConfig env a sequence request.createNewVersion f hf
  unfold storeAndReset Resets
  rw [run_bind]
  cases hstored : storedVersion env a sequence request.createNewVersion f.state.server with
  | none =>
    rw [hstored] at hstore
    obtain ⟨e, hend, hstopped⟩ := hstore
    refine ⟨e, ?_⟩
    generalize (storeConfig env a sequence request.createNewVersion).run f = ending at hend hstopped ⊢
    obtain ⟨result, f'⟩ := ending
    cases hend
    exact ⟨rfl, hstopped⟩
  | some stored =>
    obtain ⟨n, db⟩ := stored
    rw [hstored] at hstore
    cases harchive : env.archive with
    | error e₀ =>
      rw [harchive] at hstore
      obtain ⟨e, hend, hdb, hsuccess⟩ := hstore
      right
      refine ⟨fun h => (by cases h.1), e, ?_⟩
      generalize (storeConfig env a sequence request.createNewVersion).run f = ending
        at hend hdb hsuccess ⊢
      obtain ⟨result, f'⟩ := ending
      cases hend
      exact ⟨rfl, hdb, hsuccess⟩
    | ok archive =>
      rw [harchive] at hstore
      obtain ⟨archives, hrun⟩ := hstore
      rw [hrun]
      dsimp only
      rw [run_orRespond_bind]
      unfold setDownstreamVersionPendingPreflight
      cases env.setPendingPreflight with
      | error e => exact .inr ⟨fun h => (by cases h.2), .error _, rfl, rfl, hf⟩
      | ok _ => exact .inl ⟨⟨rfl, rfl⟩, archives, rfl⟩

theorem run_startChecks (env : ConfigEnv) (a : App) (n : Int) (f : Frame ConfigRun)
    (hf : f.state.response.success = false) :
    ((startChecks env a n).run f).2.state.server =
        (runPreflight env.preflight a.id n f.state.server).2 ∧
      (((startChecks env a n).run f).2.state.response.success = true ↔
        (runPreflight env.preflight a.id n f.state.server).1.isOk) := by
  unfold startChecks
  rw [run_bind]
  unfold orReturnErr responding
  dsimp only
  rcases runPreflight env.preflight a.id n f.state.server with ⟨e | _, s⟩
  · exact ⟨rfl, by simp [hf, Except.isOk, Except.toBool]⟩
  · exact ⟨rfl, iff_of_true rfl rfl⟩

/-- The call stores nothing, or stores a version and then stops, or gets to `preflight.Run`. -/
theorem updateAppConfig_cases (env : ConfigEnv) (a : App) (sequence : Int)
    (request : UpdateAppConfigRequest) (isPrimaryVersion : Bool) (s : Server) :
    let r := (runRequest (updateAppConfig env a sequence request isPrimaryVersion)
      { server := s }).2
    ((¬ ReachesStore env a sequence request isPrimaryVersion s ∨
        storedVersion env a sequence request.createNewVersion s = none) ∧
      r.server = s ∧ r.response.success = false) ∨
    ReachesStore env a sequence request isPrimaryVersion s ∧
      ∃ n db, storedVersion env a sequence request.createNewVersion s = some (n, db) ∧
        ((¬ Resets env ∧ r.server.db = db ∧ r.response.success = false) ∨
        Resets env ∧ ∃ archives,
          let s₁ : Server := { db := setDownstreamVersionStatus db a.id n "pending_preflight", archives }
          (storeAndReset env a sequence request).run ⟨{ server := s }, none⟩ =
            (.ok n, ⟨{ server := s₁ }, none⟩) ∧
          r.server = (runPreflight env.preflight a.id n s₁).2 ∧
          (r.response.success = true ↔ (runPreflight env.preflight a.id n s₁).1.isOk)) := by
  intro r
  have hr : r = ((updateAppConfig env a sequence request isPrimaryVersion).run
    ⟨{ server := s }, none⟩).2.state := rfl
  clear_value r
  rcases decides_updateAppConfig (f := ⟨{ server := s }, none⟩) env a sequence request
    isPrimaryVersion rfl with
    ⟨hreaches, hrun⟩ | ⟨hreaches, hserver, hsuccess⟩
  · have hstore := run_storeAndReset env a sequence request ⟨{ server := s }, none⟩ rfl
    rw [hrun, run_bind] at hr
    dsimp only at hreaches hstore
    cases hstored : storedVersion env a sequence request.createNewVersion s with
    | none =>
      rw [hstored] at hstore
      obtain ⟨e, hend, hserver, hsuccess⟩ := hstore
      left
      refine ⟨.inr rfl, ?_⟩
      generalize (storeAndReset env a sequence request).run ⟨{ server := s }, none⟩ = ending
        at hr hend hserver hsuccess
      obtain ⟨result, f'⟩ := ending
      cases hend
      rw [hr]
      exact ⟨hserver, hsuccess⟩
    | some stored =>
      obtain ⟨n, db⟩ := stored
      rw [hstored] at hstore
      refine .inr ⟨hreaches, n, db, rfl, ?_⟩
      rcases hstore with ⟨hresets, archives, hreset⟩ | ⟨hresets, e, hend, hdb, hsuccess⟩
      · refine .inr ⟨hresets, archives, hreset, ?_⟩
        rw [hreset] at hr
        rw [hr]
        exact run_startChecks env a n ⟨{ server := _ }, none⟩ rfl
      · left
        refine ⟨hresets, ?_⟩
        generalize (storeAndReset env a sequence request).run ⟨{ server := s }, none⟩ = ending
          at hr hend hdb hsuccess
        obtain ⟨result, f'⟩ := ending
        cases hend
        rw [hr]
        exact ⟨hdb, hsuccess⟩
  · rw [hr]
    exact .inl ⟨.inl hreaches, hserver, hsuccess⟩

end Steps

end Kotsadm.Flows
