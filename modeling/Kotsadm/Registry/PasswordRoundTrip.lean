import Kotsadm.Registry.RegistryDetails

/-!
# PasswordRoundTrip — what becomes of the password of the registry

The password of an app is in two columns.  Each function of the two services is described by what
it does to them; from that follows which submissions keep the password.
-/

namespace Kotsadm.Registry

open Flows Body

/-- `registry_password` and `registry_password_enc`. -/
structure PasswordColumns where
  plain : Option String
  enc : Option String
  deriving DecidableEq, Repr

def columnsOf (row : AppRow) : PasswordColumns :=
  { plain := row.registryPassword, enc := row.registryPasswordEnc }

def passwordColumns (db : Database) (appId : AppId) : Option PasswordColumns :=
  (db.app.find? appId).map columnsOf

theorem find?_setApp (db : Database) (appId id : AppId) (set : AppRow → AppRow)
    (hset : ∀ r, (set r).id = r.id) :
    (setApp db id set hset).app.find? appId =
      if id = appId then (db.app.find? appId).map set else db.app.find? appId := by
  unfold setApp
  rw [Keyed.find?_updateWhere]
  cases hrow : db.app.find? appId with
  | none => split <;> rfl
  | some row =>
    have hid : row.id = appId := (Keyed.find?_eq_some.mp hrow).2
    rw [Option.map_some, Option.map_some]
    by_cases h : id = appId
    · rw [if_pos h, if_pos (by simp [hid, h])]
    · rw [if_neg h, if_neg (by simpa [hid] using fun heq => h heq.symm)]

/-- An UPDATE of the row of an app, by what it does to the columns. -/
theorem passwordColumns_setApp (db : Database) (appId id : AppId) (set : AppRow → AppRow)
    (hset : ∀ r, (set r).id = r.id) {f : PasswordColumns → PasswordColumns}
    (hf : ∀ r, columnsOf (set r) = f (columnsOf r)) :
    passwordColumns (setApp db id set hset) appId =
      if id = appId then (passwordColumns db appId).map f else passwordColumns db appId := by
  unfold passwordColumns
  rw [find?_setApp]
  split
  next => rw [Option.map_map, Option.map_map]; exact congrArg (Option.map · _) (funext hf)
  next => rfl

/-! ## What the API reads -/

/-- What `getAppRegistryDetails` returns as the password. -/
def apiReads (cipher : Cipher) (key : String) (columns : PasswordColumns) :
    Except String (Option String) :=
  if key = "" then .ok columns.plain
  else if hasText columns.plain then
    if hasText columns.enc then .ok columns.plain
    else (kotsEncryptString cipher key (columns.plain.getD "")).map fun _ => columns.plain
  else if hasText columns.enc then
    (kotsDecryptString cipher key (columns.enc.getD "")).map some
  else .ok columns.plain

/-- What the columns are after a call of `getAppRegistryDetails`. -/
def migrated (cipher : Cipher) (key : String) (columns : PasswordColumns) : PasswordColumns :=
  if key = "" then columns
  else if !hasText columns.plain then columns
  else if hasText columns.enc then columns
  else
    match kotsEncryptString cipher key (columns.plain.getD "") with
    | .error _ => columns
    | .ok enc => { plain := none, enc := some enc }

theorem hasText_none : hasText none = false := rfl

theorem getAppRegistryDetails_spec (cipher : Cipher) (key : String) {db : Database} {appId : AppId}
    {row : AppRow} (hrow : db.app.find? appId = some row) :
    (getAppRegistryDetails cipher key db appId false).1.map (·.registryPassword) =
        apiReads cipher key (columnsOf row) ∧
      ∀ mask, passwordColumns (getAppRegistryDetails cipher key db appId mask).2 appId =
        some (migrated cipher key (columnsOf row)) := by
  have hsame : passwordColumns db appId = some (columnsOf row) := by
    unfold passwordColumns
    rw [hrow]
    rfl
  unfold getAppRegistryDetails migrationEncryptRegistryCredentials decryptRegistryCredentials
    apiReads migrated
  rw [hrow]
  by_cases hkey : key = ""
  · simp [mapAppRegistryDetails, columnsOf, hkey, hsame, Except.map]
  by_cases hplain : hasText row.registryPassword <;> by_cases henc : hasText row.registryPasswordEnc
  · simp [mapAppRegistryDetails, columnsOf, hkey, hplain, henc, hsame, Except.map]
  · -- the migration, whose failure is what the API answers
    cases hcipher : kotsEncryptString cipher key (row.registryPassword.getD "") with
    | error e =>
      simp [mapAppRegistryDetails, columnsOf, hkey, hplain, henc, hsame, hcipher, Except.map]
    | ok enc =>
      simp [mapAppRegistryDetails, columnsOf, hkey, hplain, henc, hcipher, Except.map,
        passwordColumns, find?_setApp, hrow]
  · cases hdec : kotsDecryptString cipher key (row.registryPasswordEnc.getD "") <;>
      simp [mapAppRegistryDetails, columnsOf, hkey, hplain, henc, hsame, hdec, Except.map]
  · simp [mapAppRegistryDetails, columnsOf, hkey, hplain, henc, hsame, Except.map]

/-! ## The stored password -/

/-- The password as the two services read it: what the API returns, and what the Go code decrypts
when the app has registry settings. -/
structure StoredPassword where
  api : Except String String
  go : Except GoError String

def storedPassword (cipher : Cipher) (key : String) (db : Database) (appId : AppId) :
    Option StoredPassword :=
  (db.app.find? appId).map fun row =>
    { api := (getAppRegistryDetails cipher key db appId false).1.map (·.registryPassword.getD "")
      go := cipher.decrypt key (row.registryPasswordEnc.getD "") }

def storedOf (cipher : Cipher) (key : String) (columns : PasswordColumns) : StoredPassword where
  api := (apiReads cipher key columns).map (·.getD "")
  go := cipher.decrypt key (columns.enc.getD "")

/-- Only the two columns matter. -/
theorem storedPassword_eq (cipher : Cipher) (key : String) (db : Database) (appId : AppId) :
    storedPassword cipher key db appId = (passwordColumns db appId).map (storedOf cipher key) := by
  unfold storedPassword passwordColumns storedOf
  cases hrow : db.app.find? appId with
  | none => rfl
  | some row =>
    have hread := (getAppRegistryDetails_spec cipher key hrow).1
    rw [Option.map_some, Option.map_some, Option.map_some, ← hread]
    congr 2
    cases (getAppRegistryDetails cipher key db appId false).1 <;> rfl

theorem encrypt_ne_empty (cipher : Cipher) {key : String} (hkey : cipher.fromString key = .ok ())
    (text : String) : cipher.encrypt key text ≠ "" := by
  intro hempty
  have hdecrypt := cipher.decrypt_encrypt key text hkey
  rw [hempty] at hdecrypt
  exact cipher.decrypt_empty key text hdecrypt

/-! ## What the writes do to the columns -/

/-- A write of `UpdateRegistry` goes through. -/
def Writes (cipher : Cipher) (key : String) (outcome : Except GoError Unit) : Prop :=
  cipher.fromString key = .ok () ∧ outcome = .ok ()

theorem passwordColumns_updateRegistrySettings (cipher : Cipher) (key : String)
    {outcome : Except GoError Unit} (h : Writes cipher key outcome) (appId : AppId)
    (request : UpdateAppRegistryRequest) (s : Server) :
    (updateRegistrySettings cipher key outcome appId request s).1 = .ok () ∧
      passwordColumns (updateRegistrySettings cipher key outcome appId request s).2.db appId =
        (passwordColumns s.db appId).map fun columns =>
          { columns with enc := some (cipher.encrypt key request.password) } := by
  unfold updateRegistrySettings updateRegistry updateApp
  rw [h.1, h.2]
  refine ⟨rfl, ?_⟩
  refine (passwordColumns_setApp s.db appId appId _ _ ?_).trans (if_pos rfl)
  exact fun _ => rfl

/-- A write that fails, or of another app, leaves the columns alone. -/
theorem passwordColumns_updateRegistrySettings_other (cipher : Cipher) (key : String)
    (outcome : Except GoError Unit) (appId other : AppId) (request : UpdateAppRegistryRequest)
    (s : Server) (h : ¬ (Writes cipher key outcome ∧ other = appId)) :
    passwordColumns (updateRegistrySettings cipher key outcome other request s).2.db appId =
      passwordColumns s.db appId := by
  unfold updateRegistrySettings updateRegistry updateApp
  cases hcipher : cipher.fromString key with
  | error e => rfl
  | ok _ =>
    cases houtcome : outcome with
    | error e => rfl
    | ok _ =>
      have hother : other ≠ appId := fun heq => h ⟨⟨hcipher, houtcome⟩, heq⟩
      refine (passwordColumns_setApp s.db appId other _ _
        (f := fun columns => { columns with enc := some (cipher.encrypt key request.password) })
        ?_).trans (if_neg hother)
      exact fun _ => rfl

theorem passwordColumns_updateRegistryDetails_mask (cipher : Cipher) (key : String) (db : Database)
    (appId : AppId) {details : UpdateAppRegistryRequest}
    (hmask : details.password = getPasswordMask) (now : Timestamp) :
    ∃ db', updateRegistryDetails cipher key db appId details now = .ok db' ∧
      passwordColumns db' appId =
        (passwordColumns db appId).map fun columns => { columns with plain := none } := by
  unfold updateRegistryDetails
  rw [if_pos hmask]
  refine ⟨_, rfl, ?_⟩
  refine (passwordColumns_setApp db appId appId _ _ ?_).trans (if_pos rfl)
  exact fun _ => rfl

/-! ## A new version leaves the columns alone -/

/-- The columns of an app are as they were. -/
abbrev SameColumns (appId : AppId) (columns : Option PasswordColumns) (s : Server) : Prop :=
  passwordColumns s.db appId = columns

theorem sameColumns_createNewVersion (appId id : AppId) (columns : Option PasswordColumns)
    (env : NewVersionEnv) (contexts : NewVersionContexts) (filesInDir source : String)
    (currentSequence : Int) :
    Keeps (SameColumns appId columns)
      (createNewVersion env contexts id filesInDir source currentSequence) := by
  apply keeps_bind
  · apply keeps_call
    intro s hs
    have hcases := Version.createVersion_cases env.version id filesInDir source
      (some currentSequence) s
    rcases hcases with ⟨e, he⟩ | ⟨sequence, tx, htx, -, hcreated⟩
    · rw [he]
      exact hs
    · -- of the app, the transaction writes the sequence, the name and the icon
      rw [htx]
      obtain ⟨name, icon, happ⟩ := hcreated.app
      have hcolumns : passwordColumns (KotsAppStore.updateAppVersion s.db id sequence name icon)
          appId = if id = appId then (passwordColumns s.db appId).map fun columns => columns
            else passwordColumns s.db appId :=
        passwordColumns_setApp s.db appId id _ _ fun _ => rfl
      rw [Option.map_id', ite_self] at hcolumns
      show (tx.app.find? appId).map columnsOf = columns
      rw [happ, ← hs]
      exact hcolumns
  intro newSequence
  apply keeps_bind
  · apply keeps_call
    intro s hs
    unfold Version.createAppVersionArchive
    split <;> exact hs
  intro _
  apply keeps_call
  intro s hs
  -- the preflight writes rows of app_downstream_version only
  obtain ⟨versions, hversions⟩ := Version.runPreflight_frame env.preflight id newSequence s
  rw [hversions]
  exact hs

theorem sameColumns_rewriteImagesBody (env : RewriteEnv) (appId id : AppId) (sequence : Int)
    (columns : Option PasswordColumns) (options : RewriteImageOptions)
    (configValues : Option String) :
    (rewriteImagesBody env id sequence options configValues).Preserves
      fun r => SameColumns appId columns r.server := by
  refine preserves_bind (preserves_orFinal fun _ hr => hr) fun _ => ?_
  refine preserves_bind (preserves_orFinal fun _ hr => hr) fun _ => ?_
  refine preserves_bind (preserves_orFinal fun _ hr => hr) fun license => ?_
  refine preserves_bind (preserves_orFinal fun _ hr => hr) fun configValues => ?_
  refine preserves_bind (preserves_orReturn fun _ hr => hr) fun downstreams => ?_
  refine preserves_bind (preserves_orReturn fun _ hr => hr) fun a => ?_
  refine preserves_bind (preserves_orFinal fun r hr => ?_) fun _ => ?_
  · unfold TaskRun.reporting
    dsimp only
    rw [reportLines_frame]
    exact hr
  · exact preserves_of_keeps (sameColumns_createNewVersion _ _ _ _ _ _ _ _)

theorem passwordColumns_rewriteImages (env : RewriteEnv) (appId id : AppId) (sequence : Int)
    (options : RewriteImageOptions) (configValues : Option String) (s : Server) :
    passwordColumns (rewriteImages env id sequence options configValues s).2.db appId =
      passwordColumns s.db appId := by
  have hlines : ∀ lines s', SameColumns appId (passwordColumns s.db appId) s' →
      SameColumns appId (passwordColumns s.db appId)
        (reportLines "image-rewrite" env.now lines s') := by
    intro lines s' hs'
    rw [reportLines_frame]
    exact hs'
  have hhandler : ∀ e s', SameColumns appId (passwordColumns s.db appId) s' →
      SameColumns appId (passwordColumns s.db appId)
        (updateHandler env.writeStatus "image-rewrite" env.now e s') := by
    intro e s' hs'
    unfold updateHandler
    cases e <;> unfold clearTaskStatus setTaskStatus <;> cases env.writeStatus <;> exact hs'
  unfold rewriteImages setTaskStatus
  cases env.updatingStatus with
  | error e => rfl
  | ok _ =>
    exact runTask_leads (sameColumns_rewriteImagesBody env appId id sequence _ options configValues)
      hhandler hlines rfl

/-! ## The handler -/

/-- The checks of the handler pass, and what its lookups find. -/
structure Accepted (env : UpdateRegistryEnv) (appSlug : String) (s : Server) (foundApp : App)
    (settings : Option RegistrySettings) : Prop where
  method : env.method ≠ "OPTIONS"
  decode : env.decode = .ok ()
  session : env.requireValidSession = .ok ()
  idle : ∃ status, getTaskStatus env.getTaskStatus s.db "image-rewrite" env.now = .ok status ∧
    status ≠ "running"
  clear : env.clearTaskStatus = .ok ()
  app : App.getFromSlug env.scanId env.getApp (deleteTaskStatus s.db "image-rewrite") appSlug =
    .ok foundApp
  settings : getRegistrySettingsForApp env.getRegistrySettings
    (deleteTaskStatus s.db "image-rewrite") foundApp.id = .ok settings

/-- The server after the handler has cleared the task. -/
def cleared (s : Server) : Server := { s with db := deleteTaskStatus s.db "image-rewrite" }

section Wp

variable {α β : Type} {Q : Except Abort β → Frame RegistryRun → Prop} {f : Frame RegistryRun}

theorem wp_orAnswer_bind (code : Nat) (call : Call α) (k : α → Body RegistryRun β) :
    (orAnswer code call >>= k).wp Q f ↔
      match call f.state.server with
      | (.ok a, s) => (k a).wp Q { f with state := { f.state with server := s } }
      | (.error e, s) =>
        let response := { f.state.response with error := e.text }
        Q (.error (.error e)) { f with state := { server := s, response, code } } := by
  unfold orAnswer
  rw [wp_orReturnErr_bind]
  rcases call f.state.server with ⟨e | a, s⟩ <;> rfl

theorem wp_orAnswerQuery_bind (code : Nat) (query : Server → Except GoError α)
    (k : α → Body RegistryRun β) :
    (orAnswerQuery code query >>= k).wp Q f ↔
      match query f.state.server with
      | .ok a => (k a).wp Q f
      | .error e =>
        let response := { f.state.response with error := e.text }
        Q (.error (.error e)) { f with state := { f.state with response, code } } := by
  unfold orAnswerQuery
  rw [wp_orAnswer_bind]
  dsimp only
  cases query f.state.server <;> rfl

theorem wp_answer_bind (set : UpdateAppRegistryResponse → UpdateAppRegistryResponse)
    (k : Unit → Body RegistryRun β) :
    (answer set >>= k).wp Q f ↔
      (k ()).wp Q { f with state := { f.state with response := set f.state.response } } := by
  unfold answer
  rw [wp_orReturnErr_bind]

end Wp

/-- The server after the goroutine, from what the body ends in. -/
def serverAfter (cipher : Cipher) (key : String) (env : UpdateRegistryEnv)
    (request : UpdateAppRegistryRequest) (result : Except Abort (Option App))
    (f : Frame RegistryRun) : Server :=
  match result with
  | .ok (some foundApp) => pushImages cipher key env request foundApp f.state.server
  | _ => f.state.server

theorem updateAppRegistry_iff_wp (cipher : Cipher) (key : String) {env : UpdateRegistryEnv}
    (hmethod : env.method ≠ "OPTIONS") (appSlug : String) (request : UpdateAppRegistryRequest)
    (s : Server) (P : Server → Prop) :
    P (updateAppRegistry cipher key env appSlug request s).2 ↔
      (updateAppRegistryBody cipher key env appSlug request).wp
        (fun result f => P (serverAfter cipher key env request result f))
        ⟨{ server := s }, none⟩ := by
  unfold updateAppRegistry runRequest wp serverAfter
  rw [if_neg hmethod]
  rcases (updateAppRegistryBody cipher key env appSlug request).run ⟨{ server := s }, none⟩ with
    ⟨e | ⟨_ | a⟩, f⟩ <;> rfl

theorem requireIdle_ok {status : String} (h : status ≠ "running") :
    requireIdle status = .ok () := if_neg h

/-- An accepted request saves the settings at once or after the push of the images. -/
theorem updateAppRegistry_accepted {cipher : Cipher} {key : String} {env : UpdateRegistryEnv}
    {appSlug : String} {request : UpdateAppRegistryRequest} {s : Server} {foundApp : App}
    {settings : Option RegistrySettings} (h : Accepted env appSlug s foundApp settings) :
    (updateAppRegistry cipher key env appSlug request s).2 =
      if samePlace settings request then
        (updateRegistrySettings cipher key env.updateRegistry foundApp.id request (cleared s)).2
      else pushImages cipher key env request foundApp (cleared s) := by
  obtain ⟨status, hstatus, hidle⟩ := h.idle
  have hcleared : clearTaskStatus (.ok ()) "image-rewrite" s = (.ok (), cleared s) := rfl
  have happ : App.getFromSlug env.scanId env.getApp (cleared s).db appSlug = .ok foundApp := h.app
  have hsettings : getRegistrySettingsForApp env.getRegistrySettings (cleared s).db foundApp.id =
      .ok settings := h.settings
  refine (updateAppRegistry_iff_wp cipher key h.method appSlug request s (· = _)).mpr ?_
  unfold updateAppRegistryBody
  rw [wp_orAnswerQuery_bind, h.decode]
  dsimp only
  rw [wp_orAnswerQuery_bind, h.session]
  dsimp only
  rw [wp_orAnswerQuery_bind, hstatus]
  dsimp only
  rw [wp_orAnswerQuery_bind, requireIdle_ok hidle]
  dsimp only
  rw [wp_orAnswer_bind, h.clear, hcleared]
  dsimp only
  rw [wp_orAnswerQuery_bind, happ]
  dsimp only
  rw [wp_answer_bind, wp_orAnswerQuery_bind, hsettings]
  dsimp only
  cases hplace : samePlace settings request with
  | true =>
    -- the images are there: the handler itself writes, and the answer does not matter here
    rw [if_pos rfl, if_pos rfl, wp_orAnswer_bind]
    dsimp only
    rcases updateRegistrySettings cipher key env.updateRegistry foundApp.id request (cleared s)
      with ⟨e | _, s'⟩ <;> rfl
  | false => rfl

/-- A request that is not accepted changes the task at most. -/
theorem updateAppRegistry_refused {cipher : Cipher} {key : String} {env : UpdateRegistryEnv}
    {appSlug : String} {request : UpdateAppRegistryRequest} {s : Server}
    (h : ∀ foundApp settings, ¬ Accepted env appSlug s foundApp settings) :
    (updateAppRegistry cipher key env appSlug request s).2 = s ∨
      (updateAppRegistry cipher key env appSlug request s).2 = cleared s := by
  by_cases hmethod : env.method = "OPTIONS"
  · left
    unfold updateAppRegistry
    rw [if_pos hmethod]
  refine (updateAppRegistry_iff_wp cipher key hmethod appSlug request s
    fun s' => s' = s ∨ s' = cleared s).mpr ?_
  unfold updateAppRegistryBody
  -- up to ClearTaskStatus nothing is written
  rw [wp_orAnswerQuery_bind]
  cases hdecode : env.decode with
  | error e => exact .inl rfl
  | ok _ => ?_
  dsimp only
  rw [wp_orAnswerQuery_bind]
  cases hsession : env.requireValidSession with
  | error e => exact .inl rfl
  | ok _ => ?_
  dsimp only
  rw [wp_orAnswerQuery_bind]
  dsimp only
  cases hstatus : getTaskStatus env.getTaskStatus s.db "image-rewrite" env.now with
  | error e => exact .inl rfl
  | ok status => ?_
  dsimp only
  rw [wp_orAnswerQuery_bind]
  by_cases hidle : status = "running"
  · rw [hidle]
    exact .inl rfl
  rw [requireIdle_ok hidle]
  dsimp only
  rw [wp_orAnswer_bind]
  cases hclear : env.clearTaskStatus with
  | error e => exact .inl rfl
  | ok _ => ?_
  -- from here on the task is cleared, whatever fails
  have hcleared : clearTaskStatus (.ok ()) "image-rewrite" s = (.ok (), cleared s) := rfl
  rw [hcleared]
  dsimp only
  rw [wp_orAnswerQuery_bind]
  dsimp only
  cases happ : App.getFromSlug env.scanId env.getApp (cleared s).db appSlug with
  | error e => exact .inr rfl
  | ok foundApp => ?_
  dsimp only
  rw [wp_answer_bind, wp_orAnswerQuery_bind]
  dsimp only
  cases hsettings : getRegistrySettingsForApp env.getRegistrySettings (cleared s).db
    foundApp.id with
  | error e => exact .inr rfl
  | ok settings =>
    exact absurd ⟨hmethod, hdecode, hsession, ⟨status, hstatus, hidle⟩, hclear, happ, hsettings⟩
      (h foundApp settings)

def pushOptions (request : UpdateAppRegistryRequest) : RewriteImageOptions :=
  { host := request.hostname, registryNamespace := request.registryNamespace,
    username := request.username, password := request.password }

/-- A request for the app is accepted, its images are in place or pushed, and the write goes
through. -/
def Saves (cipher : Cipher) (key : String) (env : UpdateRegistryEnv) (appSlug : String)
    (request : UpdateAppRegistryRequest) (appId : AppId) (s : Server) : Prop :=
  ∃ foundApp settings, Accepted env appSlug s foundApp settings ∧ foundApp.id = appId ∧
    (samePlace settings request = true ∨
      (rewriteImages env.rewrite foundApp.id foundApp.currentSequence (pushOptions request) none
        (cleared s)).1 = .ok ()) ∧
    Writes cipher key env.updateRegistry

theorem pushImages_eq (cipher : Cipher) (key : String) (env : UpdateRegistryEnv)
    (request : UpdateAppRegistryRequest) (foundApp : App) (s : Server) :
    pushImages cipher key env request foundApp s =
      match rewriteImages env.rewrite foundApp.id foundApp.currentSequence (pushOptions request)
        none s with
      | (.error _, s) => s
      | (.ok _, s) =>
        (updateRegistrySettings cipher key env.updateRegistry foundApp.id request s).2 := rfl

theorem passwordColumns_saved {cipher : Cipher} {key : String} {env : UpdateRegistryEnv}
    {appSlug : String} {request : UpdateAppRegistryRequest} {appId : AppId} {s : Server}
    (h : Saves cipher key env appSlug request appId s) :
    passwordColumns (updateAppRegistry cipher key env appSlug request s).2.db appId =
      (passwordColumns s.db appId).map fun columns =>
        { columns with enc := some (cipher.encrypt key request.password) } := by
  obtain ⟨foundApp, settings, haccepted, rfl, hpushed, hwrites⟩ := h
  rw [updateAppRegistry_accepted haccepted]
  split
  next => exact (passwordColumns_updateRegistrySettings cipher key hwrites _ request (cleared s)).2
  next hplace =>
    -- the goroutine: RewriteImages leaves the columns alone, then the settings are written
    have hok := hpushed.resolve_left hplace
    have hkept := passwordColumns_rewriteImages env.rewrite foundApp.id foundApp.id
      foundApp.currentSequence (pushOptions request) none (cleared s)
    rw [pushImages_eq]
    rcases hrewrite : rewriteImages env.rewrite foundApp.id foundApp.currentSequence
      (pushOptions request) none (cleared s) with ⟨e | _, s'⟩
    · rw [hrewrite] at hok
      cases hok
    · rw [hrewrite] at hkept
      dsimp only
      rw [(passwordColumns_updateRegistrySettings cipher key hwrites _ request s').2, hkept]
      rfl

theorem passwordColumns_notSaved {cipher : Cipher} {key : String} {env : UpdateRegistryEnv}
    {appSlug : String} {request : UpdateAppRegistryRequest} {appId : AppId} {s : Server}
    (h : ¬ Saves cipher key env appSlug request appId s) :
    passwordColumns (updateAppRegistry cipher key env appSlug request s).2.db appId =
      passwordColumns s.db appId := by
  by_cases haccepted : ∃ foundApp settings, Accepted env appSlug s foundApp settings
  · obtain ⟨foundApp, settings, haccepted⟩ := haccepted
    have hnot : (samePlace settings request = true ∨
        (rewriteImages env.rewrite foundApp.id foundApp.currentSequence (pushOptions request) none
          (cleared s)).1 = .ok ()) →
        ¬ (Writes cipher key env.updateRegistry ∧ foundApp.id = appId) :=
      fun hpushed hwrites => h ⟨foundApp, settings, haccepted, hwrites.2, hpushed, hwrites.1⟩
    rw [updateAppRegistry_accepted haccepted]
    split
    next hplace =>
      exact passwordColumns_updateRegistrySettings_other cipher key _ appId _ request (cleared s)
        (hnot (.inl hplace))
    next =>
      have hkept := passwordColumns_rewriteImages env.rewrite appId foundApp.id
        foundApp.currentSequence (pushOptions request) none (cleared s)
      rw [pushImages_eq]
      rcases hrewrite : rewriteImages env.rewrite foundApp.id foundApp.currentSequence
        (pushOptions request) none (cleared s) with ⟨e | _, s'⟩
      · rw [hrewrite] at hkept
        exact hkept
      · rw [hrewrite] at hkept hnot
        exact (passwordColumns_updateRegistrySettings_other cipher key _ appId _ request s'
          (hnot (.inr rfl))).trans hkept
  · have hrefused : (updateAppRegistry cipher key env appSlug request s).2 = s ∨
        (updateAppRegistry cipher key env appSlug request s).2 = cleared s :=
      updateAppRegistry_refused fun foundApp settings h => haccepted ⟨foundApp, settings, h⟩
    rcases hrefused with hsame | hcleared
    · rw [hsame]
    · rw [hcleared]
      rfl

/-! ## The round trip -/

/-- What `UpdateRegistry` has written is what the API returns. -/
def ReadBack (cipher : Cipher) (key : String) (outcome : Except GoError Unit) (appId : AppId)
    (request : UpdateAppRegistryRequest) (s : Server) : Prop :=
  (updateRegistrySettings cipher key outcome appId request s).1 = .ok () →
    (getAppRegistryDetails cipher key
      (updateRegistrySettings cipher key outcome appId request s).2.db appId false).1.map
        (·.registryPassword) = .ok (some request.password)

/-- The database after the settings were displayed. -/
def displayed (cipher : Cipher) (key : String) (db : Database) (appId : AppId) : Database :=
  (getAppRegistryDetails cipher key db appId true).2

/-- The mutation of the API keeps the password when the mask is submitted. -/
def KeptByApi (cipher : Cipher) (key : String) (appId : AppId) (details : UpdateAppRegistryRequest)
    (now : Timestamp) (db : Database) : Prop :=
  ∃ db', updateRegistryDetails cipher key (displayed cipher key db appId) appId
      { details with password := getPasswordMask } now = .ok db' ∧
    storedPassword cipher key db' appId =
      storedPassword cipher key (displayed cipher key db appId) appId

/-- The Go handler keeps the password when the mask is submitted. -/
def KeptByHandler (cipher : Cipher) (key : String) (env : UpdateRegistryEnv) (appSlug : String)
    (request : UpdateAppRegistryRequest) (appId : AppId) (s : Server) : Prop :=
  let s₁ := { s with db := displayed cipher key s.db appId }
  storedPassword cipher key (updateAppRegistry cipher key env appSlug
      { request with password := getPasswordMask } s₁).2.db appId =
    storedPassword cipher key s₁.db appId

theorem hasText_encrypt (cipher : Cipher) {key : String} (hkey : cipher.fromString key = .ok ())
    (text : String) : hasText (some (cipher.encrypt key text)) = true := by
  simpa [hasText] using encrypt_ne_empty cipher hkey text

/-- What the API reads once an encrypted text is in place. -/
theorem apiReads_encrypted (cipher : Cipher) {key : String} (hkey : cipher.fromString key = .ok ())
    (plain : Option String) (text : String) :
    apiReads cipher key { plain, enc := some (cipher.encrypt key text) } =
      if key = "" ∨ hasText plain then .ok plain else .ok (some text) := by
  unfold apiReads kotsDecryptString
  by_cases hempty : key = ""
  · rw [if_pos hempty, if_pos (.inl hempty)]
  rw [if_neg hempty]
  dsimp only
  rw [hasText_encrypt cipher hkey]
  by_cases hplain : hasText plain = true
  · rw [if_pos hplain, if_pos rfl, if_pos (.inr hplain)]
  · rw [if_neg hplain, if_pos rfl, if_neg (by simp [hempty, hplain]), Option.getD_some,
      cipher.decrypt_encrypt key text hkey]
    rfl

theorem apiReads_eq (cipher : Cipher) (key : String) {db : Database} {appId : AppId}
    {columns : PasswordColumns} (h : passwordColumns db appId = some columns) :
    (getAppRegistryDetails cipher key db appId false).1.map (·.registryPassword) =
      apiReads cipher key columns := by
  unfold passwordColumns at h
  obtain ⟨row, hrow, rfl⟩ := Option.map_eq_some_iff.mp h
  exact (getAppRegistryDetails_spec cipher key hrow).1

/-- The condition of `ReadBack`: nothing is left in `registry_password` that hides the new password,
and the API has a key. -/
def ReadBackWhen (cipher : Cipher) (key : String) (outcome : Except GoError Unit)
    (columns : PasswordColumns) (password : String) : Prop :=
  Writes cipher key outcome →
    columns.plain = some password ∨ key ≠ "" ∧ hasText columns.plain = false

theorem readBack_iff (cipher : Cipher) (key : String) (outcome : Except GoError Unit)
    {appId : AppId} {columns : PasswordColumns} (request : UpdateAppRegistryRequest) {s : Server}
    (hcolumns : passwordColumns s.db appId = some columns) :
    ReadBack cipher key outcome appId request s ↔
      ReadBackWhen cipher key outcome columns request.password := by
  unfold ReadBack ReadBackWhen
  by_cases hwrites : Writes cipher key outcome
  · have hend := passwordColumns_updateRegistrySettings cipher key hwrites appId request s
    rw [hcolumns] at hend
    rw [apiReads_eq cipher key hend.2, apiReads_encrypted cipher hwrites.1]
    simp only [hend.1, hwrites, forall_const]
    by_cases hempty : key = ""
    · simp [hempty]
    by_cases hplain : hasText columns.plain = true
    · simp [hempty, hplain]
    · simp [hempty, hplain]
  · have hfails : (updateRegistrySettings cipher key outcome appId request s).1 ≠ .ok () := by
      intro hok
      apply hwrites
      unfold updateRegistrySettings updateRegistry updateApp at hok
      unfold Writes
      cases hcipher : cipher.fromString key with
      | error e =>
        rw [hcipher] at hok
        cases hok
      | ok _ =>
        rw [hcipher] at hok
        cases houtcome : outcome with
        | error e =>
          rw [houtcome] at hok
          cases hok
        | ok _ => exact ⟨rfl, rfl⟩
    exact iff_of_true (fun h => absurd h hfails) fun h => absurd h hwrites

theorem hasText_eq_false {column : Option String} :
    hasText column = false ↔ column.getD "" = "" := by
  simp [hasText]

/-- When the first column may be cleared. -/
theorem storedOf_clear_iff (cipher : Cipher) (key : String) (columns : PasswordColumns) :
    storedOf cipher key { columns with plain := none } = storedOf cipher key columns ↔
      hasText columns.plain = false ∨ key ≠ "" ∧ hasText columns.enc = true ∧
        cipher.decrypt key (columns.enc.getD "") = .ok (columns.plain.getD "") := by
  have happly : storedOf cipher key { columns with plain := none } = storedOf cipher key columns ↔
      (apiReads cipher key { columns with plain := none }).map (·.getD "") =
        (apiReads cipher key columns).map (·.getD "") := by
    unfold storedOf
    rw [StoredPassword.mk.injEq]
    exact and_iff_left rfl
  rw [happly]
  unfold apiReads kotsDecryptString
  dsimp only
  rw [hasText_none]
  by_cases hempty : key = ""
  · rw [if_pos hempty, if_pos hempty]
    show Except.ok "" = Except.ok (columns.plain.getD "") ↔ _
    rw [Except.ok.injEq, hasText_eq_false, eq_comm]
    exact (or_iff_left fun h => h.1 hempty).symm
  cases hplain : hasText columns.plain with
  | false =>
    have hnone : columns.plain.getD "" = "" := hasText_eq_false.mp hplain
    cases henc : hasText columns.enc <;> simp [hempty, Except.map, hnone]
  | true =>
    -- the text that is cleared was what the API returned
    have hsome : columns.plain.getD "" ≠ "" := by simpa [hasText] using hplain
    cases henc : hasText columns.enc with
    | false =>
      -- the migration that did not happen: the encryption fails
      cases kotsEncryptString cipher key (columns.plain.getD "") <;>
        simp [hempty, Except.map, hsome.symm]
    | true =>
      cases cipher.decrypt key (columns.enc.getD "") <;> simp [hempty, Except.map]

theorem passwordColumns_displayed (cipher : Cipher) (key : String) {appId : AppId}
    {columns : PasswordColumns} {db : Database}
    (hcolumns : passwordColumns db appId = some columns) :
    passwordColumns (displayed cipher key db appId) appId = some (migrated cipher key columns) := by
  unfold passwordColumns at hcolumns
  obtain ⟨row, hrow, rfl⟩ := Option.map_eq_some_iff.mp hcolumns
  exact (getAppRegistryDetails_spec cipher key hrow).2 true

/-- The condition of `KeptByApi`: nothing is in `registry_password` once the settings were
displayed, or the same password is in `registry_password_enc`. -/
def KeptByApiWhen (cipher : Cipher) (key : String) (columns : PasswordColumns) : Prop :=
  hasText columns.plain = false ∨
    key ≠ "" ∧
      if hasText columns.enc then
        cipher.decrypt key (columns.enc.getD "") = .ok (columns.plain.getD "")
      else cipher.fromString key = .ok ()

theorem keptByApi_iff (cipher : Cipher) (key : String) {appId : AppId} {columns : PasswordColumns}
    (details : UpdateAppRegistryRequest) (now : Timestamp) {db : Database}
    (hcolumns : passwordColumns db appId = some columns) :
    KeptByApi cipher key appId details now db ↔ KeptByApiWhen cipher key columns := by
  have hdisplayed := passwordColumns_displayed cipher key hcolumns
  have hmask : { details with password := getPasswordMask }.password = getPasswordMask := rfl
  obtain ⟨db', hupdate, hdb'⟩ := passwordColumns_updateRegistryDetails_mask cipher key
    (displayed cipher key db appId) appId hmask now
  unfold KeptByApi KeptByApiWhen
  rw [hupdate]
  have hiff : (∃ db'', Except.ok db' = Except.ok (ε := String) db'' ∧
      storedPassword cipher key db'' appId =
        storedPassword cipher key (displayed cipher key db appId) appId) ↔
      storedPassword cipher key db' appId =
        storedPassword cipher key (displayed cipher key db appId) appId := by
    constructor
    · rintro ⟨db'', heq, h⟩
      cases heq
      exact h
    · exact fun h => ⟨db', rfl, h⟩
  rw [hiff, storedPassword_eq, storedPassword_eq, hdb', hdisplayed, Option.map_some,
    Option.map_some, Option.map_some, Option.some_inj]
  refine (storedOf_clear_iff cipher key (migrated cipher key columns)).trans ?_
  unfold migrated kotsEncryptString
  by_cases hempty : key = ""
  · simp [hempty]
  cases hplain : hasText columns.plain with
  | false => simp [hempty, hplain]
  | true =>
    cases henc : hasText columns.enc with
    | true => simp [hempty, hplain, henc]
    | false =>
      cases hcipher : cipher.fromString key with
      | error e => simp [hempty, hplain, henc]
      | ok _ => simp [hempty, hasText_none]

/-- What is encrypted in the place of a password is the password when the Go code has had it. -/
theorem storedOf_encrypted_iff (cipher : Cipher) {key : String}
    (hkey : cipher.fromString key = .ok ()) {columns : PasswordColumns} (text : String) :
    storedOf cipher key { columns with enc := some (cipher.encrypt key text) } =
        storedOf cipher key columns ↔
      (storedOf cipher key columns).go = .ok text := by
  have hgo : (storedOf cipher key { columns with enc := some (cipher.encrypt key text) }).go =
      .ok text := cipher.decrypt_encrypt key text hkey
  constructor
  · intro h
    rw [← h]
    exact hgo
  intro hdec
  have hapi : apiReads cipher key columns =
      apiReads cipher key { columns with enc := some (cipher.encrypt key text) } := by
    rw [apiReads_encrypted cipher hkey]
    change cipher.decrypt key (columns.enc.getD "") = .ok text at hdec
    unfold apiReads kotsDecryptString
    by_cases hempty : key = ""
    · rw [if_pos hempty, if_pos (.inl hempty)]
    rw [if_neg hempty, hdec]
    -- an empty column does not decrypt
    have henc : hasText columns.enc = true := by
      by_contra hnone
      rw [Bool.not_eq_true, hasText_eq_false] at hnone
      rw [hnone] at hdec
      exact cipher.decrypt_empty key text hdec
    cases hplain : hasText columns.plain <;> simp [hempty, henc, Except.map]
  unfold storedOf at hdec ⊢
  dsimp only at hdec ⊢
  rw [← hapi, hdec, Option.getD_some, cipher.decrypt_encrypt key text hkey]

/-- The condition of `KeptByHandler`: the settings are not saved, or the Go code has the mask itself
as the password. -/
def KeptByHandlerWhen (cipher : Cipher) (key : String) (env : UpdateRegistryEnv) (appSlug : String)
    (request : UpdateAppRegistryRequest) (appId : AppId) (s : Server) : Prop :=
  let s₁ := { s with db := displayed cipher key s.db appId }
  Saves cipher key env appSlug { request with password := getPasswordMask } appId s₁ →
    (storedPassword cipher key s₁.db appId).map (·.go) = some (.ok getPasswordMask)

theorem keptByHandler_iff (cipher : Cipher) (key : String) (env : UpdateRegistryEnv)
    (appSlug : String) (request : UpdateAppRegistryRequest) {appId : AppId}
    {columns : PasswordColumns} {s : Server}
    (hcolumns : passwordColumns s.db appId = some columns) :
    KeptByHandler cipher key env appSlug request appId s ↔
      KeptByHandlerWhen cipher key env appSlug request appId s := by
  have hdisplayed := passwordColumns_displayed cipher key hcolumns
  unfold KeptByHandler KeptByHandlerWhen
  dsimp only
  by_cases hsaves : Saves cipher key env appSlug { request with password := getPasswordMask } appId
      { s with db := displayed cipher key s.db appId }
  · obtain ⟨-, -, -, -, -, hwrites⟩ := id hsaves
    rw [storedPassword_eq, storedPassword_eq, passwordColumns_saved hsaves]
    dsimp only
    rw [hdisplayed]
    simp only [Option.map_some, Option.some_inj]
    rw [storedOf_encrypted_iff cipher hwrites.1 getPasswordMask]
    exact ⟨fun h _ => h, fun h => h hsaves⟩
  · rw [storedPassword_eq, storedPassword_eq, passwordColumns_notSaved hsaves]
    exact iff_of_true rfl fun h => absurd h hsaves

/-- Which writes and submissions keep the password of an app, for every state of its row. -/
theorem registryPassword_roundTrip_iff (cipher : Cipher) (key : String)
    (outcome : Except GoError Unit) (env : UpdateRegistryEnv) (appSlug : String)
    (request : UpdateAppRegistryRequest) (now : Timestamp) (appId : AppId) (row : AppRow)
    (s : Server) (hrow : s.db.app.find? appId = some row) :
    (ReadBack cipher key outcome appId request s ↔
        ReadBackWhen cipher key outcome (columnsOf row) request.password) ∧
      (KeptByApi cipher key appId request now s.db ↔ KeptByApiWhen cipher key (columnsOf row)) ∧
      (KeptByHandler cipher key env appSlug request appId s ↔
        KeptByHandlerWhen cipher key env appSlug request appId s) := by
  have hcolumns : passwordColumns s.db appId = some (columnsOf row) := by
    unfold passwordColumns
    rw [hrow]
    rfl
  exact ⟨readBack_iff cipher key outcome request hcolumns,
    keptByApi_iff cipher key request now hcolumns,
    keptByHandler_iff cipher key env appSlug request hcolumns⟩

/-- A cipher that marks its texts. -/
def markingCipher : Cipher where
  fromString key :=
    if key = "" then .error { cause := "crypto/aes: invalid key size 0" } else .ok ()
  encrypt _ text := String.ofList ('#' :: text.toList)
  decrypt _ text :=
    match text.toList with
    | '#' :: rest => .ok (String.ofList rest)
    | _ => .error { cause := "cipher: message authentication failed" }
  decrypt_encrypt key text _ := by simp
  decrypt_empty key text := by simp

def registryServer : Server where
  db :=
    { app := ⟨[{ id := "app", name := "App", slug := "app",
                 registryHostname := some "registry", registryUsername := some "admin",
                 registryPasswordEnc := some "#secret", registryNamespace := some "apps" }],
        by decide⟩ }

def registryEnv : UpdateRegistryEnv where
  rewrite :=
    { loadLicense := .error { cause := "no license" }
      newVersion :=
        { version := { loadKotsKindsFromPath := fun _ => .error { cause := "no such directory" } }
          preflight := { loadKotsKinds := .error { cause := "no such directory" } } } }

def registryRequest : UpdateAppRegistryRequest where
  hostname := "registry"
  username := "operator"
  password := "secret"
  registryNamespace := "apps"

/-- All three keep the password of this row when the request has no session. -/
theorem registryPassword_roundTrip_noSession :
    let env := { registryEnv with
      requireValidSession := .error { cause := "authorization header empty" } }
    ReadBack markingCipher "key" (.ok ()) "app" registryRequest registryServer ∧
      KeptByApi markingCipher "key" "app" registryRequest 0 registryServer.db ∧
      KeptByHandler markingCipher "key" env "app" registryRequest "app" registryServer := by
  intro env
  have h := registryPassword_roundTrip_iff markingCipher "key" (.ok ()) env "app"
    registryRequest 0 "app" _ registryServer rfl
  refine ⟨h.1.mpr fun _ => .inr ⟨by decide, rfl⟩, h.2.1.mpr (.inl rfl), h.2.2.mpr fun hsaves => ?_⟩
  obtain ⟨_, _, haccepted, -⟩ := hsaves
  cases haccepted.session

/-- The user name is changed while the password is shown as a mask: the mask becomes the
password. -/
theorem not_registryPassword_roundTrip :
    ¬ ∀ (cipher : Cipher) (key : String) (outcome : Except GoError Unit) (env : UpdateRegistryEnv)
      (appSlug : String) (request : UpdateAppRegistryRequest) (now : Timestamp) (appId : AppId)
      (row : AppRow) (s : Server), s.db.app.find? appId = some row →
      ReadBack cipher key outcome appId request s ∧
        KeptByApi cipher key appId request now s.db ∧
        KeptByHandler cipher key env appSlug request appId s := by
  intro h
  have hkept := (h markingCipher "key" (.ok ()) registryEnv "app" registryRequest 0 "app" _
    registryServer rfl).2.2
  have hgo := congrArg (Option.map fun stored => stored.go.toOption) hkept
  revert hgo
  decide +kernel

end Kotsadm.Registry
