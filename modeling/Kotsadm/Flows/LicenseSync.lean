import Kotsadm.Flows.Request
import Kotsadm.Version.ConcurrentCreation

/-!
# LicenseSync — a license sync that fails

`license.Sync` writes the license to the row of the app in the middle of its steps, and no later
error takes it back.  Whether there is anything to do is decided by the license in the archive of
the current version, not by the row.
-/

namespace Kotsadm.Flows.LicenseSync

open Version Body Interleaving

/-! ## A call of `Sync` -/

/-- The env with an archive to read the kinds from. -/
def reading (load : String → Except GoError KotsKinds) (env : SyncEnv) (archive : Option String) :
    SyncEnv :=
  { env with loadKotsKinds := archive.elim (.error { cause := "no such file or directory" }) load }

/-- A request reads the row of the app first.  What `Sync` finds in the archive depends on the
archive that is there, through `LoadKotsKindsFromPath`. -/
def attempt (load : String → Except GoError KotsKinds) (env : SyncEnv) (appId : AppId)
    (licenseData : String) : Server → Except Abort License × Server := fun s =>
  match App.get (.ok ()) s.db appId with
  | .error e => (.error (.error e), s)
  | .ok a =>
    let env := reading load env (s.archives a.id a.currentSequence)
    runRequest (sync env a licenseData) s

/-- The license is downloaded, or it is in the request and verified. -/
def Latest (env : SyncEnv) (current : License) (licenseData : String) (license : License) : Prop :=
  if licenseData = "" then env.getLatestLicense current = .ok license
  else ∃ unverified, env.decode licenseData = .ok (some unverified) ∧
    env.verifySignature unverified = .ok license

/-- `Sync` gets as far as the comparison of the two licenses. -/
structure Fetched (load : String → Except GoError KotsKinds) (env : SyncEnv) (appId : AppId)
    (licenseData : String) (s : Server) (a : App) (current license : License) : Prop where
  get : App.get (.ok ()) s.db appId = .ok a
  archive : ∃ archive kinds, s.archives a.id a.currentSequence = some archive ∧
    env.downloadArchive = .ok () ∧ load archive = .ok kinds ∧ kinds.license = some current
  latest : Latest env current licenseData license

/-! ## The steps after the license was fetched -/

def licenseOf (s : Server) (appId : AppId) : Option String :=
  (s.db.app.find? appId).map (·.license)

/-- `update app set license=$1 where id = $2` -/
def withLicense (appId : AppId) (licenseData : String) (s : Server) : Server :=
  { s with db := { s.db with
      app := s.db.app.updateWhere (fun r => r.id = appId)
        (fun r => { r with license := licenseData }) fun _ => rfl } }

/-- The license was written to the row. -/
structure Saved (env : SyncEnv) (license : License) (encodedLicense : String) : Prop where
  encode : env.encode license = .ok encodedLicense
  writeLicense : env.writeLicense = .ok ()
  updateAppLicense : env.updateAppLicense = .ok ()

/-- The transaction of the new version was committed. -/
def CreatesVersion (env : SyncEnv) (a : App) (s : Server) (newSequence : Int) (s' : Server) :
    Prop :=
  ∃ settings, getRegistrySettingsForApp env.getRegistrySettings s.db a.id = .ok settings ∧
    env.renderDir settings = .ok () ∧
    createVersion env.version a.id "archiveDir" "License Change" (some a.currentSequence) s =
      (.ok newSequence, s')

/-- The steps after the transaction -/
def Finishes (env : SyncEnv) (a : App) (newSequence : Int) (s : Server) : Prop :=
  env.archive.isOk ∧
    (runPreflight env.preflight a.id newSequence
      (createAppVersionArchive env.archive a.id newSequence s).2).1.isOk

/-- What `createLicensed` does once the license is in the row. -/
def makeVersion (env : SyncEnv) (a : App) : Body Server Unit := do
  let settings ← orReturn "failed to get registry settings for app" (fun s =>
    (getRegistrySettingsForApp env.getRegistrySettings s.db a.id, s))
  orReturn "failed to render new version" (outcome (env.renderDir settings))
  let newSequence ← orReturn "failed to create new version"
    (createVersion env.version a.id "archiveDir" "License Change" (some a.currentSequence))
  orReturn "failed to upload" (createAppVersionArchive env.archive a.id newSequence)
  orReturn "failed to run preflights" (runPreflight env.preflight a.id newSequence)

/-! ## What is asked of a failed sync -/

/-- A version is there that was not. -/
def Creates (appId : AppId) (n : Int) (s s' : Server) : Prop :=
  ¬ HasVersion appId s.db n ∧ HasVersion appId s'.db n

/-- An error after the license was fetched leaves the license of the app as it was, and a sync of
the same license that would have created a version without the failure before it still does. -/
def ChangesNothing (load : String → Except GoError KotsKinds) (env : SyncEnv) (appId : AppId)
    (licenseData : String) (s : Server) : Prop :=
  ∀ a current license e s', Fetched load env appId licenseData s a current license →
    attempt load env appId licenseData s = (.error (.error e), s') →
    licenseOf s' appId = licenseOf s appId ∧
    ∀ env' licenseData' n, Fetched load env' appId licenseData' s a current license →
      Creates appId n s (attempt load env' appId licenseData' s).2 →
      Creates appId n s' (attempt load env' appId licenseData' s').2

section

variable {load : String → Except GoError KotsKinds} {env : SyncEnv} {appId : AppId}
  {licenseData : String} {s : Server} {a : App} {current license : License}

/-! ## The run of a call -/

theorem run_latestLicense {β : Type} (h : Latest env current licenseData license)
    (k : License → Body Server β) (f : Frame Server) :
    (latestLicense env current licenseData >>= k).run f = (k license).run f := by
  unfold Latest at h
  unfold latestLicense
  split at h
  next hempty =>
    rw [if_pos hempty]
    exact run_orReturn_outcome_ok h
  next hdata =>
    obtain ⟨unverified, hdecode, hverify⟩ := h
    rw [if_neg hdata, run_bind, run_orReturn_outcome_ok hdecode]
    dsimp only
    unfold orReturn outcome
    dsimp only
    rw [hverify]

theorem runRequest_map {σ α β : Type} (m : Body σ α) (b : β) (t : σ) :
    runRequest (m >>= fun _ => pure b) t =
      ((runRequest m t).1.map fun _ => b, (runRequest m t).2) := by
  unfold runRequest
  rw [run_bind]
  rcases m.run ⟨t, none⟩ with ⟨e | u, f⟩ <;> rfl

/-- Only another sequence of the license makes a new version. -/
theorem attempt_eq (h : Fetched load env appId licenseData s a current license) :
    attempt load env appId licenseData s =
      if license.licenseSequence = current.licenseSequence then (.ok license, s)
      else
        ((runRequest (createLicensed env a license) s).1.map fun _ => license,
          (runRequest (createLicensed env a license) s).2) := by
  obtain ⟨archive, kinds, harchive, hdownload, hload, hcurrent⟩ := h.archive
  have harchives : getAppVersionArchive env.downloadArchive s.archives a.id a.currentSequence =
      .ok () := by
    unfold getAppVersionArchive
    rw [hdownload, harchive]
  have hkinds : (reading load env (some archive)).loadKotsKinds = .ok kinds := hload
  have hlatest : Latest (reading load env (some archive)) current licenseData license := h.latest
  have hrequire : requireCurrentLicense kinds = pure current := by
    unfold requireCurrentLicense
    rw [hcurrent]
  have hsync : runRequest (sync (reading load env (some archive)) a licenseData) s =
      runRequest (if license.licenseSequence = current.licenseSequence then pure license
        else createLicensed env a license >>= fun _ => pure license) s := by
    unfold runRequest sync
    rw [run_orReturn_ok (congrArg (·, s) harchives), run_orReturn_outcome_ok hkinds, hrequire,
      show ∀ (k : License → Body Server License) (f : Frame Server),
        (pure current >>= k).run f = (k current).run f from fun _ _ => rfl,
      run_latestLicense hlatest]
    rfl
  unfold attempt
  rw [h.get]
  dsimp only
  rw [harchive, hsync]
  split
  next => rfl
  next => exact runRequest_map _ license s

/-- The steps up to the row of the app -/
theorem runRequest_createLicensed_saved {encodedLicense : String}
    (h : Saved env license encodedLicense) :
    runRequest (createLicensed env a license) s =
      runRequest (makeVersion env a) (withLicense a.id encodedLicense s) := by
  have hupdate : Flows.updateAppLicense env.updateAppLicense a encodedLicense s =
      (.ok (), withLicense a.id encodedLicense s) := by
    unfold Flows.updateAppLicense
    rw [h.updateAppLicense]
    rfl
  unfold runRequest createLicensed
  rw [run_orReturn_outcome_ok h.encode, run_orReturn_outcome_ok h.writeLicense,
    run_orReturn_ok hupdate]
  rfl

theorem runRequest_createLicensed_unsaved
    (h : ¬ ∃ encodedLicense, Saved env license encodedLicense) :
    ∃ e, runRequest (createLicensed env a license) s = (.error (.error e), s) := by
  unfold runRequest createLicensed
  cases hencode : env.encode license with
  | error e =>
    rw [run_orReturn_outcome_error rfl]
    exact ⟨_, rfl⟩
  | ok encodedLicense =>
    rw [run_orReturn_outcome_ok rfl]
    cases hwrite : env.writeLicense with
    | error e =>
      rw [run_orReturn_outcome_error rfl]
      exact ⟨_, rfl⟩
    | ok _ =>
      rw [run_orReturn_outcome_ok rfl]
      cases hupdate : env.updateAppLicense with
      | error e =>
        have hcall : Flows.updateAppLicense (.error e) a encodedLicense s =
            (.error (e.wrap s!"update app {a.id.quote} license"), s) := rfl
        rw [run_orReturn_error hcall]
        exact ⟨_, rfl⟩
      | ok _ => exact absurd ⟨encodedLicense, hencode, hwrite, hupdate⟩ h

/-- An error before the commit leaves the state alone. -/
theorem runRequest_makeVersion_uncommitted (h : ¬ ∃ n s', CreatesVersion env a s n s') :
    ∃ e, runRequest (makeVersion env a) s = (.error (.error e), s) := by
  unfold runRequest makeVersion
  cases hsettings : getRegistrySettingsForApp env.getRegistrySettings s.db a.id with
  | error e =>
    rw [run_orReturn_error (congrArg (·, s) hsettings)]
    exact ⟨_, rfl⟩
  | ok settings =>
    rw [run_orReturn_ok (congrArg (·, s) hsettings)]
    cases hrender : env.renderDir settings with
    | error e =>
      rw [run_orReturn_outcome_error rfl]
      exact ⟨_, rfl⟩
    | ok _ =>
      rw [run_orReturn_outcome_ok rfl]
      rcases createVersion_cases env.version a.id "archiveDir" "License Change"
        (some a.currentSequence) s with ⟨e, hcreate⟩ | ⟨n, tx, hcreate, -⟩
      · rw [run_orReturn_error hcreate]
        exact ⟨_, rfl⟩
      · exact absurd ⟨n, _, settings, hsettings, hrender, hcreate⟩ h

/-- After the commit, what comes is the upload and the start of the checks. -/
theorem runRequest_makeVersion_committed {n : Int} {s' : Server}
    (h : CreatesVersion env a s n s') :
    ((runRequest (makeVersion env a) s).1 = .ok () ↔ Finishes env a n s') ∧
      (∀ abort, (runRequest (makeVersion env a) s).1 = .error abort → ∃ e, abort = .error e) ∧
      (runRequest (makeVersion env a) s).2.db.appVersion = s'.db.appVersion := by
  obtain ⟨settings, hsettings, hrender, hcreate⟩ := h
  unfold runRequest makeVersion Finishes
  rw [run_orReturn_ok (congrArg (·, s) hsettings), run_orReturn_outcome_ok hrender,
    run_orReturn_ok hcreate]
  cases harchive : env.archive with
  | error e =>
    have hupload : createAppVersionArchive (.error e) a.id n s' = (.error e, s') := rfl
    rw [run_orReturn_error hupload]
    refine ⟨iff_of_false (by simp) (by simp [Except.isOk, Except.toBool]), ?_, rfl⟩
    rintro abort ⟨⟩
    exact ⟨_, rfl⟩
  | ok archive =>
    rcases hupload : createAppVersionArchive (.ok archive) a.id n s' with ⟨_ | u, s₂⟩
    · cases hupload
    rw [run_orReturn_ok hupload]
    have hsame : s₂.db.appVersion = s'.db.appVersion := by
      cases hupload
      rfl
    obtain ⟨versions, hframe⟩ := runPreflight_frame env.preflight a.id n s₂
    have hrows : (runPreflight env.preflight a.id n s₂).2.db.appVersion = s'.db.appVersion := by
      rw [hframe]
      exact hsame
    unfold orReturn
    dsimp only
    rcases hpreflight : runPreflight env.preflight a.id n s₂ with ⟨e | u, s₃⟩
    · rw [hpreflight] at hrows
      refine ⟨iff_of_false (by simp) (by simp [Except.isOk, Except.toBool]), ?_, hrows⟩
      rintro abort ⟨⟩
      exact ⟨_, rfl⟩
    · rw [hpreflight] at hrows
      refine ⟨iff_of_true rfl ⟨rfl, rfl⟩, ?_, hrows⟩
      rintro abort ⟨⟩

/-! ## The new version -/

theorem creates_of_createsVersion {n : Int} {s' : Server} (h : CreatesVersion env a s n s') :
    Creates a.id n s s' := by
  obtain ⟨settings, -, -, hcreate⟩ := h
  rcases createVersion_cases env.version a.id "archiveDir" "License Change"
    (some a.currentSequence) s with ⟨e, he⟩ | ⟨sequence, tx, htx, hnext, hcreated⟩
  · rw [he] at hcreate
    cases hcreate
  · rw [htx] at hcreate
    cases hcreate
    obtain ⟨now, columns, hrows⟩ := hcreated.appVersion
    constructor
    · intro hold
      exact absurd ((nextSequence_spec hnext).2 n hold) (by omega)
    · have hupserted : HasVersion a.id (KotsAppStore.upsertAppVersion s.db a.id n now columns) n :=
        hasVersion_upsert.mpr (.inl rfl)
      unfold HasVersion at hupserted ⊢
      dsimp only
      rw [hrows]
      exact hupserted

/-! ## The license of the row -/

theorem licenseOf_withLicense (h : (s.db.app.find? appId).isSome) (text : String) :
    licenseOf (withLicense appId text s) appId = some text := by
  obtain ⟨row, hrow⟩ := Option.isSome_iff_exists.mp h
  have hid : row.id = appId := (Keyed.find?_eq_some.mp hrow).2
  unfold licenseOf withLicense
  dsimp only
  rw [Keyed.find?_updateWhere, hrow]
  simp [hid]

/-- What is read of the app does not show the license. -/
theorem get_withLicense (text : String) :
    App.get (.ok ()) (withLicense appId text s).db appId = App.get (.ok ()) s.db appId := by
  unfold App.get withLicense
  dsimp only
  rw [Keyed.find?_updateWhere]
  cases s.db.app.find? appId with
  | none => rfl
  | some row =>
    dsimp only [Option.map_some]
    split <;> rfl

theorem withLicense_withLicense (text text' : String) :
    withLicense appId text' (withLicense appId text s) = withLicense appId text' s := by
  have hrows : (withLicense appId text' (withLicense appId text s)).db.app =
      (withLicense appId text' s).db.app := by
    apply Keyed.ext
    unfold withLicense Keyed.updateWhere
    dsimp only
    rw [List.map_map]
    refine List.map_congr_left fun r _ => ?_
    by_cases hid : r.id = appId <;> simp [hid]
  exact congrArg (fun app => ({ s with db := { s.db with app } } : Server)) hrows

theorem Fetched.withLicense (h : Fetched load env appId licenseData s a current license)
    (text : String) :
    Fetched load env appId licenseData (withLicense appId text s) a current license :=
  ⟨(get_withLicense text).trans h.get, h.archive, h.latest⟩

theorem Fetched.id_eq (h : Fetched load env appId licenseData s a current license) :
    a.id = appId :=
  id_of_get h.get

theorem Fetched.isSome_row (h : Fetched load env appId licenseData s a current license) :
    (s.db.app.find? appId).isSome := by
  have hget := Except.wrapError_eq_ok.mp h.get
  cases hrow : s.db.app.find? appId with
  | none =>
    rw [hrow] at hget
    cases hget
  | some row => rfl

/-! ## A retry -/

/-- A sync goes the same way whatever license the row has before: its own is in the row when the
version is made. -/
theorem creates_withLicense {n : Int} (text : String)
    (h : Fetched load env appId licenseData s a current license)
    (hcreates : Creates appId n s (attempt load env appId licenseData s).2) :
    Creates appId n (withLicense appId text s)
      (attempt load env appId licenseData (withLicense appId text s)).2 := by
  refine ⟨hcreates.1, ?_⟩
  rw [attempt_eq h] at hcreates
  rw [attempt_eq (h.withLicense text)]
  split at hcreates
  next => exact absurd hcreates.2 hcreates.1
  next hdiffer =>
    rw [if_neg hdiffer]
    by_cases hsaved : ∃ encodedLicense, Saved env license encodedLicense
    · obtain ⟨encodedLicense, hsaved⟩ := hsaved
      have hid := h.id_eq
      rw [runRequest_createLicensed_saved hsaved] at hcreates ⊢
      rw [hid] at hcreates ⊢
      rw [withLicense_withLicense]
      exact hcreates.2
    · obtain ⟨e, hfailed⟩ := runRequest_createLicensed_unsaved (s := s) (a := a) hsaved
      rw [hfailed] at hcreates
      exact absurd hcreates.2 hcreates.1

/-! ## When a failed sync changes nothing -/

/-- After the license was written to the row, nothing fails any more; or the row had it before and
there is no version yet. -/
def FailsInTime (load : String → Except GoError KotsKinds) (env : SyncEnv) (appId : AppId)
    (licenseData : String) (s : Server) : Prop :=
  ∀ a current license encodedLicense, Fetched load env appId licenseData s a current license →
    license.licenseSequence ≠ current.licenseSequence → Saved env license encodedLicense →
    (∃ n s', CreatesVersion env a (withLicense appId encodedLicense s) n s' ∧ Finishes env a n s') ∨
    (licenseOf s appId = some encodedLicense ∧
      ¬ ∃ n s', CreatesVersion env a (withLicense appId encodedLicense s) n s')

/-- A sync that has saved the license goes on from the row that has it. -/
theorem attempt_saved {encodedLicense : String}
    (h : Fetched load env appId licenseData s a current license)
    (hdiffer : license.licenseSequence ≠ current.licenseSequence)
    (hsaved : Saved env license encodedLicense) :
    attempt load env appId licenseData s =
      ((runRequest (makeVersion env a) (withLicense appId encodedLicense s)).1.map fun _ => license,
        (runRequest (makeVersion env a) (withLicense appId encodedLicense s)).2) := by
  rw [attempt_eq h, if_neg hdiffer, runRequest_createLicensed_saved hsaved, h.id_eq]

theorem attempt_unsaved (h : Fetched load env appId licenseData s a current license)
    (hdiffer : license.licenseSequence ≠ current.licenseSequence)
    (hunsaved : ¬ ∃ encodedLicense, Saved env license encodedLicense) :
    ∃ e, attempt load env appId licenseData s = (.error (.error e), s) := by
  obtain ⟨e, hfailed⟩ := runRequest_createLicensed_unsaved (s := s) (a := a) hunsaved
  rw [attempt_eq h, if_neg hdiffer, hfailed]
  exact ⟨e, rfl⟩

/-- Without a commit, the license in the row is what is left. -/
theorem attempt_uncommitted {encodedLicense : String}
    (h : Fetched load env appId licenseData s a current license)
    (hdiffer : license.licenseSequence ≠ current.licenseSequence)
    (hsaved : Saved env license encodedLicense)
    (huncommitted : ¬ ∃ n s', CreatesVersion env a (withLicense appId encodedLicense s) n s') :
    ∃ e, attempt load env appId licenseData s =
      (.error (.error e), withLicense appId encodedLicense s) := by
  obtain ⟨e, hfailed⟩ := runRequest_makeVersion_uncommitted huncommitted
  rw [attempt_saved h hdiffer hsaved, hfailed]
  exact ⟨e, rfl⟩

/-- After the commit the version is there, whether the rest fails or not. -/
theorem attempt_committed {encodedLicense : String} {n : Int} {s' : Server}
    (h : Fetched load env appId licenseData s a current license)
    (hdiffer : license.licenseSequence ≠ current.licenseSequence)
    (hsaved : Saved env license encodedLicense)
    (hcreates : CreatesVersion env a (withLicense appId encodedLicense s) n s') :
    (Finishes env a n s' → (attempt load env appId licenseData s).1 = .ok license) ∧
      (¬ Finishes env a n s' → ∃ e, (attempt load env appId licenseData s).1 =
        .error (.error e)) ∧
      Creates appId n s (attempt load env appId licenseData s).2 := by
  obtain ⟨hok, herror, hrows⟩ := runRequest_makeVersion_committed hcreates
  have hnew := creates_of_createsVersion hcreates
  rw [h.id_eq] at hnew
  rw [attempt_saved h hdiffer hsaved]
  refine ⟨fun hfinishes => ?_, fun hunfinished => ?_, hnew.1, ?_⟩
  · rw [hok.mpr hfinishes]
    rfl
  · cases hmake : (runRequest (makeVersion env a) (withLicense appId encodedLicense s)).1 with
    | ok u => exact absurd (hok.mp hmake) hunfinished
    | error abort =>
      obtain ⟨e, rfl⟩ := herror abort hmake
      exact ⟨e, rfl⟩
  · have hcommitted := hnew.2
    unfold HasVersion at hcommitted ⊢
    dsimp only
    rw [hrows]
    exact hcommitted

/-- A sync whose error comes too late leaves another license in the row, or a version that no retry
creates any more. -/
theorem changesNothing_iff (load : String → Except GoError KotsKinds) (env : SyncEnv)
    (appId : AppId) (licenseData : String) (s : Server) :
    ChangesNothing load env appId licenseData s ↔ FailsInTime load env appId licenseData s := by
  constructor
  · intro hnothing a current license encodedLicense hfetched hdiffer hsaved
    by_cases hcreates : ∃ n s', CreatesVersion env a (withLicense appId encodedLicense s) n s'
    · left
      obtain ⟨n, s', hcreates⟩ := hcreates
      obtain ⟨-, hfails, hfirst⟩ := attempt_committed hfetched hdiffer hsaved hcreates
      refine ⟨n, s', hcreates, ?_⟩
      by_contra hunfinished
      obtain ⟨e, he⟩ := hfails hunfinished
      -- the version is there after the failure already
      have hretry := (hnothing a current license e _ hfetched (Prod.ext he rfl)).2 env licenseData n
        hfetched hfirst
      exact hretry.1 hfirst.2
    · right
      obtain ⟨e, hfailed⟩ := attempt_uncommitted hfetched hdiffer hsaved hcreates
      have hsame := (hnothing a current license e _ hfetched hfailed).1
      rw [licenseOf_withLicense hfetched.isSome_row] at hsame
      exact ⟨hsame.symm, hcreates⟩
  · intro htime a current license e s' hfetched herror
    have hdiffer : license.licenseSequence ≠ current.licenseSequence := by
      intro hsame
      rw [attempt_eq hfetched, if_pos hsame] at herror
      cases herror
    by_cases hsaved : ∃ encodedLicense, Saved env license encodedLicense
    · obtain ⟨encodedLicense, hsaved⟩ := hsaved
      rcases htime a current license encodedLicense hfetched hdiffer hsaved with
        ⟨n, s₁, hcreates, hfinishes⟩ | ⟨hsame, huncommitted⟩
      · have hok := (attempt_committed hfetched hdiffer hsaved hcreates).1 hfinishes
        rw [herror] at hok
        cases hok
      · obtain ⟨e', hfailed⟩ := attempt_uncommitted hfetched hdiffer hsaved huncommitted
        rw [hfailed] at herror
        cases herror
        constructor
        · rw [licenseOf_withLicense hfetched.isSome_row, hsame]
        · intro env' licenseData' n hfetched' hcreates
          exact creates_withLicense encodedLicense hfetched' hcreates
    · obtain ⟨e', hfailed⟩ := attempt_unsaved hfetched hdiffer hsaved
      rw [hfailed] at herror
      cases herror
      exact ⟨rfl, fun env' licenseData' n _ hcreates => hcreates⟩

end

/-! ## A license in the row only -/

def licensedRow : AppRow :=
  { id := "app", name := "App", slug := "app", currentSequence := some 0, license := "sequence 1",
    installState := .installed }

def licensedServer : Server where
  db :=
    { app := .single licensedRow
      appVersion := .single { appId := "app", sequence := 0, createdAt := 0 } }
  archives := fun appId n => if appId = "app" ∧ n = 0 then some "archive" else none

def oldLicense : License := { appSlug := "app", licenseSequence := 1 }

def loadLicensed (_ : String) : Except GoError KotsKinds := .ok { license := some oldLicense }

/-- A sync that cannot render the new version. -/
def unrenderedSync : SyncEnv where
  loadKotsKinds := .ok {}
  getLatestLicense := fun _ => .ok { appSlug := "app", licenseSequence := 2 }
  encode := fun license => .ok ("sequence " ++ toString license.licenseSequence)
  renderDir := fun _ => .error { cause := "failed to create midstream" }
  version := { loadKotsKindsFromPath := loadLicensed }
  preflight := { loadKotsKinds := .ok {} }

/-- The version was not made, and the app has the license of it. -/
theorem not_changesNothing_unrendered :
    ¬ ChangesNothing loadLicensed unrenderedSync "app" "" licensedServer := by
  intro hnothing
  have hfetched : Fetched loadLicensed unrenderedSync "app" "" licensedServer (mapApp licensedRow)
      oldLicense { appSlug := "app", licenseSequence := 2 } :=
    ⟨rfl, ⟨"archive", _, rfl, rfl, rfl, rfl⟩, rfl⟩
  have hfailed : attempt loadLicensed unrenderedSync "app" "" licensedServer =
      (.error (.error ⟨["failed to render new version"], "failed to create midstream"⟩),
        withLicense "app" "sequence 2" licensedServer) := rfl
  have hsame := (hnothing _ _ _ _ _ hfetched hfailed).1
  exact absurd hsame (by decide)

end Kotsadm.Flows.LicenseSync
