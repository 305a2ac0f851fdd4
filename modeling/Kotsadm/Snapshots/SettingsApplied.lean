import Kotsadm.Snapshots.SettingsKept

/-!
# SettingsApplied — when `UpdateGlobalSnapshotSettings` applies the settings as submitted

The handler either answers an error and changes nothing, or the settings are those of the request
with the old ones of the same provider.  Most of what goes wrong is in the two functions it calls.
-/

namespace Kotsadm.Snapshots

open GoString

/-! ## What the handler should do -/

def Exit.success : Exit → Bool
  | .json _ response => response.success
  | _ => false

/-- The handler does not panic, and without success it changes nothing. -/
def Meets (env : SettingsEnv) (provider bucket path : GoString) (request : Variant) (c : Cluster) :
    Prop :=
  let (exit, c') :=
    updateGlobalSnapshotSettings env (.ok (request.request provider bucket path)) c
  exit ≠ .panic ∧
    if exit.success then
      ∃ prev new, env.read c = .ok (some prev) ∧
        getGlobalStore {} env.ini none c' = .ok (some new) ∧
        MergedAsSubmitted provider bucket path request prev new
    else c' = c

/-! ## Before anything is written -/

/-- The request is answered without a success. -/
structure Exit.Refused (exit : Exit) : Prop where
  ne_panic : exit ≠ .panic
  success : exit.success = false

/-- The session is valid, and velero is there. -/
structure SettingsEnv.Admits (env : SettingsEnv) : Prop where
  authorized : authorize env = .ok ()
  detected : ∃ response, Kotsadm.Snapshots.detected env = .ok response

/-- There are no settings to read, and the handler panics. -/
def SettingsEnv.ReadsNothing (env : SettingsEnv) (c : Cluster) : Prop :=
  env.read c = .error .panic ∨ env.read c = .ok none

/-- The settings of the request were merged with those that are stored, and are valid. -/
structure Accepted (env : SettingsEnv) (provider bucket path : GoString) (request : Variant)
    (c : Cluster) (prev : Store) (merged : Variant) : Prop where
  admits : env.Admits
  read : env.read c = .ok (some prev)
  merges : request.merge prev = .ok merged
  valid : validateStore env.provider (merged.settings provider bucket path) = .ok ()

section

variable {env : SettingsEnv} {provider bucket path : GoString} {request merged : Variant}
  {c : Cluster} {prev : Store}

theorem authorize_refused {exit : Exit} (h : authorize env = .error exit) : exit.Refused := by
  unfold authorize at h
  split at h
  · cases h
    exact ⟨nofun, rfl⟩
  · split at h
    · cases h
      exact ⟨nofun, rfl⟩
    · split at h
      · cases h
        exact ⟨nofun, rfl⟩
      · cases h

theorem detected_refused {exit : Exit} (h : detected env = .error exit) : exit.Refused := by
  unfold detected at h
  split at h <;> cases h <;> exact ⟨nofun, rfl⟩

theorem detected_success {response : Response} (h : detected env = .ok response) :
    response.success = false := by
  unfold detected at h
  split at h <;> cases h
  rfl

theorem fail_refused {response : Response} (h : response.success = false) (code : Nat)
    (error : String) : (response.fail code error).Refused := ⟨nofun, h⟩

/-- The errors of a call are refusals of the request; what it returns is not changed. -/
theorem mapError_ok {α ε : Type} (refuse : ε → Exit) (a : α) :
    Except.mapError refuse (.ok a) = .ok a := rfl

theorem prepareUpdate_accepted (h : Accepted env provider bucket path request c prev merged) :
    ∃ response : Response, response.success = false ∧
      prepareUpdate env (.ok (request.request provider bucket path)) c =
        .ok (response, merged.settings provider bucket path) := by
  obtain ⟨⟨hauthorized, response, hdetected⟩, hread, hmerged, hvalid⟩ := h
  refine ⟨response, detected_success hdetected, ?_⟩
  unfold prepareUpdate
  rw [hauthorized, hdetected, hread]
  dsimp only [bind, Except.bind, exitOn, pure, Except.pure]
  rw [mapError_ok]
  dsimp only
  rw [mergeStore_request, hmerged]
  dsimp only [Functor.map, Except.map]
  rw [mapError_ok]
  dsimp only
  rw [hvalid, mapError_ok]

theorem prepareUpdate_panic (hadmits : env.Admits) (h : env.ReadsNothing c)
    (body : UpdateGlobalSnapshotSettingsRequest) :
    prepareUpdate env (.ok body) c = .error .panic := by
  obtain ⟨hauthorized, response, hdetected⟩ := hadmits
  unfold prepareUpdate
  rw [hauthorized, hdetected]
  rcases h with hread | hread
  · rw [hread]
    rfl
  · rw [hread]
    rfl

/-- With settings to read, the handler answers the request or accepts it. -/
theorem prepareUpdate_refused (hstore : env.Admits → ¬ env.ReadsNothing c)
    (h : ∀ prev merged, ¬ Accepted env provider bucket path request c prev merged) :
    ∃ exit, prepareUpdate env (.ok (request.request provider bucket path)) c = .error exit ∧
      exit.Refused := by
  unfold prepareUpdate
  cases hauthorized : authorize env with
  | error exit => exact ⟨exit, rfl, authorize_refused hauthorized⟩
  | ok _ =>
    cases hdetected : detected env with
    | error exit => exact ⟨exit, rfl, detected_refused hdetected⟩
    | ok response =>
      have hadmits : env.Admits := ⟨hauthorized, response, hdetected⟩
      have hfail := fail_refused (detected_success hdetected)
      dsimp only [bind, Except.bind]
      cases hread : env.read c with
      | error e =>
        cases e with
        | panic => exact absurd (.inl hread) (hstore hadmits)
        | error e => exact ⟨_, rfl, hfail 500 _⟩
      | ok store =>
        cases store with
        | none => exact absurd (.inr hread) (hstore hadmits)
        | some prev =>
          dsimp only [exitOn]
          rw [mapError_ok]
          dsimp only
          rw [mergeStore_request]
          cases hmerged : request.merge prev with
          | error error => exact ⟨_, rfl, hfail 400 error⟩
          | ok merged =>
            dsimp only [Functor.map, Except.map]
            rw [mapError_ok]
            dsimp only
            cases hvalid : validateStore env.provider (merged.settings provider bucket path) with
            | error e => exact ⟨_, rfl, hfail 400 e.cause⟩
            | ok _ => exact absurd ⟨hadmits, hread, hmerged, hvalid⟩ (h prev merged)

/-- There is nothing to read exactly without a default location that has an object storage. -/
theorem readsNothing_iff : env.ReadsNothing c ↔
    env.getCalls.Fine lookCalls ∧ c.defaultLocation.bind (·.objectStorage) = none := by
  unfold SettingsEnv.ReadsNothing SettingsEnv.read
  cases hstorage : c.defaultLocation.bind (·.objectStorage) with
  | none =>
    have hmakes : Makes env.getCalls lookCalls (getGlobalStore env.getCalls env.ini none c) _ :=
      makes_read_nil hstorage
    constructor
    · intro h
      refine ⟨by_contra fun hfine => ?_, rfl⟩
      obtain ⟨e, he⟩ := hmakes.error hfine
      rw [he] at h
      rcases h with h | h <;> cases h
    · rintro ⟨hfine, -⟩
      rw [hmakes.ends hfine]
      cases c.defaultLocation with
      | none => exact .inl rfl
      | some l => exact .inr rfl
  | some storage =>
    refine iff_of_false ?_ fun h => (by cases h.2)
    obtain ⟨location, hdefault, hstorage⟩ := Option.bind_eq_some_iff.mp hstorage
    have hcases : (∃ e, getGlobalStore env.getCalls env.ini none c = .error (.error e)) ∨
        ∃ store, getGlobalStore env.getCalls env.ini none c = .ok (some store) :=
      read_cases hdefault hstorage
    rcases hcases with ⟨e, he⟩ | ⟨store, hok⟩
    · rw [he]
      rintro (h | h) <;> cases h
    · rw [hok]
      rintro (h | h) <;> cases h

theorem read_some (h : env.read c = .ok (some prev)) : ∃ l, c.defaultLocation = some l := by
  cases hdefault : c.defaultLocation with
  | some l => exact ⟨l, rfl⟩
  | none =>
    have hmakes : Makes env.getCalls lookCalls (env.read c) _ :=
      makes_read_nil (by rw [hdefault]; rfl)
    rw [hdefault, h] at hmakes
    by_cases hfine : env.getCalls.Fine lookCalls
    · exact absurd (hmakes.ends hfine) nofun
    · obtain ⟨e, he⟩ := hmakes.error hfine
      cases he

end

/-! ## The writes -/

/-- All that is needed before the secret is written is there. -/
structure Ready (env : SettingsEnv) (merged : Variant) (location : BackupStorageLocation)
    (old : Option Secret) : Prop where
  config : location.config ≠ none ∨ merged.entries = []
  calls : env.updateCalls.Fine (findCalls ++ merged.writeCalls old)

/-- The cluster with the secret and the location. -/
def Variant.written (ini : Ini) (provider bucket path : GoString) (v : Variant)
    (location : BackupStorageLocation) (c : Cluster) : Cluster :=
  (c.setSecret location.ns (v.newSecret ini (c.cloudCredentials location.ns))).setLocation
    (v.newLocation provider bucket path location)

/-- What is written can be read. -/
structure Rereads (env : SettingsEnv) (provider : GoString) (secret : Option Secret) : Prop where
  calls : env.rereadCalls.Fine (rereadCalls provider)
  loads : Loads env.ini provider secret

section

variable {env : SettingsEnv} {provider bucket path : GoString} {merged : Variant}
  {c c' : Cluster} {location : BackupStorageLocation}

theorem updateGlobalStore_panic (hdefault : c.defaultLocation = some location)
    (hfine : env.updateCalls.Fine findCalls) (hentries : merged.entries ≠ [])
    (hconfig : location.config = none) :
    updateGlobalStore env.updateCalls env.ini (merged.settings provider bucket path) c =
      (.error .panic, c) := by
  unfold updateGlobalStore
  rw [(prepareLocation_panic hdefault hconfig hentries).ends hfine]

/-- Before the secret is written, an error changes nothing. -/
theorem updateGlobalStore_not_ready (hdefault : c.defaultLocation = some location)
    (hconfig : env.updateCalls.Fine findCalls → merged.entries ≠ [] → location.config ≠ none)
    (hready : ¬ Ready env merged location (c.cloudCredentials location.ns)) :
    ∃ e, updateGlobalStore env.updateCalls env.ini (merged.settings provider bucket path) c =
      (.error (.error e), c) := by
  have herror : ∃ e, prepareLocation env.updateCalls env.ini
      (merged.settings provider bucket path) c = .error (.error e) := by
    by_cases hwritable : location.config ≠ none ∨ merged.entries = []
    · exact (makes_prepareLocation hdefault hwritable).error fun hfine =>
        hready ⟨hwritable, hfine⟩
    · rw [not_or, not_not] at hwritable
      exact (prepareLocation_panic hdefault hwritable.1 hwritable.2).error fun hfine =>
        hconfig hfine hwritable.2 hwritable.1
  obtain ⟨e, he⟩ := herror
  unfold updateGlobalStore
  rw [he]
  exact ⟨e, rfl⟩

/-- The secret is written, but not the location. -/
theorem updateGlobalStore_failure (hdefault : c.defaultLocation = some location)
    (hready : Ready env merged location (c.cloudCredentials location.ns))
    (hfailure : env.updateCalls.failure .updateBackupStorageLocation ≠ none) :
    ∃ e, updateGlobalStore env.updateCalls env.ini (merged.settings provider bucket path) c =
      (.error (.error e), c.setSecret location.ns
        (merged.newSecret env.ini (c.cloudCredentials location.ns))) := by
  obtain ⟨e, he⟩ := Option.ne_none_iff_exists'.mp hfailure
  unfold updateGlobalStore
  rw [(makes_prepareLocation hdefault hready.config).ends hready.calls]
  unfold Calls.call
  rw [he]
  exact ⟨_, rfl⟩

theorem updateGlobalStore_written (hdefault : c.defaultLocation = some location)
    (hready : Ready env merged location (c.cloudCredentials location.ns))
    (hfailure : env.updateCalls.failure .updateBackupStorageLocation = none) :
    updateGlobalStore env.updateCalls env.ini (merged.settings provider bucket path) c =
      (.ok (merged.newLocation provider bucket path location),
        merged.written env.ini provider bucket path location c) := by
  unfold updateGlobalStore
  rw [(makes_prepareLocation hdefault hready.config).ends hready.calls]
  unfold Calls.call
  rw [hfailure]
  rfl

/-! ### What is in the cluster after them -/

theorem written_secret : (merged.written env.ini provider bucket path location c).cloudCredentials
    location.ns = merged.newSecret env.ini (c.cloudCredentials location.ns) :=
  Function.update_self _ _ c.cloudCredentials

theorem written_location (hdefault : c.defaultLocation = some location) :
    (merged.written env.ini provider bucket path location c).defaultLocation =
      some (merged.newLocation provider bucket path location) :=
  defaultLocation_setLocation hdefault rfl rfl

theorem setSecret_eq_self_iff {ns : String} {secret : Option Secret} :
    c.setSecret ns secret = c ↔ secret = c.cloudCredentials ns := by
  constructor
  · intro h
    have hsecret := congrArg (fun c : Cluster => c.cloudCredentials ns) h
    rw [← hsecret]
    exact (Function.update_self ns secret c.cloudCredentials).symm
  · intro h
    unfold Cluster.setSecret
    rw [h, Function.update_eq_self]

/-- The update of the default location changes nothing else. -/
theorem setLocation_eq_self (hdefault : c.defaultLocation = some location) :
    c.setLocation location = c := by
  have hmem : location ∈ c.backupStorageLocations.rows := List.mem_of_find?_eq_some hdefault
  have hrows : (c.setLocation location).backupStorageLocations = c.backupStorageLocations := by
    apply Keyed.ext
    unfold Cluster.setLocation Keyed.updateWhere
    dsimp only
    conv_rhs => rw [← List.map_id c.backupStorageLocations.rows]
    apply List.map_congr_left
    intro other hother
    split
    next hkey =>
      rw [c.backupStorageLocations.eq_of_key_eq hother hmem (of_decide_eq_true hkey)]
      rfl
    next => rfl
  calc c.setLocation location
      = { c with backupStorageLocations := (c.setLocation location).backupStorageLocations } := rfl
    _ = c := by rw [hrows]

/-- The writes leave nothing behind when they write what was there. -/
theorem written_eq_self_iff (hdefault : c.defaultLocation = some location) :
    merged.written env.ini provider bucket path location c = c ↔
      merged.newSecret env.ini (c.cloudCredentials location.ns) = c.cloudCredentials location.ns ∧
        merged.newLocation provider bucket path location = location := by
  constructor
  · intro h
    have hsecret : (merged.written env.ini provider bucket path location c).cloudCredentials
        location.ns = _ := written_secret
    have hlocation : (merged.written env.ini provider bucket path location c).defaultLocation =
        _ := written_location hdefault
    rw [h] at hsecret hlocation
    exact ⟨hsecret.symm, (Option.some.inj (hdefault.symm.trans hlocation)).symm⟩
  · rintro ⟨hsecret, hlocation⟩
    unfold Variant.written
    rw [hlocation, setSecret_eq_self_iff.mpr hsecret]
    exact setLocation_eq_self hdefault

/-! ## The rest of the handler -/

variable {response : Response} {store : Store}

theorem storeSettings_error {e : GoError} (hsuccess : response.success = false)
    (h : updateGlobalStore env.updateCalls env.ini store c = (.error (.error e), c')) :
    ∃ exit, storeSettings env response store c = (exit, c') ∧ exit.Refused := by
  unfold storeSettings
  rw [h]
  exact ⟨_, rfl, fail_refused hsuccess 400 _⟩

theorem storeSettings_reread_error {e : GoError} (hsuccess : response.success = false)
    {updated : BackupStorageLocation}
    (h : updateGlobalStore env.updateCalls env.ini store c = (.ok updated, c'))
    (hread : env.reread updated c' = .error (.error e)) :
    ∃ exit, storeSettings env response store c = (exit, c') ∧ exit.Refused := by
  unfold storeSettings
  rw [h]
  dsimp only [exitOn, bind, Except.bind]
  rw [hread]
  exact ⟨_, rfl, fail_refused hsuccess 500 _⟩

theorem storeSettings_ok {updated : BackupStorageLocation} {read : Option Store}
    (h : updateGlobalStore env.updateCalls env.ini store c = (.ok updated, c'))
    (hread : env.reread updated c' = .ok read) :
    storeSettings env response store c = (respondStore response read, c') := by
  unfold storeSettings
  rw [h]
  dsimp only [exitOn, bind, Except.bind]
  rw [hread]
  rfl

/-! ## What is read after the writes -/

theorem reread_written
    (hrereads : Rereads env provider (merged.newSecret env.ini (c.cloudCredentials location.ns))) :
    env.reread (merged.newLocation provider bucket path location)
        (merged.written env.ini provider bucket path location c) =
      .ok (some (readSettings env.ini provider bucket path (location.config.setAll merged.entries)
        (merged.newSecret env.ini (c.cloudCredentials location.ns)))) := by
  obtain ⟨hfine, hloads⟩ := hrereads
  rw [← written_secret] at hloads ⊢
  have hmakes : Makes env.rereadCalls (rereadCalls provider)
      (env.reread (merged.newLocation provider bucket path location)
        (merged.written env.ini provider bucket path location c)) _ := makes_reread hloads rfl rfl
  exact hmakes.ends hfine

theorem reread_error (hrereads : ¬ Rereads env provider
      (merged.newSecret env.ini (c.cloudCredentials location.ns))) :
    ∃ e, env.reread (merged.newLocation provider bucket path location)
      (merged.written env.ini provider bucket path location c) = .error (.error e) := by
  by_cases hloads : Loads env.ini provider
      (merged.newSecret env.ini (c.cloudCredentials location.ns))
  · rw [← written_secret] at hloads
    have hmakes : Makes env.rereadCalls (rereadCalls provider)
        (env.reread (merged.newLocation provider bucket path location)
          (merged.written env.ini provider bucket path location c)) _ := makes_reread hloads rfl rfl
    exact hmakes.error fun hfine => hrereads ⟨hfine, written_secret ▸ hloads⟩
  · rw [← written_secret] at hloads
    exact reread_not_loads hloads rfl rfl

/-- Anyone who reads the settings later finds the same. -/
theorem read_written (hdefault : c.defaultLocation = some location)
    (hloads : Loads env.ini provider (merged.newSecret env.ini (c.cloudCredentials location.ns))) :
    getGlobalStore {} env.ini none (merged.written env.ini provider bucket path location c) =
      .ok (some (readSettings env.ini provider bucket path (location.config.setAll merged.entries)
        (merged.newSecret env.ini (c.cloudCredentials location.ns)))) := by
  rw [getGlobalStore_none (written_location hdefault) rfl]
  rw [← written_secret] at hloads ⊢
  have hmakes : Makes {} _ (readLocation {} env.ini provider bucket path
      (location.config.setAll merged.entries)
      ((merged.written env.ini provider bucket path location c).cloudCredentials location.ns)) _ :=
    makes_readLocation hloads
  exact hmakes.ends fun _ _ => rfl

end

/-! ## When the handler does what it should -/

/-- What the settings need at this location. -/
structure Applicable (env : SettingsEnv) (provider bucket path : GoString)
    (request merged : Variant) (prev : Store) (location : BackupStorageLocation)
    (old : Option Secret) : Prop where
  -- an entry of a nil `Spec.Config` cannot be assigned
  config : env.updateCalls.Fine findCalls → merged.entries ≠ [] → location.config ≠ none
  -- the secret is written before the location
  secret : Ready env merged location old →
    env.updateCalls.failure .updateBackupStorageLocation ≠ none →
    merged.newSecret env.ini old = old
  -- both are written before they are read again
  written : Ready env merged location old →
    env.updateCalls.failure .updateBackupStorageLocation = none →
    ¬ Rereads env provider (merged.newSecret env.ini old) →
    merged.newSecret env.ini old = old ∧ merged.newLocation provider bucket path location = location
  kept : Ready env merged location old →
    env.updateCalls.failure .updateBackupStorageLocation = none →
    Rereads env provider (merged.newSecret env.ini old) →
    Kept env.ini old provider bucket path request merged prev

/-- What the handler needs to find. -/
structure Sound (env : SettingsEnv) (provider bucket path : GoString) (request : Variant)
    (c : Cluster) : Prop where
  -- without a default location, or without an object storage, the nil pointer is dereferenced
  store : env.Admits → env.getCalls.Fine lookCalls →
    c.defaultLocation.bind (·.objectStorage) ≠ none
  applicable : ∀ prev merged location, Accepted env provider bucket path request c prev merged →
    c.defaultLocation = some location →
    Applicable env provider bucket path request merged prev location
      (c.cloudCredentials location.ns)

section

variable {env : SettingsEnv} {provider bucket path : GoString} {request merged : Variant}
  {c c' : Cluster} {prev : Store} {location : BackupStorageLocation} {exit : Exit}

theorem meets_iff_of_refused
    (h : updateGlobalSnapshotSettings env (.ok (request.request provider bucket path)) c =
      (exit, c')) (hexit : exit.Refused) :
    Meets env provider bucket path request c ↔ c' = c := by
  unfold Meets
  rw [h]
  dsimp only
  rw [hexit.success, if_neg Bool.false_ne_true]
  exact and_iff_right hexit.ne_panic

theorem meets_iff_of_success {response : Response} {store new : Store}
    (h : updateGlobalSnapshotSettings env (.ok (request.request provider bucket path)) c =
      (respondStore response store, c')) (hread : env.read c = .ok (some prev))
    (hnew : getGlobalStore {} env.ini none c' = .ok (some new)) :
    Meets env provider bucket path request c ↔
      MergedAsSubmitted provider bucket path request prev new := by
  unfold Meets
  rw [h]
  dsimp only
  have hsuccess : (respondStore response store).success = true := rfl
  rw [hsuccess, if_pos rfl, and_iff_right nofun, hread, hnew]
  simp only [Except.ok.injEq, Option.some.injEq, exists_and_left, exists_eq_left']

theorem sound_iff_of_accepted (h : Accepted env provider bucket path request c prev merged)
    (hdefault : c.defaultLocation = some location) :
    Sound env provider bucket path request c ↔
      Applicable env provider bucket path request merged prev location
        (c.cloudCredentials location.ns) := by
  constructor
  · intro hsound
    exact hsound.applicable prev merged location h hdefault
  · intro happlicable
    refine ⟨fun _ hfine hstorage => ?_, fun prev' merged' location' h' hdefault' => ?_⟩
    · have hnothing : env.ReadsNothing c := readsNothing_iff.mpr ⟨hfine, hstorage⟩
      rcases hnothing with hread | hread
      · cases h.read.symm.trans hread
      · cases h.read.symm.trans hread
    · cases h.read.symm.trans h'.read
      cases h.merges.symm.trans h'.merges
      cases hdefault.symm.trans hdefault'
      exact happlicable

section

variable {old : Option Secret}

/-- The location is not updated. -/
theorem applicable_iff_of_failure (hready : Ready env merged location old)
    (hfailure : env.updateCalls.failure .updateBackupStorageLocation ≠ none) :
    Applicable env provider bucket path request merged prev location old ↔
      merged.newSecret env.ini old = old := by
  constructor
  · intro happlicable
    exact happlicable.secret hready hfailure
  · intro hsecret
    refine ⟨fun _ hentries => hready.config.resolve_right hentries, fun _ _ => hsecret, ?_, ?_⟩
    · exact fun _ hnone => absurd hnone hfailure
    · exact fun _ hnone => absurd hnone hfailure

/-- What was written cannot be read again. -/
theorem applicable_iff_of_lost (hready : Ready env merged location old)
    (hfailure : env.updateCalls.failure .updateBackupStorageLocation = none)
    (hrereads : ¬ Rereads env provider (merged.newSecret env.ini old)) :
    Applicable env provider bucket path request merged prev location old ↔
      merged.newSecret env.ini old = old ∧
        merged.newLocation provider bucket path location = location := by
  constructor
  · intro happlicable
    exact happlicable.written hready hfailure hrereads
  · intro hsame
    refine ⟨fun _ hentries => hready.config.resolve_right hentries, ?_, fun _ _ _ => hsame, ?_⟩
    · exact fun _ hsome => absurd hfailure hsome
    · exact fun _ _ hreads => absurd hreads hrereads

theorem applicable_iff_of_read (hready : Ready env merged location old)
    (hfailure : env.updateCalls.failure .updateBackupStorageLocation = none)
    (hrereads : Rereads env provider (merged.newSecret env.ini old)) :
    Applicable env provider bucket path request merged prev location old ↔
      Kept env.ini old provider bucket path request merged prev := by
  constructor
  · intro happlicable
    exact happlicable.kept hready hfailure hrereads
  · intro hkept
    refine ⟨fun _ hentries => hready.config.resolve_right hentries, ?_, ?_, fun _ _ _ => hkept⟩
    · exact fun _ hsome => absurd hfailure hsome
    · exact fun _ _ hlost => absurd hrereads hlost

end

/-- The request is accepted, and the secret and the location can be written. -/
theorem meets_iff_of_ready (h : Accepted env provider bucket path request c prev merged)
    (hdefault : c.defaultLocation = some location)
    (hready : Ready env merged location (c.cloudCredentials location.ns)) :
    Meets env provider bucket path request c ↔
      Applicable env provider bucket path request merged prev location
        (c.cloudCredentials location.ns) := by
  obtain ⟨response, hsuccess, hprepare⟩ := prepareUpdate_accepted h
  have hhandler : updateGlobalSnapshotSettings env (.ok (request.request provider bucket path)) c =
      storeSettings env response (merged.settings provider bucket path) c := by
    unfold updateGlobalSnapshotSettings
    rw [hprepare]
  by_cases hfailure : env.updateCalls.failure .updateBackupStorageLocation = none
  -- both are written; what the handler answers depends on the reader
  · have hupdate : updateGlobalStore env.updateCalls env.ini
        (merged.settings provider bucket path) c = _ :=
      updateGlobalStore_written hdefault hready hfailure
    by_cases hrereads : Rereads env provider
        (merged.newSecret env.ini (c.cloudCredentials location.ns))
    · have hexit := hhandler.trans (storeSettings_ok hupdate (reread_written hrereads))
      rw [meets_iff_of_success hexit h.read (read_written hdefault hrereads.loads),
        mergedAsSubmitted_iff_kept h.merges hready.config hrereads.loads,
        applicable_iff_of_read hready hfailure hrereads]
    · obtain ⟨e, herror⟩ := reread_error hrereads
      obtain ⟨exit, hexit, hrefused⟩ := storeSettings_reread_error hsuccess hupdate herror
      rw [meets_iff_of_refused (hhandler.trans hexit) hrefused, written_eq_self_iff hdefault,
        applicable_iff_of_lost hready hfailure hrereads]
  -- the secret is written already
  · obtain ⟨e, hupdate⟩ := updateGlobalStore_failure hdefault hready hfailure
    obtain ⟨exit, hexit, hrefused⟩ := storeSettings_error hsuccess hupdate
    rw [meets_iff_of_refused (hhandler.trans hexit) hrefused, setSecret_eq_self_iff,
      applicable_iff_of_failure hready hfailure]

/-- Something is missing before the secret is written. -/
theorem meets_iff_of_not_ready (h : Accepted env provider bucket path request c prev merged)
    (hdefault : c.defaultLocation = some location)
    (hready : ¬ Ready env merged location (c.cloudCredentials location.ns)) :
    Meets env provider bucket path request c ↔
      Applicable env provider bucket path request merged prev location
        (c.cloudCredentials location.ns) := by
  obtain ⟨response, hsuccess, hprepare⟩ := prepareUpdate_accepted h
  have hhandler : updateGlobalSnapshotSettings env (.ok (request.request provider bucket path)) c =
      storeSettings env response (merged.settings provider bucket path) c := by
    unfold updateGlobalSnapshotSettings
    rw [hprepare]
  by_cases hconfig : env.updateCalls.Fine findCalls → merged.entries ≠ [] → location.config ≠ none
  · obtain ⟨e, hupdate⟩ := updateGlobalStore_not_ready hdefault hconfig hready
    obtain ⟨exit, hexit, hrefused⟩ := storeSettings_error hsuccess hupdate
    rw [meets_iff_of_refused (hhandler.trans hexit) hrefused]
    refine iff_of_true rfl ⟨hconfig, ?_, ?_, ?_⟩
    · exact fun hready' => absurd hready' hready
    · exact fun hready' => absurd hready' hready
    · exact fun hready' => absurd hready' hready
  -- the assignment to the nil config
  · refine iff_of_false ?_ fun happlicable => hconfig happlicable.config
    simp only [not_forall, not_not] at hconfig
    obtain ⟨hfine, hentries, hconfig⟩ := hconfig
    have hupdate : updateGlobalStore env.updateCalls env.ini
        (merged.settings provider bucket path) c = (.error .panic, c) :=
      updateGlobalStore_panic hdefault hfine hentries hconfig
    unfold Meets
    rw [hhandler]
    unfold storeSettings
    rw [hupdate]
    exact fun hmeets => hmeets.1 rfl

end

/-- A valid session, a running velero, and calls that succeed. -/
def runningVelero : SettingsEnv where
  method := "PUT"
  session := .ok (some "session")
  detectVelero := .ok (some {
    version := "v1.5.1", plugins := [], status := "Ready", resticVersion := "v1.5.1"
    resticStatus := "Ready" })
  ini := awsIni
  provider := .ok ()
  getCalls := {}
  updateCalls := {}
  rereadCalls := {}

end Kotsadm.Snapshots
