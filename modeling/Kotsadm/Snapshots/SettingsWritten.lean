import Kotsadm.Snapshots.SettingsMerge

/-!
# SettingsWritten — what the settings of one provider make of the cluster

The calls that `UpdateGlobalStore` makes depend on the provider and on whether there is a secret.
If they succeed, the secret and the location are written; a nil `Spec.Config` panics before that.
-/

namespace Kotsadm.Snapshots

open GoString

/-! ## Programs that make calls -/

def Calls.Fine (calls : Calls) (cs : List Call) : Prop := ∀ c ∈ cs, calls.failure c = none

/-- The program makes these calls: it ends as `r` if they succeed, and with an error if not. -/
structure Makes {α : Type} (calls : Calls) (cs : List Call) (x r : Except Abort α) : Prop where
  ends : calls.Fine cs → x = r
  error : ¬ calls.Fine cs → ∃ e, x = .error (.error e)

section

variable {α β : Type} {calls : Calls} {cs cs' : List Call} {x : Except Abort α} {a : α}
  {r : Except Abort β} {f : α → Except Abort β}

theorem Calls.fine_append : calls.Fine (cs ++ cs') ↔ calls.Fine cs ∧ calls.Fine cs' :=
  List.forall_mem_append

theorem Makes.none (calls : Calls) (x : Except Abort α) : Makes calls [] x x where
  ends _ := rfl
  error h := absurd (fun _ hc => (by cases hc)) h

theorem Makes.call (calls : Calls) (c : Call) (context : String) :
    Makes calls [c] (calls.call c context) (.ok ()) where
  ends h := by
    unfold Calls.call
    rw [h c List.mem_cons_self]
  error h := by
    unfold Calls.call
    cases hc : calls.failure c with
    | none =>
      refine absurd (fun c' hc' => ?_) h
      rw [List.mem_singleton.mp hc', hc]
    | some e => exact ⟨_, rfl⟩

theorem Makes.bind (hx : Makes calls cs x (.ok a)) (hf : Makes calls cs' (f a) r) :
    Makes calls (cs ++ cs') (x >>= f) r where
  ends h := by
    obtain ⟨hcs, hcs'⟩ := Calls.fine_append.mp h
    rw [hx.ends hcs]
    exact hf.ends hcs'
  error h := by
    by_cases hcs : calls.Fine cs
    · rw [hx.ends hcs]
      exact hf.error fun hcs' => h (Calls.fine_append.mpr ⟨hcs, hcs'⟩)
    · obtain ⟨e, he⟩ := hx.error hcs
      rw [he]
      exact ⟨e, rfl⟩

/-- What follows makes no call. -/
theorem Makes.map (hx : Makes calls cs x (.ok a)) (hf : f a = r) : Makes calls cs (x >>= f) r := by
  have hbind : Makes calls (cs ++ []) (x >>= f) r := hx.bind (hf ▸ Makes.none calls (f a))
  rw [List.append_nil] at hbind
  exact hbind

theorem Makes.fmap (hx : Makes calls cs x (.ok a)) (g : α → β) :
    Makes calls cs (g <$> x) (.ok (g a)) where
  ends h := by
    rw [hx.ends h]
    rfl
  error h := by
    obtain ⟨e, he⟩ := hx.error h
    rw [he]
    exact ⟨e, rfl⟩

theorem Makes.wrap (hx : Makes calls cs x (.ok a)) (context : String) :
    Makes calls cs (wrapAbort context x) (.ok a) where
  ends h := by
    rw [hx.ends h]
    rfl
  error h := by
    obtain ⟨e, he⟩ := hx.error h
    rw [he]
    exact ⟨_, rfl⟩

end

/-! ## The secret and the location -/

def removeCalls (old : Option Secret) : List Call := if old.isSome then [.deleteSecret] else []

def saveCalls (old : Option Secret) : List Call :=
  if old.isSome then [.updateSecret] else [.createSecret]

/-- What is called for the secret. -/
def Variant.writeCalls (old : Option Secret) : Variant → List Call
  | .aws a =>
    if a.useInstanceRole then removeCalls old
    else [.newSection, .newKey "aws_access_key_id", .newKey "aws_secret_access_key", .writeTo,
      .flush] ++ saveCalls old
  | .other _ => []
  | .google g => if g.useInstanceRole then removeCalls old else saveCalls old
  | .azure _ => saveCalls old

def withCloud (old : Option Secret) (cloud : GoString) : Secret where
  data := some (Function.update ((old.bind Secret.data).getD fun _ => none) "cloud" (some cloud))

/-- The secret with these settings. -/
def Variant.newSecret (ini : Ini) (old : Option Secret) : Variant → Option Secret
  | .aws a =>
    if a.useInstanceRole then none
    else some (withCloud old (ini.writeTo [defaultSection a.accessKeyID a.secretAccessKey]))
  | .other _ => old
  | .google g => if g.useInstanceRole then none else some (withCloud old g.serviceAccount)
  | .azure a => some (withCloud old (renderAzureConfig a.config))

/-- The entries of `Spec.Config` with these settings. -/
def Variant.entries : Variant → List (String × Option GoString)
  | .aws a => [("region", some a.region), ("s3Url", none)]
  | .other o => [("region", some o.region), ("s3Url", some o.endpoint)]
  | .google _ => []
  | .azure a => [("resourceGroup", some a.resourceGroup), ("storageAccount", some a.storageAccount),
      ("subscriptionId", some a.subscriptionID)]

def GoMap.setAll (m : GoMap) (entries : List (String × Option GoString)) : GoMap :=
  m.map fun f => entries.foldl (fun f entry => Function.update f entry.1 entry.2) f

/-- The location with these settings. -/
def Variant.newLocation (provider bucket path : GoString) (v : Variant)
    (location : BackupStorageLocation) : BackupStorageLocation :=
  { location with
    provider
    objectStorage := some { bucket, objectPrefix := path }
    config := location.config.setAll v.entries }

section

variable {calls : Calls} {ini : Ini} {old : Option Secret} {config : GoMap} {v : Variant}
  {provider bucket path : GoString}

theorem makes_createOrUpdateSecret (calls : Calls) (old : Option Secret) (cloud : GoString) :
    Makes calls (saveCalls old) (createOrUpdateSecret calls old cloud)
      (.ok (withCloud old cloud)) := by
  unfold createOrUpdateSecret
  cases old with
  | none => exact (Makes.call calls .createSecret _).map rfl
  | some secret => exact (Makes.call calls .updateSecret _).map rfl

theorem makes_deleteSecret (calls : Calls) (old : Option Secret) (context : String) :
    Makes calls (removeCalls old) (deleteSecret calls old context) (.ok ()) := by
  unfold deleteSecret
  cases old with
  | none => exact Makes.none calls _
  | some secret => exact Makes.call calls .deleteSecret context

/-- With a config, or without entries for it, the settings are written. -/
theorem makes_updateConfig (hconfig : config ≠ none ∨ v.entries = []) :
    Makes calls (v.writeCalls old)
      (updateConfig calls ini (v.settings provider bucket path) config old)
      (.ok (config.setAll v.entries, v.newSecret ini old)) := by
  cases v with
  | google g =>
    -- the only provider that leaves the config alone
    show Makes calls _ (updateGoogle calls g config old) _
    have hsame : config.setAll (Variant.google g).entries = config := by
      cases config <;> rfl
    rw [hsame]
    unfold updateGoogle Variant.writeCalls Variant.newSecret
    dsimp only
    split
    · exact (makes_deleteSecret calls old _).map rfl
    · exact (makes_createOrUpdateSecret calls old _).map rfl
  | aws a =>
    obtain ⟨f, rfl⟩ := Option.ne_none_iff_exists'.mp (hconfig.resolve_right (List.cons_ne_nil _ _))
    show Makes calls _ (updateAWS calls ini a (some f) old) _
    unfold updateAWS Variant.writeCalls Variant.newSecret
    dsimp only [GoMap.set, bind, Except.bind]
    split
    · exact (makes_deleteSecret calls old _).map rfl
    · exact (Makes.call calls _ _).bind ((Makes.call calls _ _).bind ((Makes.call calls _ _).bind
        ((Makes.call calls _ _).bind ((Makes.call calls _ _).bind
          ((makes_createOrUpdateSecret calls old _).map rfl)))))
  | other o =>
    obtain ⟨f, rfl⟩ := Option.ne_none_iff_exists'.mp (hconfig.resolve_right (List.cons_ne_nil _ _))
    exact Makes.none calls _
  | azure a =>
    obtain ⟨f, rfl⟩ := Option.ne_none_iff_exists'.mp (hconfig.resolve_right (List.cons_ne_nil _ _))
    exact (makes_createOrUpdateSecret calls old _).map rfl

/-- An assignment to a nil config panics. -/
theorem updateConfig_panic (h : v.entries ≠ []) :
    updateConfig calls ini (v.settings provider bucket path) none old = .error .panic := by
  cases v with
  | google g => exact absurd rfl h
  | aws a => rfl
  | other o => rfl
  | azure a => rfl

/-! ## UpdateGlobalStore -/

/-- The calls to find the location and its secret. -/
def findCalls : List Call :=
  [.getConfig, .newClientset, .newVeleroClient, .findGetConfig, .findNewVeleroClient,
    .listBackupStorageLocations, .getSecret]

variable {c : Cluster} {location : BackupStorageLocation}

theorem makes_findBackupStoreLocation (hdefault : c.defaultLocation = some location) :
    Makes calls [.findGetConfig, .findNewVeleroClient, .listBackupStorageLocations]
      (findBackupStoreLocation calls c) (.ok location) := by
  unfold findBackupStoreLocation
  refine (Makes.call calls _ _).bind ((Makes.call calls _ _).bind ((Makes.call calls _ _).map ?_))
  rw [hdefault]
  rfl

/-- The secret and the location are ready to be written. -/
theorem makes_prepareLocation (hdefault : c.defaultLocation = some location)
    (hconfig : location.config ≠ none ∨ v.entries = []) :
    Makes calls (findCalls ++ v.writeCalls (c.cloudCredentials location.ns))
      (prepareLocation calls ini (v.settings provider bucket path) c)
      (.ok (v.newLocation provider bucket path location,
        v.newSecret ini (c.cloudCredentials location.ns))) := by
  obtain ⟨hprovider, hbucket, hpath⟩ := v.settings_fields provider bucket path
  unfold prepareLocation
  refine (Makes.call calls _ _).bind ((Makes.call calls _ _).bind ((Makes.call calls _ _).bind
    (((makes_findBackupStoreLocation hdefault).wrap _).bind ((Makes.call calls _ _).bind
      ((makes_updateConfig hconfig).map ?_)))))
  rw [hprovider, hbucket, hpath]
  rfl

/-- A nil config is noticed once the location and the secret are found. -/
theorem prepareLocation_panic (hdefault : c.defaultLocation = some location)
    (hconfig : location.config = none) (hentries : v.entries ≠ []) :
    Makes calls findCalls (prepareLocation calls ini (v.settings provider bucket path) c)
      (.error .panic) := by
  unfold prepareLocation
  refine (Makes.call calls _ _).bind ((Makes.call calls _ _).bind ((Makes.call calls _ _).bind
    (((makes_findBackupStoreLocation hdefault).wrap _).bind ((Makes.call calls _ _).map ?_))))
  rw [hconfig, updateConfig_panic hentries]
  rfl

/-! ## GetGlobalStore -/

/-- The keys that the reader finds in the secret. -/
def keysIn (ini : Ini) (secret : Option Secret) : GoString × GoString :=
  match secret with
  | none => ([], [])
  | some s =>
    match ini.load (s.data.value "cloud") with
    | .ok sections => accessKeys sections
    | .error _ => ([], [])

/-- A cloud name that is missing in the secret. -/
def orPublicCloud (cloudName : GoString) : GoString :=
  if cloudName = [] then ascii "AzurePublicCloud" else cloudName

/-- The settings as the reader guesses them. -/
def readSettings (ini : Ini) (provider bucket path : GoString) (config : GoMap)
    (secret : Option Secret) : Store :=
  let plain : Store := { provider, bucket, path }
  let cloud : GoString := secret.elim [] fun s => s.data.value "cloud"
  if provider = ascii "aws" then
    let region := config.value "region"
    let (accessKeyID, secretAccessKey) := keysIn ini secret
    match config.get "s3Url" with
    | some endpoint =>
      { plain with other := some { region, accessKeyID, secretAccessKey, endpoint } }
    | none =>
      { plain with
        aws := some { region, accessKeyID, secretAccessKey, useInstanceRole := secret.isNone } }
  else if provider = ascii "azure" then
    let azureConfig : Azure := secret.elim {} fun s => parseAzureConfig (s.data.value "cloud")
    { plain with
      azure := some {
        resourceGroup := config.value "resourceGroup"
        storageAccount := config.value "storageAccount"
        subscriptionID := config.value "subscriptionId"
        tenantID := azureConfig.tenantID
        clientID := azureConfig.clientID
        clientSecret := azureConfig.clientSecret
        cloudName := orPublicCloud azureConfig.cloudName } }
  else if provider = ascii "gcp" then
    { plain with google := some { serviceAccount := cloud, useInstanceRole := cloud = [] } }
  else plain

/-- The reader looks at the secret only for these providers. -/
def rereadCalls (provider : GoString) : List Call :=
  [.getConfig, .newClientset] ++
    if provider ∈ [ascii "aws", ascii "azure", ascii "gcp"] then [.getSecret] else []

/-- The package `ini` loads the secret, if it has to. -/
def Loads (ini : Ini) (provider : GoString) (secret : Option Secret) : Prop :=
  provider = ascii "aws" → ∀ s, secret = some s →
    ∃ sections, ini.load (s.data.value "cloud") = .ok sections

theorem makes_getAWS {secret : Option Secret} (hloads : ∀ s, secret = some s →
      ∃ sections, ini.load (s.data.value "cloud") = .ok sections) (store : Store) :
    Makes calls [.getSecret] (getAWS calls ini store config secret)
      (.ok (match config.get "s3Url" with
        | some endpoint =>
          { store with other := some {
              region := config.value "region"
              accessKeyID := (keysIn ini secret).1
              secretAccessKey := (keysIn ini secret).2
              endpoint } }
        | none =>
          { store with aws := some {
              region := config.value "region"
              accessKeyID := (keysIn ini secret).1
              secretAccessKey := (keysIn ini secret).2
              useInstanceRole := secret.isNone } })) := by
  unfold getAWS keysIn
  refine (Makes.call calls _ _).map ?_
  cases secret with
  | none =>
    cases config.get "s3Url" <;> rfl
  | some s =>
    obtain ⟨sections, hload⟩ := hloads s rfl
    dsimp only
    rw [hload]
    cases config.get "s3Url" <;> rfl

/-- A call before an error ends with an error as well. -/
theorem call_bind_error {α : Type} {x : Except Abort α} (h : ∃ e, x = .error (.error e))
    (call : Call) (context : String) :
    ∃ e, (calls.call call context >>= fun _ => x) = .error (.error e) := by
  unfold Calls.call
  cases calls.failure call with
  | none => exact h
  | some e => exact ⟨_, rfl⟩

/-- What the reader does with a location that has an object storage. -/
def readLocation (calls : Calls) (ini : Ini) (provider bucket path : GoString) (config : GoMap)
    (secret : Option Secret) : Except Abort (Option Store) :=
  let plain : Store := { provider, bucket, path }
  if provider = ascii "aws" then some <$> getAWS calls ini plain config secret
  else if provider = ascii "azure" then some <$> getAzure calls plain config secret
  else if provider = ascii "gcp" then some <$> getGoogle calls plain secret
  else .ok (some plain)

def lookCalls : List Call :=
  [.getConfig, .newClientset, .newVeleroClient, .listBackupStorageLocations]

theorem getGlobalStore_some (hprovider : location.provider = provider)
    (hstorage : location.objectStorage = some { bucket, objectPrefix := path }) :
    getGlobalStore calls ini (some location) c = (do
      calls.call .getConfig "failed to get cluster config"
      calls.call .newClientset "failed to create clientset"
      readLocation calls ini provider bucket path location.config
        (c.cloudCredentials location.ns)) := by
  subst hprovider
  unfold getGlobalStore
  dsimp only [bind, Except.bind, pure, Except.pure]
  rw [hstorage]
  rfl

/-- The reader that looks for the location. -/
theorem getGlobalStore_none (hdefault : c.defaultLocation = some location)
    {storage : ObjectStorageLocation} (hstorage : location.objectStorage = some storage) :
    getGlobalStore calls ini none c = (do
      calls.call .getConfig "failed to get cluster config"
      calls.call .newClientset "failed to create clientset"
      calls.call .newVeleroClient "failed to create velero clientset"
      calls.call .listBackupStorageLocations "failed to list backupstoragelocations"
      readLocation calls ini location.provider storage.bucket storage.objectPrefix location.config
        (c.cloudCredentials location.ns)) := by
  unfold getGlobalStore
  rw [hdefault]
  simp only [bind_assoc, pure_bind]
  rw [hstorage]
  rfl

theorem makes_readLocation {secret : Option Secret} (hloads : Loads ini provider secret) :
    Makes calls (if provider ∈ [ascii "aws", ascii "azure", ascii "gcp"] then [.getSecret] else [])
      (readLocation calls ini provider bucket path config secret)
      (.ok (some (readSettings ini provider bucket path config secret))) := by
  unfold readLocation readSettings
  dsimp only
  by_cases haws : provider = ascii "aws"
  · rw [if_pos haws, if_pos haws, if_pos (by simp [haws])]
    exact (makes_getAWS (hloads haws) _).fmap some
  · rw [if_neg haws, if_neg haws]
    by_cases hazure : provider = ascii "azure"
    · rw [if_pos hazure, if_pos hazure, if_pos (by simp [hazure])]
      refine Makes.fmap ?_ some
      unfold getAzure
      refine (Makes.call calls _ _).map ?_
      cases secret <;> rfl
    · rw [if_neg hazure, if_neg hazure]
      by_cases hgcp : provider = ascii "gcp"
      · rw [if_pos hgcp, if_pos hgcp, if_pos (by simp [hgcp])]
        refine Makes.fmap ?_ some
        unfold getGoogle
        refine (Makes.call calls _ _).map ?_
        cases secret <;> rfl
      · rw [if_neg hgcp, if_neg hgcp, if_neg (by simp [haws, hazure, hgcp])]
        exact Makes.none calls _

/-- A secret that cannot be loaded is an error. -/
theorem readLocation_not_loads {secret : Option Secret} (hloads : ¬ Loads ini provider secret) :
    ∃ e, readLocation calls ini provider bucket path config secret = .error (.error e) := by
  unfold Loads at hloads
  simp only [not_forall, not_exists] at hloads
  obtain ⟨haws, s, rfl, hload⟩ := hloads
  unfold readLocation
  dsimp only
  rw [if_pos haws]
  have hget : ∃ e, getAWS calls ini { provider, bucket, path } config (some s) =
      .error (.error e) := by
    unfold getAWS
    refine call_bind_error ?_ _ _
    dsimp only
    split
    next e _ => exact ⟨_, rfl⟩
    next sections hsections => exact absurd hsections (hload sections)
  obtain ⟨e, he⟩ := hget
  rw [he]
  exact ⟨e, rfl⟩

/-- The settings of the location that was updated. -/
theorem makes_reread (hloads : Loads ini provider (c.cloudCredentials location.ns))
    (hprovider : location.provider = provider)
    (hstorage : location.objectStorage = some { bucket, objectPrefix := path }) :
    Makes calls (rereadCalls provider) (getGlobalStore calls ini (some location) c)
      (.ok (some (readSettings ini provider bucket path location.config
        (c.cloudCredentials location.ns)))) := by
  rw [getGlobalStore_some hprovider hstorage]
  exact (Makes.call calls _ _).bind ((Makes.call calls _ _).bind (makes_readLocation hloads))

theorem reread_not_loads (hloads : ¬ Loads ini provider (c.cloudCredentials location.ns))
    (hprovider : location.provider = provider)
    (hstorage : location.objectStorage = some { bucket, objectPrefix := path }) :
    ∃ e, getGlobalStore calls ini (some location) c = .error (.error e) := by
  rw [getGlobalStore_some hprovider hstorage]
  exact call_bind_error (call_bind_error (readLocation_not_loads hloads) _ _) _ _

/-- Without a store to read, the reader panics or returns nil. -/
theorem makes_read_nil (h : c.defaultLocation.bind (·.objectStorage) = none) :
    Makes calls lookCalls (getGlobalStore calls ini none c)
      (if c.defaultLocation.isSome then .ok none else .error .panic) := by
  unfold getGlobalStore
  refine (Makes.call calls _ _).bind ((Makes.call calls _ _).bind ((Makes.call calls _ _).bind
    ((Makes.call calls _ _).map ?_)))
  cases hdefault : c.defaultLocation with
  | none => rfl
  | some location =>
    rw [hdefault] at h
    have hstorage : location.objectStorage = none := h
    dsimp only
    rw [pure_bind, hstorage]
    rfl

/-- With one, it does neither. -/
theorem read_cases (hdefault : c.defaultLocation = some location) {storage : ObjectStorageLocation}
    (hstorage : location.objectStorage = some storage) :
    (∃ e, getGlobalStore calls ini none c = .error (.error e)) ∨
      ∃ store, getGlobalStore calls ini none c = .ok (some store) := by
  by_cases hloads : Loads ini location.provider (c.cloudCredentials location.ns)
  · have hmakes : ∃ cs store, Makes calls cs (getGlobalStore calls ini none c)
        (.ok (some store)) := by
      rw [getGlobalStore_none hdefault hstorage]
      exact ⟨_, _, (Makes.call calls _ _).bind ((Makes.call calls _ _).bind
        ((Makes.call calls _ _).bind ((Makes.call calls _ _).bind (makes_readLocation hloads))))⟩
    obtain ⟨cs, store, hmakes⟩ := hmakes
    by_cases hfine : calls.Fine cs
    · exact .inr ⟨store, hmakes.ends hfine⟩
    · exact .inl (hmakes.error hfine)
  · rw [getGlobalStore_none hdefault hstorage]
    exact .inl (call_bind_error (call_bind_error (call_bind_error (call_bind_error
      (readLocation_not_loads hloads) _ _) _ _) _ _) _ _)

end

end Kotsadm.Snapshots
