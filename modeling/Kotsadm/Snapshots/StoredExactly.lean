import Kotsadm.Snapshots.GlobalStore

/-!
# StoredExactly — when `getGlobalStore` returns what `updateGlobalStore` was given

The reader guesses the kind of store, and whether it uses an instance role, from the location and
the secret.  What the writer leaves out is read from what was there before.
-/

namespace Kotsadm.Snapshots

open GoString

/-! ## Valid settings -/

/-- All strings of the settings. -/
def Store.strings (s : Store) : List GoString :=
  [s.provider, s.bucket, s.path] ++
    s.aws.elim [] (fun a => [a.region, a.accessKeyID, a.secretAccessKey]) ++
    s.other.elim [] (fun o => [o.region, o.accessKeyID, o.secretAccessKey, o.endpoint]) ++
    s.google.elim [] (fun g => [g.serviceAccount]) ++
    s.azure.elim [] fun a =>
      [a.resourceGroup, a.storageAccount, a.subscriptionID, a.tenantID, a.clientID, a.clientSecret,
        a.cloudName]

/-- The settings of one kind of store. -/
inductive Variant where
  | aws (aws : StoreAWS)
  | other (other : StoreOther)
  | google (google : StoreGoogle)
  | azure (azure : StoreAzure)

/-- The provider, the bucket and the path come first. -/
def Variant.store (bucket path : GoString) : Variant → Store
  | .aws a => { provider := ascii "aws", bucket, path, aws := some a }
  | .other o => { provider := ascii "aws", bucket, path, other := some o }
  | .google g => { provider := ascii "gcp", bucket, path, google := some g }
  | .azure a => { provider := ascii "azure", bucket, path, azure := some a }

/-- Exactly one kind is set, the provider is the one of this kind, and all strings are printable. -/
structure Store.Valid (s : Store) : Prop where
  variant : ∃ v : Variant, s = v.store s.bucket s.path
  printable : ∀ string ∈ s.strings, string.Printable

/-! ## When the settings are stored -/

/-- The package `ini` reads these keys from the file. -/
def Ini.Reads (ini : Ini) (file accessKeyID secretAccessKey : GoString) : Prop :=
  ∃ sections, ini.load file = .ok sections ∧ accessKeys sections = (accessKeyID, secretAccessKey)

/-- An instance role comes without keys; other keys have to survive the package `ini`. -/
def StoreAWS.Stored (ini : Ini) (aws : StoreAWS) : Prop :=
  if aws.useInstanceRole then aws.accessKeyID = [] ∧ aws.secretAccessKey = []
  else ini.Reads (ini.writeTo [defaultSection aws.accessKeyID aws.secretAccessKey]) aws.accessKeyID
    aws.secretAccessKey

/-- The keys are those of the secret that was there before, or empty if there was none. -/
def StoreOther.Stored (ini : Ini) (currentSecret : Option Secret) (other : StoreOther) : Prop :=
  match currentSecret with
  | none => other.accessKeyID = [] ∧ other.secretAccessKey = []
  | some secret => ini.Reads (secret.data.value "cloud") other.accessKeyID other.secretAccessKey

/-- There is a service account exactly without an instance role. -/
def StoreGoogle.Stored (google : StoreGoogle) : Prop :=
  google.useInstanceRole = true ↔ google.serviceAccount = []

/-- The credentials survive the file, and there is a cloud name. -/
structure StoreAzure.Stored (azure : StoreAzure) : Prop where
  tenantID : Azure.Kept (azure.config.lines.take 2) azure.tenantID
  clientID : Azure.Kept (azure.config.lines.take 3) azure.clientID
  clientSecret : Azure.Kept (azure.config.lines.take 4) azure.clientSecret
  cloudName : azure.cloudName = ascii "AzurePublicCloud" ∨
    (azure.cloudName ≠ [] ∧ Azure.Kept azure.config.lines azure.cloudName)

/-- The settings are of a kind that is stored as it is. -/
structure Store.Stored (ini : Ini) (currentSecret : Option Secret) (s : Store) : Prop where
  aws : ∀ a, s.aws = some a → a.Stored ini
  other : ∀ o, s.other = some o → o.Stored ini currentSecret
  google : ∀ g, s.google = some g → g.Stored
  azure : ∀ a, s.azure = some a → a.Stored

/-! ## The secret -/

theorem createOrUpdateSecret_value {calls : Calls} {currentSecret : Option Secret}
    {cloud : GoString} {secret : Secret}
    (h : createOrUpdateSecret calls currentSecret cloud = .ok secret) :
    secret.data.value "cloud" = cloud := by
  unfold createOrUpdateSecret at h
  split at h <;>
  · obtain ⟨_, -, h⟩ := Except.bind_eq_ok.mp h
    cases h
    simp [GoMap.value, GoMap.get]

/-- The reader has no trouble with the calls. -/
def Calls.Up (calls : Calls) : Prop := ∀ c, calls.failure c = none

theorem Calls.Up.call {calls : Calls} (h : calls.Up) (c : Call) (context : String) :
    calls.call c context = .ok () := by
  unfold Calls.call
  rw [h c]

/-! ## Each kind of store -/

section Kinds

variable {calls calls' : Calls} {ini : Ini} {bucket path : GoString} {config config' : GoMap}
  {currentSecret secret : Option Secret}

theorem getAWS_none (hup : calls.Up) {store : Store} :
    getAWS calls ini store config none = .ok (match config.get "s3Url" with
      | some endpoint => { store with other := some { region := config.value "region", endpoint } }
      | none => { store with
          aws := some { region := config.value "region", useInstanceRole := true } }) := by
  unfold getAWS
  rw [hup.call]
  cases config.get "s3Url" <;> rfl

/-- With a secret, the result is a store with the keys that `ini` reads. -/
theorem getAWS_some_iff (hup : calls.Up) {store store' : Store} {awsSecret : Secret} :
    getAWS calls ini store config (some awsSecret) = .ok store' ↔
      ∃ accessKeyID secretAccessKey,
        ini.Reads (awsSecret.data.value "cloud") accessKeyID secretAccessKey ∧
        store' = match config.get "s3Url" with
          | some endpoint => { store with
              other := some {
                region := config.value "region", accessKeyID, secretAccessKey, endpoint } }
          | none => { store with
              aws := some { region := config.value "region", accessKeyID, secretAccessKey } } := by
  unfold getAWS Ini.Reads
  rw [hup.call]
  cases hload : ini.load (awsSecret.data.value "cloud") with
  | error e =>
    constructor
    · intro h
      dsimp only [bind, Except.bind] at h
      rw [hload] at h
      cases h
    · rintro ⟨_, _, ⟨sections, hsections, -⟩, -⟩
      cases hsections
  | ok sections =>
    dsimp only [bind, Except.bind]
    rw [hload]
    dsimp only
    constructor
    · intro h
      refine ⟨(accessKeys sections).1, (accessKeys sections).2, ⟨sections, rfl, rfl⟩, ?_⟩
      cases hurl : config.get "s3Url" with
      | none =>
        rw [hurl] at h
        cases h
        rfl
      | some endpoint =>
        rw [hurl] at h
        cases h
        rfl
    · rintro ⟨_, _, ⟨_, hsections, hkeys⟩, rfl⟩
      cases hsections
      rw [hkeys]
      cases config.get "s3Url" <;> rfl

theorem updateAWS_spec {a : StoreAWS}
    (h : updateAWS calls ini a config currentSecret = .ok (config', secret)) :
    config'.get "s3Url" = none ∧ config'.value "region" = a.region ∧
      if a.useInstanceRole then secret = none
      else ∃ awsSecret, secret = some awsSecret ∧ awsSecret.data.value "cloud" =
        ini.writeTo [defaultSection a.accessKeyID a.secretAccessKey] := by
  unfold updateAWS at h
  obtain ⟨written, hwritten, h⟩ := Except.bind_eq_ok.mp h
  have hconfig : (written.delete "s3Url").get "s3Url" = none ∧
      (written.delete "s3Url").value "region" = a.region := by
    refine ⟨by rw [GoMap.get_delete, if_pos rfl], ?_⟩
    unfold GoMap.value
    rw [GoMap.get_delete, if_neg (by decide), GoMap.get_set hwritten, if_pos rfl]
    rfl
  dsimp only at h
  split at h
  next hrole =>
    obtain ⟨_, -, h⟩ := Except.bind_eq_ok.mp h
    cases h
    rw [if_pos hrole]
    exact ⟨hconfig.1, hconfig.2, rfl⟩
  next hrole =>
    obtain ⟨_, -, h⟩ := Except.bind_eq_ok.mp h
    obtain ⟨_, -, h⟩ := Except.bind_eq_ok.mp h
    obtain ⟨_, -, h⟩ := Except.bind_eq_ok.mp h
    obtain ⟨_, -, h⟩ := Except.bind_eq_ok.mp h
    obtain ⟨_, -, h⟩ := Except.bind_eq_ok.mp h
    obtain ⟨awsSecret, hsecret, h⟩ := Except.bind_eq_ok.mp h
    cases h
    rw [if_neg hrole]
    exact ⟨hconfig.1, hconfig.2, awsSecret, rfl, createOrUpdateSecret_value hsecret⟩

theorem getAWS_updateAWS_iff {a : StoreAWS} (hup : calls'.Up)
    (h : updateAWS calls ini a config currentSecret = .ok (config', secret)) :
    getAWS calls' ini { provider := ascii "aws", bucket, path } config' secret =
      .ok ((Variant.aws a).store bucket path) ↔ a.Stored ini := by
  obtain ⟨hurl, hregion, hsecret⟩ := updateAWS_spec h
  obtain ⟨region, accessKeyID, secretAccessKey, useInstanceRole⟩ := a
  unfold StoreAWS.Stored Variant.store
  cases useInstanceRole with
  | true =>
    rw [if_pos rfl] at hsecret
    subst hsecret
    rw [getAWS_none hup, hurl, hregion, if_pos rfl]
    constructor
    · intro h
      cases h
      exact ⟨rfl, rfl⟩
    · rintro ⟨rfl, rfl⟩
      rfl
  | false =>
    rw [if_neg Bool.false_ne_true] at hsecret
    obtain ⟨awsSecret, rfl, hcloud⟩ := hsecret
    rw [getAWS_some_iff hup, hurl, hregion, hcloud, if_neg Bool.false_ne_true]
    constructor
    · rintro ⟨id, key, hreads, hstore⟩
      cases hstore
      exact hreads
    · intro hreads
      exact ⟨accessKeyID, secretAccessKey, hreads, rfl⟩

theorem getAWS_updateOther_iff {o : StoreOther} (hup : calls'.Up)
    (h : updateOther o config currentSecret = .ok (config', secret)) :
    getAWS calls' ini { provider := ascii "aws", bucket, path } config' secret =
      .ok ((Variant.other o).store bucket path) ↔ o.Stored ini currentSecret := by
  unfold updateOther at h
  obtain ⟨regional, hregional, h⟩ := Except.bind_eq_ok.mp h
  obtain ⟨written, hwritten, h⟩ := Except.bind_eq_ok.mp h
  cases h
  have hurl : config'.get "s3Url" = some o.endpoint := by
    rw [GoMap.get_set hwritten, if_pos rfl]
  have hregion : config'.value "region" = o.region := by
    unfold GoMap.value
    rw [GoMap.get_set hwritten, if_neg (by decide), GoMap.get_set hregional, if_pos rfl]
    rfl
  obtain ⟨region, accessKeyID, secretAccessKey, endpoint⟩ := o
  unfold StoreOther.Stored Variant.store
  cases currentSecret with
  | none =>
    rw [getAWS_none hup, hurl, hregion]
    constructor
    · intro h
      cases h
      exact ⟨rfl, rfl⟩
    · rintro ⟨rfl, rfl⟩
      rfl
  | some awsSecret =>
    rw [getAWS_some_iff hup, hurl, hregion]
    constructor
    · rintro ⟨id, key, hreads, hstore⟩
      cases hstore
      exact hreads
    · intro hreads
      exact ⟨accessKeyID, secretAccessKey, hreads, rfl⟩

theorem getGoogle_eq (hup : calls.Up) (store : Store) :
    getGoogle calls store secret =
      let serviceAccount := secret.elim [] fun s => s.data.value "cloud"
      .ok { store with
        google := some { serviceAccount, useInstanceRole := serviceAccount = [] } } := by
  unfold getGoogle
  rw [hup.call]
  cases secret <;> rfl

theorem getGoogle_updateGoogle_iff {g : StoreGoogle} (hup : calls'.Up)
    (h : updateGoogle calls g config currentSecret = .ok (config', secret)) :
    getGoogle calls' { provider := ascii "gcp", bucket, path } secret =
      .ok ((Variant.google g).store bucket path) ↔ g.Stored := by
  obtain ⟨serviceAccount, useInstanceRole⟩ := g
  unfold updateGoogle at h
  rw [getGoogle_eq hup]
  unfold StoreGoogle.Stored Variant.store
  cases useInstanceRole with
  | true =>
    rw [if_pos rfl] at h
    obtain ⟨_, -, h⟩ := Except.bind_eq_ok.mp h
    cases h
    simp [eq_comm]
  | false =>
    rw [if_neg Bool.false_ne_true] at h
    obtain ⟨written, hwritten, h⟩ := Except.bind_eq_ok.mp h
    cases h
    have hcloud := createOrUpdateSecret_value hwritten
    simp [hcloud]

theorem updateAzure_spec {a : StoreAzure}
    (h : updateAzure calls a config currentSecret = .ok (config', secret)) :
    (config'.value "resourceGroup" = a.resourceGroup ∧
      config'.value "storageAccount" = a.storageAccount ∧
      config'.value "subscriptionId" = a.subscriptionID) ∧
    ∃ azureSecret, secret = some azureSecret ∧
      azureSecret.data.value "cloud" = renderAzureConfig a.config := by
  unfold updateAzure at h
  obtain ⟨grouped, hgrouped, h⟩ := Except.bind_eq_ok.mp h
  obtain ⟨named, hnamed, h⟩ := Except.bind_eq_ok.mp h
  obtain ⟨written, hwritten, h⟩ := Except.bind_eq_ok.mp h
  obtain ⟨azureSecret, hsecret, h⟩ := Except.bind_eq_ok.mp h
  cases h
  refine ⟨⟨?_, ?_, ?_⟩, azureSecret, rfl, createOrUpdateSecret_value hsecret⟩ <;> unfold GoMap.value
  · rw [GoMap.get_set hwritten, if_neg (by decide), GoMap.get_set hnamed, if_neg (by decide),
      GoMap.get_set hgrouped, if_pos rfl]
    rfl
  · rw [GoMap.get_set hwritten, if_neg (by decide), GoMap.get_set hnamed, if_pos rfl]
    rfl
  · rw [GoMap.get_set hwritten, if_pos rfl]
    rfl

/-- The name that the reader puts in for a missing one is no loss when it is the right one. -/
theorem cloudName_iff {read cloudName : GoString} {lines : List GoString}
    (hread : read = Azure.readBack lines cloudName) :
    (if read = [] then ascii "AzurePublicCloud" else read) = cloudName ↔
      cloudName = ascii "AzurePublicCloud" ∨ (cloudName ≠ [] ∧ Azure.Kept lines cloudName) := by
  constructor
  · intro h
    split at h
    next => exact .inl h.symm
    next hsome =>
      have hkept : Azure.readBack lines cloudName = cloudName := by rw [← hread, h]
      rw [h] at hsome
      exact .inr ⟨hsome, Azure.readBack_eq_iff.mp hkept⟩
  · rintro (rfl | ⟨hsome, hkept⟩)
    · split
      next => rfl
      next hsome =>
        unfold Azure.readBack at hread
        split at hread
        next =>
          rw [hread]
          decide
        next => exact absurd hread hsome
    · have hsame : read = cloudName := hread.trans (Azure.readBack_eq_iff.mpr hkept)
      rw [hsame, if_neg hsome]

theorem getAzure_updateAzure_iff {a : StoreAzure} (hup : calls'.Up)
    (hprintable : a.config.Printable)
    (h : updateAzure calls a config currentSecret = .ok (config', secret)) :
    getAzure calls' { provider := ascii "azure", bucket, path } config' secret =
      .ok ((Variant.azure a).store bucket path) ↔ a.Stored := by
  obtain ⟨⟨hgroup, haccount, hsubscription⟩, azureSecret, rfl, hcloud⟩ := updateAzure_spec h
  have hcloudName := cloudName_iff (rfl : _ = Azure.readBack a.config.lines a.cloudName)
  unfold getAzure
  rw [hup.call]
  dsimp only [bind, Except.bind]
  rw [hcloud, Azure.parse_render hprintable, hgroup, haccount, hsubscription]
  have hstored : a.Stored ↔
      Azure.readBack (a.config.lines.take 2) a.tenantID = a.tenantID ∧
      Azure.readBack (a.config.lines.take 3) a.clientID = a.clientID ∧
      Azure.readBack (a.config.lines.take 4) a.clientSecret = a.clientSecret ∧
      (if Azure.readBack a.config.lines a.cloudName = [] then ascii "AzurePublicCloud"
        else Azure.readBack a.config.lines a.cloudName) = a.cloudName := by
    rw [Azure.readBack_eq_iff, Azure.readBack_eq_iff, Azure.readBack_eq_iff, hcloudName]
    constructor
    · rintro ⟨htenantID, hclientID, hclientSecret, hname⟩
      exact ⟨htenantID, hclientID, hclientSecret, hname⟩
    · rintro ⟨htenantID, hclientID, hclientSecret, hname⟩
      exact ⟨htenantID, hclientID, hclientSecret, hname⟩
  rw [hstored]
  unfold Variant.store
  constructor
  · intro h
    have hazure := congrArg (fun s => s.azure) (Except.ok.inj h)
    have hfields := Option.some.inj hazure
    exact ⟨congrArg StoreAzure.tenantID hfields, congrArg StoreAzure.clientID hfields,
      congrArg StoreAzure.clientSecret hfields, congrArg StoreAzure.cloudName hfields⟩
  · rintro ⟨htenantID, hclientID, hclientSecret, hname⟩
    have htenantID' : Azure.readBack (a.config.lines.take 2) a.config.tenantID = a.tenantID :=
      htenantID
    have hclientID' : Azure.readBack (a.config.lines.take 3) a.config.clientID = a.clientID :=
      hclientID
    have hclientSecret' :
        Azure.readBack (a.config.lines.take 4) a.config.clientSecret = a.clientSecret :=
      hclientSecret
    have hname' : (if Azure.readBack a.config.lines a.config.cloudName = [] then
        ascii "AzurePublicCloud" else Azure.readBack a.config.lines a.config.cloudName) =
        a.cloudName := hname
    rw [htenantID', hclientID', hclientSecret', hname']
    rfl

end Kinds

/-! ## The whole -/

section Whole

variable {calls calls' : Calls} {ini : Ini} {store : Store} {c c' : Cluster}
  {updated : BackupStorageLocation}

theorem prepareLocation_spec {secret : Option Secret}
    (h : prepareLocation calls ini store c = .ok (updated, secret)) :
    ∃ location, c.defaultLocation = some location ∧ updated.name = location.name ∧
      updated.ns = location.ns ∧ updated.provider = store.provider ∧
      updated.objectStorage = some { bucket := store.bucket, objectPrefix := store.path } ∧
      updateConfig calls ini store location.config c.currentSecret =
        .ok (updated.config, secret) := by
  unfold prepareLocation at h
  obtain ⟨_, -, h⟩ := Except.bind_eq_ok.mp h
  obtain ⟨_, -, h⟩ := Except.bind_eq_ok.mp h
  obtain ⟨_, -, h⟩ := Except.bind_eq_ok.mp h
  obtain ⟨location, hfind, h⟩ := Except.bind_eq_ok.mp h
  obtain ⟨_, -, h⟩ := Except.bind_eq_ok.mp h
  obtain ⟨⟨config, secret'⟩, hconfig, h⟩ := Except.bind_eq_ok.mp h
  cases h
  have hdefault : c.defaultLocation = some location := by
    unfold wrapAbort at hfind
    split at hfind
    next => cases hfind
    next =>
      unfold findBackupStoreLocation at hfind
      obtain ⟨_, -, hfind⟩ := Except.bind_eq_ok.mp hfind
      obtain ⟨_, -, hfind⟩ := Except.bind_eq_ok.mp hfind
      obtain ⟨_, -, hfind⟩ := Except.bind_eq_ok.mp hfind
      split at hfind
      next l hl =>
        cases hfind
        exact hl
      next => cases hfind
  refine ⟨location, hdefault, rfl, rfl, rfl, rfl, ?_⟩
  have hcurrent : c.currentSecret = c.cloudCredentials location.ns := by
    unfold Cluster.currentSecret
    rw [hdefault]
    rfl
  rw [hcurrent]
  exact hconfig

theorem defaultLocation_setLocation {location : BackupStorageLocation}
    (hdefault : c.defaultLocation = some location) (hname : updated.name = location.name)
    (hns : updated.ns = location.ns) : (c.setLocation updated).defaultLocation = some updated := by
  have hkey : location.key = updated.key := by
    unfold BackupStorageLocation.key
    rw [hname, hns]
  unfold Cluster.defaultLocation at hdefault
  unfold Cluster.defaultLocation Cluster.setLocation Keyed.updateWhere
  dsimp only
  have hkept : ((fun l : BackupStorageLocation => decide (l.name = "default")) ∘
      fun other => if decide (other.key = updated.key) = true then
        { updated with name := other.name, ns := other.ns } else other) =
      fun l => decide (l.name = "default") := by
    funext l
    by_cases hl : l.key = updated.key <;> simp [hl]
  rw [List.find?_map, hkept, hdefault, Option.map_some, if_pos (by simpa using hkey), ← hname,
    ← hns]

/-- The updated location is the default one of the new cluster, with the new secret beside it. -/
theorem updateGlobalStore_spec (h : updateGlobalStore calls ini store c = (.ok updated, c')) :
    ∃ config, updated.provider = store.provider ∧
      updated.objectStorage = some { bucket := store.bucket, objectPrefix := store.path } ∧
      updateConfig calls ini store config c.currentSecret =
        .ok (updated.config, c'.cloudCredentials updated.ns) ∧
      c'.defaultLocation = some updated := by
  unfold updateGlobalStore at h
  split at h
  next => cases h
  next location secret hprepare =>
    dsimp only at h
    split at h
    next => cases h
    next =>
      cases h
      obtain ⟨before, hdefault, hname, hns, hprovider, hstorage, hconfig⟩ :=
        prepareLocation_spec hprepare
      refine ⟨before.config, hprovider, hstorage, ?_, ?_⟩
      · rw [hconfig]
        simp [Cluster.setLocation, Cluster.setSecret]
      · exact defaultLocation_setLocation (c := c.setSecret updated.ns secret) hdefault hname hns

/-- A location that is not given is looked up. -/
theorem getGlobalStore_eq (hup : calls.Up) {location : Option BackupStorageLocation}
    {found : BackupStorageLocation} {storage : ObjectStorageLocation}
    (hfound : location = some found ∨ (location = none ∧ c.defaultLocation = some found))
    (hstorage : found.objectStorage = some storage) :
    getGlobalStore calls ini location c =
      let store : Store := {
        provider := found.provider, bucket := storage.bucket, path := storage.objectPrefix }
      let secret := c.cloudCredentials found.ns
      if store.provider = ascii "aws" then some <$> getAWS calls ini store found.config secret
      else if store.provider = ascii "azure" then some <$> getAzure calls store found.config secret
      else if store.provider = ascii "gcp" then some <$> getGoogle calls store secret
      else .ok (some store) := by
  unfold getGlobalStore
  rw [hup.call, hup.call]
  rcases hfound with rfl | ⟨rfl, hdefault⟩
  · dsimp only [bind, Except.bind, pure, Except.pure]
    rw [hstorage]
  · rw [hup.call, hup.call, hdefault]
    dsimp only [bind, Except.bind, pure, Except.pure]
    rw [hstorage]

theorem map_some_eq_ok {x : Except Abort Store} {s : Store} :
    some <$> x = .ok (some s) ↔ x = .ok s := by
  cases x with
  | error e =>
    constructor <;> intro h <;> cases h
  | ok a =>
    constructor
    · intro h
      cases h
      rfl
    · intro h
      cases h
      rfl

/-- **The settings are stored exactly** when each kind is as it is stored, whatever was configured
before. -/
theorem getGlobalStore_updateGlobalStore_iff (hvalid : store.Valid)
    (h : updateGlobalStore calls ini store c = (.ok updated, c')) (hup : calls'.Up)
    {location : Option BackupStorageLocation}
    (hlocation : location = none ∨ location = some updated) :
    getGlobalStore calls' ini location c' = .ok (some store) ↔
      store.Stored ini c.currentSecret := by
  obtain ⟨config, hprovider, hstorage, hconfig, hdefault⟩ := updateGlobalStore_spec h
  have hfound : location = some updated ∨
      (location = none ∧ c'.defaultLocation = some updated) := by
    rcases hlocation with rfl | rfl
    · exact .inr ⟨rfl, hdefault⟩
    · exact .inl rfl
  rw [getGlobalStore_eq hup hfound hstorage]
  dsimp only
  rw [hprovider]
  obtain ⟨variant, hvariant⟩ := hvalid.variant
  have hprintable := hvalid.printable
  have hgcp : ascii "gcp" ≠ ascii "aws" ∧ ascii "gcp" ≠ ascii "azure" := by decide
  have hazure : ascii "azure" ≠ ascii "aws" := by decide
  obtain ⟨provider, bucket, path, aws, azure, google, other⟩ := store
  cases variant with
  | aws a =>
    cases hvariant
    rw [if_pos rfl, map_some_eq_ok]
    refine (getAWS_updateAWS_iff hup hconfig).trans
      ⟨fun hstored => ?_, fun hstored => hstored.aws a rfl⟩
    refine ⟨fun a' ha => ?_, fun _ ho => (by cases ho), fun _ hg => (by cases hg),
      fun _ ha => (by cases ha)⟩
    cases ha
    exact hstored
  | other o =>
    cases hvariant
    rw [if_pos rfl, map_some_eq_ok]
    refine (getAWS_updateOther_iff hup hconfig).trans
      ⟨fun hstored => ?_, fun hstored => hstored.other o rfl⟩
    refine ⟨fun _ ha => (by cases ha), fun o' ho => ?_, fun _ hg => (by cases hg),
      fun _ ha => (by cases ha)⟩
    cases ho
    exact hstored
  | google g =>
    cases hvariant
    rw [if_neg hgcp.1, if_neg hgcp.2, if_pos rfl, map_some_eq_ok]
    refine (getGoogle_updateGoogle_iff hup hconfig).trans
      ⟨fun hstored => ?_, fun hstored => hstored.google g rfl⟩
    refine ⟨fun _ ha => (by cases ha), fun _ ho => (by cases ho), fun g' hg => ?_,
      fun _ ha => (by cases ha)⟩
    cases hg
    exact hstored
  | azure a =>
    cases hvariant
    rw [if_neg hazure, if_pos rfl, map_some_eq_ok]
    have hconfigured : a.config.Printable := by
      refine ⟨?_, ?_, ?_, ?_, ?_, ?_⟩ <;> apply hprintable <;>
        simp [Store.strings, StoreAzure.config]
    refine (getAzure_updateAzure_iff hup hconfigured hconfig).trans
      ⟨fun hstored => ?_, fun hstored => hstored.azure a rfl⟩
    refine ⟨fun _ ha => (by cases ha), fun _ ho => (by cases ho), fun _ hg => (by cases hg),
      fun a' ha => ?_⟩
    cases ha
    exact hstored

end Whole

/-! ## Two changes of the store -/

/-- A default location with an empty `Spec.Config`, and this secret. -/
def veleroCluster (secret : Option Secret) : Cluster where
  backupStorageLocations := {
    rows := [{ name := "default", ns := "velero", config := some fun _ => none }]
    nodup := List.nodup_singleton _ }
  cloudCredentials := fun ns => if ns = "velero" then secret else none

def serviceAccountSecret : Secret where
  data := some fun key => if key = "cloud" then some (ascii "\x7b\x7d") else none

def awsStore : Store where
  provider := ascii "aws"
  bucket := ascii "backups"
  path := []
  aws := some {
    region := ascii "us-east-1", accessKeyID := ascii "AKID", secretAccessKey := ascii "SECRET" }

/-- The package `ini` on the file for `awsStore`. -/
def awsIni : Ini where
  writeTo := fun _ =>
    ascii "[default]\naws_access_key_id     = AKID\naws_secret_access_key = SECRET\n\n"
  load := fun _ => .ok [{ name := ascii "DEFAULT", keys := [] },
    defaultSection (ascii "AKID") (ascii "SECRET")]

/-- From a service account to AWS keys. -/
theorem getGlobalStore_awsStore :
    getGlobalStore {} awsIni none
        (updateGlobalStore {} awsIni awsStore (veleroCluster (some serviceAccountSecret))).2 =
      .ok (some awsStore) := by
  have hvalid : awsStore.Valid := ⟨⟨.aws _, rfl⟩, by decide⟩
  have hupdate : updateGlobalStore {} awsIni awsStore (veleroCluster (some serviceAccountSecret)) =
      (.ok {
        name := "default"
        ns := "velero"
        provider := ascii "aws"
        objectStorage := some { bucket := ascii "backups" }
        config := some (Function.update
          (Function.update (fun _ => none) "region" (some (ascii "us-east-1"))) "s3Url" none) },
        (updateGlobalStore {} awsIni awsStore (veleroCluster (some serviceAccountSecret))).2) := rfl
  refine (getGlobalStore_updateGlobalStore_iff hvalid hupdate (fun _ => rfl) (.inl rfl)).mpr ?_
  refine ⟨fun a ha => ?_, fun _ ho => (by cases ho), fun _ hg => (by cases hg),
    fun _ ha => (by cases ha)⟩
  cases ha
  exact ⟨_, rfl, by decide⟩

/-- An S3-compatible store. -/
def otherStore : Store where
  provider := ascii "aws"
  bucket := ascii "backups"
  path := []
  other := some {
    region := ascii "us-east-1", accessKeyID := ascii "AKID", secretAccessKey := ascii "SECRET"
    endpoint := ascii "http://minio:9000" }

/-- Its keys are not written: without a secret they are read as empty, whatever `ini` does. -/
theorem not_getGlobalStore_updateGlobalStore :
    ¬ ∃ ini : Ini, ∀ (calls calls' : Calls) (store : Store) (c c' : Cluster)
      (updated : BackupStorageLocation), store.Valid →
      updateGlobalStore calls ini store c = (.ok updated, c') → calls'.Up →
      getGlobalStore calls' ini none c' = .ok (some store) := by
  rintro ⟨ini, h⟩
  have hvalid : otherStore.Valid := ⟨⟨.other _, rfl⟩, by decide⟩
  have hread := h {} {} otherStore (veleroCluster none) _ _ hvalid rfl fun _ => rfl
  have hlost : getGlobalStore {} ini none (updateGlobalStore {} ini otherStore
      (veleroCluster none)).2 = .ok (some {
        provider := ascii "aws"
        bucket := ascii "backups"
        path := []
        other := some {
          region := ascii "us-east-1", endpoint := ascii "http://minio:9000" } }) := rfl
  have hsame := hlost.symm.trans hread
  revert hsame
  decide

end Kotsadm.Snapshots
