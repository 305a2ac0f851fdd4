import Kotsadm.Snapshots.SettingsWritten

/-!
# SettingsKept — when the settings that are read again are those that were submitted

The reader guesses the provider from the location.  It finds what the law asks for when the provider
is the right one and the values survive the secret.
-/

namespace Kotsadm.Snapshots

open GoString

/-! ## The settings of the provider -/

/-- What the reader finds beside the provider, the bucket and the path. -/
def readVariant (ini : Ini) (provider : GoString) (config : GoMap) (secret : Option Secret) :
    Option Variant :=
  let cloud : GoString := secret.elim [] fun s => s.data.value "cloud"
  if provider = ascii "aws" then
    let region := config.value "region"
    let (accessKeyID, secretAccessKey) := keysIn ini secret
    match config.get "s3Url" with
    | some endpoint => some (.other { region, accessKeyID, secretAccessKey, endpoint })
    | none =>
      some (.aws { region, accessKeyID, secretAccessKey, useInstanceRole := secret.isNone })
  else if provider = ascii "azure" then
    let azureConfig : Azure := secret.elim {} fun s => parseAzureConfig (s.data.value "cloud")
    some (.azure {
      resourceGroup := config.value "resourceGroup"
      storageAccount := config.value "storageAccount"
      subscriptionID := config.value "subscriptionId"
      tenantID := azureConfig.tenantID
      clientID := azureConfig.clientID
      clientSecret := azureConfig.clientSecret
      cloudName := orPublicCloud azureConfig.cloudName })
  else if provider = ascii "gcp" then
    some (.google { serviceAccount := cloud, useInstanceRole := cloud = [] })
  else none

section

variable {ini : Ini} {provider bucket path : GoString} {config : GoMap} {secret : Option Secret}
  {v request : Variant} {prev : Store}

theorem readSettings_eq :
    readSettings ini provider bucket path config secret =
      (readVariant ini provider config secret).elim { provider, bucket, path }
        (Variant.settings provider bucket path) := by
  unfold readSettings readVariant
  dsimp only
  by_cases haws : provider = ascii "aws"
  · rw [if_pos haws, if_pos haws]
    cases config.get "s3Url" <;> rfl
  · rw [if_neg haws, if_neg haws]
    by_cases hazure : provider = ascii "azure"
    · rw [if_pos hazure, if_pos hazure]
      rfl
    · rw [if_neg hazure, if_neg hazure]
      by_cases hgcp : provider = ascii "gcp"
      · rw [if_pos hgcp, if_pos hgcp]
        rfl
      · rw [if_neg hgcp, if_neg hgcp]
        rfl

theorem settings_inj {v' : Variant}
    (h : v.settings provider bucket path = v'.settings provider bucket path) : v = v' := by
  cases v <;> cases v' <;> cases h <;> rfl

theorem plain_ne_settings :
    ({ provider, bucket, path } : Store) ≠ v.settings provider bucket path := by
  intro h
  cases v <;> cases h

theorem readSettings_eq_iff :
    readSettings ini provider bucket path config secret = v.settings provider bucket path ↔
      readVariant ini provider config secret = some v := by
  rw [readSettings_eq]
  cases readVariant ini provider config secret with
  | none => exact iff_of_false plain_ne_settings nofun
  | some v' =>
    show v'.settings provider bucket path = _ ↔ _
    constructor
    · intro h
      rw [settings_inj h]
    · intro h
      cases h
      rfl

theorem readSettings_fields (ini : Ini) (provider bucket path : GoString) (config : GoMap)
    (secret : Option Secret) :
    (readSettings ini provider bucket path config secret).provider = provider ∧
      (readSettings ini provider bucket path config secret).bucket = bucket ∧
      (readSettings ini provider bucket path config secret).path = path := by
  rw [readSettings_eq]
  cases readVariant ini provider config secret with
  | none => exact ⟨rfl, rfl, rfl⟩
  | some v => exact v.settings_fields provider bucket path

/-- An empty bucket or path is in effect as well. -/
theorem replaced_iff {value old : GoString} {same : Prop} :
    (if value ≠ [] then value = value else same → value = old) ↔
      (value = [] → same → old = []) := by
  by_cases hvalue : value = []
  · subst hvalue
    rw [if_neg (not_not.mpr rfl)]
    constructor
    · intro h _ hsame
      exact (h hsame).symm
    · intro h hsame
      exact (h rfl hsame).symm
  · rw [if_pos hvalue]
    exact iff_of_true rfl fun h => absurd h hvalue

theorem mergedAsSubmitted_iff :
    MergedAsSubmitted provider bucket path request prev
        (readSettings ini provider bucket path config secret) ↔
      (bucket = [] → request.SameAs prev → prev.bucket = []) ∧
      (path = [] → request.SameAs prev → prev.path = []) ∧
      ∃ v, readVariant ini provider config secret = some v ∧ request.Merged prev v := by
  obtain ⟨hprovider, hbucket, hpath⟩ :=
    readSettings_fields ini provider bucket path config secret
  constructor
  · rintro ⟨-, hb, hp, v, hv, hmerged⟩
    rw [hbucket] at hb
    rw [hpath] at hp
    rw [hprovider, hbucket, hpath, readSettings_eq_iff] at hv
    exact ⟨replaced_iff.mp hb, replaced_iff.mp hp, v, hv, hmerged⟩
  · rintro ⟨hb, hp, v, hv, hmerged⟩
    refine ⟨hprovider, ?_, ?_, v, ?_, hmerged⟩
    · rw [hbucket]
      exact replaced_iff.mpr hb
    · rw [hpath]
      exact replaced_iff.mpr hp
    · rw [hprovider, hbucket, hpath]
      exact readSettings_eq_iff.mpr hv

/-- The provider that is found is the one of the location. -/
theorem readVariant_provider (h : readVariant ini provider config secret = some v) :
    v.provider = provider := by
  unfold readVariant at h
  dsimp only at h
  split at h
  next haws =>
    split at h <;>
    · cases h
      exact haws.symm
  next =>
    split at h
    next hazure =>
      cases h
      exact hazure.symm
    next =>
      split at h
      next hgcp =>
        cases h
        exact hgcp.symm
      next => cases h

theorem Variant.Merged.sameProvider (h : request.Merged prev v) :
    v.provider = request.provider := by
  cases request <;> cases v <;> first | rfl | exact absurd h not_false

end

/-! ## What survives -/

/-- What the reader makes of the file is in effect, or nothing was asked for. -/
def AzureField (prev : Option StoreAzure) (value merged read : GoString) : Prop :=
  (value = [] ∧ prev = none) ∨ read = merged

structure StoreAzure.Survives (prev : Option StoreAzure) (request azure : StoreAzure) : Prop where
  tenantID : AzureField prev request.tenantID azure.tenantID
    (parseAzureConfig (renderAzureConfig azure.config)).tenantID
  clientID : AzureField prev request.clientID azure.clientID
    (parseAzureConfig (renderAzureConfig azure.config)).clientID
  clientSecret : AzureField prev request.clientSecret azure.clientSecret
    (parseAzureConfig (renderAzureConfig azure.config)).clientSecret
  cloudName : AzureField prev request.cloudName azure.cloudName
    (orPublicCloud (parseAzureConfig (renderAzureConfig azure.config)).cloudName)

/-- The merged settings are found again: a region that comes with an instance role is the stored
one, and other credentials are those of the secret. -/
def Variant.Survives (ini : Ini) (old : Option Secret) (prev : Store) (request merged : Variant) :
    Prop :=
  match request, merged with
  | .aws r, .aws a =>
    if r.useInstanceRole then r.region = [] ∨ r.region = a.region else a.Stored ini
  | .other _, .other o => o.Stored ini old
  | .google _, .google _ => True
  | .azure r, .azure a => r.Survives prev.azure a
  | _, _ => False

section

variable {ini : Ini} {config : GoMap} {old : Option Secret} {prev : Store} {value : GoString}

section

variable {α : Type} {default : α} {o : Option α} {merged new : GoString}

/-- The merged value is in effect. -/
theorem keeps_merged (field : α → GoString) (hdefault : field default = [])
    (h : merged = given value (field (o.getD default))) : Keeps value (o.map field) merged := by
  rw [h, ← Option.getD_map field default o, hdefault]
  exact keeps_given

theorem keeps_iff_merged (field : α → GoString) (hdefault : field default = [])
    (h : merged = given value (field (o.getD default))) :
    Keeps value (o.map field) new ↔ (value = [] ∧ o = none) ∨ new = merged := by
  rw [keeps_iff, Option.map_eq_none_iff, h, ← Option.getD_map field default o, hdefault]

/-- The merged value is the only one, if it is not empty. -/
theorem keeps_iff_merged_of_ne (field : α → GoString) (hdefault : field default = [])
    (h : merged = given value (field (o.getD default))) (hne : merged ≠ []) :
    Keeps value (o.map field) new ↔ new = merged := by
  rw [keeps_iff_merged field hdefault h]
  apply or_iff_right
  rintro ⟨rfl, rfl⟩
  exact hne (h.trans hdefault)

end

/-- The old value is kept, whatever was asked for. -/
theorem keeps_old_iff {o : Option GoString} :
    Keeps value o (o.getD []) ↔ value = [] ∨ value = o.getD [] := by
  unfold Keeps
  by_cases hvalue : value = []
  · rw [if_neg (not_not.mpr hvalue)]
    refine iff_of_true (fun old hold => ?_) (.inl hvalue)
    rw [hold]
    rfl
  · rw [if_pos hvalue, or_iff_right hvalue]
    exact eq_comm

theorem withCloud_cloud (old : Option Secret) (cloud : GoString) :
    (withCloud old cloud).data.value "cloud" = cloud := by
  unfold withCloud GoMap.value GoMap.get
  dsimp only [Option.bind_some]
  rw [Function.update_self]
  rfl

theorem keysIn_withCloud (cloud : GoString) :
    keysIn ini (some (withCloud old cloud)) =
      match ini.load cloud with
      | .ok sections => accessKeys sections
      | .error _ => ([], []) := by
  show (match ini.load ((withCloud old cloud).data.value "cloud") with
    | .ok sections => accessKeys sections
    | .error _ => ([], [])) = _
  rw [withCloud_cloud]

/-- The keys that are read from a file that is loaded. -/
theorem keys_iff {cloud id key : GoString} (hloads : ∃ sections, ini.load cloud = .ok sections) :
    keysIn ini (some (withCloud old cloud)) = (id, key) ↔ ini.Reads cloud id key := by
  obtain ⟨sections, hload⟩ := hloads
  rw [keysIn_withCloud, hload]
  unfold Ini.Reads
  constructor
  · intro h
    exact ⟨sections, hload, h⟩
  · rintro ⟨_, hload', h⟩
    rw [hload] at hload'
    cases hload'
    exact h

theorem entries_aws (a : StoreAWS) (hconfig : config ≠ none) :
    (config.setAll (Variant.aws a).entries).get "s3Url" = none ∧
      (config.setAll (Variant.aws a).entries).value "region" = a.region := by
  obtain ⟨f, rfl⟩ := Option.ne_none_iff_exists'.mp hconfig
  simp [GoMap.value, GoMap.get, GoMap.setAll, Variant.entries]

theorem entries_other (o : StoreOther) (hconfig : config ≠ none) :
    (config.setAll (Variant.other o).entries).get "s3Url" = some o.endpoint ∧
      (config.setAll (Variant.other o).entries).value "region" = o.region := by
  obtain ⟨f, rfl⟩ := Option.ne_none_iff_exists'.mp hconfig
  simp [GoMap.value, GoMap.get, GoMap.setAll, Variant.entries]

theorem entries_azure (a : StoreAzure) (hconfig : config ≠ none) :
    (config.setAll (Variant.azure a).entries).value "resourceGroup" = a.resourceGroup ∧
      (config.setAll (Variant.azure a).entries).value "storageAccount" = a.storageAccount ∧
      (config.setAll (Variant.azure a).entries).value "subscriptionId" = a.subscriptionID := by
  obtain ⟨f, rfl⟩ := Option.ne_none_iff_exists'.mp hconfig
  simp [GoMap.value, GoMap.get, GoMap.setAll, Variant.entries]

/-! ## Each provider -/

theorem survives_aws {r a : StoreAWS} (hmerge : mergeAWS r (prev.aws.getD {}) = .ok a)
    (hconfig : config ≠ none)
    (hloads : Loads ini (ascii "aws") ((Variant.aws a).newSecret ini old)) :
    (∃ v, readVariant ini (ascii "aws") (config.setAll (Variant.aws a).entries)
        ((Variant.aws a).newSecret ini old) = some v ∧ (Variant.aws r).Merged prev v) ↔
      (Variant.aws r).Survives ini old prev (.aws a) := by
  obtain ⟨hurl, hregion⟩ := entries_aws a hconfig
  obtain ⟨hrole, hmerged⟩ := mergeAWS_spec hmerge
  unfold readVariant
  dsimp only
  rw [if_pos rfl, hurl, hregion]
  simp only [Option.some.injEq, exists_eq_left']
  unfold Variant.Merged StoreAWS.Merged Variant.Survives StoreAWS.Stored
  dsimp only
  unfold Variant.newSecret at hloads ⊢
  dsimp only at hloads ⊢
  by_cases hr : r.useInstanceRole = true
  -- without a secret there are no keys, and the region stays what it was
  · rw [if_pos hr] at hmerged
    rw [hrole, if_pos hr, if_pos hr, if_pos hr, hmerged]
    have hold : (prev.aws.getD {}).region = (prev.aws.map (·.region)).getD [] :=
      (Option.getD_map (·.region) {} prev.aws).symm
    rw [hold, keeps_old_iff]
    exact ⟨fun h => h.2.1, fun h => ⟨hr.symm, h, rfl, rfl⟩⟩
  · rw [if_neg hr] at hmerged
    obtain ⟨hregion', hid, hidne, hkey, hkeyne⟩ := hmerged
    rw [hrole, if_neg hr] at hloads ⊢
    have hload := hloads rfl _ rfl
    rw [withCloud_cloud] at hload
    -- the keys are not empty, so the law leaves no other ones
    rw [if_neg hr, if_neg hr, if_neg hr, ← keys_iff hload,
      keeps_iff_merged_of_ne StoreAWS.accessKeyID rfl hid hidne,
      keeps_iff_merged_of_ne StoreAWS.secretAccessKey rfl hkey hkeyne]
    constructor
    · rintro ⟨-, -, hid', hkey'⟩
      exact Prod.ext hid' hkey'
    · intro h
      rw [h]
      have hrole' : false = r.useInstanceRole := (Bool.eq_false_of_not_eq_true hr).symm
      exact ⟨hrole', keeps_merged StoreAWS.region rfl hregion', rfl, rfl⟩

theorem survives_other {r o : StoreOther} (hmerge : mergeOther r (prev.other.getD {}) = .ok o)
    (hconfig : config ≠ none) (hloads : Loads ini (ascii "aws") old) :
    (∃ v, readVariant ini (ascii "aws") (config.setAll (Variant.other o).entries)
        ((Variant.other o).newSecret ini old) = some v ∧ (Variant.other r).Merged prev v) ↔
      (Variant.other r).Survives ini old prev (.other o) := by
  obtain ⟨hurl, hregion⟩ := entries_other o hconfig
  obtain ⟨hregion', hendpoint, hid, hidne, hkey, hkeyne⟩ := mergeOther_spec hmerge
  have hsecret : (Variant.other o).newSecret ini old = old := rfl
  unfold readVariant
  dsimp only
  rw [if_pos rfl, hurl, hregion, hsecret]
  simp only [Option.some.injEq, exists_eq_left']
  show StoreOther.Merged r prev.other _ ↔ o.Stored ini old
  -- the secret is the old one, whatever the keys are
  have hkeys : keysIn ini old = (o.accessKeyID, o.secretAccessKey) ↔ o.Stored ini old := by
    unfold StoreOther.Stored
    cases old with
    | none => exact iff_of_false (fun h => hidne (congrArg Prod.fst h).symm) fun h => hidne h.1
    | some s =>
      obtain ⟨sections, hload⟩ := hloads rfl s rfl
      unfold keysIn Ini.Reads
      dsimp only
      rw [hload]
      simp only [Except.ok.injEq, exists_eq_left']
  rw [← hkeys]
  constructor
  · rintro ⟨-, hid', hkey', -⟩
    exact Prod.ext ((keeps_iff_merged_of_ne StoreOther.accessKeyID rfl hid hidne).mp hid')
      ((keeps_iff_merged_of_ne StoreOther.secretAccessKey rfl hkey hkeyne).mp hkey')
  · intro h
    refine ⟨keeps_merged StoreOther.region rfl hregion', ?_, ?_,
      keeps_merged StoreOther.endpoint rfl hendpoint⟩
    · rw [h]
      exact keeps_merged StoreOther.accessKeyID rfl hid
    · rw [h]
      exact keeps_merged StoreOther.secretAccessKey rfl hkey

/-- A service account is always found again. -/
theorem survives_google {r g : StoreGoogle} (hmerge : mergeGoogle r (prev.google.getD {}) = .ok g) :
    (∃ v, readVariant ini (ascii "gcp") (config.setAll (Variant.google g).entries)
        ((Variant.google g).newSecret ini old) = some v ∧ (Variant.google r).Merged prev v) ↔
      (Variant.google r).Survives ini old prev (.google g) := by
  obtain ⟨hrole, hmerged⟩ := mergeGoogle_spec hmerge
  have hother : ascii "gcp" ≠ ascii "aws" ∧ ascii "gcp" ≠ ascii "azure" := by decide
  have hcloud : (((Variant.google g).newSecret ini old).elim [] fun s => s.data.value "cloud") =
      g.serviceAccount := by
    unfold Variant.newSecret
    dsimp only
    rw [hrole]
    by_cases hr : r.useInstanceRole = true
    · rw [if_pos hr] at hmerged ⊢
      exact hmerged.symm
    · rw [if_neg hr, Option.elim_some, withCloud_cloud]
  unfold readVariant
  dsimp only
  rw [if_neg hother.1, if_neg hother.2, if_pos rfl, hcloud]
  simp only [Option.some.injEq, exists_eq_left']
  refine iff_of_true ?_ trivial
  show StoreGoogle.Merged r prev.google _
  unfold StoreGoogle.Merged
  dsimp only
  by_cases hr : r.useInstanceRole = true
  · rw [if_pos hr] at hmerged ⊢
    rw [hmerged, hr]
    exact ⟨rfl, rfl⟩
  · rw [if_neg hr] at hmerged ⊢
    obtain ⟨haccount, hne⟩ := hmerged
    exact ⟨(decide_eq_false hne).trans (Bool.eq_false_of_not_eq_true hr).symm,
      keeps_merged StoreGoogle.serviceAccount rfl haccount⟩

theorem survives_azure {r a : StoreAzure} (hmerge : mergeAzure r (prev.azure.getD {}) = .ok a)
    (hconfig : config ≠ none) :
    (∃ v, readVariant ini (ascii "azure") (config.setAll (Variant.azure a).entries)
        ((Variant.azure a).newSecret ini old) = some v ∧ (Variant.azure r).Merged prev v) ↔
      (Variant.azure r).Survives ini old prev (.azure a) := by
  obtain ⟨hgroup, haccount, hsubscription⟩ := entries_azure a hconfig
  obtain ⟨hgroup', haccount', hsubscription', htenantID, hclientID, hclientSecret, hcloudName⟩ :=
    mergeAzure_spec hmerge
  have hother : ascii "azure" ≠ ascii "aws" := by decide
  unfold readVariant Variant.newSecret
  dsimp only [Option.elim_some]
  rw [if_neg hother, if_pos rfl, withCloud_cloud, hgroup, haccount, hsubscription]
  simp only [Option.some.injEq, exists_eq_left']
  show StoreAzure.Merged r prev.azure _ ↔ StoreAzure.Survives prev.azure r a
  have hread (field : StoreAzure → GoString) (hdefault : field {} = []) {merged read : GoString}
      (hmerged : merged = given (field r) (field (prev.azure.getD {}))) :
      Keeps (field r) (prev.azure.map field) read ↔ AzureField prev.azure (field r) merged read :=
    keeps_iff_merged field hdefault hmerged
  -- the first three fields are entries of the location, the others come from the file
  generalize hfile : parseAzureConfig (renderAzureConfig a.config) = file
  constructor
  · rintro ⟨-, -, -, h₁, h₂, h₃, h₄⟩
    rw [hread StoreAzure.tenantID rfl htenantID] at h₁
    rw [hread StoreAzure.clientID rfl hclientID] at h₂
    rw [hread StoreAzure.clientSecret rfl hclientSecret] at h₃
    rw [hread StoreAzure.cloudName rfl hcloudName] at h₄
    dsimp only at h₁ h₂ h₃ h₄
    subst hfile
    exact ⟨h₁, h₂, h₃, h₄⟩
  · rintro ⟨h₁, h₂, h₃, h₄⟩
    rw [hfile, ← hread StoreAzure.tenantID rfl htenantID] at h₁
    rw [hfile, ← hread StoreAzure.clientID rfl hclientID] at h₂
    rw [hfile, ← hread StoreAzure.clientSecret rfl hclientSecret] at h₃
    rw [hfile, ← hread StoreAzure.cloudName rfl hcloudName] at h₄
    exact ⟨keeps_merged StoreAzure.resourceGroup rfl hgroup',
      keeps_merged StoreAzure.storageAccount rfl haccount',
      keeps_merged StoreAzure.subscriptionID rfl hsubscription', h₁, h₂, h₃, h₄⟩

/-! ## Any provider -/

variable {request merged : Variant} {provider bucket path : GoString}

theorem survives_iff (hmerge : request.merge prev = .ok merged)
    (hconfig : config ≠ none ∨ merged.entries = [])
    (hloads : Loads ini provider (merged.newSecret ini old)) :
    (∃ v, readVariant ini provider (config.setAll merged.entries) (merged.newSecret ini old) =
        some v ∧ request.Merged prev v) ↔
      provider = request.provider ∧ request.Survives ini old prev merged := by
  by_cases hprovider : provider = request.provider
  · rw [and_iff_right hprovider]
    subst hprovider
    cases request with
    | aws r =>
      obtain ⟨a, ha, rfl⟩ := Except.map_eq_ok.mp hmerge
      exact survives_aws ha (hconfig.resolve_right (List.cons_ne_nil _ _)) hloads
    | other r =>
      obtain ⟨o, ho, rfl⟩ := Except.map_eq_ok.mp hmerge
      exact survives_other ho (hconfig.resolve_right (List.cons_ne_nil _ _)) hloads
    | google r =>
      obtain ⟨g, hg, rfl⟩ := Except.map_eq_ok.mp hmerge
      exact survives_google hg
    | azure r =>
      obtain ⟨a, ha, rfl⟩ := Except.map_eq_ok.mp hmerge
      exact survives_azure ha (hconfig.resolve_right (List.cons_ne_nil _ _))
  -- another provider string makes the reader look for other settings
  · refine iff_of_false ?_ fun h => hprovider h.1
    rintro ⟨v, hv, hmerged⟩
    exact hprovider ((readVariant_provider hv).symm.trans hmerged.sameProvider)

/-- The settings that are read again are those that were submitted. -/
structure Kept (ini : Ini) (old : Option Secret) (provider bucket path : GoString)
    (request merged : Variant) (prev : Store) : Prop where
  provider : provider = request.provider
  bucket : bucket = [] → request.SameAs prev → prev.bucket = []
  path : path = [] → request.SameAs prev → prev.path = []
  survives : request.Survives ini old prev merged

theorem mergedAsSubmitted_iff_kept (hmerge : request.merge prev = .ok merged)
    (hconfig : config ≠ none ∨ merged.entries = [])
    (hloads : Loads ini provider (merged.newSecret ini old)) :
    MergedAsSubmitted provider bucket path request prev
        (readSettings ini provider bucket path (config.setAll merged.entries)
          (merged.newSecret ini old)) ↔
      Kept ini old provider bucket path request merged prev := by
  rw [mergedAsSubmitted_iff, survives_iff hmerge hconfig hloads]
  constructor
  · rintro ⟨hbucket, hpath, hprovider, hsurvives⟩
    exact ⟨hprovider, hbucket, hpath, hsurvives⟩
  · rintro ⟨hprovider, hbucket, hpath, hsurvives⟩
    exact ⟨hbucket, hpath, hprovider, hsurvives⟩

end

end Kotsadm.Snapshots
