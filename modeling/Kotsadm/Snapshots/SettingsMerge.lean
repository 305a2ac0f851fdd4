import Kotsadm.Snapshots.Settings
import Kotsadm.Snapshots.StoredExactly

/-!
# SettingsMerge — the settings that a request should leave

A field of a request that is not empty replaces the stored one, and an empty field keeps what the
same provider had.  `mergeStore` has a branch for each provider.
-/

namespace Kotsadm.Snapshots

open GoString

/-! ## Requests for one provider -/

/-- The name under which the settings are read again. -/
def Variant.provider : Variant → GoString
  | .aws _ => ascii "aws"
  | .other _ => ascii "aws"
  | .google _ => ascii "gcp"
  | .azure _ => ascii "azure"

def Variant.request (provider bucket path : GoString) :
    Variant → UpdateGlobalSnapshotSettingsRequest
  | .aws a => { provider, bucket, path, aws := some a }
  | .other o => { provider, bucket, path, other := some o }
  | .google g => { provider, bucket, path, google := some g }
  | .azure a => { provider, bucket, path, azure := some a }

def Variant.settings (provider bucket path : GoString) : Variant → Store
  | .aws a => { provider, bucket, path, aws := some a }
  | .other o => { provider, bucket, path, other := some o }
  | .google g => { provider, bucket, path, google := some g }
  | .azure a => { provider, bucket, path, azure := some a }

theorem Variant.settings_fields (provider bucket path : GoString) (v : Variant) :
    (v.settings provider bucket path).provider = provider ∧
      (v.settings provider bucket path).bucket = bucket ∧
      (v.settings provider bucket path).path = path := by
  cases v <;> exact ⟨rfl, rfl, rfl⟩

/-- The store has settings of this provider. -/
def Variant.SameAs (v : Variant) (s : Store) : Prop :=
  match v with
  | .aws _ => s.aws.isSome
  | .other _ => s.other.isSome
  | .google _ => s.google.isSome
  | .azure _ => s.azure.isSome

/-! ## The law -/

/-- A value that is not empty is in effect, and for an empty one the old value, if there is one. -/
def Keeps (value : GoString) (old : Option GoString) (new : GoString) : Prop :=
  if value ≠ [] then new = value else ∀ o, old = some o → new = o

/-- With an instance role there are no keys. -/
def StoreAWS.Merged (request : StoreAWS) (old : Option StoreAWS) (new : StoreAWS) : Prop :=
  new.useInstanceRole = request.useInstanceRole ∧
    Keeps request.region (old.map (·.region)) new.region ∧
      if request.useInstanceRole then new.accessKeyID = [] ∧ new.secretAccessKey = []
      else Keeps request.accessKeyID (old.map (·.accessKeyID)) new.accessKeyID ∧
        Keeps request.secretAccessKey (old.map (·.secretAccessKey)) new.secretAccessKey

structure StoreOther.Merged (request : StoreOther) (old : Option StoreOther) (new : StoreOther) :
    Prop where
  region : Keeps request.region (old.map (·.region)) new.region
  accessKeyID : Keeps request.accessKeyID (old.map (·.accessKeyID)) new.accessKeyID
  secretAccessKey : Keeps request.secretAccessKey (old.map (·.secretAccessKey)) new.secretAccessKey
  endpoint : Keeps request.endpoint (old.map (·.endpoint)) new.endpoint

def StoreGoogle.Merged (request : StoreGoogle) (old : Option StoreGoogle) (new : StoreGoogle) :
    Prop :=
  new.useInstanceRole = request.useInstanceRole ∧
    if request.useInstanceRole then new.serviceAccount = []
    else Keeps request.serviceAccount (old.map (·.serviceAccount)) new.serviceAccount

structure StoreAzure.Merged (request : StoreAzure) (old : Option StoreAzure) (new : StoreAzure) :
    Prop where
  resourceGroup : Keeps request.resourceGroup (old.map (·.resourceGroup)) new.resourceGroup
  storageAccount : Keeps request.storageAccount (old.map (·.storageAccount)) new.storageAccount
  subscriptionID : Keeps request.subscriptionID (old.map (·.subscriptionID)) new.subscriptionID
  tenantID : Keeps request.tenantID (old.map (·.tenantID)) new.tenantID
  clientID : Keeps request.clientID (old.map (·.clientID)) new.clientID
  clientSecret : Keeps request.clientSecret (old.map (·.clientSecret)) new.clientSecret
  cloudName : Keeps request.cloudName (old.map (·.cloudName)) new.cloudName

/-- The settings of the provider, with those that were there before. -/
def Variant.Merged (request : Variant) (prev : Store) (new : Variant) : Prop :=
  match request, new with
  | .aws r, .aws s => r.Merged prev.aws s
  | .other r, .other s => r.Merged prev.other s
  | .google r, .google s => r.Merged prev.google s
  | .azure r, .azure s => r.Merged prev.azure s
  | _, _ => False

/-- The new settings are those of the request and of the same provider before it, and no others. -/
structure MergedAsSubmitted (provider bucket path : GoString) (request : Variant)
    (prev new : Store) : Prop where
  provider : new.provider = provider
  bucket : if bucket ≠ [] then new.bucket = bucket
    else request.SameAs prev → new.bucket = prev.bucket
  path : if path ≠ [] then new.path = path else request.SameAs prev → new.path = prev.path
  settings : ∃ v, new = v.settings new.provider new.bucket new.path ∧ request.Merged prev v

section

variable {value s : GoString} {old : Option GoString} {error : String}

/-- Without an old value, an empty one says nothing. -/
theorem keeps_iff {new : GoString} : Keeps value old new ↔
    value = [] ∧ old = none ∨ new = given value (old.getD []) := by
  unfold Keeps given
  by_cases hvalue : value = []
  · cases old <;> simp [hvalue]
  · simp [hvalue]

theorem keeps_given : Keeps value old (given value (old.getD [])) := keeps_iff.mpr (Or.inr rfl)

theorem givenSecret_eq_ok {o : GoString} (h : givenSecret error value o = .ok s) :
    s = given value o := by
  unfold givenSecret at h
  unfold given
  split at h
  next hempty =>
    cases h
    rw [if_neg (not_not.mpr hempty)]
  next hvalue =>
    split at h
    · cases h
    · cases h
      rw [if_pos hvalue]

end

/-! ## What the branches merge -/

/-- The branch of one provider. -/
def Variant.merge (request : Variant) (prev : Store) : Except String Variant :=
  match request with
  | .aws r => .aws <$> mergeAWS r (prev.aws.getD {})
  | .other r => .other <$> mergeOther r (prev.other.getD {})
  | .google r => .google <$> mergeGoogle r (prev.google.getD {})
  | .azure r => .azure <$> mergeAzure r (prev.azure.getD {})

theorem mergeStore_request (provider bucket path : GoString) (request : Variant) (prev : Store) :
    mergeStore (request.request provider bucket path) prev =
      (Variant.settings provider bucket path) <$> request.merge prev := by
  unfold mergeStore Variant.merge
  cases request with
  | aws r =>
    dsimp only [Variant.request]
    cases mergeAWS r (prev.aws.getD {}) <;> rfl
  | other r =>
    dsimp only [Variant.request]
    cases mergeOther r (prev.other.getD {}) <;> rfl
  | google r =>
    dsimp only [Variant.request]
    cases mergeGoogle r (prev.google.getD {}) <;> rfl
  | azure r =>
    dsimp only [Variant.request]
    cases mergeAzure r (prev.azure.getD {}) <;> rfl

/-- A region comes with the keys only. -/
theorem mergeAWS_spec {r aws a : StoreAWS} (h : mergeAWS r aws = .ok a) :
    a.useInstanceRole = r.useInstanceRole ∧
      if r.useInstanceRole then a.region = aws.region
      else a.region = given r.region aws.region ∧
        a.accessKeyID = given r.accessKeyID aws.accessKeyID ∧ a.accessKeyID ≠ [] ∧
        a.secretAccessKey = given r.secretAccessKey aws.secretAccessKey ∧
          a.secretAccessKey ≠ [] := by
  unfold mergeAWS at h
  split at h
  next hrole =>
    cases h
    exact ⟨hrole.symm, by rw [if_pos hrole]⟩
  next hrole =>
    obtain ⟨secretAccessKey, hsecret, h⟩ := Except.bind_eq_ok.mp h
    dsimp only at h
    split at h
    · cases h
    next hcomplete =>
      cases h
      simp only [not_or] at hcomplete
      refine ⟨(Bool.eq_false_of_not_eq_true hrole).symm, ?_⟩
      rw [if_neg hrole]
      exact ⟨rfl, rfl, hcomplete.1, givenSecret_eq_ok hsecret, hcomplete.2.1⟩

theorem mergeOther_spec {r other o : StoreOther} (h : mergeOther r other = .ok o) :
    o.region = given r.region other.region ∧ o.endpoint = given r.endpoint other.endpoint ∧
      o.accessKeyID = given r.accessKeyID other.accessKeyID ∧ o.accessKeyID ≠ [] ∧
      o.secretAccessKey = given r.secretAccessKey other.secretAccessKey ∧
        o.secretAccessKey ≠ [] := by
  unfold mergeOther at h
  obtain ⟨secretAccessKey, hsecret, h⟩ := Except.bind_eq_ok.mp h
  dsimp only at h
  split at h
  · cases h
  next hcomplete =>
    cases h
    simp only [not_or] at hcomplete
    exact ⟨rfl, rfl, rfl, hcomplete.1, givenSecret_eq_ok hsecret, hcomplete.2.1⟩

theorem mergeGoogle_spec {r google g : StoreGoogle} (h : mergeGoogle r google = .ok g) :
    g.useInstanceRole = r.useInstanceRole ∧
      if r.useInstanceRole then g.serviceAccount = []
      else g.serviceAccount = given r.serviceAccount google.serviceAccount ∧
        g.serviceAccount ≠ [] := by
  unfold mergeGoogle at h
  split at h
  next hrole =>
    cases h
    exact ⟨hrole.symm, by rw [if_pos hrole]⟩
  next hrole =>
    obtain ⟨serviceAccount, haccount, h⟩ := Except.bind_eq_ok.mp h
    split at h
    · cases h
    next hne =>
      cases h
      refine ⟨(Bool.eq_false_of_not_eq_true hrole).symm, ?_⟩
      rw [if_neg hrole]
      exact ⟨givenSecret_eq_ok haccount, hne⟩

theorem mergeAzure_spec {r azure a : StoreAzure} (h : mergeAzure r azure = .ok a) :
    a.resourceGroup = given r.resourceGroup azure.resourceGroup ∧
      a.storageAccount = given r.storageAccount azure.storageAccount ∧
      a.subscriptionID = given r.subscriptionID azure.subscriptionID ∧
      a.tenantID = given r.tenantID azure.tenantID ∧ a.clientID = given r.clientID azure.clientID ∧
      a.clientSecret = given r.clientSecret azure.clientSecret ∧
      a.cloudName = given r.cloudName azure.cloudName := by
  unfold mergeAzure at h
  obtain ⟨clientSecret, hsecret, h⟩ := Except.bind_eq_ok.mp h
  cases h
  exact ⟨rfl, rfl, rfl, rfl, rfl, givenSecret_eq_ok hsecret, rfl⟩

end Kotsadm.Snapshots
