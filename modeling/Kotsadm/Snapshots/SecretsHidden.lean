import Kotsadm.Lib.TwoRuns
import Kotsadm.Snapshots.Settings

/-!
# SecretsHidden — whether the responses depend on the stored secrets

Two runs of a handler are compared, from settings that differ only in the contents of secrets.  The
provider gives the same answer in both.
-/

namespace Kotsadm.Snapshots

open GoString Except

/-! ## Settings that differ in secrets -/

/-- Both are empty, or neither is. -/
def SameSecret (secret secret' : GoString) : Prop := secret = [] ↔ secret' = []

instance (secret secret' : GoString) : Decidable (SameSecret secret secret') :=
  inferInstanceAs (Decidable (_ ↔ _))

structure StoreAWS.Agree (aws aws' : StoreAWS) : Prop where
  region : aws.region = aws'.region
  accessKeyID : aws.accessKeyID = aws'.accessKeyID
  secretAccessKey : SameSecret aws.secretAccessKey aws'.secretAccessKey
  useInstanceRole : aws.useInstanceRole = aws'.useInstanceRole

structure StoreGoogle.Agree (google google' : StoreGoogle) : Prop where
  serviceAccount : SameSecret google.serviceAccount google'.serviceAccount
  useInstanceRole : google.useInstanceRole = google'.useInstanceRole

structure StoreAzure.Agree (azure azure' : StoreAzure) : Prop where
  resourceGroup : azure.resourceGroup = azure'.resourceGroup
  storageAccount : azure.storageAccount = azure'.storageAccount
  subscriptionID : azure.subscriptionID = azure'.subscriptionID
  tenantID : azure.tenantID = azure'.tenantID
  clientID : azure.clientID = azure'.clientID
  clientSecret : SameSecret azure.clientSecret azure'.clientSecret
  cloudName : azure.cloudName = azure'.cloudName

structure StoreOther.Agree (other other' : StoreOther) : Prop where
  region : other.region = other'.region
  accessKeyID : other.accessKeyID = other'.accessKeyID
  secretAccessKey : SameSecret other.secretAccessKey other'.secretAccessKey
  endpoint : other.endpoint = other'.endpoint

structure Store.Agree (s s' : Store) : Prop where
  provider : s.provider = s'.provider
  bucket : s.bucket = s'.bucket
  path : s.path = s'.path
  aws : Option.Rel StoreAWS.Agree s.aws s'.aws
  azure : Option.Rel StoreAzure.Agree s.azure s'.azure
  google : Option.Rel StoreGoogle.Agree s.google s'.google
  other : Option.Rel StoreOther.Agree s.other s'.other

/-- Only the data of the secrets is different. -/
structure Cluster.Agree (c c' : Cluster) : Prop where
  backupStorageLocations : c.backupStorageLocations = c'.backupStorageLocations
  cloudCredentials : ∀ ns, (c.cloudCredentials ns).isSome = (c'.cloudCredentials ns).isSome

/-! ## redact -/

theorem redactSecret_eq {secret secret' : GoString} (h : SameSecret secret secret') :
    redactSecret secret = redactSecret secret' := by
  unfold redactSecret
  by_cases hempty : secret = []
  · rw [hempty, h.mp hempty]
  · have hempty' : secret' ≠ [] := fun h' => hempty (h.mpr h')
    rw [if_pos hempty, if_pos hempty']

/-- The key of an S3-compatible store. -/
def Store.otherSecret (s : Store) : Option GoString := s.other.map (·.secretAccessKey)

@[simp] theorem redact_other (s : Store) : (redact s).other = s.other := rfl

theorem redact_aws {aws aws' : Option StoreAWS} (h : Option.Rel StoreAWS.Agree aws aws') :
    (aws.map fun aws => { aws with secretAccessKey := redactSecret aws.secretAccessKey }) =
      aws'.map fun aws => { aws with secretAccessKey := redactSecret aws.secretAccessKey } := by
  cases h with
  | none => rfl
  | some h => simp [h.region, h.accessKeyID, h.useInstanceRole, redactSecret_eq h.secretAccessKey]

theorem redact_google {google google' : Option StoreGoogle}
    (h : Option.Rel StoreGoogle.Agree google google') :
    (google.map fun google =>
        { google with serviceAccount := redactSecret google.serviceAccount }) =
      google'.map fun google =>
        { google with serviceAccount := redactSecret google.serviceAccount } := by
  cases h with
  | none => rfl
  | some h => simp [h.useInstanceRole, redactSecret_eq h.serviceAccount]

theorem redact_azure {azure azure' : Option StoreAzure}
    (h : Option.Rel StoreAzure.Agree azure azure') :
    (azure.map fun azure => { azure with clientSecret := redactSecret azure.clientSecret }) =
      azure'.map fun azure => { azure with clientSecret := redactSecret azure.clientSecret } := by
  cases h with
  | none => rfl
  | some h => simp [h.resourceGroup, h.storageAccount, h.subscriptionID, h.tenantID, h.clientID,
      h.cloudName, redactSecret_eq h.clientSecret]

theorem StoreOther.Agree.eq {other other' : StoreOther} (h : other.Agree other')
    (hsecret : other.secretAccessKey = other'.secretAccessKey) : other = other' := by
  cases other
  cases other'
  cases h.region
  cases h.accessKeyID
  cases h.endpoint
  cases hsecret
  rfl

/-- The S3-compatible store is the one that is not redacted. -/
theorem redact_eq_iff {s s' : Store} (h : s.Agree s') :
    redact s = redact s' ↔ s.otherSecret = s'.otherSecret := by
  constructor
  · intro hredact
    have hother : (redact s).other = (redact s').other := congrArg Store.other hredact
    rw [redact_other, redact_other] at hother
    rw [Store.otherSecret, hother, Store.otherSecret]
  · intro hsecret
    have hother : s.other = s'.other := by
      unfold Store.otherSecret at hsecret
      have hagree := h.other
      cases hs : s.other with
      | none =>
        rw [hs] at hagree
        cases hs' : s'.other with
        | none => rfl
        | some other' =>
          rw [hs'] at hagree
          cases hagree
      | some other =>
        rw [hs] at hagree hsecret
        cases hs' : s'.other with
        | none =>
          rw [hs'] at hagree
          cases hagree
        | some other' =>
          rw [hs'] at hagree hsecret
          cases hagree with
          | some hagree => rw [hagree.eq (Option.some.inj hsecret)]
    unfold redact
    rw [redact_aws h.aws, redact_google h.google, redact_azure h.azure, hother, h.provider,
      h.bucket, h.path]

/-! ## The settings of a request -/

theorem related_givenSecret (error : String) (value : GoString) {old old' : GoString}
    (h : SameSecret old old') :
    Related SameSecret (givenSecret error value old) (givenSecret error value old') := by
  unfold givenSecret
  by_cases hvalue : value = []
  · rw [if_pos hvalue, if_pos hvalue]
    exact .ok h
  · rw [if_neg hvalue, if_neg hvalue]
    exact Related.refl (R := SameSecret) (fun _ => Iff.rfl) _

theorem related_mergeAWS (request : StoreAWS) {aws aws' : StoreAWS} (h : aws.Agree aws') :
    Related StoreAWS.Agree (mergeAWS request aws) (mergeAWS request aws') := by
  refine Related.ite Iff.rfl (.ok ⟨h.region, rfl, Iff.rfl, rfl⟩) ?_
  refine (related_givenSecret _ _ h.secretAccessKey).bind fun secret secret' hsecret => ?_
  have hempty : (secret = []) = (secret' = []) := propext hsecret
  refine Related.ite ?_ (.error _) (.ok ⟨?_, ?_, hsecret, rfl⟩)
  · rw [h.accessKeyID, h.region, hempty]
  · rw [h.region]
  · rw [h.accessKeyID]

theorem related_mergeGoogle (request : StoreGoogle) {google google' : StoreGoogle}
    (h : google.Agree google') :
    Related StoreGoogle.Agree (mergeGoogle request google) (mergeGoogle request google') := by
  refine Related.ite Iff.rfl (.ok ⟨Iff.rfl, rfl⟩) ?_
  refine (related_givenSecret _ _ h.serviceAccount).bind fun secret secret' hsecret => ?_
  exact .ite hsecret (.error _) (.ok ⟨hsecret, rfl⟩)

theorem related_mergeAzure (request : StoreAzure) {azure azure' : StoreAzure}
    (h : azure.Agree azure') :
    Related StoreAzure.Agree (mergeAzure request azure) (mergeAzure request azure') := by
  unfold mergeAzure
  rw [h.resourceGroup, h.storageAccount, h.subscriptionID, h.tenantID, h.clientID, h.cloudName]
  refine (related_givenSecret _ _ h.clientSecret).bind fun secret secret' hsecret => ?_
  exact .ok ⟨rfl, rfl, rfl, rfl, rfl, hsecret, rfl⟩

theorem related_mergeOther (request : StoreOther) {other other' : StoreOther}
    (h : other.Agree other') :
    Related StoreOther.Agree (mergeOther request other) (mergeOther request other') := by
  unfold mergeOther
  rw [h.accessKeyID, h.region, h.endpoint]
  refine (related_givenSecret _ _ h.secretAccessKey).bind fun secret secret' hsecret => ?_
  have hempty : (secret = []) = (secret' = []) := propext hsecret
  refine .ite ?_ (.error _) (.ok ⟨rfl, rfl, hsecret, rfl⟩)
  rw [hempty]

theorem agree_getD {α : Type} {R : α → α → Prop} {x y : Option α} (h : Option.Rel R x y) {a : α}
    (ha : R a a) : R (x.getD a) (y.getD a) := by
  cases h with
  | none => exact ha
  | some h => exact h

theorem related_mergeStore (request : UpdateGlobalSnapshotSettingsRequest) {s s' : Store}
    (h : s.Agree s') :
    Related Store.Agree (mergeStore request s) (mergeStore request s') := by
  unfold mergeStore
  split
  next aws _ =>
    have hold := agree_getD h.aws (a := {}) ⟨rfl, rfl, Iff.rfl, rfl⟩
    exact (related_mergeAWS aws hold).bind fun _ _ haws =>
      .ok ⟨rfl, rfl, rfl, .some haws, .none, .none, .none⟩
  next =>
    split
    next google _ =>
      have hold := agree_getD h.google (a := {}) ⟨Iff.rfl, rfl⟩
      exact (related_mergeGoogle google hold).bind fun _ _ hgoogle =>
        .ok ⟨rfl, rfl, rfl, .none, .none, .some hgoogle, .none⟩
    next =>
      split
      next azure _ =>
        have hold := agree_getD h.azure (a := {}) ⟨rfl, rfl, rfl, rfl, rfl, Iff.rfl, rfl⟩
        exact (related_mergeAzure azure hold).bind fun _ _ hazure =>
          .ok ⟨rfl, rfl, rfl, .none, .some hazure, .none, .none⟩
      next =>
        split
        next other _ =>
          have hold := agree_getD h.other (a := {}) ⟨rfl, rfl, Iff.rfl, rfl⟩
          exact (related_mergeOther other hold).bind fun _ _ hother =>
            .ok ⟨rfl, rfl, rfl, .none, .none, .none, .some hother⟩
        next => exact .ok ⟨rfl, rfl, rfl, h.aws, h.azure, h.google, h.other⟩

theorem isSome_eq {α : Type} {R : α → α → Prop} {x y : Option α} (h : Option.Rel R x y) :
    x.isSome = y.isSome := by
  cases h with
  | none => rfl
  | some _ => rfl

theorem validateStore_eq (answer : Except GoError Unit) {s s' : Store} (h : s.Agree s') :
    validateStore answer s = validateStore answer s' := by
  unfold validateStore
  rw [isSome_eq h.aws, isSome_eq h.azure, isSome_eq h.google, isSome_eq h.other]

/-! ## Storing the settings -/

/-- Nothing is said of the results. -/
def Any {α : Type} (_ _ : α) : Prop := True

theorem related_createOrUpdateSecret (calls : Calls) {secret secret' : Option Secret}
    (h : secret.isSome = secret'.isSome) (cloud cloud' : GoString) :
    Related Any (createOrUpdateSecret calls secret cloud)
      (createOrUpdateSecret calls secret' cloud') := by
  cases secret with
  | none =>
    cases secret' with
    | none => exact Related.same _ fun _ => .ok trivial
    | some secret' => cases h
  | some secret =>
    cases secret' with
    | none => cases h
    | some secret' => exact Related.same _ fun _ => .ok trivial

theorem deleteSecret_eq (calls : Calls) {secret secret' : Option Secret}
    (h : secret.isSome = secret'.isSome) (context : String) :
    deleteSecret calls secret context = deleteSecret calls secret' context := by
  cases secret with
  | none =>
    cases secret' with
    | none => rfl
    | some secret' => cases h
  | some secret =>
    cases secret' with
    | none => cases h
    | some secret' => rfl

/-- The new `Spec.Config` is the same, and so is what fails. -/
def SameConfig (r r' : GoMap × Option Secret) : Prop := r.1 = r'.1

section

variable (calls : Calls) (config : GoMap) {secret secret' : Option Secret}
  (hsecret : secret.isSome = secret'.isSome)

include hsecret

theorem related_updateAWS (ini : Ini) {aws aws' : StoreAWS} (h : aws.Agree aws') :
    Related SameConfig (updateAWS calls ini aws config secret)
      (updateAWS calls ini aws' config secret') := by
  unfold updateAWS
  rw [h.region, h.useInstanceRole, deleteSecret_eq calls hsecret]
  refine Related.same _ fun config => ?_
  refine Related.ite Iff.rfl ?_ ?_
  · exact Related.same _ fun _ => .ok rfl
  · refine Related.same _ fun _ => Related.same _ fun _ => Related.same _ fun _ =>
      Related.same _ fun _ => Related.same _ fun _ => ?_
    exact (related_createOrUpdateSecret calls hsecret _ _).bind fun _ _ _ => .ok rfl

theorem related_updateGoogle {google google' : StoreGoogle} (h : google.Agree google') :
    Related SameConfig (updateGoogle calls google config secret)
      (updateGoogle calls google' config secret') := by
  unfold updateGoogle
  rw [h.useInstanceRole, deleteSecret_eq calls hsecret]
  refine Related.ite Iff.rfl ?_ ?_
  · exact Related.same _ fun _ => .ok rfl
  · exact (related_createOrUpdateSecret calls hsecret _ _).bind fun _ _ _ => .ok rfl

theorem related_updateAzure {azure azure' : StoreAzure} (h : azure.Agree azure') :
    Related SameConfig (updateAzure calls azure config secret)
      (updateAzure calls azure' config secret') := by
  unfold updateAzure
  rw [h.resourceGroup, h.storageAccount, h.subscriptionID]
  refine Related.same _ fun _ => Related.same _ fun _ => Related.same _ fun _ => ?_
  exact (related_createOrUpdateSecret calls hsecret _ _).bind fun _ _ _ => .ok rfl

theorem related_updateConfig (ini : Ini) {s s' : Store} (h : s.Agree s') :
    Related SameConfig (updateConfig calls ini s config secret)
      (updateConfig calls ini s' config secret') := by
  obtain ⟨-, -, -, haws, hazure, hgoogle, hother⟩ := h
  unfold updateConfig
  generalize s.aws = aws, s'.aws = aws' at haws ⊢
  generalize s.azure = azure, s'.azure = azure' at hazure ⊢
  generalize s.google = google, s'.google = google' at hgoogle ⊢
  generalize s.other = other, s'.other = other' at hother ⊢
  cases haws with
  | some h => exact related_updateAWS calls config hsecret ini h
  | none =>
    cases hother with
    | some h =>
      change Related SameConfig (updateOther _ config secret) (updateOther _ config secret')
      unfold updateOther
      rw [h.region, h.endpoint]
      exact Related.same _ fun _ => Related.same _ fun _ => .ok rfl
    | none =>
      cases hgoogle with
      | some h => exact related_updateGoogle calls config hsecret h
      | none =>
        cases hazure with
        | some h => exact related_updateAzure calls config hsecret h
        | none => exact .ok rfl

end

theorem related_prepareLocation (calls : Calls) (ini : Ini) {s s' : Store} (h : s.Agree s')
    {c c' : Cluster} (hc : c.Agree c') :
    Related (fun r r' => r.1 = r'.1) (prepareLocation calls ini s c)
      (prepareLocation calls ini s' c') := by
  have hfind : findBackupStoreLocation calls c = findBackupStoreLocation calls c' := by
    unfold findBackupStoreLocation Cluster.defaultLocation
    rw [hc.backupStorageLocations]
  unfold prepareLocation
  rw [hfind, h.provider, h.bucket, h.path]
  refine Related.same _ fun _ => Related.same _ fun _ => Related.same _ fun _ =>
    Related.same _ fun location => Related.same _ fun _ => ?_
  refine (related_updateConfig calls _ (hc.cloudCredentials _) ini h).bind fun r r' hr => ?_
  obtain ⟨config, secret⟩ := r
  obtain ⟨config', secret'⟩ := r'
  cases hr
  exact .ok rfl

theorem updateGlobalStore_eq (calls : Calls) (ini : Ini) {s s' : Store} (h : s.Agree s')
    {c c' : Cluster} (hc : c.Agree c') :
    (updateGlobalStore calls ini s c).1 = (updateGlobalStore calls ini s' c').1 := by
  have hprepare := related_prepareLocation calls ini h hc
  unfold updateGlobalStore
  generalize prepareLocation calls ini s c = prepared, prepareLocation calls ini s' c' = prepared'
    at hprepare ⊢
  cases hprepare with
  | error e => rfl
  | ok hlocation =>
    next r r' =>
    obtain ⟨location, secret⟩ := r
    obtain ⟨location', secret'⟩ := r'
    cases hlocation
    simp only
    cases calls.call .updateBackupStorageLocation "failed to update backup storage location" with
    | error e => rfl
    | ok _ => rfl

/-! ## The handlers -/

theorem Related.exitOn {α : Type} {R : α → α → Prop} {x y : Except Abort α} (h : Related R x y)
    (exit : GoError → Exit) : Related R (exitOn exit x) (exitOn exit y) := by
  cases h with
  | ok h => exact .ok h
  | error e =>
    cases e with
    | error e => exact .error _
    | panic => exact .error _

/-- The settings were read from the cluster. -/
abbrev ReadsAgree (r r' : Except Abort (Option Store)) : Prop :=
  Related (Option.Rel Store.Agree) r r'

theorem related_prepareUpdate (env : SettingsEnv)
    (body : Except GoError UpdateGlobalSnapshotSettingsRequest) {c c' : Cluster}
    (hread : ReadsAgree (env.read c) (env.read c')) :
    Related (fun r r' => r.1 = r'.1 ∧ r.2.Agree r'.2) (prepareUpdate env body c)
      (prepareUpdate env body c') := by
  unfold prepareUpdate
  refine Related.same _ fun _ => Related.same _ fun request => Related.same _ fun response => ?_
  refine (Related.exitOn hread _).bind fun store store' hstore => ?_
  cases hstore with
  | none => exact .error _
  | some hstore =>
    refine ((related_mergeStore request hstore).mapError _).bind fun merged merged' hmerged => ?_
    rw [validateStore_eq env.provider hmerged]
    exact Related.same _ fun _ => .ok ⟨rfl, hmerged⟩

/-- What an update reads in the end, if it gets there. -/
def ReadsAfter (env : SettingsEnv) (body : Except GoError UpdateGlobalSnapshotSettingsRequest)
    (c : Cluster) (s : Store) : Prop :=
  ∀ response store location updated, prepareUpdate env body c = .ok (response, store) →
    updateGlobalStore env.updateCalls env.ini store c = (.ok location, updated) →
    env.reread location updated = .ok (some s)

/-- The responses do not depend on which of the two settings is stored. -/
structure Independent (s s' : Store) : Prop where
  redact : redact s = redact s'
  get : ∀ env c c', env.read c = .ok (some s) → env.read c' = .ok (some s') →
    getGlobalSnapshotSettings env c = getGlobalSnapshotSettings env c'
  update : ∀ env body c c', c.Agree c' → ReadsAgree (env.read c) (env.read c') →
    ReadsAfter env body c s → ReadsAfter env body c' s' →
    (updateGlobalSnapshotSettings env body c).1 = (updateGlobalSnapshotSettings env body c').1

theorem respondStore_eq (response : Response) {s s' : Store} (h : redact s = redact s') :
    respondStore response (some s) = respondStore response (some s') := by
  unfold respondStore
  rw [Option.map_some, Option.map_some, h]

theorem getGlobalSnapshotSettings_eq {env : SettingsEnv} {c c' : Cluster} {s s' : Store}
    (hredact : redact s = redact s') (hs : env.read c = .ok (some s))
    (hs' : env.read c' = .ok (some s')) :
    getGlobalSnapshotSettings env c = getGlobalSnapshotSettings env c' := by
  have hend : ∀ response, respondStore response (some s) = respondStore response (some s') :=
    fun response => respondStore_eq response hredact
  unfold getGlobalSnapshotSettings
  rw [hs, hs']
  change Exit.of (authorize env >>= fun _ => detected env >>= fun response =>
    .ok (respondStore response (some s))) = _
  simp only [hend]
  rfl

theorem storeSettings_eq {env : SettingsEnv} (response : Response) {store store' s s' : Store}
    {c c' : Cluster} (hredact : redact s = redact s') (hc : c.Agree c')
    (hstore : store.Agree store')
    (hs : ∀ location updated, updateGlobalStore env.updateCalls env.ini store c =
      (.ok location, updated) → env.reread location updated = .ok (some s))
    (hs' : ∀ location updated, updateGlobalStore env.updateCalls env.ini store' c' =
      (.ok location, updated) → env.reread location updated = .ok (some s')) :
    (storeSettings env response store c).1 = (storeSettings env response store' c').1 := by
  have hwritten := updateGlobalStore_eq env.updateCalls env.ini hstore hc
  unfold storeSettings
  generalize updateGlobalStore env.updateCalls env.ini store c = result,
    updateGlobalStore env.updateCalls env.ini store' c' = result' at hwritten hs hs' ⊢
  obtain ⟨written, updated⟩ := result
  obtain ⟨written', updated'⟩ := result'
  cases hwritten
  cases written with
  | error e => cases e <;> rfl
  | ok location =>
    let fail : GoError → Exit := fun _ => response.fail 500 "failed to update store"
    change Exit.of (exitOn fail (env.reread location updated) >>= fun store =>
        .ok (respondStore response store)) =
      Exit.of (exitOn fail (env.reread location updated') >>= fun store =>
        .ok (respondStore response store))
    rw [hs location updated rfl, hs' location updated' rfl]
    exact respondStore_eq response hredact

theorem updateGlobalSnapshotSettings_eq {env : SettingsEnv}
    {body : Except GoError UpdateGlobalSnapshotSettingsRequest} {c c' : Cluster} {s s' : Store}
    (hredact : redact s = redact s') (hc : c.Agree c')
    (hread : ReadsAgree (env.read c) (env.read c')) (hs : ReadsAfter env body c s)
    (hs' : ReadsAfter env body c' s') :
    (updateGlobalSnapshotSettings env body c).1 =
      (updateGlobalSnapshotSettings env body c').1 := by
  have hprepare := related_prepareUpdate env body hread
  unfold ReadsAfter at hs hs'
  unfold updateGlobalSnapshotSettings
  generalize prepareUpdate env body c = prepared, prepareUpdate env body c' = prepared'
    at hprepare hs hs' ⊢
  cases hprepare with
  | error exit => rfl
  | ok hprepared =>
    next r r' =>
    obtain ⟨response, store⟩ := r
    obtain ⟨response', store'⟩ := r'
    obtain ⟨hresponse, hstore⟩ := hprepared
    cases hresponse
    exact storeSettings_eq response hredact hc hstore (fun _ _ => hs response store _ _ rfl)
      fun _ _ => hs' response store' _ _ rfl

/-- **Exactly the key of an S3-compatible store is shown.**  For settings that differ only in the
contents of secrets, the responses are the same if and only if this key is. -/
theorem independent_iff {s s' : Store} (h : s.Agree s') :
    Independent s s' ↔ s.otherSecret = s'.otherSecret := by
  constructor
  · intro hindependent
    exact (redact_eq_iff h).mp hindependent.redact
  · intro hsecret
    have hredact := (redact_eq_iff h).mpr hsecret
    exact {
      redact := hredact
      get := fun _ _ _ => getGlobalSnapshotSettings_eq hredact
      update := fun _ _ _ _ => updateGlobalSnapshotSettings_eq hredact }

def awsSettings (secretAccessKey : GoString) : Store where
  provider := ascii "aws"
  bucket := ascii "backups"
  path := []
  aws := some { region := ascii "us-east-1", accessKeyID := ascii "AKIA", secretAccessKey }

def otherSettings (secretAccessKey : GoString) : Store where
  provider := ascii "aws"
  bucket := ascii "backups"
  path := []
  other := some {
    region := ascii "us-east-1"
    accessKeyID := ascii "minio"
    secretAccessKey
    endpoint := ascii "http://minio:9000" }

theorem independent_aws :
    (awsSettings (ascii "first")).Agree (awsSettings (ascii "second")) ∧
      Independent (awsSettings (ascii "first")) (awsSettings (ascii "second")) := by
  have hsecret : SameSecret (ascii "first") (ascii "second") := by decide
  have hagree : (awsSettings (ascii "first")).Agree (awsSettings (ascii "second")) :=
    ⟨rfl, rfl, rfl, .some ⟨rfl, rfl, hsecret, rfl⟩, .none, .none, .none⟩
  exact ⟨hagree, (independent_iff hagree).mpr rfl⟩

/-- The key of an S3-compatible store is in the response as it is. -/
theorem not_independent_other : ¬ ∀ s s' : Store, s.Agree s' → Independent s s' := by
  intro h
  have hsecret : SameSecret (ascii "first") (ascii "second") := by decide
  have hindependent := h (otherSettings (ascii "first")) (otherSettings (ascii "second"))
    ⟨rfl, rfl, rfl, .none, .none, .none, .some ⟨rfl, rfl, hsecret, rfl⟩⟩
  have hother := congrArg (fun s => (Store.other s).map (·.secretAccessKey)) hindependent.redact
  revert hother
  decide

end Kotsadm.Snapshots
