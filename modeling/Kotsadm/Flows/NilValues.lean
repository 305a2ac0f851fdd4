import Kotsadm.Flows.ConfigMerge

/-!
# NilValues — config changes of archives without config values

`updateAppConfig` reads the values of the archive before it looks whether there are any, and writes
into a map that a document without values does not have.  A group of the request may be `null`.
-/

namespace Kotsadm.Flows

open Version Body

/-! ## Requests with groups that are null -/

/-- A decoded `UpdateAppConfigRequest`: its groups are pointers. -/
structure DecodedRequest where
  sequence : Int
  createNewVersion : Bool
  configGroups : List (Option (List ConfigItem))
  deriving DecidableEq, Repr

/-- The request, if no group is nil. -/
def DecodedRequest.request? (decoded : DecodedRequest) : Option UpdateAppConfigRequest :=
  (decoded.configGroups.mapM id).map fun configGroups =>
    { sequence := decoded.sequence, createNewVersion := decoded.createNewVersion, configGroups }

/-- `updateAppConfig`.  The first loop over the groups dereferences a nil one. -/
def updateDecodedConfig (env : ConfigEnv) (a : App) (sequence : Int) (decoded : DecodedRequest)
    (isPrimaryVersion : Bool) : Body ConfigRun Unit :=
  match decoded.request? with
  | some request => updateAppConfig env a sequence request isPrimaryVersion
  | none => do
    orRespond "failed to get app version archive" (fun s =>
      (getAppVersionArchive env.downloadArchive s.archives a.id sequence, s))
    let _ ← orRespond "failed to load kots kinds from path" (outcome env.loadKotsKinds)
    panic

/-! ## The property and the condition -/

def noConfigValues : GoError := { cause := "no config values found" }

section

variable (env : ConfigEnv) (a : App) (sequence : Int) (decoded : DecodedRequest)
  (isPrimaryVersion : Bool) (s : Server)

/-- The archive is there and is read. -/
def Loads (kinds : KotsKinds) : Prop :=
  (∃ unit, getAppVersionArchive env.downloadArchive s.archives a.id sequence = .ok unit) ∧
    env.loadKotsKinds = .ok kinds

/-- The request is answered with the items that are missing. -/
def Refuses (request : UpdateAppConfigRequest) (isPrimaryVersion : Bool) : Prop :=
  requiredItems request ≠ [] ∧ isPrimaryVersion = true

/-- How the call ends. -/
def saveResult : Except Abort Unit :=
  (runRequest (updateDecodedConfig env a sequence decoded isPrimaryVersion) { server := s }).1

/-- The call does not panic.  One that gets to the merge reports that there are no values, or
completes it, unless a password cannot be encrypted. -/
structure SavesSafely : Prop where
  no_panic : saveResult env a sequence decoded isPrimaryVersion s ≠ .error .panic
  merges : ∀ kinds request, Loads env a sequence s kinds → decoded.request? = some request →
    ¬ Refuses request isPrimaryVersion →
      saveResult env a sequence decoded isPrimaryVersion s = .error (.error noConfigValues) ∨
      (∃ item ∈ request.configGroups.flatten, ∃ e,
        submittedValue env kinds.encryptionKey item = .error e) ∨
      ∃ configValues values, kinds.configValues = some configValues ∧
        mergedValues env kinds.encryptionKey request.configGroups.flatten configValues.values =
          some values

/-- The key is not one, and the item is a password that needs it. -/
def LacksKey (kinds : KotsKinds) (item : ConfigItem) : Prop :=
  IsPasswordText item ∧ ∃ e, env.cipher kinds.encryptionKey = .error e

/-- There is a map to write into, or the first item to write lacks a key, or there is none. -/
def CanMerge (kinds : KotsKinds) (items : List ConfigItem) : Prop :=
  ∃ configValues, kinds.configValues = some configValues ∧
    (configValues.values.isSome ∨ ∀ item ∈ items.head?, LacksKey env kinds item)

/-- No group is nil, and the request is refused or can be merged. -/
def Mergeable : Prop :=
  ∀ kinds, Loads env a sequence s kinds → ∃ request, decoded.request? = some request ∧
    (Refuses request isPrimaryVersion ∨ CanMerge env kinds request.configGroups.flatten)

end

/-! ## Panics of a body -/

section Panics

variable {env : ConfigEnv} {key : String} {f : Frame ConfigRun}

theorem noPanic_orRespond {α : Type} (text : String)
    (call : Server → Except GoError α × Server) : (orRespond text call).NoPanic := by
  intro f f' h
  unfold orRespond orReturnErr at h
  dsimp only at h
  split at h <;> cases h

theorem noPanic_orReturnErr {σ α : Type} (call : σ → Except GoError α × σ) :
    (orReturnErr call).NoPanic := by
  intro f f' h
  unfold orReturnErr at h
  dsimp only at h
  split at h <;> cases h

theorem noPanic_storeConfig (env : ConfigEnv) (a : App) (sequence : Int) (createNewVersion : Bool) :
    (storeConfig env a sequence createNewVersion).NoPanic := by
  unfold storeConfig
  split
  next =>
    refine noPanic_bind (noPanic_orRespond _ _) fun newSequence => ?_
    exact noPanic_bind (noPanic_orRespond _ _) fun _ => noPanic_pure newSequence
  next =>
    refine noPanic_bind (noPanic_orRespond _ _) fun _ => ?_
    exact noPanic_bind (noPanic_orRespond _ _) fun _ => noPanic_pure sequence

/-- A call that leaves the server alone, and what comes after it. -/
theorem panics_read {α β : Type} {text : String} {x : Server → Except GoError α}
    {k : α → Body ConfigRun β} :
    ((orRespond text (fun s => (x s, s)) >>= k).run f).1 = .error .panic ↔
      ∃ a, x f.state.server = .ok a ∧ ((k a).run f).1 = .error .panic := by
  rw [run_orRespond_bind]
  cases x f.state.server with
  | error e => exact iff_of_false nofun fun ⟨_, h, _⟩ => nomatch h
  | ok a =>
    dsimp only
    constructor
    · exact fun h => ⟨a, rfl, h⟩
    · rintro ⟨a', heq, h⟩
      cases heq
      exact h

theorem panics_outcome {α β : Type} {text : String} {x : Except GoError α}
    {k : α → Body ConfigRun β} :
    ((orRespond text (outcome x) >>= k).run f).1 = .error .panic ↔
      ∃ a, x = .ok a ∧ ((k a).run f).1 = .error .panic :=
  panics_read (x := fun _ => x)

/-- A body that does not panic may follow. -/
theorem panics_bind {α β : Type} {m : Body ConfigRun α} {k : α → Body ConfigRun β}
    (hk : ∀ a, (k a).NoPanic) :
    ((m >>= k).run f).1 = .error .panic ↔ (m.run f).1 = .error .panic := by
  rw [run_bind]
  rcases m.run f with ⟨e | a, f'⟩
  · constructor <;> intro h <;> cases h <;> rfl
  · exact iff_of_false (fun h => hk a f' _ (Prod.ext h rfl)) nofun

theorem submittedValue_eq_error {kinds : KotsKinds} {item : ConfigItem} :
    (∃ e, submittedValue env kinds.encryptionKey item = .error e) ↔ LacksKey env kinds item := by
  unfold submittedValue LacksKey IsPasswordText
  cases item.value with
  | bool b => exact iff_of_false nofun fun ⟨⟨_, _, h⟩, _⟩ => nomatch h
  | str text =>
    dsimp only
    by_cases htype : item.type = "password"
    · rw [if_pos htype]
      cases env.cipher kinds.encryptionKey with
      | error e => exact iff_of_true ⟨e, rfl⟩ ⟨⟨htype, text, rfl⟩, e, rfl⟩
      | ok _ => exact iff_of_false nofun fun ⟨_, _, h⟩ => nomatch h
    · rw [if_neg htype]
      exact iff_of_false nofun fun ⟨⟨h, _⟩, _⟩ => htype h

/-- The loop panics at the first item, if the map is nil and the item has a value. -/
theorem panics_mergeConfigValues (items : List ConfigItem)
    (values : Option (String → Option ConfigValue)) :
    ((mergeConfigValues env key items values).run f).1 = .error .panic ↔
      values = none ∧ ∃ item ∈ items.head?, ∃ value, submittedValue env key item = .ok value := by
  induction items generalizing values with
  | nil =>
    constructor
    · intro hrun
      cases hrun
    · rintro ⟨-, item, hitem, -⟩
      cases hitem
  | cons item items ih =>
    unfold mergeConfigValues
    rw [panics_outcome]
    cases values with
    | none =>
      constructor
      · rintro ⟨value, hvalue, -⟩
        exact ⟨rfl, item, rfl, value, hvalue⟩
      · rintro ⟨-, other, hother, value, hvalue⟩
        cases hother
        exact ⟨value, hvalue, rfl⟩
    | some m =>
      constructor
      · rintro ⟨value, -, hpanic⟩
        cases ((ih (some (setConfigValue m item.name value))).mp hpanic).1
      · rintro ⟨hnil, -⟩
        cases hnil

theorem panics_applyConfig (env : ConfigEnv) (a : App) (sequence : Int)
    (request : UpdateAppConfigRequest) (kinds : KotsKinds) :
    ((applyConfig env a sequence request kinds).run f).1 = .error .panic ↔
      ¬ CanMerge env kinds request.configGroups.flatten := by
  unfold applyConfig specValues CanMerge
  cases hvalues : kinds.configValues with
  | none => exact iff_of_true rfl fun ⟨_, h, _⟩ => nomatch h
  | some configValues =>
    show ((mergeConfigValues env kinds.encryptionKey request.configGroups.flatten
      configValues.values >>= _).run f).1 = .error .panic ↔ _
    rw [panics_bind, panics_mergeConfigValues]
    · constructor
      · rintro ⟨hnil, item, hitem, value, hvalue⟩ ⟨configValues', heq, hmerge⟩
        cases heq
        rcases hmerge with hsome | hlacks
        · rw [hnil] at hsome
          cases hsome
        · obtain ⟨e, he⟩ := submittedValue_eq_error.mpr (hlacks item hitem)
          rw [he] at hvalue
          cases hvalue
      · intro h
        have hnil : configValues.values = none := by
          by_contra hsome
          exact h ⟨configValues, rfl, .inl (Option.isSome_iff_ne_none.mpr hsome)⟩
        refine ⟨hnil, ?_⟩
        by_contra hnone
        refine h ⟨configValues, rfl, .inr fun item hitem => ?_⟩
        rw [← submittedValue_eq_error]
        cases hvalue : submittedValue env kinds.encryptionKey item with
        | error e => exact ⟨e, rfl⟩
        | ok value => exact absurd ⟨item, hitem, value, hvalue⟩ hnone
    · intro values
      refine noPanic_bind (noPanic_orRespond _ _) fun text => ?_
      refine noPanic_bind (noPanic_orRespond _ _) fun _ => ?_
      refine noPanic_bind (noPanic_orRespond _ _) fun settings => ?_
      refine noPanic_bind (noPanic_orRespond _ _) fun _ => ?_
      refine noPanic_bind (noPanic_storeConfig env a sequence _) fun newSequence => ?_
      refine noPanic_bind (noPanic_orRespond _ _) fun _ => ?_
      exact noPanic_bind (noPanic_orReturnErr _) fun _ => noPanic_orReturnErr _

end Panics

/-! ## Which saves are safe -/

section Saves

variable {env : ConfigEnv} {a : App} {sequence : Int} {decoded : DecodedRequest}
  {isPrimaryVersion : Bool} {s : Server}

/-- The first two steps, and what comes after them. -/
theorem panics_loads {k : KotsKinds → Body ConfigRun Unit} :
    ((orRespond "failed to get app version archive" (fun s =>
        (getAppVersionArchive env.downloadArchive s.archives a.id sequence, s)) >>= fun _ =>
      orRespond "failed to load kots kinds from path" (outcome env.loadKotsKinds) >>= k).run
        ⟨{ server := s }, none⟩).1 = .error .panic ↔
      ∃ kinds, Loads env a sequence s kinds ∧
        ((k kinds).run ⟨{ server := s }, none⟩).1 = .error .panic := by
  rw [panics_read]
  constructor
  · rintro ⟨unit, harchive, hpanic⟩
    obtain ⟨kinds, hkinds, hpanic⟩ := panics_outcome.mp hpanic
    exact ⟨kinds, ⟨⟨unit, harchive⟩, hkinds⟩, hpanic⟩
  · rintro ⟨kinds, ⟨⟨unit, harchive⟩, hkinds⟩, hpanic⟩
    exact ⟨unit, harchive, panics_outcome.mpr ⟨kinds, hkinds, hpanic⟩⟩

theorem saveResult_panic_iff :
    saveResult env a sequence decoded isPrimaryVersion s = .error .panic ↔
    ¬ Mergeable env a sequence decoded isPrimaryVersion s := by
  unfold saveResult runRequest updateDecodedConfig Mergeable
  cases hrequest : decoded.request? with
  | none =>
    show ((orRespond _ _ >>= fun _ => orRespond _ _ >>= fun _ => panic).run _).1 = _ ↔ _
    rw [panics_loads]
    constructor
    · rintro ⟨kinds, hloads, -⟩ h
      obtain ⟨request, heq, -⟩ := h kinds hloads
      cases heq
    · intro h
      by_contra hnone
      refine h fun kinds hloads => absurd ⟨kinds, hloads, rfl⟩ hnone
  | some request =>
    show ((updateAppConfig env a sequence request isPrimaryVersion).run _).1 = _ ↔ _
    unfold updateAppConfig
    rw [panics_loads]
    have hrest : ∀ kinds, (((if requiredItems request ≠ [] ∧ isPrimaryVersion then
        respond {
          requiredItems := (requiredItems request).map (·.name)
          error := "The following fields are required: " ++ ", ".intercalate
            ((requiredItems request).map fun item =>
              if item.title ≠ "" then item.title else item.name) }
      else applyConfig env a sequence request kinds : Body ConfigRun Unit).run
        ⟨{ server := s }, none⟩).1 = .error .panic ↔
        ¬ (Refuses request isPrimaryVersion ∨
          CanMerge env kinds request.configGroups.flatten)) := by
      intro kinds
      by_cases hrefuses : requiredItems request ≠ [] ∧ isPrimaryVersion = true
      · rw [if_pos hrefuses]
        exact iff_of_false nofun fun h => h (.inl hrefuses)
      · rw [if_neg hrefuses, panics_applyConfig, not_or]
        exact (and_iff_right hrefuses).symm
    constructor
    · rintro ⟨kinds, hloads, hpanic⟩ h
      obtain ⟨request', heq, hmerge⟩ := h kinds hloads
      cases heq
      exact (hrest kinds).mp hpanic hmerge
    · intro h
      by_contra hnone
      refine h fun kinds hloads => ⟨request, rfl, ?_⟩
      by_contra hmerge
      exact hnone ⟨kinds, hloads, (hrest kinds).mpr hmerge⟩

/-- Where there is a map to merge into, only an unusable key stops the merge. -/
theorem merges_of_canMerge {kinds : KotsKinds} {items : List ConfigItem}
    (h : CanMerge env kinds items) :
    (∃ item ∈ items, ∃ e, submittedValue env kinds.encryptionKey item = .error e) ∨
    ∃ configValues values', kinds.configValues = some configValues ∧
      mergedValues env kinds.encryptionKey items configValues.values = some values' := by
  obtain ⟨configValues, hvalues, hmap⟩ := h
  by_cases hlacks : ∃ item ∈ items, ∃ e, submittedValue env kinds.encryptionKey item = .error e
  · exact .inl hlacks
  have hall : ∀ item ∈ items, ∃ value,
      submittedValue env kinds.encryptionKey item = .ok value := by
    intro item hitem
    cases hvalue : submittedValue env kinds.encryptionKey item with
    | error e => exact absurd ⟨item, hitem, e, hvalue⟩ hlacks
    | ok value => exact ⟨value, rfl⟩
  right
  cases hm : configValues.values with
  | some m =>
    obtain ⟨m', hmerged⟩ := exists_mergedValues hall m
    exact ⟨configValues, some m', hvalues, by rw [hm, hmerged]⟩
  | none =>
    rw [hm] at hmap
    cases items with
    | nil => exact ⟨configValues, none, hvalues, by rw [hm]; rfl⟩
    | cons item items =>
      -- nothing can be put into a nil map
      obtain ⟨e, he⟩ := submittedValue_eq_error.mpr (hmap.resolve_left Bool.false_ne_true item rfl)
      exact absurd ⟨item, List.mem_cons_self, e, he⟩ hlacks

/-- **Nil values.**  A save is safe exactly when, once the archive is read, no group is nil and the
request is refused for its missing items, or there is a map to merge it into. -/
theorem savesSafely_iff (env : ConfigEnv) (a : App) (sequence : Int) (decoded : DecodedRequest)
    (isPrimaryVersion : Bool) (s : Server) :
    SavesSafely env a sequence decoded isPrimaryVersion s ↔
      Mergeable env a sequence decoded isPrimaryVersion s := by
  constructor
  · intro h
    by_contra hnot
    exact h.no_panic (saveResult_panic_iff.mpr hnot)
  · intro h
    refine ⟨fun hpanic => saveResult_panic_iff.mp hpanic h, ?_⟩
    intro kinds request hloads hrequest hrefuses
    obtain ⟨request', heq, hmerge⟩ := h kinds hloads
    cases hrequest.symm.trans heq
    exact .inr (merges_of_canMerge (hmerge.resolve_left hrefuses))

end Saves

/-! ## An archive without config values -/

def valuelessApp : App where
  id := "app"
  slug := "app"
  name := "App"
  isAirgap := false
  currentSequence := 0
  restoreInProgressName := ""

/-- A change of the host name; the archive of `mergeEnv` has no `ConfigValues`. -/
def hostChange : DecodedRequest where
  sequence := 0
  createNewVersion := true
  configGroups := [some [{ name := "host", value := .str "example.com" }]]

theorem not_savesSafely_hostChange :
    ¬ SavesSafely mergeEnv valuelessApp 0 hostChange true
      { archives := fun _ _ => some "archive" } := by
  intro h
  apply h.no_panic
  decide +kernel

end Kotsadm.Flows
