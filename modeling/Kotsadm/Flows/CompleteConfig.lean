import Kotsadm.Flows.ConfigMerge
import Kotsadm.Flows.ConfigStatus

/-!
# CompleteConfig — saves that leave required items without a value

`updateAppConfig` looks for required items without a value among the submitted items.  The version
has its own `Config`, whose templates are executed with the saved values; that is where
`NeedsConfiguration` looks.
-/

namespace Kotsadm.Flows

open Version Body

/-! ## Templates -/

/-- The package `config` of kots.  Of a saved value, which may be encrypted, it makes the value of
the item; the value of an item without one is that of the `Config`, where its templates are
executed. -/
structure Templating where
  templateConfig : TemplateConfig
  applied : String → String
  own : (configSpec configValuesSpec licenseSpec name : String) → String

section

variable (t : Templating) (configSpec configValuesSpec licenseSpec : String)

/-- The value of an item for the text that is saved of it, if any. -/
def Templating.valueOf (name : String) (saved : Option String) : String :=
  if saved.getD "" = "" then t.own configSpec configValuesSpec licenseSpec name
  else t.applied (saved.getD "")

/-- The text that a map has of an item. -/
def savedText (values : Option (String → Option ConfigValue)) (name : String) : Option String :=
  (entry values name).map (·.value)

/-- The values of the templated items are those of the saved document. -/
def Templating.Applies (marshal : ConfigValues → Except GoError String) : Prop :=
  ∀ configSpec licenseSpec values configValuesSpec groups,
    marshal { values } = .ok configValuesSpec →
    t.templateConfig configSpec configValuesSpec licenseSpec = .ok groups →
    ∀ item ∈ groups.flatten, item.value.text =
      t.valueOf configSpec configValuesSpec licenseSpec item.name (savedText values item.name)

/-! ## The condition -/

/-- The text that a request leaves of an item: the one submitted last, or the stored one. -/
def leftText (env : ConfigEnv) (encryptionKey : String) (items : List ConfigItem)
    (values : Option (String → Option ConfigValue)) (name : String) : Option String :=
  match lastSubmitted items name with
  | some item => (submittedValue env encryptionKey item).toOption
  | none => savedText values name

/-- Each required visible item of the version has a default, or a value of its own, or one that the
request submits last, or one that was stored and not submitted. -/
def Covered (env : ConfigEnv) (kinds : KotsKinds) (configValues : ConfigValues)
    (request : UpdateAppConfigRequest) : Prop :=
  configSpec ≠ "" → ∀ groups,
    t.templateConfig configSpec configValuesSpec licenseSpec = .ok groups →
    ∀ item ∈ groups.flatten, isRequiredItem item → item.default.text ≠ "" ∨
      t.valueOf configSpec configValuesSpec licenseSpec item.name (leftText env kinds.encryptionKey
        request.configGroups.flatten configValues.values item.name) ≠ ""

end

/-! ## Saved archives -/

section Saved

variable {env : ConfigEnv} {key : String} {items : List ConfigItem}
  {values values' : Option (String → Option ConfigValue)}

theorem savedText_mergedValues (h : mergedValues env key items values = some values')
    (name : String) : savedText values' name = leftText env key items values name := by
  have hentry := entry_mergedValues h name
  unfold leftText savedText
  cases hlast : lastSubmitted items name with
  | none =>
    rw [hlast] at hentry
    exact congrArg (Option.map _) hentry
  | some item =>
    rw [hlast] at hentry
    obtain ⟨value, hvalue, hmap⟩ := hentry
    dsimp only
    rw [hmap, hvalue]
    rfl

theorem not_needsConfiguration_iff (t : Templating) (htemplate : t.Applies env.marshalConfigValues)
    {kinds : KotsKinds} {configValues : ConfigValues} {request : UpdateAppConfigRequest}
    {configSpec text licenseSpec : String}
    (hmerged : mergedValues env kinds.encryptionKey request.configGroups.flatten
      configValues.values = some values')
    (htext : env.marshalConfigValues { values := values' } = .ok text) :
    needsConfiguration t.templateConfig configSpec text licenseSpec ≠ .ok true ↔
      Covered t configSpec text licenseSpec env kinds configValues request := by
  let columns : AppVersionColumns :=
    { configSpec, configValues := text, kotsLicense := licenseSpec }
  have hneeds : needsConfiguration t.templateConfig columns.configSpec columns.configValues
      columns.kotsLicense = .ok true ↔ IsIncomplete t.templateConfig columns :=
    needsConfiguration_iff
  rw [Ne, hneeds]
  unfold IsIncomplete Covered
  have hunset : ∀ groups, t.templateConfig configSpec text licenseSpec = .ok groups →
      ∀ item ∈ groups.flatten, isUnsetItem item = true ↔ ¬ (item.default.text ≠ "" ∨
        t.valueOf configSpec text licenseSpec item.name (leftText env kinds.encryptionKey
          request.configGroups.flatten configValues.values item.name) ≠ "") := by
    intro groups hgroups item hitem
    rw [← savedText_mergedValues hmerged,
      ← htemplate configSpec licenseSpec values' text groups htext hgroups item hitem]
    unfold isUnsetItem
    simp [and_comm]
  constructor
  · intro h hspec groups hgroups item hitem hrequired
    by_contra hnone
    exact h ⟨hspec, groups, hgroups, item, hitem, hrequired,
      (hunset groups hgroups item hitem).mpr hnone⟩
  · rintro h ⟨hspec, groups, hgroups, item, hitem, hrequired, hunsetItem⟩
    exact (hunset groups hgroups item hitem).mp hunsetItem
      (h hspec groups hgroups item hitem hrequired)

end Saved

/-- The config has one item, which is required; the document of the values is its text. -/
def hostTemplating : Templating where
  templateConfig := fun _ text _ =>
    .ok [[{ name := "hostname", required := true, value := .str text }]]
  applied := id
  own := fun _ _ _ _ => ""

def hostDocument (configValues : ConfigValues) : Except GoError String :=
  .ok ((savedText configValues.values "hostname").getD "")

theorem applies_hostTemplating : hostTemplating.Applies hostDocument := by
  intro configSpec licenseSpec values text groups hmarshal hgroups item hitem
  cases hmarshal
  cases hgroups
  rw [List.mem_singleton.mp hitem]
  unfold Templating.valueOf
  split
  next hnil => exact hnil
  next => rfl

def documentEnv : ConfigEnv := { hostnameEnv with marshalConfigValues := hostDocument }

/-- The server after the first run of the checks of the version. -/
def checkedServer : Server :=
  { hostnameServer with db := { hostnameServer.db with
    appDownstreamVersion := ⟨[{ appId := "app", clusterId := "cluster", sequence := 0,
                                parentSequence := 0, status := "pending" }], by decide⟩ } }

/-- A save of the first version in place. -/
def hostRequest (configGroups : List (List ConfigItem)) : UpdateAppConfigRequest where
  sequence := 0
  createNewVersion := false
  configGroups

def hostItem : ConfigItem :=
  { name := "hostname", required := true, value := .str "example.com" }

end Kotsadm.Flows
