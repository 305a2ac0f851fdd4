import Kotsadm.Lib.GoText

/-!
# AzureConfig — the credentials file of the Azure plugin

`RenderAzureConfig` writes one line for each field and does not escape anything; `ParseAzureConfig`
splits every line at `=` and trims the two parts.
-/

namespace Kotsadm.Snapshots

open GoString

structure Azure where
  subscriptionID : GoString := []
  tenantID : GoString := []
  clientID : GoString := []
  clientSecret : GoString := []
  resourceGroup : GoString := []
  cloudName : GoString := []
  deriving DecidableEq, Repr

namespace Azure

/-- `switch key` -/
def set (config : Azure) (key val : GoString) : Azure :=
  if key = ascii "AZURE_SUBSCRIPTION_ID" then { config with subscriptionID := val }
  else if key = ascii "AZURE_TENANT_ID" then { config with tenantID := val }
  else if key = ascii "AZURE_CLIENT_ID" then { config with clientID := val }
  else if key = ascii "AZURE_CLIENT_SECRET" then { config with clientSecret := val }
  else if key = ascii "AZURE_RESOURCE_GROUP" then { config with resourceGroup := val }
  else if key = ascii "AZURE_CLOUD_NAME" then { config with cloudName := val }
  else config

/-- One round of the loop: a line that does not have two parts is skipped. -/
def parseLine (config : Azure) (line : GoString) : Azure :=
  match line.splitOn 61 with
  | [key, val] => config.set (trimSpace key) (trimSpace val)
  | _ => config

end Azure

def parseAzureConfig (data : GoString) : Azure := (scanLines data).foldl Azure.parseLine {}

def renderAzureConfig (config : Azure) : GoString :=
  ascii "AZURE_SUBSCRIPTION_ID=" ++ config.subscriptionID ++ ascii "\n" ++
    (ascii "AZURE_TENANT_ID=" ++ config.tenantID ++ ascii "\n") ++
    (ascii "AZURE_CLIENT_ID=" ++ config.clientID ++ ascii "\n") ++
    (ascii "AZURE_CLIENT_SECRET=" ++ config.clientSecret ++ ascii "\n") ++
    (ascii "AZURE_RESOURCE_GROUP=" ++ config.resourceGroup ++ ascii "\n") ++
    (ascii "AZURE_CLOUD_NAME=" ++ config.cloudName ++ ascii "\n")

/-! ## What is read back -/

namespace Azure

variable {config : Azure}

def line (key : String) (value : GoString) : GoString := ascii key ++ 61 :: value

/-- The lines of the file. -/
def lines (config : Azure) : List GoString :=
  [line "AZURE_SUBSCRIPTION_ID" config.subscriptionID, line "AZURE_TENANT_ID" config.tenantID,
    line "AZURE_CLIENT_ID" config.clientID, line "AZURE_CLIENT_SECRET" config.clientSecret,
    line "AZURE_RESOURCE_GROUP" config.resourceGroup, line "AZURE_CLOUD_NAME" config.cloudName]

/-- `"%s=%s\n"` -/
theorem line_append {key : String} (keyed : String) (hkeyed : ascii keyed = ascii key ++ [61])
    (value : GoString) : line key value ++ [10] = ascii keyed ++ value ++ ascii "\n" := by
  have hnewline : ascii "\n" = [10] := by decide
  rw [hkeyed, hnewline, List.append_assoc (ascii key) [61], List.singleton_append]
  rfl

theorem render_eq_lines :
    renderAzureConfig config = config.lines.flatMap fun line => line ++ [10] := by
  unfold lines renderAzureConfig
  rw [List.flatMap_cons, List.flatMap_cons, List.flatMap_cons, List.flatMap_cons,
    List.flatMap_cons, List.flatMap_cons, List.flatMap_nil, List.append_nil,
    line_append "AZURE_SUBSCRIPTION_ID=" (by decide),
    line_append "AZURE_TENANT_ID=" (by decide),
    line_append "AZURE_CLIENT_ID=" (by decide),
    line_append "AZURE_CLIENT_SECRET=" (by decide),
    line_append "AZURE_RESOURCE_GROUP=" (by decide),
    line_append "AZURE_CLOUD_NAME=" (by decide)]
  simp only [List.append_assoc]

structure Printable (config : Azure) : Prop where
  subscriptionID : config.subscriptionID.Printable
  tenantID : config.tenantID.Printable
  clientID : config.clientID.Printable
  clientSecret : config.clientSecret.Printable
  resourceGroup : config.resourceGroup.Printable
  cloudName : config.cloudName.Printable

/-- The values, in the order of the lines. -/
def values (config : Azure) : List GoString :=
  [config.subscriptionID, config.tenantID, config.clientID, config.clientSecret,
    config.resourceGroup, config.cloudName]

theorem Printable.not_mem_values (h : config.Printable) {b : UInt8} (hb : b < 32) :
    ∀ value ∈ config.values, b ∉ value := by
  intro value hvalue
  simp only [values, List.mem_cons, List.not_mem_nil, or_false] at hvalue
  rcases hvalue with rfl | rfl | rfl | rfl | rfl | rfl
  · exact h.subscriptionID.not_mem hb
  · exact h.tenantID.not_mem hb
  · exact h.clientID.not_mem hb
  · exact h.clientSecret.not_mem hb
  · exact h.resourceGroup.not_mem hb
  · exact h.cloudName.not_mem hb

/-- What holds of the line of each value, of whatever field. -/
theorem forall_lines {P : GoString → Prop} {Q : GoString → Prop}
    (hline : ∀ key ∈ ["AZURE_SUBSCRIPTION_ID", "AZURE_TENANT_ID", "AZURE_CLIENT_ID",
      "AZURE_CLIENT_SECRET", "AZURE_RESOURCE_GROUP", "AZURE_CLOUD_NAME"],
      ∀ value, Q value → P (line key value))
    (hvalues : ∀ value ∈ config.values, Q value) : ∀ l ∈ config.lines, P l := by
  simp only [values, List.forall_mem_cons] at hvalues
  obtain ⟨h₁, h₂, h₃, h₄, h₅, h₆, -⟩ := hvalues
  simp only [lines, List.forall_mem_cons]
  exact ⟨hline _ (by decide) _ h₁, hline _ (by decide) _ h₂, hline _ (by decide) _ h₃,
    hline _ (by decide) _ h₄, hline _ (by decide) _ h₅, hline _ (by decide) _ h₆,
    fun _ h => by cases h⟩

theorem not_mem_line {key : String} {value : GoString} {b : UInt8} (hkey : b ∉ ascii key)
    (hb : b < 32) (hvalue : b ∉ value) : b ∉ line key value := by
  unfold line
  rw [List.mem_append, List.mem_cons]
  rintro (hmem | rfl | hmem)
  · exact hkey hmem
  · exact absurd hb (by decide)
  · exact hvalue hmem

theorem not_mem_lines {b : UInt8} (hb : b < 32) (h : ∀ value ∈ config.values, b ∉ value) :
    ∀ line ∈ config.lines, b ∉ line := by
  have hkey : ∀ key ∈ ["AZURE_SUBSCRIPTION_ID", "AZURE_TENANT_ID", "AZURE_CLIENT_ID",
      "AZURE_CLIENT_SECRET", "AZURE_RESOURCE_GROUP", "AZURE_CLOUD_NAME"],
      (ascii key).all fun c => 32 ≤ c := by decide
  refine forall_lines (fun key hmem value hvalue => not_mem_line ?_ hb hvalue) h
  intro hb'
  have hge := List.all_eq_true.mp (hkey key hmem) b hb'
  exact absurd hb (UInt8.not_lt.mpr (of_decide_eq_true hge))

/-- A line sets its field, unless there is a `=` in the value. -/
theorem parseLine_line {key : String} (hkey : 61 ∉ ascii key)
    (htrim : trimSpace (ascii key) = ascii key) (value : GoString) :
    config.parseLine (line key value) =
      if 61 ∈ value then config else config.set (ascii key) (trimSpace value) := by
  unfold parseLine line
  by_cases hvalue : 61 ∈ value
  · rw [if_pos hvalue]
    have hlength : 3 ≤ ((ascii key ++ 61 :: value).splitOn 61).length :=
      length_splitOn_field hvalue
    split
    next heq =>
      rw [heq] at hlength
      simp at hlength
    next => rfl
  · rw [if_neg hvalue, splitOn_field hkey hvalue]
    dsimp only
    rw [htrim]

/-- The line of a field writes it, unless the value has an equals sign. -/
theorem parseLine_field {key : String} (hkey : 61 ∉ ascii key)
    (htrim : trimSpace (ascii key) = ascii key) {field : Azure → GoString}
    {put : Azure → GoString → Azure} (hset : ∀ c v, c.set (ascii key) v = put c v)
    (hput : ∀ c, put c (field c) = c) (c : Azure) (v : GoString) :
    c.parseLine (line key v) = put c (if 61 ∈ v then field c else trimSpace v) := by
  rw [parseLine_line hkey htrim, hset]
  split
  next => exact (hput c).symm
  next => rfl

/-- The scanner gets past these lines. -/
def Fits (lines : List GoString) : Prop := ∀ line ∈ lines, line.length < maxScanTokenSize

instance (lines : List GoString) : Decidable (Fits lines) :=
  inferInstanceAs (Decidable (∀ line ∈ lines, line.length < maxScanTokenSize))

theorem fits_concat (lines : List GoString) (line : GoString) :
    Fits (lines ++ [line]) ↔ Fits lines ∧ line.length < maxScanTokenSize := by
  unfold Fits
  rw [List.forall_mem_append, List.forall_mem_singleton]

/-- What is read of a value whose line is the last one of `lines`. -/
def readBack (lines : List GoString) (value : GoString) : GoString :=
  if Fits lines ∧ 61 ∉ value then trimSpace value else []

/-- One more line: it is read if it fits, and ends the scan if not. -/
theorem foldl_takeWhile_cons (config : Azure) (line : GoString) (rest : List GoString) :
    (((line :: rest).takeWhile fun line => line.length < maxScanTokenSize).foldl parseLine config) =
      if line.length < maxScanTokenSize then
        ((rest.takeWhile fun line => line.length < maxScanTokenSize).foldl parseLine
          (config.parseLine line))
      else config := by
  by_cases hfits : line.length < maxScanTokenSize
  · rw [if_pos hfits, List.takeWhile_cons_of_pos (by simpa using hfits), List.foldl_cons]
  · rw [if_neg hfits, List.takeWhile_cons_of_neg (by simpa using hfits), List.foldl_nil]

theorem parse_render_of_lines (hnewline : ∀ line ∈ config.lines, 10 ∉ line)
    (hreturn : ∀ line ∈ config.lines, dropCR line = line) :
    parseAzureConfig (renderAzureConfig config) = {
      subscriptionID := readBack (config.lines.take 1) config.subscriptionID
      tenantID := readBack (config.lines.take 2) config.tenantID
      clientID := readBack (config.lines.take 3) config.clientID
      clientSecret := readBack (config.lines.take 4) config.clientSecret
      resourceGroup := readBack (config.lines.take 5) config.resourceGroup
      cloudName := readBack config.lines config.cloudName } := by
  have hsubscriptionID : ∀ (c : Azure) (v : GoString),
      c.parseLine (line "AZURE_SUBSCRIPTION_ID" v) =
      { c with subscriptionID := if 61 ∈ v then c.subscriptionID else trimSpace v } :=
    parseLine_field (by decide) (by decide) (fun _ _ => rfl) fun _ => rfl
  have htenantID : ∀ (c : Azure) (v : GoString), c.parseLine (line "AZURE_TENANT_ID" v) =
      { c with tenantID := if 61 ∈ v then c.tenantID else trimSpace v } :=
    parseLine_field (by decide) (by decide) (fun _ _ => rfl) fun _ => rfl
  have hclientID : ∀ (c : Azure) (v : GoString), c.parseLine (line "AZURE_CLIENT_ID" v) =
      { c with clientID := if 61 ∈ v then c.clientID else trimSpace v } :=
    parseLine_field (by decide) (by decide) (fun _ _ => rfl) fun _ => rfl
  have hclientSecret : ∀ (c : Azure) (v : GoString), c.parseLine (line "AZURE_CLIENT_SECRET" v) =
      { c with clientSecret := if 61 ∈ v then c.clientSecret else trimSpace v } :=
    parseLine_field (by decide) (by decide) (fun _ _ => rfl) fun _ => rfl
  have hresourceGroup : ∀ (c : Azure) (v : GoString), c.parseLine (line "AZURE_RESOURCE_GROUP" v) =
      { c with resourceGroup := if 61 ∈ v then c.resourceGroup else trimSpace v } :=
    parseLine_field (by decide) (by decide) (fun _ _ => rfl) fun _ => rfl
  have hcloudName : ∀ (c : Azure) (v : GoString), c.parseLine (line "AZURE_CLOUD_NAME" v) =
      { c with cloudName := if 61 ∈ v then c.cloudName else trimSpace v } :=
    parseLine_field (by decide) (by decide) (fun _ _ => rfl) fun _ => rfl
  unfold parseAzureConfig
  rw [render_eq_lines, scanLines_lines hnewline hreturn]
  have hfits₁ : Fits (config.lines.take 1) ↔
      (line "AZURE_SUBSCRIPTION_ID" config.subscriptionID).length < maxScanTokenSize := by
    simp [Fits, lines]
  have hfits₂ : Fits (config.lines.take 2) ↔ Fits (config.lines.take 1) ∧
      (line "AZURE_TENANT_ID" config.tenantID).length < maxScanTokenSize :=
    fits_concat (config.lines.take 1) _
  have hfits₃ : Fits (config.lines.take 3) ↔ Fits (config.lines.take 2) ∧
      (line "AZURE_CLIENT_ID" config.clientID).length < maxScanTokenSize :=
    fits_concat (config.lines.take 2) _
  have hfits₄ : Fits (config.lines.take 4) ↔ Fits (config.lines.take 3) ∧
      (line "AZURE_CLIENT_SECRET" config.clientSecret).length < maxScanTokenSize :=
    fits_concat (config.lines.take 3) _
  have hfits₅ : Fits (config.lines.take 5) ↔ Fits (config.lines.take 4) ∧
      (line "AZURE_RESOURCE_GROUP" config.resourceGroup).length < maxScanTokenSize :=
    fits_concat (config.lines.take 4) _
  have hfits₆ : Fits config.lines ↔ Fits (config.lines.take 5) ∧
      (line "AZURE_CLOUD_NAME" config.cloudName).length < maxScanTokenSize :=
    fits_concat (config.lines.take 5) _
  unfold readBack
  simp only [hfits₆, hfits₅, hfits₄, hfits₃, hfits₂, hfits₁]
  unfold lines
  simp only [foldl_takeWhile_cons, List.takeWhile_nil, List.foldl_nil, hsubscriptionID, htenantID,
    hclientID, hclientSecret, hresourceGroup, hcloudName]
  -- the first line that does not fit ends the scan
  by_cases h₁ : (line "AZURE_SUBSCRIPTION_ID" config.subscriptionID).length < maxScanTokenSize
  case neg => simp only [h₁, if_false, false_and]
  simp only [h₁, if_true, true_and]
  by_cases h₂ : (line "AZURE_TENANT_ID" config.tenantID).length < maxScanTokenSize
  case neg => simp only [h₂, if_false, false_and, ite_not]
  simp only [h₂, if_true, true_and]
  by_cases h₃ : (line "AZURE_CLIENT_ID" config.clientID).length < maxScanTokenSize
  case neg => simp only [h₃, if_false, false_and, ite_not]
  simp only [h₃, if_true, true_and]
  by_cases h₄ : (line "AZURE_CLIENT_SECRET" config.clientSecret).length < maxScanTokenSize
  case neg => simp only [h₄, if_false, false_and, ite_not]
  simp only [h₄, if_true, true_and]
  by_cases h₅ : (line "AZURE_RESOURCE_GROUP" config.resourceGroup).length < maxScanTokenSize
  case neg => simp only [h₅, if_false, false_and, ite_not]
  simp only [h₅, if_true, true_and]
  by_cases h₆ : (line "AZURE_CLOUD_NAME" config.cloudName).length < maxScanTokenSize
  case neg => simp only [h₆, if_false, false_and, ite_not]
  simp only [h₆, if_true, true_and]
  simp only [ite_not]

theorem parse_render (h : config.Printable) :
    parseAzureConfig (renderAzureConfig config) = {
      subscriptionID := readBack (config.lines.take 1) config.subscriptionID
      tenantID := readBack (config.lines.take 2) config.tenantID
      clientID := readBack (config.lines.take 3) config.clientID
      clientSecret := readBack (config.lines.take 4) config.clientSecret
      resourceGroup := readBack (config.lines.take 5) config.resourceGroup
      cloudName := readBack config.lines config.cloudName } := by
  have hreturn := not_mem_lines (by decide : (13 : UInt8) < 32) (h.not_mem_values (by decide))
  exact parse_render_of_lines (not_mem_lines (by decide) (h.not_mem_values (by decide)))
    fun line hline => dropCR_of_not_mem (hreturn line hline)

/-- A value that is read back as it was written. -/
def Kept (lines : List GoString) (value : GoString) : Prop :=
  value = [] ∨ (Fits lines ∧ 61 ∉ value ∧ trimSpace value = value)

theorem readBack_eq_iff {lines : List GoString} {value : GoString} :
    readBack lines value = value ↔ Kept lines value := by
  unfold readBack Kept
  split
  next hread =>
    constructor
    · intro htrim
      exact .inr ⟨hread.1, hread.2, htrim⟩
    · rintro (rfl | ⟨-, -, htrim⟩)
      · rfl
      · exact htrim
  next hlost =>
    constructor
    · intro hempty
      exact .inl hempty.symm
    · rintro (hempty | ⟨hfits, hvalue, -⟩)
      · exact hempty.symm
      · exact absurd ⟨hfits, hvalue⟩ hlost

end Azure

end Kotsadm.Snapshots
