import Kotsadm.Snapshots.AzureConfig

/-!
# AzureRoundTrip — which credentials come back from the file

Nothing in a value is quoted.  A line with a second `=` is skipped by the parser, and so is every
line from the first one on that does not fit into the buffer of the scanner.
-/

namespace Kotsadm.Snapshots

open GoString

/-- No line break, and no white space at the ends. -/
def Plain (value : GoString) : Prop := 10 ∉ value ∧ trimSpace value = value

namespace Azure

variable {config : Azure}

/-- Each value comes back: it is empty, or there is no `=` in it and its line is scanned. -/
structure Survives (config : Azure) : Prop where
  subscriptionID : Kept (config.lines.take 1) config.subscriptionID
  tenantID : Kept (config.lines.take 2) config.tenantID
  clientID : Kept (config.lines.take 3) config.clientID
  clientSecret : Kept (config.lines.take 4) config.clientSecret
  resourceGroup : Kept (config.lines.take 5) config.resourceGroup
  cloudName : Kept config.lines config.cloudName

/-- A carriage return at the end of a line is the one at the end of the value. -/
theorem dropCR_line {key : String} {value : GoString} (h : dropCR value = value) :
    dropCR (line key value) = line key value := by
  unfold dropCR
  rw [if_neg]
  intro hlast
  unfold line at hlast
  rw [List.getLast?_append_of_ne_nil _ (List.cons_ne_nil _ _)] at hlast
  -- the last byte of the line is `=` or the last one of the value
  cases value with
  | nil => cases hlast
  | cons b value =>
    rw [List.getLast?_cons_cons] at hlast
    unfold dropCR at h
    rw [if_pos hlast] at h
    have hlength := congrArg List.length h
    rw [List.length_dropLast, List.length_cons] at hlength
    omega

theorem parse_render_of_plain (h : ∀ value ∈ config.values, Plain value) :
    parseAzureConfig (renderAzureConfig config) = {
      subscriptionID := readBack (config.lines.take 1) config.subscriptionID
      tenantID := readBack (config.lines.take 2) config.tenantID
      clientID := readBack (config.lines.take 3) config.clientID
      clientSecret := readBack (config.lines.take 4) config.clientSecret
      resourceGroup := readBack (config.lines.take 5) config.resourceGroup
      cloudName := readBack config.lines config.cloudName } := by
  apply parse_render_of_lines
  · exact not_mem_lines (by decide) fun value hvalue => (h value hvalue).1
  · refine forall_lines (Q := fun value => dropCR value = value) ?_ ?_
    · exact fun key _ value hvalue => dropCR_line hvalue
    · exact fun value hvalue => dropCR_of_trimmed (h value hvalue).2

end Azure

/-- **The credentials round trip**, where a value has no `=` and its line is scanned. -/
theorem parse_render_iff (config : Azure) (h : ∀ value ∈ config.values, Plain value) :
    parseAzureConfig (renderAzureConfig config) = config ↔ config.Survives := by
  rw [Azure.parse_render_of_plain h]
  cases config with
  | mk subscriptionID tenantID clientID clientSecret resourceGroup cloudName =>
    rw [Azure.mk.injEq, Azure.readBack_eq_iff, Azure.readBack_eq_iff, Azure.readBack_eq_iff,
      Azure.readBack_eq_iff, Azure.readBack_eq_iff, Azure.readBack_eq_iff]
    constructor
    · rintro ⟨h₁, h₂, h₃, h₄, h₅, h₆⟩
      exact ⟨h₁, h₂, h₃, h₄, h₅, h₆⟩
    · intro hkept
      exact ⟨hkept.subscriptionID, hkept.tenantID, hkept.clientID, hkept.clientSecret,
        hkept.resourceGroup, hkept.cloudName⟩

def secretConfig (clientSecret : String) : Azure where
  subscriptionID := ascii "0a1b"
  tenantID := ascii "2c3d"
  clientID := ascii "4e5f"
  clientSecret := ascii clientSecret
  resourceGroup := ascii "backups"
  cloudName := ascii "AzurePublicCloud"

theorem parse_render_secret :
    (∀ value ∈ (secretConfig "s3cr3t").values, Plain value) ∧
      parseAzureConfig (renderAzureConfig (secretConfig "s3cr3t")) = secretConfig "s3cr3t" := by
  have hplain : ∀ value ∈ (secretConfig "s3cr3t").values, Plain value := by
    unfold Plain
    decide
  refine ⟨hplain, (parse_render_iff _ hplain).mpr ?_⟩
  constructor <;> exact .inr (by decide)

/-- A secret in base64, with its padding. -/
theorem not_parse_render : ¬ ∀ config : Azure, (∀ value ∈ config.values, Plain value) →
    parseAzureConfig (renderAzureConfig config) = config := by
  intro h
  have hplain : ∀ value ∈ (secretConfig "c2VjcmV0IQ==").values, Plain value := by
    unfold Plain
    decide
  have hsame := h _ hplain
  revert hsame
  decide

end Kotsadm.Snapshots
