import Kotsadm.Flows.ConfigSteps
import Kotsadm.Kotsutil.ConfigValues

/-!
# ConfigMerge — the stored values and the submitted ones

`updateAppConfig` writes the submitted values over the stored ones.  The text of a password is
encrypted unless it can be decrypted; the type of an item is not looked at when its value is a bool.
-/

namespace Kotsadm.Flows

open Version GoString
open Kotsutil (AESCipher AESCipherFromString)
open NodeBuffer (base64Encode)

/-! ## The cipher -/

def bytes (text : String) : GoString := ofChars text.toList

/-- `decrypt` of the handler; a cipher is always defined. -/
def decrypt (cipher : AESCipher) (input : String) : Except GoError GoString := do
  let decoded ← match decodeStd (bytes input) with
    | none => .error { contexts := ["failed to base64 decode"], cause := "illegal base64 data" }
    | some decoded => .ok decoded
  (cipher.decrypt decoded).wrapError "failed to decrypt"

/-- `base64.StdEncoding.EncodeToString(cipher.Encrypt([]byte(updatedValue)))` -/
def encrypt (cipher : AESCipher) (text : String) : String :=
  String.ofList (base64Encode (cipher.encrypt (bytes text)))

/-- The text of a decrypted string, of which the handler keeps nothing. -/
def decryptedText (decrypted : GoString) : String :=
  String.ofList ((runes decrypted).map fun
    | .char c => c
    | .invalid _ => '\uFFFD')

/-- What the merge asks of the package `crypto`. -/
def ciphered (env : ConfigEnv) (aesCipherFromString : AESCipherFromString) : ConfigEnv :=
  { env with
    cipher := fun key => (aesCipherFromString key).map fun _ => ()
    decrypt := fun key text => do
      let cipher ← aesCipherFromString key
      (decrypt cipher text).map decryptedText
    encrypt := fun key text =>
      match aesCipherFromString key with
      | .error _ => text
      | .ok cipher => encrypt cipher text }

theorem decrypt_encrypt {cipher : AESCipher} (h : cipher.Lawful) (text : String) :
    decrypt cipher (encrypt cipher text) = .ok (bytes text) := by
  unfold decrypt encrypt
  have hbytes : bytes (String.ofList (base64Encode (cipher.encrypt (bytes text)))) =
      ofChars (base64Encode (cipher.encrypt (bytes text))) := by
    unfold bytes
    rw [String.toList_ofList]
  rw [hbytes, decodeStd_base64Encode]
  show (cipher.decrypt (cipher.encrypt (bytes text))).wrapError _ = _
  rw [h.decrypt_encrypt]
  rfl

/-! ## The merge -/

section Merge

variable {env : ConfigEnv} {key name : String} {items : List ConfigItem}
  {values values' : Option (String → Option ConfigValue)}

/-- The entry of a map, which may be nil. -/
def entry (values : Option (String → Option ConfigValue)) (name : String) : Option ConfigValue :=
  values.bind fun values => values name

/-- The last submission of an item. -/
def lastSubmitted (items : List ConfigItem) (name : String) : Option ConfigItem :=
  items.reverse.find? fun item => item.name = name

theorem lastSubmitted_cons (item : ConfigItem) (items : List ConfigItem) (name : String) :
    lastSubmitted (item :: items) name =
      (lastSubmitted items name).or (if item.name = name then some item else none) := by
  unfold lastSubmitted
  rw [List.reverse_cons, List.find?_append, List.find?_singleton]
  by_cases h : item.name = name <;> simp [h]

theorem entry_setConfigValue (m : String → Option ConfigValue) (item name value : String) :
    entry (some (setConfigValue m item value)) name =
      if name = item then some { (m item).getD {} with value } else m name := by
  show setConfigValue m item value name = _
  unfold setConfigValue
  rw [Function.update_apply]

/-- What the merge leaves in the entry of an item. -/
theorem entry_mergedValues (h : mergedValues env key items values = some values') (name : String) :
    match lastSubmitted items name with
    | none => entry values' name = entry values name
    | some item => ∃ value, submittedValue env key item = .ok value ∧
        (entry values' name).map (·.value) = some value := by
  induction items generalizing values with
  | nil =>
    cases h
    rfl
  | cons item items ih =>
    unfold mergedValues at h
    split at h
    next value m hvalue =>
      have hrest := ih h
      rw [lastSubmitted_cons]
      cases hlast : lastSubmitted items name with
      | some later =>
        rw [hlast] at hrest
        exact hrest
      | none =>
        rw [hlast] at hrest
        rw [Option.none_or]
        dsimp only at hrest
        rw [entry_setConfigValue] at hrest
        by_cases hname : item.name = name
        · rw [if_pos hname]
          rw [if_pos hname.symm] at hrest
          refine ⟨value, hvalue, ?_⟩
          rw [hrest]
          rfl
        · rw [if_neg hname]
          rw [if_neg fun heq => hname heq.symm] at hrest
          exact hrest
    next => cases h

theorem submittedValue_of_merged (h : mergedValues env key items values = some values') :
    ∀ item ∈ items, ∃ value, submittedValue env key item = .ok value := by
  induction items generalizing values with
  | nil => exact nofun
  | cons item items ih =>
    unfold mergedValues at h
    split at h
    next value m hvalue =>
      intro other hother
      rcases List.mem_cons.mp hother with rfl | hother
      · exact ⟨value, hvalue⟩
      · exact ih h other hother
    next => cases h

/-- A merge into a map that is there succeeds when every value can be made. -/
theorem exists_mergedValues (h : ∀ item ∈ items, ∃ value, submittedValue env key item = .ok value)
    (m : String → Option ConfigValue) :
    ∃ m', mergedValues env key items (some m) = some (some m') := by
  induction items generalizing m with
  | nil => exact ⟨m, rfl⟩
  | cons item items ih =>
    obtain ⟨value, hvalue⟩ := h item List.mem_cons_self
    unfold mergedValues
    rw [hvalue]
    exact ih (fun other hother => h other (List.mem_cons_of_mem item hother)) _

theorem isSome_of_merged (h : mergedValues env key items values = some values')
    (hitems : items ≠ []) : ∃ m, values' = some m := by
  cases items with
  | nil => exact absurd rfl hitems
  | cons item items =>
    have hrest : ∀ (items : List ConfigItem) (m : String → Option ConfigValue),
        mergedValues env key items (some m) = some values' → ∃ m, values' = some m := by
      intro items
      induction items with
      | nil =>
        intro m h
        cases h
        exact ⟨m, rfl⟩
      | cons item items ih =>
        intro m h
        unfold mergedValues at h
        split at h
        next => exact ih _ h
        next => cases h
    unfold mergedValues at h
    split at h
    next => exact hrest items _ h
    next => cases h

end Merge

/-! ## The property -/

/-- What the stored value of an item is, decrypted if it can be. -/
def decryptedValue (cipher : AESCipher) (value : ConfigValue) : GoString :=
  match decrypt cipher value.value with
  | .ok text => text
  | .error _ => bytes value.value

/-- The merge writes what was submitted and nothing else, where the values of some items are
`secret`. -/
structure Merges (secret : ConfigItem → Prop) (cipher : AESCipher)
    (merge : Option (String → Option ConfigValue) → Option (Option (String → Option ConfigValue)))
    (items : List ConfigItem) (values values' : Option (String → Option ConfigValue)) : Prop where
  kept : ∀ name, lastSubmitted items name = none → entry values' name = entry values name
  submitted : ∀ name item, lastSubmitted items name = some item → ¬ secret item →
    ∃ value, entry values' name = some value ∧ value.value = item.value.text
  encrypted : ∀ name item, lastSubmitted items name = some item → secret item →
    ∃ value, entry values' name = some value ∧
      if (decrypt cipher item.value.text).isOk then value.value = item.value.text
      else decrypt cipher value.value = .ok (bytes item.value.text)
  again : ∃ values'', merge values' = some values'' ∧ ∀ name,
    (entry values'' name).map (decryptedValue cipher) =
      (entry values' name).map (decryptedValue cipher)

/-- A password; its value may be a bool. -/
def IsPassword (item : ConfigItem) : Prop := item.type = "password"

/-- A password whose value is a string. -/
def IsPasswordText (item : ConfigItem) : Prop :=
  item.type = "password" ∧ ∃ text, item.value = .str text

section Submitted

variable {env : ConfigEnv} {aesCipherFromString : AESCipherFromString} {cipher : AESCipher}
  {key : String} {item : ConfigItem} {value : String}

theorem submittedValue_ciphered_password (hkey : aesCipherFromString key = .ok cipher)
    {text : String} (htype : item.type = "password") (htext : item.value = .str text) :
    submittedValue (ciphered env aesCipherFromString) key item =
      .ok (if (decrypt cipher text).isOk then text else encrypt cipher text) := by
  have hcipher : (ciphered env aesCipherFromString).cipher key = .ok () := by
    show (aesCipherFromString key).map _ = _
    rw [hkey]
    rfl
  have hdecrypt : ((ciphered env aesCipherFromString).decrypt key text).isOk =
      (decrypt cipher text).isOk := by
    show (aesCipherFromString key >>= fun cipher =>
      (decrypt cipher text).map decryptedText).isOk = _
    rw [hkey]
    show ((decrypt cipher text).map decryptedText).isOk = _
    cases decrypt cipher text <;> rfl
  have hencrypt : (ciphered env aesCipherFromString).encrypt key text = encrypt cipher text := by
    show (match aesCipherFromString key with | .error _ => text | .ok cipher => encrypt cipher text)
      = _
    rw [hkey]
  unfold submittedValue
  rw [htext]
  dsimp only
  rw [if_pos htype, hcipher, hencrypt, ← hdecrypt]
  rfl

theorem submittedValue_ciphered_other (h : ¬ IsPasswordText item) :
    submittedValue (ciphered env aesCipherFromString) key item = .ok item.value.text := by
  unfold submittedValue
  split
  next b hvalue =>
    rw [hvalue]
    rfl
  next text hvalue =>
    rw [if_neg fun htype => h ⟨htype, text, hvalue⟩, hvalue]
    rfl

end Submitted

section Again

variable {env : ConfigEnv} {key : String} {items : List ConfigItem}
  {values values' : Option (String → Option ConfigValue)}

theorem stored_mergedValues (h : mergedValues env key items values = some values') {name : String}
    {item : ConfigItem} (hlast : lastSubmitted items name = some item) :
    ∃ value, submittedValue env key item = .ok value ∧
      ∃ stored, entry values' name = some stored ∧ stored.value = value := by
  have hentry := entry_mergedValues h name
  rw [hlast] at hentry
  obtain ⟨value, hvalue, hmap⟩ := hentry
  obtain ⟨stored, hsome, hsame⟩ := Option.map_eq_some_iff.mp hmap
  exact ⟨value, hvalue, stored, hsome, hsame⟩

/-- The same texts are submitted and stored again. -/
theorem mergedValues_again (h : mergedValues env key items values = some values') :
    ∃ values'', mergedValues env key items values' = some values'' ∧
      ∀ name, (entry values'' name).map ConfigValue.value =
        (entry values' name).map ConfigValue.value := by
  rcases List.eq_nil_or_concat items with rfl | ⟨init, last, hitems⟩
  · exact ⟨values', rfl, fun _ => rfl⟩
  · have hne : items ≠ [] := by
      rw [hitems, List.concat_eq_append]
      exact List.append_ne_nil_of_right_ne_nil init (List.cons_ne_nil last [])
    obtain ⟨m, rfl⟩ := isSome_of_merged h hne
    obtain ⟨m', hagain⟩ := exists_mergedValues (submittedValue_of_merged h) m
    refine ⟨some m', hagain, fun name => ?_⟩
    cases hlast : lastSubmitted items name with
    | none =>
      have hentry := entry_mergedValues hagain name
      rw [hlast] at hentry
      rw [hentry]
    | some item =>
      obtain ⟨value, hvalue, stored, hsome, hsame⟩ := stored_mergedValues h hlast
      obtain ⟨value', hvalue', stored', hsome', hsame'⟩ := stored_mergedValues hagain hlast
      cases hvalue.symm.trans hvalue'
      rw [hsome, hsome', Option.map_some, Option.map_some, hsame, hsame']

theorem map_decryptedValue (cipher : AESCipher) (value : Option ConfigValue) :
    value.map (decryptedValue cipher) =
      (value.map ConfigValue.value).map fun text => decryptedValue cipher { value := text } := by
  cases value <;> rfl

end Again

/-- **Merge.**  An item that was not submitted keeps its value, the last submission of an item is
what is stored of it, a password with a text is stored encrypted, and the same request again leaves
every item with the same decrypted value. -/
theorem mergedValues_ciphered (env : ConfigEnv) (aesCipherFromString : AESCipherFromString)
    (cipher : AESCipher) (key : String) (items : List ConfigItem)
    (values values' : Option (String → Option ConfigValue))
    (hkey : aesCipherFromString key = .ok cipher) (hlawful : cipher.Lawful)
    (h : mergedValues (ciphered env aesCipherFromString) key items values = some values') :
    Merges IsPasswordText cipher (mergedValues (ciphered env aesCipherFromString) key items) items
      values values' := by
  constructor
  case kept =>
    intro name hlast
    have hentry := entry_mergedValues h name
    rw [hlast] at hentry
    exact hentry
  case submitted =>
    intro name item hlast hother
    obtain ⟨value, hvalue, stored, hsome, hsame⟩ := stored_mergedValues h hlast
    rw [submittedValue_ciphered_other hother, Except.ok.injEq] at hvalue
    exact ⟨stored, hsome, hsame.trans hvalue.symm⟩
  case encrypted =>
    rintro name item hlast ⟨htype, text, htext⟩
    obtain ⟨value, hvalue, stored, hsome, hsame⟩ := stored_mergedValues h hlast
    rw [submittedValue_ciphered_password hkey htype htext, Except.ok.injEq] at hvalue
    refine ⟨stored, hsome, ?_⟩
    rw [hsame, ← hvalue, htext]
    show if (decrypt cipher text).isOk then _ else _
    by_cases hok : (decrypt cipher text).isOk = true
    · rw [if_pos hok, if_pos hok]
      rfl
    · rw [if_neg hok, if_neg hok]
      exact decrypt_encrypt hlawful text
  case again =>
    obtain ⟨values'', hagain, hsame⟩ := mergedValues_again h
    refine ⟨values'', hagain, fun name => ?_⟩
    rw [map_decryptedValue, map_decryptedValue, hsame name]

/-! ## Two submissions -/

open Kotsutil (taggedCipher lawful_taggedCipher)

def mergeEnv : ConfigEnv where
  loadKotsKinds := .ok {}
  version := { loadKotsKindsFromPath := fun _ => .ok {} }
  preflight := { loadKotsKinds := .ok {} }

/-- A host name that is submitted twice, and a password. -/
def submittedTexts : List ConfigItem :=
  [{ name := "host", value := .str "old.example.com" },
    { name := "password", type := "password", value := .str "secret" },
    { name := "host", value := .str "example.com" }]

theorem mergedValues_submittedTexts : ∃ values',
    mergedValues (ciphered mergeEnv fun _ => .ok taggedCipher) "key" submittedTexts
      (some fun _ => none) = some values' ∧
    Merges IsPasswordText taggedCipher
      (mergedValues (ciphered mergeEnv fun _ => .ok taggedCipher) "key" submittedTexts)
      submittedTexts (some fun _ => none) values' :=
  ⟨_, rfl, mergedValues_ciphered mergeEnv (fun _ => .ok taggedCipher) taggedCipher "key"
    submittedTexts (some fun _ => none) _ rfl lawful_taggedCipher rfl⟩

/-- A password whose value is a bool is stored as it is. -/
def submittedBool : List ConfigItem :=
  [{ name := "password", type := "password", value := .bool true }]

theorem not_merges_submittedBool : ∃ values',
    mergedValues (ciphered mergeEnv fun _ => .ok taggedCipher) "key" submittedBool
      (some fun _ => none) = some values' ∧
    ¬ Merges IsPassword taggedCipher
      (mergedValues (ciphered mergeEnv fun _ => .ok taggedCipher) "key" submittedBool)
      submittedBool (some fun _ => none) values' := by
  refine ⟨_, rfl, fun h => ?_⟩
  obtain ⟨value, hvalue, hdecrypt⟩ := h.encrypted "password" _ rfl rfl
  have hfails : decrypt taggedCipher "true" = .error
      { contexts := ["failed to decrypt"], cause := "cipher: message authentication failed" } := by
    decide
  cases hvalue
  change if (decrypt taggedCipher "true").isOk then _ else decrypt taggedCipher "true" = _
    at hdecrypt
  rw [hfails, if_neg (by decide)] at hdecrypt
  cases hdecrypt

end Kotsadm.Flows
