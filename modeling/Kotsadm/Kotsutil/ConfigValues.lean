import Kotsadm.Lib.Deferred
import Kotsadm.Lib.Dictionary
import Kotsadm.Lib.GoBase64

/-!
# ConfigValues — the config values of an archive, encrypted and decrypted

`EncryptConfigValues` encrypts the plaintexts, each of which must belong to an item of the type
`password`.  `DecryptConfigValues` does not know the types: it tries to decrypt every value.
-/

namespace Kotsadm.Kotsutil

open GoString
open NodeBuffer (base64Encode)

/-! ## Ciphers -/

/-- A `crypto.AESCipher`. -/
structure AESCipher where
  encrypt : GoString → GoString
  decrypt : GoString → Except GoError GoString

/-- What an AES cipher in Galois counter mode does. -/
structure AESCipher.Lawful (cipher : AESCipher) : Prop where
  decrypt_encrypt : ∀ text, cipher.decrypt (cipher.encrypt text) = .ok text
  /-- The tag is missing. -/
  decrypt_nil : ∃ e, cipher.decrypt [] = .error e

/-- `crypto.AESCipherFromString` -/
abbrev AESCipherFromString := String → Except GoError AESCipher

/-- `base64.StdEncoding.EncodeToString(cipher.Encrypt([]byte(text)))` -/
def AESCipher.encode (cipher : AESCipher) (text : GoString) : GoString :=
  ofChars (base64Encode (cipher.encrypt text))

/-- `cipher.Decrypt` of what `base64.StdEncoding.DecodeString` returns; `none` is an error of either
of them. -/
def AESCipher.decode (cipher : AESCipher) (text : GoString) : Option GoString := do
  let decoded ← decodeStd text
  (cipher.decrypt decoded).toOption

theorem AESCipher.Lawful.decode_encode {cipher : AESCipher} (h : cipher.Lawful) (text : GoString) :
    cipher.decode (cipher.encode text) = some text := by
  unfold decode encode
  rw [decodeStd_base64Encode]
  show (cipher.decrypt (cipher.encrypt text)).toOption = some text
  rw [h.decrypt_encrypt]
  rfl

theorem AESCipher.Lawful.decode_nil {cipher : AESCipher} (h : cipher.Lawful) :
    cipher.decode [] = none := by
  obtain ⟨e, he⟩ := h.decrypt_nil
  show (cipher.decrypt []).toOption = none
  rw [he]
  rfl

theorem AESCipher.Lawful.encode_ne_nil {cipher : AESCipher} (h : cipher.Lawful) (text : GoString) :
    cipher.encode text ≠ [] := by
  intro hnil
  have hdecode := h.decode_encode text
  rw [hnil, h.decode_nil] at hdecode
  cases hdecode

/-! ## EncryptConfigValues and DecryptConfigValues -/

/-- `kotsv1beta1.ConfigValue` -/
structure ConfigValue where
  default : GoString := []
  value : GoString := []
  valuePlaintext : GoString := []
  deriving DecidableEq, Repr

/-- What is read of a `kotsv1beta1.ConfigItem`. -/
structure ConfigItem where
  name : String
  type : String
  deriving DecidableEq, Repr

/-- What the two functions read and write of the `KotsKinds`: the groups of the `Config`, the
`Spec.Values` of the `ConfigValues`, which may be a nil map, and the key of the `Installation`. -/
structure KotsKinds where
  config : Option (List (List ConfigItem))
  configValues : Option (Option (Dictionary String ConfigValue))
  encryptionKey : String

/-- The type of the first item with the name. -/
def configItemType (groups : List (List ConfigItem)) (name : String) : String :=
  match groups.flatten.find? fun item => item.name = name with
  | some item => item.type
  | none => ""

/-- One entry of the loop of `EncryptConfigValues`. -/
def encryptValue (cipher : AESCipher) (groups : List (List ConfigItem)) (name : String)
    (configValue : ConfigValue) : Except GoError ConfigValue :=
  if configValue.valuePlaintext ≠ [] then
    let type := configItemType groups name
    if type = "" then
      .error { cause := s!"Cannot encrypt item {name.quote} because item type was not found" }
    else if type ≠ "password" then
      .error { cause :=
        s!"Cannot encrypt item {name.quote} because item type was {type.quote} (not password)" }
    else
      .ok { configValue with
        value := cipher.encode configValue.valuePlaintext
        valuePlaintext := [] }
  else .ok configValue

/-- One entry of the loop of `DecryptConfigValues`. -/
def decryptValue (cipher : AESCipher) (configValue : ConfigValue) : ConfigValue :=
  if configValue.value ≠ [] then
    match cipher.decode configValue.value with
    | none => configValue
    | some decrypted => { configValue with value := [], valuePlaintext := decrypted }
  else configValue

/-- The rows of a map, in the order in which a loop gets them; a nil map has none. -/
def rowsOf (values : Option (Dictionary String ConfigValue)) : Dictionary String ConfigValue :=
  values.getD Keyed.empty

/-- The result, and the `KotsKinds` after the call. -/
def encryptConfigValues (aesCipherFromString : AESCipherFromString) (k : KotsKinds) :
    Except GoError Unit × KotsKinds :=
  match k.configValues, k.config with
  | some values, some groups =>
    match (aesCipherFromString k.encryptionKey).wrapError
        "failed to create cipher from installation spec" with
    | .error e => (.error e, k)
    | .ok cipher =>
      match (rowsOf values).copy (encryptValue cipher groups) with
      | .error e => (.error e, k)
      | .ok updated => (.ok (), { k with configValues := some (some updated) })
  | _, _ => (.ok (), k)

def decryptConfigValues (aesCipherFromString : AESCipherFromString) (k : KotsKinds) :
    Except GoError Unit × KotsKinds :=
  match k.configValues with
  | none => (.ok (), k)
  | some values =>
    match (aesCipherFromString k.encryptionKey).wrapError
        "failed to create cipher from installation spec" with
    | .error e => (.error e, k)
    | .ok cipher =>
      match (rowsOf values).copy fun _ configValue => .ok (decryptValue cipher configValue) with
      | .error e => (.error e, k)
      | .ok updated => (.ok (), { k with configValues := some (some updated) })

/-! ## What becomes of an entry -/

def KotsKinds.value (k : KotsKinds) (name : String) : Option ConfigValue :=
  k.configValues.bind fun values => (rowsOf values).get name

section Entries

variable {aesCipherFromString : AESCipherFromString} {cipher : AESCipher} {k : KotsKinds}
  {groups : List (List ConfigItem)} {name : String} {v : ConfigValue}

theorem encryptValue_plaintext {w : ConfigValue} (hplain : v.valuePlaintext ≠ [])
    (h : encryptValue cipher groups name v = .ok w) :
    w = { v with value := cipher.encode v.valuePlaintext, valuePlaintext := [] } := by
  unfold encryptValue at h
  rw [if_pos hplain] at h
  dsimp only at h
  split at h
  next => cases h
  next =>
    split at h
    next => cases h
    next =>
      cases h
      rfl

theorem encryptValue_of_nil (hplain : v.valuePlaintext = []) :
    encryptValue cipher groups name v = .ok v := by
  unfold encryptValue
  rw [if_neg fun hne => hne hplain]

/-- An entry of a map after its plaintext was encrypted has none. -/
theorem valuePlaintext_encryptValue {w : ConfigValue}
    (h : encryptValue cipher groups name v = .ok w) : w.valuePlaintext = [] := by
  by_cases hplain : v.valuePlaintext = []
  · rw [encryptValue_of_nil hplain] at h
    cases h
    exact hplain
  · rw [encryptValue_plaintext hplain h]

theorem decryptValue_encode (hlawful : cipher.Lawful) {text : GoString}
    (hvalue : v.value = cipher.encode text) :
    decryptValue cipher v = { v with value := [], valuePlaintext := text } := by
  unfold decryptValue
  rw [hvalue, if_pos (hlawful.encode_ne_nil text), hlawful.decode_encode]

theorem decryptValue_of_none (h : cipher.decode v.value = none) : decryptValue cipher v = v := by
  unfold decryptValue
  rw [h]
  split <;> rfl

/-- What `EncryptConfigValues` does to the entries, if it succeeds. -/
theorem encryptConfigValues_ok (hkey : aesCipherFromString k.encryptionKey = .ok cipher)
    (hvalues : k.configValues.isSome) (hconfig : k.config = some groups) {k' : KotsKinds}
    (h : encryptConfigValues aesCipherFromString k = (.ok (), k')) :
    k'.encryptionKey = k.encryptionKey ∧ k'.configValues.isSome ∧ ∀ name,
      (k.value name = none → k'.value name = none) ∧
      ∀ v, k.value name = some v →
        ∃ w, encryptValue cipher groups name v = .ok w ∧ k'.value name = some w := by
  obtain ⟨values, hsome⟩ := Option.isSome_iff_exists.mp hvalues
  have hvalue : ∀ name, k.value name = (rowsOf values).get name := by
    intro name
    unfold KotsKinds.value
    rw [hsome]
    rfl
  unfold encryptConfigValues at h
  rw [hsome, hconfig, hkey] at h
  dsimp only [Except.wrapError] at h
  split at h
  next => cases h
  next updated hcopy =>
    cases h
    refine ⟨rfl, rfl, fun name => ?_⟩
    rw [hvalue]
    exact Dictionary.copy_eq_ok hcopy name

theorem decryptConfigValues_ok (hkey : aesCipherFromString k.encryptionKey = .ok cipher)
    (hvalues : k.configValues.isSome) :
    ∃ k', decryptConfigValues aesCipherFromString k = (.ok (), k') ∧
      ∀ name v, k.value name = some v → k'.value name = some (decryptValue cipher v) := by
  obtain ⟨values, hsome⟩ := Option.isSome_iff_exists.mp hvalues
  obtain ⟨updated, hcopy⟩ := Dictionary.exists_copy
    (f := fun (_ : String) v => (.ok (decryptValue cipher v) : Except GoError ConfigValue))
    (fun _ v => ⟨_, rfl⟩) (rowsOf values)
  have hvalue : ∀ name, k.value name = (rowsOf values).get name := by
    intro name
    unfold KotsKinds.value
    rw [hsome]
    rfl
  refine ⟨{ k with configValues := some (some updated) }, ?_, fun name v hv => ?_⟩
  · unfold decryptConfigValues
    rw [hsome, hkey]
    dsimp only [Except.wrapError]
    rw [hcopy]
  · rw [hvalue] at hv
    obtain ⟨w, hw, hget⟩ := (Dictionary.copy_eq_ok hcopy name).2 v hv
    cases hw
    exact hget

/-- An error leaves everything as it was. -/
theorem encryptConfigValues_error {e : GoError} {k' : KotsKinds}
    (h : encryptConfigValues aesCipherFromString k = (.error e, k')) : k' = k := by
  unfold encryptConfigValues at h
  split at h
  next =>
    split at h
    next =>
      cases h
      rfl
    next =>
      split at h
      next =>
        cases h
        rfl
      next => cases h
  next => cases h

end Entries

/-! ## Encryption and decryption -/

/-- No value has a plaintext, and what had one gets it back by a decryption. -/
structure Encrypted (aesCipherFromString : AESCipherFromString) (k k' : KotsKinds) : Prop where
  complete : ∀ name v, k'.value name = some v → v.valuePlaintext = []
  reversible : ∃ k'', decryptConfigValues aesCipherFromString k' = (.ok (), k'') ∧
    ∀ name v, k.value name = some v → v.valuePlaintext ≠ [] →
      ∃ v', k''.value name = some v' ∧ v'.valuePlaintext = v.valuePlaintext

/-- The entries without a plaintext that do not decrypt stay. -/
def KeepsOthers (cipher : AESCipher) (k k' : KotsKinds) : Prop :=
  ∀ name v, k.value name = some v → v.valuePlaintext = [] → cipher.decode v.value = none →
    k'.value name = some v

/-- **Encryption.**  If `EncryptConfigValues` succeeds then every plaintext is encrypted and can be
decrypted, if it fails then nothing is changed, and neither function changes another entry. -/
theorem encryptConfigValues_spec (aesCipherFromString : AESCipherFromString) (cipher : AESCipher)
    (k : KotsKinds) (hvalues : k.configValues.isSome) (hconfig : k.config.isSome)
    (hkey : aesCipherFromString k.encryptionKey = .ok cipher) (hlawful : cipher.Lawful) :
    ((encryptConfigValues aesCipherFromString k).1 = .ok () →
      Encrypted aesCipherFromString k (encryptConfigValues aesCipherFromString k).2) ∧
    (∀ e, (encryptConfigValues aesCipherFromString k).1 = .error e →
      (encryptConfigValues aesCipherFromString k).2 = k) ∧
    KeepsOthers cipher k (encryptConfigValues aesCipherFromString k).2 ∧
    KeepsOthers cipher k (decryptConfigValues aesCipherFromString k).2 := by
  obtain ⟨groups, hgroups⟩ := Option.isSome_iff_exists.mp hconfig
  refine ⟨?_, ?_, ?_, ?_⟩
  · intro hok
    obtain ⟨hkey', hvalues', hentries⟩ := encryptConfigValues_ok hkey hvalues hgroups
      (Prod.ext hok rfl)
    constructor
    case complete =>
      intro name v hv
      cases hold : k.value name with
      | none =>
        rw [(hentries name).1 hold] at hv
        cases hv
      | some old =>
        obtain ⟨w, hw, hnew⟩ := (hentries name).2 old hold
        rw [hnew, Option.some.injEq] at hv
        rw [← hv]
        exact valuePlaintext_encryptValue hw
    case reversible =>
      rw [← hkey'] at hkey
      obtain ⟨k'', hdecrypt, hdecrypted⟩ := decryptConfigValues_ok hkey hvalues'
      refine ⟨k'', hdecrypt, fun name v hv hplain => ?_⟩
      obtain ⟨w, hw, hnew⟩ := (hentries name).2 v hv
      refine ⟨_, hdecrypted name w hnew, ?_⟩
      have hencoded : w.value = cipher.encode v.valuePlaintext := by
        rw [encryptValue_plaintext hplain hw]
      rw [decryptValue_encode hlawful hencoded, encryptValue_plaintext hplain hw]
  · intro e he
    exact encryptConfigValues_error (Prod.ext he rfl)
  · intro name v hv hplain hdecode
    cases hresult : encryptConfigValues aesCipherFromString k with
    | mk result k' =>
      cases result with
      | error e =>
        rw [encryptConfigValues_error hresult]
        exact hv
      | ok _ =>
        obtain ⟨-, -, hentries⟩ := encryptConfigValues_ok hkey hvalues hgroups hresult
        obtain ⟨w, hw, hnew⟩ := (hentries name).2 v hv
        rw [encryptValue_of_nil hplain] at hw
        cases hw
        exact hnew
  · intro name v hv hplain hdecode
    obtain ⟨k', hdecrypt, hdecrypted⟩ := decryptConfigValues_ok hkey hvalues
    rw [hdecrypt]
    have hnew := hdecrypted name v hv
    rw [decryptValue_of_none hdecode] at hnew
    exact hnew

/-! ## A password -/

/-- The tag of a text, in front of it. -/
def tag : GoString := List.replicate 16 7

def taggedCipher : AESCipher where
  encrypt text := tag ++ text
  decrypt text :=
    if text.take 16 = tag then .ok (text.drop 16)
    else .error { cause := "cipher: message authentication failed" }

theorem lawful_taggedCipher : taggedCipher.Lawful where
  decrypt_encrypt text := by
    have htake : (tag ++ text).take 16 = tag := List.take_left' rfl
    have hdrop : (tag ++ text).drop 16 = text := List.drop_left' rfl
    unfold taggedCipher
    dsimp only
    rw [if_pos htake, hdrop]
  decrypt_nil := ⟨_, rfl⟩

/-- A password that is not encrypted, and a host name. -/
def passwordKinds : KotsKinds where
  config := some [[{ name := "host", type := "text" }, { name := "password", type := "password" }]]
  configValues := some (some ⟨[("password", { valuePlaintext := ascii "secret" }),
    ("host", { value := ascii "example.com" })], by decide⟩)
  encryptionKey := "key"

example : (encryptConfigValues (fun _ => .ok taggedCipher) passwordKinds).1 = .ok () := by decide

theorem encryptConfigValues_passwordKinds :
    ((encryptConfigValues (fun _ => .ok taggedCipher) passwordKinds).1 = .ok () →
      Encrypted (fun _ => .ok taggedCipher) passwordKinds
        (encryptConfigValues (fun _ => .ok taggedCipher) passwordKinds).2) ∧
    (∀ e, (encryptConfigValues (fun _ => .ok taggedCipher) passwordKinds).1 = .error e →
      (encryptConfigValues (fun _ => .ok taggedCipher) passwordKinds).2 = passwordKinds) ∧
    KeepsOthers taggedCipher passwordKinds
      (encryptConfigValues (fun _ => .ok taggedCipher) passwordKinds).2 ∧
    KeepsOthers taggedCipher passwordKinds
      (decryptConfigValues (fun _ => .ok taggedCipher) passwordKinds).2 :=
  encryptConfigValues_spec (fun _ => .ok taggedCipher) taggedCipher passwordKinds rfl rfl rfl
    lawful_taggedCipher

end Kotsadm.Kotsutil
