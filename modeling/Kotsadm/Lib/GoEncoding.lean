import Kotsadm.Lib.GoText
import Mathlib.Algebra.Group.Int.Defs
import Mathlib.Algebra.Group.Nat.Defs

/-!
# GoEncoding — numbers, runes and JSON strings as Go writes them

`strconv.Itoa` and `Atoi` are each other's inverse on the values of an `int`.  A `range` over a
string yields its runes, and the runes of a text that was put together from characters are these
characters.  `json.Marshal` of a string replaces some of its runes by escapes.
-/

namespace GoString

/-! ## strconv -/

def decimal (n : Nat) : GoString := (Nat.toDigits 10 n).map fun c => UInt8.ofNat c.toNat

/-- `strconv.Itoa`, where an `int` has 64 bits. -/
def itoa (n : Int64) : GoString :=
  if n.toInt < 0 then ascii "-" ++ decimal n.toInt.natAbs else decimal n.toInt.natAbs

/-- The `Err` of a `strconv.NumError`. -/
inductive NumErr
  | errSyntax
  | errRange
  deriving DecidableEq, Repr

/-- `strconv.ParseUint` in base 10, from the digits that were read so far. -/
def parseUint : (n : Nat) → GoString → Except NumErr Nat
  | n, [] => .ok n
  | n, b :: rest =>
    if 48 ≤ b ∧ b ≤ 57 then
      let n := 10 * n + (b.toNat - 48)
      if n < 2 ^ 64 then parseUint n rest else .error .errRange
    else .error .errSyntax

/-- The sign, and what follows it. -/
def cutSign : GoString → Bool × GoString
  | [] => (false, [])
  | b :: rest =>
    if b = 45 then (true, rest)
    else if b = 43 then (false, rest)
    else (false, b :: rest)

/-- `strconv.Atoi` -/
def atoi (s : GoString) : Except NumErr Int64 :=
  let (negative, digits) := cutSign s
  if digits = [] then .error .errSyntax
  else
    match parseUint 0 digits with
    | .error e => .error e
    | .ok n =>
      if negative then
        if n ≤ 2 ^ 63 then .ok (Int64.ofInt (-n)) else .error .errRange
      else if n < 2 ^ 63 then .ok (Int64.ofInt n) else .error .errRange

/-- A digit of a number, as the byte it is written with. -/
theorem toNat_digit {c : Char} (h : c.isDigit) :
    (UInt8.ofNat c.toNat).toNat = c.toNat ∧ 48 ≤ c.toNat ∧ c.toNat ≤ 57 := by
  have hbounds : 48 ≤ c.toNat ∧ c.toNat ≤ 57 := by
    simp only [Char.isDigit, Bool.and_eq_true, decide_eq_true_eq, UInt32.le_iff_toNat_le] at h
    exact h
  refine ⟨?_, hbounds⟩
  rw [UInt8.toNat_ofNat', Nat.mod_eq_of_lt]
  omega

theorem mem_decimal {n : Nat} {b : UInt8} (h : b ∈ decimal n) : 48 ≤ b.toNat ∧ b.toNat ≤ 57 := by
  obtain ⟨c, hc, rfl⟩ := List.mem_map.mp h
  have hdigit := toNat_digit (Nat.isDigit_of_mem_toDigits (by decide) (by decide) hc)
  rw [hdigit.1]
  exact hdigit.2

theorem decimal_ne_nil (n : Nat) : decimal n ≠ [] := by
  unfold decimal
  rw [ne_eq, List.map_eq_nil_iff]
  exact Nat.toDigits_ne_nil

/-- More digits never make the number smaller. -/
theorem le_ofDigitChars (cs : List Char) (n : Nat) : n ≤ Nat.ofDigitChars 10 cs n := by
  induction cs generalizing n with
  | nil => exact Nat.le_of_eq Nat.ofDigitChars_nil.symm
  | cons c cs ih =>
    rw [Nat.ofDigitChars_cons]
    have hrest := ih (10 * n + (c.toNat - '0'.toNat))
    omega

/-- Digits are read back when the number they end in fits. -/
theorem parseUint_digits {cs : List Char} (hdigits : ∀ c ∈ cs, c.isDigit) {n : Nat}
    (hfits : Nat.ofDigitChars 10 cs n < 2 ^ 64) :
    parseUint n (cs.map fun c => UInt8.ofNat c.toNat) = .ok (Nat.ofDigitChars 10 cs n) := by
  induction cs generalizing n with
  | nil => rw [List.map_nil, parseUint, Nat.ofDigitChars_nil]
  | cons c cs ih =>
    obtain ⟨hbyte, hlow, hhigh⟩ := toNat_digit (hdigits c List.mem_cons_self)
    have hrange : 48 ≤ UInt8.ofNat c.toNat ∧ UInt8.ofNat c.toNat ≤ 57 := by
      rw [UInt8.le_iff_toNat_le, UInt8.le_iff_toNat_le, hbyte]
      exact ⟨hlow, hhigh⟩
    rw [Nat.ofDigitChars_cons] at hfits ⊢
    -- the rest only makes the number larger, so it does not overflow here
    have hnext : 10 * n + (c.toNat - 48) < 2 ^ 64 :=
      Nat.lt_of_le_of_lt (le_ofDigitChars cs _) hfits
    rw [List.map_cons, parseUint, if_pos hrange]
    dsimp only
    rw [hbyte, if_pos hnext]
    exact ih (fun d hd => hdigits d (List.mem_cons_of_mem c hd)) hfits

theorem parseUint_decimal {n : Nat} (h : n < 2 ^ 64) : parseUint 0 (decimal n) = .ok n := by
  have hvalue : Nat.ofDigitChars 10 (Nat.toDigits 10 n) 0 = n := Nat.ofDigitChars_ten_toDigits
  have hdigits : ∀ c ∈ Nat.toDigits 10 n, c.isDigit := fun c hc =>
    Nat.isDigit_of_mem_toDigits (by decide) (by decide) hc
  have hparse := parseUint_digits hdigits (hvalue.symm ▸ h)
  rw [hvalue] at hparse
  exact hparse

/-- A number without a sign has none to cut off. -/
theorem cutSign_decimal (n : Nat) : cutSign (decimal n) = (false, decimal n) := by
  cases hdecimal : decimal n with
  | nil => rfl
  | cons b rest =>
    have hmem : b ∈ decimal n := hdecimal ▸ List.mem_cons_self
    have hb := mem_decimal hmem
    have hminus : b ≠ 45 := by
      rintro rfl
      exact absurd hb.1 (by decide)
    have hplus : b ≠ 43 := by
      rintro rfl
      exact absurd hb.1 (by decide)
    rw [cutSign, if_neg hminus, if_neg hplus]

theorem atoi_itoa (n : Int64) : atoi (itoa n) = .ok n := by
  have hlow := n.le_toInt
  have hhigh := n.toInt_lt
  have hparse : parseUint 0 (decimal n.toInt.natAbs) = .ok n.toInt.natAbs :=
    parseUint_decimal (by omega)
  unfold atoi itoa
  by_cases hneg : n.toInt < 0
  · rw [if_pos hneg]
    -- a negative number has its sign cut off
    have hcut : cutSign (ascii "-" ++ decimal n.toInt.natAbs) = (true, decimal n.toInt.natAbs) :=
      rfl
    have hback : -(n.toInt.natAbs : Int) = n.toInt := by omega
    rw [hcut]
    dsimp only
    rw [if_neg (decimal_ne_nil _), hparse]
    dsimp only
    rw [if_pos rfl, if_pos (by omega), hback, Int64.ofInt_toInt]
  · rw [if_neg hneg, cutSign_decimal]
    have hback : (n.toInt.natAbs : Int) = n.toInt := by omega
    dsimp only
    rw [if_neg (decimal_ne_nil _), hparse]
    dsimp only
    rw [if_neg Bool.false_ne_true, if_pos (by omega), hback, Int64.ofInt_toInt]

/-- A number is written with digits and a minus sign. -/
theorem not_mem_itoa {b : UInt8} (hminus : b ≠ 45) (hdigit : 57 < b.toNat) (n : Int64) :
    b ∉ itoa n := by
  have hdecimal : b ∉ decimal n.toInt.natAbs := by
    intro h
    have hb := mem_decimal h
    omega
  unfold itoa
  split
  · intro h
    rcases List.mem_append.mp h with h | h
    · exact hminus (List.mem_singleton.mp h)
    · exact hdecimal h
  · exact hdecimal

theorem length_itoa_pos (n : Int64) : 0 < (itoa n).length := by
  have hdecimal := List.length_pos_of_ne_nil (decimal_ne_nil n.toInt.natAbs)
  unfold itoa
  split
  · rw [List.length_append]
    omega
  · exact hdecimal

/-! ## strings.IndexByte -/

/-- `strings.IndexByte`, `none` for -1 -/
def indexByte (s : GoString) (b : UInt8) : Option Nat := s.idxOf? b

theorem indexByte_append {s rest : GoString} {b : UInt8} (h : b ∉ s) :
    indexByte (s ++ b :: rest) b = some s.length := by
  unfold indexByte
  induction s with
  | nil => simp [List.idxOf?_cons]
  | cons a s ih =>
    have hne : (a == b) = false := beq_false_of_ne fun hab => h (hab ▸ List.mem_cons_self)
    rw [List.cons_append, List.idxOf?_cons, hne, ih fun hmem => h (List.mem_cons_of_mem a hmem)]
    rfl

/-! ## Runes -/

/-- What a `range` over a string yields: a character, or U+FFFD for a byte that is not UTF-8. -/
inductive Rune
  | char (c : Char)
  | invalid (b : UInt8)
  deriving DecidableEq, Repr

def Rune.bytes : Rune → GoString
  | .char c => String.utf8EncodeChar c
  | .invalid b => [b]

/-- `utf8.DecodeRune` on a string that is not empty -/
def decodeRune (b : UInt8) (rest : GoString) : Rune :=
  match (b :: rest).toByteArray.utf8DecodeChar? 0 with
  | some c => .char c
  | none => .invalid b

/-- The runes of what is left when `skip` bytes were read with the rune before. -/
def runesFrom : (skip : Nat) → GoString → List Rune
  | _, [] => []
  | skip + 1, _ :: rest => runesFrom skip rest
  | 0, b :: rest =>
    let r := decodeRune b rest
    r :: runesFrom (r.bytes.length - 1) rest

def runes (s : GoString) : List Rune := runesFrom 0 s

/-- The text of `cs` -/
def ofChars (cs : List Char) : GoString := cs.flatMap String.utf8EncodeChar

theorem runesFrom_eq (skip : Nat) (s : GoString) : runesFrom skip s = runes (s.drop skip) := by
  induction s generalizing skip with
  | nil =>
    rw [List.drop_nil]
    cases skip <;> rfl
  | cons b rest ih =>
    cases skip with
    | zero => rfl
    | succ skip =>
      rw [runesFrom, ih skip]
      rfl

theorem runes_cons (b : UInt8) (rest : GoString) :
    runes (b :: rest) =
      decodeRune b rest :: runes (rest.drop ((decodeRune b rest).bytes.length - 1)) := by
  rw [← runesFrom_eq]
  rfl

/-- A string starts with the bytes of its first rune. -/
theorem decodeRune_bytes (b : UInt8) (rest : GoString) :
    (decodeRune b rest).bytes ++ rest.drop ((decodeRune b rest).bytes.length - 1) = b :: rest := by
  unfold decodeRune
  cases hdecode : (b :: rest).toByteArray.utf8DecodeChar? 0 with
  | none => rfl
  | some c =>
    -- the bytes of the character, and what follows them
    obtain ⟨l, hl⟩ := ByteArray.exists_of_utf8DecodeChar?_eq_some hdecode
    have hlist := congrArg (fun bytes : ByteArray => bytes.data.toList) hl
    simp only [ByteArray.data_append, Array.toList_append, List.data_toByteArray,
      List.toList_toArray] at hlist
    dsimp only [Rune.bytes]
    cases hchar : String.utf8EncodeChar c with
    | nil => exact absurd hchar String.utf8EncodeChar_ne_nil
    | cons a tail =>
      rw [hchar, List.cons_append] at hlist
      obtain ⟨rfl, rfl⟩ := List.cons.inj hlist
      rw [List.length_cons, Nat.add_sub_cancel, List.drop_left, List.cons_append]

/-- Together the runes of a string are the string. -/
theorem flatMap_bytes_runesFrom (skip : Nat) (s : GoString) :
    (runesFrom skip s).flatMap Rune.bytes = s.drop skip := by
  induction s generalizing skip with
  | nil =>
    rw [List.drop_nil]
    cases skip <;> rfl
  | cons b rest ih =>
    cases skip with
    | zero =>
      dsimp only [runesFrom]
      rw [List.flatMap_cons, ih, decodeRune_bytes, List.drop_zero]
    | succ skip =>
      rw [runesFrom, ih skip, List.drop_succ_cons]

theorem flatMap_bytes_runes (s : GoString) : (runes s).flatMap Rune.bytes = s :=
  flatMap_bytes_runesFrom 0 s

/-- Decoding a character that was encoded -/
theorem runes_char_append (c : Char) (s : GoString) :
    runes (String.utf8EncodeChar c ++ s) = .char c :: runes s := by
  cases hchar : String.utf8EncodeChar c with
  | nil => exact absurd hchar String.utf8EncodeChar_ne_nil
  | cons b tail =>
    have hdecode : decodeRune b (tail ++ s) = .char c := by
      unfold decodeRune
      rw [← List.cons_append, ← hchar, List.toByteArray_append,
        ByteArray.utf8DecodeChar?_utf8EncodeChar_append]
    have hlength : (Rune.char c).bytes.length - 1 = tail.length := by
      dsimp only [Rune.bytes]
      rw [hchar, List.length_cons, Nat.add_sub_cancel]
    rw [List.cons_append, runes_cons, hdecode, hlength, List.drop_left]

theorem runes_ofChars_append (cs : List Char) (s : GoString) :
    runes (ofChars cs ++ s) = cs.map .char ++ runes s := by
  induction cs with
  | nil => rfl
  | cons c cs ih =>
    unfold ofChars at ih ⊢
    rw [List.flatMap_cons, List.append_assoc, runes_char_append, ih]
    rfl

theorem runes_ofChars (cs : List Char) : runes (ofChars cs) = cs.map .char := by
  have h := runes_ofChars_append cs []
  rw [List.append_nil] at h
  rw [h]
  exact List.append_nil _

/-- The runes of a string say what it is. -/
theorem eq_ofChars_iff {s : GoString} {cs : List Char} :
    ofChars cs = s ↔ cs.map .char = runes s := by
  constructor
  · rintro rfl
    exact (runes_ofChars cs).symm
  · intro h
    rw [← flatMap_bytes_runes s, ← h, List.flatMap_map]
    rfl

/-! ## json.Marshal -/

def hexDigit (n : Nat) : Char := Nat.digitChar (n % 16)

/-- What is not written as it is: `htmlSafeSet` leaves out quotes, backslashes, control characters
and the three characters of HTML, and JavaScript has two more line ends. -/
def Escaped (c : Char) : Prop :=
  c.toNat < 32 ∨ c ∈ ['"', '\\', '<', '>', '&', '\u2028', '\u2029']

instance (c : Char) : Decidable (Escaped c) := inferInstanceAs (Decidable (_ ∨ _))

/-- The escape of an escaped character -/
def escape (c : Char) : List Char :=
  if c = '"' ∨ c = '\\' then ['\\', c]
  else if c = '\n' then ['\\', 'n']
  else if c = '\r' then ['\\', 'r']
  else if c = '\t' then ['\\', 't']
  else if c = '\u2028' ∨ c = '\u2029' then ['\\', 'u', '2', '0', '2', hexDigit c.toNat]
  else ['\\', 'u', '0', '0', hexDigit (c.toNat / 16), hexDigit c.toNat]

/-- One rune in the text that `encodeState.string` writes, with `escapeHTML` -/
def Rune.json : Rune → List Char
  | .char c => if Escaped c then escape c else [c]
  | .invalid _ => ['\\', 'u', 'f', 'f', 'f', 'd']

/-- The characters between the quotes -/
def jsonChars (s : GoString) : List Char := (runes s).flatMap Rune.json

/-- `json.Marshal` of a string -/
def marshal (s : GoString) : GoString := ofChars ('"' :: jsonChars s ++ ['"'])

/-- A character that is written as it is -/
def Rune.Plain : Rune → Prop
  | .char c => ¬ Escaped c
  | .invalid _ => False

instance (r : Rune) : Decidable r.Plain :=
  match r with
  | .char c => inferInstanceAs (Decidable (¬ Escaped c))
  | .invalid _ => inferInstanceAs (Decidable False)

/-- Text that `json.Marshal` only puts between quotes -/
def Plain (s : GoString) : Prop := ∀ r ∈ runes s, r.Plain

instance (s : GoString) : Decidable s.Plain :=
  inferInstanceAs (Decidable (∀ r ∈ runes s, r.Plain))

theorem Rune.Plain.json {r : Rune} (h : r.Plain) : r.json.map .char = [r] := by
  cases r with
  | invalid b => cases h
  | char c =>
    have hc : ¬ Escaped c := h
    dsimp only [Rune.json]
    rw [if_neg hc]
    rfl

theorem two_le_length_escape (c : Char) : 2 ≤ (escape c).length := by
  unfold escape
  repeat' split
  all_goals simp only [List.length_cons]; omega

/-- An escape has at least two characters. -/
theorem Rune.two_le_length_json {r : Rune} (h : ¬ r.Plain) : 2 ≤ r.json.length := by
  cases r with
  | invalid b => exact (by decide : 2 ≤ 6)
  | char c =>
    have hc : Escaped c := Classical.not_not.mp h
    dsimp only [Rune.json]
    rw [if_pos hc]
    exact two_le_length_escape c

theorem Rune.length_json_pos (r : Rune) : 1 ≤ r.json.length := by
  by_cases h : r.Plain
  · have hlength := congrArg List.length h.json
    rw [List.length_map, List.length_singleton] at hlength
    omega
  · have hlength := r.two_le_length_json h
    omega

/-- No escape is shorter than what it stands for. -/
theorem length_le_flatMap_json (rs : List Rune) : rs.length ≤ (rs.flatMap Rune.json).length := by
  induction rs with
  | nil => decide
  | cons r rs ih =>
    have hone := r.length_json_pos
    rw [List.flatMap_cons, List.length_cons, List.length_append]
    omega

/-- The characters are the runes again exactly when there is nothing to escape. -/
theorem flatMap_json_eq_iff (rs : List Rune) :
    (rs.flatMap Rune.json).map .char = rs ↔ ∀ r ∈ rs, r.Plain := by
  induction rs with
  | nil => simp
  | cons r rs ih =>
    rw [List.flatMap_cons, List.map_append, List.forall_mem_cons]
    by_cases hplain : r.Plain
    · rw [hplain.json, List.singleton_append, List.cons_inj_right, ih]
      exact (and_iff_right hplain).symm
    · constructor
      · intro heq
        -- the escape makes the left side longer
        have hlength := congrArg List.length heq
        have htwo := r.two_le_length_json hplain
        have hrest := length_le_flatMap_json rs
        rw [List.length_append, List.length_map, List.length_map, List.length_cons] at hlength
        omega
      · intro h
        exact absurd h.1 hplain

theorem ofChars_jsonChars_eq_iff (s : GoString) : ofChars (jsonChars s) = s ↔ s.Plain := by
  rw [eq_ofChars_iff]
  exact flatMap_json_eq_iff (runes s)

theorem hexDigit_ne_quote (n : Nat) : '"' ≠ hexDigit n :=
  (Nat.digitChar_ne '"' (by decide)).symm

theorem quote_mem_escape {c : Char} (h : '"' ∈ escape c) : c = '"' := by
  unfold escape at h
  split at h
  · simpa [eq_comm] using h
  · repeat' split at h
    all_goals simp [hexDigit_ne_quote] at h

/-- A quote is written for a quote only. -/
theorem Rune.quote_mem_json {r : Rune} (h : '"' ∈ r.json) : r = .char '"' := by
  cases r with
  | invalid b => simp [Rune.json] at h
  | char c =>
    dsimp only [Rune.json] at h
    split at h
    next => rw [quote_mem_escape h]
    next => rw [List.mem_singleton.mp h]

/-- Between the quotes of a text with a quote, the first one follows a backslash. -/
theorem jsonChars_quote {s : GoString} (h : .char '"' ∈ runes s) :
    ∃ before after, jsonChars s = before ++ '\\' :: '"' :: after ∧ '"' ∉ before := by
  -- no rune before the first quote brings one into the text
  obtain ⟨rs, rs', hruns, hfirst⟩ := List.eq_append_cons_of_mem h
  refine ⟨rs.flatMap Rune.json, rs'.flatMap Rune.json, ?_, ?_⟩
  · unfold jsonChars
    rw [hruns, List.flatMap_append, List.flatMap_cons]
    rfl
  · intro hquote
    obtain ⟨r, hr, hjson⟩ := List.mem_flatMap.mp hquote
    exact hfirst (Rune.quote_mem_json hjson ▸ hr)

theorem quote_not_mem_jsonChars {s : GoString} (h : .char '"' ∉ runes s) :
    '"' ∉ jsonChars s := by
  intro hquote
  obtain ⟨r, hr, hjson⟩ := List.mem_flatMap.mp hquote
  exact h (Rune.quote_mem_json hjson ▸ hr)

end GoString
