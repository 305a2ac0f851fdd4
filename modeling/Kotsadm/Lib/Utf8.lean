import Kotsadm.Lib.GoEncoding

/-!
# Utf8 — bytes read as text, with replacement characters

`decode` reads bytes as the WHATWG Encoding Standard says: what is no character is cut into maximal
subparts, and each of them becomes one U+FFFD.  A text comes back from its bytes.  Other bytes do
not come back, and neither do they when they are decoded piece by piece: no subpart is longer than
the replacement, so what is lost in one piece is not made up for in another one.
-/

namespace Utf8

open GoString (Rune decodeRune)

def encode (text : List Char) : List UInt8 := text.flatMap String.utf8EncodeChar

/-- The second byte after a first one of a character of three or four bytes. -/
def secondByte (first second : UInt8) : Bool :=
  (0xE0 ≤ first && first ≤ 0xF4) &&
    ((if first = 0xE0 then 0xA0 else if first = 0xF0 then 0x90 else 0x80) ≤ second &&
      second ≤ (if first = 0xED then 0x9F else if first = 0xF4 then 0x8F else 0xBF))

/-- The length of the maximal subpart at the front of bytes that do not begin with a character. -/
def subpart (first : UInt8) : List UInt8 → Nat
  | second :: third :: _ =>
    if secondByte first second then
      if 0xF0 ≤ first && (0x80 ≤ third && third ≤ 0xBF) then 3 else 2
    else 1
  | [second] => if secondByte first second then 2 else 1
  | [] => 1

/-- The characters of what is left when `skip` bytes were read with the character before. -/
def decodeFrom : (skip : Nat) → List UInt8 → List Char
  | _, [] => []
  | skip + 1, _ :: rest => decodeFrom skip rest
  | 0, b :: rest =>
    match decodeRune b rest with
    | .char c => c :: decodeFrom ((Rune.char c).bytes.length - 1) rest
    | .invalid _ => '\uFFFD' :: decodeFrom (subpart b rest - 1) rest

def decode (bytes : List UInt8) : List Char := decodeFrom 0 bytes

/-- The bytes of a text -/
def Valid (bytes : List UInt8) : Prop := encode (decode bytes) = bytes

instance (bytes : List UInt8) : Decidable (Valid bytes) :=
  inferInstanceAs (Decidable (_ = _))

-- a character that was cut off, and the rest of it
example : decode [0x61, 0xE2, 0x82] = ['a', '\uFFFD'] := by decide +kernel
example : decode [0xAC, 0x62] = ['\uFFFD', 'b'] := by decide +kernel
example : decode [0xF0, 0x9F, 0x98, 0xE0] = ['\uFFFD', '\uFFFD'] := by decide +kernel

theorem encode_append (s t : List Char) : encode (s ++ t) = encode s ++ encode t := by
  unfold encode
  exact List.flatMap_append

theorem decodeFrom_eq (skip : Nat) (bytes : List UInt8) :
    decodeFrom skip bytes = decode (bytes.drop skip) := by
  induction bytes generalizing skip with
  | nil =>
    rw [List.drop_nil]
    cases skip <;> rfl
  | cons b rest ih =>
    cases skip with
    | zero => rfl
    | succ skip =>
      rw [decodeFrom, ih skip]
      rfl

theorem decode_char {b : UInt8} {rest : List UInt8} {c : Char} (h : decodeRune b rest = .char c) :
    decode (b :: rest) = c :: decode (rest.drop ((Rune.char c).bytes.length - 1)) := by
  rw [← decodeFrom_eq]
  unfold decode
  rw [decodeFrom, h]

theorem decode_invalid {b b' : UInt8} {rest : List UInt8} (h : decodeRune b rest = .invalid b') :
    decode (b :: rest) = '\uFFFD' :: decode (rest.drop (subpart b rest - 1)) := by
  rw [← decodeFrom_eq]
  unfold decode
  rw [decodeFrom, h]

theorem decode_char_append (c : Char) (bytes : List UInt8) :
    decode (String.utf8EncodeChar c ++ bytes) = c :: decode bytes := by
  have hrunes := GoString.runes_char_append c bytes
  cases hchar : String.utf8EncodeChar c with
  | nil => exact absurd hchar String.utf8EncodeChar_ne_nil
  | cons b tail =>
    rw [hchar, List.cons_append, GoString.runes_cons] at hrunes
    have hlength : (Rune.char c).bytes.length - 1 = tail.length := by
      show (String.utf8EncodeChar c).length - 1 = tail.length
      rw [hchar, List.length_cons, Nat.add_sub_cancel]
    rw [List.cons_append, decode_char (List.cons.inj hrunes).1, hlength, List.drop_left]

/-- A text comes back. -/
theorem decode_encode (text : List Char) : decode (encode text) = text := by
  induction text with
  | nil => rfl
  | cons c text ih =>
    show decode (String.utf8EncodeChar c ++ encode text) = c :: text
    rw [decode_char_append, ih]

theorem valid_iff {bytes : List UInt8} : Valid bytes ↔ ∃ text, bytes = encode text := by
  constructor
  · intro h
    exact ⟨decode bytes, h.symm⟩
  · rintro ⟨text, rfl⟩
    unfold Valid
    rw [decode_encode]

theorem subpart_le (first : UInt8) (rest : List UInt8) : subpart first rest ≤ 3 := by
  unfold subpart
  split
  next => split <;> [split <;> omega; omega]
  next => split <;> omega
  next => omega

/-- No byte is lost without a replacement of at least its length. -/
theorem length_le_encode_decode (bytes : List UInt8) :
    bytes.length ≤ (encode (decode bytes)).length := by
  induction hn : bytes.length using Nat.strongRecOn generalizing bytes with
  | ind n ih =>
    subst hn
    match bytes with
    | [] => exact Nat.zero_le _
    | b :: rest =>
      have hdrop : ∀ k, (rest.drop k).length ≤ (encode (decode (rest.drop k))).length := by
        intro k
        refine ih _ ?_ _ rfl
        rw [List.length_drop, List.length_cons]
        omega
      cases hrune : decodeRune b rest with
      | char c =>
        rw [decode_char hrune]
        have hrest := hdrop ((Rune.char c).bytes.length - 1)
        have hpos := List.length_pos_iff.mpr (String.utf8EncodeChar_ne_nil (c := c))
        change 0 < (Rune.char c).bytes.length at hpos
        show (b :: rest).length ≤ ((Rune.char c).bytes ++ encode _).length
        rw [List.length_append, List.length_cons]
        rw [List.length_drop] at hrest
        omega
      | invalid b' =>
        rw [decode_invalid hrune]
        have hrest := hdrop (subpart b rest - 1)
        have hle := subpart_le b rest
        have hreplacement : (String.utf8EncodeChar '\uFFFD').length = 3 := by decide
        show (b :: rest).length ≤ (String.utf8EncodeChar '\uFFFD' ++ encode _).length
        rw [List.length_append, hreplacement, List.length_cons]
        rw [List.length_drop] at hrest
        omega

/-! ## Pieces -/

/-- The text of pieces that are decoded one by one. -/
def decodePieces (pieces : List (List UInt8)) : List Char := pieces.flatMap decode

theorem encode_decodePieces (pieces : List (List UInt8)) :
    encode (decodePieces pieces) = (pieces.map fun piece => encode (decode piece)).flatten := by
  induction pieces with
  | nil => rfl
  | cons piece pieces ih =>
    rw [List.map_cons, List.flatten_cons, ← ih, ← encode_append]
    rfl

theorem length_flatten_le (pieces : List (List UInt8)) :
    pieces.flatten.length ≤ (pieces.map fun piece => encode (decode piece)).flatten.length := by
  induction pieces with
  | nil => exact Nat.le_refl 0
  | cons piece pieces ih =>
    have hpiece := length_le_encode_decode piece
    rw [List.map_cons, List.flatten_cons, List.flatten_cons, List.length_append,
      List.length_append]
    omega

/-- **Bytes come back through the text of their pieces exactly if each of the pieces is text.** -/
theorem encode_decodePieces_iff {pieces : List (List UInt8)} :
    encode (decodePieces pieces) = pieces.flatten ↔ ∀ piece ∈ pieces, Valid piece := by
  rw [encode_decodePieces]
  constructor
  · intro h
    -- the lengths agree in total, and none is less than it was
    induction pieces with
    | nil => exact nofun
    | cons piece pieces ih =>
      rw [List.map_cons, List.flatten_cons, List.flatten_cons] at h
      have hpiece := length_le_encode_decode piece
      have hpieces := length_flatten_le pieces
      have hlength := congrArg List.length h
      rw [List.length_append, List.length_append] at hlength
      obtain ⟨hfirst, hothers⟩ := List.append_inj h (by omega)
      intro other hother
      rcases List.mem_cons.mp hother with rfl | hmem
      · exact hfirst
      · exact ih hothers other hmem
  · intro h
    congr 1
    conv_rhs => rw [← List.map_id pieces]
    exact List.map_congr_left h

end Utf8
