import Kotsadm.Lib.GoEncoding
import Kotsadm.Lib.NodeBuffer
import Kotsadm.Lib.Split

/-!
# GoBase64 — base64 as Go reads it

`base64.StdEncoding` wants the letters of one alphabet and all of the padding, and skips line ends.
A text that it reads is ASCII, and Node reads the same bytes.
-/

namespace GoString

open NodeBuffer
open Json (Ascii)

/-! ## base64.StdEncoding -/

/-- `decodeMap`; its alphabet has no `-` and no `_`. -/
def decodeMap (b : UInt8) : Option Nat :=
  if b = 45 ∨ b = 95 then none else sextet (Char.ofNat b.toNat)

/-- The bytes of the quanta, the last of which may be padded. -/
def decodeQuanta : GoString → Option GoString
  | [] => some []
  | a :: b :: c :: d :: rest => do
    let p ← decodeMap a
    let q ← decodeMap b
    if rest = [] ∧ d = 61 then
      if c = 61 then return join [p, q]
      else return join [p, q, ← decodeMap c]
    else
      -- a padding that does not end the text is no letter
      let r ← decodeMap c
      let s ← decodeMap d
      return join [p, q, r, s] ++ (← decodeQuanta rest)
  | _ => none

/-- `base64.StdEncoding.DecodeString` -/
def decodeStd (text : GoString) : Option GoString :=
  decodeQuanta (text.filter fun b => b ≠ 10 ∧ b ≠ 13)

example : decodeStd (ascii "aGVs\r\nbG8=\n") = some (ascii "hello") := by decide

/-! ## Texts and bytes that are ASCII -/

/-- Every byte is a character of its own. -/
def AsciiBytes (s : GoString) : Prop := ∀ b ∈ s, b.toNat < 128

theorem asciiBytes_cons {b : UInt8} {s : GoString} :
    AsciiBytes (b :: s) ↔ b.toNat < 128 ∧ AsciiBytes s :=
  List.forall_mem_cons

theorem toAscii_cons {b : UInt8} (h : b.toNat < 128) (s : GoString) :
    toAscii (b :: s) = Char.ofNat b.toNat :: toAscii s := by
  unfold toAscii
  rw [List.map_cons, Nat.mod_eq_of_lt h]

theorem ofChars_cons (c : Char) (cs : List Char) :
    ofChars (c :: cs) = String.utf8EncodeChar c ++ ofChars cs :=
  List.flatMap_cons

theorem utf8EncodeChar_ascii {c : Char} (h : c.toNat < 128) :
    String.utf8EncodeChar c = [UInt8.ofNat c.toNat] := by
  have hval : c.val.toNat ≤ 0x7f := by
    change c.toNat ≤ 0x7f
    omega
  unfold String.utf8EncodeChar
  exact if_pos hval

/-- No byte of another character is ASCII. -/
theorem utf8EncodeChar_wide {c : Char} (h : ¬ c.toNat < 128) :
    ∀ b ∈ String.utf8EncodeChar c, ¬ b.toNat < 128 := by
  have hval : ¬ c.val.toNat ≤ 0x7f := by
    change ¬ c.toNat ≤ 0x7f
    omega
  have hbyte : ∀ n m, 128 ≤ m → n + m < 256 → ¬ (UInt8.ofNat (n + m)).toNat < 128 := by
    intro n m hm hlt
    rw [UInt8.toNat_ofNat', Nat.mod_eq_of_lt (by omega)]
    omega
  unfold String.utf8EncodeChar
  dsimp only
  rw [if_neg hval]
  -- two, three or four bytes
  split
  next =>
    simp only [List.forall_mem_cons]
    exact ⟨hbyte _ 0xc0 (by decide) (by omega), hbyte _ 0x80 (by decide) (by omega), nofun⟩
  split
  next =>
    simp only [List.forall_mem_cons]
    exact ⟨hbyte _ 0xe0 (by decide) (by omega), hbyte _ 0x80 (by decide) (by omega),
      hbyte _ 0x80 (by decide) (by omega), nofun⟩
  next =>
    simp only [List.forall_mem_cons]
    exact ⟨hbyte _ 0xf0 (by decide) (by omega), hbyte _ 0x80 (by decide) (by omega),
      hbyte _ 0x80 (by decide) (by omega), hbyte _ 0x80 (by decide) (by omega), nofun⟩

theorem asciiBytes_ofChars_iff {cs : List Char} : AsciiBytes (ofChars cs) ↔ Ascii cs := by
  induction cs with
  | nil => exact iff_of_true nofun nofun
  | cons c cs ih =>
    rw [ofChars_cons, Json.ascii_cons, ← ih]
    by_cases hc : c.toNat < 128
    · rw [utf8EncodeChar_ascii hc, List.singleton_append, asciiBytes_cons, UInt8.toNat_ofNat',
        Nat.mod_eq_of_lt (by omega : c.toNat < 2 ^ 8)]
    · obtain ⟨b, hb⟩ := List.exists_mem_of_ne_nil _ (String.utf8EncodeChar_ne_nil (c := c))
      have hwide := utf8EncodeChar_wide hc b hb
      exact iff_of_false (fun h => hwide (h b (List.mem_append_left _ hb))) fun h => hc h.1

theorem toNat_ofNat : ∀ n < 128, (Char.ofNat n).toNat = n := by
  decide

/-- Bytes that are read as ASCII are the bytes of what is read exactly if they are ASCII. -/
theorem ofChars_toAscii_eq_iff {s : GoString} : ofChars (toAscii s) = s ↔ AsciiBytes s := by
  constructor
  · intro h
    rw [← h]
    exact asciiBytes_ofChars_iff.mpr (ascii_toAscii s)
  · intro h
    induction s with
    | nil => rfl
    | cons b s ih =>
      obtain ⟨hb, hs⟩ := asciiBytes_cons.mp h
      have hchar := toNat_ofNat b.toNat hb
      rw [toAscii_cons hb, ofChars_cons, ih hs, utf8EncodeChar_ascii (by omega), hchar,
        UInt8.ofNat_toNat]
      rfl

theorem ofChars_inj {s t : List Char} (h : ofChars s = ofChars t) : s = t := by
  have hrunes := congrArg runes h
  rw [runes_ofChars, runes_ofChars] at hrunes
  exact List.map_injective_iff.mpr (fun _ _ => Rune.char.inj) hrunes

/-- A byte of ASCII is in the encoding of its own character only. -/
theorem not_mem_utf8EncodeChar {a c : Char} (ha : a.toNat < 128) (hne : c ≠ a) :
    UInt8.ofNat a.toNat ∉ String.utf8EncodeChar c := by
  have hbyte : (UInt8.ofNat a.toNat).toNat = a.toNat := by
    rw [UInt8.toNat_ofNat', Nat.mod_eq_of_lt (by omega)]
  intro hmem
  by_cases hc : c.toNat < 128
  · rw [utf8EncodeChar_ascii hc, List.mem_singleton] at hmem
    have hsame := congrArg UInt8.toNat hmem
    rw [hbyte, UInt8.toNat_ofNat', Nat.mod_eq_of_lt (by omega)] at hsame
    exact hne (Char.toNat_inj.mp hsame.symm)
  · have hwide := utf8EncodeChar_wide hc _ hmem
    omega

/-- `strings.Split` of a text, at a character of ASCII -/
theorem splitOn_ofChars {a : Char} (ha : a.toNat < 128) (cs : List Char) :
    (ofChars cs).splitOn (UInt8.ofNat a.toNat) = (cs.splitOn a).map ofChars :=
  Split.splitOn_flatMap (utf8EncodeChar_ascii ha) fun _ _ => not_mem_utf8EncodeChar ha

/-- A byte of ASCII is a rune. -/
theorem of_decodeRune_invalid {b c : UInt8} {rest : GoString}
    (h : decodeRune b rest = .invalid c) : 128 ≤ c.toNat := by
  have hbc : b = c := by
    unfold decodeRune at h
    split at h
    next => cases h
    next => exact Rune.invalid.inj h
  subst hbc
  by_contra hlt
  have hchar := toNat_ofNat b.toNat (by omega)
  have hencode : String.utf8EncodeChar (Char.ofNat b.toNat) = [b] := by
    rw [utf8EncodeChar_ascii (by omega), hchar, UInt8.ofNat_toNat]
  have hruns := runes_char_append (Char.ofNat b.toNat) rest
  rw [hencode, List.singleton_append, runes_cons, h] at hruns
  cases hruns

theorem of_invalid_mem_runesFrom {b : UInt8} {skip : Nat} {s : GoString}
    (h : .invalid b ∈ runesFrom skip s) : 128 ≤ b.toNat := by
  induction s generalizing skip with
  | nil =>
    cases skip <;> cases h
  | cons a rest ih =>
    cases skip with
    | succ skip => exact ih h
    | zero =>
      rcases List.mem_cons.mp h with heq | htail
      · exact of_decodeRune_invalid heq.symm
      · exact ih htail

theorem not_mem_bytes {a : Char} (ha : a.toNat < 128) {s : GoString} {r : Rune}
    (hr : r ∈ runes s) (hne : r ≠ .char a) : UInt8.ofNat a.toNat ∉ r.bytes := by
  cases r with
  | char c => exact not_mem_utf8EncodeChar ha fun hca => hne (hca ▸ rfl)
  | invalid b =>
    have hb := of_invalid_mem_runesFrom hr
    intro hmem
    rw [← List.mem_singleton.mp hmem, UInt8.toNat_ofNat', Nat.mod_eq_of_lt (by omega)] at hb
    omega

/-- `strings.Split` of any string, at a character of ASCII -/
theorem splitOn_runes {a : Char} (ha : a.toNat < 128) (s : GoString) :
    s.splitOn (UInt8.ofNat a.toNat) =
      ((runes s).splitOn (.char a)).map (List.flatMap Rune.bytes) := by
  have hsplit : ((runes s).flatMap Rune.bytes).splitOn (UInt8.ofNat a.toNat) =
      ((runes s).splitOn (.char a)).map (List.flatMap Rune.bytes) :=
    Split.splitOn_flatMap (utf8EncodeChar_ascii ha) fun r hr => not_mem_bytes ha hr
  rw [flatMap_bytes_runes] at hsplit
  exact hsplit

theorem toAscii_ofChars {cs : List Char} (h : Ascii cs) : toAscii (ofChars cs) = cs :=
  reread_ascii h

/-! ## What both read -/

/-- A letter of Go is one of Node. -/
theorem sextet_of_decodeMap {b : UInt8} {n : Nat} (h : decodeMap b = some n) :
    b.toNat < 128 ∧ sextet (Char.ofNat b.toNat) = some n ∧ Char.ofNat b.toNat ≠ '=' := by
  have hall : ∀ k < 256, (sextet (Char.ofNat k)).isSome → k < 128 ∧ Char.ofNat k ≠ '=' := by
    decide +kernel
  unfold decodeMap at h
  split at h
  next => cases h
  next =>
    obtain ⟨hlt, hpadding⟩ := hall b.toNat b.toNat_lt (by rw [h]; rfl)
    exact ⟨hlt, h, hpadding⟩

/-- The six bits of what Node reads. -/
def sextets (s : GoString) : List Nat :=
  ((toAscii s).takeWhile (· ≠ '=')).filterMap sextet

theorem sextets_cons {b : UInt8} {n : Nat} (h : decodeMap b = some n) (s : GoString) :
    sextets (b :: s) = n :: sextets s := by
  obtain ⟨hb, hsextet, hpadding⟩ := sextet_of_decodeMap h
  unfold sextets
  rw [toAscii_cons hb, List.takeWhile_cons_of_pos (by simp [hpadding]),
    List.filterMap_cons_some hsextet]

theorem sextets_padding (s : GoString) : sextets (61 :: s) = [] := by
  unfold sextets
  rw [toAscii_cons (by decide)]
  rfl

theorem decodeQuanta_eq_some {s bytes : GoString} (h : decodeQuanta s = some bytes) :
    AsciiBytes s ∧ join (sextets s) = bytes := by
  induction s using decodeQuanta.induct generalizing bytes with
  | case1 =>
    cases h
    exact ⟨nofun, rfl⟩
  | case2 a b c d rest ih =>
    rw [decodeQuanta] at h
    obtain ⟨p, hp, hrest⟩ := Option.bind_eq_some_iff.mp h
    obtain ⟨q, hq, hlast⟩ := Option.bind_eq_some_iff.mp hrest
    have ha := (sextet_of_decodeMap hp).1
    have hb := (sextet_of_decodeMap hq).1
    clear h hrest
    simp only [asciiBytes_cons]
    rw [sextets_cons hp, sextets_cons hq]
    by_cases hend : rest = [] ∧ d = 61
    · rw [if_pos hend] at hlast
      obtain ⟨rfl, rfl⟩ := hend
      by_cases hc : c = 61
      · rw [if_pos hc] at hlast
        cases hlast
        rw [hc, sextets_padding]
        exact ⟨⟨ha, hb, by decide, by decide, nofun⟩, rfl⟩
      · rw [if_neg hc] at hlast
        obtain ⟨r, hr, hbytes⟩ := Option.bind_eq_some_iff.mp hlast
        cases hbytes
        rw [sextets_cons hr, sextets_padding]
        exact ⟨⟨ha, hb, (sextet_of_decodeMap hr).1, by decide, nofun⟩, rfl⟩
    · rw [if_neg hend] at hlast
      obtain ⟨r, hr, hthird⟩ := Option.bind_eq_some_iff.mp hlast
      obtain ⟨s, hs, hquanta⟩ := Option.bind_eq_some_iff.mp hthird
      obtain ⟨more, hmore, hbytes⟩ := Option.bind_eq_some_iff.mp hquanta
      cases hbytes
      obtain ⟨hascii, hjoin⟩ := ih hmore
      rw [sextets_cons hr, sextets_cons hs, ← hjoin]
      exact ⟨⟨ha, hb, (sextet_of_decodeMap hr).1, (sextet_of_decodeMap hs).1, hascii⟩, rfl⟩
  | case3 s hnil hfour =>
    rw [decodeQuanta.eq_def] at h
    split at h
    next => exact absurd rfl hnil
    next => exact absurd rfl (hfour _ _ _ _ _)
    next => cases h

/-- Node skips the line ends that Go skips. -/
theorem sextets_filter (s : GoString) :
    (AsciiBytes (s.filter fun b => b ≠ 10 ∧ b ≠ 13) → AsciiBytes s) ∧
      sextets (s.filter fun b => b ≠ 10 ∧ b ≠ 13) = sextets s := by
  induction s with
  | nil => exact ⟨id, rfl⟩
  | cons b s ih =>
    by_cases hend : b ≠ 10 ∧ b ≠ 13
    · rw [List.filter_cons_of_pos (by simpa using hend)]
      constructor
      · intro h
        obtain ⟨hb, hs⟩ := asciiBytes_cons.mp h
        exact asciiBytes_cons.mpr ⟨hb, ih.1 hs⟩
      · unfold sextets toAscii at ih ⊢
        rw [List.map_cons, List.map_cons]
        by_cases hpadding : Char.ofNat (b.toNat % 128) = '='
        · rw [hpadding, List.takeWhile_cons_of_neg (by simp),
            List.takeWhile_cons_of_neg (by simp)]
        · rw [List.takeWhile_cons_of_pos (by simp [hpadding]),
            List.takeWhile_cons_of_pos (by simp [hpadding]), List.filterMap_cons,
            List.filterMap_cons, ih.2]
    · rw [List.filter_cons_of_neg (by simpa using hend)]
      have hb : b = 10 ∨ b = 13 := by
        by_contra hne
        exact hend (not_or.mp hne)
      have hlt : b.toNat < 128 := by
        rcases hb with rfl | rfl <;> decide
      refine ⟨fun h => asciiBytes_cons.mpr ⟨hlt, ih.1 h⟩, ?_⟩
      rw [ih.2]
      unfold sextets
      rw [toAscii_cons hlt]
      rcases hb with rfl | rfl
      · rw [List.takeWhile_cons_of_pos (by decide), List.filterMap_cons_none (by decide)]
      · rw [List.takeWhile_cons_of_pos (by decide), List.filterMap_cons_none (by decide)]

/-- What Go reads is ASCII. -/
theorem asciiBytes_of_decodeStd {text bytes : GoString} (h : decodeStd text = some bytes) :
    AsciiBytes text :=
  (sextets_filter text).1 (decodeQuanta_eq_some h).1

/-- **What Go reads, Node reads too.** -/
theorem base64Decode_of_decodeStd {cs : List Char} {bytes : GoString}
    (h : decodeStd (ofChars cs) = some bytes) : base64Decode cs = bytes := by
  have hascii := asciiBytes_ofChars_iff.mp (asciiBytes_of_decodeStd h)
  rw [← toAscii_ofChars hascii]
  show join (sextets (ofChars cs)) = bytes
  rw [← (sextets_filter (ofChars cs)).2]
  exact (decodeQuanta_eq_some h).2

/-! ## What Node writes -/

/-- The byte of a letter. -/
def letter (n : Nat) : UInt8 := UInt8.ofNat (digit n).toNat

theorem letter_spec : ∀ n < 64, (digit n).toNat < 128 ∧ decodeMap (letter n) = some n ∧
    letter n ≠ 10 ∧ letter n ≠ 13 ∧ letter n ≠ 61 := by
  decide +kernel

theorem ofChars_digit {n : Nat} (h : n < 64) (cs : List Char) :
    ofChars (digit n :: cs) = letter n :: ofChars cs := by
  rw [ofChars_cons, utf8EncodeChar_ascii (letter_spec n h).1]
  rfl

theorem ofChars_padding (cs : List Char) : ofChars ('=' :: cs) = 61 :: ofChars cs := by
  rw [ofChars_cons, utf8EncodeChar_ascii (by decide)]
  rfl

/-- A quantum of four letters. -/
theorem decodeQuanta_letters {p q r s : Nat} (hp : p < 64) (hq : q < 64) (hr : r < 64)
    (hs : s < 64) (rest : GoString) :
    decodeQuanta (letter p :: letter q :: letter r :: letter s :: rest) =
      (decodeQuanta rest).map fun bytes => join [p, q, r, s] ++ bytes := by
  obtain ⟨-, hdecode, -, -, hpadding⟩ := letter_spec s hs
  rw [decodeQuanta, (letter_spec p hp).2.1, (letter_spec q hq).2.1, (letter_spec r hr).2.1, hdecode]
  simp only [Option.bind_eq_bind, Option.bind_some]
  rw [if_neg fun h => hpadding h.2]
  cases decodeQuanta rest <;> rfl

theorem decodeQuanta_base64Encode (bytes : GoString) :
    decodeQuanta (ofChars (base64Encode bytes)) = some bytes ∧
      ∀ b ∈ ofChars (base64Encode bytes), b ≠ 10 ∧ b ≠ 13 := by
  have hend : ∀ n < 64, letter n ≠ 10 ∧ letter n ≠ 13 := fun n hn =>
    ⟨(letter_spec n hn).2.2.1, (letter_spec n hn).2.2.2.1⟩
  induction bytes using base64Encode.induct with
  | case1 a b c bytes ih =>
    have ha := a.toNat_lt
    have hb := b.toNat_lt
    have hc := c.toNat_lt
    rw [base64Encode, List.cons_append, List.cons_append, List.cons_append, List.cons_append,
      List.nil_append, ofChars_digit (by omega), ofChars_digit (by omega),
      ofChars_digit (by omega), ofChars_digit (by omega)]
    constructor
    · rw [decodeQuanta_letters (by omega) (by omega) (by omega) (by omega), ih.1]
      show some ([UInt8.ofNat _, UInt8.ofNat _, UInt8.ofNat _] ++ bytes) = _
      rw [ofNat_join (b := a) (by omega), ofNat_join (b := b) (by omega),
        ofNat_join (b := c) (by omega)]
      rfl
    · simp only [List.forall_mem_cons]
      exact ⟨hend _ (by omega), hend _ (by omega), hend _ (by omega), hend _ (by omega), ih.2⟩
  | case2 a b =>
    have ha := a.toNat_lt
    have hb := b.toNat_lt
    obtain ⟨-, hlast, -, -, hpadding⟩ := letter_spec (b.toNat % 16 * 4) (by omega)
    rw [base64Encode, ofChars_digit (by omega), ofChars_digit (by omega),
      ofChars_digit (by omega), ofChars_padding]
    constructor
    · show decodeQuanta [_, _, _, _] = _
      rw [decodeQuanta, (letter_spec _ (by omega)).2.1, (letter_spec _ (by omega)).2.1, hlast]
      simp only [Option.bind_eq_bind, Option.bind_some, and_self, if_true]
      rw [if_neg hpadding, join, ofNat_join (b := a) (by omega), ofNat_join (b := b) (by omega)]
      rfl
    · simp only [List.forall_mem_cons]
      exact ⟨hend _ (by omega), hend _ (by omega), hend _ (by omega), by decide,
        List.forall_mem_nil _⟩
  | case3 a =>
    have ha := a.toNat_lt
    rw [base64Encode, ofChars_digit (by omega), ofChars_digit (by omega), ofChars_padding,
      ofChars_padding]
    constructor
    · show decodeQuanta [_, _, _, _] = _
      rw [decodeQuanta, (letter_spec _ (by omega)).2.1, (letter_spec _ (by omega)).2.1]
      simp only [Option.bind_eq_bind, Option.bind_some, and_self, if_true]
      rw [join, ofNat_join (b := a) (by omega)]
      rfl
    · simp only [List.forall_mem_cons]
      exact ⟨hend _ (by omega), hend _ (by omega), by decide, by decide, List.forall_mem_nil _⟩
  | case4 => exact ⟨rfl, List.forall_mem_nil _⟩

/-- **What Node writes, Go reads.** -/
theorem decodeStd_base64Encode (bytes : GoString) :
    decodeStd (ofChars (base64Encode bytes)) = some bytes := by
  obtain ⟨hdecode, hends⟩ := decodeQuanta_base64Encode bytes
  unfold decodeStd
  rw [List.filter_eq_self.mpr fun b hb => decide_eq_true (hends b hb)]
  exact hdecode

end GoString
