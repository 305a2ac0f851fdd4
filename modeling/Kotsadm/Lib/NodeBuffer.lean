import Kotsadm.Lib.Json

/-!
# NodeBuffer — strings as bytes, base64 and ASCII

`base64Encode` and `base64Decode` are the two directions of `base64`.  `toAscii` reads bytes as
`toString("ascii")` does, without their highest bit, so that a text comes back from its UTF-8 bytes
only if it is ASCII.
-/

namespace NodeBuffer

/-! ## base64 -/

/-- The letter of six bits. -/
def digit (n : Nat) : Char :=
  if n < 26 then Char.ofNat (65 + n)
  else if n < 52 then Char.ofNat (71 + n)
  else if n < 62 then Char.ofNat (n - 4)
  else if n = 62 then '+'
  else '/'

/-- The six bits of a letter, of either alphabet. -/
def sextet (c : Char) : Option Nat :=
  if 'A' ≤ c ∧ c ≤ 'Z' then some (c.toNat - 65)
  else if 'a' ≤ c ∧ c ≤ 'z' then some (c.toNat - 71)
  else if '0' ≤ c ∧ c ≤ '9' then some (c.toNat + 4)
  else if c = '+' ∨ c = '-' then some 62
  else if c = '/' ∨ c = '_' then some 63
  else none

def base64Encode : List UInt8 → List Char
  | a :: b :: c :: bytes =>
    [digit (a.toNat / 4), digit (a.toNat % 4 * 16 + b.toNat / 16),
      digit (b.toNat % 16 * 4 + c.toNat / 64), digit (c.toNat % 64)] ++ base64Encode bytes
  | [a, b] =>
    [digit (a.toNat / 4), digit (a.toNat % 4 * 16 + b.toNat / 16), digit (b.toNat % 16 * 4), '=']
  | [a] => [digit (a.toNat / 4), digit (a.toNat % 4 * 16), '=', '=']
  | [] => []

/-- The bytes of groups of four.  What the last group has too many is dropped. -/
def join : List Nat → List UInt8
  | p :: q :: r :: s :: sextets =>
    [UInt8.ofNat (p * 4 + q / 16), UInt8.ofNat (q % 16 * 16 + r / 4),
      UInt8.ofNat (r % 4 * 64 + s)] ++ join sextets
  | [p, q, r] => [UInt8.ofNat (p * 4 + q / 16), UInt8.ofNat (q % 16 * 16 + r / 4)]
  | [p, q] => [UInt8.ofNat (p * 4 + q / 16)]
  | _ => []

/-- Characters that are no letter are skipped, and a padding ends the text. -/
def base64Decode (text : List Char) : List UInt8 :=
  join ((text.takeWhile (· ≠ '=')).filterMap sextet)

theorem sextet_digit : ∀ n < 64, sextet (digit n) = some n ∧ digit n ≠ '=' := by
  decide

/-- The six bits of a text: those of its first letter, and those of the rest. -/
theorem sextets_cons {n : Nat} (h : n < 64) (text : List Char) :
    ((digit n :: text).takeWhile (· ≠ '=')).filterMap sextet =
      n :: (text.takeWhile (· ≠ '=')).filterMap sextet := by
  obtain ⟨hsextet, hpadding⟩ := sextet_digit n h
  rw [List.takeWhile_cons_of_pos (by simp [hpadding]), List.filterMap_cons_some hsextet]

theorem ofNat_join {n : Nat} {b : UInt8} (h : n = b.toNat) : UInt8.ofNat n = b := by
  rw [h, UInt8.ofNat_toNat]

theorem base64Decode_base64Encode (bytes : List UInt8) :
    base64Decode (base64Encode bytes) = bytes := by
  unfold base64Decode
  induction bytes using base64Encode.induct with
  | case1 a b c bytes ih =>
    -- three bytes are four letters, and the bounds make the digits the bits that were split
    have ha := a.toNat_lt
    have hb := b.toNat_lt
    have hc := c.toNat_lt
    rw [base64Encode]
    simp only [List.cons_append, List.nil_append]
    rw [sextets_cons (by omega), sextets_cons (by omega), sextets_cons (by omega),
      sextets_cons (by omega), join, ih, ofNat_join (b := a) (by omega),
      ofNat_join (b := b) (by omega), ofNat_join (b := c) (by omega)]
    rfl
  | case2 a b =>
    have ha := a.toNat_lt
    have hb := b.toNat_lt
    rw [base64Encode, sextets_cons (by omega), sextets_cons (by omega), sextets_cons (by omega)]
    change join [_, _, _] = _
    rw [join, ofNat_join (b := a) (by omega), ofNat_join (b := b) (by omega)]
  | case3 a =>
    have ha := a.toNat_lt
    rw [base64Encode, sextets_cons (by omega), sextets_cons (by omega)]
    change join [_, _] = _
    rw [join, ofNat_join (b := a) (by omega)]
  | case4 => rfl

/-! ## ASCII -/

open Json (Ascii Tame)

/-- `Buffer.from(text)` -/
def utf8 (text : List Char) : List UInt8 := text.flatMap String.utf8EncodeChar

/-- `toString("ascii")` -/
def toAscii (bytes : List UInt8) : List Char := bytes.map fun b => Char.ofNat (b.toNat % 128)

/-- What comes back of a text. -/
def reread (text : List Char) : List Char := toAscii (utf8 text)

@[simp] theorem reread_nil : reread [] = [] := rfl

theorem reread_append (s t : List Char) : reread (s ++ t) = reread s ++ reread t := by
  unfold reread toAscii utf8
  rw [List.flatMap_append, List.map_append]

theorem reread_cons (c : Char) (s : List Char) : reread (c :: s) = reread [c] ++ reread s :=
  reread_append [c] s

theorem ascii_toAscii (bytes : List UInt8) : Ascii (toAscii bytes) := by
  intro c hc
  obtain ⟨b, -, rfl⟩ := List.mem_map.mp hc
  have hchar : ∀ n < 128, (Char.ofNat n).toNat < 128 := by decide
  exact hchar _ (Nat.mod_lt _ (by decide))

theorem reread_char {c : Char} (h : c.toNat < 128) : reread [c] = [c] := by
  -- the encoding branches on the value
  have hval : c.val.toNat ≤ 0x7f := by
    change c.toNat ≤ 0x7f
    omega
  have hbytes : String.utf8EncodeChar c = [UInt8.ofNat c.toNat] := by
    unfold String.utf8EncodeChar
    exact if_pos hval
  unfold reread utf8 toAscii
  rw [List.flatMap_singleton, hbytes, List.map_singleton, UInt8.toNat_ofNat',
    Nat.mod_eq_of_lt (by omega : c.toNat < 2 ^ 8), Nat.mod_eq_of_lt h, Char.ofNat_toNat]

theorem reread_ascii {s : List Char} (h : Ascii s) : reread s = s := by
  induction s with
  | nil => rfl
  | cons c s ih =>
    obtain ⟨hc, hs⟩ := Json.ascii_cons.mp h
    rw [reread_cons, reread_char hc, ih hs]
    rfl

/-- The bytes after the first one of a character read as characters below 64. -/
def Low (s : List Char) : Prop := ∀ c ∈ s, c.toNat < 64

theorem low_continuation (n : Nat) :
    (Char.ofNat ((UInt8.ofNat (n % 0x40 + 0x80)).toNat % 128)).toNat < 64 := by
  have hchar : ∀ m < 64,
      (Char.ofNat ((UInt8.ofNat (m + 0x80)).toNat % 128)).toNat < 64 := by decide
  exact hchar _ (Nat.mod_lt _ (by decide))

/-- A character outside ASCII comes back as at least two others. -/
theorem reread_wide {c : Char} (h : ¬ c.toNat < 128) :
    ∃ lead s, reread [c] = lead :: s ∧ s ≠ [] ∧ Low s := by
  have hbytes : reread [c] = toAscii (String.utf8EncodeChar c) := by
    unfold reread utf8
    rw [List.flatMap_singleton]
  have hval : ¬ c.val.toNat ≤ 0x7f := by
    change ¬ c.toNat ≤ 0x7f
    omega
  rw [hbytes]
  unfold String.utf8EncodeChar
  dsimp only
  rw [if_neg hval]
  split
  -- two bytes
  · refine ⟨_, _, rfl, by simp, ?_⟩
    intro d hd
    simp only [List.map_cons, List.map_nil, List.mem_cons, List.not_mem_nil, or_false] at hd
    subst hd
    exact low_continuation _
  split
  · refine ⟨_, _, rfl, by simp, ?_⟩
    intro d hd
    simp only [List.map_cons, List.map_nil, List.mem_cons, List.not_mem_nil, or_false] at hd
    -- three bytes
    rcases hd with rfl | rfl <;> exact low_continuation _
  · refine ⟨_, _, rfl, by simp, ?_⟩
    intro d hd
    simp only [List.map_cons, List.map_nil, List.mem_cons, List.not_mem_nil, or_false] at hd
    -- four bytes
    rcases hd with rfl | rfl | rfl <;> exact low_continuation _

/-! ## JSON texts -/

theorem ascii_reread (s : List Char) : Ascii (reread s) := ascii_toAscii _

theorem tame_low {s t : List Char} (h : Low s) (ht : Tame t) : Tame (s ++ t) := by
  induction s with
  | nil => exact ht
  | cons c s ih =>
    have hc : c.toNat < 64 := h c List.mem_cons_self
    have hslash : c ≠ '\\' := by
      rintro rfl
      exact absurd hc (by decide)
    exact .char hslash (by omega) (ih fun d hd => h d (List.mem_cons_of_mem c hd))

/-- The backslash that a character may come back as escapes no `u`. -/
theorem tame_wide {c : Char} (h : ¬ c.toNat < 128) {t : List Char} (ht : Tame t) :
    Tame (reread [c] ++ t) := by
  obtain ⟨lead, s, hreread, hne, hlow⟩ := reread_wide h
  have hlead : lead.toNat < 128 := by
    have hascii := ascii_reread [c]
    rw [hreread, Json.ascii_cons] at hascii
    exact hascii.1
  rw [hreread]
  -- the lead byte of a character can read as a backslash
  by_cases hslash : lead = '\\'
  · obtain ⟨d, s, rfl⟩ := List.exists_cons_of_ne_nil hne
    have hd : d.toNat < 64 := hlow d List.mem_cons_self
    have hu : d ≠ 'u' := by
      rintro rfl
      exact absurd hd (by decide)
    rw [hslash]
    exact .escape hu (tame_low (fun e he => hlow e (List.mem_cons_of_mem d he)) ht)
  · exact .char hslash hlead (tame_low hlow ht)

theorem tame_escape_ascii {c : Char} (h : c.toNat < 128) {t : List Char} (ht : Tame t) :
    Tame (Json.escape c ++ t) := by
  have hhigh : ∀ n < 32, Json.hexDigit (n / 16) = '0' ∨ Json.hexDigit (n / 16) = '1' := by
    decide
  have hform := Json.escaped_escape c
  generalize Json.escape c = s at hform ⊢
  cases hform with
  | @letter d hread =>
    have hu : d ≠ 'u' := by
      rintro rfl
      cases hread
    exact .escape hu ht
  | control hcontrol => exact .control (hhigh _ hcontrol) ht
  | plain hquote hslash => exact .char hslash h ht

theorem escape_wide {c : Char} (h : ¬ c.toNat < 128) : Json.escape c = [c] := by
  have hform := Json.escaped_escape c
  generalize Json.escape c = s at hform ⊢
  cases hform with
  | letter hread hd hc => exact absurd hc h
  | control hcontrol => omega
  | plain => rfl

theorem tame_escape (c : Char) {t : List Char} (ht : Tame t) :
    Tame (reread (Json.escape c) ++ t) := by
  by_cases h : c.toNat < 128
  · rw [reread_ascii ((Json.ascii_escape c).mpr h)]
    exact tame_escape_ascii h ht
  · rw [escape_wide h]
    exact tame_wide h ht

/-- The text of a value, or a part of one, that is tame when it comes back. -/
def RereadsTame (s : List Char) : Prop := ∀ t, Tame t → Tame (reread s ++ t)

theorem RereadsTame.append {s s' : List Char} (h : RereadsTame s) (h' : RereadsTame s') :
    RereadsTame (s ++ s') := by
  intro t ht
  rw [reread_append, List.append_assoc]
  exact h _ (h' t ht)

/-- ASCII without a backslash. -/
def Plain (s : List Char) : Prop := ∀ c ∈ s, c.toNat < 128 ∧ c ≠ '\\'

instance (s : List Char) : Decidable (Plain s) :=
  List.decidableBAll (fun c : Char => c.toNat < 128 ∧ c ≠ '\\') s

theorem RereadsTame.plain {s : List Char} (h : Plain s) : RereadsTame s := by
  intro t ht
  rw [reread_ascii fun c hc => (h c hc).1]
  induction s with
  | nil => exact ht
  | cons c s ih =>
    obtain ⟨hc, hslash⟩ := h c List.mem_cons_self
    exact .char hslash hc (ih fun d hd => h d (List.mem_cons_of_mem c hd))

theorem RereadsTame.cons {c : Char} {s : List Char} (hc : c.toNat < 128) (hslash : c ≠ '\\')
    (h : RereadsTame s) : RereadsTame (c :: s) := by
  have hsingle : RereadsTame [c] := by
    apply RereadsTame.plain
    intro d hd
    rw [List.mem_singleton.mp hd]
    exact ⟨hc, hslash⟩
  exact hsingle.append h

theorem rereadsTame_quote (s : String) : RereadsTame (Json.quote s) := by
  have hescaped : RereadsTame (s.toList.flatMap Json.escape) := by
    induction s.toList with
    | nil => exact fun t ht => ht
    | cons c cs ih =>
      rw [List.flatMap_cons]
      exact RereadsTame.append (fun t ht => tame_escape c ht) ih
  unfold Json.quote
  exact (hescaped.cons (by decide) (by decide)).append
    (RereadsTame.plain (by decide))

section

variable {ν : Type} [JsonNumber ν]

theorem rereadsTame_write (n : ν) : RereadsTame (JsonNumber.write n) := by
  apply RereadsTame.plain
  intro c hc
  refine ⟨Json.write_ascii n c hc, ?_⟩
  rintro rfl
  exact absurd (JsonNumber.write_chars n _ hc) (by decide)

mutual

theorem rereadsTame_stringify (x : Json ν) : RereadsTame x.stringify := by
  match x with
  | .null => exact .plain (s := ['n', 'u', 'l', 'l']) (by decide)
  | .bool true => exact .plain (s := ['t', 'r', 'u', 'e']) (by decide)
  | .bool false => exact .plain (s := ['f', 'a', 'l', 's', 'e']) (by decide)
  | .num n => exact rereadsTame_write n
  | .str s => exact rereadsTame_quote s
  | .arr [] => exact .plain (s := ['[', ']']) (by decide)
  | .arr (x :: xs) =>
    rw [Json.stringify]
    exact ((rereadsTame_stringify x).cons (by decide) (by decide)).append (rereadsTame_elems xs)
  | .obj [] => exact .plain (s := ['{', '}']) (by decide)
  | .obj ((key, x) :: fields) =>
    rw [Json.stringify]
    have hx := (rereadsTame_stringify x).cons (c := ':') (by decide) (by decide)
    have hkey := (rereadsTame_quote key).cons (c := '{') (by decide) (by decide)
    exact (hkey.append hx).append (rereadsTame_fields fields)

theorem rereadsTame_elems (xs : List (Json ν)) : RereadsTame (Json.stringifyElems xs) := by
  match xs with
  | [] => exact .plain (s := [']']) (by decide)
  | x :: xs =>
    rw [Json.stringifyElems]
    exact ((rereadsTame_stringify x).cons (by decide) (by decide)).append (rereadsTame_elems xs)

theorem rereadsTame_fields (fields : List (String × Json ν)) :
    RereadsTame (Json.stringifyFields fields) := by
  match fields with
  | [] => exact .plain (s := ['}']) (by decide)
  | (key, x) :: fields =>
    rw [Json.stringifyFields]
    have hx := (rereadsTame_stringify x).cons (c := ':') (by decide) (by decide)
    have hkey := (rereadsTame_quote key).cons (c := ',') (by decide) (by decide)
    exact (hkey.append hx).append (rereadsTame_fields fields)

end

/-- Whatever is read from a text that came back, it is not what was written if that was not
ASCII. -/
theorem ascii_of_parse_reread {x y : Json ν} (h : Json.parse (reread x.stringify) = some y) :
    Ascii y.stringify := by
  have htame : Tame (reread x.stringify ++ []) := rereadsTame_stringify x [] .nil
  rw [List.append_nil] at htame
  exact Json.parse_tame htame h

theorem parse_reread {x : Json ν} (h : Ascii x.stringify) :
    Json.parse (reread x.stringify) = some x := by
  rw [reread_ascii h]
  exact Json.parse_stringify x

end

end NodeBuffer
