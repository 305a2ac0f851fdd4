import Mathlib.Data.List.Basic

/-!
# Json — JSON texts, their values, and what JavaScript does with them

`stringify` writes a value as `JSON.stringify` does without spacing, and `parse` reads any JSON text
back; `parse_stringify` is their round trip.  A text is a list of characters.  The numbers are a
parameter: how a number is written and read is the business of `JsonNumber`.

A lone surrogate in an escape, which no `String` contains, reads as U+FFFD.  An object keeps every
pair of its text; a key reads as its last value.
-/

inductive Json (ν : Type) where
  | null
  | bool (b : Bool)
  | num (n : ν)
  | str (s : String)
  | arr (elems : List (Json ν))
  | obj (fields : List (String × Json ν))

namespace Json

/-- A character of a number literal. -/
def isNumberChar (c : Char) : Bool := c.isDigit || c ∈ ['-', '+', '.', 'e', 'E']

/-- A number literal begins with it. -/
def startsNumber (c : Char) : Bool := c.isDigit || c = '-'

end Json

/-- How finite numbers are written and read. -/
class JsonNumber (ν : Type) where
  write : ν → List Char
  read : List Char → Option ν
  -- `ToLength`, for a number that is one
  length? : ν → Option Nat
  isZero : ν → Bool
  read_write : ∀ n, read (write n) = some n
  write_start : ∀ n, ∃ c rest, write n = c :: rest ∧ Json.startsNumber c
  write_chars : ∀ n, ∀ c ∈ write n, Json.isNumberChar c

namespace Json

/-! ## Writing -/

def hexDigit (n : Nat) : Char := Nat.digitChar (n % 16)

/-- A character of a string, as `JSON.stringify` writes it. -/
def escape (c : Char) : List Char :=
  if c = '"' then ['\\', '"']
  else if c = '\\' then ['\\', '\\']
  else if c = '\x08' then ['\\', 'b']
  else if c = '\x0c' then ['\\', 'f']
  else if c = '\n' then ['\\', 'n']
  else if c = '\r' then ['\\', 'r']
  else if c = '\t' then ['\\', 't']
  else if c.toNat < 32 then ['\\', 'u', '0', '0', hexDigit (c.toNat / 16), hexDigit c.toNat]
  else [c]

def quote (s : String) : List Char := '"' :: s.toList.flatMap escape ++ ['"']

section

variable {ν : Type} [JsonNumber ν]

mutual

def stringify : Json ν → List Char
  | .null => ['n', 'u', 'l', 'l']
  | .bool true => ['t', 'r', 'u', 'e']
  | .bool false => ['f', 'a', 'l', 's', 'e']
  | .num n => JsonNumber.write n
  | .str s => quote s
  | .arr [] => ['[', ']']
  | .arr (x :: xs) => '[' :: stringify x ++ stringifyElems xs
  | .obj [] => ['{', '}']
  | .obj ((key, x) :: fields) => '{' :: quote key ++ ':' :: stringify x ++ stringifyFields fields

/-- What follows the first element. -/
def stringifyElems : List (Json ν) → List Char
  | [] => [']']
  | x :: xs => ',' :: stringify x ++ stringifyElems xs

/-- What follows the first pair. -/
def stringifyFields : List (String × Json ν) → List Char
  | [] => ['}']
  | (key, x) :: fields => ',' :: quote key ++ ':' :: stringify x ++ stringifyFields fields

end

end

/-! ## Reading -/

def skipWs : List Char → List Char
  | c :: s => if c ∈ [' ', '\t', '\n', '\r'] then skipWs s else c :: s
  | [] => []

def hexVal (c : Char) : Option Nat :=
  if c.isDigit then some (c.toNat - 48)
  else if 'a' ≤ c ∧ c ≤ 'f' then some (c.toNat - 87)
  else if 'A' ≤ c ∧ c ≤ 'F' then some (c.toNat - 55)
  else none

def hex4 (a b c d : Char) : Option Nat := do
  return (((← hexVal a) * 16 + (← hexVal b)) * 16 + (← hexVal c)) * 16 + (← hexVal d)

/-- A part of a string: a character, or the code unit of an escape `\uXXXX`. -/
inductive Piece where
  | char (c : Char)
  | code (n : Nat)
  deriving DecidableEq, Repr

/-- The character of an escape of one letter. -/
def unescape : Char → Option Char
  | '"' => some '"'
  | '\\' => some '\\'
  | '/' => some '/'
  | 'b' => some '\x08'
  | 'f' => some '\x0c'
  | 'n' => some '\n'
  | 'r' => some '\r'
  | 't' => some '\t'
  | _ => none

/-- The rest of a string, after its opening quote, up to its closing one. -/
def pieces : List Char → Option (List Piece × List Char)
  | '"' :: s => some ([], s)
  | '\\' :: 'u' :: a :: b :: c :: d :: s => do
    let n ← hex4 a b c d
    let (ps, s) ← pieces s
    return (.code n :: ps, s)
  | '\\' :: c :: s => do
    let c ← unescape c
    let (ps, s) ← pieces s
    return (.char c :: ps, s)
  | c :: s =>
    if c = '\\' ∨ c.toNat < 32 then none
    else do
      let (ps, s) ← pieces s
      return (.char c :: ps, s)
  | [] => none

def isHigh (n : Nat) : Bool := 0xD800 ≤ n && n < 0xDC00

def isLow (n : Nat) : Bool := 0xDC00 ≤ n && n < 0xE000

def ofCodeUnit (n : Nat) : Char := if isHigh n || isLow n then '\uFFFD' else Char.ofNat n

/-- The characters of the pieces, where two surrogates are one character. -/
def joinPieces : List Piece → List Char
  | [] => []
  | .char c :: ps => c :: joinPieces ps
  | .code hi :: .code lo :: ps =>
    if isHigh hi && isLow lo then
      Char.ofNat (0x10000 + (hi - 0xD800) * 0x400 + (lo - 0xDC00)) :: joinPieces ps
    else ofCodeUnit hi :: joinPieces (.code lo :: ps)
  | .code n :: ps => ofCodeUnit n :: joinPieces ps

def string (s : List Char) : Option (String × List Char) :=
  (pieces s).map fun (ps, s) => (String.ofList (joinPieces ps), s)

section

variable {ν : Type} [JsonNumber ν]

/-- A value that is no array and no object. -/
def scalar : List Char → Option (Json ν × List Char)
  | '"' :: s => (string s).map fun (x, s) => (.str x, s)
  | 'n' :: 'u' :: 'l' :: 'l' :: s => some (.null, s)
  | 't' :: 'r' :: 'u' :: 'e' :: s => some (.bool true, s)
  | 'f' :: 'a' :: 'l' :: 's' :: 'e' :: s => some (.bool false, s)
  | s =>
    if s.head?.any startsNumber then
      (JsonNumber.read (s.takeWhile isNumberChar)).map fun n =>
        (.num n, s.dropWhile isNumberChar)
    else none

mutual

def value : (fuel : Nat) → List Char → Option (Json ν × List Char)
  | 0, _ => none
  | fuel + 1, s =>
    match skipWs s with
    | '[' :: s =>
      match skipWs s with
      | ']' :: s => some (.arr [], s)
      | s => do
        let (x, s) ← value fuel s
        let (xs, s) ← elems fuel s
        return (.arr (x :: xs), s)
    | '{' :: s =>
      match skipWs s with
      | '}' :: s => some (.obj [], s)
      | s => do
        let (field, s) ← member fuel s
        let (fields, s) ← members fuel s
        return (.obj (field :: fields), s)
    | s => scalar s

/-- The elements after the first one. -/
def elems : (fuel : Nat) → List Char → Option (List (Json ν) × List Char)
  | 0, _ => none
  | fuel + 1, s =>
    match skipWs s with
    | ']' :: s => some ([], s)
    | ',' :: s => do
      let (x, s) ← value fuel s
      let (xs, s) ← elems fuel s
      return (x :: xs, s)
    | _ => none

def member : (fuel : Nat) → List Char → Option ((String × Json ν) × List Char)
  | 0, _ => none
  | fuel + 1, s =>
    match skipWs s with
    | '"' :: s => do
      let (key, s) ← string s
      match skipWs s with
      | ':' :: s => do
        let (x, s) ← value fuel s
        return ((key, x), s)
      | _ => none
    | _ => none

/-- The pairs after the first one. -/
def members : (fuel : Nat) → List Char → Option (List (String × Json ν) × List Char)
  | 0, _ => none
  | fuel + 1, s =>
    match skipWs s with
    | '}' :: s => some ([], s)
    | ',' :: s => do
      let (field, s) ← member fuel s
      let (fields, s) ← members fuel s
      return (field :: fields, s)
    | _ => none

end

/-- `JSON.parse`; `none` where it throws. -/
def parse (s : List Char) : Option (Json ν) :=
  match value (s.length + 1) s with
  | some (x, rest) => if skipWs rest = [] then some x else none
  | none => none

end

/-! ## Round trip -/

/-- The piece that a character is read back as. -/
def pieceOf (c : Char) : Piece :=
  if c ∈ ['\x08', '\x0c', '\n', '\r', '\t'] ∨ 32 ≤ c.toNat then .char c else .code c.toNat

theorem hex4_control : ∀ n < 32, hex4 '0' '0' (hexDigit (n / 16)) (hexDigit n) = some n := by
  decide

theorem pieces_char {c : Char} (hquote : c ≠ '"') (hslash : c ≠ '\\') (hcontrol : ¬ c.toNat < 32)
    (s : List Char) : pieces (c :: s) = (pieces s).map fun p => (.char c :: p.1, p.2) := by
  rw [pieces.eq_def]
  split
  next heq => exact absurd (List.cons.inj heq).1 hquote
  next heq => exact absurd (List.cons.inj heq).1 hslash
  next heq => exact absurd (List.cons.inj heq).1 hslash
  next heq =>
    obtain ⟨rfl, rfl⟩ := List.cons.inj heq
    rw [if_neg (not_or.mpr ⟨hslash, hcontrol⟩)]
    cases pieces s <;> rfl
  next heq => cases heq

/-- The forms in which a character is written. -/
inductive Escaped (c : Char) : List Char → Prop where
  | letter {d : Char} : unescape d = some c → d.toNat < 128 → c.toNat < 128 → pieceOf c = .char c →
      Escaped c ['\\', d]
  | control : c.toNat < 32 → pieceOf c = .code c.toNat →
      Escaped c ['\\', 'u', '0', '0', hexDigit (c.toNat / 16), hexDigit c.toNat]
  | plain : c ≠ '"' → c ≠ '\\' → ¬ c.toNat < 32 → Escaped c [c]

theorem escaped_escape (c : Char) : Escaped c (escape c) := by
  unfold escape
  split
  next h => subst h; exact .letter rfl (by decide) (by decide) (by decide)
  split
  next h => subst h; exact .letter rfl (by decide) (by decide) (by decide)
  split
  next h => subst h; exact .letter rfl (by decide) (by decide) (by decide)
  split
  next h => subst h; exact .letter rfl (by decide) (by decide) (by decide)
  split
  next h => subst h; exact .letter rfl (by decide) (by decide) (by decide)
  split
  next h => subst h; exact .letter rfl (by decide) (by decide) (by decide)
  split
  next h => subst h; exact .letter rfl (by decide) (by decide) (by decide)
  split
  next hquote hslash hb hf hn hr ht hcontrol =>
    refine .control hcontrol (if_neg ?_)
    simp only [List.mem_cons, List.not_mem_nil, or_false, not_or, Nat.not_le]
    exact ⟨⟨hb, hf, hn, hr, ht⟩, hcontrol⟩
  next hquote hslash hb hf hn hr ht hcontrol => exact .plain hquote hslash hcontrol

theorem pieces_letter {c d : Char} (h : unescape d = some c) (s : List Char) :
    pieces ('\\' :: d :: s) = (pieces s).map fun p => (.char c :: p.1, p.2) := by
  rw [pieces.eq_def]
  split
  next heq => exact absurd (List.cons.inj heq).1 (by decide)
  -- `u` begins a code unit and is the letter of no escape
  next heq =>
    obtain ⟨rfl, -⟩ := List.cons.inj (List.cons.inj heq).2
    cases h
  next heq =>
    obtain ⟨rfl, rfl⟩ := List.cons.inj (List.cons.inj heq).2
    rw [h]
    cases pieces _ <;> rfl
  next hu hletter heq =>
    obtain ⟨rfl, rfl⟩ := List.cons.inj heq
    exact absurd rfl (hletter _ _ rfl)
  next heq => cases heq

theorem pieces_escape (c : Char) (s : List Char) :
    pieces (escape c ++ s) = (pieces s).map fun p => (pieceOf c :: p.1, p.2) := by
  have h := escaped_escape c
  generalize escape c = t at h ⊢
  cases h with
  | letter hread hd hc hpiece =>
    rw [hpiece]
    exact pieces_letter hread s
  | control hcontrol hpiece =>
    rw [hpiece, List.cons_append, List.cons_append, List.cons_append, List.cons_append,
      List.cons_append, List.cons_append, List.nil_append, pieces, hex4_control _ hcontrol]
    cases pieces s <;> rfl
  | plain hquote hslash hcontrol =>
    have hpiece : pieceOf c = .char c := if_pos (.inr (Nat.not_lt.mp hcontrol))
    rw [hpiece]
    exact pieces_char hquote hslash hcontrol s

theorem pieces_quote (cs rest : List Char) :
    pieces (cs.flatMap escape ++ '"' :: rest) = some (cs.map pieceOf, rest) := by
  induction cs with
  | nil => rfl
  | cons c cs ih =>
    rw [List.flatMap_cons, List.append_assoc, pieces_escape, ih]
    rfl

theorem joinPieces_code {n : Nat} (h : n < 32) (ps : List Piece) :
    joinPieces (.code n :: ps) = Char.ofNat n :: joinPieces ps := by
  have hhigh : isHigh n = false := by simp [isHigh]; omega
  have hlow : isLow n = false := by simp [isLow]; omega
  have hunit : ofCodeUnit n = Char.ofNat n := by simp [ofCodeUnit, hhigh, hlow]
  cases ps with
  | nil => simp [joinPieces, hunit]
  | cons p ps => cases p <;> simp [joinPieces, hunit, hhigh]

theorem joinPieces_map (cs : List Char) : joinPieces (cs.map pieceOf) = cs := by
  induction cs with
  | nil => rfl
  | cons c cs ih =>
    rw [List.map_cons]
    by_cases h : c ∈ ['\x08', '\x0c', '\n', '\r', '\t'] ∨ 32 ≤ c.toNat
    · rw [show pieceOf c = .char c from if_pos h, joinPieces, ih]
    · rw [show pieceOf c = .code c.toNat from if_neg h]
      rw [not_or, Nat.not_le] at h
      rw [joinPieces_code h.2, ih, Char.ofNat_toNat]

theorem string_quote (s : String) (rest : List Char) :
    string (s.toList.flatMap escape ++ '"' :: rest) = some (s, rest) := by
  unfold string
  rw [pieces_quote, Option.map_some]
  dsimp only
  rw [joinPieces_map, String.ofList_toList]

section

variable {ν : Type} [JsonNumber ν]

/-- What may begin the text of a value. -/
def Starts (c : Char) : Prop := c ∈ ['n', 't', 'f', '"', '[', '{'] ∨ startsNumber c

theorem stringify_starts (x : Json ν) : ∃ c s, stringify x = c :: s ∧ Starts c := by
  have hliteral : ∀ c ∈ ['n', 't', 'f', '"', '[', '{'], Starts c := fun c hc => .inl hc
  cases x with
  | null => exact ⟨'n', _, rfl, hliteral _ (by decide)⟩
  | bool b => cases b with
    | true => exact ⟨'t', _, rfl, hliteral _ (by decide)⟩
    | false => exact ⟨'f', _, rfl, hliteral _ (by decide)⟩
  | num n =>
    obtain ⟨c, s, hwrite, hc⟩ := JsonNumber.write_start n
    exact ⟨c, s, hwrite, .inr hc⟩
  | str s => exact ⟨'"', _, rfl, hliteral _ (by decide)⟩
  | arr xs => cases xs with
    | nil => exact ⟨'[', _, rfl, hliteral _ (by decide)⟩
    | cons x xs => exact ⟨'[', _, rfl, hliteral _ (by decide)⟩
  | obj fields => cases fields with
    | nil => exact ⟨'{', _, rfl, hliteral _ (by decide)⟩
    | cons field fields => exact ⟨'{', _, rfl, hliteral _ (by decide)⟩

/-- A character that begins a value is no space and ends no array or object. -/
theorem Starts.ne {c : Char} (h : Starts c) :
    c ∉ [' ', '\t', '\n', '\r'] ∧ c ≠ ']' ∧ c ≠ '}' := by
  rcases h with h | h
  · simp only [List.mem_cons, List.not_mem_nil, or_false] at h
    rcases h with rfl | rfl | rfl | rfl | rfl | rfl <;> decide
  · refine ⟨?_, ?_, ?_⟩
    · intro hspace
      simp only [List.mem_cons, List.not_mem_nil, or_false] at hspace
      rcases hspace with rfl | rfl | rfl | rfl <;> exact absurd h (by decide)
    · rintro rfl
      exact absurd h (by decide)
    · rintro rfl
      exact absurd h (by decide)

theorem skipWs_starts {c : Char} (h : Starts c) (s : List Char) : skipWs (c :: s) = c :: s := by
  rw [skipWs, if_neg h.ne.1]

/-- Here a number ends. -/
def Delimits (s : List Char) : Prop := ∀ c ∈ s.head?, isNumberChar c = false

theorem scalar_number {n : ν} {rest : List Char} (h : Delimits rest) :
    scalar (JsonNumber.write n ++ rest) = some (.num n, rest) := by
  obtain ⟨c, s, hwrite, hc⟩ := JsonNumber.write_start n
  have hrest : rest.takeWhile isNumberChar = [] ∧ rest.dropWhile isNumberChar = rest := by
    cases rest with
    | nil => exact ⟨rfl, rfl⟩
    | cons d rest =>
      have hd : isNumberChar d = false := h d rfl
      exact ⟨List.takeWhile_cons_of_neg (by simp [hd]), List.dropWhile_cons_of_neg (by simp [hd])⟩
  have hchars := JsonNumber.write_chars n
  have htake : (JsonNumber.write n ++ rest).takeWhile isNumberChar = JsonNumber.write n := by
    rw [List.takeWhile_append_of_pos hchars, hrest.1, List.append_nil]
  have hdrop : (JsonNumber.write n ++ rest).dropWhile isNumberChar = rest := by
    rw [List.dropWhile_append_of_pos hchars, hrest.2]
  have hhead : (JsonNumber.write n ++ rest).head?.any startsNumber = true := by
    rw [hwrite]
    exact hc
  -- no literal and no string begins as a number does
  have hne : ∀ {d : Char} {s' : List Char}, startsNumber d = false →
      JsonNumber.write n ++ rest ≠ d :: s' := by
    intro d s' hd heq
    rw [hwrite] at heq
    rw [(List.cons.inj heq).1, hd] at hc
    exact absurd hc (by decide)
  unfold scalar
  split
  next heq => exact absurd heq (hne (by decide))
  next heq => exact absurd heq (hne (by decide))
  next heq => exact absurd heq (hne (by decide))
  next heq => exact absurd heq (hne (by decide))
  next => rw [if_pos hhead, htake, hdrop, JsonNumber.read_write, Option.map_some]

theorem value_scalar {c : Char} {s : List Char} (h : Starts c) (harr : c ≠ '[') (hobj : c ≠ '{')
    (fuel : Nat) : value (ν := ν) (fuel + 1) (c :: s) = scalar (c :: s) := by
  rw [value, skipWs_starts h]
  split
  next heq => exact absurd (List.cons.inj heq).1 harr
  next heq => exact absurd (List.cons.inj heq).1 hobj
  next => rfl

theorem quote_append (s : String) (rest : List Char) :
    quote s ++ rest = '"' :: (s.toList.flatMap escape ++ '"' :: rest) := by
  simp only [quote, List.cons_append, List.append_assoc, List.nil_append]

theorem member_quote (key : String) (s : List Char) (fuel : Nat) :
    member (ν := ν) (fuel + 1) (quote key ++ ':' :: s) =
      (value fuel s).map fun p => ((key, p.1), p.2) := by
  unfold member
  rw [quote_append, skipWs_starts (.inl (by decide))]
  change (string _ >>= _) = _
  rw [string_quote]
  cases hvalue : value (ν := ν) fuel s with
  | none => simp [skipWs, hvalue]
  | some p => simp [skipWs, hvalue]

/-- The rest of an array begins with its comma or its bracket. -/
theorem delimits_elems (xs : List (Json ν)) (rest : List Char) :
    Delimits (stringifyElems xs ++ rest) := by
  intro c hc
  cases xs with
  | nil => cases hc; rfl
  | cons x xs => cases hc; rfl

theorem delimits_fields (fields : List (String × Json ν)) (rest : List Char) :
    Delimits (stringifyFields fields ++ rest) := by
  intro c hc
  cases fields with
  | nil => cases hc; rfl
  | cons field fields => cases hc; rfl

/-- A value that begins an array, or a pair that begins an object, is not taken for its end. -/
theorem value_arr {c : Char} {s : List Char} (h : Starts c) (fuel : Nat) :
    value (ν := ν) (fuel + 1) ('[' :: c :: s) = (do
      let (x, s) ← value fuel (c :: s)
      let (xs, s) ← elems fuel s
      return (.arr (x :: xs), s)) := by
  rw [value, skipWs_starts (.inl (by decide))]
  change (match skipWs (c :: s) with | ']' :: s => _ | s => _) = _
  rw [skipWs_starts h]
  split
  next heq => exact absurd (List.cons.inj heq).1 h.ne.2.1
  next => rfl

theorem value_obj (s : List Char) (fuel : Nat) :
    value (ν := ν) (fuel + 1) ('{' :: '"' :: s) = (do
      let (field, s) ← member fuel ('"' :: s)
      let (fields, s) ← members fuel s
      return (.obj (field :: fields), s)) := by
  rw [value]
  simp [skipWs]

mutual

theorem value_stringify (x : Json ν) (fuel : Nat) (rest : List Char)
    (hfuel : (stringify x).length ≤ fuel) (hrest : Delimits rest) :
    value fuel (stringify x ++ rest) = some (x, rest) := by
  obtain ⟨fuel, rfl⟩ : ∃ n, fuel = n + 1 := by
    obtain ⟨c, s, htext, _⟩ := stringify_starts x
    rw [htext, List.length_cons] at hfuel
    exact ⟨fuel - 1, by omega⟩
  match x with
  | .null => simp [stringify, value, skipWs, scalar]
  | .bool true => simp [stringify, value, skipWs, scalar]
  | .bool false => simp [stringify, value, skipWs, scalar]
  | .num n =>
    obtain ⟨c, s, hwrite, hc⟩ := JsonNumber.write_start n
    have harr : c ≠ '[' := by rintro rfl; exact absurd hc (by decide)
    have hobj : c ≠ '{' := by rintro rfl; exact absurd hc (by decide)
    have htext : stringify (.num n) ++ rest = c :: (s ++ rest) := by
      rw [stringify, hwrite, List.cons_append]
    rw [htext, value_scalar (.inr hc) harr hobj, ← htext]
    exact scalar_number hrest
  | .str s =>
    rw [stringify, quote_append, value_scalar (.inl (by decide)) (by decide) (by decide)]
    unfold scalar
    change (string _).map _ = _
    rw [string_quote, Option.map_some]
  | .arr [] => simp [stringify, value, skipWs]
  | .arr (x :: xs) =>
    obtain ⟨c, s, htext, hc⟩ := stringify_starts x
    rw [stringify, List.cons_append, List.length_cons, List.length_append] at hfuel
    have hx := value_stringify x fuel (stringifyElems xs ++ rest) (by omega)
      (delimits_elems xs rest)
    have hxs := elems_stringify xs fuel rest (by omega)
    rw [htext, List.cons_append] at hx
    have hsplit : stringify (.arr (x :: xs)) ++ rest =
        '[' :: c :: (s ++ (stringifyElems xs ++ rest)) := by
      rw [stringify, htext]
      simp only [List.cons_append, List.append_assoc]
    rw [hsplit, value_arr hc, hx]
    simp only [Option.bind_eq_bind, Option.bind_some, hxs]
    rfl
  | .obj [] => simp [stringify, value, skipWs]
  | .obj ((key, x) :: fields) =>
    have hsplit : stringify (.obj ((key, x) :: fields)) ++ rest =
        '{' :: (quote key ++ ':' :: (stringify x ++ (stringifyFields fields ++ rest))) := by
      rw [stringify]
      simp only [List.cons_append, List.append_assoc]
    have hlength : (stringify (.obj ((key, x) :: fields))).length =
        1 + (quote key).length + 1 + (stringify x).length + (stringifyFields fields).length := by
      rw [stringify]
      simp only [List.cons_append, List.length_append, List.length_cons]
      omega
    obtain ⟨fuel, rfl⟩ : ∃ n, fuel = n + 1 := ⟨fuel - 1, by omega⟩
    have hx := value_stringify x fuel (stringifyFields fields ++ rest) (by omega)
      (delimits_fields fields rest)
    have hfields := members_stringify fields (fuel + 1) rest (by omega)
    have hmember := member_quote (ν := ν) key (stringify x ++ (stringifyFields fields ++ rest)) fuel
    rw [hx, Option.map_some, quote_append] at hmember
    rw [hsplit, quote_append, value_obj, hmember]
    simp only [Option.bind_eq_bind, Option.bind_some, hfields]
    rfl

theorem elems_stringify (xs : List (Json ν)) (fuel : Nat) (rest : List Char)
    (hfuel : (stringifyElems xs).length ≤ fuel) :
    elems fuel (stringifyElems xs ++ rest) = some (xs, rest) := by
  match xs with
  | [] =>
    obtain ⟨fuel, rfl⟩ : ∃ n, fuel = n + 1 := ⟨fuel - 1, by simp [stringifyElems] at hfuel; omega⟩
    simp [stringifyElems, elems, skipWs]
  | x :: xs =>
    rw [stringifyElems, List.cons_append, List.length_cons, List.length_append] at hfuel
    obtain ⟨fuel, rfl⟩ : ∃ n, fuel = n + 1 := ⟨fuel - 1, by omega⟩
    have hx := value_stringify x fuel (stringifyElems xs ++ rest) (by omega)
      (delimits_elems xs rest)
    have hxs := elems_stringify xs fuel rest (by omega)
    rw [stringifyElems, List.cons_append, List.cons_append, List.append_assoc, elems]
    simp [skipWs, hx, hxs]

theorem members_stringify (fields : List (String × Json ν)) (fuel : Nat) (rest : List Char)
    (hfuel : (stringifyFields fields).length ≤ fuel) :
    members fuel (stringifyFields fields ++ rest) = some (fields, rest) := by
  match fields with
  | [] =>
    obtain ⟨fuel, rfl⟩ : ∃ n, fuel = n + 1 := ⟨fuel - 1, by simp [stringifyFields] at hfuel; omega⟩
    simp [stringifyFields, members, skipWs]
  | (key, x) :: fields =>
    have hsplit : stringifyFields ((key, x) :: fields) ++ rest =
        ',' :: (quote key ++ ':' :: (stringify x ++ (stringifyFields fields ++ rest))) := by
      rw [stringifyFields]
      simp only [List.cons_append, List.append_assoc]
    have hlength : (stringifyFields ((key, x) :: fields)).length =
        1 + (quote key).length + 1 + (stringify x).length + (stringifyFields fields).length := by
      rw [stringifyFields]
      simp only [List.cons_append, List.length_append, List.length_cons]
      omega
    obtain ⟨fuel, rfl⟩ : ∃ n, fuel = n + 2 := ⟨fuel - 2, by omega⟩
    have hx := value_stringify x fuel (stringifyFields fields ++ rest) (by omega)
      (delimits_fields fields rest)
    have hfields := members_stringify fields (fuel + 1) rest (by omega)
    have hmember := member_quote (ν := ν) key (stringify x ++ (stringifyFields fields ++ rest)) fuel
    rw [hx, Option.map_some] at hmember
    rw [hsplit, members]
    simp [skipWs, hmember, hfields]

end

end

theorem parse_stringify {ν : Type} [JsonNumber ν] (x : Json ν) : parse (stringify x) = some x := by
  have hvalue := value_stringify x ((stringify x).length + 1) [] (Nat.le_succ _)
    (fun _ hc => by cases hc)
  rw [List.append_nil] at hvalue
  unfold parse
  rw [hvalue]
  rfl

/-! ## Texts without a character outside ASCII -/

def Ascii (s : List Char) : Prop := ∀ c ∈ s, c.toNat < 128

instance (s : List Char) : Decidable (Ascii s) :=
  List.decidableBAll (fun c : Char => c.toNat < 128) s

theorem ascii_append {s t : List Char} : Ascii (s ++ t) ↔ Ascii s ∧ Ascii t :=
  List.forall_mem_append

theorem ascii_cons {c : Char} {s : List Char} : Ascii (c :: s) ↔ c.toNat < 128 ∧ Ascii s :=
  List.forall_mem_cons

theorem hexDigit_ascii (n : Nat) : (hexDigit n).toNat < 128 := by
  have h : ∀ m < 16, (Nat.digitChar m).toNat < 128 := by decide
  exact h (n % 16) (Nat.mod_lt n (by decide))

theorem ascii_escape (c : Char) : Ascii (escape c) ↔ c.toNat < 128 := by
  have h := escaped_escape c
  generalize escape c = t at h ⊢
  cases h with
  | letter hread hd hc hpiece => simp [Ascii, hd, hc]
  | control hcontrol hpiece =>
    -- the code unit is written with digits, and a control character is ASCII
    have hhigh := hexDigit_ascii (c.toNat / 16)
    have hlow := hexDigit_ascii c.toNat
    have hlt : c.toNat < 128 := Nat.lt_trans hcontrol (by decide)
    refine iff_of_true ?_ hlt
    intro d hd
    simp only [List.mem_cons, List.not_mem_nil, or_false] at hd
    rcases hd with rfl | rfl | rfl | rfl | rfl | rfl
    · decide
    · decide
    · decide
    · decide
    · exact hhigh
    · exact hlow
  | plain => simp [Ascii]

theorem ascii_quote (s : String) : Ascii (quote s) ↔ Ascii s.toList := by
  have hescaped : Ascii (s.toList.flatMap escape) ↔ Ascii s.toList := by
    induction s.toList with
    | nil => simp [Ascii]
    | cons c cs ih => rw [List.flatMap_cons, ascii_append, ascii_escape, ascii_cons, ih]
  rw [quote, List.cons_append, ascii_cons, ascii_append, hescaped, ascii_cons]
  simp [Ascii]

/-- A text in which every backslash begins an escape, and none of these is of a character outside
ASCII. -/
inductive Tame : List Char → Prop where
  | nil : Tame []
  | char {c : Char} {s : List Char} : c ≠ '\\' → c.toNat < 128 → Tame s → Tame (c :: s)
  | escape {c : Char} {s : List Char} : c ≠ 'u' → Tame s → Tame ('\\' :: c :: s)
  | control {c d : Char} {s : List Char} :
      c = '0' ∨ c = '1' → Tame s → Tame ('\\' :: 'u' :: '0' :: '0' :: c :: d :: s)

theorem Tame.tail {c : Char} {s : List Char} (h : Tame (c :: s)) (hc : c ≠ '\\') : Tame s := by
  cases h with
  | char _ _ hs => exact hs
  | escape => exact absurd rfl hc
  | control => exact absurd rfl hc

theorem Tame.head {c : Char} {s : List Char} (h : Tame (c :: s)) : c.toNat < 128 := by
  cases h with
  | char _ hc _ => exact hc
  | escape => decide
  | control => decide

theorem tame_skipWs {s : List Char} (h : Tame s) : Tame (skipWs s) := by
  induction s with
  | nil => exact h
  | cons c s ih =>
    rw [skipWs]
    split
    next hspace =>
      refine ih (h.tail ?_)
      rintro rfl
      exact absurd hspace (by decide)
    next => exact h

theorem tame_dropWhile {s : List Char} (h : Tame s) : Tame (s.dropWhile isNumberChar) := by
  induction s with
  | nil => exact h
  | cons c s ih =>
    by_cases hc : isNumberChar c = true
    · rw [List.dropWhile_cons_of_pos hc]
      refine ih (h.tail ?_)
      rintro rfl
      exact absurd hc (by decide)
    · rw [List.dropWhile_cons_of_neg hc]
      exact h

/-- A piece of a tame text. -/
def Piece.Small : Piece → Prop
  | .char c => c.toNat < 128
  | .code n => n < 32

theorem hexVal_lt {c : Char} {n : Nat} (h : hexVal c = some n) : n < 16 := by
  unfold hexVal at h
  split at h
  next hdigit =>
    cases h
    have hle : c ≤ '9' := by
      simp only [Char.isDigit, Bool.and_eq_true, decide_eq_true_eq] at hdigit
      exact hdigit.2
    have hnat : c.toNat ≤ 57 := hle
    omega
  split at h
  next hlower =>
    cases h
    have hnat : c.toNat ≤ 102 := hlower.2
    omega
  split at h
  next hupper =>
    cases h
    have hnat : c.toNat ≤ 70 := hupper.2
    omega
  next => cases h

theorem hex4_small {c d : Char} {n : Nat} (hc : c = '0' ∨ c = '1')
    (h : hex4 '0' '0' c d = some n) : n < 32 := by
  have hzero : hexVal '0' = some 0 := by decide
  have hone : hexVal '1' = some 1 := by decide
  unfold hex4 at h
  simp only [Option.bind_eq_bind, Option.bind_eq_some_iff] at h
  obtain ⟨a, ha, b, hb, e, he, m, hm, heq⟩ := h
  cases heq
  have ha0 : a = 0 := Option.some.inj (ha.symm.trans hzero)
  have hb0 : b = 0 := Option.some.inj (hb.symm.trans hzero)
  have hlast : m < 16 := hexVal_lt hm
  rcases hc with rfl | rfl
  · have he0 : e = 0 := Option.some.inj (he.symm.trans hzero)
    omega
  · have he1 : e = 1 := Option.some.inj (he.symm.trans hone)
    omega

theorem unescape_ascii {c d : Char} (h : unescape c = some d) : d.toNat < 128 := by
  unfold unescape at h
  split at h <;> cases h <;> decide

theorem pieces_tame {s : List Char} (h : Tame s) {ps : List Piece} {rest : List Char}
    (hpieces : pieces s = some (ps, rest)) : Tame rest ∧ ∀ p ∈ ps, p.Small := by
  induction h generalizing ps with
  | nil => cases hpieces
  | @char c s hslash hc hs ih =>
    by_cases hquote : c = '"'
    · subst hquote
      cases hpieces
      exact ⟨hs, fun p hp => by cases hp⟩
    · by_cases hcontrol : c.toNat < 32
      · rw [pieces.eq_def] at hpieces
        split at hpieces
        next heq => exact absurd (List.cons.inj heq).1 hquote
        next heq => exact absurd (List.cons.inj heq).1 hslash
        next heq => exact absurd (List.cons.inj heq).1 hslash
        next heq =>
          obtain ⟨rfl, rfl⟩ := List.cons.inj heq
          rw [if_pos (.inr hcontrol)] at hpieces
          cases hpieces
        next => cases hpieces
      · rw [pieces_char hquote hslash hcontrol, Option.map_eq_some_iff] at hpieces
        obtain ⟨⟨ps', rest'⟩, hrest, heq⟩ := hpieces
        cases heq
        obtain ⟨htame, hsmall⟩ := ih hrest
        refine ⟨htame, ?_⟩
        intro p hp
        rcases List.mem_cons.mp hp with rfl | hp
        · exact hc
        · exact hsmall p hp
  | @escape c s hu hs ih =>
    rw [pieces.eq_def] at hpieces
    split at hpieces
    next heq => exact absurd (List.cons.inj heq).1 (by decide)
    next heq => exact absurd (List.cons.inj (List.cons.inj heq).2).1 hu
    next heq =>
      obtain ⟨rfl, rfl⟩ := List.cons.inj (List.cons.inj heq).2
      simp only [Option.bind_eq_bind, Option.bind_eq_some_iff] at hpieces
      obtain ⟨d, hd, ⟨ps', rest'⟩, hrest, heq⟩ := hpieces
      cases heq
      obtain ⟨htame, hsmall⟩ := ih hrest
      refine ⟨htame, ?_⟩
      intro p hp
      rcases List.mem_cons.mp hp with rfl | hp
      · exact unescape_ascii hd
      · exact hsmall p hp
    next hnot heq =>
      obtain ⟨rfl, rfl⟩ := List.cons.inj heq
      exact (hnot _ _ rfl rfl).elim
    next heq => cases heq
  | @control c d s hc hs ih =>
    simp only [pieces, Option.bind_eq_bind, Option.bind_eq_some_iff] at hpieces
    obtain ⟨n, hn, ⟨ps', rest'⟩, hrest, heq⟩ := hpieces
    cases heq
    obtain ⟨htame, hsmall⟩ := ih hrest
    refine ⟨htame, ?_⟩
    intro p hp
    rcases List.mem_cons.mp hp with rfl | hp
    · exact hex4_small hc hn
    · exact hsmall p hp

theorem joinPieces_ascii {ps : List Piece} (h : ∀ p ∈ ps, p.Small) : Ascii (joinPieces ps) := by
  induction ps with
  | nil => exact fun c hc => by cases hc
  | cons p ps ih =>
    have hrest : Ascii (joinPieces ps) := ih fun q hq => h q (List.mem_cons_of_mem p hq)
    cases p with
    | char c =>
      rw [joinPieces]
      exact ascii_cons.mpr ⟨h (.char c) List.mem_cons_self, hrest⟩
    | code n =>
      have hn : n < 32 := h (.code n) List.mem_cons_self
      rw [joinPieces_code hn]
      have hchar : ∀ m < 32, (Char.ofNat m).toNat < 128 := by decide
      exact ascii_cons.mpr ⟨hchar n hn, hrest⟩

theorem string_tame {s : List Char} (h : Tame s) {x : String} {rest : List Char}
    (hstring : string s = some (x, rest)) : Tame rest ∧ Ascii x.toList := by
  unfold string at hstring
  rw [Option.map_eq_some_iff] at hstring
  obtain ⟨⟨ps, rest'⟩, hpieces, heq⟩ := hstring
  cases heq
  obtain ⟨htame, hsmall⟩ := pieces_tame h hpieces
  rw [String.toList_ofList]
  exact ⟨htame, joinPieces_ascii hsmall⟩

section

variable {ν : Type} [JsonNumber ν]

theorem write_ascii (n : ν) : Ascii (JsonNumber.write n) := by
  intro c hc
  have hnumber := JsonNumber.write_chars n c hc
  unfold isNumberChar at hnumber
  rw [Bool.or_eq_true, decide_eq_true_eq] at hnumber
  rcases hnumber with hdigit | hsign
  · simp only [Char.isDigit, Bool.and_eq_true, decide_eq_true_eq] at hdigit
    have hnat : c.toNat ≤ 57 := hdigit.2
    omega
  · simp only [List.mem_cons, List.not_mem_nil, or_false] at hsign
    rcases hsign with rfl | rfl | rfl | rfl | rfl <;> decide

theorem scalar_tame {s : List Char} (h : Tame s) {x : Json ν} {rest : List Char}
    (hscalar : scalar s = some (x, rest)) : Tame rest ∧ Ascii (stringify x) := by
  unfold scalar at hscalar
  split at hscalar
  next s =>
    rw [Option.map_eq_some_iff] at hscalar
    obtain ⟨⟨y, rest'⟩, hstring, heq⟩ := hscalar
    cases heq
    obtain ⟨htame, hascii⟩ := string_tame (h.tail (by decide)) hstring
    exact ⟨htame, (ascii_quote y).mpr hascii⟩
  next s =>
    cases hscalar
    have htame := (((h.tail (by decide)).tail (by decide)).tail (by decide)).tail (by decide)
    exact ⟨htame, (by decide : Ascii ['n', 'u', 'l', 'l'])⟩
  next s =>
    cases hscalar
    have htame := (((h.tail (by decide)).tail (by decide)).tail (by decide)).tail (by decide)
    exact ⟨htame, (by decide : Ascii ['t', 'r', 'u', 'e'])⟩
  next s =>
    cases hscalar
    have htame := ((((h.tail (by decide)).tail (by decide)).tail (by decide)).tail
      (by decide)).tail (by decide)
    exact ⟨htame, (by decide : Ascii ['f', 'a', 'l', 's', 'e'])⟩
  next =>
    split at hscalar
    next =>
      rw [Option.map_eq_some_iff] at hscalar
      obtain ⟨n, hread, heq⟩ := hscalar
      cases heq
      exact ⟨tame_dropWhile h, write_ascii n⟩
    next => cases hscalar

/-- What a reader makes of a tame text: the rest is tame, and what it has read is ASCII. -/
def ReadsTame {α : Type} (read : List Char → Option (α × List Char)) (text : α → List Char) :
    Prop :=
  ∀ s, Tame s → ∀ x rest, read s = some (x, rest) → Tame rest ∧ Ascii (text x)

def fieldText (field : String × Json ν) : List Char := quote field.1 ++ ':' :: stringify field.2

theorem ascii_arr (x : Json ν) (xs : List (Json ν)) :
    Ascii (stringify (.arr (x :: xs))) ↔ Ascii (stringify x) ∧ Ascii (stringifyElems xs) := by
  rw [stringify, List.cons_append, ascii_cons, ascii_append]
  exact and_iff_right (by decide)

theorem ascii_obj (field : String × Json ν) (fields : List (String × Json ν)) :
    Ascii (stringify (.obj (field :: fields))) ↔
      Ascii (fieldText field) ∧ Ascii (stringifyFields fields) := by
  have hsplit : stringify (.obj (field :: fields)) =
      '{' :: (fieldText field ++ stringifyFields fields) := by
    rw [stringify, fieldText]
    simp only [List.cons_append, List.append_assoc]
  rw [hsplit, ascii_cons, ascii_append]
  exact and_iff_right (by decide)

theorem ascii_elems (x : Json ν) (xs : List (Json ν)) :
    Ascii (stringifyElems (x :: xs)) ↔ Ascii (stringify x) ∧ Ascii (stringifyElems xs) := by
  rw [stringifyElems, List.cons_append, ascii_cons, ascii_append]
  exact and_iff_right (by decide)

theorem ascii_fields (field : String × Json ν) (fields : List (String × Json ν)) :
    Ascii (stringifyFields (field :: fields)) ↔
      Ascii (fieldText field) ∧ Ascii (stringifyFields fields) := by
  have hsplit : stringifyFields (field :: fields) =
      ',' :: (fieldText field ++ stringifyFields fields) := by
    rw [stringifyFields, fieldText]
    simp only [List.cons_append, List.append_assoc]
  rw [hsplit, ascii_cons, ascii_append]
  exact and_iff_right (by decide)

theorem ascii_fieldText (field : String × Json ν) :
    Ascii (fieldText field) ↔ Ascii field.1.toList ∧ Ascii (stringify field.2) := by
  rw [fieldText, ascii_append, ascii_quote, ascii_cons]
  exact and_congr_right fun _ => and_iff_right (by decide)

theorem ascii_obj_iff (fields : List (String × Json ν)) :
    Ascii (stringify (.obj fields)) ↔ ∀ field ∈ fields, Ascii (fieldText field) := by
  have hrest : ∀ fields : List (String × Json ν),
      Ascii (stringifyFields fields) ↔ ∀ field ∈ fields, Ascii (fieldText field) := by
    intro fields
    induction fields with
    | nil => exact iff_of_true (by decide : Ascii ['}']) (by simp)
    | cons field fields ih => rw [ascii_fields, ih, List.forall_mem_cons]
  cases fields with
  | nil => exact iff_of_true (by decide : Ascii ['{', '}']) (by simp)
  | cons field fields => rw [ascii_obj, hrest, List.forall_mem_cons]

/-- Two readers one after the other. -/
theorem ReadsTame.both {α β γ : Type} {first : List Char → Option (α × List Char)}
    {second : List Char → Option (β × List Char)} {text : α → List Char} {text' : β → List Char}
    (h : ReadsTame first text) (h' : ReadsTame second text') (f : α → β → γ) {s : List Char}
    (hs : Tame s) {z : γ} {rest : List Char}
    (hread : (do
      let (x, s) ← first s
      let (y, s) ← second s
      return (f x y, s)) = some (z, rest)) :
    ∃ x y, z = f x y ∧ Tame rest ∧ Ascii (text x) ∧ Ascii (text' y) := by
  simp only [Option.bind_eq_bind, Option.bind_eq_some_iff] at hread
  obtain ⟨⟨x, s₁⟩, hx, ⟨y, s₂⟩, hy, hpure⟩ := hread
  cases hpure
  obtain ⟨hs₁, hascii⟩ := h _ hs x s₁ hx
  obtain ⟨hs₂, hascii'⟩ := h' _ hs₁ y _ hy
  exact ⟨x, y, rfl, hs₂, hascii, hascii'⟩

section

variable {fuel : Nat}

theorem value_tame (hvalue : ReadsTame (value (ν := ν) fuel) stringify)
    (helems : ReadsTame (elems (ν := ν) fuel) stringifyElems)
    (hmember : ReadsTame (member (ν := ν) fuel) fieldText)
    (hmembers : ReadsTame (members (ν := ν) fuel) stringifyFields) :
    ReadsTame (value (ν := ν) (fuel + 1)) stringify := by
  intro s hs x rest h
  have hskip : Tame (skipWs s) := tame_skipWs hs
  rw [value] at h
  split at h
  next s₁ heq =>
    rw [heq] at hskip
    have hfirst : Tame (skipWs s₁) := tame_skipWs (hskip.tail (by decide))
    split at h
    next s₂ heq₂ =>
      cases h
      rw [heq₂] at hfirst
      exact ⟨hfirst.tail (by decide), (by decide : Ascii ['[', ']'])⟩
    next =>
      obtain ⟨y, ys, rfl, hrest, hascii⟩ :=
        hvalue.both helems (fun y ys => arr (y :: ys)) hfirst h
      exact ⟨hrest, (ascii_arr y ys).mpr hascii⟩
  next s₁ heq =>
    rw [heq] at hskip
    have hfirst : Tame (skipWs s₁) := tame_skipWs (hskip.tail (by decide))
    split at h
    next s₂ heq₂ =>
      cases h
      rw [heq₂] at hfirst
      exact ⟨hfirst.tail (by decide), (by decide : Ascii ['{', '}'])⟩
    next =>
      obtain ⟨y, ys, rfl, hrest, hascii⟩ :=
        hmember.both hmembers (fun y ys => obj (y :: ys)) hfirst h
      exact ⟨hrest, (ascii_obj y ys).mpr hascii⟩
  next => exact scalar_tame hskip h

theorem elems_tame (hvalue : ReadsTame (value (ν := ν) fuel) stringify)
    (helems : ReadsTame (elems (ν := ν) fuel) stringifyElems) :
    ReadsTame (elems (ν := ν) (fuel + 1)) stringifyElems := by
  intro s hs xs rest h
  have hskip : Tame (skipWs s) := tame_skipWs hs
  rw [elems] at h
  split at h
  next heq =>
    cases h
    rw [heq] at hskip
    exact ⟨hskip.tail (by decide), (by decide : Ascii [']'])⟩
  next s₁ heq =>
    rw [heq] at hskip
    obtain ⟨y, ys, rfl, hrest, hascii⟩ :=
      hvalue.both helems List.cons (hskip.tail (by decide)) h
    exact ⟨hrest, (ascii_elems y ys).mpr hascii⟩
  next => cases h

theorem member_tame (hvalue : ReadsTame (value (ν := ν) fuel) stringify) :
    ReadsTame (member (ν := ν) (fuel + 1)) fieldText := by
  intro s hs field rest h
  have hskip : Tame (skipWs s) := tame_skipWs hs
  rw [member] at h
  split at h
  next s₁ heq =>
    rw [heq] at hskip
    simp only [Option.bind_eq_bind, Option.bind_eq_some_iff] at h
    obtain ⟨⟨key, s₂⟩, hkey, h⟩ := h
    obtain ⟨hs₂, hkeyAscii⟩ := string_tame (hskip.tail (by decide)) hkey
    have hcolon : Tame (skipWs s₂) := tame_skipWs hs₂
    split at h
    next s₃ heq₃ =>
      rw [heq₃] at hcolon
      simp only [Option.bind_eq_some_iff] at h
      obtain ⟨⟨y, s₄⟩, hy, hpure⟩ := h
      cases hpure
      obtain ⟨hs₄, hascii⟩ := hvalue _ (hcolon.tail (by decide)) y _ hy
      have hquote : Ascii (quote key) := (ascii_quote key).mpr hkeyAscii
      exact ⟨hs₄, ascii_append.mpr ⟨hquote, ascii_cons.mpr ⟨by decide, hascii⟩⟩⟩
    next => cases h
  next => cases h

theorem members_tame (hmember : ReadsTame (member (ν := ν) fuel) fieldText)
    (hmembers : ReadsTame (members (ν := ν) fuel) stringifyFields) :
    ReadsTame (members (ν := ν) (fuel + 1)) stringifyFields := by
  intro s hs fields rest h
  have hskip : Tame (skipWs s) := tame_skipWs hs
  rw [members] at h
  split at h
  next heq =>
    cases h
    rw [heq] at hskip
    exact ⟨hskip.tail (by decide), (by decide : Ascii ['}'])⟩
  next s₁ heq =>
    rw [heq] at hskip
    obtain ⟨y, ys, rfl, hrest, hascii⟩ :=
      hmember.both hmembers List.cons (hskip.tail (by decide)) h
    exact ⟨hrest, (ascii_fields y ys).mpr hascii⟩
  next => cases h

end

/-- By induction on the fuel; a step of one reader uses the other ones with less. -/
theorem readers_tame (fuel : Nat) :
    ReadsTame (value (ν := ν) fuel) stringify ∧ ReadsTame (elems (ν := ν) fuel) stringifyElems ∧
    ReadsTame (member (ν := ν) fuel) fieldText ∧
    ReadsTame (members (ν := ν) fuel) stringifyFields := by
  induction fuel with
  | zero =>
    refine ⟨?_, ?_, ?_, ?_⟩ <;> intro s _ x rest h <;> cases h
  | succ fuel ih =>
    obtain ⟨hvalue, helems, hmember, hmembers⟩ := ih
    exact ⟨value_tame hvalue helems hmember hmembers, elems_tame hvalue helems,
      member_tame hvalue, members_tame hmember hmembers⟩

/-- A tame text is the text of a value without a character outside ASCII. -/
theorem parse_tame {s : List Char} (h : Tame s) {x : Json ν} (hparse : parse s = some x) :
    Ascii (stringify x) := by
  unfold parse at hparse
  split at hparse
  next y rest hvalue =>
    split at hparse
    next =>
      cases hparse
      exact ((readers_tame (s.length + 1)).1 s h _ rest hvalue).2
    next => cases hparse
  next => cases hparse

end

/-! ## Values as JavaScript sees them -/

section

variable {ν : Type} [JsonNumber ν]

/-- The value of a key of an object, which is the last one that was written. -/
def lookup (fields : List (String × Json ν)) (key : String) : Option (Json ν) :=
  fields.reverse.lookup key

/-- `x.key`, for a key that no array and no string has; `none` is `undefined`. -/
def get (x : Json ν) (key : String) : Except String (Option (Json ν)) :=
  match x with
  | .null => .error s!"Cannot read property '{key}' of null"
  | .obj fields => .ok (lookup fields key)
  | _ => .ok none

def truthy : Option (Json ν) → Bool
  | none | some .null => false
  | some (.bool b) => b
  | some (.num n) => !JsonNumber.isZero n
  | some (.str s) => s ≠ ""
  | some (.arr _) | some (.obj _) => true

/-- `_.size`: an object with a length counts as a list. -/
def size : Option (Json ν) → Nat
  | none | some .null | some (.bool _) | some (.num _) => 0
  | some (.str s) => s.length
  | some (.arr xs) => xs.length
  | some (.obj fields) =>
    let keys := (fields.map (·.1)).eraseDups.length
    match lookup fields "length" with
    | some (.num n) => (JsonNumber.length? n).getD keys
    | _ => keys

/-- The values that a `for … of` goes through. -/
def iterate (name : String) : Option (Json ν) → Except String (List (Json ν))
  | some (.arr xs) => .ok xs
  | some (.str s) => .ok (s.toList.map fun c => .str (String.ofList [c]))
  | _ => .error s!"{name} is not iterable"

end

/-- Nothing but a parameter: texts without numbers. -/
instance : JsonNumber Empty where
  write n := n.elim
  read _ := none
  length? n := n.elim
  isZero n := n.elim
  read_write n := n.elim
  write_start n := n.elim
  write_chars n := n.elim

end Json
