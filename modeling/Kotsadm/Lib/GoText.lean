import Mathlib.Data.List.Basic

/-!
# GoText — strings as Go has them

A string of Go is a sequence of bytes.  `TrimSpace`, `Split` and the lines of a `bufio.Scanner` are
as the Go library documents them; a line that does not fit into the buffer of the scanner ends the
scan.
-/

/-- A `string`, or a `[]byte`. -/
abbrev GoString := List UInt8

namespace GoString

/-- The bytes of a literal, which is ASCII. -/
def ascii (s : String) : GoString := s.toList.map fun c => UInt8.ofNat c.toNat

/-- No control character. -/
def Printable (s : GoString) : Prop := ∀ b ∈ s, 32 ≤ b ∧ b ≠ 127

instance (s : GoString) : Decidable s.Printable :=
  List.decidableBAll (fun b => 32 ≤ b ∧ b ≠ 127) s

theorem Printable.not_mem {s : GoString} (h : s.Printable) {b : UInt8} (hb : b < 32) : b ∉ s := by
  intro hmem
  have hge := (h b hmem).1
  exact absurd hb (UInt8.not_lt.mpr hge)

/-! ## strings.TrimSpace -/

/-- The encodings of the code points with the property White_Space. -/
def spaces : List GoString :=
  [[0x09], [0x0A], [0x0B], [0x0C], [0x0D], [0x20], [0xC2, 0x85], [0xC2, 0xA0], [0xE1, 0x9A, 0x80],
   [0xE2, 0x80, 0x80], [0xE2, 0x80, 0x81], [0xE2, 0x80, 0x82], [0xE2, 0x80, 0x83],
   [0xE2, 0x80, 0x84], [0xE2, 0x80, 0x85], [0xE2, 0x80, 0x86], [0xE2, 0x80, 0x87],
   [0xE2, 0x80, 0x88], [0xE2, 0x80, 0x89], [0xE2, 0x80, 0x8A], [0xE2, 0x80, 0xA8],
   [0xE2, 0x80, 0xA9], [0xE2, 0x80, 0xAF], [0xE2, 0x81, 0x9F], [0xE3, 0x80, 0x80]]

/-- Drops the `prefixes` from the front, at most `fuel` times. -/
def dropPrefixes (prefixes : List GoString) : (fuel : Nat) → GoString → GoString
  | 0, s => s
  | fuel + 1, s =>
    match prefixes.find? (·.isPrefixOf s) with
    | none => s
    | some p => dropPrefixes prefixes fuel (s.drop p.length)

/-- `strings.TrimSpace`; every step drops a byte, so the length is fuel enough. -/
def trimSpace (s : GoString) : GoString :=
  let s := dropPrefixes spaces s.length s
  (dropPrefixes (spaces.map List.reverse) s.length s.reverse).reverse

example : trimSpace (ascii " a b\t") = ascii "a b" := by decide

theorem dropPrefixes_suffix (prefixes : List GoString) (fuel : Nat) (s : GoString) :
    dropPrefixes prefixes fuel s <:+ s := by
  induction fuel generalizing s with
  | zero => exact List.suffix_refl s
  | succ fuel ih =>
    unfold dropPrefixes
    split
    next => exact List.suffix_refl s
    next p _ => exact (ih _).trans (List.drop_suffix p.length s)

/-- A prefix that is found is dropped. -/
theorem length_dropPrefixes_lt {prefixes : List GoString} {fuel : Nat} {s : GoString}
    (hnonempty : ∀ p ∈ prefixes, p ≠ []) (hs : s ≠ []) (hfuel : 0 < fuel)
    (hfound : ∃ p ∈ prefixes, p.isPrefixOf s = true) :
    (dropPrefixes prefixes fuel s).length < s.length := by
  cases fuel with
  | zero => exact absurd hfuel (Nat.lt_irrefl 0)
  | succ fuel =>
    unfold dropPrefixes
    split
    next hnone =>
      obtain ⟨p, hp, hprefix⟩ := hfound
      exact absurd hprefix (List.find?_eq_none.mp hnone p hp)
    next p hsome =>
      have hp := List.length_pos_iff.mpr (hnonempty p (List.mem_of_find?_eq_some hsome))
      have hpos := List.length_pos_iff.mpr hs
      have hdrop := (dropPrefixes_suffix prefixes fuel (s.drop p.length)).length_le
      rw [List.length_drop] at hdrop
      omega

/-! ## Lines -/

/-- `bufio.MaxScanTokenSize` -/
def maxScanTokenSize : Nat := 64 * 1024

def dropCR (line : GoString) : GoString :=
  if line.getLast? = some 13 then line.dropLast else line

/-- The tokens of a `bufio.Scanner` over `data`. -/
def scanLines (data : GoString) : List GoString :=
  let parts := data.splitOn 10
  let lines := if parts.getLast? = some [] then parts.dropLast else parts
  (lines.takeWhile fun line => line.length < maxScanTokenSize).map dropCR

theorem dropCR_of_not_mem {line : GoString} (h : 13 ∉ line) : dropCR line = line := by
  unfold dropCR
  rw [if_neg]
  intro hlast
  exact h (List.mem_of_getLast? hlast)

/-- What was trimmed does not end with a carriage return. -/
theorem dropCR_of_trimmed {value : GoString} (h : trimSpace value = value) :
    dropCR value = value := by
  unfold dropCR
  rw [if_neg]
  intro hlast
  have hlength := congrArg List.length h
  unfold trimSpace at hlength
  dsimp only at hlength
  rw [List.length_reverse] at hlength
  have hleft := dropPrefixes_suffix spaces value.length value
  by_cases hsame : dropPrefixes spaces value.length value = value
  · -- nothing is dropped in front, so the carriage return is dropped at the end
    obtain ⟨front, hfront⟩ := List.getLast?_eq_some_iff.mp hlast
    have hright : (dropPrefixes (spaces.map List.reverse) value.length value.reverse).length <
        value.reverse.length := by
      rw [hfront]
      refine length_dropPrefixes_lt (by decide) (by simp) (by simp) ⟨[13], by decide, ?_⟩
      rw [List.reverse_append]
      rfl
    rw [hsame] at hlength
    rw [List.length_reverse] at hright
    omega
  · have hlt : (dropPrefixes spaces value.length value).length < value.length :=
      Nat.lt_of_le_of_ne hleft.length_le fun heq => hsame (hleft.eq_of_length heq)
    have hright := (dropPrefixes_suffix (spaces.map List.reverse)
      (dropPrefixes spaces value.length value).length
      (dropPrefixes spaces value.length value).reverse).length_le
    rw [List.length_reverse] at hright
    omega

/-- Lines without a newline, each ended by one. -/
theorem splitOn_lines {lines : List GoString} (h : ∀ line ∈ lines, 10 ∉ line) :
    (lines.flatMap fun line => line ++ [10]).splitOn 10 = lines ++ [[]] := by
  induction lines with
  | nil => rfl
  | cons line lines ih =>
    have hrest := ih fun other hother => h other (List.mem_cons_of_mem _ hother)
    have hline := List.splitOn_eq_singleton (h line List.mem_cons_self)
    rw [List.flatMap_cons, List.append_assoc, List.singleton_append, List.splitOn_append_cons_self,
      hline, hrest]
    rfl

/-- The scanner reads such lines back, up to the first one that does not fit. -/
theorem scanLines_lines {lines : List GoString} (hnewline : ∀ line ∈ lines, 10 ∉ line)
    (hreturn : ∀ line ∈ lines, dropCR line = line) :
    scanLines (lines.flatMap fun line => line ++ [10]) =
      lines.takeWhile fun line => line.length < maxScanTokenSize := by
  unfold scanLines
  dsimp only
  rw [splitOn_lines hnewline, List.getLast?_concat, if_pos rfl, List.dropLast_concat]
  have hkept : ∀ line ∈ lines.takeWhile fun line => line.length < maxScanTokenSize,
      dropCR line = id line := by
    intro line hline
    exact hreturn line ((List.takeWhile_sublist _).subset hline)
  rw [List.map_congr_left hkept, List.map_id]

/-! ## Fields -/

/-- `strings.Split(key + "=" + value, "=")` has two parts unless there is a `=` in the value. -/
theorem splitOn_field {key value : GoString} (hkey : 61 ∉ key) (hvalue : 61 ∉ value) :
    (key ++ 61 :: value).splitOn 61 = [key, value] := by
  rw [List.splitOn_append_cons_self, List.splitOn_eq_singleton hkey,
    List.splitOn_eq_singleton hvalue]
  rfl

theorem length_splitOn_of_mem {value : GoString} (h : 61 ∈ value) :
    2 ≤ (value.splitOn 61).length := by
  obtain ⟨before, after, rfl⟩ := List.append_of_mem h
  have hbefore := List.length_pos_of_ne_nil (List.splitOn_ne_nil 61 before)
  have hafter := List.length_pos_of_ne_nil (List.splitOn_ne_nil 61 after)
  rw [List.splitOn_append_cons_self, List.length_append]
  omega

theorem length_splitOn_field {key value : GoString} (h : 61 ∈ value) :
    3 ≤ ((key ++ 61 :: value).splitOn 61).length := by
  have hkey := List.length_pos_of_ne_nil (List.splitOn_ne_nil 61 key)
  have hvalue := length_splitOn_of_mem h
  rw [List.splitOn_append_cons_self, List.length_append]
  omega

end GoString
