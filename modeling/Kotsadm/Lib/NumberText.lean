import Kotsadm.Lib.GoEncoding
import Mathlib.Data.List.Induction
import Mathlib.Data.List.TakeWhile

/-!
# NumberText — integers as decimal text, written and read by Go and by JavaScript

`strconv.FormatInt` and `toString` write the same text for an integer.  `strconv.Atoi` reads the
whole text, `parseInt` the number that it starts with; both read back what was written.
-/

namespace NumberText

/-- `StrWhiteSpaceChar` -/
def isStrWhiteSpace (c : Char) : Bool :=
  c.toNat ∈ [0x09, 0x0A, 0x0B, 0x0C, 0x0D, 0x20, 0xA0, 0x1680, 0x2028, 0x2029, 0x202F, 0x205F,
    0x3000, 0xFEFF] || (0x2000 ≤ c.toNat && c.toNat ≤ 0x200A)

/-- The digits in front, with their sign; a number up to 2^53 is exact. -/
def parseDigits (negative : Bool) (text : List Char) : Option Int :=
  let digits := text.takeWhile Char.isDigit
  if digits = [] then none
  else
    let n : Int := Nat.ofDigitChars 10 digits 0
    some (if negative then -n else n)

/-- `parseInt(text, 10)` of JavaScript; `none` is `NaN`. -/
def parseIntPrefix (text : String) : Option Int :=
  match text.toList.dropWhile isStrWhiteSpace with
  | '-' :: rest => parseDigits true rest
  | '+' :: rest => parseDigits false rest
  | rest => parseDigits false rest

theorem toList_toString (n : Int) :
    (toString n).toList =
      if n < 0 then '-' :: Nat.toDigits 10 n.natAbs else Nat.toDigits 10 n.natAbs := by
  cases n with
  | ofNat n =>
    have hpos : ¬ Int.ofNat n < 0 := Int.not_lt.mpr (Int.natCast_nonneg n)
    rw [if_neg hpos]
    exact Nat.toList_repr
  | negSucc n =>
    rw [if_pos (Int.negSucc_lt_zero n)]
    show ("-" ++ Nat.repr (n + 1)).toList = _
    rw [String.toList_append, Nat.toList_repr]
    rfl

theorem isDigit_toDigits {n : Nat} {c : Char} (h : c ∈ Nat.toDigits 10 n) : c.isDigit = true :=
  Nat.isDigit_of_mem_toDigits (by decide) (by decide) h

theorem parseDigits_toDigits (negative : Bool) (n : Nat) :
    parseDigits negative (Nat.toDigits 10 n) = some (if negative then -(n : Int) else n) := by
  have hall : (Nat.toDigits 10 n).takeWhile Char.isDigit = Nat.toDigits 10 n :=
    List.takeWhile_eq_self_iff.mpr fun c hc => isDigit_toDigits hc
  unfold parseDigits
  dsimp only
  rw [hall, if_neg Nat.toDigits_ne_nil, Nat.ofDigitChars_ten_toDigits]

/-- A digit is the character of its value. -/
theorem digitChar_of_isDigit {c : Char} (h : c.isDigit = true) :
    Nat.digitChar (c.toNat - '0'.toNat) = c ∧ c.toNat - '0'.toNat < 10 := by
  obtain ⟨-, hlow, hhigh⟩ := GoString.toNat_digit h
  have hdigit : ∀ n < 10, Nat.digitChar n = Char.ofNat (48 + n) := by decide
  have hzero : '0'.toNat = 48 := rfl
  have hlt : c.toNat - '0'.toNat < 10 := by omega
  refine ⟨?_, hlt⟩
  rw [hdigit _ hlt, hzero, show 48 + (c.toNat - 48) = c.toNat by omega, Char.ofNat_toNat]

/-- Digits without a zero in front are those of their number. -/
theorem toDigits_ofDigitChars {digits : List Char} (hne : digits ≠ [])
    (hdigits : ∀ c ∈ digits, c.isDigit = true) (hzero : digits = ['0'] ∨ digits.head? ≠ some '0') :
    Nat.toDigits 10 (Nat.ofDigitChars 10 digits 0) = digits := by
  induction digits using List.reverseRecOn with
  | nil => exact absurd rfl hne
  | append_singleton front c ih =>
    obtain ⟨hc, hlt⟩ := digitChar_of_isDigit (hdigits c (by simp))
    rw [Nat.ofDigitChars_append, Nat.ofDigitChars_cons, Nat.ofDigitChars_nil]
    by_cases hfront : front = []
    · rw [hfront, Nat.ofDigitChars_nil, Nat.mul_zero, Nat.zero_add, Nat.toDigits_of_lt_base hlt, hc]
      rfl
    · have hhead : front.head? ≠ some '0' := by
        rcases hzero with hzero | hzero
        · have hlength := congrArg List.length hzero
          have hpos := List.length_pos_iff.mpr hfront
          rw [List.length_append, List.length_singleton, List.length_singleton] at hlength
          omega
        · rwa [List.head?_append_of_ne_nil _ hfront] at hzero
      have hrest := ih hfront (fun d hd => hdigits d (List.mem_append_left _ hd)) (.inr hhead)
      have hpos : 0 < Nat.ofDigitChars 10 front 0 := by
        apply Nat.pos_of_ne_zero
        intro hnumber
        rw [hnumber, Nat.toDigits_zero] at hrest
        exact hhead (hrest ▸ rfl)
      rw [← Nat.toDigits_append_toDigits (by decide) hpos hlt, hrest,
        Nat.toDigits_of_lt_base hlt, hc]

theorem not_isStrWhiteSpace {c : Char} (h : c = '-' ∨ c.isDigit = true) :
    isStrWhiteSpace c = false := by
  have hlow : 33 ≤ c.toNat ∧ c.toNat ≤ 57 := by
    rcases h with rfl | hdigit
    · decide
    · have hbounds := (GoString.toNat_digit hdigit).2
      omega
  unfold isStrWhiteSpace
  rw [Bool.or_eq_false_iff]
  constructor
  · simp only [decide_eq_false_iff_not, List.mem_cons, List.not_mem_nil, or_false]
    omega
  · rw [Bool.and_eq_false_iff]
    left
    simp only [decide_eq_false_iff_not]
    omega

/-- `parseInt` stops at the first character that is no digit. -/
theorem parseIntPrefix_digits {digits rest : List Char} (hne : digits ≠ [])
    (hdigits : ∀ c ∈ digits, c.isDigit = true)
    (hrest : ∀ c, rest.head? = some c → c.isDigit = false) :
    parseIntPrefix (String.ofList (digits ++ rest)) =
      some ((Nat.ofDigitChars 10 digits 0 : Nat) : Int) := by
  have htake : (digits ++ rest).takeWhile Char.isDigit = digits := by
    rw [List.takeWhile_append_of_pos hdigits]
    cases rest with
    | nil => exact List.append_nil digits
    | cons c rest =>
      rw [List.takeWhile_cons_of_neg (by simp [hrest c rfl]), List.append_nil]
  have hparse : parseDigits false (digits ++ rest) =
      some ((Nat.ofDigitChars 10 digits 0 : Nat) : Int) := by
    unfold parseDigits
    dsimp only
    rw [htake, if_neg hne, if_neg Bool.false_ne_true]
  unfold parseIntPrefix
  rw [String.toList_ofList]
  cases digits with
  | nil => exact absurd rfl hne
  | cons c digits =>
    have hc := hdigits c List.mem_cons_self
    rw [List.cons_append] at hparse ⊢
    rw [List.dropWhile_cons_of_neg (by rw [not_isStrWhiteSpace (.inr hc)]; simp)]
    -- a digit is no sign
    split
    next heq => cases (List.cons.inj heq).1 ▸ hc
    next heq => cases (List.cons.inj heq).1 ▸ hc
    next => exact hparse

/-- JavaScript reads a number back. -/
theorem parseIntPrefix_toString (n : Int) : parseIntPrefix (toString n) = some n := by
  unfold parseIntPrefix
  rw [toList_toString]
  by_cases hneg : n < 0
  · rw [if_pos hneg, List.dropWhile_cons_of_neg (by rw [not_isStrWhiteSpace (.inl rfl)]; simp)]
    show parseDigits true (Nat.toDigits 10 n.natAbs) = some n
    rw [parseDigits_toDigits, if_pos rfl]
    congr 1
    omega
  · have hpos : ((n.natAbs : Nat) : Int) = n := by omega
    rw [if_neg hneg]
    cases hdigits : Nat.toDigits 10 n.natAbs with
    | nil => exact absurd hdigits Nat.toDigits_ne_nil
    | cons c rest =>
      have hc : c.isDigit = true := isDigit_toDigits (hdigits ▸ List.mem_cons_self)
      rw [List.dropWhile_cons_of_neg (by rw [not_isStrWhiteSpace (.inr hc)]; simp)]
      -- a digit is no sign
      split
      next heq => cases (List.cons.inj heq).1 ▸ hc
      next heq => cases (List.cons.inj heq).1 ▸ hc
      next => rw [← hdigits, parseDigits_toDigits, if_neg Bool.false_ne_true, hpos]

theorem toString_inj {m n : Int} (h : toString m = toString n) : m = n := by
  have hparse := parseIntPrefix_toString m
  rw [h, parseIntPrefix_toString] at hparse
  exact (Option.some.inj hparse).symm

/-- A digit is a byte of its own. -/
theorem utf8EncodeChar_digit {c : Char} (h : c.isDigit = true) :
    String.utf8EncodeChar c = [UInt8.ofNat c.toNat] := by
  have hascii : c.val.toNat ≤ 127 := by
    have hbounds := (GoString.toNat_digit h).2
    have hval : c.val.toNat = c.toNat := rfl
    omega
  unfold String.utf8EncodeChar
  exact if_pos hascii

theorem ofChars_toDigits (n : Nat) :
    GoString.ofChars (Nat.toDigits 10 n) = GoString.decimal n := by
  unfold GoString.ofChars GoString.decimal
  have hbytes : ∀ c ∈ Nat.toDigits 10 n, String.utf8EncodeChar c = [UInt8.ofNat c.toNat] :=
    fun c hc => utf8EncodeChar_digit (isDigit_toDigits hc)
  rw [List.flatMap_congr hbytes]
  exact List.flatMap_pure_eq_map _ _

theorem ofChars_toString {n : Int} (hlow : -2 ^ 63 ≤ n) (hhigh : n < 2 ^ 63) :
    GoString.ofChars (toString n).toList = GoString.itoa (Int64.ofInt n) := by
  unfold GoString.itoa
  rw [toList_toString, Int64.toInt_ofInt_of_le hlow hhigh]
  split
  · rw [← ofChars_toDigits]
    rfl
  · exact ofChars_toDigits _

/-- So does Go. -/
theorem atoi_toString {n : Int} (hlow : -2 ^ 63 ≤ n) (hhigh : n < 2 ^ 63) :
    GoString.atoi (GoString.ofChars (toString n).toList) = .ok (Int64.ofInt n) := by
  rw [ofChars_toString hlow hhigh, GoString.atoi_itoa]

end NumberText
