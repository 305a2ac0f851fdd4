import Kotsadm.Lib.NumberText

/-!
# JsInteger — the integers among the numbers of JavaScript

A number of JavaScript is a double.  An integer is rounded to the nearest one, and to an even
significand if there are two; up to 2^53 all integers are doubles.  The text of a number is the
shortest one that is rounded to it again, and from 10^21 on it has an exponent.
-/

namespace JsInteger

/-! ## Rounding -/

/-- The distance of two doubles at `n`. -/
def ulp (n : Nat) : Nat := 2 ^ (n.log2 + 1 - 53)

/-- The double that is next to `n`. -/
def round (n : Nat) : Nat :=
  let q := n / ulp n
  let r := n % ulp n
  if 2 * r < ulp n ∨ (2 * r = ulp n ∧ q % 2 = 0) then q * ulp n else (q + 1) * ulp n

/-- The number is a double. -/
def Exact (n : Nat) : Prop := round n = n

instance (n : Nat) : Decidable (Exact n) := inferInstanceAs (Decidable (round n = n))

theorem ulp_pos (n : Nat) : 0 < ulp n := Nat.two_pow_pos _

theorem exact_of_ulp_dvd {n : Nat} (h : ulp n ∣ n) : Exact n := by
  have hmod : n % ulp n = 0 := Nat.mod_eq_zero_of_dvd h
  have hpos := ulp_pos n
  unfold Exact round
  dsimp only
  rw [hmod, if_pos (.inl (by omega))]
  exact Nat.div_mul_cancel h

/-- A significand of 53 bits. -/
theorem exact_of_eq_mul {n m k : Nat} (hm : m < 2 ^ 53) (hn : n = m * 2 ^ k) : Exact n := by
  apply exact_of_ulp_dvd
  by_cases hzero : n = 0
  · rw [hzero]
    exact Nat.dvd_zero _
  · have hlt : n < 2 ^ (53 + k) := by
      rw [hn, Nat.pow_add]
      exact Nat.mul_lt_mul_of_pos_right hm (Nat.two_pow_pos k)
    have hlog : n.log2 < 53 + k := (Nat.log2_lt hzero).mpr hlt
    rw [hn]
    refine Nat.dvd_mul_left_of_dvd ?_ m
    rw [← hn]
    exact Nat.pow_dvd_pow 2 (by omega)

theorem exact_of_lt {n : Nat} (h : n < 2 ^ 53) : Exact n :=
  exact_of_eq_mul (k := 0) h (Nat.mul_one n).symm

theorem div_ulp_lt (n : Nat) : n / ulp n < 2 ^ 53 := by
  have hlog : n < 2 ^ (n.log2 + 1) := Nat.lt_log2_self
  rw [Nat.div_lt_iff_lt_mul (ulp_pos n)]
  unfold ulp
  rw [← Nat.pow_add]
  exact Nat.lt_of_lt_of_le hlog (Nat.pow_le_pow_right (by decide) (by omega))

theorem exists_round (n : Nat) : ∃ m k, m < 2 ^ 53 ∧ round n = m * 2 ^ k := by
  have hq := div_ulp_lt n
  unfold round
  dsimp only
  split
  · exact ⟨_, _, hq, rfl⟩
  · by_cases hcarry : n / ulp n + 1 < 2 ^ 53
    · exact ⟨_, _, hcarry, rfl⟩
    · -- the significand overflows into the next power of two
      have heq : n / ulp n + 1 = 2 ^ 53 := by omega
      refine ⟨1, 53 + (n.log2 + 1 - 53), by decide, ?_⟩
      rw [heq, Nat.one_mul, Nat.pow_add]
      rfl

theorem exact_iff {n : Nat} : Exact n ↔ ∃ m k, m < 2 ^ 53 ∧ n = m * 2 ^ k := by
  constructor
  · intro h
    obtain ⟨m, k, hm, hround⟩ := exists_round n
    exact ⟨m, k, hm, h.symm.trans hround⟩
  · rintro ⟨m, k, hm, hn⟩
    exact exact_of_eq_mul hm hn

theorem exact_round (n : Nat) : Exact (round n) := exact_iff.mpr (exists_round n)

/-- A power of two that is taken out of a number. -/
theorem exists_odd {n : Nat} (h : n ≠ 0) : ∃ a j, a % 2 = 1 ∧ n = a * 2 ^ j := by
  induction n using Nat.strong_induction_on with
  | h n ih =>
    by_cases hodd : n % 2 = 1
    · exact ⟨n, 0, hodd, (Nat.mul_one n).symm⟩
    · obtain ⟨a, j, ha, hj⟩ := ih (n / 2) (by omega) (by omega)
      refine ⟨a, j + 1, ha, ?_⟩
      rw [Nat.pow_succ, ← Nat.mul_assoc, ← hj]
      omega

/-- An exact quotient of doubles is one. -/
theorem Exact.of_mul {c d : Nat} (hc : c ≠ 0) (h : Exact (c * d)) : Exact d := by
  by_cases hd : d = 0
  · rw [hd]
    decide
  -- the odd part of the product is at most its significand, so that of a factor is
  · obtain ⟨a, j, ha, rfl⟩ := exists_odd hd
    obtain ⟨b, i, hb, rfl⟩ := exists_odd hc
    obtain ⟨m, k, hm, heq⟩ := exact_iff.mp h
    refine exact_of_eq_mul (k := j) (m := a) ?_ rfl
    have hprod : b * a * 2 ^ (i + j) = m * 2 ^ k := by
      rw [← heq, Nat.pow_add]
      ac_rfl
    have hodd : b * a % 2 = 1 := by
      rw [Nat.mul_mod, ha, hb]
    have hle : b * a ≤ m := by
      by_cases hk : k ≤ i + j
      · have hsplit : b * a * 2 ^ (i + j - k) * 2 ^ k = m * 2 ^ k := by
          rw [Nat.mul_assoc, ← Nat.pow_add, Nat.sub_add_cancel hk, hprod]
        have hm' := Nat.eq_of_mul_eq_mul_right (Nat.two_pow_pos k) hsplit
        rw [← hm']
        exact Nat.le_mul_of_pos_right _ (Nat.two_pow_pos _)
      · -- an odd number is no multiple of two
        have hsplit : b * a * 2 ^ (i + j) = m * 2 ^ (k - (i + j)) * 2 ^ (i + j) := by
          rw [Nat.mul_assoc m, ← Nat.pow_add, Nat.sub_add_cancel (Nat.le_of_not_le hk), hprod]
        have hmul := Nat.eq_of_mul_eq_mul_right (Nat.two_pow_pos (i + j)) hsplit
        obtain ⟨e, he⟩ := Nat.exists_eq_add_of_lt (Nat.lt_of_not_le hk)
        have hsucc : k - (i + j) = e + 1 := by omega
        rw [hmul, hsucc, Nat.pow_succ, ← Nat.mul_assoc, Nat.mul_mod_left] at hodd
        cases hodd
    have hba : a ≤ b * a := Nat.le_mul_of_pos_left a (by omega)
    omega

/-- Rounding does not take a number below 2^53. -/
theorem le_round {n : Nat} (h : 2 ^ 53 ≤ n) : 2 ^ 53 ≤ round n := by
  have hn : n ≠ 0 := by omega
  have hlog : 53 ≤ n.log2 := (Nat.le_log2 hn).mpr h
  have hq : 2 ^ 52 ≤ n / ulp n := by
    rw [Nat.le_div_iff_mul_le (ulp_pos n)]
    unfold ulp
    rw [← Nat.pow_add, show 52 + (n.log2 + 1 - 53) = n.log2 by omega]
    exact Nat.log2_self_le hn
  have hulp : 2 ≤ ulp n := by
    unfold ulp
    exact Nat.le_self_pow (by omega) 2
  have hfloor : 2 ^ 53 ≤ n / ulp n * ulp n := by
    have hmul := Nat.mul_le_mul hq hulp
    omega
  unfold round
  dsimp only
  split
  · exact hfloor
  · refine Nat.le_trans hfloor (Nat.mul_le_mul_right _ (Nat.le_succ _))

/-! ## The text of a number -/

/-- The multiple of `10 ^ zeros` that is next to `x` among those that are rounded to `x`. -/
def nearestMultiple (x zeros : Nat) : Option Nat :=
  let below := x / 10 ^ zeros * 10 ^ zeros
  let above := below + 10 ^ zeros
  if round below = x ∧ (round above = x → x - below ≤ above - x) then some below
  else if round above = x then some above
  else none

/-- As many zeros at the end as the double allows, at most `zeros`. -/
def shortest (x : Nat) : (zeros : Nat) → Nat
  | 0 => x
  | zeros + 1 => (nearestMultiple x (zeros + 1)).getD (shortest x zeros)

/-- The decimal number that is written for the double `x`. -/
def decimalOf (x : Nat) : Nat := shortest x (Nat.toDigits 10 x).length

/-- The digits without the zeros at the end, and the decimal exponent of the first one. -/
def exponential (digits : List Char) : List Char :=
  let significand := (digits.reverse.dropWhile (· = '0')).reverse
  (match significand with
    | [] => []
    | [c] => [c]
    | c :: rest => c :: '.' :: rest) ++
    'e' :: '+' :: Nat.toDigits 10 (digits.length - 1)

/-- `Number::toString` for a double that is not negative. -/
def digitsOf (x : Nat) : List Char :=
  if x < 10 ^ 21 then Nat.toDigits 10 (decimalOf x)
  else exponential (Nat.toDigits 10 (decimalOf x))

theorem round_nearestMultiple {x zeros v : Nat} (h : nearestMultiple x zeros = some v) :
    round v = x := by
  unfold nearestMultiple at h
  dsimp only at h
  split at h
  next hbelow =>
    cases h
    exact hbelow.1
  next =>
    split at h
    next habove =>
      cases h
      exact habove
    next => cases h

theorem round_shortest {x : Nat} (hx : Exact x) (zeros : Nat) : round (shortest x zeros) = x := by
  induction zeros with
  | zero => exact hx
  | succ zeros ih =>
    unfold shortest
    cases hmultiple : nearestMultiple x (zeros + 1) with
    | none => exact ih
    | some v => exact round_nearestMultiple hmultiple

/-- What is written is rounded to the number again. -/
theorem round_decimalOf {x : Nat} (hx : Exact x) : round (decimalOf x) = x :=
  round_shortest hx _

theorem decimalOf_of_lt {x : Nat} (h : x < 2 ^ 53) : decimalOf x = x := by
  have hround := round_decimalOf (exact_of_lt h)
  by_cases hlt : decimalOf x < 2 ^ 53
  · exact (exact_of_lt hlt).symm.trans hround
  · have hle := le_round (Nat.le_of_not_lt hlt)
    omega

example : decimalOf (2 ^ 60) = 1152921504606847000 := by decide +kernel

example : String.ofList (digitsOf (10 ^ 22)) = "1e+22" := by decide +kernel

theorem mem_exponential (digits : List Char) : 'e' ∈ exponential digits := by
  unfold exponential
  exact List.mem_append_right _ List.mem_cons_self

/-! ## Numbers -/

/-- What is rounded to this or more is infinite. -/
def infinity : Nat := 2 ^ 1024

/-- What is printed without an exponent is finite. -/
theorem lt_infinity {n : Nat} (h : n < 10 ^ 21) : n < infinity := by
  have hlow : 10 ^ 21 ≤ 2 ^ 70 := by decide
  have hhigh : 2 ^ 70 ≤ infinity := Nat.pow_le_pow_right (by decide) (by decide)
  omega

theorem natAbs_sign_mul_round (n : Int) : (n.sign * round n.natAbs).natAbs = round n.natAbs := by
  rw [Int.natAbs_mul, Int.natAbs_natCast]
  by_cases hzero : n = 0
  · subst hzero
    decide
  · rw [Int.natAbs_sign_of_ne_zero hzero, Nat.one_mul]

/-- A number that is an integer, infinite, or none.  There is one zero. -/
inductive Number where
  | finite (n : Int) (exact : Exact n.natAbs) (bound : n.natAbs < infinity)
  | infinite (negative : Bool)
  | nan

namespace Number

/-- The number for an integer. -/
def ofInt (n : Int) : Number :=
  if h : round n.natAbs < infinity then
    .finite (n.sign * round n.natAbs)
      (by rw [natAbs_sign_mul_round]; exact exact_round _)
      (by rw [natAbs_sign_mul_round]; exact h)
  else .infinite (n < 0)

/-- `parseInt(text, 10)` -/
def parseInt (text : String) : Number :=
  match NumberText.parseIntPrefix text with
  | some n => ofInt n
  | none => .nan

/-- `ToString` -/
def text : Number → String
  | .finite n _ _ =>
    if n < 0 then "-" ++ String.ofList (digitsOf n.natAbs) else String.ofList (digitsOf n.natAbs)
  | .infinite negative => if negative then "-Infinity" else "Infinity"
  | .nan => "NaN"

/-- The product with a positive integer. -/
def times (c : Nat) : Number → Number
  | .finite n _ _ => ofInt (n * c)
  | .infinite negative => .infinite negative
  | .nan => .nan

/-- The sum. -/
def plus : Number → Number → Number
  | .finite m _ _, .finite n _ _ => ofInt (m + n)
  | .finite .., .infinite negative => .infinite negative
  | .infinite negative, .finite .. => .infinite negative
  | .infinite negative, .infinite negative' =>
    if negative = negative' then .infinite negative else .nan
  | .nan, _ => .nan
  | _, .nan => .nan

/-- `x / c`, if it is at least 1 and `x % c === 0`.  The quotient is rounded, but not across 1. -/
def quotient (c : Nat) : Number → Option Number
  | .finite n _ _ => if c ≤ n ∧ n % c = 0 then some (ofInt (n / c)) else none
  | .infinite _ => none
  | .nan => none

/-- A positive integer, or zero, is rounded to the double `x`. -/
theorem ofInt_of_round {v x : Nat} (hround : round v = x) (hlt : x < infinity) :
    ofInt v = .finite x (hround ▸ exact_round v) hlt := by
  have hsign : (v : Int).sign * (round (v : Int).natAbs : Int) = (x : Int) := by
    rw [Int.natAbs_natCast, hround]
    cases v with
    | zero =>
      rw [← hround]
      rfl
    | succ v => rw [Int.sign_natCast_of_ne_zero (Nat.succ_ne_zero v), Int.one_mul]
  unfold ofInt
  rw [dif_pos (by rw [Int.natAbs_natCast, hround]; exact hlt)]
  simp only [hsign]

theorem ofInt_of_exact {n : Int} (hn : Exact n.natAbs) (hlt : n.natAbs < infinity) :
    ofInt n = .finite n hn hlt := by
  have hround : round n.natAbs = n.natAbs := hn
  have hsign : n.sign * (round n.natAbs : Int) = n := by
    rw [hround]
    exact Int.sign_mul_natAbs n
  unfold ofInt
  rw [dif_pos (by rw [hround]; exact hlt)]
  simp only [hsign]

theorem times_one (x : Number) : x.times 1 = x := by
  cases x with
  | finite n hn hlt =>
    unfold times
    simp only [Int.natCast_one, Int.mul_one]
    exact ofInt_of_exact hn hlt
  | infinite negative => rfl
  | nan => rfl

/-- The digits of a text are read up to the first other character. -/
theorem parseInt_digits {digits rest : List Char} (hne : digits ≠ [])
    (hdigits : ∀ c ∈ digits, c.isDigit = true)
    (hrest : ∀ c, rest.head? = some c → c.isDigit = false) :
    parseInt (String.ofList (digits ++ rest)) =
      ofInt ((Nat.ofDigitChars 10 digits 0 : Nat) : Int) := by
  unfold parseInt
  rw [NumberText.parseIntPrefix_digits hne hdigits hrest]

theorem ofInt_of_lt {n : Nat} (h : n < 2 ^ 53) :
    ofInt n = .finite n (exact_of_lt h) (lt_infinity (by omega)) :=
  ofInt_of_exact (n := (n : Int)) (exact_of_lt h) (lt_infinity (by omega))

/-- Below 2^53 a sum is that of the integers. -/
theorem plus_ofInt {m n : Nat} (h : m + n < 2 ^ 53) :
    (ofInt m).plus (ofInt n) = ofInt ((m + n : Nat) : Int) := by
  rw [ofInt_of_lt (by omega : m < 2 ^ 53), ofInt_of_lt (by omega : n < 2 ^ 53)]
  unfold plus
  rw [Int.natCast_add]

theorem plus_one {m : Nat} (h : m + 1 < 2 ^ 53) :
    (ofInt m).plus (ofInt 1) = ofInt ((m + 1 : Nat) : Int) := by
  have hsum := plus_ofInt h
  rw [Int.natCast_one] at hsum
  exact hsum

/-- A quotient of a double that is an integer is exact. -/
theorem quotient_cases {c x : Nat} (hc : c ≠ 0) (hexact : Exact x) (hlt : x < infinity) :
    quotient c (.finite x hexact hlt) = none ∨
      ∃ d hd hd', x = d * c ∧
        quotient c (.finite x hexact hlt) = some (.finite (d : Nat) hd hd') := by
  unfold quotient
  dsimp only
  split
  next hdiv =>
    right
    have hmod : x % c = 0 := by
      have hcast := hdiv.2
      rw [← Int.natCast_emod] at hcast
      exact Int.ofNat_eq_zero.mp hcast
    have hmul : x = x / c * c := (Nat.div_mul_cancel (Nat.dvd_of_mod_eq_zero hmod)).symm
    have hd : Exact (x / c) := by
      apply Exact.of_mul hc
      rw [Nat.mul_comm, ← hmul]
      exact hexact
    have hd' : x / c < infinity := Nat.lt_of_le_of_lt (Nat.div_le_self x c) hlt
    refine ⟨x / c, hd, hd', hmul, ?_⟩
    rw [← Int.natCast_ediv, ofInt_of_exact (n := ((x / c : Nat) : Int)) hd hd']
  next => exact .inl rfl

/-- A double that is not negative, below 10^21: its text has digits only. -/
theorem text_of_lt {x : Nat} (hexact : Exact x) (hlt : x < infinity) (hplain : x < 10 ^ 21) :
    text (.finite x hexact hlt) = String.ofList (Nat.toDigits 10 (decimalOf x)) := by
  unfold text digitsOf
  dsimp only
  rw [if_neg (Int.not_lt.mpr (Int.natCast_nonneg x)), Int.natAbs_natCast, if_pos hplain]

/-- Below 2^53 it is the text of the integer. -/
theorem text_ofInt {n : Nat} (h : n < 2 ^ 53) : text (ofInt n) = toString n := by
  rw [ofInt_of_lt h, text_of_lt _ _ (by omega), decimalOf_of_lt h]
  rfl

/-- Every other text has a character that is no digit. -/
theorem text_cases (number : Number) :
    (∃ x hexact hlt, number = .finite (x : Nat) hexact hlt ∧ x < 10 ^ 21) ∨
      ∃ c ∈ number.text.toList, c.isDigit = false := by
  cases number with
  | finite n hexact hlt =>
    by_cases hneg : n < 0
    · right
      refine ⟨'-', ?_, rfl⟩
      unfold text
      dsimp only
      rw [if_pos hneg, String.toList_append]
      exact List.mem_append_left _ List.mem_cons_self
    · by_cases hplain : n.natAbs < 10 ^ 21
      · left
        have hn : ((n.natAbs : Nat) : Int) = n := by omega
        refine ⟨n.natAbs, hexact, hlt, ?_, hplain⟩
        congr 1
        exact hn.symm
      · right
        refine ⟨'e', ?_, rfl⟩
        unfold text digitsOf
        dsimp only
        rw [if_neg hneg, if_neg hplain, String.toList_ofList]
        exact mem_exponential _
  | infinite negative =>
    right
    cases negative
    · exact ⟨'I', by decide, rfl⟩
    · exact ⟨'-', by decide, rfl⟩
  | nan => exact .inr ⟨'N', by decide, rfl⟩

end Number

end JsInteger
