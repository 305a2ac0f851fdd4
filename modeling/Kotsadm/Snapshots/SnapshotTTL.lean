import Kotsadm.Lib.JsInteger

/-!
# SnapshotTTL — how long snapshots are kept

`formatTTL` writes a quantity and a unit as seconds, minutes or hours, and `parseTTL` reads that
back in the largest unit that fits.  The first one takes whatever `parseInt` takes; the second one
takes digits only.
-/

namespace Kotsadm.SnapshotTTL

open JsInteger

def invalid (ttl : String) : String := "Invalid snapshot TTL: " ++ ttl

/-- `parseInt` makes a text of its argument first, so a number comes as its text. -/
def formatTTL (quantity unit : String) : Except String String :=
  match Number.parseInt quantity with
  | .nan => .error (invalid (quantity ++ " " ++ unit))
  | n =>
    match unit with
    | "seconds" => .ok (n.text ++ "s")
    | "minutes" => .ok (n.text ++ "m")
    | "hours" => .ok (n.text ++ "h")
    | "days" => .ok ((n.times 24).text ++ "h")
    | "weeks" => .ok ((n.times 168).text ++ "h")
    | "months" => .ok ((n.times 720).text ++ "h")
    | "years" => .ok ((n.times 8766).text ++ "h")
    | _ => .error (invalid (quantity ++ " " ++ unit))

structure ParsedTTL where
  quantity : Number
  unit : String

/-- What `(s|m|h)` matches in `/^\d+(s|m|h)$/`. -/
def matchTTL (s : String) : Option Char :=
  match s.toList.reverse with
  | [] => none
  | c :: digits =>
    if digits ≠ [] ∧ digits.all Char.isDigit ∧ c ∈ ['s', 'm', 'h'] then some c else none

/-- The largest unit that divides the hours. -/
def parseHours (quantity : Number) : ParsedTTL :=
  match quantity.quotient 8766 with
  | some years => { quantity := years, unit := "years" }
  | none =>
    match quantity.quotient 720 with
    | some months => { quantity := months, unit := "months" }
    | none =>
      match quantity.quotient 168 with
      | some weeks => { quantity := weeks, unit := "weeks" }
      | none =>
        match quantity.quotient 24 with
        | some days => { quantity := days, unit := "days" }
        | none => { quantity, unit := "hours" }

def parseTTL (s : String) : Except String ParsedTTL :=
  match matchTTL s with
  | some 's' => .ok { quantity := Number.parseInt s, unit := "seconds" }
  | some 'm' => .ok { quantity := Number.parseInt s, unit := "minutes" }
  | some 'h' => .ok (parseHours (Number.parseInt s))
  | _ => .error (invalid s)

/-! ## Units -/

/-- How a unit is printed: the factor and the letter. -/
def printed (unit : String) : Option (Nat × Char) :=
  match unit with
  | "seconds" => some (1, 's')
  | "minutes" => some (1, 'm')
  | "hours" => some (1, 'h')
  | "days" => some (24, 'h')
  | "weeks" => some (168, 'h')
  | "months" => some (720, 'h')
  | "years" => some (8766, 'h')
  | _ => none

/-- The seconds of a unit. -/
def secondsOf (unit : String) : Option Nat :=
  match unit with
  | "seconds" => some 1
  | "minutes" => some 60
  | "hours" => some 3600
  | "days" => some 86400
  | "weeks" => some 604800
  | "months" => some 2592000
  | "years" => some 31557600
  | _ => none

def secondsOfLetter (c : Char) : Nat := if c = 's' then 1 else if c = 'm' then 60 else 3600

section

variable {quantity unit s : String} {factor x : Nat} {c : Char}

theorem printed_spec (h : printed unit = some (factor, c)) :
    0 < factor ∧ c ∈ ['s', 'm', 'h'] ∧ secondsOf unit = some (factor * secondsOfLetter c) := by
  unfold printed at h
  split at h <;> cases h <;> simp [secondsOf, secondsOfLetter]

/-- What `formatTTL` returns. -/
theorem formatTTL_eq_ok : formatTTL quantity unit = .ok s ↔
    Number.parseInt quantity ≠ .nan ∧ ∃ factor c, printed unit = some (factor, c) ∧
      s = ((Number.parseInt quantity).times factor).text ++ String.singleton c := by
  have hs : "s" = String.singleton 's' := by decide
  have hm : "m" = String.singleton 'm' := by decide
  have hh : "h" = String.singleton 'h' := by decide
  unfold formatTTL
  generalize Number.parseInt quantity = n
  by_cases hnan : n = .nan
  · subst hnan
    simp
  · split
    next => exact absurd rfl hnan
    next =>
      unfold printed
      split
      all_goals simp only [ne_eq, hnan, not_false_eq_true, true_and, Except.ok.injEq,
        Option.some.injEq, Prod.mk.injEq, and_assoc, exists_and_left, exists_eq_left,
        Number.times_one, hs, hm, hh, eq_comm, reduceCtorEq, false_and, exists_false]

/-! ## parseTTL -/

theorem matchTTL_append {digits : List Char} :
    matchTTL (String.ofList (digits ++ [c])) =
      if digits ≠ [] ∧ digits.all Char.isDigit ∧ c ∈ ['s', 'm', 'h'] then some c else none := by
  unfold matchTTL
  rw [String.toList_ofList, List.reverse_append, List.reverse_singleton, List.singleton_append]
  simp only [ne_eq, List.reverse_eq_nil_iff, List.all_reverse]

/-- The unit divides the hours, so nothing is lost. -/
theorem parseHours_spec (hexact : Exact x) (hlt : x < infinity) :
    ∃ q hq hq' unit factor, parseHours (.finite x hexact hlt) = ⟨.finite (q : Nat) hq hq', unit⟩ ∧
      printed unit = some (factor, 'h') ∧ q * factor = x := by
  unfold parseHours
  rcases Number.quotient_cases (c := 8766) (by decide) hexact hlt with
    hnone | ⟨q, hq, hq', hmul, hsome⟩
  case inr =>
    rw [hsome]
    exact ⟨q, hq, hq', "years", 8766, rfl, rfl, hmul.symm⟩
  rw [hnone]
  rcases Number.quotient_cases (c := 720) (by decide) hexact hlt with
    hnone | ⟨q, hq, hq', hmul, hsome⟩
  case inr =>
    rw [hsome]
    exact ⟨q, hq, hq', "months", 720, rfl, rfl, hmul.symm⟩
  rw [hnone]
  rcases Number.quotient_cases (c := 168) (by decide) hexact hlt with
    hnone | ⟨q, hq, hq', hmul, hsome⟩
  case inr =>
    rw [hsome]
    exact ⟨q, hq, hq', "weeks", 168, rfl, rfl, hmul.symm⟩
  rw [hnone]
  rcases Number.quotient_cases (c := 24) (by decide) hexact hlt with
    hnone | ⟨q, hq, hq', hmul, hsome⟩
  case inr =>
    rw [hsome]
    exact ⟨q, hq, hq', "days", 24, rfl, rfl, hmul.symm⟩
  rw [hnone]
  exact ⟨x, hexact, hlt, "hours", 1, rfl, rfl, Nat.mul_one x⟩

/-- What `parseTTL` makes of digits and a letter, when the number is rounded to `x`. -/
theorem parseTTL_spec {digits : List Char} (hne : digits ≠ [])
    (hdigits : ∀ d ∈ digits, d.isDigit = true) (hc : c ∈ ['s', 'm', 'h'])
    (hround : round (Nat.ofDigitChars 10 digits 0) = x) (hlt : x < infinity) :
    ∃ q hq hq' unit factor, parseTTL (String.ofList (digits ++ [c])) =
        .ok ⟨.finite (q : Nat) hq hq', unit⟩ ∧
      printed unit = some (factor, c) ∧ q * factor = x := by
  have hletter : ∀ d, [c].head? = some d → d.isDigit = false := by
    intro d hd
    cases hd
    simp only [List.mem_cons, List.not_mem_nil, or_false] at hc
    rcases hc with rfl | rfl | rfl <;> rfl
  have hnumber : Number.parseInt (String.ofList (digits ++ [c])) =
      .finite x (hround ▸ exact_round _) hlt := by
    rw [Number.parseInt_digits hne hdigits hletter]
    exact Number.ofInt_of_round hround hlt
  unfold parseTTL
  rw [matchTTL_append, if_pos ⟨hne, List.all_eq_true.mpr hdigits, hc⟩]
  simp only [List.mem_cons, List.not_mem_nil, or_false] at hc
  rcases hc with rfl | rfl | rfl
  · rw [hnumber]
    exact ⟨x, _, hlt, "seconds", 1, rfl, rfl, Nat.mul_one x⟩
  · rw [hnumber]
    exact ⟨x, _, hlt, "minutes", 1, rfl, rfl, Nat.mul_one x⟩
  · rw [hnumber]
    obtain ⟨q, hq, hq', unit, factor, hparse, hunit⟩ := parseHours_spec
      (hround ▸ exact_round _ : Exact x) hlt
    exact ⟨q, hq, hq', unit, factor, congrArg Except.ok hparse, hunit⟩

/-- Nothing else than digits may stand before the letter. -/
theorem parseTTL_error {text : String} {d : Char} (hd : d ∈ text.toList)
    (hdigit : d.isDigit = false) : ∃ e, parseTTL (text ++ String.singleton c) = .error e := by
  have hsplit : text ++ String.singleton c = String.ofList (text.toList ++ [c]) := by
    apply String.toList_injective
    rw [String.toList_append, String.toList_ofList, String.toList_singleton]
  have hmatch : matchTTL (text ++ String.singleton c) = none := by
    rw [hsplit, matchTTL_append, if_neg]
    rintro ⟨-, hdigits, -⟩
    rw [List.all_eq_true.mp hdigits d hd] at hdigit
    cases hdigit
  unfold parseTTL
  rw [hmatch]
  exact ⟨_, rfl⟩

/-! ## There and back -/

/-- Digits without a zero in front, for a number below 2^53, and a letter. -/
structure Canonical (digits : List Char) (c : Char) : Prop where
  nonempty : digits ≠ []
  decimal : ∀ d ∈ digits, d.isDigit = true
  noZero : digits = ['0'] ∨ digits.head? ≠ some '0'
  bound : Nat.ofDigitChars 10 digits 0 < 2 ^ 53
  letter : c ∈ ['s', 'm', 'h']

/-- A double that is printed with digits only comes back from its text. -/
theorem parseInt_text {q : Nat} (hexact : Exact q) (hlt : q < infinity) (hplain : q < 10 ^ 21) :
    Number.parseInt (Number.finite q hexact hlt).text = .finite q hexact hlt := by
  rw [Number.text_of_lt hexact hlt hplain, ← List.append_nil (Nat.toDigits 10 (decimalOf q)),
    Number.parseInt_digits Nat.toDigits_ne_nil (fun d hd => NumberText.isDigit_toDigits hd)
      (fun d hd => by cases hd), Nat.ofDigitChars_ten_toDigits]
  exact Number.ofInt_of_round (round_decimalOf hexact) hlt

theorem times_finite {q factor : Nat} (hq : Exact q) (hq' : q < infinity)
    (hmul : q * factor = x) (hexact : Exact x) (hlt : x < infinity) :
    (Number.finite q hq hq').times factor = .finite x hexact hlt := by
  subst hmul
  show Number.ofInt ((q : Int) * (factor : Int)) = _
  rw [← Int.natCast_mul]
  exact Number.ofInt_of_exact (n := ((q * factor : Nat) : Int)) hexact hlt

/-- `formatTTL` of what was parsed. -/
theorem formatTTL_finite {q factor : Nat} (hq : Exact q) (hq' : q < infinity)
    (hplain : q < 10 ^ 21) (hunit : printed unit = some (factor, c)) (hmul : q * factor = x)
    (hexact : Exact x) (hlt : x < infinity) (hx : x < 10 ^ 21) :
    formatTTL (Number.finite q hq hq').text unit =
      .ok (String.ofList (Nat.toDigits 10 (decimalOf x)) ++ String.singleton c) := by
  rw [formatTTL_eq_ok, parseInt_text hq hq' hplain]
  refine ⟨by simp, factor, c, hunit, ?_⟩
  rw [times_finite hq hq' hmul hexact hlt, Number.text_of_lt hexact hlt hx]

end

/-- **Stored lifetimes survive the settings page.** -/
theorem formatTTL_parseTTL {digits : List Char} {c : Char} (h : Canonical digits c) :
    ∃ ttl, parseTTL (String.ofList (digits ++ [c])) = .ok ttl ∧
      formatTTL ttl.quantity.text ttl.unit = .ok (String.ofList (digits ++ [c])) := by
  have hexact := exact_of_lt h.bound
  have hbound : Nat.ofDigitChars 10 digits 0 < 10 ^ 21 := Nat.lt_trans h.bound (by decide)
  obtain ⟨q, hq, hq', unit, factor, hparse, hunit, hmul⟩ :=
    parseTTL_spec h.nonempty h.decimal h.letter hexact (lt_infinity hbound)
  have hle : q ≤ Nat.ofDigitChars 10 digits 0 := by
    rw [← hmul]
    exact Nat.le_mul_of_pos_right q (printed_spec hunit).1
  refine ⟨_, hparse, ?_⟩
  show formatTTL (Number.finite (q : Nat) hq hq').text unit = _
  have hformat := formatTTL_finite hq hq' (Nat.lt_of_le_of_lt hle hbound) hunit hmul hexact
    (lt_infinity hbound) hbound
  refine hformat.trans ?_
  rw [decimalOf_of_lt h.bound, NumberText.toDigits_ofDigitChars h.nonempty h.decimal h.noZero]
  congr 1
  apply String.toList_injective
  rw [String.toList_append, String.toList_ofList, String.toList_ofList, String.toList_singleton]

theorem canonical_months : Canonical ['4', '3', '2', '0'] 'h' where
  nonempty := by decide
  decimal := List.all_eq_true.mp (by decide)
  noZero := by decide
  bound := by decide
  letter := by decide

theorem formatTTL_parseTTL_months : ∃ ttl, parseTTL "4320h" = .ok ttl ∧
    formatTTL ttl.quantity.text ttl.unit = .ok "4320h" :=
  formatTTL_parseTTL canonical_months

/-! ## Accepted quantities -/

/-- The seconds that a quantity and a unit stand for: the quantity is the integer at the start of
its text. -/
def durationOf (quantity unit : String) : Option Int := do
  let n ← NumberText.parseIntPrefix quantity
  let seconds ← secondsOf unit
  return n * seconds

def ParsedTTL.seconds (ttl : ParsedTTL) : Option Int :=
  match ttl.quantity, secondsOf ttl.unit with
  | .finite n _ _, some seconds => some (n * seconds)
  | _, _ => none

/-- The lifetime is read back, and lasts as long as the one that was given. -/
def ReadBack (quantity unit s : String) : Prop :=
  ∃ ttl seconds, parseTTL s = .ok ttl ∧ ttl.seconds = some seconds ∧
    durationOf quantity unit = some seconds

/-- The number that is printed is not negative, a double, and below 10^21. -/
def Printable (quantity unit : String) : Prop :=
  ∃ n factor c, NumberText.parseIntPrefix quantity = some ((n : Nat) : Int) ∧
    printed unit = some (factor, c) ∧ Exact (n * factor) ∧ n * factor < 10 ^ 21

section

variable {unit : String} {factor x : Nat} {c : Char}

/-- What is printed with digits only is parsed. -/
theorem parseTTL_plain (hunit : printed unit = some (factor, c)) (hexact : Exact x)
    (hlt : x < infinity) (hplain : x < 10 ^ 21) :
    ∃ q hq hq' unit' factor', parseTTL ((Number.finite x hexact hlt).text ++ String.singleton c) =
        .ok ⟨.finite (q : Nat) hq hq', unit'⟩ ∧
      printed unit' = some (factor', c) ∧ q * factor' = x := by
  have htext : (Number.finite x hexact hlt).text ++ String.singleton c =
      String.ofList (Nat.toDigits 10 (decimalOf x) ++ [c]) := by
    apply String.toList_injective
    rw [Number.text_of_lt hexact hlt hplain, String.toList_append, String.toList_ofList,
      String.toList_ofList, String.toList_singleton]
  rw [htext]
  refine parseTTL_spec Nat.toDigits_ne_nil (fun d hd => NumberText.isDigit_toDigits hd)
    (printed_spec hunit).2.1 ?_ hlt
  rw [Nat.ofDigitChars_ten_toDigits]
  exact round_decimalOf hexact

theorem parseTTL_of_plain (hunit : printed unit = some (factor, c)) (hexact : Exact x)
    (hlt : x < infinity) (hplain : x < 10 ^ 21) :
    ∃ ttl, parseTTL ((Number.finite x hexact hlt).text ++ String.singleton c) = .ok ttl := by
  obtain ⟨q, hq, hq', unit', factor', hparse, -⟩ := parseTTL_plain hunit hexact hlt hplain
  exact ⟨_, hparse⟩

/-- It lasts as long as it says. -/
theorem seconds_of_plain {ttl : ParsedTTL} (hunit : printed unit = some (factor, c))
    (hexact : Exact x) (hlt : x < infinity) (hplain : x < 10 ^ 21)
    (h : parseTTL ((Number.finite x hexact hlt).text ++ String.singleton c) = .ok ttl) :
    ttl.seconds = some ((x * secondsOfLetter c : Nat) : Int) := by
  obtain ⟨q, hq, hq', unit', factor', hparse, hunit', hmul⟩ :=
    parseTTL_plain hunit hexact hlt hplain
  cases hparse.symm.trans h
  unfold ParsedTTL.seconds
  dsimp only
  rw [(printed_spec hunit').2.2]
  show some ((q : Int) * ((factor' * secondsOfLetter c : Nat) : Int)) = _
  rw [← Int.natCast_mul, ← Nat.mul_assoc, hmul]

end

end Kotsadm.SnapshotTTL
