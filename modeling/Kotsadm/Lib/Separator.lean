import Mathlib.Data.List.Basic
import Mathlib.Data.List.Infix

/-!
# Separator — splitting at a separator, and joining with it

`splitAt sep` cuts a list at the occurrences of `sep` from left to right, and `List.intercalate sep`
puts the parts together again.  Joining what was split gives back the list.  Splitting what was
joined gives back the parts only if no separator begins in a part: `Pieces` says so, holds of what
was split, and goes over to every selection of the parts.
-/

namespace Separator

variable {α : Type*} [DecidableEq α] (sep : List α)

/-- `skip` elements are still part of the last separator, and `part` was read since then, last
element first. -/
def splitFrom : (skip : Nat) → (part : List α) → List α → List (List α)
  | _, part, [] => [part.reverse]
  | skip + 1, part, _ :: s => splitFrom skip part s
  | 0, part, a :: s =>
    if sep <+: a :: s then part.reverse :: splitFrom (sep.length - 1) [] s
    else splitFrom 0 (a :: part) s

/-- The parts between the separators; there is always one. -/
def splitAt (s : List α) : List (List α) := splitFrom sep 0 [] s

/-- No separator begins in the part when `rest` comes after it. -/
def NoneBegins (rest : List α) : List α → Prop
  | [] => True
  | a :: part => ¬ sep <+: a :: part ++ rest ∧ NoneBegins rest part

/-- Parts that are cut at the separators between them, and nowhere else. -/
def Pieces : List (List α) → Prop
  | [] => True
  | [part] => NoneBegins sep [] part
  | part :: next :: parts => NoneBegins sep sep part ∧ Pieces (next :: parts)

variable {sep}

section

omit [DecidableEq α]

theorem NoneBegins.mono {rest rest' part : List α} (h : NoneBegins sep rest part)
    (hbegins : rest' <+: rest) : NoneBegins sep rest' part := by
  induction part with
  | nil => trivial
  | cons a part ih =>
    refine ⟨fun hsep => h.1 (hsep.trans ?_), ih h.2⟩
    exact (List.prefix_append_right_inj (a :: part)).mpr hbegins

/-- A part that goes on by one element. -/
theorem NoneBegins.concat {part s : List α} {a : α} (h : NoneBegins sep (a :: s) part)
    (ha : ¬ sep <+: a :: s) : NoneBegins sep s (part ++ [a]) := by
  induction part with
  | nil => exact ⟨ha, trivial⟩
  | cons b part ih =>
    have hsame : b :: (part ++ [a]) ++ s = b :: part ++ (a :: s) := by simp
    have hb : ¬ sep <+: b :: (part ++ [a]) ++ s := by
      rw [hsame]
      exact h.1
    exact ⟨hb, ih h.2⟩

/-- A selection of pieces consists of pieces. -/
theorem Pieces.sublist {parts parts' : List (List α)} (h : Pieces sep parts)
    (hsub : parts'.Sublist parts) : Pieces sep parts' := by
  induction parts generalizing parts' with
  | nil =>
    cases hsub
    trivial
  | cons part parts ih =>
    have htail : Pieces sep parts := by
      cases parts with
      | nil => trivial
      | cons next parts => exact h.2
    cases hsub with
    | cons _ hsub => exact ih htail hsub
    | cons_cons _ hsub =>
      next selected =>
      -- what was selected after this part
      have hselected := ih htail hsub
      cases parts with
      | nil =>
        cases hsub
        exact h
      | cons next parts =>
        cases selected with
        | nil => exact h.1.mono List.nil_prefix
        | cons other selected => exact ⟨h.1, hselected⟩

end

/-! ## Splitting -/

theorem splitFrom_skip (part : List α) (skip : Nat) (s : List α) :
    splitFrom sep skip part s = splitFrom sep 0 part (s.drop skip) := by
  induction skip generalizing s with
  | zero => rfl
  | succ skip ih =>
    cases s with
    | nil => rfl
    | cons a s => exact ih s

theorem splitFrom_last {part : List α} (h : NoneBegins sep [] part) (read : List α) :
    splitFrom sep 0 read part = [read.reverse ++ part] := by
  induction part generalizing read with
  | nil => simp [splitFrom]
  | cons a part ih =>
    have hno : ¬ sep <+: a :: part := by simpa using h.1
    rw [splitFrom, if_neg hno, ih h.2]
    simp

/-- The separator after a part ends it. -/
theorem splitFrom_next (hsep : sep ≠ []) {part : List α} (h : NoneBegins sep sep part)
    (read s : List α) :
    splitFrom sep 0 read (part ++ sep ++ s) = (read.reverse ++ part) :: splitAt sep s := by
  induction part generalizing read with
  | nil =>
    obtain ⟨a, rest, rfl⟩ := List.exists_cons_of_ne_nil hsep
    have hbegins : a :: rest <+: a :: (rest ++ s) := List.prefix_append (a :: rest) s
    rw [List.nil_append, List.cons_append, splitFrom, if_pos hbegins, splitFrom_skip]
    simp [splitAt]
  | cons a part ih =>
    have hno : ¬ sep <+: a :: (part ++ sep ++ s) := by
      intro hbegins
      have hlong : a :: part ++ sep <+: a :: (part ++ sep ++ s) := List.prefix_append _ s
      refine h.1 (List.prefix_of_prefix_length_le hbegins hlong ?_)
      rw [List.length_append]
      omega
    rw [List.cons_append, List.cons_append, splitFrom, if_neg hno, ih h.2]
    simp

/-- Splitting what was joined from pieces. -/
theorem splitAt_intercalate (hsep : sep ≠ []) {parts : List (List α)} (h : Pieces sep parts)
    (hparts : parts ≠ []) : splitAt sep (sep.intercalate parts) = parts := by
  induction parts with
  | nil => exact absurd rfl hparts
  | cons part parts ih =>
    cases parts with
    | nil =>
      rw [List.intercalate_singleton]
      exact splitFrom_last h []
    | cons next parts =>
      rw [List.intercalate_cons_cons, splitAt, splitFrom_next hsep h.1,
        ih h.2 (List.cons_ne_nil _ _)]
      rfl

/-! ## What was split -/

theorem splitFrom_ne_nil (skip : Nat) (part s : List α) : splitFrom sep skip part s ≠ [] := by
  induction s generalizing skip part with
  | nil => simp [splitFrom]
  | cons a s ih =>
    cases skip with
    | succ skip => exact ih skip part
    | zero =>
      rw [splitFrom]
      split
      · exact List.cons_ne_nil _ _
      · exact ih 0 _

/-- Joining what was split. -/
theorem intercalate_splitFrom (hsep : sep ≠ []) (part s : List α) :
    sep.intercalate (splitFrom sep 0 part s) = part.reverse ++ s := by
  induction hlength : s.length using Nat.strong_induction_on generalizing part s with
  | h n ih =>
    cases s with
    | nil => simp [splitFrom]
    | cons a s =>
      rw [List.length_cons] at hlength
      rw [splitFrom]
      split
      next hbegins =>
        obtain ⟨rest, hrest⟩ := hbegins
        obtain ⟨b, sep', rfl⟩ := List.exists_cons_of_ne_nil hsep
        obtain ⟨rfl, rfl⟩ : b = a ∧ sep' ++ rest = s := by simpa using hrest
        have hshort : rest.length < n := by
          rw [List.length_append] at hlength
          omega
        have hjoin := ih rest.length hshort [] rest rfl
        rw [splitFrom_skip]
        have hdrop : (sep' ++ rest).drop ((b :: sep').length - 1) = rest := by simp
        rw [hdrop]
        obtain ⟨next, parts, hparts⟩ :=
          List.exists_cons_of_ne_nil (splitFrom_ne_nil 0 [] rest)
        rw [hparts] at hjoin ⊢
        rw [List.intercalate_cons_cons, hjoin]
        simp
      next =>
        rw [ih s.length (by omega) (a :: part) s rfl]
        simp

theorem intercalate_splitAt (hsep : sep ≠ []) (s : List α) :
    sep.intercalate (splitAt sep s) = s := intercalate_splitFrom hsep [] s

theorem pieces_splitFrom (part s : List α)
    (hpart : NoneBegins sep s part.reverse) : Pieces sep (splitFrom sep 0 part s) := by
  induction hlength : s.length using Nat.strong_induction_on generalizing part s with
  | h n ih =>
    cases s with
    | nil => exact hpart
    | cons a s =>
      rw [List.length_cons] at hlength
      rw [splitFrom]
      split
      next hbegins =>
        have hdrop : (s.drop (sep.length - 1)).length < n := by
          rw [List.length_drop]
          omega
        have hrest := ih _ hdrop [] (s.drop (sep.length - 1)) trivial rfl
        rw [splitFrom_skip]
        obtain ⟨next, parts, hparts⟩ :=
          List.exists_cons_of_ne_nil (splitFrom_ne_nil 0 [] (s.drop (sep.length - 1)))
        rw [hparts] at hrest ⊢
        exact ⟨hpart.mono hbegins, hrest⟩
      next hno =>
        refine ih s.length (by omega) (a :: part) s ?_ rfl
        rw [List.reverse_cons]
        exact hpart.concat hno

theorem pieces_splitAt (s : List α) : Pieces sep (splitAt sep s) := pieces_splitFrom [] s trivial

/-- Selected parts of what was split are split again after they are joined. -/
theorem splitAt_sublist (hsep : sep ≠ []) {s : List α} {parts : List (List α)}
    (hsub : parts.Sublist (splitAt sep s)) (hparts : parts ≠ []) :
    splitAt sep (sep.intercalate parts) = parts :=
  splitAt_intercalate hsep ((pieces_splitAt s).sublist hsub) hparts

end Separator
