import Mathlib.Data.List.Basic
import Mathlib.Logic.Function.Basic

/-!
# Regexp — matching with submatches

A regular expression is matched by backtracking: the ways to go on are tried in an order, and the
first one that leads to a match counts.  `Matches` says which ways there are, whatever the order.
The letters are those of any alphabet, and `^` and `$` stand for the ends of the text.
-/

/-- Only classes of letters are repeated here. -/
inductive Regexp (α : Type*) where
  -- one letter of a class
  | letter (p : α → Bool)
  -- one or more letters of a class, as many as possible
  | letters (p : α → Bool)
  -- a part that is matched if possible
  | opt (r : Regexp α)
  | seq (r s : Regexp α)
  -- the submatch of a number
  | capture (n : Nat) (r : Regexp α)
  | beginText
  | endText

namespace Regexp

variable {α : Type*}

/-- How far a match has come. -/
structure Thread (α : Type*) where
  pos : Nat
  rest : List α
  groups : Nat → List α

def Thread.start (pos : Nat) (rest : List α) : Thread α := ⟨pos, rest, fun _ => []⟩

/-- The letters `xs` are read. -/
def Thread.read (t : Thread α) (xs rest : List α) : Thread α :=
  { t with pos := t.pos + xs.length, rest := rest }

/-- The text between two threads of a match -/
def Thread.between (t t' : Thread α) : List α := t.rest.take (t.rest.length - t'.rest.length)

def Thread.capture (t : Thread α) (n : Nat) (text : List α) : Thread α :=
  { t with groups := Function.update t.groups n text }

/-! ## The search -/

/-- What is left after each number of letters of the class, the greatest number first. -/
def prefixes (p : α → Bool) : List α → List (List α × List α)
  | [] => []
  | x :: rest =>
    if p x then (prefixes p rest).map (fun (xs, rest) => (x :: xs, rest)) ++ [([x], rest)] else []

/-- The ways to match, the preferred one first. -/
def run : Regexp α → Thread α → List (Thread α)
  | letter p, t =>
    match t.rest with
    | [] => []
    | x :: rest => if p x then [t.read [x] rest] else []
  | letters p, t => (prefixes p t.rest).map fun (xs, rest) => t.read xs rest
  | opt r, t => r.run t ++ [t]
  | seq r s, t => (r.run t).flatMap s.run
  | capture n r, t => (r.run t).map fun t' => t'.capture n (t.between t')
  | beginText, t => if t.pos = 0 then [t] else []
  | endText, t => if t.rest = [] then [t] else []

/-- The leftmost match: where it starts and where it ends. -/
def find (r : Regexp α) (pos : Nat) (text : List α) : Option (Thread α × Thread α) :=
  match r.run (.start pos text) with
  | t :: _ => some (.start pos text, t)
  | [] =>
    match text with
    | [] => none
    | _ :: rest => find r (pos + 1) rest

def numSubexp : Regexp α → Nat
  | opt r => r.numSubexp
  | seq r s => r.numSubexp + s.numSubexp
  | capture _ r => r.numSubexp + 1
  | _ => 0

/-- `FindStringSubmatch`: the match and the submatches, nothing where there is no match.  A submatch
that takes no part in the match is empty. -/
def findSubmatch (r : Regexp α) (text : List α) : List (List α) :=
  match r.find 0 text with
  | none => []
  | some (t, t') => t.between t' :: (List.range r.numSubexp).map fun n => t'.groups (n + 1)

/-! ## The meaning -/

/-- The ways to match -/
def Matches : Regexp α → Thread α → Thread α → Prop
  | letter p, t, t' => ∃ x rest, p x ∧ t.rest = x :: rest ∧ t' = t.read [x] rest
  | letters p, t, t' =>
    ∃ xs rest, xs ≠ [] ∧ (∀ x ∈ xs, p x) ∧ t.rest = xs ++ rest ∧ t' = t.read xs rest
  | opt r, t, t' => r.Matches t t' ∨ t' = t
  | seq r s, t, t' => ∃ mid, r.Matches t mid ∧ s.Matches mid t'
  | capture n r, t, t' => ∃ mid, r.Matches t mid ∧ t' = mid.capture n (t.between mid)
  | beginText, t, t' => t.pos = 0 ∧ t' = t
  | endText, t, t' => t.rest = [] ∧ t' = t

section

variable {p : α → Bool} {r s : Regexp α} {t t' : Thread α} {n pos : Nat}
  {xs rest text : List α}

theorem mem_prefixes :
    (xs, rest) ∈ prefixes p text ↔ xs ≠ [] ∧ (∀ x ∈ xs, p x) ∧ text = xs ++ rest := by
  induction text generalizing xs with
  | nil =>
    refine ⟨fun h => (List.not_mem_nil h).elim, ?_⟩
    rintro ⟨hne, -, htext⟩
    exact absurd (List.append_eq_nil_iff.mp htext.symm).1 hne
  | cons x text ih =>
    rw [prefixes]
    by_cases hx : p x
    · rw [if_pos hx, List.mem_append, List.mem_map, List.mem_singleton]
      constructor
      · rintro (⟨⟨ys, rest'⟩, hmem, heq⟩ | heq)
        · obtain ⟨rfl, rfl⟩ := Prod.mk.inj heq
          obtain ⟨-, hall, rfl⟩ := ih.mp hmem
          exact ⟨List.cons_ne_nil _ _, List.forall_mem_cons.mpr ⟨hx, hall⟩, rfl⟩
        · obtain ⟨rfl, rfl⟩ := Prod.mk.inj heq
          exact ⟨List.cons_ne_nil _ _, List.forall_mem_cons.mpr ⟨hx, fun _ h => nomatch h⟩, rfl⟩
      · rintro ⟨hne, hall, htext⟩
        cases xs with
        | nil => exact absurd rfl hne
        | cons y ys =>
          obtain ⟨rfl, htail⟩ := List.cons.inj htext
          by_cases hys : ys = []
          · right
            rw [hys, htail, hys]
            rfl
          · left
            have hmem := ih.mpr ⟨hys, (List.forall_mem_cons.mp hall).2, htail⟩
            exact ⟨(ys, rest), hmem, rfl⟩
    · rw [if_neg hx]
      refine ⟨fun h => (List.not_mem_nil h).elim, ?_⟩
      rintro ⟨hne, hall, htext⟩
      cases xs with
      | nil => exact absurd rfl hne
      | cons y ys =>
        obtain ⟨rfl, -⟩ := List.cons.inj htext
        exact absurd (hall x List.mem_cons_self) hx

/-- The search finds the ways there are. -/
theorem mem_run : t' ∈ r.run t ↔ r.Matches t t' := by
  induction r generalizing t t' with
  | letter p =>
    rw [run, Matches]
    cases hrest : t.rest with
    | nil =>
      refine ⟨fun h => (List.not_mem_nil h).elim, ?_⟩
      rintro ⟨x, rest, -, hcons, -⟩
      cases hcons
    | cons x rest =>
      dsimp only
      by_cases hx : p x
      · rw [if_pos hx, List.mem_singleton]
        constructor
        · rintro rfl
          exact ⟨x, rest, hx, rfl, rfl⟩
        · rintro ⟨y, rest', -, heq, rfl⟩
          obtain ⟨rfl, rfl⟩ := List.cons.inj heq
          rfl
      · rw [if_neg hx]
        refine ⟨fun h => (List.not_mem_nil h).elim, ?_⟩
        rintro ⟨y, rest', hy, heq, -⟩
        obtain ⟨rfl, -⟩ := List.cons.inj heq
        exact absurd hy hx
  | letters p =>
    rw [run, Matches, List.mem_map]
    constructor
    · rintro ⟨⟨xs, rest⟩, hmem, rfl⟩
      obtain ⟨hne, hall, hrest⟩ := mem_prefixes.mp hmem
      exact ⟨xs, rest, hne, hall, hrest, rfl⟩
    · rintro ⟨xs, rest, hne, hall, hrest, rfl⟩
      exact ⟨(xs, rest), mem_prefixes.mpr ⟨hne, hall, hrest⟩, rfl⟩
  | opt r ih => rw [run, Matches, List.mem_append, List.mem_singleton, ih]
  | seq r s ihr ihs =>
    rw [run, Matches, List.mem_flatMap]
    exact exists_congr fun mid => and_congr ihr ihs
  | capture n r ih =>
    rw [run, Matches, List.mem_map]
    exact exists_congr fun mid => and_congr ih eq_comm
  | beginText =>
    rw [run, Matches]
    split
    next h => rw [List.mem_singleton, and_iff_right h]
    next h => exact ⟨fun hmem => (List.not_mem_nil hmem).elim, fun hmatch => absurd hmatch.1 h⟩
  | endText =>
    rw [run, Matches]
    split
    next h => rw [List.mem_singleton, and_iff_right h]
    next h => exact ⟨fun hmem => (List.not_mem_nil hmem).elim, fun hmatch => absurd hmatch.1 h⟩

/-- What is found is a match of the end of the text from its start on. -/
theorem matches_of_find (h : r.find pos text = some (t, t')) :
    ∃ skipped, skipped ++ t.rest = text ∧ t = .start (pos + skipped.length) t.rest ∧
      r.Matches t t' := by
  induction text generalizing pos with
  | nil =>
    rw [find] at h
    split at h
    next first others hrun =>
      cases h
      exact ⟨[], rfl, rfl, mem_run.mp (hrun ▸ List.mem_cons_self)⟩
    next => cases h
  | cons x text ih =>
    rw [find] at h
    split at h
    next first others hrun =>
      cases h
      exact ⟨[], rfl, rfl, mem_run.mp (hrun ▸ List.mem_cons_self)⟩
    next =>
      obtain ⟨skipped, htext, hstart, hmatch⟩ := ih h
      refine ⟨x :: skipped, congrArg (x :: ·) htext, ?_, hmatch⟩
      rw [List.length_cons, Nat.add_comm skipped.length, ← Nat.add_assoc]
      exact hstart

/-- A match at the start is not overlooked. -/
theorem exists_find (h : r.Matches (.start pos text) t') :
    ∃ t', r.find pos text = some (.start pos text, t') := by
  have hmem := mem_run.mpr h
  cases hrun : r.run (.start pos text) with
  | nil =>
    rw [hrun] at hmem
    cases hmem
  | cons first others =>
    refine ⟨first, ?_⟩
    rw [find.eq_def, hrun]

end

end Regexp
