import Kotsadm.Lib.Split
import Mathlib.Data.List.Infix

/-!
# Path — slash separated paths, their normal form and where they lead

The paths of `path/filepath` of Go and of `path` of Node, over any alphabet with two signs.  A
place in the file system is the list of the names that lead to it from the root, the last one
first; links are not followed.  Normalising a path does not change where it leads, so a path below
a directory leads to where the names after it lead from there.
-/

/-- The signs of an alphabet that paths are made with. -/
structure PathSigns (α : Type*) where
  slash : α
  dot : α
  slash_ne_dot : slash ≠ dot

namespace PathSigns

variable {α : Type*} [DecidableEq α] (σ : PathSigns α)

abbrev Place (α : Type*) := List (List α)

/-- The name of the parent directory. -/
def dotdot : List α := [σ.dot, σ.dot]

/-- A name that leads one directory down. -/
def Name (part : List α) : Prop := part ≠ [] ∧ part ≠ [σ.dot] ∧ part ≠ σ.dotdot

instance (part : List α) : Decidable (σ.Name part) :=
  inferInstanceAs (Decidable (_ ∧ _))

def parts (path : List α) : List (List α) := path.splitOn σ.slash

def Rooted (path : List α) : Bool := path.head? = some σ.slash

/-! ## Where a path leads -/

/-- One part of a path; the parent of the root is the root. -/
def enter (place : Place α) (part : List α) : Place α :=
  if part = [] ∨ part = [σ.dot] then place
  else if part = σ.dotdot then place.tail
  else part :: place

def walk (place : Place α) (parts : List (List α)) : Place α := parts.foldl σ.enter place

/-- Where a path leads from the working directory. -/
def locate (cwd : Place α) (path : List α) : Place α :=
  σ.walk (if σ.Rooted path then [] else cwd) (σ.parts path)

/-! ## The normal form -/

/-- One part of a path that is normalised, with the parts before it, the last one first. -/
def simplify (rooted : Bool) (before : List (List α)) (part : List α) : List (List α) :=
  if part = [] ∨ part = [σ.dot] then before
  else if part = σ.dotdot then
    match before with
    | [] => if rooted then [] else [σ.dotdot]
    | last :: rest => if last = σ.dotdot then σ.dotdot :: before else rest
  else part :: before

def normalParts (rooted : Bool) (parts : List (List α)) : List (List α) :=
  parts.foldl (σ.simplify rooted) []

def joinParts (parts : List (List α)) : List α := [σ.slash].intercalate parts

/-- `filepath.Clean` -/
def clean (path : List α) : List α :=
  let body := σ.joinParts (σ.normalParts (σ.Rooted path) (σ.parts path)).reverse
  if σ.Rooted path then σ.slash :: body
  else if body = [] then [σ.dot]
  else body

/-- `path.normalize`, which keeps a slash at the end. -/
def normalize (path : List α) : List α :=
  if path.getLast? = some σ.slash ∧ σ.clean path ≠ [σ.slash] then σ.clean path ++ [σ.slash]
  else σ.clean path

/-- `filepath.Join` of a directory that is not empty. -/
def joinClean (dir path : List α) : List α := σ.clean (dir ++ σ.slash :: path)

/-- `path.join` of a directory that is not empty. -/
def joinNormalize (dir path : List α) : List α :=
  σ.normalize (if path = [] then dir else dir ++ σ.slash :: path)

/-! ## Normal forms lead to the same places -/

/-- Names, after steps to the parent if the path has no root. -/
def NormalForm (rooted : Bool) (before : List (List α)) : Prop :=
  ∃ names n, before = names ++ List.replicate n σ.dotdot ∧ (∀ name ∈ names, σ.Name name) ∧
    (rooted = true → n = 0)

section

variable {σ}

theorem slash_not_mem_dotdot : σ.slash ∉ σ.dotdot := by
  unfold dotdot
  simp [σ.slash_ne_dot]

theorem normalForm_nil (rooted : Bool) : σ.NormalForm rooted [] :=
  ⟨[], 0, rfl, nofun, fun _ => rfl⟩

/-- A part of a path is skipped, leads to the parent, or is a name. -/
theorem part_cases (part : List α) :
    (part = [] ∨ part = [σ.dot]) ∨ part = σ.dotdot ∨ σ.Name part := by
  by_cases hskip : part = [] ∨ part = [σ.dot]
  · exact .inl hskip
  · by_cases hparent : part = σ.dotdot
    · exact .inr (.inl hparent)
    · exact .inr (.inr ⟨fun h => hskip (.inl h), fun h => hskip (.inr h), hparent⟩)

theorem dotdot_not_skipped : ¬ (σ.dotdot = [] ∨ σ.dotdot = [σ.dot]) := by
  unfold dotdot
  simp

theorem Name.not_skipped {part : List α} (h : σ.Name part) : ¬ (part = [] ∨ part = [σ.dot]) :=
  fun hskip => hskip.elim h.1 h.2.1

theorem enter_skip {place : Place α} {part : List α} (h : part = [] ∨ part = [σ.dot]) :
    σ.enter place part = place := if_pos h

theorem enter_dotdot (place : Place α) : σ.enter place σ.dotdot = place.tail := by
  unfold enter
  rw [if_neg dotdot_not_skipped, if_pos rfl]

theorem enter_name {place : Place α} {part : List α} (h : σ.Name part) :
    σ.enter place part = part :: place := by
  unfold enter
  rw [if_neg h.not_skipped, if_neg h.2.2]

theorem walk_concat (place : Place α) (parts : List (List α)) (part : List α) :
    σ.walk place (parts ++ [part]) = σ.enter (σ.walk place parts) part := by
  unfold walk
  rw [List.foldl_append]
  rfl

theorem walk_append (place : Place α) (parts rest : List (List α)) :
    σ.walk place (parts ++ rest) = σ.walk (σ.walk place parts) rest := List.foldl_append

theorem normalForm_simplify {rooted : Bool} {before : List (List α)}
    (h : σ.NormalForm rooted before) (part : List α) :
    σ.NormalForm rooted (σ.simplify rooted before part) := by
  obtain ⟨names, n, rfl, hnames, hrooted⟩ := h
  unfold simplify
  rcases part_cases (σ := σ) part with hskip | rfl | hname
  · rw [if_pos hskip]
    exact ⟨names, n, rfl, hnames, hrooted⟩
  · rw [if_neg dotdot_not_skipped, if_pos rfl]
    cases names with
    | cons last names =>
      -- the last name goes
      have hlast : last ≠ σ.dotdot := (hnames last List.mem_cons_self).2.2
      rw [List.cons_append]
      dsimp only
      rw [if_neg hlast]
      exact ⟨names, n, rfl, fun name hname => hnames name (List.mem_cons_of_mem _ hname), hrooted⟩
    | nil =>
      cases n with
      | zero =>
        cases rooted with
        | true => exact normalForm_nil true
        | false => exact ⟨[], 1, rfl, nofun, nofun⟩
      | succ n =>
        rw [List.nil_append, List.replicate_succ]
        dsimp only
        rw [if_pos rfl]
        exact ⟨[], n + 2, rfl, nofun, fun hr => absurd (hrooted hr) (Nat.succ_ne_zero n)⟩
  · rw [if_neg hname.not_skipped, if_neg hname.2.2]
    refine ⟨part :: names, n, rfl, ?_, hrooted⟩
    exact List.forall_mem_cons.mpr ⟨hname, hnames⟩

/-- A part of the normal form leads where the part leads. -/
theorem walk_simplify {rooted : Bool} {before : List (List α)} {place : Place α}
    (h : σ.NormalForm rooted before) (hplace : rooted = true → place = []) (part : List α) :
    σ.walk place (σ.simplify rooted before part).reverse =
      σ.enter (σ.walk place before.reverse) part := by
  obtain ⟨names, n, rfl, hnames, hrooted⟩ := h
  unfold simplify
  rcases part_cases (σ := σ) part with hskip | rfl | hname
  · rw [if_pos hskip, enter_skip hskip]
  · rw [if_neg dotdot_not_skipped, if_pos rfl]
    cases names with
    | cons last names =>
      have hlast : σ.Name last := hnames last List.mem_cons_self
      rw [List.cons_append]
      dsimp only
      rw [if_neg hlast.2.2, List.reverse_cons, walk_concat, enter_name hlast, enter_dotdot,
        List.tail_cons]
    | nil =>
      cases n with
      | zero =>
        cases rooted with
        | true =>
          -- the parent of the root is the root
          rw [hplace rfl, enter_dotdot]
          rfl
        | false => rfl
      | succ n =>
        rw [List.nil_append, List.replicate_succ]
        dsimp only
        rw [if_pos rfl, List.reverse_cons, walk_concat]
  · rw [if_neg hname.not_skipped, if_neg hname.2.2, List.reverse_cons, walk_concat]

/-- Normalising the parts after `before`. -/
theorem foldl_simplify {rooted : Bool} {place : Place α} (hplace : rooted = true → place = [])
    (parts : List (List α)) {before : List (List α)} (h : σ.NormalForm rooted before) :
    σ.NormalForm rooted (parts.foldl (σ.simplify rooted) before) ∧
      σ.walk place (parts.foldl (σ.simplify rooted) before).reverse =
        σ.walk (σ.walk place before.reverse) parts := by
  induction parts generalizing before with
  | nil => exact ⟨h, rfl⟩
  | cons part parts ih =>
    obtain ⟨hnormal, hwalk⟩ := ih (normalForm_simplify h part)
    refine ⟨hnormal, ?_⟩
    rw [List.foldl_cons, hwalk, walk_simplify h hplace]
    rfl

theorem normalForm_normalParts (rooted : Bool) (parts : List (List α)) :
    σ.NormalForm rooted (σ.normalParts rooted parts) := by
  have hplace : rooted = true → ([] : Place α) = [] := fun _ => rfl
  exact (foldl_simplify hplace parts (normalForm_nil rooted)).1

theorem walk_normalParts {rooted : Bool} {place : Place α} (hplace : rooted = true → place = [])
    (parts : List (List α)) :
    σ.walk place (σ.normalParts rooted parts).reverse = σ.walk place parts :=
  (foldl_simplify hplace parts (normalForm_nil rooted)).2

/-! ## Splitting what was joined -/

/-- The parts of a normal form are not empty and hold no slash. -/
theorem NormalForm.part {rooted : Bool} {before : List (List α)} (h : σ.NormalForm rooted before)
    {part : List α} (hpart : part ∈ before) : part ≠ [] := by
  obtain ⟨names, n, rfl, hnames, -⟩ := h
  rcases List.mem_append.mp hpart with hname | hparent
  · exact (hnames part hname).1
  · rw [List.eq_of_mem_replicate hparent]
    exact fun h => dotdot_not_skipped (.inl h)

theorem slash_not_mem_simplify {rooted : Bool} {before : List (List α)} {part : List α}
    (hbefore : ∀ q ∈ before, σ.slash ∉ q) (hpart : σ.slash ∉ part) :
    ∀ q ∈ σ.simplify rooted before part, σ.slash ∉ q := by
  unfold simplify
  split
  · exact hbefore
  · split
    · split
      · split
        · exact nofun
        · exact List.forall_mem_singleton.mpr slash_not_mem_dotdot
      · split
        · exact List.forall_mem_cons.mpr ⟨slash_not_mem_dotdot, hbefore⟩
        · exact fun q hq => hbefore q (List.mem_cons_of_mem _ hq)
    · exact List.forall_mem_cons.mpr ⟨hpart, hbefore⟩

theorem slash_not_mem_normalParts (rooted : Bool) (path : List α) :
    ∀ q ∈ σ.normalParts rooted (σ.parts path), σ.slash ∉ q := by
  have hfold : ∀ (parts before : List (List α)), (∀ q ∈ parts, σ.slash ∉ q) →
      (∀ q ∈ before, σ.slash ∉ q) → ∀ q ∈ parts.foldl (σ.simplify rooted) before, σ.slash ∉ q := by
    intro parts
    induction parts with
    | nil => exact fun before _ hbefore => hbefore
    | cons part parts ih =>
      intro before hparts hbefore
      exact ih _ (fun q hq => hparts q (List.mem_cons_of_mem _ hq))
        (slash_not_mem_simplify hbefore (hparts part List.mem_cons_self))
  exact hfold _ _ (fun q hq => Split.not_mem_of_mem_splitOn hq) nofun

theorem parts_cons_slash (path : List α) : σ.parts (σ.slash :: path) = [] :: σ.parts path :=
  List.splitOn_append_cons_self [] path

theorem parts_append_slash (path rest : List α) :
    σ.parts (path ++ σ.slash :: rest) = σ.parts path ++ σ.parts rest :=
  List.splitOn_append_cons_self path rest

theorem walk_parts_nil (place : Place α) : σ.walk place (σ.parts []) = place :=
  enter_skip (σ := σ) (.inl rfl)

/-- Joined parts lead where the parts lead. -/
theorem walk_joinParts (place : Place α) {parts : List (List α)}
    (h : ∀ q ∈ parts, σ.slash ∉ q) :
    σ.walk place (σ.parts (σ.joinParts parts)) = σ.walk place parts := by
  cases parts with
  | nil => exact walk_parts_nil place
  | cons part parts =>
    unfold PathSigns.parts joinParts
    rw [List.splitOn_intercalate σ.slash h (List.cons_ne_nil part parts)]

/-- Parts that are not empty are not joined to a rooted path, nor to an empty one. -/
theorem rooted_joinParts {parts : List (List α)} (hslash : ∀ q ∈ parts, σ.slash ∉ q)
    (hempty : ∀ q ∈ parts, q ≠ []) :
    σ.Rooted (σ.joinParts parts) = false ∧ (σ.joinParts parts = [] → parts = []) := by
  cases parts with
  | nil => exact ⟨rfl, fun _ => rfl⟩
  | cons part parts =>
    cases part with
    | nil => exact absurd rfl (hempty [] List.mem_cons_self)
    | cons sign part =>
      have hsign : sign ≠ σ.slash := fun heq =>
        hslash (sign :: part) List.mem_cons_self (heq ▸ List.mem_cons_self)
      have hjoin : ∃ rest, σ.joinParts ((sign :: part) :: parts) = sign :: rest := by
        cases parts with
        | nil => exact ⟨part, List.intercalate_singleton⟩
        | cons next parts => exact ⟨_, List.intercalate_cons_cons⟩
      obtain ⟨rest, hrest⟩ := hjoin
      rw [hrest]
      refine ⟨?_, nofun⟩
      unfold Rooted
      simpa using hsign

/-! ## Where the functions lead -/

theorem clean_ne_nil (path : List α) : σ.clean path ≠ [] := by
  unfold clean
  dsimp only
  split
  · exact List.cons_ne_nil _ _
  · split
    · exact List.cons_ne_nil _ _
    next h => exact h

/-- Cleaning a path does not change where it leads. -/
theorem locate_clean (cwd : Place α) (path : List α) :
    σ.locate cwd (σ.clean path) = σ.locate cwd path := by
  have hslash : ∀ q ∈ (σ.normalParts (σ.Rooted path) (σ.parts path)).reverse, σ.slash ∉ q :=
    fun q hq => slash_not_mem_normalParts _ path q (List.mem_reverse.mp hq)
  have hempty : ∀ q ∈ (σ.normalParts (σ.Rooted path) (σ.parts path)).reverse, q ≠ [] :=
    fun q hq => (normalForm_normalParts _ _).part (List.mem_reverse.mp hq)
  obtain ⟨hunrooted, hnil⟩ := rooted_joinParts hslash hempty
  unfold clean
  dsimp only
  cases hrooted : σ.Rooted path with
  | true =>
    rw [hrooted] at hslash
    have hbody : σ.Rooted (σ.slash :: σ.joinParts (σ.normalParts true (σ.parts path)).reverse) =
        true := by
      unfold Rooted
      simp
    unfold locate
    rw [if_pos rfl, if_pos hbody, hrooted, if_pos rfl, parts_cons_slash]
    show σ.walk [] (σ.parts _) = _
    rw [walk_joinParts [] hslash, walk_normalParts fun _ => rfl]
  | false =>
    rw [hrooted] at hslash hunrooted hnil
    have hplace : false = true → cwd = [] := nofun
    have hwalk : σ.walk cwd (σ.normalParts false (σ.parts path)).reverse =
        σ.walk cwd (σ.parts path) := walk_normalParts hplace (σ.parts path)
    rw [if_neg Bool.false_ne_true]
    unfold locate
    rw [hrooted, if_neg Bool.false_ne_true]
    split
    next hbody =>
      have hdot : σ.Rooted [σ.dot] = false := by
        unfold Rooted
        simpa using σ.slash_ne_dot.symm
      have hparts : σ.parts [σ.dot] = [[σ.dot]] :=
        List.splitOn_eq_singleton (by simpa using σ.slash_ne_dot)
      rw [hdot, if_neg Bool.false_ne_true, hparts, ← hwalk, hnil hbody]
      exact enter_skip (.inr rfl)
    next hbody =>
      rw [hunrooted, if_neg Bool.false_ne_true, walk_joinParts cwd hslash, hwalk]

theorem rooted_append {path : List α} (h : path ≠ []) (rest : List α) :
    σ.Rooted (path ++ rest) = σ.Rooted path := by
  cases path with
  | nil => exact absurd rfl h
  | cons sign path => rfl

theorem locate_append {dir : List α} (h : dir ≠ []) (cwd : Place α) (path : List α) :
    σ.locate cwd (dir ++ σ.slash :: path) = σ.walk (σ.locate cwd dir) (σ.parts path) := by
  unfold locate
  rw [rooted_append h, parts_append_slash, walk_append]

/-- Nor does normalising it. -/
theorem locate_normalize (cwd : Place α) (path : List α) :
    σ.locate cwd (σ.normalize path) = σ.locate cwd path := by
  unfold normalize
  split
  · rw [locate_append (clean_ne_nil path), locate_clean]
    exact walk_parts_nil _
  · exact locate_clean cwd path

/-- A joined path leads where its second part leads from the directory. -/
theorem locate_joinClean {dir : List α} (h : dir ≠ []) (cwd : Place α) (path : List α) :
    σ.locate cwd (σ.joinClean dir path) = σ.walk (σ.locate cwd dir) (σ.parts path) := by
  unfold joinClean
  rw [locate_clean, locate_append h]

theorem locate_joinNormalize {dir : List α} (h : dir ≠ []) (cwd : Place α) (path : List α) :
    σ.locate cwd (σ.joinNormalize dir path) = σ.walk (σ.locate cwd dir) (σ.parts path) := by
  unfold joinNormalize
  rw [locate_normalize]
  split
  next hpath =>
    rw [hpath]
    exact (walk_parts_nil _).symm
  next => exact locate_append h cwd path

/-! ## Below a directory -/

variable (σ) in
/-- How often a path without a root leads to the parent first. -/
def climbs (path : List α) : Nat := (σ.normalParts false (σ.parts path)).count σ.dotdot

variable (σ) in
/-- The names after that, the last one first. -/
def names (path : List α) : Place α := (σ.normalParts false (σ.parts path)).filter (σ.Name ·)

theorem normalParts_eq (path : List α) :
    σ.normalParts false (σ.parts path) =
      σ.names path ++ List.replicate (σ.climbs path) σ.dotdot := by
  unfold climbs names
  obtain ⟨names, n, heq, hnames, -⟩ := normalForm_normalParts (σ := σ) false (σ.parts path)
  have hparent : ¬ σ.Name σ.dotdot := fun h => h.2.2 rfl
  have hcount : names.count σ.dotdot = 0 :=
    List.count_eq_zero.mpr fun hmem => hparent (hnames _ hmem)
  have hfilter : names.filter (σ.Name ·) = names :=
    List.filter_eq_self.mpr fun name hname => by simpa using hnames name hname
  rw [heq, List.count_append, hcount, List.count_replicate_self, List.filter_append, hfilter,
    List.filter_replicate_of_neg (by simpa using hparent), List.append_nil, Nat.zero_add]

theorem walk_replicate_dotdot (place : Place α) (n : Nat) :
    σ.walk place (List.replicate n σ.dotdot) = place.drop n := by
  induction n generalizing place with
  | zero => rfl
  | succ n ih =>
    rw [List.replicate_succ]
    show σ.walk (σ.enter place σ.dotdot) _ = _
    rw [enter_dotdot, ih, List.drop_tail]

theorem walk_names (place : Place α) {names : Place α} (h : ∀ name ∈ names, σ.Name name) :
    σ.walk place names.reverse = names ++ place := by
  induction names with
  | nil => rfl
  | cons name names ih =>
    rw [List.reverse_cons, walk_concat, ih fun q hq => h q (List.mem_cons_of_mem _ hq),
      enter_name (h name List.mem_cons_self), List.cons_append]

/-- A path leads to its names, from as many directories above as it climbs. -/
theorem walk_parts (place : Place α) (path : List α) :
    σ.walk place (σ.parts path) = σ.names path ++ place.drop (σ.climbs path) := by
  have hnames : ∀ name ∈ σ.names path, σ.Name name := fun name hname => by
    simpa using (List.mem_filter.mp hname).2
  have hfalse : false = true → place = [] := nofun
  rw [← walk_normalParts hfalse, normalParts_eq, List.reverse_append,
    List.reverse_replicate, walk_append, walk_replicate_dotdot, walk_names _ hnames]

omit [DecidableEq α] in
/-- A place below a directory that was left is reached by the names of the directory. -/
theorem suffix_append_drop (place names : Place α) (n : Nat) :
    place <:+ names ++ place.drop n ↔ place.take n <:+ names := by
  constructor
  · rintro ⟨front, hfront⟩
    refine ⟨front, ?_⟩
    have hsplit : front ++ place.take n ++ place.drop n = names ++ place.drop n := by
      rw [List.append_assoc, List.take_append_drop]
      exact hfront
    exact List.append_cancel_right hsplit
  · rintro ⟨front, rfl⟩
    refine ⟨front, ?_⟩
    rw [List.append_assoc, List.take_append_drop]

omit [DecidableEq α] in
theorem append_drop_suffix (place names : Place α) (n : Nat) :
    names ++ place.drop n <:+ place ↔ names <:+ place.take n := by
  constructor
  · rintro ⟨front, hfront⟩
    refine ⟨front, ?_⟩
    have hsplit : front ++ names ++ place.drop n = place.take n ++ place.drop n := by
      rw [List.append_assoc, List.take_append_drop]
      exact hfront
    exact List.append_cancel_right hsplit
  · rintro ⟨front, hfront⟩
    refine ⟨front, ?_⟩
    rw [← List.append_assoc, hfront, List.take_append_drop]

/-! ## The last sign of a path -/

theorem getLast?_joinParts {parts : List (List α)} (hslash : ∀ q ∈ parts, σ.slash ∉ q)
    (hempty : ∀ q ∈ parts, q ≠ []) : (σ.joinParts parts).getLast? ≠ some σ.slash := by
  induction parts with
  | nil => exact nofun
  | cons part parts ih =>
    have hpart : part.getLast? ≠ some σ.slash := fun hlast =>
      hslash part List.mem_cons_self (List.mem_of_getLast? hlast)
    cases parts with
    | nil =>
      unfold joinParts
      rw [List.intercalate_singleton]
      exact hpart
    | cons next parts =>
      have hrest := ih (fun q hq => hslash q (List.mem_cons_of_mem _ hq))
        fun q hq => hempty q (List.mem_cons_of_mem _ hq)
      have hne : σ.joinParts (next :: parts) ≠ [] := fun hnil =>
        absurd ((rooted_joinParts (fun q hq => hslash q (List.mem_cons_of_mem _ hq))
          fun q hq => hempty q (List.mem_cons_of_mem _ hq)).2 hnil) (List.cons_ne_nil _ _)
      unfold joinParts at hrest hne ⊢
      rw [List.intercalate_cons_cons, List.getLast?_append_of_ne_nil _ hne]
      exact hrest

/-- A clean path that ends with a slash is the root. -/
theorem clean_eq_root {path : List α} (h : (σ.clean path).getLast? = some σ.slash) :
    σ.clean path = [σ.slash] := by
  have hbody : (σ.joinParts (σ.normalParts (σ.Rooted path) (σ.parts path)).reverse).getLast? ≠
      some σ.slash :=
    getLast?_joinParts
      (fun q hq => slash_not_mem_normalParts _ path q (List.mem_reverse.mp hq))
      fun q hq => (normalForm_normalParts _ _).part (List.mem_reverse.mp hq)
  unfold clean at h ⊢
  dsimp only at h ⊢
  split
  next hrooted =>
    rw [if_pos hrooted] at h
    cases hjoin : σ.joinParts (σ.normalParts (σ.Rooted path) (σ.parts path)).reverse with
    | nil => rfl
    | cons sign rest =>
      rw [hjoin] at h hbody
      rw [List.getLast?_cons_cons] at h
      exact absurd h hbody
  next hrooted =>
    rw [if_neg hrooted] at h
    split at h
    next =>
      have hdot : σ.dot = σ.slash := Option.some.inj h
      exact absurd hdot.symm σ.slash_ne_dot
    next => exact absurd h hbody

theorem locate_root (cwd : Place α) : σ.locate cwd [σ.slash] = [] := by
  have hrooted : σ.Rooted [σ.slash] = true := by
    unfold Rooted
    simp
  unfold locate
  rw [if_pos hrooted, parts_cons_slash]
  exact walk_parts_nil _

end

end PathSigns
