import Kotsadm.Lib.GoBase64
import Kotsadm.Lib.Regexp
import Kotsadm.Operator.Requests

/-!
# StatusInformerString — the informers as they are written in an application

An informer is written as `kind/name` or as `namespace/kind/name`.  `Parse` matches a regular
expression whose first group is optional, and has to tell the two apart.
-/

namespace Kotsadm.AppState

open GoString

/-- `StatusInformer`, as bytes -/
structure StatusInformer.Text where
  kind : GoString
  name : GoString
  ns : GoString
  deriving DecidableEq, Repr

namespace StatusInformerString

/-! ## Parse -/

def slash : Rune → Bool
  | .char '/' => true
  | _ => false

/-- `[^\/]` -/
def notSlash (r : Rune) : Bool := !slash r

/-- `([^\/]+)` -/
def group (n : Nat) : Regexp Rune := .capture n (.letters notSlash)

/-- `StatusInformerRegexp`: `^(?:([^\/]+)\/)?([^\/]+)\/([^\/]+)$` -/
def statusInformerRegexp : Regexp Rune :=
  .seq .beginText <| .seq (.opt (.seq (group 1) (.letter slash))) <|
    .seq (group 2) <| .seq (.letter slash) <| .seq (group 3) .endText

/-- `StatusInformerRegexp.FindStringSubmatch` -/
def findStringSubmatch (s : GoString) : List GoString :=
  (statusInformerRegexp.findSubmatch (runes s)).map (List.flatMap Rune.bytes)

def parse (s : GoString) : Except GoString StatusInformer.Text :=
  match findStringSubmatch s with
  | [_, ns, kind, name] => .ok { ns, kind, name }
  | _ => .error (ascii "status informer format string incorrect")

example : parse (ascii "default/deploy/sentry-web") =
    .ok ⟨ascii "deploy", ascii "sentry-web", ascii "default"⟩ := by decide

/-! ## The grammar -/

/-- A part that is not empty and without the separator -/
def Part {α : Type*} (a : α) (xs : List α) : Prop := xs ≠ [] ∧ a ∉ xs

instance {α : Type*} [DecidableEq α] (a : α) (xs : List α) : Decidable (Part a xs) :=
  inferInstanceAs (Decidable (_ ∧ _))

/-- Two or three parts with single separators between them, where no namespace is the empty one -/
def Parts {α : Type*} (a : α) (xs ns kind name : List α) : Prop :=
  Part a kind ∧ Part a name ∧
    (ns = [] ∧ xs = kind ++ a :: name ∨ Part a ns ∧ xs = ns ++ a :: (kind ++ a :: name))

/-- The string consists of the parts of the informer, with slashes between them. -/
def Spells (s : GoString) (i : StatusInformer.Text) : Prop := Parts 47 s i.ns i.kind i.name

/-- An informer as it is written -/
def render (i : StatusInformer.Text) : GoString :=
  if i.ns = [] then i.kind ++ 47 :: i.name else i.ns ++ 47 :: (i.kind ++ 47 :: i.name)

/-! ## What the expression matches -/

section

variable {rs ns kind name rest : List Rune} {t t' : Regexp.Thread Rune} {n : Nat}

theorem slash_eq_true {r : Rune} : slash r = true ↔ r = .char '/' := by
  unfold slash
  split
  next => exact iff_of_true rfl rfl
  next h => exact iff_of_false Bool.false_ne_true h

theorem forall_notSlash : (∀ r ∈ rs, notSlash r = true) ↔ .char '/' ∉ rs := by
  unfold notSlash
  constructor
  · intro h hmem
    have hslash := h _ hmem
    rw [slash_eq_true.mpr rfl] at hslash
    cases hslash
  · intro h r hr
    rw [Bool.not_eq_true', Bool.eq_false_iff, Ne, slash_eq_true]
    rintro rfl
    exact h hr

/-- A group takes a part. -/
theorem matches_group : (group n).Matches t t' ↔ ∃ part rest, part ≠ [] ∧ .char '/' ∉ part ∧
    t.rest = part ++ rest ∧ t' = (t.read part rest).capture n part := by
  have htake : ∀ part rest : List Rune, t.rest = part ++ rest →
      t.between (t.read part rest) = part := by
    intro part rest hrest
    unfold Regexp.Thread.between Regexp.Thread.read
    rw [hrest, List.length_append, Nat.add_sub_cancel, List.take_left]
  constructor
  · rintro ⟨mid, ⟨part, rest, hne, hall, hrest, rfl⟩, rfl⟩
    rw [htake part rest hrest]
    exact ⟨part, rest, hne, forall_notSlash.mp hall, hrest, rfl⟩
  · rintro ⟨part, rest, hne, hall, hrest, rfl⟩
    refine ⟨t.read part rest, ⟨part, rest, hne, forall_notSlash.mpr hall, hrest, rfl⟩, ?_⟩
    rw [htake part rest hrest]

theorem matches_slash : (Regexp.letter slash).Matches t t' ↔
    ∃ rest, t.rest = .char '/' :: rest ∧ t' = t.read [.char '/'] rest := by
  constructor
  · rintro ⟨r, rest, hr, hrest, rfl⟩
    obtain rfl := slash_eq_true.mp hr
    exact ⟨rest, hrest, rfl⟩
  · rintro ⟨rest, hrest, rfl⟩
    exact ⟨_, rest, slash_eq_true.mpr rfl, hrest, rfl⟩

/-- The last two parts. -/
theorem matches_kindAndName :
    (Regexp.seq (group 2) (.seq (.letter slash) (.seq (group 3) .endText))).Matches t t' ↔
      ∃ kind name, kind ≠ [] ∧ .char '/' ∉ kind ∧ name ≠ [] ∧ .char '/' ∉ name ∧
        t.rest = kind ++ .char '/' :: name ∧
        t' = ⟨t.pos + kind.length + 1 + name.length, [],
          Function.update (Function.update t.groups 2 kind) 3 name⟩ := by
  constructor
  · rintro ⟨afterKind, hkind, afterSlash, hslash, afterName, hname, hend, rfl⟩
    obtain ⟨kind, rest, hkindNe, hkindPart, hrest, rfl⟩ := matches_group.mp hkind
    obtain ⟨rest', hrest', rfl⟩ := matches_slash.mp hslash
    obtain ⟨name, rest'', hnameNe, hnamePart, hrest'', rfl⟩ := matches_group.mp hname
    have hnil : rest'' = [] := hend
    have hslashRest : rest = .char '/' :: rest' := hrest'
    have hname' : rest' = name ++ rest'' := hrest''
    subst hnil
    rw [List.append_nil] at hname'
    subst hname' hslashRest
    exact ⟨kind, rest', hkindNe, hkindPart, hnameNe, hnamePart, hrest, rfl⟩
  · rintro ⟨kind, name, hkindNe, hkindPart, hnameNe, hnamePart, hrest, rfl⟩
    refine ⟨(t.read kind (.char '/' :: name)).capture 2 kind,
      matches_group.mpr ⟨kind, _, hkindNe, hkindPart, hrest, rfl⟩, _,
      matches_slash.mpr ⟨name, rfl, rfl⟩, _,
      matches_group.mpr ⟨name, [], hnameNe, hnamePart, (List.append_nil name).symm, rfl⟩, rfl, rfl⟩

theorem matches_statusInformerRegexp :
    statusInformerRegexp.Matches (.start 0 rs) t' ↔ ∃ ns kind name, Parts (.char '/') rs ns kind name ∧
      t' = ⟨rs.length, [], Function.update (Function.update
        (Function.update (fun _ => []) 1 ns) 2 kind) 3 name⟩ := by
  constructor
  · rintro ⟨begin, ⟨-, rfl⟩, mid, ⟨afterNs, hgroup, hletter⟩ | rfl, hrest⟩
    · obtain ⟨ns, rest, hnsNe, hnsPart, hns, rfl⟩ := matches_group.mp hgroup
      obtain ⟨rest', hslash, rfl⟩ := matches_slash.mp hletter
      obtain ⟨kind, name, hkindNe, hkindPart, hnameNe, hnamePart, hparts, rfl⟩ :=
        matches_kindAndName.mp hrest
      have hrs : rs = ns ++ rest := hns
      have hrest' : rest = .char '/' :: rest' := hslash
      have hrest'' : rest' = kind ++ .char '/' :: name := hparts
      subst hrest'' hrest' hrs
      refine ⟨ns, kind, name,
        ⟨⟨hkindNe, hkindPart⟩, ⟨hnameNe, hnamePart⟩, .inr ⟨⟨hnsNe, hnsPart⟩, rfl⟩⟩, ?_⟩
      simp only [Regexp.Thread.read, Regexp.Thread.capture, Regexp.Thread.start,
        List.length_append, List.length_cons, List.length_nil]
      congr 1
      omega
    · obtain ⟨kind, name, hkindNe, hkindPart, hnameNe, hnamePart, hparts, rfl⟩ :=
        matches_kindAndName.mp hrest
      have hrs : rs = kind ++ .char '/' :: name := hparts
      subst hrs
      refine ⟨[], kind, name,
        ⟨⟨hkindNe, hkindPart⟩, ⟨hnameNe, hnamePart⟩, .inl ⟨rfl, rfl⟩⟩, ?_⟩
      rw [Function.update_eq_self 1 (fun _ : Nat => ([] : List Rune))]
      simp only [Regexp.Thread.start, List.length_append, List.length_cons]
      congr 1
      omega
  · rintro ⟨ns, kind, name, ⟨hkind, hname, ⟨rfl, rfl⟩ | ⟨hns, rfl⟩⟩, rfl⟩
    · refine ⟨_, ⟨rfl, rfl⟩, _, .inr rfl, matches_kindAndName.mpr
        ⟨kind, name, hkind.1, hkind.2, hname.1, hname.2, rfl, ?_⟩⟩
      rw [Function.update_eq_self 1 (fun _ : Nat => ([] : List Rune))]
      simp only [Regexp.Thread.start, List.length_append, List.length_cons]
      congr 1
      omega
    · refine ⟨_, ⟨rfl, rfl⟩, _, .inl ⟨_, matches_group.mpr ⟨ns, _, hns.1, hns.2, rfl, rfl⟩,
        matches_slash.mpr ⟨_, rfl, rfl⟩⟩, matches_kindAndName.mpr
        ⟨kind, name, hkind.1, hkind.2, hname.1, hname.2, rfl, ?_⟩⟩
      simp only [Regexp.Thread.read, Regexp.Thread.capture, Regexp.Thread.start,
        List.length_append, List.length_cons, List.length_nil]
      congr 1
      omega

end

/-! ## Parts and strings.Split -/

section

variable {α : Type*} [DecidableEq α] {a : α} {xs ns kind name ns' kind' name' : List α}

theorem parts_iff_splitOn : Parts a xs ns kind name ↔ kind ≠ [] ∧ name ≠ [] ∧
    (ns = [] ∧ xs.splitOn a = [kind, name] ∨ ns ≠ [] ∧ xs.splitOn a = [ns, kind, name]) := by
  rw [Split.splitOn_eq_pair, Split.splitOn_eq_triple]
  unfold Parts Part
  tauto

/-- There is one way to read the parts. -/
theorem Parts.unique (h : Parts a xs ns kind name) (h' : Parts a xs ns' kind' name') :
    ns = ns' ∧ kind = kind' ∧ name = name' := by
  obtain ⟨-, -, ⟨hns, hsplit⟩ | ⟨-, hsplit⟩⟩ := parts_iff_splitOn.mp h <;>
    obtain ⟨-, -, ⟨hns', hsplit'⟩ | ⟨-, hsplit'⟩⟩ := parts_iff_splitOn.mp h' <;>
    rw [hsplit] at hsplit'
  · cases hsplit'
    exact ⟨hns.trans hns'.symm, rfl, rfl⟩
  · cases hsplit'
  · cases hsplit'
  · cases hsplit'
    exact ⟨rfl, rfl, rfl⟩

theorem exists_parts_iff : (∃ ns kind name, Parts a xs ns kind name) ↔
    ((xs.splitOn a).length = 2 ∨ (xs.splitOn a).length = 3) ∧ [] ∉ xs.splitOn a := by
  constructor
  · rintro ⟨ns, kind, name, h⟩
    obtain ⟨hkind, hname, ⟨-, hsplit⟩ | ⟨hns, hsplit⟩⟩ := parts_iff_splitOn.mp h
    · rw [hsplit]
      exact ⟨.inl rfl, by simp [hkind.symm, hname.symm]⟩
    · rw [hsplit]
      exact ⟨.inr rfl, by simp [hns.symm, hkind.symm, hname.symm]⟩
  · rintro ⟨hlength | hlength, hnil⟩
    · obtain ⟨kind, name, hsplit⟩ := List.length_eq_two.mp hlength
      rw [hsplit] at hnil
      refine ⟨[], kind, name, parts_iff_splitOn.mpr ⟨?_, ?_, .inl ⟨rfl, hsplit⟩⟩⟩
      · rintro rfl
        exact hnil List.mem_cons_self
      · rintro rfl
        exact hnil (by simp)
    · obtain ⟨ns, kind, name, hsplit⟩ := List.length_eq_three.mp hlength
      rw [hsplit] at hnil
      refine ⟨ns, kind, name, parts_iff_splitOn.mpr ⟨?_, ?_, .inr ⟨?_, hsplit⟩⟩⟩
      · rintro rfl
        exact hnil (by simp)
      · rintro rfl
        exact hnil (by simp)
      · rintro rfl
        exact hnil List.mem_cons_self

end

/-! ## Bytes -/

def bytes (rs : List Rune) : GoString := rs.flatMap Rune.bytes

theorem bytes_eq_nil {rs : List Rune} : bytes rs = [] ↔ rs = [] := by
  unfold bytes
  rw [List.flatMap_eq_nil_iff]
  constructor
  · intro h
    cases rs with
    | nil => rfl
    | cons r rs =>
      have hr := h r List.mem_cons_self
      cases r with
      | char c => exact absurd hr String.utf8EncodeChar_ne_nil
      | invalid b => cases hr
  · rintro rfl r hr
    cases hr

section

variable {s : GoString} {i : StatusInformer.Text} {ns kind name : List Rune}

theorem splitOn_slash (s : GoString) : s.splitOn 47 = ((runes s).splitOn (.char '/')).map bytes :=
  splitOn_runes (a := '/') (by decide) s

/-- The parts of the runes are those of the string. -/
theorem Parts.bytes (h : Parts (.char '/') (runes s) ns kind name) :
    Parts 47 s (bytes ns) (bytes kind) (bytes name) := by
  obtain ⟨hkind, hname, hparts⟩ := parts_iff_splitOn.mp h
  refine parts_iff_splitOn.mpr ⟨mt bytes_eq_nil.mp hkind, mt bytes_eq_nil.mp hname, ?_⟩
  rw [splitOn_slash]
  rcases hparts with ⟨rfl, hsplit⟩ | ⟨hns, hsplit⟩
  · rw [hsplit]
    exact .inl ⟨rfl, rfl⟩
  · rw [hsplit]
    exact .inr ⟨mt bytes_eq_nil.mp hns, rfl⟩

theorem exists_parts_runes : (∃ ns kind name, Parts 47 s ns kind name) ↔
    ∃ ns kind name, Parts (.char '/') (runes s) ns kind name := by
  rw [exists_parts_iff, exists_parts_iff, splitOn_slash, List.length_map, List.mem_map]
  simp only [bytes_eq_nil, exists_eq_right]

/-- Where the runes have parts, these are what `Parse` returns. -/
theorem parse_of_parts (h : ∃ ns kind name, Parts (.char '/') (runes s) ns kind name) :
    ∃ ns kind name, Parts (.char '/') (runes s) ns kind name ∧
      parse s = .ok ⟨bytes kind, bytes name, bytes ns⟩ := by
  obtain ⟨ns, kind, name, h⟩ := h
  obtain ⟨t', hfind⟩ :=
    Regexp.exists_find (matches_statusInformerRegexp.mpr ⟨ns, kind, name, h, rfl⟩)
  obtain ⟨skipped, htext, hstart, hmatch⟩ := Regexp.matches_of_find hfind
  obtain ⟨ns, kind, name, h, rfl⟩ := matches_statusInformerRegexp.mp hmatch
  refine ⟨ns, kind, name, h, ?_⟩
  unfold parse findStringSubmatch Regexp.findSubmatch
  rw [hfind]
  rfl

/-- The expression matches nothing else, wherever the match would start. -/
theorem parse_of_not_parts (h : ¬ ∃ ns kind name, Parts (.char '/') (runes s) ns kind name) :
    parse s = .error (ascii "status informer format string incorrect") := by
  have hfind : statusInformerRegexp.find 0 (runes s) = none := by
    cases hfind : statusInformerRegexp.find 0 (runes s) with
    | none => rfl
    | some found =>
      obtain ⟨t, t'⟩ := found
      obtain ⟨skipped, htext, hstart, hmatch⟩ := Regexp.matches_of_find hfind
      -- `^` only matches at the start
      have hpos : t.pos = 0 := by
        obtain ⟨mid, ⟨hpos, -⟩, -⟩ := hmatch
        exact hpos
      have hskipped : skipped = [] := by
        rw [hstart] at hpos
        exact List.length_eq_zero_iff.mp ((Nat.zero_add _).symm.trans hpos)
      rw [hskipped, List.nil_append] at htext
      rw [hstart, htext, hskipped] at hmatch
      obtain ⟨ns, kind, name, hparts, -⟩ := matches_statusInformerRegexp.mp hmatch
      exact absurd ⟨ns, kind, name, hparts⟩ h
  unfold parse findStringSubmatch Regexp.findSubmatch
  rw [hfind]
  rfl

theorem parse_eq_ok : parse s = .ok i ↔ Spells s i := by
  by_cases hparts : ∃ ns kind name, Parts (.char '/') (runes s) ns kind name
  · obtain ⟨ns, kind, name, hparts, hparse⟩ := parse_of_parts hparts
    rw [hparse, Except.ok.injEq]
    constructor
    · rintro rfl
      exact hparts.bytes
    · intro h
      obtain ⟨hns, hkind, hname⟩ := hparts.bytes.unique h
      rw [hns, hkind, hname]
  · rw [parse_of_not_parts hparts]
    refine iff_of_false nofun fun h => hparts ?_
    exact exists_parts_runes.mp ⟨i.ns, i.kind, i.name, h⟩

end

theorem spells_render {i : StatusInformer.Text} (hkind : Part 47 i.kind) (hname : Part 47 i.name)
    (hns : 47 ∉ i.ns) : Spells (render i) i := by
  unfold render
  split
  next hnil => exact ⟨hkind, hname, .inl ⟨hnil, rfl⟩⟩
  next hne => exact ⟨hkind, hname, .inr ⟨⟨hne, hns⟩, rfl⟩⟩

/-- **Parse accepts its grammar.**  It succeeds exactly on two or three parts that are not empty,
with single slashes between them, and returns the parts; and it reads back what an informer is
written as. -/
theorem parse_exactly (s : GoString) :
    ((∃ i, parse s = .ok i) ↔
      ((s.splitOn 47).length = 2 ∨ (s.splitOn 47).length = 3) ∧ [] ∉ s.splitOn 47) ∧
    (∀ i, parse s = .ok i ↔ Spells s i) ∧
    ∀ i : StatusInformer.Text, Part 47 i.kind → Part 47 i.name → 47 ∉ i.ns →
      parse (render i) = .ok i := by
  refine ⟨?_, fun i => parse_eq_ok, fun i hkind hname hns =>
    parse_eq_ok.mpr (spells_render hkind hname hns)⟩
  rw [← exists_parts_iff]
  constructor
  · rintro ⟨i, h⟩
    exact ⟨i.ns, i.kind, i.name, parse_eq_ok.mp h⟩
  · rintro ⟨ns, kind, name, h⟩
    exact ⟨⟨kind, name, ns⟩, parse_eq_ok.mpr h⟩

theorem parse_exactly_deploy :
    parse (ascii "deploy/sentry-web") = .ok ⟨ascii "deploy", ascii "sentry-web", []⟩ :=
  (parse_exactly []).2.2 ⟨ascii "deploy", ascii "sentry-web", []⟩ (by decide) (by decide) (by decide)

/-! ## The handler's Parse -/

/-- The informer of the handler, as bytes -/
def text (i : StatusInformer) : StatusInformer.Text :=
  ⟨ofChars i.kind.toList, ofChars i.name.toList, ofChars i.ns.toList⟩

theorem ofChars_eq_nil {cs : List Char} : ofChars cs = [] ↔ cs = [] := by
  constructor
  · exact fun h => ofChars_inj (t := []) h
  · rintro rfl
    rfl

theorem requestsParse_eq_some {s : String} {i : StatusInformer} :
    Requests.parse s = some i ↔ Parts '/' s.toList i.ns.toList i.kind.toList i.name.toList := by
  obtain ⟨kind, name, ns⟩ := i
  rw [parts_iff_splitOn]
  unfold Requests.parse
  dsimp only
  split
  next kind' name' hsplit =>
    rw [hsplit, Option.ite_none_right_eq_some, Option.some.injEq, StatusInformer.mk.injEq]
    constructor
    · rintro ⟨⟨hkind, hname⟩, rfl, rfl, rfl⟩
      simp [hkind, hname]
    · rintro ⟨hkind, hname, ⟨hns, hparts⟩ | ⟨-, hparts⟩⟩
      · cases hparts
        rw [String.toList_eq_nil_iff] at hns
        simp [hkind, hname, hns]
      · cases hparts
  next ns' kind' name' hsplit =>
    rw [hsplit, Option.ite_none_right_eq_some, Option.some.injEq, StatusInformer.mk.injEq]
    constructor
    · rintro ⟨⟨hns, hkind, hname⟩, rfl, rfl, rfl⟩
      simp [hkind, hname, hns]
    · rintro ⟨hkind, hname, ⟨-, hparts⟩ | ⟨hns, hparts⟩⟩
      · cases hparts
      · cases hparts
        simp [hkind, hname, hns]
  next hpair htriple =>
    refine iff_of_false nofun ?_
    rintro ⟨-, -, ⟨-, hparts⟩ | ⟨-, hparts⟩⟩
    · exact hpair _ _ hparts
    · exact htriple _ _ _ hparts

/-- What the handlers of the requests parse is what the expression matches. -/
theorem parse_requests (s : String) (i : StatusInformer) :
    Requests.parse s = some i ↔ parse (ofChars s.toList) = .ok (text i) := by
  have hsplit : (ofChars s.toList).splitOn 47 = (s.toList.splitOn '/').map ofChars :=
    splitOn_ofChars (a := '/') (by decide) s.toList
  have hpair : ∀ cs ds : List Char, [ofChars cs, ofChars ds] = [cs, ds].map ofChars :=
    fun _ _ => rfl
  have htriple : ∀ cs ds es : List Char,
      [ofChars cs, ofChars ds, ofChars es] = [cs, ds, es].map ofChars := fun _ _ _ => rfl
  have hinj : Function.Injective (List.map ofChars) :=
    List.map_injective_iff.mpr fun _ _ => ofChars_inj
  rw [requestsParse_eq_some, parse_eq_ok, Spells, parts_iff_splitOn, parts_iff_splitOn, hsplit]
  unfold text
  rw [Ne, Ne, Ne, Ne, Ne, Ne, ofChars_eq_nil, ofChars_eq_nil, ofChars_eq_nil, htriple, hpair,
    hinj.eq_iff, hinj.eq_iff]

end StatusInformerString

end Kotsadm.AppState
