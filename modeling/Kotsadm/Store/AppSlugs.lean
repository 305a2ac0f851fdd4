import Kotsadm.Lib.Machine
import Kotsadm.Lib.Processes
import Kotsadm.Lib.Reorder
import Kotsadm.Store.Server

/-!
# AppSlugs — the slugs of apps that are created at the same time

`Create` and `createKotsApp` count the rows with a slug before they insert theirs.  Nothing keeps
another creation from counting in between: the table has no constraint, and a row is not seen
before it is committed.
-/

namespace Kotsadm.AppSlugs

/-! ## Creations -/

/-- The function that creates an app: `Create` of the Go package, or `createKotsApp`. -/
inductive Function
  | create
  | createKotsApp
  deriving DecidableEq, Repr

structure Request where
  function : Function
  -- random
  id : AppId
  name : String
  upstreamURI : String
  license : String
  isAirgapEnabled : Bool
  deriving DecidableEq, Repr

inductive Phase
  -- before the count of the proposal of a number
  | counting (i : Nat)
  -- before the insert
  | found (slug : String)
  -- before the commit
  | inserted (slug : String)
  | created
  | failed
  deriving DecidableEq, Repr

structure Creation extends Request where
  phase : Phase
  deriving DecidableEq, Repr

def replicatedPrefix : List Char := "replicated://".toList

/-- Only `createKotsApp` ignores the case of the scheme. -/
def Request.isReplicated (request : Request) : Bool :=
  match request.function with
  | .create => replicatedPrefix.isPrefixOf request.upstreamURI.toList
  | .createKotsApp => replicatedPrefix.isPrefixOf (request.upstreamURI.toList.map Char.toLower)

def Request.row (request : Request) (slug : String) : AppRow where
  id := request.id
  name := request.name
  iconUri := ""
  slug := slug
  license := request.license
  installState :=
    if request.isReplicated then
      if request.isAirgapEnabled then .airgapUploadPending else .onlineUploadPending
    else .installed

/-- A name is missing for `createKotsApp` only. -/
def Request.start (request : Request) : Creation where
  toRequest := request
  phase := if request.function = .createKotsApp ∧ request.name = "" then .failed else .counting 0

/-- `name.replace(/\./g, "-")` -/
def dashes (name : String) : String :=
  String.ofList (name.toList.map fun c => if c = '.' then '-' else c)

section

-- `slug.Make`, and `slugify` with the option `lower`
variable (make slugify : String → String)

/-- The slug that is counted in round `i`.  `Create` replaces no dot, and makes a slug of the name
in the first round only. -/
def Request.proposal (request : Request) (i : Nat) : String :=
  match request.function with
  | .create => if i = 0 then make request.name else request.name ++ "-" ++ toString i
  | .createKotsApp =>
    let slug := slugify (dashes request.name)
    if i = 0 then slug else slug ++ "-" ++ toString i

/-- `select count(1) as count from app where slug = $1` -/
def countSlug (db : Database) (slug : String) : Nat := db.app.rows.countP fun r => r.slug = slug

def Creation.count (db : Database) (c : Creation) : Option Creation :=
  match c.phase with
  | .counting i =>
    let slug := c.proposal make slugify i
    some { c with phase := if countSlug db slug = 0 then .found slug else .counting (i + 1) }
  | _ => none

end

def Creation.insert (db : Database) (c : Creation) : Option Creation :=
  match c.phase with
  | .found slug =>
    some { c with phase := if (db.app.find? c.id).isSome then .failed else .inserted slug }
  | _ => none

/-- The row is seen by others from now on. -/
def Creation.commit (db : Database) (c : Creation) : Option (Creation × Database) :=
  match c.phase with
  | .inserted slug =>
    match db.app.insert? (c.row slug) with
    | none => some ({ c with phase := .failed }, db)
    | some app => some ({ c with phase := .created }, { db with app })
  | _ => none

/-- A query fails, and the transaction is rolled back. -/
def Creation.fail (c : Creation) : Option Creation :=
  match c.phase with
  | .counting _ | .found _ | .inserted _ => some { c with phase := .failed }
  | .created | .failed => none

/-- The slug that the creation has found and not committed -/
def Creation.slug (c : Creation) : Option String :=
  match c.phase with
  | .found slug | .inserted slug => some slug
  | _ => none

/-! ## The system -/

structure State where
  db : Database
  creations : List Creation := []

inductive Action
  | start (request : Request)
  | count (k : Nat)
  | insert (k : Nat)
  | commit (k : Nat)
  | fail (k : Nat)
  deriving DecidableEq, Repr

/-- A creation takes a step of its own. -/
def State.advance (s : State) (k : Nat) (next : Creation → Option (Creation × Database)) :
    Option State := do
  let c ← s.creations[k]?
  let (c, db) ← next c
  return { db, creations := s.creations.set k c }

section

variable (make slugify : String → String)

def step (s : State) : Action → Option State
  | .start request => some { s with creations := s.creations ++ [request.start] }
  | .count k => s.advance k fun c => (c.count make slugify s.db).map fun c => (c, s.db)
  | .insert k => s.advance k fun c => (c.insert s.db).map fun c => (c, s.db)
  | .commit k => s.advance k fun c => c.commit s.db
  | .fail k => s.advance k fun c => c.fail.map fun c => (c, s.db)

def machine : Machine State Action := ⟨step make slugify⟩

/-- The slug that the count of a creation finds -/
def State.finds (s : State) (k : Nat) : Option String := do
  let c ← s.creations[k]?
  let c ← c.count make slugify s.db
  c.slug

/-- No two rows have the same slug. -/
def Unique (db : Database) : Prop := (db.app.rows.map AppRow.slug).Nodup

/-- Some apps, none of them in the making. -/
def Init (s : State) : Prop := Unique s.db ∧ s.creations = []

/-- A count finds a slug only when no other creation has found it and is not committed. -/
def Guard (s : State) : Action → Prop
  | .count k => ∀ slug ∈ s.finds make slugify k, ∀ c ∈ s.creations.eraseIdx k, c.slug ≠ some slug
  | _ => True

instance (s : State) (a : Action) : Decidable (Guard make slugify s a) :=
  match a with
  | .count k => inferInstanceAs (Decidable
      (∀ slug ∈ s.finds make slugify k, ∀ c ∈ s.creations.eraseIdx k, c.slug ≠ some slug))
  | .start _ | .insert _ | .commit _ | .fail _ => inferInstanceAs (Decidable True)

end

/-! ## Lookups -/

/-- The first row of `select id from app where slug = $1`, for the order in which the database
returns the rows: the id for `getIdFromSlug` and for `GetFromSlug`. -/
def selectId (o : Reorder AppRow) (db : Database) (slug : String) : Option AppId :=
  ((o.apply (db.app.rows.filter fun r => r.slug = slug)).head?).map (·.id)

def Unambiguous (db : Database) : Prop :=
  ∀ slug o o', selectId o db slug = selectId o' db slug

theorem length_filter_slug {db : Database} (h : Unique db) (slug : String) :
    (db.app.rows.filter fun r => r.slug = slug).length ≤ 1 := by
  have hnodup := (List.filter_sublist (p := fun r : AppRow => r.slug = slug)
    (l := db.app.rows)).map AppRow.slug |>.nodup h
  have hslug : ∀ r ∈ db.app.rows.filter fun r => r.slug = slug, r.slug = slug :=
    fun r hr => of_decide_eq_true (List.mem_filter.mp hr).2
  match hrows : db.app.rows.filter fun r => r.slug = slug with
  | [] =>
    rw [hrows]
    exact Nat.zero_le 1
  | [_] =>
    rw [hrows]
    exact Nat.le_refl 1
  | first :: second :: rest =>
    rw [hrows] at hnodup hslug
    rw [List.map_cons, List.map_cons, List.nodup_cons, hslug first List.mem_cons_self,
      hslug second (List.mem_cons_of_mem _ List.mem_cons_self)] at hnodup
    exact absurd List.mem_cons_self hnodup.1

theorem unambiguous_of_unique {db : Database} (h : Unique db) : Unambiguous db := by
  intro slug o o'
  unfold selectId
  have hlength := length_filter_slug h slug
  have hperm := (o.perm (db.app.rows.filter fun r => r.slug = slug)).trans
    (o'.perm (db.app.rows.filter fun r => r.slug = slug)).symm
  have heq : o.apply (db.app.rows.filter fun r => r.slug = slug) =
      o'.apply (db.app.rows.filter fun r => r.slug = slug) := by
    have hleft := (o.perm (db.app.rows.filter fun r => r.slug = slug)).length_eq
    have hright := (o'.perm (db.app.rows.filter fun r => r.slug = slug)).length_eq
    match hx : o.apply (db.app.rows.filter fun r => r.slug = slug) with
    | [] =>
      rw [hx] at hperm
      exact (List.nil_perm.mp hperm).symm
    | [r] =>
      rw [hx] at hperm
      exact List.singleton_perm.mp hperm
    | _ :: _ :: _ =>
      rw [hx] at hleft
      simp only [List.length_cons] at hleft
      omega
  rw [heq]

/-! ## What a step does -/

section

variable {make slugify : String → String} {s s' : State} {a : Action} {k : Nat} {c c' : Creation}
  {db db' : Database} {slug : String}

theorem advance_eq_some {next : Creation → Option (Creation × Database)}
    (h : s.advance k next = some s') : ∃ c c', s.creations[k]? = some c ∧
      next c = some (c', s'.db) ∧ s'.creations = s.creations.set k c' := by
  unfold State.advance at h
  obtain ⟨c, hc, h⟩ := Option.bind_eq_some_iff.mp h
  obtain ⟨⟨c', db⟩, hnext, h⟩ := Option.bind_eq_some_iff.mp h
  cases h
  exact ⟨c, c', hc, hnext, rfl⟩

theorem count_spec (h : c.count make slugify db = some c') (hslug : c'.slug = some slug) :
    ∀ r ∈ db.app.rows, r.slug ≠ slug := by
  unfold Creation.count at h
  split at h
  next i hphase =>
    cases h
    unfold Creation.slug at hslug
    dsimp only at hslug
    split at hslug
    next found hfound =>
      split at hfound
      next hzero =>
        cases hfound
        cases hslug
        intro r hr heq
        have hnone := List.countP_eq_zero.mp hzero r hr
        exact hnone (decide_eq_true heq)
      next => cases hfound
    next found hfound =>
      split at hfound <;> cases hfound
    next => cases hslug
  next => cases h

theorem insert_spec (h : c.insert db = some c') (hslug : c'.slug = some slug) :
    c.slug = some slug := by
  unfold Creation.insert at h
  split at h
  next found hphase =>
    cases h
    unfold Creation.slug at hslug ⊢
    rw [hphase]
    dsimp only at hslug ⊢
    split at hslug
    next other hother => split at hother <;> cases hother
    next other hother =>
      split at hother
      next => cases hother
      next =>
        cases hother
        exact hslug
    next => cases hslug
  next => cases h

theorem fail_spec (h : c.fail = some c') : c'.slug = none := by
  unfold Creation.fail at h
  split at h <;> first | cases h; rfl | cases h

theorem commit_spec (h : c.commit db = some (c', db')) : c'.slug = none ∧
    (db' = db ∨ ∃ slug, c.slug = some slug ∧ db'.app.rows = db.app.rows ++ [c.row slug]) := by
  unfold Creation.commit at h
  split at h
  next slug hphase =>
    split at h
    next =>
      cases h
      exact ⟨rfl, .inl rfl⟩
    next app hinsert =>
      cases h
      refine ⟨rfl, .inr ⟨slug, ?_, (Keyed.insert?_eq_some hinsert).1⟩⟩
      unfold Creation.slug
      rw [hphase]
  next => cases h

/-- A request starts, a creation goes on without a row being seen, or its row is seen. -/
theorem step_cases (h : step make slugify s a = some s') :
    (∃ request, a = .start request ∧ s' = { s with creations := s.creations ++ [request.start] }) ∨
    ∃ k c c', s.creations[k]? = some c ∧ s'.creations = s.creations.set k c' ∧
      (s'.db = s.db ∧ (∀ slug, c'.slug = some slug → c.slug = some slug ∨
          a = .count k ∧ s.finds make slugify k = some slug ∧ ∀ r ∈ s.db.app.rows, r.slug ≠ slug) ∨
        c'.slug = none ∧ ∃ slug, c.slug = some slug ∧
          s'.db.app.rows = s.db.app.rows ++ [c.row slug]) := by
  cases a with
  | start request => exact .inl ⟨request, rfl, (Option.some.inj h).symm⟩
  | count k =>
    obtain ⟨c, c', hc, hnext, hset⟩ := advance_eq_some h
    obtain ⟨counted, hcount, heq⟩ := Option.map_eq_some_iff.mp hnext
    obtain ⟨rfl, hdb⟩ := Prod.mk.inj heq
    refine .inr ⟨k, c, counted, hc, hset, .inl ⟨hdb.symm, fun slug hslug => .inr ⟨rfl, ?_, ?_⟩⟩⟩
    · unfold State.finds
      rw [hc]
      exact Option.bind_eq_some_iff.mpr
        ⟨c, rfl, Option.bind_eq_some_iff.mpr ⟨counted, hcount, hslug⟩⟩
    · exact count_spec hcount hslug
  | insert k =>
    obtain ⟨c, c', hc, hnext, hset⟩ := advance_eq_some h
    obtain ⟨inserted, hinsert, heq⟩ := Option.map_eq_some_iff.mp hnext
    obtain ⟨rfl, hdb⟩ := Prod.mk.inj heq
    exact .inr ⟨k, c, inserted, hc, hset, .inl ⟨hdb.symm, fun _ hslug =>
      .inl (insert_spec hinsert hslug)⟩⟩
  | commit k =>
    obtain ⟨c, c', hc, hnext, hset⟩ := advance_eq_some h
    obtain ⟨hnone, hdb | hrow⟩ := commit_spec hnext
    · refine .inr ⟨k, c, c', hc, hset, .inl ⟨hdb, fun slug hslug => ?_⟩⟩
      rw [hnone] at hslug
      cases hslug
    · exact .inr ⟨k, c, c', hc, hset, .inr ⟨hnone, hrow⟩⟩
  | fail k =>
    obtain ⟨c, c', hc, hnext, hset⟩ := advance_eq_some h
    obtain ⟨failed, hfail, heq⟩ := Option.map_eq_some_iff.mp hnext
    obtain ⟨rfl, hdb⟩ := Prod.mk.inj heq
    refine .inr ⟨k, c, failed, hc, hset, .inl ⟨hdb.symm, fun slug hslug => ?_⟩⟩
    rw [fail_spec hfail] at hslug
    cases hslug

end

/-! ## The invariant -/

/-- What a creation has found is free. -/
def Free (db : Database) (c : Creation) : Prop :=
  ∀ slug, c.slug = some slug → ∀ r ∈ db.app.rows, r.slug ≠ slug

def Apart (c c' : Creation) : Prop := ∀ slug, c.slug = some slug → c'.slug ≠ some slug

theorem Apart.symm {c c' : Creation} (h : Apart c c') : Apart c' c :=
  fun slug hslug hslug' => h slug hslug' hslug

abbrev Inv (s : State) : Prop := Processes.Inv Unique Free Apart s.db s.creations

section

variable {make slugify : String → String} {s s' : State} {a : Action}

theorem slug_start (request : Request) : request.start.slug = none := by
  unfold Request.start Creation.slug
  dsimp only
  split
  next h => split at h <;> cases h
  next h => split at h <;> cases h
  next => rfl

theorem unique_concat {db db' : Database} {row : AppRow} (h : Unique db)
    (hrows : db'.app.rows = db.app.rows ++ [row]) (hfree : ∀ r ∈ db.app.rows, r.slug ≠ row.slug) :
    Unique db' := by
  unfold Unique
  rw [hrows, List.map_append, List.map_singleton, List.nodup_append]
  refine ⟨h, List.nodup_singleton _, ?_⟩
  intro slug hslug slug' hslug'
  obtain ⟨r, hr, rfl⟩ := List.mem_map.mp hslug
  rw [List.mem_singleton.mp hslug']
  exact hfree r hr

/-- **The step.** -/
theorem Inv.step (h : Inv s) (hguard : Guard make slugify s a)
    (hstep : AppSlugs.step make slugify s a = some s') : Inv s' := by
  rcases step_cases hstep with ⟨request, rfl, rfl⟩ | ⟨k, c, c', hc, hset, ⟨hdb, hslug⟩ | ⟨hnone, hrow⟩⟩
  · refine h.concat (fun _ _ => Apart.symm) ?_ ?_
    · intro slug hslug
      rw [slug_start] at hslug
      cases hslug
    · intro q _ _ slug hslug
      rw [slug_start] at hslug
      cases hslug
  · -- no row is seen: what is found is free, and only this creation has found it
    unfold Inv
    rw [hset, hdb]
    refine h.setAt (fun _ _ => Apart.symm) hc h.good ?_ fun j q hj hq hfree happart => ⟨hfree, ?_⟩
    · intro slug hslug'
      rcases hslug slug hslug' with hold | ⟨-, -, hfree⟩
      · exact h.each k c hc slug hold
      · exact hfree
    · intro slug hslug'
      rcases hslug slug hslug' with hold | ⟨rfl, hfinds, -⟩
      · exact happart slug hold
      · exact hguard slug hfinds q (List.mem_eraseIdx_iff_getElem?.mpr ⟨j, hj, hq⟩)
  · -- the row is one that no other creation has found
    obtain ⟨slug, hslug, hrows⟩ := hrow
    unfold Inv
    rw [hset]
    refine h.setAt (fun _ _ => Apart.symm) hc
      (unique_concat h.good hrows (h.each k c hc slug hslug)) ?_ fun j q hj hq hfree happart => ⟨?_, ?_⟩
    · intro other hother
      rw [hnone] at hother
      cases hother
    · intro other hother r hr
      rw [hrows] at hr
      rcases List.mem_append.mp hr with hr | hr
      · exact hfree other hother r hr
      · rw [List.mem_singleton.mp hr]
        rintro rfl
        exact happart _ hslug hother
    · intro other hother
      rw [hnone] at hother
      cases hother

theorem inv_of_reachable (hs : (machine make slugify).Reachable Init (Guard make slugify) s) :
    Inv s := by
  have hinv : (machine make slugify).EveryState Init (Guard make slugify) Inv := by
    refine Machine.everyState_of_inv ?_ fun s a s' hinv hguard hstep => hinv.step hguard hstep
    rintro s ⟨hunique, hnil⟩
    unfold Inv
    rw [hnil]
    exact Processes.inv_nil hunique
  exact hinv s hs

end

/-- **When slugs identify apps.**  In every run in which no count finds a slug that another creation
has found and not committed, no two rows have the same slug, and a slug is looked up the same in
every order of the rows. -/
theorem slugs_unique {make slugify : String → String} {s : State}
    (hs : (machine make slugify).Reachable Init (Guard make slugify) s) :
    Unique s.db ∧ Unambiguous s.db :=
  ⟨(inv_of_reachable hs).good, unambiguous_of_unique (inv_of_reachable hs).good⟩

/-! ## Where creations overlap -/

section

variable {make slugify : String → String} {s : State} {k j : Nat} {c d : Creation} {slug : String}

theorem advance_of {next : Creation → Option (Creation × Database)} {c' : Creation} {db : Database}
    (hc : s.creations[k]? = some c) (hnext : next c = some (c', db)) :
    s.advance k next = some { db, creations := s.creations.set k c' } := by
  unfold State.advance
  rw [hc, Option.bind_eq_bind, Option.bind_some, hnext]
  rfl

/-- A creation that has found a slug can commit it. -/
theorem exists_commit (make slugify : String → String) (hc : s.creations[k]? = some c)
    (hslug : c.slug = some slug) (hid : s.db.app.find? c.id = none) :
    ∃ as s' c', (machine make slugify).run s as = some s' ∧
      s'.db.app.rows = s.db.app.rows ++ [c.row slug] ∧ s'.creations = s.creations.set k c' := by
  have hcommit : ∀ {s : State} {c : Creation}, s.creations[k]? = some c →
      c.phase = .inserted slug → s.db.app.find? c.id = none →
      ∃ s', step make slugify s (.commit k) = some s' ∧
        s'.db.app.rows = s.db.app.rows ++ [c.row slug] ∧
        s'.creations = s.creations.set k { c with phase := .created } := by
    intro s c hc hphase hid
    cases hinsert : s.db.app.insert? (c.row slug) with
    | none =>
      have htaken := Keyed.insert?_eq_none.mp hinsert
      rw [show (c.row slug).key = c.id from rfl, hid] at htaken
      cases htaken
    | some app =>
      have hnext : c.commit s.db = some ({ c with phase := .created }, { s.db with app }) := by
        unfold Creation.commit
        rw [hphase]
        dsimp only
        rw [hinsert]
      exact ⟨_, advance_of hc hnext, (Keyed.insert?_eq_some hinsert).1, rfl⟩
  unfold Creation.slug at hslug
  split at hslug
  next found hphase =>
    cases hslug
    have hnext : c.insert s.db = some { c with phase := .inserted slug } := by
      unfold Creation.insert
      rw [hphase]
      dsimp only
      rw [hid, Option.isSome_none, if_neg Bool.false_ne_true]
    have hinsert : step make slugify s (.insert k) =
        some { s with creations := s.creations.set k { c with phase := .inserted slug } } :=
      advance_of hc (congrArg (Option.map fun c => (c, s.db)) hnext)
    have hlt := (List.getElem?_eq_some_iff.mp hc).1
    obtain ⟨s', hs', hrows, hset⟩ := hcommit (s := { s with
      creations := s.creations.set k { c with phase := .inserted slug } })
      (List.getElem?_set_self hlt) rfl hid
    refine ⟨[.insert k, .commit k], s', _, ?_, hrows, hset.trans (List.set_set _)⟩
    rw [Machine.run_cons, show (machine make slugify).step s (.insert k) = _ from hinsert,
      Option.bind_some, Machine.run_cons, show (machine make slugify).step _ (.commit k) = _ from hs']
    rfl
  next found hphase =>
    cases hslug
    obtain ⟨s', hs', hrows, hset⟩ := hcommit hc hphase hid
    refine ⟨[.commit k], s', _, ?_, hrows, hset⟩
    rw [Machine.run_cons, show (machine make slugify).step s (.commit k) = _ from hs']
    rfl
  next => cases hslug

/-- **The other direction.**  When a count finds the slug of another creation, both may commit it.
The ids are random, so they differ and are not taken. -/
theorem exists_not_unique (hc : s.creations[k]? = some c) (hd : s.creations[j]? = some d)
    (hjk : j ≠ k) (hfinds : s.finds make slugify k = some slug) (hslug : d.slug = some slug)
    (hids : c.id ≠ d.id) (hcid : s.db.app.find? c.id = none) (hdid : s.db.app.find? d.id = none) :
    ∃ as s', (machine make slugify).run s as = some s' ∧ ¬ Unique s'.db := by
  unfold State.finds at hfinds
  rw [hc, Option.bind_eq_bind, Option.bind_some] at hfinds
  obtain ⟨found, hcount, hfound⟩ := Option.bind_eq_some_iff.mp hfinds
  have hid : found.id = c.id := by
    unfold Creation.count at hcount
    split at hcount
    next =>
      cases hcount
      rfl
    next => cases hcount
  have hstep : step make slugify s (.count k) =
      some { s with creations := s.creations.set k found } :=
    advance_of hc (congrArg (Option.map fun c => (c, s.db)) hcount)
  have hlt := (List.getElem?_eq_some_iff.mp hc).1
  -- the other creation commits first
  obtain ⟨as, s₁, d', hrun, hrows, hset⟩ := exists_commit make slugify
    (s := { s with creations := s.creations.set k found })
    ((List.getElem?_set_ne hjk.symm).trans hd) hslug hdid
  have hfound₁ : s₁.creations[k]? = some found := by
    rw [hset, List.getElem?_set_ne hjk]
    exact List.getElem?_set_self hlt
  have hid₁ : s₁.db.app.find? found.id = none := by
    rw [Keyed.find?_eq_none, hrows]
    intro r hr
    rcases List.mem_append.mp hr with hr | hr
    · rw [hid]
      exact Keyed.find?_eq_none.mp hcid r hr
    · rw [List.mem_singleton.mp hr, hid]
      exact hids.symm
  obtain ⟨bs, s₂, c', hrun', hrows', -⟩ := exists_commit make slugify
    hfound₁ hfound hid₁
  refine ⟨.count k :: (as ++ bs), s₂, ?_, fun hunique => ?_⟩
  · rw [Machine.run_cons, show (machine make slugify).step s (.count k) = _ from hstep,
      Option.bind_some, Machine.run_append, hrun]
    exact hrun'
  · unfold Unique at hunique
    rw [hrows', hrows, List.append_assoc, List.map_append] at hunique
    have hboth := (List.nodup_append.mp hunique).2.1
    exact absurd hboth (by simp [Request.row])

end

/-- Two requests for apps of the same name -/
def sentry (function : Function) (id : AppId) : Request where
  function := function
  id := id
  name := "sentry"
  upstreamURI := "replicated://sentry"
  license := ""
  isAirgapEnabled := false

/-- No apps -/
def empty : State where
  db := {}

theorem init_empty : Init empty := ⟨List.nodup_nil, rfl⟩

/-- One after the other: the second one finds `sentry-1`. -/
def oneByOne : List Action :=
  [.start (sentry .create "a"), .start (sentry .createKotsApp "b"),
   .count 0, .insert 0, .commit 0, .count 1, .count 1, .insert 1, .commit 1]

theorem slugs_unique_oneByOne :
    ∃ s, (machine (fun s => s) fun s => s).guardedRun (Guard (fun s => s) fun s => s) empty
        oneByOne = some s ∧
      s.db.app.rows.map AppRow.slug = ["sentry", "sentry-1"] ∧ Unique s.db ∧ Unambiguous s.db := by
  have hrun : ((machine (fun s => s) fun s => s).guardedRun (Guard (fun s => s) fun s => s) empty
      oneByOne).map (fun s => s.db.app.rows.map AppRow.slug) = some ["sentry", "sentry-1"] := by
    decide
  obtain ⟨s, hs, hslugs⟩ := Option.map_eq_some_iff.mp hrun
  exact ⟨s, hs, hslugs, slugs_unique ((Machine.Reachable.init init_empty).guardedRun oneByOne hs)⟩

/-- Both count before one of them commits. -/
def atTheSameTime : List Action :=
  [.start (sentry .create "a"), .start (sentry .createKotsApp "b"),
   .count 0, .count 1, .insert 0, .insert 1, .commit 0, .commit 1]

theorem slugs_not_unique : ¬ (machine (fun s => s) fun s => s).EveryState Init Machine.Free
    fun s => Unique s.db := by
  have hrun : ((machine (fun s => s) fun s => s).run empty atTheSameTime).map
      (fun s => s.db.app.rows.map AppRow.slug) = some ["sentry", "sentry"] := by
    decide
  obtain ⟨s, hs, hslugs⟩ := Option.map_eq_some_iff.mp hrun
  refine Machine.not_everyState init_empty atTheSameTime hs fun hunique => ?_
  unfold Unique at hunique
  rw [hslugs] at hunique
  exact absurd hunique (by decide)

end Kotsadm.AppSlugs
