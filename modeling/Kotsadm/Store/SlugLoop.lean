import Kotsadm.Lib.Deferred
import Kotsadm.Lib.NumberText
import Kotsadm.Store.AppSlugs

/-!
# SlugLoop — the slug that an app gets

`Create` counts the rows with a proposed slug until there is none.  Its first proposal is the slug
of the name; the later ones are the name itself with a number, which no function has made a slug
of.
-/

namespace Kotsadm.AppSlugs

/-! ## The loop -/

section

-- `slug.Make`, and `slugify` with the option `lower`
variable (make slugify : String → String)

/-- The loop from round `i` on, where `scan` is the outcome of the query of a round; `none` is no
end within the `fuel`. -/
def Request.slugLoop (scan : Nat → Except GoError Unit) (db : Database) (request : Request) :
    (fuel i : Nat) → Option (Except GoError String)
  | 0, _ => none
  | fuel + 1, i =>
    match (scan i).wrapError "failed to scan existing slug" with
    | .error e => some (.error e)
    | .ok _ =>
      let slugProposal := request.proposal make slugify i
      if countSlug db slugProposal = 0 then some (.ok slugProposal)
      else slugLoop scan db request fuel (i + 1)

/-- The round whose proposal no row has, and no earlier round's. -/
def Request.FirstFree (db : Database) (request : Request) (i : Nat) : Prop :=
  countSlug db (request.proposal make slugify i) = 0 ∧
    ∀ j < i, countSlug db (request.proposal make slugify j) ≠ 0

end

/-! ## The loop ends -/

/-- Of more proposals than a list has elements, one is not in the list. -/
theorem exists_notMem {α : Type*} {f : Nat → α} {n : Nat}
    (hf : ∀ i j, n ≤ i → n ≤ j → f i = f j → i = j) (xs : List α) :
    ∃ k, n ≤ k ∧ k ≤ n + xs.length ∧ f k ∉ xs := by
  by_contra hnone
  have hsubset : (List.range' n (xs.length + 1)).map f ⊆ xs := by
    intro x hx
    obtain ⟨k, hk, rfl⟩ := List.mem_map.mp hx
    rw [List.mem_range'_1] at hk
    by_contra hnot
    exact hnone ⟨k, hk.1, by omega, hnot⟩
  have hnodup : ((List.range' n (xs.length + 1)).map f).Nodup := by
    refine List.Nodup.map_on (fun i hi j hj heq => ?_) List.nodup_range'
    exact hf i j (List.mem_range'_1.mp hi).1 (List.mem_range'_1.mp hj).1 heq
  have hlength := (List.subperm_of_subset hnodup hsubset).length_le
  rw [List.length_map, List.length_range'] at hlength
  omega

section Loop

variable {make slugify : String → String} {scan : Nat → Except GoError Unit} {db : Database}
  {request : Request} {fuel i : Nat}

theorem countSlug_eq_zero {slug : String} :
    countSlug db slug = 0 ↔ slug ∉ db.app.rows.map AppRow.slug := by
  unfold countSlug
  rw [List.countP_eq_zero, List.mem_map]
  simp

/-- The later proposals differ from each other in the number. -/
theorem proposal_inj (make slugify : String → String) (request : Request) {i j : Nat} (hi : 1 ≤ i)
    (hj : 1 ≤ j) (h : request.proposal make slugify i = request.proposal make slugify j) :
    i = j := by
  have hnumber : ∀ base : String, base ++ "-" ++ toString i = base ++ "-" ++ toString j →
      i = j := by
    intro base heq
    have htext : toString i = toString j := by
      rw [← String.toList_inj]
      have hlist := congrArg String.toList heq
      simp only [String.toList_append] at hlist
      exact List.append_cancel_left hlist
    have hint : toString (i : Int) = toString (j : Int) := htext
    exact Int.ofNat_inj.mp (NumberText.toString_inj hint)
  unfold Request.proposal at h
  split at h
  next =>
    rw [if_neg (by omega), if_neg (by omega)] at h
    exact hnumber request.name h
  next =>
    dsimp only at h
    rw [if_neg (by omega), if_neg (by omega)] at h
    exact hnumber _ h

theorem slugLoop_eq_none (h : request.slugLoop make slugify scan db fuel i = none) :
    ∀ j, i ≤ j → j < i + fuel → countSlug db (request.proposal make slugify j) ≠ 0 := by
  induction fuel generalizing i with
  | zero =>
    intro j hle hlt
    omega
  | succ fuel ih =>
    unfold Request.slugLoop at h
    split at h
    next => cases h
    next =>
      dsimp only at h
      split at h
      next => cases h
      next htaken =>
        intro j hle hlt
        rcases Nat.eq_or_lt_of_le hle with rfl | hless
        · exact htaken
        · exact ih h j hless (by omega)

theorem slugLoop_eq_ok {slug : String}
    (h : request.slugLoop make slugify scan db fuel i = some (.ok slug)) :
    ∃ k, i ≤ k ∧ slug = request.proposal make slugify k ∧ countSlug db slug = 0 ∧
      ∀ j, i ≤ j → j < k → countSlug db (request.proposal make slugify j) ≠ 0 := by
  induction fuel generalizing i with
  | zero => cases h
  | succ fuel ih =>
    unfold Request.slugLoop at h
    split at h
    next => cases h
    next =>
      dsimp only at h
      split at h
      next hfree =>
        cases h
        exact ⟨i, Nat.le_refl i, rfl, hfree, fun j hle hlt => by omega⟩
      next htaken =>
        obtain ⟨k, hle, hslug, hfree, hbefore⟩ := ih h
        refine ⟨k, by omega, hslug, hfree, fun j hj hlt => ?_⟩
        rcases Nat.eq_or_lt_of_le hj with rfl | hless
        · exact htaken
        · exact hbefore j hless hlt

/-- There are fewer rows than rounds. -/
theorem exists_slugLoop (make slugify : String → String) (scan : Nat → Except GoError Unit)
    (db : Database) (request : Request) :
    ∃ result, request.slugLoop make slugify scan db (db.app.rows.length + 2) 0 = some result := by
  cases hloop : request.slugLoop make slugify scan db (db.app.rows.length + 2) 0 with
  | some result => exact ⟨result, rfl⟩
  | none =>
    have hinj : ∀ i j, 1 ≤ i → 1 ≤ j →
        request.proposal make slugify i = request.proposal make slugify j → i = j :=
      fun i j => proposal_inj make slugify request
    obtain ⟨k, hone, hk, hfresh⟩ := exists_notMem hinj (db.app.rows.map AppRow.slug)
    rw [List.length_map] at hk
    exact absurd (countSlug_eq_zero.mpr hfresh)
      (slugLoop_eq_none hloop k (Nat.zero_le k) (by omega))

/-- With more fuel the loop ends with the same result. -/
theorem slugLoop_mono {result : Except GoError String} {fuel' : Nat} (hle : fuel ≤ fuel')
    (h : request.slugLoop make slugify scan db fuel i = some result) :
    request.slugLoop make slugify scan db fuel' i = some result := by
  induction fuel generalizing i fuel' with
  | zero => cases h
  | succ fuel ih =>
    obtain ⟨more, rfl⟩ : ∃ more, fuel' = more + 1 := ⟨fuel' - 1, by omega⟩
    unfold Request.slugLoop at h ⊢
    split at h
    next e he => exact h
    next u hu =>
      dsimp only at h ⊢
      split at h
      next hfree =>
        rw [if_pos hfree]
        exact h
      next htaken =>
        rw [if_neg htaken]
        exact ih (by omega) h

end Loop

/-! ## The slug that `Create` chooses -/

/-- What is safe in a URL, and the output of `slug.Make`. -/
def urlChars : List Char := "abcdefghijklmnopqrstuvwxyz0123456789-".toList

structure SlugMake (make : String → String) : Prop where
  make_make : ∀ s, make (make s) = make s
  mem_urlChars : ∀ s, ∀ c ∈ (make s).toList, c ∈ urlChars

section Create

variable {make slugify : String → String} {scan : Nat → Except GoError Unit} {db : Database}
  {request : Request}

theorem proposal_zero (hcreate : request.function = .create) :
    request.proposal make slugify 0 = make request.name := by
  unfold Request.proposal
  rw [hcreate]
  exact if_pos rfl

theorem proposal_pos (hcreate : request.function = .create) {k : Nat} (hk : 0 < k) :
    request.proposal make slugify k = request.name ++ "-" ++ toString k := by
  unfold Request.proposal
  rw [hcreate]
  exact if_neg (by omega)

theorem Request.FirstFree.unique {i j : Nat} (hi : request.FirstFree make slugify db i)
    (hj : request.FirstFree make slugify db j) : i = j := by
  rcases Nat.lt_trichotomy i j with hlt | heq | hgt
  · exact absurd hi.1 (hj.2 i hlt)
  · exact heq
  · exact absurd hj.1 (hi.2 j hgt)

/-- What the whole loop finds is the proposal of the first round that is free. -/
theorem slugLoop_firstFree {fuel : Nat} {slug : String}
    (h : request.slugLoop make slugify scan db fuel 0 = some (.ok slug)) :
    ∃ k, slug = request.proposal make slugify k ∧ request.FirstFree make slugify db k := by
  obtain ⟨k, -, rfl, hfree, hbefore⟩ := slugLoop_eq_ok h
  exact ⟨k, rfl, hfree, fun j hlt => hbefore j (Nat.zero_le j) hlt⟩

theorem SlugMake.urlSafe_name (hmake : SlugMake make) {k : Nat}
    (h : make (request.name ++ "-" ++ toString k) = request.name ++ "-" ++ toString k) :
    ∀ c ∈ request.name.toList, c ∈ urlChars := by
  intro c hc
  apply hmake.mem_urlChars (request.name ++ "-" ++ toString k)
  rw [h, String.toList_append, String.toList_append]
  exact List.mem_append_left _ (List.mem_append_left _ hc)

/-- The loop of `Create` ends and finds a slug that no row has.  It is safe in a URL unless it is of
a later round, which has the name as it is. -/
theorem create_urlSafe_iff (hmake : SlugMake make) (slugify : String → String)
    (scan : Nat → Except GoError Unit) (db : Database) (hcreate : request.function = .create) :
    ∃ fuel result,
      (∀ more, fuel ≤ more → request.slugLoop make slugify scan db more 0 = some result) ∧
      ∀ slug, result = .ok slug →
        slug ∉ db.app.rows.map AppRow.slug ∧
        (make slug = slug ↔ ∀ k, 0 < k → request.FirstFree make slugify db k →
          make (request.name ++ "-" ++ toString k) = request.name ++ "-" ++ toString k) ∧
        (countSlug db (make request.name) ≠ 0 → (∃ c ∈ request.name.toList, c ∉ urlChars) →
          make slug ≠ slug) := by
  obtain ⟨result, hresult⟩ := exists_slugLoop make slugify scan db request
  refine ⟨_, result, fun more hmore => slugLoop_mono hmore hresult, ?_⟩
  rintro slug rfl
  obtain ⟨k, rfl, hfirst⟩ := slugLoop_firstFree hresult
  refine ⟨countSlug_eq_zero.mp hfirst.1, ?_, fun htaken hunsafe hsafe => ?_⟩
  · constructor
    · intro hsafe j hj hjfirst
      rw [← proposal_pos hcreate hj, hjfirst.unique hfirst]
      exact hsafe
    · intro hsafe
      rcases Nat.eq_zero_or_pos k with rfl | hpos
      · rw [proposal_zero hcreate]
        exact hmake.make_make request.name
      · rw [proposal_pos hcreate hpos]
        exact hsafe k hpos hfirst
  · obtain ⟨c, hc, hnot⟩ := hunsafe
    have hpos : 0 < k := by
      refine Nat.pos_of_ne_zero fun hzero => htaken ?_
      have hfree := hfirst.1
      rw [hzero, proposal_zero hcreate] at hfree
      exact hfree
    rw [proposal_pos hcreate hpos] at hsafe
    exact hnot (hmake.urlSafe_name hsafe c hc)

end Create

/-! ## A name that is taken -/

def upperLower : List (Char × Char) :=
  "ABCDEFGHIJKLMNOPQRSTUVWXYZ".toList.zip "abcdefghijklmnopqrstuvwxyz".toList

def urlChar (c : Char) : Char :=
  if c ∈ urlChars then c
  else ((upperLower.find? fun p => p.1 = c).map Prod.snd).getD '-'

/-- `slug.Make` of a name without accents, where no two hyphens come together. -/
def asciiSlug (s : String) : String := String.ofList (s.toList.map urlChar)

theorem urlChar_mem (c : Char) : urlChar c ∈ urlChars := by
  unfold urlChar
  split
  next h => exact h
  next =>
    cases hfind : upperLower.find? fun p => p.1 = c with
    | none => decide
    | some p =>
      have hlower : ∀ p ∈ upperLower, p.2 ∈ urlChars := by decide
      exact hlower p (List.mem_of_find?_eq_some hfind)

theorem slugMake_asciiSlug : SlugMake asciiSlug where
  make_make s := by
    unfold asciiSlug
    rw [String.toList_ofList, List.map_map]
    congr 1
    refine List.map_congr_left fun c _ => ?_
    show urlChar (urlChar c) = urlChar c
    exact if_pos (urlChar_mem c)
  mem_urlChars s c hc := by
    unfold asciiSlug at hc
    rw [String.toList_ofList] at hc
    obtain ⟨c', -, rfl⟩ := List.mem_map.mp hc
    exact urlChar_mem c'

def myAppRow : AppRow :=
  { id := "first", name := "My App", slug := "my-app", installState := .installed }

def myAppTable : Database := { app := { rows := [myAppRow], nodup := by decide } }

def secondMyApp : Request where
  function := .create
  id := "second"
  name := "My App"
  upstreamURI := ""
  license := ""
  isAirgapEnabled := false

theorem create_urlSafe_secondMyApp :
    ∃ fuel result,
      (∀ more, fuel ≤ more → secondMyApp.slugLoop asciiSlug asciiSlug (fun _ => .ok ()) myAppTable
        more 0 = some result) ∧
      ∀ slug, result = .ok slug →
        slug ∉ myAppTable.app.rows.map AppRow.slug ∧
        (asciiSlug slug = slug ↔
          ∀ k, 0 < k → secondMyApp.FirstFree asciiSlug asciiSlug myAppTable k →
            asciiSlug ("My App" ++ "-" ++ toString k) = "My App" ++ "-" ++ toString k) ∧
        (countSlug myAppTable (asciiSlug "My App") ≠ 0 →
          (∃ c ∈ "My App".toList, c ∉ urlChars) → asciiSlug slug ≠ slug) :=
  create_urlSafe_iff slugMake_asciiSlug asciiSlug (fun _ => .ok ()) myAppTable rfl

/-- The second app of a name gets the name with a number. -/
theorem not_urlSafe_secondMyApp :
    ¬ ∀ (make slugify : String → String) (scan : Nat → Except GoError Unit) (db : Database)
      (request : Request), SlugMake make → request.function = .create →
      ∃ fuel result, request.slugLoop make slugify scan db fuel 0 = some result ∧
        ∀ slug, result = .ok slug → slug ∉ db.app.rows.map AppRow.slug ∧ make slug = slug := by
  intro hclaim
  obtain ⟨fuel, result, hloop, hresult⟩ :=
    hclaim asciiSlug asciiSlug (fun _ => .ok ()) myAppTable secondMyApp slugMake_asciiSlug rfl
  have htwo : secondMyApp.slugLoop asciiSlug asciiSlug (fun _ => .ok ()) myAppTable 2 0 =
      some (.ok "My App-1") := by
    decide
  have hlong := slugLoop_mono (Nat.le_add_right 2 fuel) htwo
  rw [slugLoop_mono (Nat.le_add_left fuel 2) hloop] at hlong
  cases hlong
  exact absurd (hresult "My App-1" rfl).2 (by decide)

end Kotsadm.AppSlugs
