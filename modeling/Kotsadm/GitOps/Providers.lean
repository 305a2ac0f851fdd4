import Kotsadm.GitOps.KotsadmGitops
import Kotsadm.Lib.Machine

/-!
# Providers — when the repositories in the secret do not disturb each other

`saved` says what was last saved for each repository, in the order in which they were created.  The
secret stores the list: the entries of index `i` are the fields of the repository number `i`.
-/

namespace Kotsadm.GitOps

open Grouping NodeBuffer
open Json (Ascii)

/-! ## The list of repositories -/

inductive Field where
  | type
  | repoUri
  | publicKey
  | privateKey
  | hostname
  deriving DecidableEq, Repr

def Field.name : Field → String
  | type => "type"
  | repoUri => "repoUri"
  | publicKey => "publicKey"
  | privateKey => "privateKey"
  | hostname => "hostname"

/-- What was last saved for a repository. -/
structure Provider where
  uri : String
  type : String
  hostname : String
  publicKey : String
  privateKey : String
  deriving DecidableEq, Repr

/-- The text of a field; an empty hostname is not stored. -/
def Provider.value (p : Provider) : Field → Option String
  | .type => some p.type
  | .repoUri => some p.uri
  | .publicKey => some p.publicKey
  | .privateKey => some p.privateKey
  | .hostname => if p.hostname = "" then none else some p.hostname

/-- There are at most ten repositories, all texts are ASCII, and no text of a repository is the
URI of another one. -/
structure Clean (saved : List Provider) : Prop where
  few : saved.length ≤ 10
  named : ∀ p ∈ saved, p.uri ≠ ""
  ascii : ∀ p ∈ saved, ∀ f text, p.value f = some text → Ascii text.toList
  own : ∀ (i j : Nat) (p q : Provider) (f : Field), saved[i]? = some p → saved[j]? = some q →
    p.value f = some q.uri → i = j

/-- The calls. -/
inductive Action where
  | create (provider uri hostname privateKey publicKey : String)
  | update (uriToUpdate newUri hostname : String)
  deriving DecidableEq, Repr

/-- The repository that a call is about. -/
def Action.uri : Action → String
  | .create _ uri _ _ _ => uri
  | .update uriToUpdate _ _ => uriToUpdate

def edit (saved : List Provider) (uri : String) (f : Provider → Provider) : List Provider :=
  saved.map fun p => if p.uri = uri then f p else p

/-- What is saved by a call.  A repository that is created again keeps its keys. -/
def save (saved : List Provider) : Action → List Provider
  | .create provider uri hostname privateKey publicKey =>
    if saved.any fun p => p.uri = uri then
      edit saved uri fun p => { p with type := provider, hostname }
    else saved ++ [⟨uri, provider, hostname, publicKey, privateKey⟩]
  | .update uriToUpdate newUri hostname =>
    edit saved uriToUpdate fun p => { p with uri := newUri, hostname }

/-! ## The keys -/

def fieldKey (i : Nat) (f : Field) : String := providerKey (toString i) f.name

theorem toList_providerKey (index field : String) :
    (providerKey index field).toList =
      "provider.".toList ++ (index.toList ++ '.' :: field.toList) := by
  simp [providerKey, toString]

theorem toString_digit : ∀ i < 10, ∃ c, (toString i).toList = [c] ∧ c ≠ '.' ∧
    parseDigit (toString i) = some i := by
  intro i hi
  refine ⟨Nat.digitChar i, ?_⟩
  revert i
  decide

theorem toString_inj {i j : Nat} (h : toString i = toString j) : i = j := by
  have hdigits : Nat.toDigits 10 i = Nat.toDigits 10 j := by
    have hlist := congrArg String.toList h
    simpa [toString, Nat.repr] using hlist
  rw [← Nat.ofDigitChars_ten_toDigits (n := i), hdigits, Nat.ofDigitChars_ten_toDigits]

theorem Field.name_inj {f g : Field} (h : f.name = g.name) : f = g := by
  revert h
  cases f <;> cases g <;> decide

theorem indexChar_fieldKey {i : Nat} (hi : i < 10) (f : Field) :
    indexChar (fieldKey i f) = toString i := by
  obtain ⟨c, hc, -⟩ := toString_digit i hi
  unfold indexChar fieldKey
  rw [toList_providerKey, hc]
  change String.ofList [c] = _
  rw [← hc, String.ofList_toList]

theorem fieldKey_inj {i j : Nat} {f g : Field} (hi : i < 10) :
    fieldKey j g = fieldKey i f ↔ j = i ∧ g = f := by
  constructor
  · intro h
    obtain ⟨c, hc, hdot, -⟩ := toString_digit i hi
    have hlist := congrArg String.toList h.symm
    unfold fieldKey at hlist
    rw [toList_providerKey, toList_providerKey, hc] at hlist
    have hname : '.' ∉ f.name.toList := by cases f <;> decide
    have hsingle : '.' ∉ [c] := by simpa using hdot.symm
    obtain ⟨hindex, -, hfield⟩ := (List.append_cons_inj_of_notMem hsingle hname).mp
      (List.append_cancel_left hlist)
    rw [← hc] at hindex
    exact ⟨(toString_inj (String.toList_inj.mp hindex)).symm,
      (Field.name_inj (String.toList_inj.mp hfield)).symm⟩
  · rintro ⟨rfl, rfl⟩
    rfl

section

variable {data : Map String String} {i : Nat}

theorem lookup_insert_fieldKey (hi : i < 10) (f : Field) (v : String) (j : Nat) (g : Field) :
    (data.insert (fieldKey i f) v).lookup (fieldKey j g) =
      if j = i ∧ g = f then some v else data.lookup (fieldKey j g) := by
  by_cases hsame : j = i ∧ g = f
  · obtain ⟨rfl, rfl⟩ := hsame
    rw [AList.lookup_insert, if_pos ⟨rfl, rfl⟩]
  · rw [if_neg hsame, AList.lookup_insert_ne fun h => hsame ((fieldKey_inj hi).mp h)]

theorem lookup_erase_fieldKey (hi : i < 10) (f : Field) (j : Nat) (g : Field) :
    (data.erase (fieldKey i f)).lookup (fieldKey j g) =
      if j = i ∧ g = f then none else data.lookup (fieldKey j g) := by
  by_cases hsame : j = i ∧ g = f
  · obtain ⟨rfl, rfl⟩ := hsame
    rw [AList.lookup_erase, if_pos ⟨rfl, rfl⟩]
  · rw [if_neg hsame, AList.lookup_erase_ne fun h => hsame ((fieldKey_inj hi).mp h)]

theorem lookup_setHostname (hi : i < 10) (hostname : String) (j : Nat) (g : Field) :
    (setHostname data (toString i) hostname).lookup (fieldKey j g) =
      if j = i ∧ g = .hostname then
        if hostname = "" then none else some (base64Encode hostname)
      else data.lookup (fieldKey j g) := by
  unfold setHostname
  change AList.lookup _ (if hostname = "" then data.erase (fieldKey i .hostname)
    else (data.erase (fieldKey i .hostname)).insert (fieldKey i .hostname) _) = _
  by_cases hempty : hostname = ""
  · rw [if_pos hempty, lookup_erase_fieldKey hi, if_pos hempty]
  · rw [if_neg hempty, lookup_insert_fieldKey hi, lookup_erase_fieldKey hi, if_neg hempty]
    by_cases hsame : j = i ∧ g = .hostname
    · rw [if_pos hsame, if_pos hsame]
    · rw [if_neg hsame, if_neg hsame, if_neg hsame]

theorem mem_setHostname {index hostname key : String} (h : key ∈ setHostname data index hostname) :
    key = providerKey index "hostname" ∨ key ∈ data := by
  unfold setHostname at h
  dsimp only at h
  split at h
  · exact .inr (AList.mem_erase.mp h).2
  · rw [AList.mem_insert, AList.mem_erase] at h
    exact h.imp_right fun h => h.2

end

/-! ## The secret stores the list -/

structure Stores (data : Map String String) (saved : List Provider) : Prop where
  entry : ∀ i f, data.lookup (fieldKey i f) =
    ((saved[i]?).bind fun p => p.value f).map base64Encode
  owned : ∀ key ∈ data, ∃ i f, i < saved.length ∧ key = fieldKey i f

section

variable {order : Reorder (String × String)} {data : Map String String} {saved : List Provider}
  {i : Nat} {p : Provider}

theorem stores_nil : Stores ∅ [] where
  entry i f := by
    rw [List.getElem?_nil]
    exact AList.lookup_empty _
  owned key hkey := absurd hkey (AList.notMem_empty key)

theorem Clean.index_lt (h : Clean saved) (hp : saved[i]? = some p) : i < 10 := by
  obtain ⟨hi, -⟩ := List.getElem?_eq_some_iff.mp hp
  have hfew := h.few
  omega

/-- An entry reads as the text of its field. -/
theorem Stores.read (h : Stores data saved) (hclean : Clean saved) (hp : saved[i]? = some p)
    {f : Field} {text : String} (hvalue : p.value f = some text) :
    base64Decode (data.lookup (fieldKey i f)) = text := by
  have hascii := hclean.ascii p (List.mem_of_getElem? hp) f text hvalue
  rw [h.entry, hp, Option.bind_some, hvalue, Option.map_some, ← String.toList_inj,
    base64Decode_base64Encode, reread_ascii hascii]

/-- A text that is read is that of a field. -/
theorem Stores.value_of_read (h : Stores data saved) (hclean : Clean saved) {f : Field}
    {text : String} (htext : text ≠ "")
    (hread : base64Decode (data.lookup (fieldKey i f)) = text) :
    ∃ p, saved[i]? = some p ∧ p.value f = some text := by
  cases hp : saved[i]? with
  -- no entry reads as the empty text
  | none =>
    rw [h.entry, hp] at hread
    exact absurd hread.symm htext
  | some p =>
    cases hvalue : p.value f with
    | none =>
      rw [h.entry, hp, Option.bind_some, hvalue] at hread
      exact absurd hread.symm htext
    | some text' =>
      have hsame := h.read hclean hp hvalue
      rw [hread] at hsame
      exact ⟨p, rfl, hsame ▸ hvalue⟩

theorem mem_keys {key : String} : key ∈ keys order data ↔ key ∈ data := by
  unfold keys
  rw [List.mem_map, ← AList.lookup_isSome, Option.isSome_iff_exists]
  constructor
  · intro h
    obtain ⟨⟨key', v⟩, hmem, rfl⟩ := h
    exact ⟨v, mem_pairs.mp ((order.mem_apply).mp hmem)⟩
  · intro h
    obtain ⟨v, hv⟩ := h
    exact ⟨(key, v), (order.mem_apply).mpr (mem_pairs.mpr hv), rfl⟩

theorem Stores.mem (h : Stores data saved) (hp : saved[i]? = some p) {f : Field} {text : String}
    (hvalue : p.value f = some text) : fieldKey i f ∈ data := by
  rw [← AList.lookup_isSome, h.entry, hp, Option.bind_some, hvalue]
  rfl

variable (order) in
/-- The search ends at an entry of the repository. -/
theorem Stores.findUri_eq (h : Stores data saved) (hclean : Clean saved)
    (hp : saved[i]? = some p) : ∃ f, findUri order data p.uri = some (fieldKey i f) := by
  have hfound : (findUri order data p.uri).isSome := by
    unfold findUri
    rw [List.find?_isSome]
    refine ⟨fieldKey i .repoUri, mem_keys.mpr (h.mem hp (f := .repoUri) rfl), ?_⟩
    rw [decide_eq_true_iff]
    exact h.read hclean hp rfl
  obtain ⟨key, hkey⟩ := Option.isSome_iff_exists.mp hfound
  obtain ⟨j, f, -, rfl⟩ := h.owned key (mem_keys.mp (List.mem_of_find?_eq_some hkey))
  have hread := List.find?_some hkey
  rw [decide_eq_true_iff] at hread
  -- no other repository has an entry with this URI
  obtain ⟨q, hq, hvalue⟩ :=
    h.value_of_read hclean (hclean.named p (List.mem_of_getElem? hp)) hread
  rw [hclean.own j i q p f hq hp hvalue] at hkey
  exact ⟨f, hkey⟩

variable (order) in
theorem Stores.findUri_eq_none (h : Stores data saved) (hclean : Clean saved) {uri : String}
    (huri : uri ≠ "") (hnew : ∀ p ∈ saved, ∀ f, p.value f ≠ some uri) :
    findUri order data uri = none := by
  unfold findUri
  rw [List.find?_eq_none]
  intro key hkey
  rw [decide_eq_true_iff]
  intro hread
  obtain ⟨j, f, -, rfl⟩ := h.owned key (mem_keys.mp hkey)
  obtain ⟨q, hq, hvalue⟩ := h.value_of_read hclean huri hread
  exact hnew q (List.mem_of_getElem? hq) f hvalue

/-! ## The next index -/

theorem nextIndex_eq {indices : List (Option Nat)} {n : Nat}
    (hlt : ∀ index ∈ indices, ∃ i < n, index = some i)
    (hlast : n = 0 ∨ some (n - 1) ∈ indices) : nextIndex indices = some n := by
  -- the fold has its maximum with 0
  have hmax : ∃ m, indices.foldr (fun i max => do return Nat.max (← i) (← max)) (some 0) =
      some m ∧ (∀ i, some i ∈ indices → i ≤ m) ∧ m ≤ n - 1 := by
    clear hlast
    induction indices with
    | nil => exact ⟨0, rfl, fun i hi => (by cases hi), Nat.zero_le _⟩
    | cons index indices ih =>
      obtain ⟨m, hm, hle, hm'⟩ := ih fun index hindex => hlt index (List.mem_cons_of_mem _ hindex)
      obtain ⟨i, hi, rfl⟩ := hlt index List.mem_cons_self
      refine ⟨Nat.max i m, ?_, ?_, Nat.max_le.mpr ⟨by omega, hm'⟩⟩
      · rw [List.foldr_cons, hm]
        rfl
      · intro j hj
        rcases List.mem_cons.mp hj with hj | hj
        · cases hj
          exact Nat.le_max_left i m
        · exact Nat.le_trans (hle j hj) (Nat.le_max_right i m)
  unfold nextIndex
  by_cases hempty : indices = []
  · rcases hlast with rfl | hlast
    · rw [if_pos hempty]
    · rw [hempty] at hlast
      cases hlast
  · obtain ⟨index, hindex⟩ := List.exists_mem_of_ne_nil _ hempty
    obtain ⟨i, hi, rfl⟩ := hlt index hindex
    obtain ⟨m, hm, hle, hm'⟩ := hmax
    rcases hlast with rfl | hlast
    · omega
    · have hn := hle _ hlast
      rw [if_neg hempty, hm, Option.map_some]
      congr 1
      omega

theorem Stores.nextIndex_eq (h : Stores data saved) (hclean : Clean saved) :
    nextIndex ((keys order data).map fun key => parseDigit (indexChar key)) =
      some saved.length := by
  have hparse : ∀ i f, i < saved.length → parseDigit (indexChar (fieldKey i f)) = some i := by
    intro i f hi
    -- an index of one digit is read as it was written
    have hten : i < 10 := Nat.lt_of_lt_of_le hi hclean.few
    rw [indexChar_fieldKey hten]
    obtain ⟨-, -, -, hdigit⟩ := toString_digit i hten
    exact hdigit
  apply GitOps.nextIndex_eq
  · intro index hindex
    obtain ⟨key, hkey, rfl⟩ := List.mem_map.mp hindex
    obtain ⟨i, f, hi, rfl⟩ := h.owned key (mem_keys.mp hkey)
    exact ⟨i, hi, hparse i f hi⟩
  · by_cases hzero : saved.length = 0
    · exact .inl hzero
    · have hlt : saved.length - 1 < saved.length := by omega
      refine .inr (List.mem_map.mpr ⟨fieldKey (saved.length - 1) .type, ?_, hparse _ _ hlt⟩)
      have hvalue : saved[saved.length - 1].value .type = some saved[saved.length - 1].type := rfl
      exact mem_keys.mpr (h.mem (List.getElem?_eq_getElem hlt) hvalue)

/-! ## createGitOpsRepo -/

theorem Clean.getElem?_edit (h : Clean saved) (hp : saved[i]? = some p) (f : Provider → Provider)
    (j : Nat) : (edit saved p.uri f)[j]? = if j = i then some (f p) else saved[j]? := by
  unfold edit
  rw [List.getElem?_map]
  by_cases hj : j = i
  · rw [if_pos hj, hj, hp, Option.map_some, if_pos rfl]
  · rw [if_neg hj]
    cases hq : saved[j]? with
    | none => rfl
    | some q =>
      have hother : q.uri ≠ p.uri :=
        fun huri => hj (h.own j i q p .repoUri hq hp (congrArg some huri))
      rw [Option.map_some, if_neg hother]

theorem length_edit (uri : String) (f : Provider → Provider) :
    (edit saved uri f).length = saved.length := List.length_map _

/-- Writing an entry of the repository `i` leaves the keys as they should be. -/
theorem owned_insert {length : Nat}
    (h : ∀ key ∈ data, ∃ i f, i < length ∧ key = fieldKey i f) (hi : i < length) (f : Field)
    (v : String) :
    ∀ key ∈ data.insert (fieldKey i f) v, ∃ i f, i < length ∧ key = fieldKey i f := by
  intro key hkey
  rcases (AList.mem_insert data).mp hkey with rfl | hkey
  · exact ⟨i, f, hi, rfl⟩
  · exact h key hkey

theorem owned_setHostname {length : Nat}
    (h : ∀ key ∈ data, ∃ i f, i < length ∧ key = fieldKey i f) (hi : i < length)
    (hostname : String) : ∀ key ∈ setHostname data (toString i) hostname,
      ∃ i f, i < length ∧ key = fieldKey i f := by
  intro key hkey
  rcases mem_setHostname hkey with rfl | hkey
  · exact ⟨i, .hostname, hi, rfl⟩
  · exact h key hkey

theorem value_hostname (p : Provider) :
    (p.value .hostname).map base64Encode =
      if p.hostname = "" then none else some (base64Encode p.hostname) := by
  change (if p.hostname = "" then none else some p.hostname).map base64Encode = _
  split <;> rfl

/-- A repository that exists. -/
theorem Stores.recreate (h : Stores data saved) (hclean : Clean saved) (hp : saved[i]? = some p)
    (provider hostname : String) :
    Stores (setHostname ((data.insert (fieldKey i .type) (base64Encode provider)).insert
        (fieldKey i .repoUri) (base64Encode p.uri)) (toString i) hostname)
      (edit saved p.uri fun p => { p with type := provider, hostname }) where
  entry j g := by
    have hi : i < 10 := hclean.index_lt hp
    rw [lookup_setHostname hi, lookup_insert_fieldKey hi, lookup_insert_fieldKey hi,
      hclean.getElem?_edit hp, h.entry]
    by_cases hj : j = i
    · rw [if_pos hj, hj, hp, Option.bind_some, Option.bind_some]
      cases g with
      | hostname => simp [value_hostname]
      | type => simp [Provider.value]
      | repoUri => simp [Provider.value]
      | publicKey => simp [Provider.value]
      | privateKey => simp [Provider.value]
    · simp only [hj, false_and, if_false]
  owned := by
    have hi : i < (edit saved p.uri fun p => { p with type := provider, hostname }).length := by
      rw [length_edit]
      exact (List.getElem?_eq_some_iff.mp hp).1
    have howned : ∀ key ∈ data, ∃ j f, j < (edit saved p.uri fun p =>
        { p with type := provider, hostname }).length ∧ key = fieldKey j f := by
      rw [length_edit]
      exact h.owned
    exact owned_setHostname (owned_insert (owned_insert howned hi _ _) hi _ _) hi _

/-- A new repository. -/
theorem Stores.create (h : Stores data saved) (hfew : saved.length < 10) (p : Provider) :
    Stores (setHostname ((((data.insert (fieldKey saved.length .type)
        (base64Encode p.type)).insert (fieldKey saved.length .repoUri)
        (base64Encode p.uri)).insert (fieldKey saved.length .publicKey)
        (base64Encode p.publicKey)).insert (fieldKey saved.length .privateKey)
        (base64Encode p.privateKey)) (toString saved.length) p.hostname) (saved ++ [p]) where
  entry j g := by
    rw [lookup_setHostname hfew, lookup_insert_fieldKey hfew, lookup_insert_fieldKey hfew,
      lookup_insert_fieldKey hfew, lookup_insert_fieldKey hfew, h.entry]
    by_cases hj : j = saved.length
    · rw [hj, List.getElem?_concat_length, Option.bind_some]
      cases g with
      | hostname => simp [value_hostname]
      | type => simp [Provider.value]
      | repoUri => simp [Provider.value]
      | publicKey => simp [Provider.value]
      | privateKey => simp [Provider.value]
    · have hget : (saved ++ [p])[j]? = saved[j]? := by
        rw [List.getElem?_append]
        split
        next => rfl
        next hlt =>
          have hlength : [p].length ≤ j - saved.length := by
            rw [List.length_singleton]
            omega
          rw [List.getElem?_eq_none hlength, List.getElem?_eq_none (by omega)]
      rw [hget]
      simp only [hj, false_and, if_false]
  owned := by
    have hi : saved.length < (saved ++ [p]).length := by simp
    have howned : ∀ key ∈ data, ∃ j f, j < (saved ++ [p]).length ∧ key = fieldKey j f := by
      intro key hkey
      obtain ⟨j, f, hj, rfl⟩ := h.owned key hkey
      exact ⟨j, f, Nat.lt_trans hj hi, rfl⟩
    exact owned_setHostname (owned_insert (owned_insert (owned_insert (owned_insert howned hi _ _)
      hi _ _) hi _ _) hi _ _) hi _

variable (order) in
/-- The call, on a secret that stores a clean list. -/
theorem Stores.createGitOpsRepo {cluster : Cluster} (h : Stores (cluster.secret.getD ∅) saved)
    (hclean : Clean saved) {provider uri hostname privateKey publicKey : String}
    (hnext : Clean (save saved (.create provider uri hostname privateKey publicKey))) :
    ∃ data, (GitOps.createGitOpsRepo order cluster provider uri hostname privateKey
        publicKey).secret = some data ∧
      Stores data (save saved (.create provider uri hostname privateKey publicKey)) := by
  unfold save at hnext ⊢
  dsimp only at hnext ⊢
  by_cases hregistered : (saved.any fun p => p.uri = uri) = true
  · rw [if_pos hregistered]
    obtain ⟨p, hmem, huri⟩ := List.any_eq_true.mp hregistered
    have hsame : p.uri = uri := of_decide_eq_true huri
    subst hsame
    obtain ⟨i, hp⟩ := List.getElem?_of_mem hmem
    obtain ⟨f, hfound⟩ := h.findUri_eq order hclean hp
    have hi : i < 10 := hclean.index_lt hp
    obtain ⟨-, -, -, hdigit⟩ := toString_digit i hi
    refine ⟨_, ?_, h.recreate hclean hp provider hostname⟩
    unfold GitOps.createGitOpsRepo
    dsimp only
    rw [hfound, if_neg (by simp)]
    dsimp only
    rw [indexChar_fieldKey hi, hdigit]
    rfl
  · rw [if_neg hregistered] at hnext ⊢
    have hlength := hnext.few
    rw [List.length_append, List.length_singleton] at hlength
    have hlast : (saved ++ [(⟨uri, provider, hostname, publicKey, privateKey⟩ : Provider)])[
        saved.length]? = some ⟨uri, provider, hostname, publicKey, privateKey⟩ :=
      List.getElem?_concat_length
    have huri : uri ≠ "" := hnext.named _ (List.mem_of_getElem? hlast)
    -- a text that is the URI would be one of another repository
    have hnew : ∀ p ∈ saved, ∀ f, p.value f ≠ some uri := by
      intro p hp f hvalue
      obtain ⟨i, hi⟩ := List.getElem?_of_mem hp
      have hlt : i < saved.length := (List.getElem?_eq_some_iff.mp hi).1
      -- both are in the new list, which is clean
      have hold : (saved ++ [(⟨uri, provider, hostname, publicKey, privateKey⟩ : Provider)])[i]? =
          some p := by rw [List.getElem?_append_left hlt, hi]
      have hsame := hnext.own i saved.length p _ f hold hlast hvalue
      omega
    have hfound := h.findUri_eq_none order hclean huri hnew
    refine ⟨_, ?_, h.create (by omega) ⟨uri, provider, hostname, publicKey, privateKey⟩⟩
    unfold GitOps.createGitOpsRepo
    dsimp only
    rw [hfound, if_pos rfl]
    dsimp only
    rw [h.nextIndex_eq hclean]
    rfl

/-! ## updateGitOpsRepo -/

/-- The entries that an update writes. -/
def writeUpdate (data : Map String String) (i : Nat) (newUri hostname : String) :
    Map String String :=
  setHostname (data.insert (fieldKey i .repoUri) (base64Encode newUri)) (toString i) hostname

theorem updateKey_of_read {uriToUpdate newUri hostname : String} {f : Field}
    (huri : uriToUpdate ≠ "") (hi : i < 10)
    (hread : base64Decode (data.lookup (fieldKey i f)) = uriToUpdate) :
    updateKey uriToUpdate newUri hostname data (fieldKey i f) =
      writeUpdate data i newUri hostname := by
  unfold updateKey
  dsimp only
  rw [if_pos (.inr hread), if_pos huri, indexChar_fieldKey hi]
  rfl

theorem updateKey_of_not_read {uriToUpdate newUri hostname key : String} (huri : uriToUpdate ≠ "")
    (hread : base64Decode (data.lookup key) ≠ uriToUpdate) :
    updateKey uriToUpdate newUri hostname data key = data := by
  unfold updateKey
  dsimp only
  rw [if_neg (not_or.mpr ⟨not_not.mpr huri, hread⟩)]

/-- Before and after the first write, a write leads to the list with the new URI. -/
theorem Stores.writeUpdate (hclean : Clean saved) (hp : saved[i]? = some p)
    {newUri hostname : String}
    (h : Stores data saved ∨
      Stores data (edit saved p.uri fun p => { p with uri := newUri, hostname })) :
    Stores (GitOps.writeUpdate data i newUri hostname)
      (edit saved p.uri fun p => { p with uri := newUri, hostname }) where
  entry j g := by
    have hi : i < 10 := hclean.index_lt hp
    have hedit := hclean.getElem?_edit hp (fun p => { p with uri := newUri, hostname })
    unfold GitOps.writeUpdate
    rw [lookup_setHostname hi, lookup_insert_fieldKey hi, hedit]
    by_cases hj : j = i
    · rw [if_pos hj, hj, Option.bind_some]
      have hother : g ≠ .repoUri → g ≠ .hostname →
          data.lookup (fieldKey i g) = (p.value g).map base64Encode := by
        intro hrepoUri hhostname
        rcases h with h | h
        · rw [h.entry, hp, Option.bind_some]
        · rw [h.entry, hedit, if_pos rfl, Option.bind_some]
          cases g with
          | repoUri => exact absurd rfl hrepoUri
          | hostname => exact absurd rfl hhostname
          | type => rfl
          | publicKey => rfl
          | privateKey => rfl
      cases g with
      | hostname => simp [value_hostname]
      | repoUri => simp [Provider.value]
      | type => simp [Provider.value, hother]
      | publicKey => simp [Provider.value, hother]
      | privateKey => simp [Provider.value, hother]
    · simp only [hj, false_and, if_false]
      rcases h with h | h
      · rw [h.entry]
      · rw [h.entry, hedit, if_neg hj]
  owned := by
    have hi : i < (edit saved p.uri fun p => { p with uri := newUri, hostname }).length := by
      rw [length_edit]
      exact (List.getElem?_eq_some_iff.mp hp).1
    have howned : ∀ key ∈ data, ∃ j f, j < (edit saved p.uri fun p =>
        { p with uri := newUri, hostname }).length ∧ key = fieldKey j f := by
      rcases h with h | h
      · rw [length_edit]
        exact h.owned
      · exact h.owned
    exact owned_setHostname (owned_insert howned hi _ _) hi _

/-- An entry that reads as the URI is one of the repository, before and after the first write. -/
theorem Stores.index_of_read (hclean : Clean saved) (hp : saved[i]? = some p)
    {newUri hostname : String}
    (hnext : Clean (edit saved p.uri fun p => { p with uri := newUri, hostname }))
    (h : Stores data saved ∨
      Stores data (edit saved p.uri fun p => { p with uri := newUri, hostname }))
    {j : Nat} {f : Field} (hread : base64Decode (data.lookup (fieldKey j f)) = p.uri) : j = i := by
  have huri : p.uri ≠ "" := hclean.named p (List.mem_of_getElem? hp)
  rcases h with h | h
  · obtain ⟨q, hq, hvalue⟩ := h.value_of_read hclean huri hread
    exact hclean.own j i q p f hq hp hvalue
  · obtain ⟨q, hq, hvalue⟩ := h.value_of_read hnext huri hread
    by_contra hj
    rw [hclean.getElem?_edit hp, if_neg hj] at hq
    exact hj (hclean.own j i q p f hq hp hvalue)

/-- **The loop.**  From the first write on the list has the new URI, and there is a write. -/
theorem Stores.foldl_updateKey (hclean : Clean saved) (hp : saved[i]? = some p)
    {newUri hostname : String}
    (hnext : Clean (edit saved p.uri fun p => { p with uri := newUri, hostname }))
    {ks : List String} (hks : ∀ key ∈ ks, ∃ j f, key = fieldKey j f)
    (h : Stores data saved ∧ fieldKey i .repoUri ∈ ks ∨
      Stores data (edit saved p.uri fun p => { p with uri := newUri, hostname })) :
    Stores (ks.foldl (updateKey p.uri newUri hostname) data)
      (edit saved p.uri fun p => { p with uri := newUri, hostname }) := by
  have huri : p.uri ≠ "" := hclean.named p (List.mem_of_getElem? hp)
  have hi : i < 10 := hclean.index_lt hp
  induction ks generalizing data with
  | nil =>
    rcases h with h | h
    · cases h.2
    · exact h
  | cons key ks ih =>
    have hrest : ∀ key ∈ ks, ∃ j f, key = fieldKey j f :=
      fun key hkey => hks key (List.mem_cons_of_mem _ hkey)
    have hstores := h.imp_left And.left
    rw [List.foldl_cons]
    obtain ⟨j, f, rfl⟩ := hks key List.mem_cons_self
    -- an entry that reads as the URI is written, whichever field it is of
    by_cases hread : base64Decode (data.lookup (fieldKey j f)) = p.uri
    · obtain rfl := Stores.index_of_read hclean hp hnext hstores hread
      rw [updateKey_of_read huri hi hread]
      exact ih hrest (.inr (Stores.writeUpdate hclean hp hstores))
    · rw [updateKey_of_not_read huri hread]
      refine ih hrest (h.imp_left ?_)
      intro ⟨hsaved, hmem⟩
      refine ⟨hsaved, (List.mem_cons.mp hmem).resolve_left ?_⟩
      -- the URI itself is not skipped
      intro heq
      rw [← heq] at hread
      exact hread (hsaved.read hclean hp rfl)

theorem edit_of_not_registered {uri : String} (h : ∀ p ∈ saved, p.uri ≠ uri)
    (f : Provider → Provider) : edit saved uri f = saved := by
  unfold edit
  refine (List.map_congr_left fun p hp => ?_).trans (List.map_id saved)
  rw [if_neg (h p hp)]
  rfl

/-- Without entries nothing is registered. -/
theorem Stores.eq_nil (h : Stores ∅ saved) : saved = [] := by
  by_contra hne
  have hlt : 0 < saved.length := List.length_pos_of_ne_nil hne
  have hvalue : saved[0].value .type = some saved[0].type := rfl
  exact AList.notMem_empty _ (h.mem (List.getElem?_eq_getElem hlt) hvalue)

/-- When no entry reads as the URI, the loop writes none. -/
theorem foldl_updateKey_of_not_read {uriToUpdate newUri hostname : String}
    (huri : uriToUpdate ≠ "") {ks : List String}
    (hread : ∀ key ∈ ks, base64Decode (data.lookup key) ≠ uriToUpdate) :
    ks.foldl (updateKey uriToUpdate newUri hostname) data = data := by
  induction ks with
  | nil => rfl
  | cons key ks ih =>
    rw [List.foldl_cons, updateKey_of_not_read huri (hread key List.mem_cons_self)]
    exact ih fun key hkey => hread key (List.mem_cons_of_mem _ hkey)

/-- The data of the secret, when it has any. -/
theorem secret_of_bodyData {secret : Option (Map String String)} :
    secret.getD ∅ = (secret.bind bodyData).getD ∅ := by
  cases secret with
  | none => rfl
  | some secret =>
    rw [Option.getD_some, Option.bind_some]
    unfold bodyData
    split
    next hentries => exact AList.ext hentries
    next => rfl

variable (order) in
/-- The call; without a secret it is rejected. -/
theorem Stores.updateGitOpsRepo {cluster : Cluster} (h : Stores (cluster.secret.getD ∅) saved)
    (hclean : Clean saved) {uriToUpdate newUri hostname : String} (huri : uriToUpdate ≠ "")
    (hown : ∀ p ∈ saved, ∀ f, p.value f = some uriToUpdate → p.uri = uriToUpdate)
    (hnext : Clean (save saved (.update uriToUpdate newUri hostname))) :
    match GitOps.updateGitOpsRepo order cluster uriToUpdate newUri hostname with
    | .ok cluster =>
      Stores (cluster.secret.getD ∅) (save saved (.update uriToUpdate newUri hostname))
    | .error _ => save saved (.update uriToUpdate newUri hostname) = saved := by
  unfold save at hnext ⊢
  dsimp only at hnext ⊢
  unfold GitOps.updateGitOpsRepo
  rw [secret_of_bodyData] at h
  cases hdata : cluster.secret.bind bodyData with
  | none =>
    rw [hdata] at h
    rw [Stores.eq_nil h]
    rfl
  | some data =>
    rw [hdata, Option.getD_some] at h
    have hks : ∀ key ∈ keys order data, ∃ j f, key = fieldKey j f := by
      intro key hkey
      obtain ⟨j, f, -, hkey⟩ := h.owned key (mem_keys.mp hkey)
      exact ⟨j, f, hkey⟩
    dsimp only [Option.getD_some]
    by_cases hregistered : ∃ p ∈ saved, p.uri = uriToUpdate
    · obtain ⟨p, hmem, rfl⟩ := hregistered
      obtain ⟨i, hp⟩ := List.getElem?_of_mem hmem
      have hkey : fieldKey i .repoUri ∈ keys order data := mem_keys.mpr (h.mem hp rfl)
      exact Stores.foldl_updateKey hclean hp hnext hks (.inl ⟨h, hkey⟩)
    -- no repository has the URI, so no field has it either
    · have hnone : ∀ p ∈ saved, p.uri ≠ uriToUpdate := fun p hp heq => hregistered ⟨p, hp, heq⟩
      have hread : ∀ key ∈ keys order data, base64Decode (data.lookup key) ≠ uriToUpdate := by
        intro key hkey hread
        obtain ⟨j, f, rfl⟩ := hks key hkey
        obtain ⟨q, hq, hvalue⟩ := h.value_of_read hclean huri hread
        have hq := List.mem_of_getElem? hq
        exact hnone q hq (hown q hq f hvalue)
      rw [edit_of_not_registered hnone, foldl_updateKey_of_not_read huri hread]
      exact h

end

/-! ## Every sequence of calls -/

/-- The cluster, and what was last saved for each repository. -/
structure Registry where
  cluster : Cluster
  saved : List Provider

/-- A call that is rejected changes nothing. -/
def step (order : Reorder (String × String)) (s : Registry) : Action → Option Registry
  | .create provider uri hostname privateKey publicKey => some {
      cluster := createGitOpsRepo order s.cluster provider uri hostname privateKey publicKey
      saved := save s.saved (.create provider uri hostname privateKey publicKey) }
  | .update uriToUpdate newUri hostname =>
    match updateGitOpsRepo order s.cluster uriToUpdate newUri hostname with
    | .ok cluster => some { cluster, saved := save s.saved (.update uriToUpdate newUri hostname) }
    | .error _ => some s

def machine (order : Reorder (String × String)) : Machine Registry Action := ⟨step order⟩

def Init (s : Registry) : Prop := s.cluster.secret = none ∧ s.saved = []

/-- What is saved stays clean, and the URI to update is that of a repository wherever it is
stored. -/
def Guard (s : Registry) (a : Action) : Prop :=
  Clean (save s.saved a) ∧
    match a with
    | .create _ _ _ _ _ => True
    | .update uriToUpdate _ _ => uriToUpdate ≠ "" ∧
      ∀ p ∈ s.saved, ∀ f, p.value f = some uriToUpdate → p.uri = uriToUpdate

/-- The URI is found under exactly one index, and there is what was last saved for it. -/
structure Found (order : Reorder (String × String)) (secret : Map String String) (p : Provider) :
    Prop where
  index : ∃ index : Nat, ∀ index' : Nat,
    base64Decode (secret.lookup (providerKey (toString index') "repoUri")) = p.uri ↔
      index' = index
  info : ∀ ν : Type, findProvider order secret (some (.str p.uri : Json ν)) =
    (p.type, p.publicKey, p.privateKey, p.value .hostname)

section

variable {order : Reorder (String × String)} {s s' : Registry} {a : Action}

structure Inv (s : Registry) : Prop where
  clean : Clean s.saved
  stores : Stores (s.cluster.secret.getD ∅) s.saved

theorem clean_nil : Clean [] where
  few := Nat.zero_le _
  named p hp := by cases hp
  ascii p hp := by cases hp
  own i j p q f hp := by
    rw [List.getElem?_nil] at hp
    cases hp

theorem inv_init (h : Init s) : Inv s where
  clean := h.2 ▸ clean_nil
  stores := by
    rw [h.1, h.2]
    exact stores_nil

/-- **The step.** -/
theorem inv_step (hs : Inv s) (hguard : Guard s a) (hstep : step order s a = some s') :
    s'.saved = save s.saved a ∧ Inv s' := by
  obtain ⟨hclean, ha⟩ := hguard
  cases a with
  | create provider uri hostname privateKey publicKey =>
    cases hstep
    refine ⟨rfl, hclean, ?_⟩
    obtain ⟨data, hdata, hstores⟩ := hs.stores.createGitOpsRepo order hs.clean hclean
    dsimp only
    rw [hdata]
    exact hstores
  | update uriToUpdate newUri hostname =>
    have hupdate := hs.stores.updateGitOpsRepo order hs.clean ha.1 ha.2 hclean
    unfold step at hstep
    dsimp only at hstep
    split at hstep
    next cluster hcall =>
      cases hstep
      rw [hcall] at hupdate
      exact ⟨rfl, hclean, hupdate⟩
    next e hcall =>
      cases hstep
      rw [hcall] at hupdate
      exact ⟨hupdate.symm, hs⟩

theorem inv_everyState : (machine order).EveryState Init Guard Inv :=
  Machine.everyState_of_inv (fun _ => inv_init) fun _ _ _ hs hguard hstep =>
    (inv_step hs hguard hstep).2

theorem Inv.found (hs : Inv s) {p : Provider} (hp : p ∈ s.saved) :
    Found order (s.cluster.secret.getD ∅) p := by
  obtain ⟨i, hi⟩ := List.getElem?_of_mem hp
  refine ⟨⟨i, fun index' => ⟨?_, ?_⟩⟩, fun ν => ?_⟩
  · intro hread
    obtain ⟨q, hq, hvalue⟩ :=
      hs.stores.value_of_read hs.clean (f := .repoUri) (hs.clean.named p hp) hread
    exact hs.clean.own index' i q p .repoUri hq hi hvalue
  · rintro rfl
    exact hs.stores.read hs.clean hi (f := .repoUri) rfl
  · obtain ⟨f, hfound⟩ := hs.stores.findUri_eq order hs.clean hi
    have htype : base64Decode ((s.cluster.secret.getD ∅).lookup
        (providerKey (toString i) "type")) = p.type := hs.stores.read hs.clean hi (f := .type) rfl
    have hpublicKey : base64Decode ((s.cluster.secret.getD ∅).lookup
        (providerKey (toString i) "publicKey")) = p.publicKey :=
      hs.stores.read hs.clean hi (f := .publicKey) rfl
    have hprivateKey : base64Decode ((s.cluster.secret.getD ∅).lookup
        (providerKey (toString i) "privateKey")) = p.privateKey :=
      hs.stores.read hs.clean hi (f := .privateKey) rfl
    have hhostname : ((s.cluster.secret.getD ∅).lookup (providerKey (toString i) "hostname")).map
        (fun hostname => base64Decode (some hostname)) = p.value .hostname := by
      change ((s.cluster.secret.getD ∅).lookup (fieldKey i .hostname)).map _ = _
      cases hvalue : p.value .hostname with
      | none =>
        rw [hs.stores.entry, hi, Option.bind_some, hvalue]
        rfl
      | some hostname =>
        have hread := hs.stores.read hs.clean hi hvalue
        rw [hs.stores.entry, hi, Option.bind_some, hvalue] at hread ⊢
        exact congrArg some hread
    unfold findProvider
    dsimp only
    rw [hfound]
    dsimp only
    rw [indexChar_fieldKey (hs.clean.index_lt hi)]
    unfold providerAt
    rw [htype, hpublicKey, hprivateKey, hhostname]

/-- A call leaves the other repositories where they are. -/
theorem getElem?_save {saved : List Provider} {i : Nat} {p : Provider} (hp : saved[i]? = some p)
    (hother : p.uri ≠ a.uri) : (save saved a)[i]? = some p := by
  have hedit : ∀ f, (edit saved a.uri f)[i]? = some p := by
    intro f
    unfold edit
    rw [List.getElem?_map, hp, Option.map_some, if_neg hother]
  cases a with
  | create provider uri hostname privateKey publicKey =>
    unfold save
    dsimp only
    split
    next => exact hedit _
    next =>
      rw [List.getElem?_append_left (List.getElem?_eq_some_iff.mp hp).1]
      exact hp
  | update uriToUpdate newUri hostname => exact hedit _

end

/-- **The repositories do not disturb each other.**  In every sequence of calls that meet the
guard, every repository is found as it was last saved, and no call changes an entry of a repository
that it is not about. -/
theorem providers_undisturbed (order : Reorder (String × String)) :
    (machine order).EveryState Init Guard
      (fun s => ∀ p ∈ s.saved, Found order (s.cluster.secret.getD ∅) p) ∧
    (machine order).EveryStep Init Guard fun s a s' =>
      ∀ i p, s.saved[i]? = some p → p.uri ≠ a.uri → s'.saved[i]? = some p ∧
        ∀ f, (s'.cluster.secret.getD ∅).lookup (fieldKey i f) =
          (s.cluster.secret.getD ∅).lookup (fieldKey i f) := by
  constructor
  · intro s hs p hp
    exact (inv_everyState s hs).found hp
  · intro s a s' hs hguard hstep i p hp hother
    have hinv := inv_everyState s hs
    obtain ⟨hsaved, hinv'⟩ := inv_step hinv hguard hstep
    have hp' : s'.saved[i]? = some p := hsaved ▸ getElem?_save hp hother
    refine ⟨hp', fun f => ?_⟩
    rw [hinv'.stores.entry, hinv.stores.entry, hp, hp']

/-! ## The eleventh repository -/

def noRepos : Registry where
  cluster := { secret := none, configMap := none }
  saved := []

def repoNumber (i : Nat) : Provider where
  uri := s!"https://github.com/o/{i}"
  type := "github"
  hostname := ""
  publicKey := s!"public {i}"
  privateKey := s!"private {i}"

def createNumber (i : Nat) : Action :=
  .create (repoNumber i).type (repoNumber i).uri (repoNumber i).hostname (repoNumber i).privateKey
    (repoNumber i).publicKey

/-- The keys of the eleventh repository are read from the entries of the second one. -/
theorem not_found_eleventh :
    ((List.range 11).map fun i => (createNumber i).uri).Nodup ∧
    ∃ s, (machine (.id _)).run noRepos ((List.range 11).map createNumber) = some s ∧
      ∃ p ∈ s.saved, ¬ Found (.id _) (s.cluster.secret.getD ∅) p := by
  refine ⟨by decide +kernel, ?_⟩
  have hread : ((machine (.id _)).run noRepos ((List.range 11).map createNumber)).map (fun s =>
      (decide (repoNumber 10 ∈ s.saved), findProvider (.id _) (s.cluster.secret.getD ∅)
        (some (.str (repoNumber 10).uri) : Option (Json Empty)))) =
      some (true, "github", "public 1", "private 1", none) := by decide +kernel
  obtain ⟨s, hs, hpair⟩ := Option.map_eq_some_iff.mp hread
  obtain ⟨hmem, hinfo⟩ := Prod.mk.inj hpair
  refine ⟨s, hs, repoNumber 10, of_decide_eq_true hmem, ?_⟩
  intro h
  exact absurd ((h.info Empty).symm.trans hinfo) (by decide +kernel)

end Kotsadm.GitOps
