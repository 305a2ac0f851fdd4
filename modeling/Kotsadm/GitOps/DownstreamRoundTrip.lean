import Kotsadm.GitOps.KotsadmGitops

/-!
# DownstreamRoundTrip — when the settings of an app and a cluster come back

They are stored as JSON, in base64 of UTF-8, and read as ASCII.  What is read is the text of a value
without a character outside ASCII, so only such settings come back; and the entry is found again by
a key that two pairs of ids may share.
-/

namespace Kotsadm.GitOps

open Grouping NodeBuffer
open Json (Ascii)

/-! ## What is read of an entry -/

section

variable {ν : Type} {repoUri branch path format action : String} {lastError : Option (Json ν)}
  {order : Reorder (String × String)}

theorem readKey_ok_iff {x : Json ν} {key : String} {v : Option (Json ν)} :
    readKey x key = .ok v ↔ x.get key = .ok v := by
  unfold readKey
  cases x.get key with
  | error e => exact iff_of_false (fun h => by cases h) (fun h => by cases h)
  | ok v' => exact Iff.rfl

/-- Everything but `null` has properties. -/
theorem get_ok {x : Json ν} (hx : x ≠ .null) (key : String) : ∃ v, x.get key = .ok v := by
  cases x with
  | null => exact absurd rfl hx
  | bool b => exact ⟨none, rfl⟩
  | num n => exact ⟨none, rfl⟩
  | str s => exact ⟨none, rfl⟩
  | arr elems => exact ⟨none, rfl⟩
  | obj fields => exact ⟨_, rfl⟩

/-- The five settings. -/
structure HasSettings (x : Json ν) (repoUri branch path format action : String) : Prop where
  repoUri : x.get "repoUri" = .ok (some (.str repoUri))
  branch : x.get "branch" = .ok (some (.str branch))
  path : x.get "path" = .ok (some (.str path))
  format : x.get "format" = .ok (some (.str format))
  action : x.get "action" = .ok (some (.str action))

/-- Neither the branch nor the URI has changed. -/
structure SameRepo (x : Json ν) (branch repoUri : String) : Prop where
  branch : x.get "branch" = .ok (some (.str branch))
  repoUri : x.get "repoUri" = .ok (some (.str repoUri))

theorem HasSettings.ne_null {x : Json ν} (h : HasSettings x repoUri branch path format action) :
    x ≠ .null := by
  rintro rfl
  cases h.repoUri

theorem SameRepo.ne_null {x : Json ν} (h : SameRepo x branch repoUri) : x ≠ .null := by
  rintro rfl
  cases h.branch

theorem hasSettings_downstreamData :
    HasSettings (downstreamData repoUri branch path format action lastError)
      repoUri branch path format action := by
  cases lastError <;> exact ⟨rfl, rfl, rfl, rfl, rfl⟩

theorem get_lastError_downstreamData :
    (downstreamData repoUri branch path format action lastError).get "lastError" =
      .ok lastError := by
  cases lastError <;> rfl

/-! ## The error that is kept -/

theorem keptError_of_sameRepo {x : Json ν} (h : SameRepo x branch repoUri) :
    keptError branch repoUri x = readKey x "lastError" := by
  have hrepoUri : readKey x "repoUri" = .ok (some (.str repoUri)) := readKey_ok_iff.mpr h.repoUri
  have hbranch : readKey x "branch" = .ok (some (.str branch)) := readKey_ok_iff.mpr h.branch
  unfold keptError
  rw [hrepoUri, hbranch]
  simp [bind, Except.bind]

theorem keptError_of_not_sameRepo {x : Json ν} (hx : x ≠ .null)
    (h : ¬ SameRepo x branch repoUri) : keptError branch repoUri x = .ok none := by
  obtain ⟨oldUri, holdUri⟩ := get_ok hx "repoUri"
  obtain ⟨oldBranch, holdBranch⟩ := get_ok hx "branch"
  unfold keptError
  rw [readKey_ok_iff.mpr holdUri, readKey_ok_iff.mpr holdBranch]
  simp only [bind, Except.bind]
  split
  next oldBranch oldUri =>
    have hchanged : oldBranch ≠ branch ∨ oldUri ≠ repoUri := by
      by_contra hsame
      rw [not_or, not_not, not_not] at hsame
      obtain ⟨rfl, rfl⟩ := hsame
      exact h ⟨holdBranch, holdUri⟩
    rw [if_pos hchanged]
    rfl
  next => rfl

/-- The last error is kept if the branch and the URI are the stored ones, and else reset. -/
structure KeepsError (stored : Option (Json ν)) (branch repoUri : String)
    (lastError : Option (Json ν)) : Prop where
  same : ∀ x, stored = some x → SameRepo x branch repoUri → x.get "lastError" = .ok lastError
  changed : (∀ x, stored = some x → ¬ SameRepo x branch repoUri) → lastError = none

theorem KeepsError.unique {stored : Option (Json ν)} {lastError' : Option (Json ν)}
    (h : KeepsError stored branch repoUri lastError)
    (h' : KeepsError stored branch repoUri lastError') : lastError = lastError' := by
  by_cases hsame : ∃ x, stored = some x ∧ SameRepo x branch repoUri
  · obtain ⟨x, hx, hrepo⟩ := hsame
    exact Except.ok.inj ((h.same x hx hrepo).symm.trans (h'.same x hx hrepo))
  · have hchanged : ∀ x, stored = some x → ¬ SameRepo x branch repoUri :=
      fun x hx hrepo => hsame ⟨x, hx, hrepo⟩
    rw [h.changed hchanged, h'.changed hchanged]

theorem exists_keepsError (stored : Option (Json ν)) (branch repoUri : String) :
    ∃ lastError, KeepsError stored branch repoUri lastError := by
  by_cases hsame : ∃ x, stored = some x ∧ SameRepo x branch repoUri
  · obtain ⟨x, hx, hrepo⟩ := hsame
    obtain ⟨lastError, hlastError⟩ := get_ok hrepo.ne_null "lastError"
    refine ⟨lastError, fun y hy _ => ?_, fun hchanged => absurd hrepo (hchanged x hx)⟩
    cases hx.symm.trans hy
    exact hlastError
  · exact ⟨none, fun x hx hrepo => absurd ⟨x, hx, hrepo⟩ hsame, fun _ => rfl⟩

/-! ## What the function returns -/

/-- What the function returns, from the secret and what is stored for the pair. -/
structure GitopsInfo.Reads (info : GitopsInfo ν) (order : Reorder (String × String))
    (secret : Map String String) (x : Json ν) : Prop where
  repoUri : x.get "repoUri" = .ok info.repoUri
  path : x.get "path" = .ok info.path
  branch : x.get "branch" = .ok info.branch
  format : x.get "format" = .ok info.format
  action : x.get "action" = .ok info.action
  lastError : x.get "lastError" = .ok info.lastError
  provider : (info.provider, info.publicKey, info.privateKey, info.hostname) =
    findProvider order secret info.repoUri

/-- The settings that are returned. -/
structure GitopsInfo.Returns (info : GitopsInfo ν) (repoUri branch path format action : String) :
    Prop where
  repoUri : info.repoUri = some (.str repoUri)
  branch : info.branch = some (.str branch)
  path : info.path = some (.str path)
  format : info.format = some (.str format)
  action : info.action = some (.str action)

theorem GitopsInfo.Reads.hasSettings {info : GitopsInfo ν} {secret : Map String String}
    {x : Json ν} (h : info.Reads order secret x)
    (hreturns : info.Returns repoUri branch path format action) :
    HasSettings x repoUri branch path format action where
  repoUri := hreturns.repoUri ▸ h.repoUri
  branch := hreturns.branch ▸ h.branch
  path := hreturns.path ▸ h.path
  format := hreturns.format ▸ h.format
  action := hreturns.action ▸ h.action

theorem GitopsInfo.Reads.returns {info : GitopsInfo ν} {secret : Map String String}
    {x : Json ν} (h : info.Reads order secret x)
    (hx : HasSettings x repoUri branch path format action) :
    info.Returns repoUri branch path format action where
  repoUri := Except.ok.inj (h.repoUri.symm.trans hx.repoUri)
  branch := Except.ok.inj (h.branch.symm.trans hx.branch)
  path := Except.ok.inj (h.path.symm.trans hx.path)
  format := Except.ok.inj (h.format.symm.trans hx.format)
  action := Except.ok.inj (h.action.symm.trans hx.action)

/-- Another value with the same settings and the same error returns the same. -/
theorem GitopsInfo.Reads.congr {info : GitopsInfo ν} {secret : Map String String}
    {x y : Json ν} (h : info.Reads order secret x)
    (hx : HasSettings x repoUri branch path format action)
    (hy : HasSettings y repoUri branch path format action)
    (herror : y.get "lastError" = x.get "lastError") : info.Reads order secret y where
  repoUri := hy.repoUri.trans (hx.repoUri.symm.trans h.repoUri)
  path := hy.path.trans (hx.path.symm.trans h.path)
  branch := hy.branch.trans (hx.branch.symm.trans h.branch)
  format := hy.format.trans (hx.format.symm.trans h.format)
  action := hy.action.trans (hx.action.symm.trans h.action)
  lastError := herror.trans h.lastError
  provider := h.provider

theorem exists_reads (order : Reorder (String × String)) (secret : Map String String) {x : Json ν}
    (hx : x ≠ .null) : ∃ info : GitopsInfo ν, info.Reads order secret x := by
  obtain ⟨repoUri, hrepoUri⟩ := get_ok hx "repoUri"
  obtain ⟨path, hpath⟩ := get_ok hx "path"
  obtain ⟨branch, hbranch⟩ := get_ok hx "branch"
  obtain ⟨format, hformat⟩ := get_ok hx "format"
  obtain ⟨action, haction⟩ := get_ok hx "action"
  obtain ⟨lastError, hlastError⟩ := get_ok hx "lastError"
  let found := findProvider order secret repoUri
  exact ⟨⟨found.1, repoUri, found.2.2.2, path, branch, format, action, found.2.1, found.2.2.1,
    lastError⟩, hrepoUri, hpath, hbranch, hformat, haction, hlastError, rfl⟩

end

/-! ## Texts that come back -/

section

variable {ν : Type} [JsonNumber ν] {repoUri branch path format action : String}
  {lastError : Option (Json ν)}

theorem parseEntry_ok_iff {entry : String} {x : Json ν} :
    parseEntry ν entry = .ok x ↔ Json.parse (base64Decode (some entry)).toList = some x := by
  unfold parseEntry
  cases (Json.parse (base64Decode (some entry)).toList : Option (Json ν)) <;> simp

theorem parseEntry_stringify {x y : Json ν} :
    parseEntry ν (base64Encode (String.ofList x.stringify)) = .ok y ↔
      Json.parse (reread x.stringify) = some y := by
  rw [parseEntry_ok_iff, base64Decode_base64Encode, String.toList_ofList]

theorem ascii_of_get {x : Json ν} {key : String} {v : Json ν} (hx : Ascii x.stringify)
    (h : x.get key = .ok (some v)) : Ascii v.stringify := by
  cases x with
  | obj fields =>
    have hlookup : fields.reverse.lookup key = some v := Except.ok.inj h
    obtain ⟨before, after, hfields, -⟩ := List.lookup_eq_some_iff.mp hlookup
    have hmem : (key, v) ∈ fields := by
      rw [← List.mem_reverse, hfields]
      exact List.mem_append_right _ List.mem_cons_self
    exact ((Json.ascii_fieldText _).mp ((Json.ascii_obj_iff fields).mp hx _ hmem)).2
  | null => cases h
  | bool b => cases h
  | num n => cases h
  | str s => cases h
  | arr elems => cases h

/-- All texts of the settings are ASCII. -/
def AsciiSettings (repoUri branch path format action : String) : Prop :=
  ∀ text ∈ [repoUri, branch, path, format, action], Ascii text.toList

theorem HasSettings.ascii {x : Json ν} (h : HasSettings x repoUri branch path format action)
    (hx : Ascii x.stringify) : AsciiSettings repoUri branch path format action := by
  have htext : ∀ {key text : String}, x.get key = .ok (some (.str text)) → Ascii text.toList :=
    fun hget => (Json.ascii_quote _).mp (ascii_of_get hx hget)
  simp only [AsciiSettings, List.forall_mem_cons]
  exact ⟨htext h.repoUri, htext h.branch, htext h.path, htext h.format, htext h.action,
    fun _ hmem => by cases hmem⟩

theorem ascii_downstreamData :
    Ascii (downstreamData repoUri branch path format action lastError).stringify ↔
      AsciiSettings repoUri branch path format action ∧
        ∀ e, lastError = some e → Ascii e.stringify := by
  constructor
  · intro h
    refine ⟨hasSettings_downstreamData.ascii h, fun e he => ?_⟩
    have hget : (downstreamData repoUri branch path format action lastError).get "lastError" =
        .ok (some e) := by rw [get_lastError_downstreamData, he]
    exact ascii_of_get h hget
  · intro ⟨hsettings, herror⟩
    have htext : ∀ key ∈ ["repoUri", "branch", "path", "format", "action"],
        ∀ text ∈ [repoUri, branch, path, format, action],
          Ascii (Json.fieldText (key, (.str text : Json ν))) := by
      intro key hkey text hmem
      have hkeys : ∀ key ∈ ["repoUri", "branch", "path", "format", "action"],
          Ascii key.toList := by decide
      exact (Json.ascii_fieldText _).mpr
        ⟨hkeys key hkey, (Json.ascii_quote text).mpr (hsettings text hmem)⟩
    unfold downstreamData
    rw [Json.ascii_obj_iff, List.forall_mem_append]
    constructor
    · simp only [List.forall_mem_cons]
      exact ⟨htext _ (by simp) _ (by simp), htext _ (by simp) _ (by simp),
        htext _ (by simp) _ (by simp), htext _ (by simp) _ (by simp),
        htext _ (by simp) _ (by simp), fun _ hmem => by cases hmem⟩
    · intro field hfield
      obtain ⟨e, he, rfl⟩ := Option.map_eq_some_iff.mp (Option.mem_toList.mp hfield)
      exact (Json.ascii_fieldText _).mpr
        ⟨(by decide : Ascii "lastError".toList), herror e he⟩

end

/-! ## What is stored for a pair -/

def storedEntry (cluster : Cluster) (appId clusterId : String) : Option String :=
  (cluster.configMap.getD ∅).lookup (appClusterKey appId clusterId)

def storedData (ν : Type) [JsonNumber ν] (cluster : Cluster) (appId clusterId : String) :
    Option (Json ν) :=
  (storedEntry cluster appId clusterId).bind fun entry => (parseEntry ν entry).toOption

section

variable {ν : Type} [JsonNumber ν] {order : Reorder (String × String)} {cluster before : Cluster}
  {appId clusterId repoUri branch path format action : String} {lastError : Option (Json ν)}

/-- An entry that exists can be read. -/
def Readable (ν : Type) [JsonNumber ν] (cluster : Cluster) (appId clusterId : String) : Prop :=
  ∀ entry, storedEntry cluster appId clusterId = some entry →
    ∃ x : Json ν, parseEntry ν entry = .ok x ∧ x ≠ .null

omit [JsonNumber ν] in
theorem keptError_ok_iff {x : Json ν} (hnull : x ≠ .null) :
    keptError branch repoUri x = .ok lastError ↔ KeepsError (some x) branch repoUri lastError := by
  by_cases hsame : SameRepo x branch repoUri
  · rw [keptError_of_sameRepo hsame, readKey_ok_iff]
    constructor
    · intro h
      refine ⟨fun y hy _ => ?_, fun hchanged => absurd hsame (hchanged x rfl)⟩
      cases hy
      exact h
    · intro h
      exact h.same x rfl hsame
  · rw [keptError_of_not_sameRepo hnull hsame]
    constructor
    · intro h
      cases h
      refine ⟨fun y hy hrepo => ?_, fun _ => rfl⟩
      cases hy
      exact absurd hrepo hsame
    · intro h
      rw [h.changed fun y hy => by cases hy; exact hsame]

theorem readable_iff {entry : String} (hentry : storedEntry cluster appId clusterId = some entry) :
    Readable ν cluster appId clusterId ↔ ∃ x : Json ν, parseEntry ν entry = .ok x ∧ x ≠ .null := by
  unfold Readable
  rw [hentry]
  constructor
  · intro h
    exact h entry rfl
  · intro h e he
    cases he
    exact h

theorem priorError_ok_iff :
    priorError ν (cluster.configMap.getD ∅) (appClusterKey appId clusterId) branch repoUri =
        .ok lastError ↔
      Readable ν cluster appId clusterId ∧
        KeepsError (storedData ν cluster appId clusterId) branch repoUri lastError := by
  unfold priorError storedData
  have hlookup : (cluster.configMap.getD ∅).lookup (appClusterKey appId clusterId) =
      storedEntry cluster appId clusterId := rfl
  rw [hlookup]
  cases hentry : storedEntry cluster appId clusterId with
  | none =>
    constructor
    · intro h
      cases h
      refine ⟨fun e he => ?_, fun _ h => (by cases h), fun _ => rfl⟩
      rw [hentry] at he
      cases he
    · intro h
      rw [h.2.changed fun _ hx => by cases hx]
  | some entry =>
    dsimp only
    rw [Option.bind_some, readable_iff hentry]
    cases parseEntry ν entry with
    | error e =>
      refine iff_of_false (fun h => by cases h) ?_
      rintro ⟨⟨x, hx, -⟩, -⟩
      cases hx
    | ok x =>
      have hbind : (Except.ok x >>= keptError branch repoUri) = keptError branch repoUri x := rfl
      rw [hbind]
      by_cases hnull : x = .null
      · -- null has no key to read
        subst hnull
        refine iff_of_false (fun h => by cases h) ?_
        rintro ⟨⟨y, hy, hne⟩, -⟩
        cases hy
        exact hne rfl
      · rw [and_iff_right ⟨x, rfl, hnull⟩]
        exact keptError_ok_iff hnull

/-! ## What is returned for a pair -/

theorem gitopsData_ok_iff {configMap : Map String String} {x : Json ν}
    (hconfig : cluster.configMap = some configMap) :
    gitopsData ν configMap appId clusterId = .ok x ↔
      storedData ν cluster appId clusterId = some x := by
  unfold gitopsData storedData storedEntry bodyData
  rw [hconfig, Option.getD_some]
  by_cases hempty : configMap.entries = []
  · have hlookup : configMap.lookup (appClusterKey appId clusterId) = none := by
      rw [AList.lookup_eq_none, AList.mem_keys, AList.keys, hempty]
      exact List.not_mem_nil
    rw [if_pos hempty, hlookup]
    exact iff_of_false (fun h => by cases h) (fun h => by cases h)
  · rw [if_neg hempty]
    dsimp only
    cases configMap.lookup (appClusterKey appId clusterId) with
    | none => exact iff_of_false (fun h => by cases h) (fun h => by cases h)
    | some entry =>
      dsimp only
      rw [Option.bind_some]
      cases parseEntry ν entry <;> simp [Except.toOption]

theorem found_ok_iff {α : Type} {object : Option α} {a : α} :
    found object = .ok a ↔ object = some a := by
  cases object <;> simp [found]

theorem gitopsProviders_ok_iff {secret secretData : Map String String} :
    gitopsProviders secret = .ok secretData ↔ secret.entries ≠ [] ∧ secret = secretData := by
  unfold gitopsProviders bodyData
  by_cases hempty : secret.entries = []
  · simp [hempty]
  · simp [hempty]

theorem readGitopsInfo_ok_iff {info : GitopsInfo ν} :
    readGitopsInfo order ν cluster appId clusterId = .ok info ↔
      ∃ secret x, cluster.secret = some secret ∧ secret.entries ≠ [] ∧
        storedData ν cluster appId clusterId = some x ∧ info.Reads order secret x := by
  unfold readGitopsInfo
  simp only [Except.bind_eq_ok, found_ok_iff, gitopsProviders_ok_iff, readKey_ok_iff]
  constructor
  · intro h
    obtain ⟨secret, hsecret, configMap, hconfig, x, hx, secretData, ⟨hentries, hsame⟩, repoUri,
      hrepoUri, path, hpath, branch, hbranch, format, hformat, action, haction, lastError,
      hlastError, hinfo⟩ := h
    subst hsame
    cases hinfo
    exact ⟨secret, x, hsecret, hentries, (gitopsData_ok_iff hconfig).mp hx, hrepoUri, hpath,
      hbranch, hformat, haction, hlastError, rfl⟩
  · intro h
    obtain ⟨secret, x, hsecret, hentries, hx, hreads⟩ := h
    have hconfig : ∃ configMap, cluster.configMap = some configMap := by
      cases hnone : cluster.configMap with
      | some configMap => exact ⟨configMap, rfl⟩
      | none =>
        unfold storedData storedEntry at hx
        rw [hnone] at hx
        cases hx
    obtain ⟨configMap, hconfig⟩ := hconfig
    refine ⟨secret, hsecret, configMap, hconfig, x, (gitopsData_ok_iff hconfig).mpr hx, secret,
      ⟨hentries, rfl⟩, info.repoUri, hreads.repoUri, info.path, hreads.path, info.branch,
      hreads.branch, info.format, hreads.format, info.action, hreads.action, info.lastError,
      hreads.lastError, ?_⟩
    rw [← hreads.provider]
    rfl

theorem getGitopsInfo_ok_iff {info : GitopsInfo ν} :
    getGitopsInfo order ν cluster appId clusterId = .ok info ↔
      ∃ secret x, cluster.secret = some secret ∧ secret.entries ≠ [] ∧
        storedData ν cluster appId clusterId = some x ∧ info.Reads order secret x := by
  rw [← readGitopsInfo_ok_iff]
  unfold getGitopsInfo
  cases readGitopsInfo order ν cluster appId clusterId <;> simp

/-- What is returned depends on the secret and on what is stored for the pair. -/
theorem toOption_getGitopsInfo {after : Cluster} {appId' clusterId' : String}
    (hsecret : after.secret = cluster.secret)
    (hstored : storedData ν after appId' clusterId' = storedData ν cluster appId clusterId) :
    (getGitopsInfo order ν after appId' clusterId').toOption =
      (getGitopsInfo order ν cluster appId clusterId).toOption := by
  -- the texts of the errors may differ
  have hok : ∀ info, getGitopsInfo order ν after appId' clusterId' = .ok info ↔
      getGitopsInfo order ν cluster appId clusterId = .ok info := by
    intro info
    rw [getGitopsInfo_ok_iff, getGitopsInfo_ok_iff, hsecret, hstored]
  cases hcluster : getGitopsInfo order ν cluster appId clusterId with
  | ok info => rw [(hok info).mpr hcluster]
  | error e =>
    cases hafter : getGitopsInfo order ν after appId' clusterId' with
    | ok info =>
      rw [(hok info).mp hafter] at hcluster
      cases hcluster
    | error e' => rfl

end

/-! ## The key of a pair -/

theorem toList_appClusterKey (appId clusterId : String) :
    (appClusterKey appId clusterId).toList = appId.toList ++ '-' :: clusterId.toList := by
  simp [appClusterKey, toString]

/-- No other pair has the key of this one. -/
def Alone (appId clusterId : String) : Prop := '-' ∉ appId.toList ∧ '-' ∉ clusterId.toList

section

variable {appId clusterId : String}

theorem Alone.eq (h : Alone appId clusterId) {appId' clusterId' : String}
    (hkey : appClusterKey appId' clusterId' = appClusterKey appId clusterId) :
    (appId', clusterId') = (appId, clusterId) := by
  have hlist : appId.toList ++ '-' :: clusterId.toList =
      appId'.toList ++ '-' :: clusterId'.toList := by
    rw [← toList_appClusterKey, ← toList_appClusterKey, hkey]
  -- there is one separator on the left, so there is one on the right
  obtain ⟨happ, -, hcluster⟩ := (List.append_cons_inj_of_notMem h.1 h.2).mp hlist
  rw [String.toList_inj.mp happ, String.toList_inj.mp hcluster]

/-- With a separator in one of the ids there is another pair. -/
theorem exists_samePair (h : ¬ Alone appId clusterId) :
    ∃ appId' clusterId', (appId', clusterId') ≠ (appId, clusterId) ∧
      appClusterKey appId' clusterId' = appClusterKey appId clusterId := by
  have hkey : ∀ {a c : List Char}, a ++ '-' :: c = appId.toList ++ '-' :: clusterId.toList →
      appClusterKey (String.ofList a) (String.ofList c) = appClusterKey appId clusterId := by
    intro a c heq
    rw [← String.toList_inj, toList_appClusterKey, toList_appClusterKey, String.toList_ofList,
      String.toList_ofList, heq]
  have hlength : ∀ {s t : String}, s.toList.length ≠ t.toList.length → s ≠ t := by
    rintro s t hne rfl
    exact hne rfl
  -- the ids are cut at another separator than their own
  by_cases happ : '-' ∈ appId.toList
  · obtain ⟨s, t, hsplit⟩ := List.append_of_mem happ
    refine ⟨String.ofList s, String.ofList (t ++ '-' :: clusterId.toList), ?_, hkey ?_⟩
    · intro heq
      have hfst : String.ofList s = appId := congrArg Prod.fst heq
      refine absurd hfst (hlength ?_)
      rw [String.toList_ofList, hsplit, List.length_append, List.length_cons]
      omega
    · rw [hsplit, List.append_assoc, List.cons_append]
  · have hcluster : '-' ∈ clusterId.toList := by
      by_contra hnot
      exact h ⟨happ, hnot⟩
    obtain ⟨s, t, hsplit⟩ := List.append_of_mem hcluster
    refine ⟨String.ofList (appId.toList ++ '-' :: s), String.ofList t, ?_, hkey ?_⟩
    · intro heq
      have hfst : String.ofList (appId.toList ++ '-' :: s) = appId := congrArg Prod.fst heq
      refine absurd hfst (hlength ?_)
      rw [String.toList_ofList, List.length_append, List.length_cons]
      omega
    · rw [hsplit, List.append_assoc, List.cons_append]

end

/-! ## The round trip -/

section

variable {ν : Type} [JsonNumber ν] {order : Reorder (String × String)} {before after : Cluster}
  {appId clusterId repoUri branch path format action : String}

/-- After the settings have been stored, they are returned, with the last error as it should be,
and what is returned for any other pair is what was returned before. -/
def RoundTrips (ν : Type) [JsonNumber ν] (order : Reorder (String × String)) (before : Cluster)
    (appId clusterId repoUri branch path format action : String) : Prop :=
  ∃ after, setDownstreamGitOps ν before appId clusterId repoUri branch path format action =
      .ok after ∧
    (∃ info : GitopsInfo ν, getGitopsInfo order ν after appId clusterId = .ok info ∧
      info.Returns repoUri branch path format action ∧
      KeepsError (storedData ν before appId clusterId) branch repoUri info.lastError) ∧
    ∀ appId' clusterId', (appId', clusterId') ≠ (appId, clusterId) →
      (getGitopsInfo order ν after appId' clusterId').toOption =
        (getGitopsInfo order ν before appId' clusterId').toOption

/-- The secret exists, the texts are ASCII, the entry that exists can be read, and a last error
that is kept is ASCII too; the entry is not that of another pair, or it already has the settings. -/
structure Recoverable (ν : Type) [JsonNumber ν] (before : Cluster)
    (appId clusterId repoUri branch path format action : String) : Prop where
  secret : ∃ secret, before.secret = some secret ∧ secret.entries ≠ []
  settings : AsciiSettings repoUri branch path format action
  readable : Readable ν before appId clusterId
  lastError : ∀ x, storedData ν before appId clusterId = some x → SameRepo x branch repoUri →
    ∀ e, x.get "lastError" = .ok (some e) → Ascii e.stringify
  pair : Alone appId clusterId ∨ ∃ x, storedData ν before appId clusterId = some x ∧
    HasSettings x repoUri branch path format action

/-- The cluster with another entry for the pair. -/
def Cluster.store (cluster : Cluster) (appId clusterId : String) (x : Json ν) : Cluster :=
  { cluster with configMap := some ((cluster.configMap.getD ∅).insert
      (appClusterKey appId clusterId) (base64Encode (String.ofList x.stringify))) }

/-- What is stored afterwards. -/
structure Stored (before after : Cluster) (appId clusterId : String) (x : Json ν) : Prop where
  secret : after.secret = before.secret
  stored : storedData ν after appId clusterId = Json.parse (reread x.stringify)
  other : ∀ appId' clusterId',
    appClusterKey appId' clusterId' ≠ appClusterKey appId clusterId →
    storedData ν after appId' clusterId' = storedData ν before appId' clusterId'

theorem storedData_congr {cluster : Cluster} {appId' clusterId' : String}
    (hkey : appClusterKey appId' clusterId' = appClusterKey appId clusterId) :
    storedData ν cluster appId' clusterId' = storedData ν cluster appId clusterId := by
  unfold storedData storedEntry
  rw [hkey]

theorem setDownstreamGitOps_ok_iff :
    setDownstreamGitOps ν before appId clusterId repoUri branch path format action = .ok after ↔
      Readable ν before appId clusterId ∧ ∃ lastError : Option (Json ν),
        KeepsError (storedData ν before appId clusterId) branch repoUri lastError ∧
        after = before.store appId clusterId
          (downstreamData repoUri branch path format action lastError) := by
  unfold setDownstreamGitOps
  dsimp only
  cases hprior : priorError ν (before.configMap.getD ∅) (appClusterKey appId clusterId) branch
      repoUri with
  | error e =>
    refine iff_of_false (fun h => by cases h) ?_
    intro h
    obtain ⟨hreadable, lastError, hkeeps, -⟩ := h
    cases hprior.symm.trans (priorError_ok_iff.mpr ⟨hreadable, hkeeps⟩)
  -- the error that is kept is determined by what is stored
  | ok lastError =>
    obtain ⟨hreadable, hkeeps⟩ := priorError_ok_iff.mp hprior
    constructor
    · intro h
      exact ⟨hreadable, lastError, hkeeps, (Except.ok.inj h).symm⟩
    · intro h
      obtain ⟨-, lastError', hkeeps', hafter⟩ := h
      rw [hafter, hkeeps.unique hkeeps']
      rfl

theorem stored_store (x : Json ν) :
    Stored before (before.store appId clusterId x) appId clusterId x where
  secret := rfl
  stored := by
    unfold storedData storedEntry Cluster.store
    rw [Option.getD_some, AList.lookup_insert, Option.bind_some]
    -- what is stored is what is parsed from the text that comes back
    cases hparse : (Json.parse (reread x.stringify) : Option (Json ν)) with
    | some y => rw [parseEntry_stringify.mpr hparse]; rfl
    | none =>
      cases hentry : parseEntry ν (base64Encode (String.ofList x.stringify)) with
      | error e => rfl
      | ok y => cases hparse.symm.trans (parseEntry_stringify.mp hentry)
  other appId' clusterId' hkey := by
    unfold storedData storedEntry Cluster.store
    rw [Option.getD_some, AList.lookup_insert_ne hkey]

theorem Recoverable.of_roundTrips
    (h : RoundTrips ν order before appId clusterId repoUri branch path format action) :
    Recoverable ν before appId clusterId repoUri branch path format action := by
  obtain ⟨after, hset, ⟨info, hinfo, hreturns, hkeeps⟩, hother⟩ := h
  obtain ⟨hreadable, lastError, -, hafter⟩ := setDownstreamGitOps_ok_iff.mp hset
  have hstored : Stored before after appId clusterId
      (downstreamData repoUri branch path format action lastError) := hafter ▸ stored_store _
  obtain ⟨secret, x, hsecret, hentries, hx, hreads⟩ := getGitopsInfo_ok_iff.mp hinfo
  -- whatever has been read is ASCII
  have hascii : Ascii x.stringify := ascii_of_parse_reread (hstored.stored.symm.trans hx)
  refine ⟨⟨secret, hstored.secret ▸ hsecret, hentries⟩, (hreads.hasSettings hreturns).ascii hascii,
    hreadable, ?_, ?_⟩
  · intro y hy hsame e he
    have hkept : info.lastError = some e := Except.ok.inj ((hkeeps.same y hy hsame).symm.trans he)
    exact ascii_of_get hascii (hkept ▸ hreads.lastError)
  · by_cases halone : Alone appId clusterId
    · exact .inl halone
    · -- the pair with the same key must not notice the change
      obtain ⟨appId', clusterId', hne, hkey⟩ := exists_samePair halone
      have hafter' : (getGitopsInfo order ν after appId' clusterId').toOption =
          (getGitopsInfo order ν after appId clusterId).toOption :=
        toOption_getGitopsInfo rfl (storedData_congr hkey)
      have hbefore := (hother appId' clusterId' hne).symm.trans hafter'
      rw [hinfo] at hbefore
      have hbefore' : getGitopsInfo order ν before appId' clusterId' = .ok info := by
        cases hget : getGitopsInfo order ν before appId' clusterId' with
        | error e => rw [hget] at hbefore; cases hbefore
        | ok info' => rw [hget] at hbefore; cases hbefore; rfl
      obtain ⟨secret', y, -, -, hy, hreads'⟩ := getGitopsInfo_ok_iff.mp hbefore'
      exact .inr ⟨y, (storedData_congr hkey).symm.trans hy, hreads'.hasSettings hreturns⟩

theorem Recoverable.roundTrips
    (h : Recoverable ν before appId clusterId repoUri branch path format action) :
    RoundTrips ν order before appId clusterId repoUri branch path format action := by
  obtain ⟨secret, hsecret, hentries⟩ := h.secret
  obtain ⟨lastError, hkeeps⟩ :=
    exists_keepsError (storedData ν before appId clusterId) branch repoUri
  let x : Json ν := downstreamData repoUri branch path format action lastError
  obtain ⟨after, hafter⟩ : ∃ after, after = before.store appId clusterId x := ⟨_, rfl⟩
  have hset := setDownstreamGitOps_ok_iff.mpr ⟨h.readable, lastError, hkeeps, hafter⟩
  have hstored : Stored before after appId clusterId x := hafter ▸ stored_store x
  have hx : HasSettings x repoUri branch path format action := hasSettings_downstreamData
  have hxerror : x.get "lastError" = .ok lastError := get_lastError_downstreamData
  -- the text of the entry is ASCII, so it comes back
  have hascii : Ascii x.stringify := by
    refine ascii_downstreamData.mpr ⟨h.settings, fun e he => ?_⟩
    by_cases hsame : ∃ y, storedData ν before appId clusterId = some y ∧ SameRepo y branch repoUri
    · obtain ⟨y, hy, hrepo⟩ := hsame
      exact h.lastError y hy hrepo e (he ▸ hkeeps.same y hy hrepo)
    · have hnone := hkeeps.changed fun y hy hrepo => hsame ⟨y, hy, hrepo⟩
      rw [hnone] at he
      cases he
  have hread : storedData ν after appId clusterId = some x :=
    hstored.stored.trans (parse_reread hascii)
  obtain ⟨info, hreads⟩ := exists_reads order secret hx.ne_null
  have hafterSecret : after.secret = some secret := hstored.secret.trans hsecret
  have hinfo : getGitopsInfo order ν after appId clusterId = .ok info :=
    getGitopsInfo_ok_iff.mpr ⟨secret, x, hafterSecret, hentries, hread, hreads⟩
  have hkept : info.lastError = lastError :=
    Except.ok.inj (hreads.lastError.symm.trans hxerror)
  refine ⟨after, hset, ⟨info, hinfo, hreads.returns hx, hkept ▸ hkeeps⟩, ?_⟩
  intro appId' clusterId' hne
  by_cases hkey : appClusterKey appId' clusterId' = appClusterKey appId clusterId
  · rcases h.pair with halone | ⟨y, hy, hysettings⟩
    · exact absurd (halone.eq hkey) hne
    · -- the entry had the same settings, and so it has the same error
      have hsame : SameRepo y branch repoUri := ⟨hysettings.branch, hysettings.repoUri⟩
      have herror : y.get "lastError" = x.get "lastError" :=
        (hkeeps.same y hy hsame).trans hxerror.symm
      have hbefore : getGitopsInfo order ν before appId' clusterId' = .ok info :=
        getGitopsInfo_ok_iff.mpr ⟨secret, y, hsecret, hentries, (storedData_congr hkey).trans hy,
          hreads.congr hx hysettings herror⟩
      have hafter' : getGitopsInfo order ν after appId' clusterId' = .ok info :=
        getGitopsInfo_ok_iff.mpr ⟨secret, x, hafterSecret, hentries,
          (storedData_congr hkey).trans hread, hreads⟩
      rw [hbefore, hafter']
  · exact toOption_getGitopsInfo hstored.secret (hstored.other appId' clusterId' hkey)

end

/-- **When the settings come back.** -/
theorem downstreamGitOps_roundTrips_iff (ν : Type) [JsonNumber ν]
    (order : Reorder (String × String)) (before : Cluster)
    (appId clusterId repoUri branch path format action : String) :
    RoundTrips ν order before appId clusterId repoUri branch path format action ↔
      Recoverable ν before appId clusterId repoUri branch path format action :=
  ⟨Recoverable.of_roundTrips, Recoverable.roundTrips⟩

/-! ## A branch that does not come back -/

def oneProvider : Cluster :=
  createGitOpsRepo (.id _) { secret := none, configMap := none } "github" "https://github.com/o/r"
    "" "private" "public"

/-- The branch is `ä`. -/
theorem not_roundTrips_branch :
    ¬ RoundTrips Empty (.id _) oneProvider "app" "cluster" "https://github.com/o/r"
      (String.ofList [Char.ofNat 0xE4]) "/" "single" "commit" := by
  intro h
  obtain ⟨after, hset, ⟨info, hinfo, hreturns, -⟩, -⟩ := h
  have hread : ((setDownstreamGitOps Empty oneProvider "app" "cluster" "https://github.com/o/r"
      (String.ofList [Char.ofNat 0xE4]) "/" "single" "commit" >>= fun after =>
        getGitopsInfo (.id _) Empty after "app" "cluster").toOption.map fun info =>
          info.branch.map Json.stringify) ≠
      some (some (Json.quote (String.ofList [Char.ofNat 0xE4]))) := by decide +kernel
  rw [hset] at hread
  apply hread
  change (getGitopsInfo (.id _) Empty after "app" "cluster").toOption.map _ = _
  rw [hinfo]
  change some (info.branch.map Json.stringify) = _
  rw [hreturns.branch]
  rfl

end Kotsadm.GitOps
