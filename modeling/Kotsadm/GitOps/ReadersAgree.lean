import Kotsadm.GitOps.DownstreamGitOps

/-!
# ReadersAgree — when Go and TypeScript read the same repository

Go takes the index from any key whose third part is `repoUri` and whose value is the URI.
TypeScript takes the tenth character of the first key whose value is the URI.  They agree if both
find no repository, or if all of these indices are one digit and what is stored under it reads the
same for both.
-/

namespace Kotsadm.GitOps

open Grouping GoString

/-! ## The property -/

section

variable {ν : Type}

/-- The character that TypeScript takes for the index. -/
def selectChar (order : Reorder (String × String)) (secretData : Map String String)
    (repoUri : Option (Json ν)) : Option String :=
  match repoUri with
  | some (.str repoUri) => (findUri order secretData repoUri).map indexChar
  | _ => none

def SameText (x : Option (Json ν)) (text : GoString) : Prop :=
  ∃ s, x = some (.str s) ∧ ofChars s.toList = text

/-- Both return the same, and neither indexes past the end of the parts of the URI. -/
structure Same (cipher : Cipher) (info : GitopsInfo ν) (creds : GitOpsCreds) (g : GitOpsConfig) :
    Prop where
  provider : ofChars info.provider.toList = g.provider
  repoURI : SameText info.repoUri g.repoURI
  branch : SameText info.branch g.branch
  path : SameText info.path g.path
  format : SameText info.format g.format
  action : SameText info.action g.action
  publicKey : ofChars info.publicKey.toList = g.publicKey
  /-- TypeScript returns the key as it is stored; its callers decrypt it. -/
  privateKey : decryptKey cipher (ofChars creds.privKey.toList) = .ok g.privateKey
  cloneURL : g.cloneURL = some (ofChars creds.cloneUri.toList)
  inBounds : cloneHost.lookup creds.provider ≠ none → 5 ≤ (creds.uri.toList.splitOn '/').length

end

/-- What one of them returns the other one returns, in whatever order Go walks its map. -/
structure Agree (ν : Type) [JsonNumber ν] (order : Reorder (String × String)) (cipher : Cipher)
    (objects : Objects) (appId clusterId : String) : Prop where
  ofGo : ∀ mapOrder idx g,
    getDownstreamGitOps ν mapOrder cipher objects appId clusterId = .ok (some (idx, g)) →
    ∃ info creds, getGitopsInfo order ν objects.cluster appId clusterId = .ok info ∧
      getGitOpsCreds order ν objects.cluster appId clusterId = .ok creds ∧
      selectChar order (encodeData (objects.secret.getD ∅)) info.repoUri = some (toString idx) ∧
      Same cipher info creds g
  ofTypeScript : ∀ mapOrder creds,
    getGitOpsCreds order ν objects.cluster appId clusterId = .ok creds →
    ∃ idx g, getDownstreamGitOps ν mapOrder cipher objects appId clusterId = .ok (some (idx, g))

/-! ## The condition -/

/-- The secret and the settings that Go has when it begins to look for the repository. -/
def goReads (ν : Type) [JsonNumber ν] (objects : Objects) (appId clusterId : String) :
    Option (Map String GoString × Map String String) := do
  let secretData ← objects.secret
  let configMap ← objects.configMap
  let encoded ← configMap.lookup (appClusterKey appId clusterId)
  let settings ← (configMapData ν encoded).toOption
  return (secretData, settings)

/-- There is a repository for TypeScript to look for. -/
structure Asks (ν : Type) [JsonNumber ν] (objects : Objects) (appId clusterId : String)
    (data : Map String GoString) (x : Json ν) (uri : String) : Prop where
  secret : objects.secret = some data
  entries : data.entries ≠ []
  entry : storedData ν objects.cluster appId clusterId = some x
  repoUri : x.get "repoUri" = .ok (some (.str uri))

/-- A key of the URI has the index. -/
def Candidate (data : Map String GoString) (repoURI : GoString) (idx : Int) : Prop :=
  ∃ key, uriIndex key = some idx ∧ data.lookup key = some repoURI

/-- Go can decrypt the key that is stored under an index. -/
def Decrypts (cipher : Cipher) (data : Map String GoString) (idx : Int) : Prop :=
  ∃ privateKey, decryptKey cipher (secretText data idx "privateKey") = .ok privateKey

/-- The clone URL of a provider that both know needs five parts; that of another one is empty. -/
def CloneOk (provider : GoString) (uri : String) : Prop :=
  if (GitOpsConfig.cloneHosts.lookup provider).isSome then 5 ≤ (uri.toList.splitOn '/').length
  else uri = ""

/-- What is stored under an index reads the same. -/
structure SameProvider (cipher : Cipher) (data : Map String GoString) (uri index : String)
    (idx : Int) : Prop where
  index : index = toString idx
  repoUri : secretText data idx "repoUri" = ofChars uri.toList
  provider : AsciiBytes (secretText data idx "type")
  publicKey : AsciiBytes (secretText data idx "publicKey")
  privateKey : Decrypts cipher data idx
  cloneURL : CloneOk (secretText data idx "type") uri

/-- The other settings are texts, and read the same. -/
def SameSettings {ν : Type} (x : Json ν) (settings : Map String String) : Prop :=
  ∀ key ∈ ["branch", "path", "format", "action"],
    x.get key = .ok (some (.str ((settings.lookup key).getD "")))

section

variable (ν : Type) [JsonNumber ν] (order : Reorder (String × String)) (cipher : Cipher)
  (objects : Objects) (appId clusterId : String)

/-- Neither side finds a repository. -/
structure NeitherFinds : Prop where
  typeScript : ∀ data (x : Json ν) uri, ¬ Asks ν objects appId clusterId data x uri
  go : ∀ data settings idx, goReads ν objects appId clusterId = some (data, settings) →
    Candidate data (setting settings "repoUri") idx → ¬ Decrypts cipher data idx

/-- Both find the same one. -/
structure BothFind (data : Map String GoString) (x : Json ν) (uri key : String)
    (settings : Map String String) : Prop where
  asks : Asks ν objects appId clusterId data x uri
  reads : goReads ν objects appId clusterId = some (data, settings)
  found : findUri order (encodeData data) uri = some key
  candidate : ∃ idx, Candidate data (setting settings "repoUri") idx
  provider : ∀ idx, Candidate data (setting settings "repoUri") idx →
    SameProvider cipher data uri (indexChar key) idx
  same : SameSettings x settings

def SameRepository : Prop :=
  NeitherFinds ν cipher objects appId clusterId ∨
    ∃ data x uri key settings, BothFind ν order cipher objects appId clusterId data x uri key settings

end

/-! ## Texts of the secret -/

section

variable {data : Map String GoString} {idx : Int} {uri key : String}

theorem lookup_encodeData (data : Map String GoString) (key : String) :
    (encodeData data).lookup key =
      (data.lookup key).map fun value => String.ofList (NodeBuffer.base64Encode value) := by
  apply Option.ext
  intro text
  rw [← Option.mem_def, AList.mem_lookup_iff, Option.map_eq_some_iff]
  constructor
  · intro h
    obtain ⟨entry, hentry, heq⟩ := List.mem_map.mp h
    cases heq
    exact ⟨entry.2, AList.mem_lookup_iff.mpr hentry, rfl⟩
  · intro h
    obtain ⟨value, hvalue, rfl⟩ := h
    exact List.mem_map.mpr ⟨⟨key, value⟩, AList.mem_lookup_iff.mp hvalue, rfl⟩

/-- TypeScript reads the bytes of the secret as ASCII. -/
theorem base64Decode_encodeData (data : Map String GoString) (key : String) :
    base64Decode ((encodeData data).lookup key) =
      String.ofList (NodeBuffer.toAscii ((data.lookup key).getD [])) := by
  rw [lookup_encodeData]
  cases data.lookup key with
  | none => rfl
  | some value =>
    show String.ofList (NodeBuffer.toAscii (NodeBuffer.base64Decode _)) = _
    rw [String.toList_ofList, NodeBuffer.base64Decode_base64Encode]
    rfl

/-- The text of a field, as TypeScript has it, is that of Go exactly if it is ASCII. -/
theorem ofChars_field_iff {index : String} (hindex : index = toString idx) (field : String) :
    ofChars (base64Decode ((encodeData data).lookup (providerKey index field))).toList =
        secretText data idx field ↔
      AsciiBytes (secretText data idx field) := by
  rw [base64Decode_encodeData, String.toList_ofList, hindex]
  exact ofChars_toAscii_eq_iff

theorem ofChars_string_inj {s t : String} (h : ofChars s.toList = ofChars t.toList) : s = t :=
  String.toList_inj.mp (ofChars_inj h)

theorem sameText_str {s : String} {text : GoString} {ν : Type} :
    SameText (some (.str s : Json ν)) text ↔ ofChars s.toList = text := by
  constructor
  · rintro ⟨t, ht, htext⟩
    cases ht
    exact htext
  · intro h
    exact ⟨s, rfl, h⟩

/-- A key that Go decrypts is ASCII, so TypeScript returns what is stored. -/
theorem asciiBytes_of_decryptKey {cipher : Cipher} {text privateKey : GoString}
    (h : decryptKey cipher text = .ok privateKey) : AsciiBytes text := by
  unfold decryptKey at h
  obtain ⟨decrypt, -, hdecode⟩ := Except.bind_eq_ok.mp h
  obtain ⟨decoded, hdecoded, -⟩ := Except.bind_eq_ok.mp hdecode
  rw [Except.wrapError_eq_ok] at hdecoded
  unfold decodeString at hdecoded
  split at hdecoded
  next => cases hdecoded
  next bytes hbytes => exact asciiBytes_of_decodeStd hbytes

end

/-! ## The clone URL -/

section

variable {provider uri : String} {g : GitOpsConfig}

theorem lookup_map {α β γ δ : Type} [BEq α] [LawfulBEq α] [BEq γ] [LawfulBEq γ] {f : α → γ}
    (g : β → δ) (hf : ∀ a b, f a = f b → a = b) (entries : List (α × β)) (a : α) :
    (entries.map fun entry => (f entry.1, g entry.2)).lookup (f a) =
      (entries.lookup a).map g := by
  induction entries with
  | nil => rfl
  | cons entry entries ih =>
    rw [List.map_cons, List.lookup_cons, List.lookup_cons, ih]
    by_cases hsame : a = entry.1
    · subst hsame
      rw [beq_self_eq_true, beq_self_eq_true]
      rfl
    · rw [beq_false_of_ne hsame, beq_false_of_ne fun h => hsame (hf _ _ h)]

/-- Both know the same hosts. -/
theorem lookup_cloneHosts (provider : String) :
    GitOpsConfig.cloneHosts.lookup (ofChars provider.toList) =
      (cloneHost.lookup provider).map fun host => ofChars host.toList := by
  have hhosts : GitOpsConfig.cloneHosts =
      cloneHost.map fun entry => (ofChars entry.1.toList, ofChars entry.2.toList) := by
    decide
  rw [hhosts]
  exact lookup_map (f := fun s : String => ofChars s.toList)
    (fun host : String => ofChars host.toList) (fun _ _ => ofChars_string_inj) cloneHost provider

theorem ofChars_append (s t : List Char) : ofChars (s ++ t) = ofChars s ++ ofChars t :=
  List.flatMap_append

theorem ofChars_cloneUri {host : String} (hhost : cloneHost.lookup provider = some host)
    {owner repo : List Char} (howner : (uri.toList.splitOn '/')[3]? = some owner)
    (hrepo : (uri.toList.splitOn '/')[4]? = some repo) :
    ofChars (cloneUri provider uri).toList = ascii "git@" ++ ofChars host.toList ++ ascii ":" ++
      ofChars owner ++ ascii "/" ++ ofChars repo ++ ascii ".git" := by
  unfold cloneUri uriPart
  simp only [hhost, howner, hrepo]
  show ofChars ("git@" ++ host ++ ":" ++ String.ofList owner ++ "/" ++ String.ofList repo ++
    ".git").toList = _
  simp only [String.toList_append, String.toList_ofList, ofChars_append]
  rfl

/-- The clone URLs are the same, without an index past the end, exactly under `CloneOk`. -/
theorem cloneURL_iff (hprovider : g.provider = ofChars provider.toList)
    (huri : g.repoURI = ofChars uri.toList) :
    (g.cloneURL = some (ofChars (cloneUri provider uri).toList) ∧
        (cloneHost.lookup provider ≠ none → 5 ≤ (uri.toList.splitOn '/').length)) ↔
      CloneOk g.provider uri := by
  have hsplit : g.repoURI.splitOn 47 = (uri.toList.splitOn '/').map ofChars := by
    rw [huri]
    exact splitOn_ofChars (a := '/') (by decide) uri.toList
  unfold CloneOk GitOpsConfig.cloneURL
  rw [hprovider, lookup_cloneHosts, hsplit]
  cases hhost : cloneHost.lookup provider with
  | none =>
    have hcloneUri : cloneUri provider uri = uri := by
      unfold cloneUri
      rw [hhost]
    rw [hcloneUri]
    dsimp only [Option.map_none]
    constructor
    · rintro ⟨hempty, -⟩
      exact ofChars_string_inj (t := "") (Option.some.inj hempty).symm
    · intro hempty
      change uri = "" at hempty
      rw [hempty]
      exact ⟨rfl, fun h => absurd rfl h⟩
  | some host =>
    dsimp only [Option.map_some]
    constructor
    · rintro ⟨-, hlength⟩
      exact hlength nofun
    · intro hlength
      change 5 ≤ (uri.toList.splitOn '/').length at hlength
      have howner : (uri.toList.splitOn '/')[3]? = some ((uri.toList.splitOn '/')[3]) :=
        List.getElem?_eq_getElem (by omega)
      have hrepo : (uri.toList.splitOn '/')[4]? = some ((uri.toList.splitOn '/')[4]) :=
        List.getElem?_eq_getElem (by omega)
      rw [ofChars_cloneUri hhost howner hrepo, List.getElem?_map, List.getElem?_map, howner, hrepo]
      exact ⟨rfl, fun _ => hlength⟩

end

/-! ## What Go returns -/

section

variable {data : Map String GoString} {repoURI : GoString} {idx : Int}
  {mapOrder : Reorder (String × GoString)}

theorem candidate_of_selectIndex (h : selectIndex mapOrder data repoURI = some idx) :
    Candidate data repoURI idx := by
  obtain ⟨⟨key, val⟩, hmem, hkey⟩ := List.exists_of_findSome?_eq_some h
  dsimp only at hkey
  split at hkey
  next hval =>
    rw [Reorder.mem_apply, mem_pairs, hval] at hmem
    exact ⟨key, hkey, hmem⟩
  next => cases hkey

/-- With a candidate the loop ends at one. -/
theorem exists_selectIndex (h : Candidate data repoURI idx)
    (mapOrder : Reorder (String × GoString)) :
    ∃ found, selectIndex mapOrder data repoURI = some found := by
  obtain ⟨key, hkey, hval⟩ := h
  cases hselect : selectIndex mapOrder data repoURI with
  | some found => exact ⟨found, rfl⟩
  | none =>
    have hmem : (key, repoURI) ∈ mapOrder.apply (pairs data) := by
      rw [Reorder.mem_apply, mem_pairs]
      exact hval
    have hnone := List.findSome?_eq_none_iff.mp hselect (key, repoURI) hmem
    dsimp only at hnone
    rw [if_pos rfl, hkey] at hnone
    cases hnone

/-- At each candidate it may end. -/
theorem exists_mapOrder (h : Candidate data repoURI idx) :
    ∃ mapOrder, selectIndex mapOrder data repoURI = some idx := by
  obtain ⟨key, hkey, hval⟩ := h
  refine ⟨Reorder.first (key, repoURI), ?_⟩
  unfold selectIndex
  rw [Reorder.apply_first (mem_pairs.mpr hval), List.findSome?_cons]
  dsimp only
  rw [if_pos rfl, hkey]

end

/-- What `GetDownstreamGitOps` puts together. -/
def configAt (data : Map String GoString) (settings : Map String String) (idx : Int)
    (privateKey : GoString) : GitOpsConfig where
  provider := secretText data idx "type"
  publicKey := secretText data idx "publicKey"
  privateKey := privateKey
  repoURI := secretText data idx "repoUri"
  branch := setting settings "branch"
  path := setting settings "path"
  format := setting settings "format"
  action := setting settings "action"
  lastError := setting settings "lastError"

section

variable {ν : Type} [JsonNumber ν] {order : Reorder (String × String)} {cipher : Cipher}
  {objects : Objects} {appId clusterId : String} {data : Map String GoString}
  {settings : Map String String} {x : Json ν} {uri key : String} {idx : Int}
  {mapOrder : Reorder (String × GoString)}

theorem getDownstreamGitOps_ok_iff {g : GitOpsConfig} :
    getDownstreamGitOps ν mapOrder cipher objects appId clusterId = .ok (some (idx, g)) ↔
      ∃ data settings privateKey, goReads ν objects appId clusterId = some (data, settings) ∧
        selectIndex mapOrder data (setting settings "repoUri") = some idx ∧
        decryptKey cipher (secretText data idx "privateKey") = .ok privateKey ∧
        configAt data settings idx privateKey = g := by
  -- what is not there ends both
  have hnone : ∀ {data settings}, (none : Option (Map String GoString × Map String String)) ≠
    some (data, settings) := nofun
  unfold getDownstreamGitOps goReads
  cases objects.secret with
  | none => exact iff_of_false nofun (fun ⟨_, _, _, h, _⟩ => hnone h)
  | some secretData =>
  cases objects.configMap with
  | none => exact iff_of_false nofun (fun ⟨_, _, _, h, _⟩ => hnone h)
  | some configMap =>
  dsimp only [Option.bind_eq_bind, Option.bind_some]
  cases configMap.lookup (appClusterKey appId clusterId) with
  | none => exact iff_of_false nofun (fun ⟨_, _, _, h, _⟩ => hnone h)
  | some encoded =>
  dsimp only [Option.bind_some]
  cases configMapData ν encoded with
  | error e => exact iff_of_false nofun (fun ⟨_, _, _, h, _⟩ => hnone h)
  | ok settings =>
  constructor
  · intro h
    obtain ⟨settings', hsettings, hfound⟩ := Except.bind_eq_ok.mp h
    cases hsettings
    split at hfound
    next => cases hfound
    next idx' hselect =>
      obtain ⟨privateKey, hprivateKey, hconfig⟩ := Except.bind_eq_ok.mp hfound
      cases hconfig
      exact ⟨secretData, settings, privateKey, rfl, hselect, hprivateKey, rfl⟩
  · rintro ⟨data', settings', privateKey, hreads, hselect, hprivateKey, rfl⟩
    cases hreads
    refine Except.bind_eq_ok.mpr ⟨settings, rfl, ?_⟩
    rw [hselect]
    exact Except.bind_eq_ok.mpr ⟨privateKey, hprivateKey, rfl⟩

/-! ## What TypeScript returns -/

theorem getGitOpsCreds_ok_iff {cluster : Cluster} {creds : GitOpsCreds} :
    getGitOpsCreds order ν cluster appId clusterId = .ok creds ↔
      ∃ info uri, getGitopsInfo order ν cluster appId clusterId = .ok info ∧
        info.repoUri = some (.str uri) ∧
        creds = ⟨uri, info.publicKey, info.privateKey, info.provider,
          cloneUri info.provider uri⟩ := by
  unfold getGitOpsCreds
  rw [Except.bind_eq_ok]
  constructor
  · rintro ⟨info, hinfo, hcreds⟩
    split at hcreds
    next uri huri =>
      cases hcreds
      exact ⟨info, uri, hinfo, huri, rfl⟩
    all_goals cases hcreds
  · rintro ⟨info, uri, hinfo, huri, rfl⟩
    refine ⟨info, hinfo, ?_⟩
    rw [huri]
    rfl

theorem entries_encodeData : (encodeData data).entries ≠ [] ↔ data.entries ≠ [] :=
  List.map_eq_nil_iff.not

/-- What it reads, where there is a repository to look for. -/
theorem Asks.reads (h : Asks ν objects appId clusterId data x uri) {info : GitopsInfo ν}
    (hinfo : getGitopsInfo order ν objects.cluster appId clusterId = .ok info) :
    info.Reads order (encodeData data) x := by
  obtain ⟨secret, y, hsecret, -, hentry, hreads⟩ := getGitopsInfo_ok_iff.mp hinfo
  change objects.secret.map encodeData = some secret at hsecret
  rw [h.secret] at hsecret
  cases hsecret
  rw [h.entry] at hentry
  cases hentry
  exact hreads

theorem asks_iff (order : Reorder (String × String)) :
    (∃ creds, getGitOpsCreds order ν objects.cluster appId clusterId = .ok creds) ↔
    ∃ data, ∃ x : Json ν, ∃ uri, Asks ν objects appId clusterId data x uri := by
  constructor
  · rintro ⟨creds, hcreds⟩
    obtain ⟨info, uri, hinfo, huri, -⟩ := getGitOpsCreds_ok_iff.mp hcreds
    obtain ⟨secret, x, hsecret, hentries, hentry, hreads⟩ := getGitopsInfo_ok_iff.mp hinfo
    obtain ⟨data, hdata, rfl⟩ := Option.map_eq_some_iff.mp hsecret
    exact ⟨data, x, uri, hdata, entries_encodeData.mp hentries, hentry, huri ▸ hreads.repoUri⟩
  · rintro ⟨data, x, uri, h⟩
    have hnull : x ≠ .null := by
      rintro rfl
      cases h.repoUri
    obtain ⟨info, hreads⟩ := exists_reads order (encodeData data) hnull
    have hinfo : getGitopsInfo order ν objects.cluster appId clusterId = .ok info := by
      refine getGitopsInfo_ok_iff.mpr ⟨encodeData data, x, ?_, ?_, h.entry, hreads⟩
      · show objects.secret.map encodeData = some (encodeData data)
        rw [h.secret]
        rfl
      · exact entries_encodeData.mpr h.entries
    have huri := Except.ok.inj (hreads.repoUri.symm.trans h.repoUri)
    exact ⟨_, getGitOpsCreds_ok_iff.mpr ⟨info, uri, hinfo, huri, rfl⟩⟩

/-! ## When both return the same -/

/-- The provider and the keys under the index of a key. -/
theorem GitopsInfo.Reads.fields {info : GitopsInfo ν}
    (h : info.Reads order (encodeData data) x) (huri : info.repoUri = some (.str uri))
    (hfound : findUri order (encodeData data) uri = some key) :
    info.provider = base64Decode ((encodeData data).lookup (providerKey (indexChar key) "type")) ∧
    info.publicKey =
      base64Decode ((encodeData data).lookup (providerKey (indexChar key) "publicKey")) ∧
    info.privateKey =
      base64Decode ((encodeData data).lookup (providerKey (indexChar key) "privateKey")) := by
  have hprovider := h.provider
  unfold findProvider at hprovider
  rw [huri] at hprovider
  dsimp only at hprovider
  rw [hfound] at hprovider
  unfold providerAt at hprovider
  simp only [Prod.mk.injEq] at hprovider
  exact ⟨hprovider.1, hprovider.2.1, hprovider.2.2.1⟩

theorem selectChar_eq_some {repoUri : Option (Json ν)} {index : String}
    (huri : repoUri = some (.str uri)) :
    selectChar order (encodeData data) repoUri = some index ↔
      ∃ key, findUri order (encodeData data) uri = some key ∧ indexChar key = index := by
  rw [huri]
  exact Option.map_eq_some_iff

/-- A setting of Go is the text that TypeScript has. -/
theorem sameText_setting {v : Option (Json ν)} {name : String} (h : x.get name = .ok v) :
    SameText v (setting settings name) ↔
      x.get name = .ok (some (.str ((settings.lookup name).getD ""))) := by
  rw [h, Except.ok.injEq]
  constructor
  · rintro ⟨s, rfl, hs⟩
    rw [ofChars_string_inj hs]
  · intro hv
    exact ⟨_, hv, rfl⟩

theorem same_iff {info : GitopsInfo ν} {privateKey : GoString}
    (hreads : info.Reads order (encodeData data) x) (huri : info.repoUri = some (.str uri))
    (hprivateKey : decryptKey cipher (secretText data idx "privateKey") = .ok privateKey) :
    selectChar order (encodeData data) info.repoUri = some (toString idx) ∧
        Same cipher info ⟨uri, info.publicKey, info.privateKey, info.provider,
          cloneUri info.provider uri⟩ (configAt data settings idx privateKey) ↔
      ∃ key, findUri order (encodeData data) uri = some key ∧
        SameProvider cipher data uri (indexChar key) idx ∧ SameSettings x settings := by
  rw [selectChar_eq_some huri]
  constructor
  · rintro ⟨⟨key, hkey, hindex⟩, hsame⟩
    obtain ⟨hprovider, hpublicKey, -⟩ := hreads.fields huri hkey
    have hrepoURI : ofChars uri.toList = secretText data idx "repoUri" :=
      sameText_str.mp (huri ▸ hsame.repoURI)
    have hclone := (cloneURL_iff (g := configAt data settings idx privateKey)
      hsame.provider.symm hrepoURI.symm).mp ⟨hsame.cloneURL, hsame.inBounds⟩
    refine ⟨key, hkey, ⟨hindex, hrepoURI.symm, ?_, ?_, ⟨privateKey, hprivateKey⟩, hclone⟩, ?_⟩
    · rw [← ofChars_field_iff hindex, ← hprovider]
      exact hsame.provider
    · rw [← ofChars_field_iff hindex, ← hpublicKey]
      exact hsame.publicKey
    · intro name hname
      simp only [List.mem_cons, List.not_mem_nil, or_false] at hname
      rcases hname with rfl | rfl | rfl | rfl
      · exact (sameText_setting hreads.branch).mp hsame.branch
      · exact (sameText_setting hreads.path).mp hsame.path
      · exact (sameText_setting hreads.format).mp hsame.format
      · exact (sameText_setting hreads.action).mp hsame.action
  · rintro ⟨key, hkey, hprovider, hsettings⟩
    obtain ⟨htype, hpublicKey, hstored⟩ := hreads.fields huri hkey
    have hindex := hprovider.index
    have htypeText : ofChars info.provider.toList = secretText data idx "type" := by
      rw [htype, ofChars_field_iff hindex]
      exact hprovider.provider
    have hprivateText : ofChars info.privateKey.toList = secretText data idx "privateKey" := by
      rw [hstored, ofChars_field_iff hindex]
      exact asciiBytes_of_decryptKey hprivateKey
    obtain ⟨hcloneURL, hinBounds⟩ := (cloneURL_iff (g := configAt data settings idx privateKey)
      htypeText.symm hprovider.repoUri).mpr hprovider.cloneURL
    have htext : ∀ name ∈ ["branch", "path", "format", "action"], ∀ v, x.get name = .ok v →
        SameText v (setting settings name) := fun name hname v hv =>
      (sameText_setting hv).mpr (hsettings name hname)
    refine ⟨⟨key, hkey, hindex⟩, htypeText, ?_, ?_, ?_, ?_, ?_, ?_, ?_, hcloneURL, hinBounds⟩
    · rw [huri]
      exact sameText_str.mpr hprovider.repoUri.symm
    · exact htext "branch" (by simp) _ hreads.branch
    · exact htext "path" (by simp) _ hreads.path
    · exact htext "format" (by simp) _ hreads.format
    · exact htext "action" (by simp) _ hreads.action
    · rw [hpublicKey]
      exact (ofChars_field_iff hindex _).mpr hprovider.publicKey
    · show decryptKey cipher (ofChars info.privateKey.toList) = _
      rw [hprivateText]
      exact hprivateKey

/-- What the candidates of Go are, if both agree and TypeScript returns something. -/
theorem BothFind.of_agree (h : Agree ν order cipher objects appId clusterId)
    (hasks : Asks ν objects appId clusterId data x uri) :
    ∃ key settings, BothFind ν order cipher objects appId clusterId data x uri key settings := by
  obtain ⟨creds, hcreds⟩ := (asks_iff order).mpr ⟨data, x, uri, hasks⟩
  obtain ⟨idx, g, hgo⟩ := h.ofTypeScript (.id _) creds hcreds
  obtain ⟨data', settings, privateKey, hgoReads, hselect, -, -⟩ :=
    getDownstreamGitOps_ok_iff.mp hgo
  have hdata : data' = data := by
    unfold goReads at hgoReads
    rw [hasks.secret] at hgoReads
    simp only [Option.bind_eq_bind, Option.bind_some, Option.bind_eq_some_iff] at hgoReads
    obtain ⟨configMap, -, encoded, -, settings', -, heq⟩ := hgoReads
    cases heq
    rfl
  subst hdata
  -- each candidate is selected in some order, and the two agree there
  have hall : ∀ idx, Candidate data' (setting settings "repoUri") idx →
      ∃ key, findUri order (encodeData data') uri = some key ∧
        SameProvider cipher data' uri (indexChar key) idx ∧ SameSettings x settings := by
    intro idx hcandidate
    obtain ⟨mapOrder, horder⟩ := exists_mapOrder hcandidate
    obtain ⟨idx', g, hgo⟩ := h.ofTypeScript mapOrder creds hcreds
    obtain ⟨data'', settings', privateKey, hreads', hselect', hprivateKey, rfl⟩ :=
      getDownstreamGitOps_ok_iff.mp hgo
    rw [hgoReads] at hreads'
    cases hreads'
    rw [horder] at hselect'
    cases hselect'
    obtain ⟨info, creds', hinfo, hcreds', hindex, hsame⟩ := h.ofGo mapOrder idx _ hgo
    have hreads := hasks.reads hinfo
    have huri := Except.ok.inj (hreads.repoUri.symm.trans hasks.repoUri)
    obtain ⟨info', uri', hinfo', huri', rfl⟩ := getGitOpsCreds_ok_iff.mp hcreds'
    rw [hinfo] at hinfo'
    cases hinfo'
    rw [huri] at huri'
    cases huri'
    rw [hasks.secret, Option.getD_some] at hindex
    exact (same_iff hreads huri hprivateKey).mp ⟨hindex, hsame⟩
  have hcandidate := candidate_of_selectIndex hselect
  obtain ⟨key, hkey, -, hsettings⟩ := hall idx hcandidate
  refine ⟨key, settings, hasks, hgoReads, hkey, ⟨idx, hcandidate⟩, fun idx hidx => ?_, hsettings⟩
  obtain ⟨key', hkey', hprovider, -⟩ := hall idx hidx
  rw [hkey] at hkey'
  cases hkey'
  exact hprovider

theorem SameRepository.of_agree (h : Agree ν order cipher objects appId clusterId) :
    SameRepository ν order cipher objects appId clusterId := by
  by_cases hasks : ∃ data, ∃ x : Json ν, ∃ uri, Asks ν objects appId clusterId data x uri
  · obtain ⟨data, x, uri, hasks⟩ := hasks
    obtain ⟨key, settings, hboth⟩ := BothFind.of_agree h hasks
    exact .inr ⟨data, x, uri, key, settings, hboth⟩
  · left
    refine ⟨fun data x uri hdata => hasks ⟨data, x, uri, hdata⟩, ?_⟩
    rintro data settings idx hgoReads hcandidate ⟨privateKey, hprivateKey⟩
    obtain ⟨mapOrder, horder⟩ := exists_mapOrder hcandidate
    have hgo := getDownstreamGitOps_ok_iff.mpr
      ⟨data, settings, privateKey, hgoReads, horder, hprivateKey, rfl⟩
    obtain ⟨info, creds, -, hcreds, -⟩ := h.ofGo mapOrder idx _ hgo
    exact hasks ((asks_iff order).mp ⟨creds, hcreds⟩)

theorem NeitherFinds.agree (h : NeitherFinds ν cipher objects appId clusterId) :
    Agree ν order cipher objects appId clusterId where
  ofGo mapOrder idx g hgo := by
    obtain ⟨data, settings, privateKey, hgoReads, hselect, hprivateKey, -⟩ :=
      getDownstreamGitOps_ok_iff.mp hgo
    exact absurd ⟨privateKey, hprivateKey⟩
      (h.go data settings idx hgoReads (candidate_of_selectIndex hselect))
  ofTypeScript mapOrder creds hcreds := by
    obtain ⟨data, x, uri, hasks⟩ := (asks_iff order).mp ⟨creds, hcreds⟩
    exact absurd hasks (h.typeScript data x uri)

theorem BothFind.agree
    (h : BothFind ν order cipher objects appId clusterId data x uri key settings) :
    Agree ν order cipher objects appId clusterId where
  ofGo mapOrder idx g hgo := by
    obtain ⟨data', settings', privateKey, hgoReads, hselect, hprivateKey, rfl⟩ :=
      getDownstreamGitOps_ok_iff.mp hgo
    rw [h.reads] at hgoReads
    cases hgoReads
    obtain ⟨creds, hcreds⟩ := (asks_iff order).mpr ⟨data, x, uri, h.asks⟩
    obtain ⟨info, uri', hinfo, huri', rfl⟩ := getGitOpsCreds_ok_iff.mp hcreds
    have hreads := h.asks.reads hinfo
    have huri := Except.ok.inj (hreads.repoUri.symm.trans h.asks.repoUri)
    rw [huri] at huri'
    cases huri'
    have hsame := (same_iff hreads huri hprivateKey).mpr
      ⟨key, h.found, h.provider idx (candidate_of_selectIndex hselect), h.same⟩
    rw [h.asks.secret, Option.getD_some]
    exact ⟨info, _, hinfo, hcreds, hsame⟩
  ofTypeScript mapOrder creds hcreds := by
    obtain ⟨idx, hcandidate⟩ := h.candidate
    obtain ⟨found, hselect⟩ := exists_selectIndex hcandidate mapOrder
    have hprovider := h.provider found (candidate_of_selectIndex hselect)
    obtain ⟨privateKey, hprivateKey⟩ := hprovider.privateKey
    exact ⟨found, _, getDownstreamGitOps_ok_iff.mpr
      ⟨data, settings, privateKey, h.reads, hselect, hprivateKey, rfl⟩⟩

end

theorem readers_agree_iff (ν : Type) [JsonNumber ν] (order : Reorder (String × String))
    (cipher : Cipher) (objects : Objects) (appId clusterId : String) :
    Agree ν order cipher objects appId clusterId ↔
      SameRepository ν order cipher objects appId clusterId := by
  constructor
  · exact SameRepository.of_agree
  · rintro (hneither | ⟨data, x, uri, key, settings, hboth⟩)
    · exact hneither.agree
    · exact hboth.agree

/-! ## An entry that is ASCII -/

section

variable {ν : Type} {settings : Map String String}

/-- The map has the last value of each key. -/
theorem lookup_unmarshalFields {fields : List (String × Json ν)}
    (h : unmarshalFields fields = .ok settings) (key : String) :
    settings.lookup key = (Json.lookup fields key).bind fun x => (unmarshalText x).toOption := by
  unfold unmarshalFields at h
  induction fields using List.reverseRecOn generalizing settings with
  | nil =>
    cases h
    rfl
  | append_singleton fields field ih =>
    obtain ⟨texts, htexts, hinsert⟩ := Except.bind_eq_ok.mp h
    rw [List.mapM_append] at htexts
    obtain ⟨before, hbefore, hlast⟩ := Except.bind_eq_ok.mp htexts
    obtain ⟨last, hfield, hconcat⟩ := Except.bind_eq_ok.mp hlast
    rw [List.mapM_cons] at hfield
    obtain ⟨pair, hpair, hnil⟩ := Except.bind_eq_ok.mp hfield
    obtain ⟨text, htext, hpair⟩ := Except.bind_eq_ok.mp hpair
    cases hpair
    cases hnil
    cases hconcat
    cases hinsert
    have hrest := ih (Except.bind_eq_ok.mpr ⟨before, hbefore, rfl⟩)
    unfold Json.lookup at hrest ⊢
    obtain ⟨name, x⟩ := field
    rw [List.foldl_append, List.reverse_append]
    rw [List.reverse_singleton, List.singleton_append, List.lookup_cons, List.foldl_cons,
      List.reverse_nil, List.foldl_nil]
    dsimp only
    by_cases hkey : key = name
    · rw [hkey, AList.lookup_insert, beq_self_eq_true]
      change unmarshalText x = .ok text at htext
      show some text = (unmarshalText x).toOption
      rw [htext]
      rfl
    · rw [AList.lookup_insert_ne hkey, beq_false_of_ne hkey]
      exact hrest

theorem runeChar_ofChars (cs : List Char) : (runes (ofChars cs)).map runeChar = cs := by
  rw [runes_ofChars, List.map_map]
  exact List.map_id _

theorem runeChar_runes {s : GoString} (h : AsciiBytes s) :
    (runes s).map runeChar = NodeBuffer.toAscii s := by
  conv_lhs => rw [← ofChars_toAscii_eq_iff.mpr h]
  exact runeChar_ofChars _

variable [JsonNumber ν] {x : Json ν}

/-- Both then parse the same text, and the settings are the same if they are texts. -/
theorem sameSettings_iff {encoded : String} {decoded : GoString}
    (hdecoded : decodeStd (ofChars encoded.toList) = some decoded) (hascii : AsciiBytes decoded)
    (hsettings : configMapData ν encoded = .ok settings) (hx : parseEntry ν encoded = .ok x) :
    SameSettings x settings ↔
      ∀ key ∈ ["branch", "path", "format", "action"], ∃ s, x.get key = .ok (some (.str s)) := by
  refine ⟨fun h key hkey => ⟨_, h key hkey⟩, fun h key hkey => ?_⟩
  obtain ⟨s, hs⟩ := h key hkey
  have hparse : Json.parse ((runes decoded).map runeChar) = some x := by
    rw [runeChar_runes hascii, ← base64Decode_of_decodeStd hdecoded,
      ← String.toList_ofList (l := NodeBuffer.toAscii _)]
    exact parseEntry_ok_iff.mp hx
  unfold configMapData decodeString at hsettings
  rw [hdecoded] at hsettings
  obtain ⟨decoded', hdecoded', hunmarshal⟩ := Except.bind_eq_ok.mp hsettings
  cases hdecoded'
  rw [Except.wrapError_eq_ok] at hunmarshal
  unfold unmarshalSettings at hunmarshal
  rw [hparse] at hunmarshal
  cases x with
  | obj fields =>
    have hlookup : Json.lookup fields key = some (.str s) := Except.ok.inj hs
    rw [hs, lookup_unmarshalFields hunmarshal, hlookup]
    rfl
  | null => cases hs
  | bool b => cases hs
  | num n => cases hs
  | str t => cases hs
  | arr elems => cases hs

end

/-! ## An entry that TypeScript has written -/

section

variable {ν : Type} [JsonNumber ν]

/-- Go reads every object that TypeScript has written, in whatever characters. -/
theorem configMapData_base64Encode (fields : List (String × Json ν)) :
    configMapData ν (base64Encode (String.ofList (Json.obj fields).stringify)) =
      (unmarshalFields fields).wrapError "faield to unmarshal configmap data" := by
  have hdecoded : decodeString (ofChars
      (base64Encode (String.ofList (Json.obj fields).stringify)).toList) =
        .ok (ofChars (Json.obj fields).stringify) := by
    unfold decodeString base64Encode
    rw [String.toList_ofList, String.toList_ofList, decodeStd_base64Encode]
    rfl
  have hunmarshal : unmarshalSettings ν (ofChars (Json.obj fields).stringify) =
      unmarshalFields fields := by
    unfold unmarshalSettings
    rw [runeChar_ofChars, Json.parse_stringify]
  unfold configMapData
  rw [hdecoded]
  show (unmarshalSettings ν _).wrapError _ = _
  rw [hunmarshal]

/-- TypeScript reads it back where it is ASCII. -/
theorem parseEntry_base64Encode {x : Json ν} (h : Json.Ascii x.stringify) :
    parseEntry ν (base64Encode (String.ofList x.stringify)) = .ok x := by
  rw [parseEntry_stringify, NodeBuffer.reread_ascii h]
  exact Json.parse_stringify x

end

/-! ## The repository with the index 10 -/

theorem goReads_eq {ν : Type} [JsonNumber ν] {objects : Objects} {appId clusterId encoded : String}
    {data : Map String GoString} {configMap settings : Map String String}
    (hsecret : objects.secret = some data) (hconfigMap : objects.configMap = some configMap)
    (hencoded : configMap.lookup (appClusterKey appId clusterId) = some encoded)
    (hsettings : configMapData ν encoded = .ok settings) :
    goReads ν objects appId clusterId = some (data, settings) := by
  unfold goReads
  rw [hsecret, hconfigMap]
  simp only [Option.bind_eq_bind, Option.bind_some, hencoded, hsettings]
  rfl

theorem length_indexChar (key : String) : (indexChar key).toList.length ≤ 1 := by
  unfold indexChar
  rw [String.toList_ofList, List.length_take]
  omega

/-- The entries of a repository on GitHub. -/
def addRepo (secretData : Map String GoString) (idx : Nat) (name : String) : Map String GoString :=
  (((secretData.insert (providerKey (toString idx) "type") (ascii "github")).insert
    (providerKey (toString idx) "repoUri") (ascii ("https://github.com/org/" ++ name))).insert
    (providerKey (toString idx) "publicKey") (ascii "ssh-rsa")).insert
    (providerKey (toString idx) "privateKey") (ascii "a2V5")

def twoRepos : Map String GoString := addRepo (addRepo ∅ 1 "first") 10 "tenth"

def tenthSettings : Json Empty :=
  downstreamData "https://github.com/org/tenth" "master" "/" "single" "commit" none

/-- The app has the repository with the index 10, and there is one with the index 1. -/
def eleventh : Objects where
  secret := some twoRepos
  configMap := some ((∅ : Map String String).insert (appClusterKey "app" "cluster")
    (base64Encode (String.ofList tenthSettings.stringify)))

theorem asks_eleventh : Asks Empty eleventh "app" "cluster" twoRepos tenthSettings
    "https://github.com/org/tenth" where
  secret := rfl
  entries := List.cons_ne_nil _ _
  entry := by
    have htexts : AsciiSettings "https://github.com/org/tenth" "master" "/" "single" "commit" := by
      simp only [AsciiSettings, List.forall_mem_cons]
      exact ⟨by decide, by decide, by decide, by decide, by decide, List.forall_mem_nil _⟩
    have hascii : Json.Ascii tenthSettings.stringify := by
      refine ascii_downstreamData.mpr ⟨htexts, fun x hx => ?_⟩
      cases hx
    have hentry : storedEntry eleventh.cluster "app" "cluster" =
        some (base64Encode (String.ofList tenthSettings.stringify)) := AList.lookup_insert _
    unfold storedData
    rw [hentry, Option.bind_some, parseEntry_base64Encode hascii]
    rfl
  repoUri := rfl

theorem configMapData_tenth :
    ∃ settings, configMapData Empty (base64Encode (String.ofList tenthSettings.stringify)) =
        .ok settings ∧ setting settings "repoUri" = ascii "https://github.com/org/tenth" := by
  unfold tenthSettings downstreamData
  rw [configMapData_base64Encode]
  exact ⟨_, rfl, by decide⟩

/-- Go selects the index 10, and TypeScript has one character for it. -/
theorem not_agree_eleventh :
    ¬ ∃ cipher, Agree Empty (.id _) cipher eleventh "app" "cluster" := by
  rintro ⟨cipher, h⟩
  obtain ⟨key, settings, hboth⟩ := BothFind.of_agree h asks_eleventh
  obtain ⟨tenth, hdata, hsettings⟩ := configMapData_tenth
  have hreads : goReads Empty eleventh "app" "cluster" = some (twoRepos, tenth) :=
    goReads_eq rfl rfl (AList.lookup_insert _) hdata
  rw [hboth.reads] at hreads
  cases hreads
  have hcandidate : Candidate twoRepos (setting settings "repoUri") 10 := by
    rw [hsettings]
    exact ⟨providerKey "10" "repoUri", by decide, by decide⟩
  have hlength := length_indexChar key
  rw [(hboth.provider 10 hcandidate).index] at hlength
  exact absurd hlength (by decide)

end Kotsadm.GitOps
