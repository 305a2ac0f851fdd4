import Kotsadm.Flows.ConfigStatus
import Kotsadm.Version.ConcurrentCreation
import Mathlib.Algebra.Group.Int.Defs
import Mathlib.Data.List.Sort

/-!
# LaterVersions — a config change of a version that has later ones

`UpdateAppConfig` makes the version again and then every later one, the one with the largest update
cursor last.  Each of them becomes the current version of the app; an error of a later one is logged.
-/

namespace Kotsadm.Flows

open Version Body

/-! ## GetVersions -/

/-- `types.AppVersion` -/
structure AppVersion where
  sequence : Int
  updateCursor : Int
  versionLabel : String
  deriving DecidableEq, Repr

def parseDigits (digits : List Char) : Option Int :=
  if digits ≠ [] ∧ digits.all Char.isDigit then
    some (digits.foldl (fun n c => 10 * n + (c.toNat - '0'.toNat : Nat)) 0)
  else none

/-- `strconv.ParseInt(text, 10, 64)`, by which a text column is scanned into an `int`. -/
def parseInt (text : String) : Option Int :=
  let parsed := match text.toList with
    | '+' :: digits => parseDigits digits
    | '-' :: digits => (parseDigits digits).map fun n => -n
    | digits => parseDigits digits
  parsed.filter fun n => -2 ^ 63 ≤ n && n < 2 ^ 63

/-- The callers do not depend on the order of the rows. -/
def getVersions (query : Except GoError Unit) (db : Database) (appId : AppId) :
    Except GoError (List AppVersion) :=
  match query with
  | .error e => .error (e.wrap "query app_version table")
  | .ok _ => (db.appVersion.rows.filter fun r => r.appId = appId).mapM fun r =>
    match parseInt r.updateCursor with
    | none => .error { contexts := ["scan row from app_version table"]
                       cause := "sql: Scan error on column index 1, name \"update_cursor\"" }
    | some updateCursor => .ok { sequence := r.sequence, updateCursor, versionLabel := r.versionLabel }

/-! ## getLaterVersions -/

/-- The map from a cursor to the latest version that has it, as a list of its values. -/
def saveLater (laterVersions : List AppVersion) (version : AppVersion) : List AppVersion :=
  match laterVersions.find? fun v => v.updateCursor = version.updateCursor with
  | none => version :: laterVersions
  | some ver =>
    if ver.sequence < version.sequence then
      version :: laterVersions.filter fun v => v.updateCursor ≠ version.updateCursor
    else laterVersions

def latestStep (thisUpdateCursor latest : Int) (version : AppVersion) : Int :=
  if version.updateCursor = thisUpdateCursor ∧ version.sequence > latest then version.sequence
  else latest

def laterStep (thisUpdateCursor : Int) (laterVersions : List AppVersion) (version : AppVersion) :
    List AppVersion :=
  if version.updateCursor > thisUpdateCursor then saveLater laterVersions version else laterVersions

/-- The versions, printed with `%+v`. -/
def versionsText (versions : List AppVersion) : String :=
  let text (v : AppVersion) := "\x7bSequence:" ++ toString v.sequence ++ " UpdateCursor:" ++
    toString v.updateCursor ++ " VersionLabel:" ++ v.versionLabel ++ "\x7d"
  "[" ++ " ".intercalate (versions.map text) ++ "]"

/-- The latest sequence with the cursor of `startSequence`, and a version for every larger cursor. -/
def getLaterVersions (versions : Except GoError (List AppVersion)) (startSequence : Int) :
    Except GoError (Int × List AppVersion) := do
  let versions ← versions.wrapError "failed to get app versions"
  let thisUpdateCursor := versions.foldl (fun cursor version =>
    if version.sequence = startSequence then version.updateCursor else cursor) (-1)
  if thisUpdateCursor = -1 then
    let text := versionsText versions
    .error { cause := s!"unable to find update cursor for sequence {startSequence} in {text}" }
  else
    return (versions.foldl (latestStep thisUpdateCursor) startSequence,
      (versions.foldl (laterStep thisUpdateCursor) []).insertionSort fun v w =>
        v.updateCursor ≤ w.updateCursor)

/-! ## UpdateAppConfig -/

structure UpdateAppConfigEnv where
  decode : Except GoError UpdateAppConfigRequest
  /-- The id of the session; `none` is no session. -/
  session : Except GoError (Option String) := .ok (some "session")
  getIdFromSlug : Except GoError Unit := .ok ()
  getApp : Except GoError Unit := .ok ()
  queryVersions : Except GoError Unit := .ok ()
  /-- What the change of one version gets from outside. -/
  config : Int → ConfigEnv

structure Answer where
  code : Nat
  response : UpdateAppConfigResponse
  deriving DecidableEq, Repr

/-- Makes a later version again. -/
def remake (env : UpdateAppConfigEnv) (a : App) (request : UpdateAppConfigRequest) (s : Server)
    (version : AppVersion) : Except Abort Unit × ConfigRun :=
  runRequest (updateAppConfig (env.config version.sequence) a version.sequence request false)
    { server := s }

/-- The loop over the later versions; a panic ends it, an error does not. -/
def remakeAll (env : UpdateAppConfigEnv) (a : App) (request : UpdateAppConfigRequest) :
    List AppVersion → Server → Bool × Server
  | [], s => (true, s)
  | version :: versions, s =>
    match remake env a request s version with
    | (.error .panic, r) => (false, r.server)
    | (_, r) => remakeAll env a request versions r.server

/-- A change of the version in place, or of the version alone. -/
def changeVersion (env : UpdateAppConfigEnv) (a : App) (sequence : Int)
    (request : UpdateAppConfigRequest) (s : Server) : Option Answer × Server :=
  match runRequest (updateAppConfig (env.config sequence) a sequence request true)
      { server := s } with
  | (.error .panic, r) => (none, r.server)
  | (.error (.error _), r) => (some ⟨500, r.response⟩, r.server)
  | (.ok _, r) =>
    if r.response.requiredItems ≠ [] then (some ⟨400, r.response⟩, r.server)
    else (some ⟨200, r.response⟩, r.server)

/-- A change of the latest version with the cursor, and of the later ones after it. -/
def changeVersions (env : UpdateAppConfigEnv) (a : App) (request : UpdateAppConfigRequest)
    (s : Server) : Option Answer × Server :=
  match getLaterVersions (getVersions env.queryVersions s.db a.id) request.sequence with
  | .error e => (some ⟨500, { error := e.text }⟩, s)
  | .ok (latest, laterVersions) =>
    match changeVersion env a latest request s with
    | (some ⟨200, _⟩, s) =>
      match remakeAll env a request laterVersions s with
      | (false, s) => (none, s)
      | (true, s) => (some ⟨200, { success := true }⟩, s)
    | answer => answer

/-- `UpdateAppConfig`; without an answer the handler has panicked. -/
def updateAppConfigHandler (env : UpdateAppConfigEnv) (appSlug : String) (s : Server) :
    Option Answer × Server :=
  match env.decode, env.session, App.getFromSlug env.getIdFromSlug env.getApp s.db appSlug with
  | .error _, _, _ => (some ⟨400, { error := "failed to decode request body" }⟩, s)
  | .ok _, .error _, _ => (some ⟨401, { error := "failed to parse authorization header" }⟩, s)
  | .ok request, .ok session, foundApp =>
    if session.getD "" = "" then
      (some ⟨401, { error := "failed to parse authorization header" }⟩, s)
    else
      match foundApp with
      | .error _ => (some ⟨500, { error := "failed to get app from app slug" }⟩, s)
      | .ok a =>
        if request.createNewVersion then changeVersions env a request s
        else changeVersion env a request.sequence request s

/-! ## The property and the condition -/

/-- The update cursor of the version at `app.current_sequence`. -/
def currentCursor (db : Database) (appId : AppId) : Option Int := do
  let app ← db.app.find? appId
  let sequence ← app.currentSequence
  let version ← db.appVersion.find? (appId, sequence)
  parseInt version.updateCursor

/-- No version of the app has a larger cursor. -/
def Bounded (db : Database) (appId : AppId) (cursor : Int) : Prop :=
  ∀ r ∈ db.appVersion.rows, r.appId = appId → ∀ c, parseInt r.updateCursor = some c → c ≤ cursor

/-- The current version has the largest update cursor. -/
def CurrentIsNewest (db : Database) (appId : AppId) : Prop :=
  ∃ cursor, currentCursor db appId = some cursor ∧ Bounded db appId cursor

/-- The archive that a version is made from has the cursor of its row. -/
def UpdateAppConfigEnv.KeepsCursors (env : UpdateAppConfigEnv) (db : Database) : Prop :=
  ∀ r ∈ db.appVersion.rows, ∀ kinds,
    (env.config r.sequence).version.loadKotsKindsFromPath "archiveDir" = .ok kinds →
      kinds.updateCursor = r.updateCursor

/-- The change of the version is stored. -/
def Commits (env : ConfigEnv) (a : App) (sequence : Int) (request : UpdateAppConfigRequest)
    (isPrimaryVersion : Bool) (s : Server) : Prop :=
  ReachesStore env a sequence request isPrimaryVersion s ∧
    (storedVersion env a sequence request.createNewVersion s).isSome

/-- The server after some versions were made again. -/
def remade (env : UpdateAppConfigEnv) (a : App) (request : UpdateAppConfigRequest)
    (versions : List AppVersion) (s : Server) : Server :=
  versions.foldl (fun s version => (remake env a request s version).2.server) s

/-- The last of the later versions, if there is any, is stored. -/
def CommitsLast (env : UpdateAppConfigEnv) (a : App) (request : UpdateAppConfigRequest)
    (laterVersions : List AppVersion) (s : Server) : Prop :=
  ∀ version, laterVersions.getLast? = some version →
    Commits (env.config version.sequence) a version.sequence request false
      (remade env a request laterVersions.dropLast s)

/-! ## The later versions -/

section LaterVersions

variable {this : Int} {versions later : List AppVersion}

/-- What the map has after some versions: one version for every larger cursor. -/
structure Saved (this : Int) (versions later : List AppVersion) : Prop where
  nodup : (later.map (·.updateCursor)).Nodup
  mem : ∀ v ∈ later, v ∈ versions ∧ this < v.updateCursor
  all : ∀ v ∈ versions, this < v.updateCursor → ∃ w ∈ later, w.updateCursor = v.updateCursor

theorem saved_saveLater (h : Saved this versions later) {version : AppVersion}
    (hcursor : this < version.updateCursor) :
    Saved this (versions ++ [version]) (saveLater later version) := by
  have hold : ∀ v ∈ versions, v ∈ versions ++ [version] := fun v hv =>
    List.mem_append_left [version] hv
  have hnew : version ∈ versions ++ [version] :=
    List.mem_append_right versions (List.mem_singleton.mpr rfl)
  unfold saveLater
  cases hfind : later.find? fun v => v.updateCursor = version.updateCursor with
  | none =>
    have hfresh : ∀ v ∈ later, v.updateCursor ≠ version.updateCursor := by
      simpa [List.find?_eq_none] using hfind
    constructor
    case nodup =>
      rw [List.map_cons, List.nodup_cons]
      refine ⟨?_, h.nodup⟩
      rw [List.mem_map]
      rintro ⟨v, hv, heq⟩
      exact hfresh v hv heq
    case mem =>
      intro v hv
      rcases List.mem_cons.mp hv with rfl | hv
      · exact ⟨hnew, hcursor⟩
      · exact ⟨hold v (h.mem v hv).1, (h.mem v hv).2⟩
    case all =>
      intro v hv hlarger
      rcases List.mem_append.mp hv with hv | hv
      · obtain ⟨w, hw, heq⟩ := h.all v hv hlarger
        exact ⟨w, List.mem_cons_of_mem version hw, heq⟩
      · rw [List.mem_singleton.mp hv]
        exact ⟨version, List.mem_cons_self, rfl⟩
  | some ver =>
    have hverMem : ver ∈ later := List.mem_of_find?_eq_some hfind
    have hverCursor : ver.updateCursor = version.updateCursor := by
      simpa using List.find?_some hfind
    dsimp only
    split
    next =>
      constructor
      case nodup =>
        rw [List.map_cons, List.nodup_cons]
        refine ⟨?_, (h.nodup.sublist (List.filter_sublist.map _))⟩
        rw [List.mem_map]
        rintro ⟨v, hv, heq⟩
        rw [List.mem_filter, decide_eq_true_eq] at hv
        exact hv.2 heq
      case mem =>
        intro v hv
        rcases List.mem_cons.mp hv with rfl | hv
        · exact ⟨hnew, hcursor⟩
        · have hv' := (List.mem_filter.mp hv).1
          exact ⟨hold v (h.mem v hv').1, (h.mem v hv').2⟩
      case all =>
        intro v hv hlarger
        by_cases hsame : v.updateCursor = version.updateCursor
        · exact ⟨version, List.mem_cons_self, hsame.symm⟩
        · rcases List.mem_append.mp hv with hv | hv
          · obtain ⟨w, hw, heq⟩ := h.all v hv hlarger
            refine ⟨w, List.mem_cons_of_mem version (List.mem_filter.mpr ⟨hw, ?_⟩), heq⟩
            rw [decide_eq_true_eq, heq]
            exact hsame
          · rw [List.mem_singleton.mp hv] at hsame
            exact absurd rfl hsame
    next =>
      constructor
      case nodup => exact h.nodup
      case mem => exact fun v hv => ⟨hold v (h.mem v hv).1, (h.mem v hv).2⟩
      case all =>
        intro v hv hlarger
        rcases List.mem_append.mp hv with hv | hv
        · exact h.all v hv hlarger
        · rw [List.mem_singleton.mp hv]
          exact ⟨ver, hverMem, hverCursor⟩

theorem saved_laterStep (h : Saved this versions later) (version : AppVersion) :
    Saved this (versions ++ [version]) (laterStep this later version) := by
  unfold laterStep
  split
  next hcursor => exact saved_saveLater h hcursor
  next hcursor =>
    constructor
    case nodup => exact h.nodup
    case mem => exact fun v hv => ⟨List.mem_append_left _ (h.mem v hv).1, (h.mem v hv).2⟩
    case all =>
      intro v hv hlarger
      rcases List.mem_append.mp hv with hv | hv
      · exact h.all v hv hlarger
      · rw [List.mem_singleton.mp hv] at hlarger
        exact absurd hlarger hcursor

theorem saved_foldl (this : Int) (versions : List AppVersion) :
    Saved this versions (versions.foldl (laterStep this) []) := by
  have hgeneral : ∀ (rest done later : List AppVersion), Saved this done later →
      Saved this (done ++ rest) (rest.foldl (laterStep this) later) := by
    intro rest
    induction rest with
    | nil =>
      intro done later h
      rw [List.append_nil]
      exact h
    | cons version rest ih =>
      intro done later h
      have hstep := ih (done ++ [version]) _ (saved_laterStep h version)
      rw [List.append_assoc] at hstep
      exact hstep
  refine hgeneral versions [] [] ⟨List.nodup_nil, ?_, ?_⟩
  · intro v hv
    cases hv
  · intro v hv
    cases hv

/-- The latest sequence belongs to a version with the cursor, as the first one does. -/
theorem latest_foldl {start : Int} (hstart : ∃ v ∈ versions, v.sequence = start ∧
    v.updateCursor = this) :
    ∃ v ∈ versions, v.sequence = versions.foldl (latestStep this) start ∧ v.updateCursor = this := by
  have hgeneral : ∀ (rest : List AppVersion) (latest : Int), (∀ v ∈ rest, v ∈ versions) →
      (∃ v ∈ versions, v.sequence = latest ∧ v.updateCursor = this) →
      ∃ v ∈ versions, v.sequence = rest.foldl (latestStep this) latest ∧ v.updateCursor = this := by
    intro rest
    induction rest with
    | nil => exact fun latest _ h => h
    | cons version rest ih =>
      intro latest hmem h
      apply ih _ fun v hv => hmem v (List.mem_cons_of_mem version hv)
      unfold latestStep
      split
      next hlatest => exact ⟨version, hmem version List.mem_cons_self, rfl, hlatest.1⟩
      next => exact h
  exact hgeneral versions start (fun _ hv => hv) hstart

theorem cursor_foldl {start cursor : Int} (versions : List AppVersion)
    (h : versions.foldl (fun cursor version =>
      if version.sequence = start then version.updateCursor else cursor) cursor ≠ cursor) :
    ∃ v ∈ versions, v.sequence = start ∧ v.updateCursor = versions.foldl (fun cursor version =>
      if version.sequence = start then version.updateCursor else cursor) cursor := by
  induction versions generalizing cursor with
  | nil => exact absurd rfl h
  | cons version versions ih =>
    rw [List.foldl_cons] at h ⊢
    by_cases hrest : versions.foldl (fun cursor version =>
        if version.sequence = start then version.updateCursor else cursor)
        (if version.sequence = start then version.updateCursor else cursor) =
        if version.sequence = start then version.updateCursor else cursor
    · rw [hrest] at h ⊢
      by_cases hstart : version.sequence = start
      · rw [if_pos hstart]
        exact ⟨version, List.mem_cons_self, hstart, rfl⟩
      · rw [if_neg hstart] at h
        exact absurd rfl h
    · obtain ⟨v, hv, hsequence, hcursor⟩ := ih hrest
      exact ⟨v, List.mem_cons_of_mem version hv, hsequence, hcursor⟩

/-- The version to change, and a version for every larger cursor, in ascending order. -/
theorem getLaterVersions_eq_ok {start latest : Int}
    (h : getLaterVersions (.ok versions) start = .ok (latest, later)) :
    ∃ this, (∃ v ∈ versions, v.sequence = latest ∧ v.updateCursor = this) ∧
      later.Pairwise (fun v w => v.updateCursor < w.updateCursor) ∧
      (∀ v ∈ later, v ∈ versions ∧ this < v.updateCursor) ∧
      ∀ v ∈ versions, this < v.updateCursor → ∃ w ∈ later, w.updateCursor = v.updateCursor := by
  unfold getLaterVersions at h
  obtain ⟨versions', hversions, h⟩ := Except.bind_eq_ok.mp h
  cases hversions
  dsimp only at h
  split at h
  next => cases h
  next hthis =>
    cases h
    obtain ⟨v, hv, hsequence, hcursor⟩ := cursor_foldl versions hthis
    have hsaved := saved_foldl (versions.foldl (fun cursor version =>
      if version.sequence = start then version.updateCursor else cursor) (-1)) versions
    refine ⟨_, latest_foldl ⟨v, hv, hsequence, hcursor⟩, ?_, ?_, ?_⟩
    · -- sorted, and no cursor twice
      have hsorted := List.pairwise_insertionSort
        (fun v w : AppVersion => v.updateCursor ≤ w.updateCursor) (versions.foldl (laterStep
          (versions.foldl (fun cursor version =>
            if version.sequence = start then version.updateCursor else cursor) (-1))) [])
      have hnodup := ((List.perm_insertionSort
        (fun v w : AppVersion => v.updateCursor ≤ w.updateCursor) _).map
          (·.updateCursor)).nodup_iff.mpr hsaved.nodup
      rw [List.Nodup, List.pairwise_map] at hnodup
      exact hsorted.imp₂ (fun _ _ hle hne => lt_of_le_of_ne hle hne) hnodup
    · intro w hw
      exact hsaved.mem w ((List.mem_insertionSort _).mp hw)
    · intro w hw hlarger
      obtain ⟨w', hw', heq⟩ := hsaved.all w hw hlarger
      exact ⟨w', (List.mem_insertionSort _).mpr hw', heq⟩

/-! ### The newest version of a cursor -/

/-- No version with the same cursor has a larger sequence. -/
def Newest (versions : List AppVersion) (v : AppVersion) : Prop :=
  ∀ u ∈ versions, u.updateCursor = v.updateCursor → u.sequence ≤ v.sequence

theorem le_latest_foldl (latest : Int) :
    latest ≤ versions.foldl (latestStep this) latest ∧
      ∀ u ∈ versions, u.updateCursor = this →
        u.sequence ≤ versions.foldl (latestStep this) latest := by
  induction versions generalizing latest with
  | nil => exact ⟨Int.le_refl latest, nofun⟩
  | cons version versions ih =>
    obtain ⟨hle, hall⟩ := ih (latestStep this latest version)
    have hstep : latest ≤ latestStep this latest version ∧
        (version.updateCursor = this → version.sequence ≤ latestStep this latest version) := by
      unfold latestStep
      split
      next hlatest => exact ⟨Int.le_of_lt hlatest.2, fun _ => Int.le_refl _⟩
      next hlatest => exact ⟨Int.le_refl _, fun hthis => by
        by_contra hlt
        exact hlatest ⟨hthis, Int.not_le.mp hlt⟩⟩
    refine ⟨hstep.1.trans hle, fun u hu hthis => ?_⟩
    rcases List.mem_cons.mp hu with rfl | hu
    · exact (hstep.2 hthis).trans hle
    · exact hall u hu hthis

theorem newest_saveLater (h : Saved this versions later)
    (hnewest : ∀ w ∈ later, Newest versions w) {version : AppVersion}
    (hcursor : this < version.updateCursor) :
    ∀ w ∈ saveLater later version, Newest (versions ++ [version]) w := by
  intro w hw u hu hsame
  unfold saveLater at hw
  cases hfind : later.find? fun v => v.updateCursor = version.updateCursor with
  | none =>
    have hfresh : ∀ v ∈ later, v.updateCursor ≠ version.updateCursor := by
      simpa [List.find?_eq_none] using hfind
    rw [hfind] at hw
    rcases List.mem_cons.mp hw with rfl | hw
    · rcases List.mem_append.mp hu with hu | hu
      · obtain ⟨v, hv, heq⟩ := h.all u hu (hsame ▸ hcursor)
        exact absurd (heq.trans hsame) (hfresh v hv)
      · rw [List.mem_singleton.mp hu]
    · rcases List.mem_append.mp hu with hu | hu
      · exact hnewest w hw u hu hsame
      · rw [List.mem_singleton.mp hu] at hsame
        exact absurd hsame.symm (hfresh w hw)
  | some ver =>
    have hverMem : ver ∈ later := List.mem_of_find?_eq_some hfind
    have hverCursor : ver.updateCursor = version.updateCursor := by
      simpa using List.find?_some hfind
    rw [hfind] at hw
    dsimp only at hw
    split at hw
    next hlt =>
      rcases List.mem_cons.mp hw with rfl | hw
      · rcases List.mem_append.mp hu with hu | hu
        · have hle := hnewest ver hverMem u hu (hsame.trans hverCursor.symm)
          omega
        · rw [List.mem_singleton.mp hu]
      · obtain ⟨hw, hne⟩ := List.mem_filter.mp hw
        rw [decide_eq_true_eq] at hne
        rcases List.mem_append.mp hu with hu | hu
        · exact hnewest w hw u hu hsame
        · rw [List.mem_singleton.mp hu] at hsame
          exact absurd hsame.symm hne
    next hle =>
      rcases List.mem_append.mp hu with hu | hu
      · exact hnewest w hw u hu hsame
      · -- the map has one version for the cursor
        rw [List.mem_singleton.mp hu] at hsame ⊢
        have hver : w = ver :=
          List.inj_on_of_nodup_map h.nodup hw hverMem (hsame.symm.trans hverCursor.symm)
        rw [hver]
        omega

theorem newest_foldl (this : Int) (versions : List AppVersion) :
    ∀ w ∈ versions.foldl (laterStep this) [], Newest versions w := by
  have hgeneral : ∀ (rest done later : List AppVersion), Saved this done later →
      (∀ w ∈ later, Newest done w) →
      ∀ w ∈ rest.foldl (laterStep this) later, Newest (done ++ rest) w := by
    intro rest
    induction rest with
    | nil =>
      intro done later _ hnewest
      rw [List.append_nil]
      exact hnewest
    | cons version rest ih =>
      intro done later h hnewest
      have hstep : ∀ w ∈ laterStep this later version, Newest (done ++ [version]) w := by
        unfold laterStep
        split
        next hcursor => exact newest_saveLater h hnewest hcursor
        next hcursor =>
          intro w hw u hu hsame
          rcases List.mem_append.mp hu with hu | hu
          · exact hnewest w hw u hu hsame
          · rw [List.mem_singleton.mp hu] at hsame
            exact absurd (hsame ▸ (h.mem w hw).2) hcursor
      have hrest := ih (done ++ [version]) _ (saved_laterStep h version) hstep
      rw [List.append_assoc] at hrest
      exact hrest
  exact hgeneral versions [] [] ⟨List.nodup_nil, nofun, nofun⟩ nofun

/-- Each of the versions to change is the newest one of its cursor. -/
theorem newest_of_getLaterVersions {start latest : Int}
    (h : getLaterVersions (.ok versions) start = .ok (latest, later)) :
    (∃ v ∈ versions, v.sequence = latest ∧ Newest versions v) ∧
      ∀ w ∈ later, w ∈ versions ∧ Newest versions w := by
  unfold getLaterVersions at h
  obtain ⟨versions', hversions, h⟩ := Except.bind_eq_ok.mp h
  cases hversions
  dsimp only at h
  split at h
  next => cases h
  next hthis =>
    cases h
    obtain ⟨v, hv, hsequence, hcursor⟩ := cursor_foldl versions hthis
    obtain ⟨w, hw, hlatest, hthis⟩ := latest_foldl ⟨v, hv, hsequence, hcursor⟩
    constructor
    · refine ⟨w, hw, hlatest, fun u hu hsame => ?_⟩
      rw [hlatest]
      exact (le_latest_foldl start).2 u hu (hsame.trans hthis)
    · intro w hw
      have hw := (List.mem_insertionSort _).mp hw
      exact ⟨((saved_foldl _ versions).mem w hw).1, newest_foldl _ versions w hw⟩

end LaterVersions

/-! ## The versions in the database -/

section Rows

variable {db : Database} {appId : AppId} {versions : List AppVersion}

/-- The scan of one row. -/
theorem scan_eq_ok {updateCursor versionLabel : String} {sequence : Int} {v : AppVersion}
    (h : (match parseInt updateCursor with
      | none => .error { contexts := ["scan row from app_version table"]
                         cause := "sql: Scan error on column index 1, name \"update_cursor\"" }
      | some updateCursor => .ok { sequence, updateCursor, versionLabel } :
        Except GoError AppVersion) = .ok v) :
    v.sequence = sequence ∧ parseInt updateCursor = some v.updateCursor := by
  split at h
  next => cases h
  next cursor hcursor =>
    cases h
    exact ⟨rfl, hcursor⟩

theorem versions_of_rows {rows : List AppVersionRow}
    (h : rows.mapM (m := Except GoError) (fun r =>
      match parseInt r.updateCursor with
      | none => .error { contexts := ["scan row from app_version table"]
                         cause := "sql: Scan error on column index 1, name \"update_cursor\"" }
      | some updateCursor =>
        .ok { sequence := r.sequence, updateCursor, versionLabel := r.versionLabel }) =
      .ok versions) :
    (∀ r ∈ rows, ∃ v ∈ versions, v.sequence = r.sequence ∧
      parseInt r.updateCursor = some v.updateCursor) ∧
    ∀ v ∈ versions, ∃ r ∈ rows, v.sequence = r.sequence ∧
      parseInt r.updateCursor = some v.updateCursor := by
  obtain ⟨hrows, hback⟩ := List.mapM_eq_ok h
  constructor
  · intro r hr
    obtain ⟨v, hv, hscan⟩ := hrows r hr
    exact ⟨v, hv, scan_eq_ok hscan⟩
  · intro v hv
    obtain ⟨r, hr, hscan⟩ := hback v hv
    exact ⟨r, hr, scan_eq_ok hscan⟩

theorem getVersions_eq_ok {query : Except GoError Unit} (h : getVersions query db appId = .ok versions) :
    (∀ r ∈ db.appVersion.rows, r.appId = appId → ∃ v ∈ versions, v.sequence = r.sequence ∧
      parseInt r.updateCursor = some v.updateCursor) ∧
    ∀ v ∈ versions, ∃ r ∈ db.appVersion.rows, r.appId = appId ∧ v.sequence = r.sequence ∧
      parseInt r.updateCursor = some v.updateCursor := by
  unfold getVersions at h
  split at h
  next => cases h
  next =>
    obtain ⟨hrows, hback⟩ := versions_of_rows h
    constructor
    · intro r hr happ
      exact hrows r (List.mem_filter.mpr ⟨hr, decide_eq_true happ⟩)
    · intro v hv
      obtain ⟨r, hr, hvr⟩ := hback v hv
      rw [List.mem_filter, decide_eq_true_eq] at hr
      exact ⟨r, hr.1, hr.2, hvr⟩

/-- What stays true while versions are made again: `cursor` is the largest one. -/
structure Largest (db : Database) (appId : AppId) (cursor : Int) : Prop where
  app : (db.app.find? appId).isSome
  bounded : Bounded db appId cursor
  attained : ∃ r ∈ db.appVersion.rows, r.appId = appId ∧ parseInt r.updateCursor = some cursor

theorem row_of_currentCursor {c : Int} (h : currentCursor db appId = some c) :
    ∃ r ∈ db.appVersion.rows, r.appId = appId ∧ parseInt r.updateCursor = some c := by
  unfold currentCursor at h
  simp only [Option.bind_eq_bind, Option.bind_eq_some_iff] at h
  obtain ⟨app, -, sequence, -, version, hversion, hparse⟩ := h
  obtain ⟨hmem, hkey⟩ := Keyed.find?_eq_some.mp hversion
  simp only [AppVersionRow.key, Prod.mk.injEq] at hkey
  exact ⟨version, hmem, hkey.1, hparse⟩

theorem currentIsNewest_iff {cursor : Int} (h : Largest db appId cursor) :
    CurrentIsNewest db appId ↔ currentCursor db appId = some cursor := by
  constructor
  · rintro ⟨c, hc, hbounded⟩
    obtain ⟨r, hr, happ, hparse⟩ := row_of_currentCursor hc
    obtain ⟨r', hr', happ', hparse'⟩ := h.attained
    have hle := h.bounded r hr happ c hparse
    have hge := hbounded r' hr' happ' cursor hparse'
    rw [hc, show c = cursor by omega]
  · exact fun hc => ⟨cursor, hc, h.bounded⟩

end Rows

/-! ## One version -/

section OneVersion

variable {env : ConfigEnv} {a : App} {sequence cursor c : Int} {request : UpdateAppConfigRequest}
  {isPrimaryVersion : Bool} {s : Server}

theorem updateCursor_marshalColumns {kinds : KotsKinds} {columns : AppVersionColumns}
    (h : marshalColumns kinds = .ok columns) : columns.updateCursor = kinds.updateCursor := by
  obtain ⟨_, -, h⟩ := Except.bind_eq_ok.mp h
  obtain ⟨_, -, h⟩ := Except.bind_eq_ok.mp h
  obtain ⟨_, -, h⟩ := Except.bind_eq_ok.mp h
  obtain ⟨_, -, h⟩ := Except.bind_eq_ok.mp h
  obtain ⟨_, -, h⟩ := Except.bind_eq_ok.mp h
  obtain ⟨_, -, h⟩ := Except.bind_eq_ok.mp h
  obtain ⟨_, -, h⟩ := Except.bind_eq_ok.mp h
  obtain ⟨_, -, h⟩ := Except.bind_eq_ok.mp h
  obtain ⟨_, -, h⟩ := Except.bind_eq_ok.mp h
  cases h
  rfl

/-- The archive that is loaded has the cursor `c`. -/
def LoadsCursor (env : ConfigEnv) (c : Int) : Prop :=
  ∀ kinds, env.version.loadKotsKindsFromPath "archiveDir" = .ok kinds →
    parseInt kinds.updateCursor = some c

/-- A new version becomes the current one. -/
theorem largest_stored {n : Int} {db : Database} (hs : Largest s.db a.id cursor)
    (hloads : LoadsCursor env c) (hc : c ≤ cursor)
    (h : storedVersion env a sequence true s = some (n, db)) :
    Largest db a.id cursor ∧ currentCursor db a.id = some c := by
  have htx := createVersionTx_of_stored h
  obtain ⟨hnext, hcreated⟩ := created_createVersionTx htx
  obtain ⟨kinds, columns, hkinds, hcolumns, hversion, -⟩ := stored_createVersionTx htx
  obtain ⟨name, icon, happ⟩ := hcreated.app
  have hparse : parseInt columns.updateCursor = some c := by
    rw [updateCursor_marshalColumns hcolumns]
    exact hloads kinds hkinds
  have hfind : ∀ key, db.appVersion.find? key = if (a.id, n) = key then
      some ((s.db.appVersion.find? key).elim
        { toAppVersionColumns := columns, appId := a.id, sequence := n, createdAt := env.version.now }
        fun r => { r with toAppVersionColumns := columns, createdAt := env.version.now })
      else s.db.appVersion.find? key := by
    intro key
    rw [hversion]
    unfold KotsAppStore.upsertAppVersion
    dsimp only
    rw [Keyed.find?_upsert]
  have hnew : ∃ row, db.appVersion.find? (a.id, n) = some row ∧
      row.updateCursor = columns.updateCursor := by
    rw [hfind, if_pos rfl]
    cases s.db.appVersion.find? (a.id, n) with
    | none => exact ⟨_, rfl, rfl⟩
    | some row => exact ⟨_, rfl, rfl⟩
  obtain ⟨newRow, hnewRow, hnewCursor⟩ := hnew
  obtain ⟨appRow, happRow⟩ := Option.isSome_iff_exists.mp hs.app
  have happFind : db.app.find? a.id = some { appRow with currentSequence := some n, name,
                                                         iconUri := icon } := by
    rw [happ]
    unfold KotsAppStore.updateAppVersion
    dsimp only
    rw [KotsAppStore.find?_updateApp, if_pos rfl, happRow]
    rfl
  constructor
  · constructor
    case app =>
      rw [happFind]
      rfl
    case bounded =>
      intro r hr hid c' hc'
      have hrow := Keyed.find?_isSome_of_mem hr
      by_cases hkey : (a.id, n) = r.key
      · rw [← hkey, hnewRow] at hrow
        cases hrow
        rw [hnewCursor, hparse] at hc'
        cases hc'
        exact hc
      · rw [hfind, if_neg hkey] at hrow
        exact hs.bounded r (Keyed.find?_eq_some.mp hrow).1 hid c' hc'
    case attained =>
      -- the sequence of the new version is free, so no row is overwritten
      obtain ⟨r, hr, hid, hcursor⟩ := hs.attained
      have hfree := (Interleaving.nextSequence_spec hnext).2
      have hrow := Keyed.find?_isSome_of_mem hr
      have hne : (a.id, n) ≠ r.key := by
        intro heq
        have htaken : Interleaving.HasVersion a.id s.db n := by
          unfold Interleaving.HasVersion
          rw [heq, hrow]
          rfl
        exact absurd (hfree n htaken) (lt_irrefl n)
      refine ⟨r, ?_, hid, hcursor⟩
      have hsame := hfind r.key
      rw [if_neg hne, hrow] at hsame
      exact (Keyed.find?_eq_some.mp hsame).1
  · unfold currentCursor
    rw [happFind]
    show (db.appVersion.find? (a.id, n)).bind (fun version => parseInt version.updateCursor) = some c
    rw [hnewRow]
    show parseInt newRow.updateCursor = some c
    rw [hnewCursor, hparse]

/-- What `updateAppConfig` does to the versions: it stores one, or nothing. -/
theorem versions_updateAppConfig (env : ConfigEnv) (a : App) (sequence : Int)
    (request : UpdateAppConfigRequest) (isPrimaryVersion : Bool) (s : Server) :
    let db := (runRequest (updateAppConfig env a sequence request isPrimaryVersion)
      { server := s }).2.server.db
    (¬ Commits env a sequence request isPrimaryVersion s ∧ db = s.db) ∨
    (Commits env a sequence request isPrimaryVersion s ∧ ∃ n db',
      storedVersion env a sequence request.createNewVersion s = some (n, db') ∧
        db.app = db'.app ∧ db.appVersion = db'.appVersion) := by
  dsimp only
  rcases updateAppConfig_cases env a sequence request isPrimaryVersion s with
    ⟨hnot, hserver, -⟩ | ⟨hreaches, n, db', hstored, hcases⟩
  · left
    refine ⟨?_, by rw [hserver]⟩
    rintro ⟨hreaches, hstored⟩
    rcases hnot with hnot | hnone
    · exact hnot hreaches
    · rw [hnone] at hstored
      cases hstored
  · right
    refine ⟨⟨hreaches, by rw [hstored]; rfl⟩, n, db', hstored, ?_⟩
    rcases hcases with ⟨-, hdb, -⟩ | ⟨-, archives, -, hserver, -⟩
    · rw [hdb]
      exact ⟨rfl, rfl⟩
    · rw [hserver]
      obtain ⟨versions, hframe⟩ := runPreflight_frame env.preflight a.id n
        { db := setDownstreamVersionStatus db' a.id n "pending_preflight", archives }
      rw [hframe]
      exact ⟨rfl, rfl⟩

theorem Largest.of_tables {db db' : Database} {appId : AppId} (h : Largest db appId cursor)
    (happ : db'.app = db.app) (hversion : db'.appVersion = db.appVersion) :
    Largest db' appId cursor where
  app := by rw [happ]; exact h.app
  bounded := by
    unfold Bounded
    rw [hversion]
    exact h.bounded
  attained := by rw [hversion]; exact h.attained

theorem currentCursor_of_tables {db db' : Database} (happ : db'.app = db.app)
    (hversion : db'.appVersion = db.appVersion) (appId : AppId) :
    currentCursor db' appId = currentCursor db appId := by
  unfold currentCursor
  rw [happ, hversion]

/-- A call that makes a version again: it moves the current version exactly when it is stored. -/
theorem largest_updateAppConfig (sequence : Int) (isPrimaryVersion : Bool)
    (hnew : request.createNewVersion = true)
    (hs : Largest s.db a.id cursor) (hloads : LoadsCursor env c) (hc : c ≤ cursor) :
    let db := (runRequest (updateAppConfig env a sequence request isPrimaryVersion)
      { server := s }).2.server.db
    Largest db a.id cursor ∧
      (Commits env a sequence request isPrimaryVersion s → currentCursor db a.id = some c) ∧
      (¬ Commits env a sequence request isPrimaryVersion s →
        currentCursor db a.id = currentCursor s.db a.id) := by
  dsimp only
  rcases versions_updateAppConfig env a sequence request isPrimaryVersion s with
    ⟨hnot, hdb⟩ | ⟨hcommits, n, db', hstored, happ, hversion⟩
  · rw [hdb]
    exact ⟨hs, fun h => absurd h hnot, fun _ => rfl⟩
  · rw [hnew] at hstored
    obtain ⟨hlargest, hcurrent⟩ := largest_stored hs hloads hc hstored
    refine ⟨hlargest.of_tables happ hversion, fun _ => ?_, fun h => absurd hcommits h⟩
    rw [currentCursor_of_tables happ hversion]
    exact hcurrent

end OneVersion

/-! ## The loop -/

section Loop

variable {env : UpdateAppConfigEnv} {a : App} {request : UpdateAppConfigRequest} {s : Server}
  {cursor : Int}

/-- A loop that gets to its end has made every version again. -/
theorem remakeAll_true {versions : List AppVersion}
    (h : (remakeAll env a request versions s).1 = true) :
    (remakeAll env a request versions s).2 = remade env a request versions s := by
  induction versions generalizing s with
  | nil => rfl
  | cons version versions ih =>
    have hrest : ∀ r : ConfigRun, (remake env a request s version).2 = r →
        (remakeAll env a request versions r.server).1 = true →
        (remakeAll env a request versions r.server).2 = remade env a request (version :: versions) s := by
      intro r hr hend
      rw [ih hend]
      unfold remade
      rw [List.foldl_cons, hr]
    unfold remakeAll at h ⊢
    rcases hrun : remake env a request s version with ⟨e | _, r⟩
    · rw [hrun] at h hrest
      cases e with
      | panic => cases h
      | error e => exact hrest r rfl h
    · rw [hrun] at h hrest
      exact hrest r rfl h

/-- Versions with smaller cursors do not get the current version to the largest one. -/
theorem largest_remade (hnew : request.createNewVersion = true) (versions : List AppVersion)
    (hs : Largest s.db a.id cursor)
    (hloads : ∀ v ∈ versions, LoadsCursor (env.config v.sequence) v.updateCursor)
    (hle : ∀ v ∈ versions, v.updateCursor < cursor)
    (hcurrent : currentCursor s.db a.id ≠ some cursor) :
    Largest (remade env a request versions s).db a.id cursor ∧
      currentCursor (remade env a request versions s).db a.id ≠ some cursor := by
  induction versions generalizing s with
  | nil => exact ⟨hs, hcurrent⟩
  | cons v versions ih =>
    have hless : v.updateCursor < cursor := hle v List.mem_cons_self
    obtain ⟨hlargest, hcommits, hnot⟩ := largest_updateAppConfig v.sequence false hnew hs
      (hloads v List.mem_cons_self) hless.le
    unfold remade
    rw [List.foldl_cons]
    apply ih
    · exact hlargest
    · exact fun w hw => hloads w (List.mem_cons_of_mem v hw)
    · exact fun w hw => hle w (List.mem_cons_of_mem v hw)
    · by_cases hstored : Commits (env.config v.sequence) a v.sequence request false s
      · intro heq
        have hcursor := (hcommits hstored).symm.trans heq
        rw [Option.some.injEq] at hcursor
        omega
      · exact fun heq => hcurrent ((hnot hstored).symm.trans heq)

/-- After the loop the current version is the newest exactly when the last one was stored. -/
theorem currentIsNewest_remade (hnew : request.createNewVersion = true)
    {versions : List AppVersion} {last : AppVersion} (hs : Largest s.db a.id last.updateCursor)
    (hloads : ∀ v ∈ versions ++ [last], LoadsCursor (env.config v.sequence) v.updateCursor)
    (hle : ∀ v ∈ versions, v.updateCursor < last.updateCursor)
    (hcurrent : currentCursor s.db a.id ≠ some last.updateCursor) :
    CurrentIsNewest (remade env a request (versions ++ [last]) s).db a.id ↔
      Commits (env.config last.sequence) a last.sequence request false
        (remade env a request versions s) := by
  have hlast : last ∈ versions ++ [last] :=
    List.mem_append_right versions (List.mem_singleton.mpr rfl)
  obtain ⟨hbefore, hbeforeCurrent⟩ := largest_remade hnew versions hs
    (fun v hv => hloads v (List.mem_append_left [last] hv)) hle hcurrent
  obtain ⟨hlargest, hcommits, hnot⟩ := largest_updateAppConfig last.sequence false hnew hbefore
    (hloads last hlast) le_rfl
  have hremade : remade env a request (versions ++ [last]) s =
      (remake env a request (remade env a request versions s) last).2.server := by
    unfold remade
    rw [List.foldl_append]
    rfl
  rw [hremade]
  have hiff := currentIsNewest_iff hlargest
  unfold remake
  rw [hiff]
  constructor
  · intro heq
    by_contra hstored
    exact hbeforeCurrent ((hnot hstored).symm.trans heq)
  · exact hcommits

end Loop

/-! ## The handler -/

section Handler

variable {env : UpdateAppConfigEnv} {a : App} {request : UpdateAppConfigRequest} {s : Server}

/-- A call that returns no error has succeeded or names the items that it requires. -/
def Answers (m : Body ConfigRun Unit) : Prop :=
  ∀ f f', m.run f = (.ok (), f') →
    f'.state.response.success = true ∨ f'.state.response.requiredItems ≠ []

theorem answers_bind {α : Type} (m : Body ConfigRun α) {k : α → Body ConfigRun Unit}
    (hk : ∀ x, Answers (k x)) : Answers (m >>= k) := by
  intro f f' h
  rw [run_bind] at h
  split at h
  next x g _ => exact hk x g f' h
  next => cases h

theorem answers_applyConfig (env : ConfigEnv) (a : App) (sequence : Int)
    (request : UpdateAppConfigRequest) (kinds : KotsKinds) :
    Answers (applyConfig env a sequence request kinds) := by
  unfold applyConfig
  refine answers_bind _ fun _ => answers_bind _ fun _ => answers_bind _ fun _ =>
    answers_bind _ fun _ => answers_bind _ fun _ => answers_bind _ fun _ => answers_bind _ fun _ =>
    answers_bind _ fun _ => answers_bind _ fun _ => ?_
  intro f f' h
  cases h
  exact .inl rfl

theorem answers_updateAppConfig (env : ConfigEnv) (a : App) (sequence : Int)
    (request : UpdateAppConfigRequest) (isPrimaryVersion : Bool) :
    Answers (updateAppConfig env a sequence request isPrimaryVersion) := by
  unfold updateAppConfig
  refine answers_bind _ fun _ => answers_bind _ fun kinds => ?_
  dsimp only
  split
  next hrequired =>
    intro f f' h
    cases h
    right
    dsimp only
    rw [Ne, List.map_eq_nil_iff]
    exact hrequired.1
  next => exact answers_applyConfig env a sequence request kinds

/-- The change of the version itself succeeded. -/
theorem changeVersion_ok {sequence : Int} {response : UpdateAppConfigResponse} {s' : Server}
    (h : changeVersion env a sequence request s = (some ⟨200, response⟩, s')) :
    s' = (runRequest (updateAppConfig (env.config sequence) a sequence request true)
        { server := s }).2.server ∧ Commits (env.config sequence) a sequence request true s := by
  have hanswers : ∀ r, runRequest (updateAppConfig (env.config sequence) a sequence request true)
      { server := s } = (.ok (), r) → r.response.success = true ∨ r.response.requiredItems ≠ [] := by
    intro r hrun
    have hresult : ((updateAppConfig (env.config sequence) a sequence request true).run
      ⟨{ server := s }, none⟩).1 = .ok () := congrArg Prod.fst hrun
    have hstate : ((updateAppConfig (env.config sequence) a sequence request true).run
      ⟨{ server := s }, none⟩).2.state = r := congrArg Prod.snd hrun
    rw [← hstate]
    exact answers_updateAppConfig (env.config sequence) a sequence request true _ _
      (Prod.ext hresult rfl)
  have hcases := updateAppConfig_cases (env.config sequence) a sequence request true s
  unfold changeVersion at h
  rcases hrun : runRequest (updateAppConfig (env.config sequence) a sequence request true)
    { server := s } with ⟨e | _, r⟩
  · rw [hrun] at h
    cases e with
    | panic => cases h
    | error e => cases h
  · rw [hrun] at h hcases
    dsimp only at h hcases ⊢
    split at h
    next => cases h
    next hrequired =>
      cases h
      refine ⟨rfl, ?_⟩
      have hsuccess : r.response.success = true := (hanswers r hrun).resolve_right hrequired
      rcases hcases with ⟨-, -, hfalse⟩ | ⟨hreaches, n, db, hstored, -⟩
      · rw [hsuccess] at hfalse
        cases hfalse
      · exact ⟨hreaches, by rw [hstored]; rfl⟩

theorem updateAppConfigHandler_ok {appSlug : String} {response : UpdateAppConfigResponse}
    {s' : Server} (hrequest : env.decode = .ok request) (hnew : request.createNewVersion = true)
    (h : updateAppConfigHandler env appSlug s = (some ⟨200, response⟩, s')) :
    ∃ a latest later s₁ response₁, App.getFromSlug env.getIdFromSlug env.getApp s.db appSlug = .ok a ∧
      getLaterVersions (getVersions env.queryVersions s.db a.id) request.sequence =
        .ok (latest, later) ∧
      changeVersion env a latest request s = (some ⟨200, response₁⟩, s₁) ∧
      s' = remade env a request later s₁ := by
  unfold updateAppConfigHandler at h
  rw [hrequest] at h
  cases hsession : env.session with
  | error e =>
    rw [hsession] at h
    cases h
  | ok session =>
    rw [hsession] at h
    dsimp only at h
    split at h
    next => cases h
    next =>
      cases hfound : App.getFromSlug env.getIdFromSlug env.getApp s.db appSlug with
      | error e =>
        rw [hfound] at h
        cases h
      | ok a =>
        rw [hfound] at h
        dsimp only at h
        unfold changeVersions at h
        split at h
        next => cases h
        next latest later hlater =>
          split at h
          next response₁ s₁ hchange =>
            split at h
            next => cases h
            next s₂ hall =>
              cases h
              have hend : (remakeAll env a request later s₁).2 = remade env a request later s₁ :=
                remakeAll_true (congrArg Prod.fst hall)
              rw [hall] at hend
              exact ⟨a, latest, later, s₁, response₁, rfl, hlater, hchange, hend⟩
          next hother => exact absurd h (hother _ _)

/-- The app of the request is in the database. -/
theorem app_of_getFromSlug {scan outcome : Except GoError Unit} {db : Database} {slug : String}
    (h : App.getFromSlug scan outcome db slug = .ok a) : (db.app.find? a.id).isSome := by
  unfold App.getFromSlug at h
  split at h
  next => cases h
  next => cases h
  next row _ _ =>
    have hid := id_of_get h
    have h' := Except.wrapError_eq_ok.mp h
    split at h'
    next => cases h'
    next => cases h'
    next row' hrow' =>
      rw [hid, hrow']
      rfl

/-- **Later versions.**  After a config change that made new versions the current one has the
largest update cursor exactly when the last of the later versions was stored. -/
theorem currentIsNewest_updateAppConfig_iff (env : UpdateAppConfigEnv) (appSlug : String)
    (request : UpdateAppConfigRequest) (response : UpdateAppConfigResponse) (s s' : Server)
    (hrequest : env.decode = .ok request) (hnew : request.createNewVersion = true)
    (hcursors : env.KeepsCursors s.db)
    (h : updateAppConfigHandler env appSlug s = (some ⟨200, response⟩, s')) :
    ∃ a latest later, App.getFromSlug env.getIdFromSlug env.getApp s.db appSlug = .ok a ∧
      getLaterVersions (getVersions env.queryVersions s.db a.id) request.sequence =
        .ok (latest, later) ∧
      (CurrentIsNewest s'.db a.id ↔ CommitsLast env a request later
        (changeVersion env a latest request s).2) := by
  obtain ⟨a, latest, later, s₁, response₁, hfound, hlater, hchange, rfl⟩ :=
    updateAppConfigHandler_ok hrequest hnew h
  refine ⟨a, latest, later, hfound, hlater, ?_⟩
  rw [hchange]
  dsimp only
  obtain ⟨hserver, hcommits⟩ := changeVersion_ok hchange
  cases hversions : getVersions env.queryVersions s.db a.id with
  | error e =>
    rw [hversions] at hlater
    cases hlater
  | ok versions =>
    rw [hversions] at hlater
    obtain ⟨this, ⟨v, hv, hvSequence, hvCursor⟩, hsorted, hmem, hall⟩ :=
      getLaterVersions_eq_ok hlater
    obtain ⟨hrows, hback⟩ := getVersions_eq_ok hversions
    have hloads : ∀ v ∈ versions, LoadsCursor (env.config v.sequence) v.updateCursor := by
      intro v hv kinds hkinds
      obtain ⟨r, hr, -, hsequence, hcursor⟩ := hback v hv
      rw [hsequence] at hkinds
      rw [hcursors r hr kinds hkinds]
      exact hcursor
    have happ := app_of_getFromSlug hfound
    have hthis : ∃ r ∈ s.db.appVersion.rows, r.appId = a.id ∧
        parseInt r.updateCursor = some this := by
      obtain ⟨r, hr, hid, -, hcursor⟩ := hback v hv
      exact ⟨r, hr, hid, by rw [hcursor, hvCursor]⟩
    have hloadsThis : LoadsCursor (env.config latest) this := by
      have hloadsV := hloads v hv
      rw [hvSequence, hvCursor] at hloadsV
      exact hloadsV
    rcases List.eq_nil_or_concat later with rfl | ⟨init, last, rfl⟩
    · -- no version has a larger cursor
      have hlargest : Largest s.db a.id this := by
        refine ⟨happ, ?_, hthis⟩
        intro r hr hid c hc
        obtain ⟨w, hw, -, hcursor⟩ := hrows r hr hid
        rw [hc, Option.some.injEq] at hcursor
        by_contra hlarger
        obtain ⟨w', hw', -⟩ := hall w hw (by omega)
        cases hw'
      obtain ⟨hlargest₁, hcurrent, -⟩ := largest_updateAppConfig (s := s) latest true hnew hlargest
        hloadsThis le_rfl
      rw [← hserver] at hlargest₁ hcurrent
      refine iff_of_true ((currentIsNewest_iff hlargest₁).mpr (hcurrent hcommits)) ?_
      intro version hversion
      cases hversion
    · rw [List.concat_eq_append] at hsorted hmem hall ⊢
      have hlast : last ∈ init ++ [last] :=
        List.mem_append_right init (List.mem_singleton.mpr rfl)
      have hinit : ∀ v ∈ init, v.updateCursor < last.updateCursor := fun v hv =>
        (List.pairwise_append.mp hsorted).2.2 v hv last (List.mem_singleton.mpr rfl)
      have hlargest : Largest s.db a.id last.updateCursor := by
        refine ⟨happ, ?_, ?_⟩
        · intro r hr hid c hc
          obtain ⟨w, hw, -, hcursor⟩ := hrows r hr hid
          rw [hc, Option.some.injEq] at hcursor
          by_cases hlarger : this < w.updateCursor
          · obtain ⟨w', hw', heq⟩ := hall w hw hlarger
            rcases List.mem_append.mp hw' with hw' | hw'
            · have hless := hinit w' hw'
              omega
            · rw [List.mem_singleton.mp hw'] at heq
              omega
          · have hless := (hmem last hlast).2
            omega
        · obtain ⟨r, hr, hid, -, hcursor⟩ := hback last (hmem last hlast).1
          exact ⟨r, hr, hid, hcursor⟩
      have hless := (hmem last hlast).2
      obtain ⟨hlargest₁, hcurrent, -⟩ := largest_updateAppConfig (s := s) latest true hnew hlargest
        hloadsThis hless.le
      rw [← hserver] at hlargest₁ hcurrent
      have hother : currentCursor s₁.db a.id ≠ some last.updateCursor := by
        rw [hcurrent hcommits, Ne, Option.some.injEq]
        omega
      rw [currentIsNewest_remade hnew hlargest₁ (fun w hw => hloads w (hmem w hw).1) hinit hother]
      unfold CommitsLast
      rw [List.getLast?_append, List.dropLast_concat]
      constructor
      · intro hstored version hversion
        cases hversion
        exact hstored
      · exact fun hstored => hstored last rfl

end Handler

/-! ## Two versions -/

/-- The archive of the version `sequence`. -/
def cursorKinds (sequence : Int) : KotsKinds where
  title := "App"
  updateCursor := if sequence = 0 then "1" else "2"
  configValues := some { values := some fun _ => none }

/-- A change of the version `sequence`, whose archive cannot be downloaded when `lost`. -/
def cursorEnv (lost : Bool) (sequence : Int) : ConfigEnv where
  downloadArchive := if lost then .error { cause := "failed to download file" } else .ok ()
  loadKotsKinds := .ok (cursorKinds sequence)
  version := { loadKotsKindsFromPath := fun _ => .ok (cursorKinds sequence) }
  preflight := { loadKotsKinds := .ok (cursorKinds sequence) }

/-- An app of one cluster with two upstream versions, the second of which is current. -/
def twoVersions : Server where
  db := {
    app := .single { id := "app", name := "App", slug := "app", currentSequence := some 1 }
    appVersion := ⟨[{ appId := "app", sequence := 0, createdAt := 0, updateCursor := "1" },
                    { appId := "app", sequence := 1, createdAt := 0, updateCursor := "2" }],
      by decide⟩
    appDownstream := .single {
      appId := "app", clusterId := "cluster", downstreamName := "this-cluster" } }
  archives := fun _ _ => some "archive"

def firstRequest : UpdateAppConfigRequest where
  sequence := 0
  createNewVersion := true
  configGroups := []

/-- A config change of the first version; the archive of the second is there, or lost. -/
def changeFirst (lost : Bool) : UpdateAppConfigEnv where
  decode := .ok firstRequest
  config := fun sequence => cursorEnv (lost && sequence = 1) sequence

theorem currentIsNewest_changeFirst : ∃ a latest later,
    App.getFromSlug (.ok ()) (.ok ()) twoVersions.db "app" = .ok a ∧
      getLaterVersions (getVersions (.ok ()) twoVersions.db a.id) 0 = .ok (latest, later) ∧
      (CurrentIsNewest (updateAppConfigHandler (changeFirst false) "app" twoVersions).2.db a.id ↔
        CommitsLast (changeFirst false) a firstRequest later
          (changeVersion (changeFirst false) a latest firstRequest twoVersions).2) := by
  have hcursors : (changeFirst false).KeepsCursors twoVersions.db := by
    intro r hr kinds hkinds
    cases hkinds
    rcases List.mem_cons.mp hr with rfl | hr
    · rfl
    · rw [List.mem_singleton.mp hr]
      rfl
  exact currentIsNewest_updateAppConfig_iff (changeFirst false) "app" firstRequest
    { success := true } twoVersions _ rfl rfl hcursors (Prod.ext (by decide +kernel) rfl)

/-- The second version cannot be made again, and the first one is made again after it. -/
theorem not_currentIsNewest_lostArchive :
    (updateAppConfigHandler (changeFirst true) "app" twoVersions).1 =
        some ⟨200, { success := true }⟩ ∧
      ¬ CurrentIsNewest (updateAppConfigHandler (changeFirst true) "app" twoVersions).2.db "app" := by
  refine ⟨by decide +kernel, ?_⟩
  rintro ⟨cursor, hcursor, hbounded⟩
  have hone : currentCursor (updateAppConfigHandler (changeFirst true) "app" twoVersions).2.db
      "app" = some 1 := by decide +kernel
  rw [hone] at hcursor
  cases hcursor
  have hle := hbounded { appId := "app", sequence := 1, createdAt := 0, updateCursor := "2" }
    (by decide +kernel) rfl 2 (by decide +kernel)
  omega

end Kotsadm.Flows
