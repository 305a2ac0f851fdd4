import Kotsadm.Flows.LaterVersions
import Kotsadm.Lib.Machine
import Kotsadm.Lib.Processes

/-!
# LostUpdates — versions that are made from the newest one

An update, a registry change, a license sync and a config change each download the archive of a
version, work on it, and store it as a new version.  `createVersion` takes the next sequence without
a look at where the archive comes from, so what was committed in the meantime is not in it.  The
settings of the registry are stored after the version that was rewritten for it, so a flow in
between renders its version for the registry before.
-/

namespace Kotsadm.Flows.LostUpdates

/-! ## The archives -/

/-- The registry in the options of `Rewrite` and `Pull`. -/
structure RegistryOptions where
  hostname : String
  username : String
  password : String
  registryNamespace : String
  deriving DecidableEq, Repr

/-- Where the images are; the handler compares no more than this. -/
def RegistryOptions.place (registry : RegistryOptions) : String × String :=
  (registry.hostname, registry.registryNamespace)

/-- The archives, and the part of the package `kots` that works on them.  `Rewrite` and `Pull` render
for the registry they are given, keep the license, and `Rewrite` the release too. -/
structure Kots (Archive License Upstream : Type) where
  license : Archive → License
  licenseSequence : License → Int
  updateCursor : Archive → String
  /-- The registry that the images were rewritten for. -/
  place : Archive → Option (String × String)
  writeLicense : License → Archive → Archive
  writeConfigValues : String → Archive → Archive
  rewrite : Option RegistryOptions → Archive → Archive
  /-- Whether the pull succeeds, and what it leaves in the directory. -/
  pull : Upstream → String → Option RegistryOptions → Archive → Bool × Archive
  updateCursor_writeLicense : ∀ license a, updateCursor (writeLicense license a) = updateCursor a
  license_writeConfigValues : ∀ values a, license (writeConfigValues values a) = license a
  updateCursor_writeConfigValues : ∀ values a,
    updateCursor (writeConfigValues values a) = updateCursor a
  license_rewrite : ∀ registry a, license (rewrite registry a) = license a
  updateCursor_rewrite : ∀ registry a, updateCursor (rewrite registry a) = updateCursor a
  place_rewrite : ∀ registry a,
    place (rewrite registry a) = registry.map RegistryOptions.place
  license_pull : ∀ upstream toCursor registry a,
    license (pull upstream toCursor registry a).2 = license a
  place_pull : ∀ upstream toCursor registry a, (pull upstream toCursor registry a).1 = true →
    place (pull upstream toCursor registry a).2 = registry.map RegistryOptions.place

/-! ## The stored versions -/

/-- The source that `createVersion` is given. -/
inductive Source where
  | upstreamUpdate
  | registryChange
  | licenseChange
  | configChange
  deriving DecidableEq, Repr

section

variable {Archive License Upstream : Type}

/-- A row of `app_version`, with the archive it was made of and the version that came from. -/
structure Version (Archive : Type) where
  source : Source
  base : Nat
  archive : Archive

structure Store (Archive : Type) where
  /-- By sequence. -/
  versions : List (Version Archive)
  currentSequence : Nat
  objects : Nat → Option Archive
  settings : Option RegistryOptions
  /-- The sequences of the committed transactions, the last one first. -/
  committed : List Nat := []

/-! ## The flows -/

inductive Kind where
  | update
  | rewrite (registry : RegistryOptions)
  | sync
  | config
  /-- A config change without a new version. -/
  | edit
  deriving DecidableEq, Repr

def Kind.source : Kind → Source
  | .update => .upstreamUpdate
  | .rewrite _ => .registryChange
  | .sync => .licenseChange
  | .config | .edit => .configChange

/-- A directory with the archive of a version, and what was done to it. -/
structure Dir (Archive : Type) where
  base : Nat
  archive : Archive

/-- What a flow has done last. -/
inductive Phase (Archive : Type) where
  /-- The app of a registry request was read. -/
  | asked (base : Nat)
  /-- It is known which archive to download. -/
  | found (base : Nat)
  | working (dir : Dir Archive)
  /-- The license or the config values were written. -/
  | changed (dir : Dir Archive)
  /-- The registry settings were read. -/
  | given (dir : Dir Archive) (registry : Option RegistryOptions)
  /-- The archive is what is to be stored. -/
  | made (dir : Dir Archive) (registry : Option RegistryOptions)
  /-- `max(sequence) + 1` was taken. -/
  | numbered (dir : Dir Archive) (registry : Option RegistryOptions) (sequence : Nat)
  | committed (dir : Dir Archive)
  /-- `UpdateRegistry` comes next. -/
  | storing
  | ended

structure Flow (Archive : Type) where
  kind : Kind
  /-- The number of versions when the flow read the app or listed them; its own do not count. -/
  since : Nat
  phase : Phase Archive
  /-- The later versions that a config change is to make again. -/
  todo : List Nat := []
  /-- The version of the request has not been made yet. -/
  primary : Bool := true

def Phase.dir : Phase Archive → Option (Dir Archive)
  | .working dir | .changed dir | .given dir _ | .made dir _ | .numbered dir _ _
  | .committed dir => some dir
  | .asked _ | .found _ | .storing | .ended => none

/-- The loop over the later versions. -/
def Flow.advance (f : Flow Archive) : Flow Archive :=
  match f.todo with
  | [] => { f with phase := .ended }
  | base :: todo => { f with phase := .found base, todo, primary := false }

/-- An error.  The loop over the updates goes on with the directory as it is, the one over the later
versions with the next of them. -/
def Flow.giveUp (f : Flow Archive) : Flow Archive :=
  match f.kind, f.phase.dir with
  | .update, some dir => { f with phase := .working dir }
  | .config, _ => if f.primary then { f with phase := .ended } else f.advance
  | _, _ => { f with phase := .ended }

/-- After the upload of the archive. -/
def Flow.uploaded (f : Flow Archive) (dir : Dir Archive) : Flow Archive :=
  match f.kind with
  | .update => { f with phase := .working dir }
  | .rewrite _ => { f with phase := .storing }
  | .config => f.advance
  | .sync | .edit => { f with phase := .ended }

/-- The steps of a flow. -/
inductive Act (License Upstream : Type) where
  /-- Are the hostname and the namespace of the request the stored ones? -/
  | compare
  | download
  | writeLicense (license : License)
  | writeConfigValues (values : String)
  | readSettings
  | render
  | pull (upstream : Upstream) (toCursor : String)
  | rewriteImages
  | number
  | commit
  | upload
  | storeSettings
  /-- A call returns an error. -/
  | fail

/-- The commit of `createVersion`; a sequence that is taken is overwritten. -/
def Store.commit (s : Store Archive) (sequence : Nat) (v : Version Archive) : Store Archive :=
  { s with
    versions := if sequence < s.versions.length then s.versions.set sequence v else s.versions ++ [v]
    currentSequence := sequence
    committed := sequence :: s.committed }

def Store.put (s : Store Archive) (sequence : Nat) (archive : Archive) : Store Archive :=
  { s with objects := Function.update s.objects sequence (some archive) }

variable (K : Kots Archive License Upstream)

/-- `GetVersions`; the labels are not used. -/
def Store.getVersions (s : Store Archive) : Except GoError (List AppVersion) :=
  s.versions.zipIdx.mapM fun (v, sequence) =>
    match parseInt (K.updateCursor v.archive) with
    | none => .error { contexts := ["scan row from app_version table"]
                       cause := "sql: Scan error on column index 1, name \"update_cursor\"" }
    | some updateCursor => .ok { sequence, updateCursor, versionLabel := "" }

def Flow.compare (f : Flow Archive) (s : Store Archive) : Option (Store Archive × Flow Archive) :=
  match f.kind, f.phase with
  | .rewrite registry, .asked base =>
    if s.settings.map RegistryOptions.place = some registry.place then
      -- only the user and the password may have changed
      some (s, { f with phase := .storing })
    else some (s, { f with phase := .found base })
  | _, _ => none

def Flow.download (f : Flow Archive) (s : Store Archive) :
    Option (Store Archive × Flow Archive) :=
  match f.phase with
  | .found base =>
    match s.objects base with
    | none => some (s, f.giveUp)
    | some archive => some (s, { f with phase := .working ⟨base, archive⟩ })
  | _ => none

def Flow.writeLicense (f : Flow Archive) (license : License) (s : Store Archive) :
    Option (Store Archive × Flow Archive) :=
  match f.kind, f.phase with
  | .sync, .working dir =>
    if K.licenseSequence license = K.licenseSequence (K.license dir.archive) then
      some (s, { f with phase := .ended })
    else
      let archive := K.writeLicense license dir.archive
      some (s, { f with phase := .changed { dir with archive } })
  | _, _ => none

def Flow.writeConfigValues (f : Flow Archive) (values : String) (s : Store Archive) :
    Option (Store Archive × Flow Archive) :=
  match f.phase with
  | .working dir =>
    if f.kind = .config ∨ f.kind = .edit then
      let archive := K.writeConfigValues values dir.archive
      some (s, { f with phase := .changed { dir with archive } })
    else none
  | _ => none

def Flow.readSettings (f : Flow Archive) (s : Store Archive) :
    Option (Store Archive × Flow Archive) :=
  match f.kind, f.phase with
  | .update, .working dir | _, .changed dir =>
    some (s, { f with phase := .given dir s.settings })
  | _, _ => none

/-- `RenderDir` -/
def Flow.render (f : Flow Archive) (s : Store Archive) : Option (Store Archive × Flow Archive) :=
  match f.phase with
  | .given dir registry =>
    if f.kind = .update then none
    else
      -- the settings may be stored again before the version is committed
      let archive := K.rewrite registry dir.archive
      some (s, { f with phase := .made { dir with archive } registry })
  | _ => none

/-- `Pull`; without a new cursor there is no new version. -/
def Flow.pull (f : Flow Archive) (upstream : Upstream) (toCursor : String) (s : Store Archive) :
    Option (Store Archive × Flow Archive) :=
  match f.kind, f.phase with
  | .update, .given dir registry =>
    let (pulled, archive) := K.pull upstream toCursor registry dir.archive
    if pulled = true ∧ K.updateCursor archive ≠ K.updateCursor dir.archive then
      -- the base is still the version that was downloaded
      some (s, { f with phase := .made { dir with archive } registry })
    else some (s, { f with phase := .working { dir with archive } })
  | _, _ => none

def Flow.rewriteImages (f : Flow Archive) (s : Store Archive) :
    Option (Store Archive × Flow Archive) :=
  match f.kind, f.phase with
  | .rewrite registry, .working dir =>
    let archive := K.rewrite (some registry) dir.archive
    some (s, { f with phase := .made { dir with archive } (some registry) })
  | _, _ => none

/-- The select of `createVersion`. -/
def Flow.number (f : Flow Archive) (s : Store Archive) : Option (Store Archive × Flow Archive) :=
  match f.phase with
  | .made dir registry =>
    if f.kind = .edit then none
    else some (s, { f with phase := .numbered dir registry s.versions.length })
  | _ => none

/-- The rest of `createVersion`.  `hasDownstream` is whether the app has a downstream, whose version
of a sequence that is taken is a duplicate key. -/
def Flow.commit (hasDownstream : Bool) (f : Flow Archive) (s : Store Archive) :
    Option (Store Archive × Flow Archive) :=
  match f.phase with
  | .numbered dir _ sequence =>
    if sequence < s.versions.length ∧ hasDownstream = true then
      -- the transaction is rolled back
      some (s, f.giveUp)
    else
      -- a config change goes on with the versions it has listed, an update with its own
      let s := s.commit sequence ⟨f.kind.source, dir.base, dir.archive⟩
      some (s, { f with
        phase := .committed { dir with base := sequence }
        since := if f.kind = .config then f.since else s.versions.length })
  | _ => none

def Flow.upload (f : Flow Archive) (s : Store Archive) : Option (Store Archive × Flow Archive) :=
  match f.kind, f.phase with
  | .edit, .made dir _ | _, .committed dir => some (s.put dir.base dir.archive, f.uploaded dir)
  | _, _ => none

/-- `UpdateRegistry` -/
def Flow.storeSettings (f : Flow Archive) (s : Store Archive) :
    Option (Store Archive × Flow Archive) :=
  match f.kind, f.phase with
  | .rewrite registry, .storing =>
    some ({ s with settings := some registry }, { f with phase := .ended })
  | _, _ => none

def Flow.act (hasDownstream : Bool) (f : Flow Archive) (s : Store Archive) :
    Act License Upstream → Option (Store Archive × Flow Archive)
  | .compare => f.compare s
  | .download => f.download s
  | .writeLicense license => f.writeLicense K license s
  | .writeConfigValues values => f.writeConfigValues K values s
  | .readSettings => f.readSettings s
  | .render => f.render K s
  | .pull upstream toCursor => f.pull K upstream toCursor s
  | .rewriteImages => f.rewriteImages K s
  | .number => f.number s
  | .commit => f.commit hasDownstream s
  | .upload => f.upload s
  | .storeSettings => f.storeSettings s
  | .fail => some (s, f.giveUp)

/-! ## The system -/

structure System (Archive : Type) where
  store : Store Archive
  flows : List (Flow Archive) := []

/-- An update check is a sync and then an update, which reads the app again. -/
inductive Action (License Upstream : Type) where
  | update
  | rewrite (registry : RegistryOptions)
  | sync
  | config (sequence : Int)
  | edit (sequence : Nat)
  | act (i : Nat) (a : Act License Upstream)

/-- A flow whose first step is to read the app. -/
def Store.start (s : Store Archive) (kind : Kind)
    (phase : (base : Nat) → Phase Archive) : Flow Archive :=
  { kind, since := s.versions.length, phase := phase s.currentSequence }

/-- `getLaterVersions` finds what to make again. -/
def Store.startConfig (s : Store Archive) (sequence : Int) : Option (Flow Archive) :=
  match getLaterVersions (s.getVersions K) sequence with
  | .error _ => none
  | .ok (latest, later) => some
    { kind := .config, since := s.versions.length, phase := .found latest.toNat,
      todo := later.map fun version => version.sequence.toNat }

def System.start (w : System Archive) (f : Flow Archive) : System Archive :=
  { w with flows := w.flows ++ [f] }

def machine (hasDownstream : Bool) : Machine (System Archive) (Action License Upstream) where
  step w
    | .update => some (w.start (w.store.start .update .found))
    | .rewrite registry => some (w.start (w.store.start (.rewrite registry) .asked))
    | .sync => some (w.start (w.store.start .sync .found))
    | .config sequence => (w.store.startConfig K sequence).map w.start
    | .edit sequence => some (w.start (w.store.start .edit fun _ => .found sequence))
    | .act i a => do
      let f ← w.flows[i]?
      let (store, f) ← f.act K hasDownstream w.store a
      return { store, flows := w.flows.set i f }

/-- The app was just installed. -/
structure Init (w : System Archive) : Prop where
  versions : w.store.versions.length = 1
  currentSequence : w.store.currentSequence = 0
  objects : ∀ n a, w.store.objects n = some a →
    ∃ v, w.store.versions[n]? = some v ∧ v.archive = a
  committed : w.store.committed = []
  flows : w.flows = []

/-! ## No update is lost -/

/-- The update cursor as `GetVersions` has it. -/
def cursorOf (v : Version Archive) : Option Int := parseInt (K.updateCursor v.archive)

/-- Of the first `n` versions, `base` is the last one with its cursor. -/
structure Latest (versions : List (Version Archive)) (n base : Nat) : Prop where
  lt : base < n
  last : ∀ m u v, base < m → m < n → versions[base]? = some v → versions[m]? = some u →
    cursorOf K u ≠ cursorOf K v

/-- Version `n` was made from the one before, or, by a config change, from the one of its cursor. -/
structure Follows (versions : List (Version Archive)) (n : Nat) (v : Version Archive) : Prop where
  config : v.source = .configChange → Latest K versions n v.base
  previous : v.source ≠ .configChange → v.base + 1 = n

structure NoneLost (s : Store Archive) : Prop where
  /-- No committed version is overwritten. -/
  kept : s.committed.Nodup
  follows : ∀ n v, 0 < n → s.versions[n]? = some v → Follows K s.versions n v
  /-- The license and the release are those of the version it was made from, unless the flow is
  there to change them; the registry is that of the version before. -/
  license : ∀ n v u, 0 < n → s.versions[n]? = some v → s.versions[v.base]? = some u →
    v.source ≠ .licenseChange → K.license v.archive = K.license u.archive
  release : ∀ n v u, 0 < n → s.versions[n]? = some v → s.versions[v.base]? = some u →
    v.source ≠ .upstreamUpdate → K.updateCursor v.archive = K.updateCursor u.archive
  place : ∀ n v u, s.versions[n + 1]? = some v → s.versions[n]? = some u →
    v.source ≠ .registryChange → K.place v.archive = K.place u.archive

/-- No other flow has come between: none has committed since the flow read the app (for a config
change: no version of the cursor since they were listed, and none since it took its number), and
the registry settings it was given are those of the newest version. -/
structure Undisturbed (s : Store Archive) (f : Flow Archive) (base : Nat)
    (registry : Option RegistryOptions) (sequence : Nat) : Prop where
  number : sequence = s.versions.length
  since : f.kind ≠ .config → f.since = s.versions.length
  cursor : f.kind = .config → ∀ m u v, f.since ≤ m → s.versions[base]? = some v →
    s.versions[m]? = some u → cursorOf K u ≠ cursorOf K v
  settings : f.kind.source ≠ .registryChange → ∀ u, s.versions.getLast? = some u →
    registry.map RegistryOptions.place = K.place u.archive

/-- A commit that goes through is undisturbed. -/
def Guard (hasDownstream : Bool) (w : System Archive) : Action License Upstream → Prop
  | .act i .commit => ∀ f dir registry sequence, w.flows[i]? = some f →
      f.phase = .numbered dir registry sequence →
      ¬ (sequence < w.store.versions.length ∧ hasDownstream = true) →
      Undisturbed K w.store f dir.base registry sequence
  | _ => True

/-! ## The invariant -/

/-- Where a flow has its archive from. -/
def BaseOk (versions : List (Version Archive)) (kind : Kind) (since base : Nat) : Prop :=
  match kind with
  | .edit => True
  | .config => Latest K versions since base
  | _ => base + 1 = since

/-- The directory has the license and the release of its version, where the flow keeps them. -/
def DirOk (versions : List (Version Archive)) (kind : Kind) (dir : Dir Archive) : Prop :=
  ∃ v, versions[dir.base]? = some v ∧
    (kind ≠ .sync → K.license dir.archive = K.license v.archive) ∧
    (kind ≠ .update → K.updateCursor dir.archive = K.updateCursor v.archive)

/-- The archive to be stored, and the registry it was rendered for. -/
structure MadeOk (versions : List (Version Archive)) (kind : Kind) (since : Nat)
    (dir : Dir Archive) (registry : Option RegistryOptions) : Prop where
  base : BaseOk K versions kind since dir.base
  content : DirOk K versions kind dir
  place : K.place dir.archive = registry.map RegistryOptions.place

/-- An archive of version `n`. -/
def ArchiveOk (versions : List (Version Archive)) (n : Nat) (a : Archive) : Prop :=
  ∃ v, versions[n]? = some v ∧ K.license a = K.license v.archive ∧
    K.updateCursor a = K.updateCursor v.archive

def PhaseOk (versions : List (Version Archive)) (kind : Kind) (since : Nat) :
    Phase Archive → Prop
  | .asked base | .found base => BaseOk K versions kind since base
  | .working dir | .changed dir | .given dir _ =>
    BaseOk K versions kind since dir.base ∧ DirOk K versions kind dir
  | .made dir registry => MadeOk K versions kind since dir registry
  | .numbered dir registry sequence =>
    MadeOk K versions kind since dir registry ∧ kind ≠ .edit ∧ 0 < sequence ∧
      sequence ≤ versions.length
  | .committed dir =>
    (kind = .update → dir.base + 1 = since) ∧ ArchiveOk K versions dir.base dir.archive
  | .storing | .ended => True

structure FlowOk (versions : List (Version Archive)) (f : Flow Archive) : Prop where
  since : f.since ≤ versions.length
  todo : f.kind = .config → ∀ base ∈ f.todo, Latest K versions f.since base
  phase : PhaseOk K versions f.kind f.since f.phase

structure StoreOk (s : Store Archive) : Prop where
  current : s.currentSequence + 1 = s.versions.length
  objects : ∀ n a, s.objects n = some a → ArchiveOk K s.versions n a
  committed : ∀ n, n ∈ s.committed ↔ 0 < n ∧ n < s.versions.length
  noneLost : NoneLost K s

structure Inv (w : System Archive) : Prop where
  store : StoreOk K w.store
  flows : ∀ f ∈ w.flows, FlowOk K w.store.versions f

variable {K} {versions : List (Version Archive)} {f : Flow Archive} {s : Store Archive}
  {kind : Kind} {since : Nat}

/-! ## A version more -/

section Append

variable (v : Version Archive)

theorem Latest.append {n base : Nat} (h : Latest K versions n base) (hn : n ≤ versions.length) :
    Latest K (versions ++ [v]) n base where
  lt := h.lt
  last := by
    intro m u w hbase hm hw hu
    have hbaseLt := h.lt
    rw [List.getElem?_append_left (by omega)] at hw hu
    exact h.last m u w hbase hm hw hu

theorem getElem?_append_of_some {n : Nat} {u : Version Archive} (h : versions[n]? = some u) :
    (versions ++ [v])[n]? = some u := by
  rw [List.getElem?_append_left (List.getElem?_eq_some_iff.mp h).1]
  exact h

theorem ArchiveOk.append {n : Nat} {a : Archive} (h : ArchiveOk K versions n a) :
    ArchiveOk K (versions ++ [v]) n a := by
  obtain ⟨u, hu, hsame⟩ := h
  exact ⟨u, getElem?_append_of_some v hu, hsame⟩

theorem BaseOk.append {base : Nat} (h : BaseOk K versions kind since base)
    (hsince : since ≤ versions.length) : BaseOk K (versions ++ [v]) kind since base := by
  cases kind with
  | config => exact Latest.append v h hsince
  | edit => trivial
  | update => exact h
  | rewrite registry => exact h
  | sync => exact h

theorem DirOk.append {dir : Dir Archive} (h : DirOk K versions kind dir) :
    DirOk K (versions ++ [v]) kind dir := by
  obtain ⟨u, hu, hsame⟩ := h
  exact ⟨u, getElem?_append_of_some v hu, hsame⟩

theorem MadeOk.append {dir : Dir Archive} {registry : Option RegistryOptions}
    (h : MadeOk K versions kind since dir registry) (hsince : since ≤ versions.length) :
    MadeOk K (versions ++ [v]) kind since dir registry where
  base := h.base.append v hsince
  content := h.content.append v
  place := h.place

theorem PhaseOk.append {phase : Phase Archive} (h : PhaseOk K versions kind since phase)
    (hsince : since ≤ versions.length) : PhaseOk K (versions ++ [v]) kind since phase := by
  cases phase with
  | asked base => exact BaseOk.append v h hsince
  | found base => exact BaseOk.append v h hsince
  | working dir => exact ⟨BaseOk.append v h.1 hsince, h.2.append v⟩
  | changed dir => exact ⟨BaseOk.append v h.1 hsince, h.2.append v⟩
  | given dir registry => exact ⟨BaseOk.append v h.1 hsince, h.2.append v⟩
  | made dir registry => exact MadeOk.append v h hsince
  | numbered dir registry sequence =>
    obtain ⟨hmade, hkind, hpos, hsequence⟩ := h
    refine ⟨hmade.append v hsince, hkind, hpos, ?_⟩
    rw [List.length_append]
    omega
  | committed dir => exact ⟨h.1, h.2.append v⟩
  | storing => trivial
  | ended => trivial

theorem FlowOk.append (h : FlowOk K versions f) : FlowOk K (versions ++ [v]) f where
  since := by
    have hsince := h.since
    rw [List.length_append]
    omega
  todo hkind base hbase := (h.todo hkind base hbase).append v h.since
  phase := h.phase.append v h.since

end Append

/-! ## The next phase -/

/-- A flow at another phase. -/
theorem FlowOk.move (h : FlowOk K versions f) {phase : Phase Archive}
    (hphase : PhaseOk K versions f.kind f.since phase) : FlowOk K versions { f with phase } where
  since := h.since
  todo := h.todo
  phase := hphase

/-- The directory with another archive. -/
theorem DirOk.replace {dir : Dir Archive} (h : DirOk K versions kind dir) {archive : Archive}
    (hlicense : kind ≠ .sync → K.license archive = K.license dir.archive)
    (hrelease : kind ≠ .update → K.updateCursor archive = K.updateCursor dir.archive) :
    DirOk K versions kind { dir with archive } := by
  obtain ⟨v, hv, hold, hcursor⟩ := h
  exact ⟨v, hv, fun hsync => (hlicense hsync).trans (hold hsync),
    fun hupdate => (hrelease hupdate).trans (hcursor hupdate)⟩

theorem FlowOk.advance (h : FlowOk K versions f) (hkind : f.kind = .config) :
    FlowOk K versions f.advance := by
  have htodo := h.todo hkind
  unfold Flow.advance
  split
  next => exact h.move trivial
  next base todo hlist =>
    rw [hlist] at htodo
    refine ⟨h.since, fun _ other hother => htodo other (List.mem_cons_of_mem base hother), ?_⟩
    show BaseOk K versions f.kind f.since base
    rw [hkind]
    exact htodo base List.mem_cons_self

/-- The directory of an update keeps to what an update may change. -/
theorem dirOk_update (h : FlowOk K versions f) (hkind : f.kind = .update) {dir : Dir Archive}
    (hdir : f.phase.dir = some dir) :
    BaseOk K versions f.kind f.since dir.base ∧ DirOk K versions f.kind dir := by
  have hphase := h.phase
  cases hp : f.phase with
  | asked base =>
    rw [hp] at hdir
    cases hdir
  | found base =>
    rw [hp] at hdir
    cases hdir
  | working dir' =>
    rw [hp] at hdir hphase
    cases hdir
    exact hphase
  | changed dir' =>
    rw [hp] at hdir hphase
    cases hdir
    exact hphase
  | given dir' registry =>
    rw [hp] at hdir hphase
    cases hdir
    exact hphase
  | made dir' registry =>
    rw [hp] at hdir hphase
    cases hdir
    exact ⟨hphase.base, hphase.content⟩
  | numbered dir' registry sequence =>
    rw [hp] at hdir hphase
    cases hdir
    exact ⟨hphase.1.base, hphase.1.content⟩
  | committed dir' =>
    rw [hp] at hdir hphase
    cases hdir
    obtain ⟨hbase, v, hv, hlicense, hrelease⟩ := hphase
    refine ⟨?_, v, hv, fun _ => hlicense, fun _ => hrelease⟩
    have hlast := hbase hkind
    rw [hkind]
    exact hlast
  | storing =>
    rw [hp] at hdir
    cases hdir
  | ended =>
    rw [hp] at hdir
    cases hdir

theorem FlowOk.giveUp (h : FlowOk K versions f) : FlowOk K versions f.giveUp := by
  unfold Flow.giveUp
  split
  next dir hkind hdir => exact h.move (dirOk_update h hkind hdir)
  next hkind =>
    split
    next => exact h.move trivial
    next => exact h.advance hkind
  next => exact h.move trivial

theorem FlowOk.uploaded (h : FlowOk K versions f) {dir : Dir Archive}
    (hdir : f.phase.dir = some dir) : FlowOk K versions (f.uploaded dir) := by
  unfold Flow.uploaded
  split
  next hkind => exact h.move (dirOk_update h hkind hdir)
  next => exact h.move trivial
  next hkind => exact h.advance hkind
  next => exact h.move trivial
  next => exact h.move trivial

/-! ## The steps before a commit, and after one -/

theorem StoreOk.put (h : StoreOk K s) {n : Nat} {a : Archive} (ha : ArchiveOk K s.versions n a) :
    StoreOk K (s.put n a) where
  current := h.current
  objects m b hb := by
    change Function.update s.objects n (some a) m = some b at hb
    rw [Function.update_apply] at hb
    split at hb
    next hm =>
      cases hb
      rw [hm]
      exact ha
    next => exact h.objects m b hb
  committed := h.committed
  noneLost := ⟨h.noneLost.kept, h.noneLost.follows, h.noneLost.license, h.noneLost.release,
    h.noneLost.place⟩

theorem StoreOk.setSettings (h : StoreOk K s) (settings : Option RegistryOptions) :
    StoreOk K { s with settings } where
  current := h.current
  objects := h.objects
  committed := h.committed
  noneLost := ⟨h.noneLost.kept, h.noneLost.follows, h.noneLost.license, h.noneLost.release,
    h.noneLost.place⟩

/-- What a step keeps that commits nothing. -/
structure Keeps (K : Kots Archive License Upstream) (s : Store Archive)
    (next : Store Archive × Flow Archive) : Prop where
  versions : next.1.versions = s.versions
  store : StoreOk K next.1
  flow : FlowOk K s.versions next.2

section Keeps

variable {next : Store Archive × Flow Archive} (h : StoreOk K s) (hf : FlowOk K s.versions f)

include h hf

theorem keeps_compare (hact : f.compare s = some next) : Keeps K s next := by
  have hphase := hf.phase
  unfold Flow.compare at hact
  split at hact
  next registry base hkind hp =>
    rw [hp] at hphase
    split at hact
    next =>
      cases hact
      exact ⟨rfl, h, hf.move trivial⟩
    next =>
      cases hact
      exact ⟨rfl, h, hf.move hphase⟩
  next => cases hact

theorem keeps_download (hact : f.download s = some next) : Keeps K s next := by
  have hphase := hf.phase
  unfold Flow.download at hact
  split at hact
  next base hp =>
    rw [hp] at hphase
    split at hact
    next =>
      cases hact
      exact ⟨rfl, h, hf.giveUp⟩
    next archive hobject =>
      cases hact
      obtain ⟨v, hv, hlicense, hrelease⟩ := h.objects base archive hobject
      exact ⟨rfl, h, hf.move ⟨hphase, v, hv, fun _ => hlicense, fun _ => hrelease⟩⟩
  next => cases hact

theorem keeps_writeLicense {license : License} (hact : f.writeLicense K license s = some next) :
    Keeps K s next := by
  have hphase := hf.phase
  unfold Flow.writeLicense at hact
  split at hact
  next dir hkind hp =>
    rw [hp] at hphase
    split at hact
    next =>
      cases hact
      exact ⟨rfl, h, hf.move trivial⟩
    next =>
      cases hact
      have hchanged := hphase.2.replace (fun hsync => absurd hkind hsync)
        fun _ => K.updateCursor_writeLicense license dir.archive
      exact ⟨rfl, h, hf.move ⟨hphase.1, hchanged⟩⟩
  next => cases hact

theorem keeps_writeConfigValues {values : String}
    (hact : f.writeConfigValues K values s = some next) : Keeps K s next := by
  have hphase := hf.phase
  unfold Flow.writeConfigValues at hact
  split at hact
  next dir hp =>
    rw [hp] at hphase
    split at hact
    next =>
      cases hact
      have hchanged := hphase.2.replace (fun _ => K.license_writeConfigValues values dir.archive)
        fun _ => K.updateCursor_writeConfigValues values dir.archive
      exact ⟨rfl, h, hf.move ⟨hphase.1, hchanged⟩⟩
    next => cases hact
  next => cases hact

theorem keeps_readSettings (hact : f.readSettings s = some next) : Keeps K s next := by
  have hphase := hf.phase
  unfold Flow.readSettings at hact
  split at hact
  next dir hkind hp =>
    rw [hp] at hphase
    cases hact
    exact ⟨rfl, h, hf.move hphase⟩
  next dir hp =>
    rw [hp] at hphase
    cases hact
    exact ⟨rfl, h, hf.move hphase⟩
  next => cases hact

theorem keeps_render (hact : f.render K s = some next) : Keeps K s next := by
  have hphase := hf.phase
  unfold Flow.render at hact
  split at hact
  next dir registry hp =>
    rw [hp] at hphase
    split at hact
    next => cases hact
    next =>
      cases hact
      have hrendered := hphase.2.replace (fun _ => K.license_rewrite registry dir.archive)
        fun _ => K.updateCursor_rewrite registry dir.archive
      have hplace := K.place_rewrite registry dir.archive
      exact ⟨rfl, h, hf.move ⟨hphase.1, hrendered, hplace⟩⟩
  next => cases hact

theorem keeps_pull {upstream : Upstream} {toCursor : String}
    (hact : f.pull K upstream toCursor s = some next) : Keeps K s next := by
  have hphase := hf.phase
  unfold Flow.pull at hact
  split at hact
  next dir registry hkind hp =>
    rw [hp] at hphase
    have hpulled := hphase.2.replace
      (fun _ => K.license_pull upstream toCursor registry dir.archive)
      fun hupdate => absurd hkind hupdate
    dsimp only at hact
    split at hact
    next hnew =>
      cases hact
      exact ⟨rfl, h, hf.move ⟨hphase.1, hpulled, K.place_pull _ _ _ _ hnew.1⟩⟩
    next =>
      cases hact
      exact ⟨rfl, h, hf.move ⟨hphase.1, hpulled⟩⟩
  next => cases hact

theorem keeps_rewriteImages (hact : f.rewriteImages K s = some next) : Keeps K s next := by
  have hphase := hf.phase
  unfold Flow.rewriteImages at hact
  split at hact
  next registry dir hkind hp =>
    rw [hp] at hphase
    cases hact
    have hrewritten := hphase.2.replace (fun _ => K.license_rewrite (some registry) dir.archive)
      fun _ => K.updateCursor_rewrite (some registry) dir.archive
    have hplace := K.place_rewrite (some registry) dir.archive
    exact ⟨rfl, h, hf.move ⟨hphase.1, hrewritten, hplace⟩⟩
  next => cases hact

theorem keeps_number (hact : f.number s = some next) : Keeps K s next := by
  have hphase := hf.phase
  unfold Flow.number at hact
  split at hact
  next dir registry hp =>
    rw [hp] at hphase
    split at hact
    next => cases hact
    next hkind =>
      cases hact
      have hpos : 0 < s.versions.length := by
        have hcurrent := h.current
        omega
      exact ⟨rfl, h, hf.move ⟨hphase, hkind, hpos, Nat.le_refl _⟩⟩
  next => cases hact

theorem keeps_upload (hact : f.upload s = some next) : Keeps K s next := by
  have hphase := hf.phase
  unfold Flow.upload at hact
  split at hact
  next dir registry hkind hp =>
    -- an edit stores the archive of its own version
    rw [hp] at hphase
    cases hact
    obtain ⟨v, hv, hlicense, hrelease⟩ := hphase.content
    have harchive : ArchiveOk K s.versions dir.base dir.archive :=
      ⟨v, hv, hlicense (by rw [hkind]; exact nofun), hrelease (by rw [hkind]; exact nofun)⟩
    exact ⟨rfl, h.put harchive, hf.uploaded (by rw [hp]; rfl)⟩
  next dir hp =>
    rw [hp] at hphase
    cases hact
    exact ⟨rfl, h.put hphase.2, hf.uploaded (by rw [hp]; rfl)⟩
  next => cases hact

theorem keeps_storeSettings (hact : f.storeSettings s = some next) : Keeps K s next := by
  unfold Flow.storeSettings at hact
  split at hact
  next registry hkind hp =>
    cases hact
    exact ⟨rfl, h.setSettings (some registry), hf.move trivial⟩
  next => cases hact

theorem keeps_act {hasDownstream : Bool} {a : Act License Upstream}
    (hact : f.act K hasDownstream s a = some next) (ha : a ≠ .commit) : Keeps K s next := by
  cases a with
  | compare => exact keeps_compare h hf hact
  | download => exact keeps_download h hf hact
  | writeLicense license => exact keeps_writeLicense h hf hact
  | writeConfigValues values => exact keeps_writeConfigValues h hf hact
  | readSettings => exact keeps_readSettings h hf hact
  | render => exact keeps_render h hf hact
  | pull upstream toCursor => exact keeps_pull h hf hact
  | rewriteImages => exact keeps_rewriteImages h hf hact
  | number => exact keeps_number h hf hact
  | commit => exact absurd rfl ha
  | upload => exact keeps_upload h hf hact
  | storeSettings => exact keeps_storeSettings h hf hact
  | fail =>
    cases hact
    exact ⟨rfl, h, hf.giveUp⟩

end Keeps

/-! ## A commit -/

theorem Follows.lt {n : Nat} {v : Version Archive} (h : Follows K versions n v) : v.base < n := by
  by_cases hsource : v.source = .configChange
  · exact (h.config hsource).lt
  · have hbase := h.previous hsource
    omega

theorem Follows.append (v : Version Archive) {n : Nat} {u : Version Archive}
    (h : Follows K versions n u) (hn : n ≤ versions.length) :
    Follows K (versions ++ [v]) n u where
  config hsource := (h.config hsource).append v hn
  previous := h.previous

theorem Store.versions_commit (s : Store Archive) (v : Version Archive) :
    (s.commit s.versions.length v).versions = s.versions ++ [v] := by
  unfold Store.commit
  rw [if_neg (Nat.lt_irrefl _)]

/-- An index of a list with one element more. -/
theorem getElem?_concat_cases {v u : Version Archive} {n : Nat}
    (h : (versions ++ [v])[n]? = some u) :
    n < versions.length ∧ versions[n]? = some u ∨ n = versions.length ∧ u = v := by
  rcases Processes.getElem?_concat_cases h with ⟨rfl, rfl⟩ | ⟨-, hu⟩
  · exact .inr ⟨rfl, rfl⟩
  · exact .inl ⟨(List.getElem?_eq_some_iff.mp hu).1, hu⟩

theorem getLast?_eq_some {n : Nat} {u : Version Archive} (hn : versions.length = n + 1)
    (h : versions[n]? = some u) : versions.getLast? = some u := by
  rw [List.getLast?_eq_getElem?, hn, Nat.add_sub_cancel]
  exact h

theorem Kind.source_eq_configChange {kind : Kind} (hkind : kind ≠ .edit) :
    kind.source = .configChange ↔ kind = .config := by
  cases kind with
  | edit => exact absurd rfl hkind
  | update => simp [Kind.source]
  | rewrite registry => simp [Kind.source]
  | sync => simp [Kind.source]
  | config => simp [Kind.source]

theorem BaseOk.previous {base : Nat} (h : BaseOk K versions kind since base)
    (hedit : kind ≠ .edit) (hconfig : kind ≠ .config) : base + 1 = since := by
  cases kind with
  | edit => exact absurd rfl hedit
  | config => exact absurd rfl hconfig
  | update => exact h
  | rewrite registry => exact h
  | sync => exact h

section Commit

variable {dir : Dir Archive} {registry : Option RegistryOptions} {sequence : Nat}

/-- What was lost by a commit, seen from what has come between. -/
theorem undisturbed_of_noneLost (h : StoreOk K s) (hf : FlowOk K s.versions f)
    (hp : f.phase = .numbered dir registry sequence)
    (hnone : NoneLost K (s.commit sequence ⟨f.kind.source, dir.base, dir.archive⟩)) :
    Undisturbed K s f dir.base registry sequence := by
  have hphase := hf.phase
  rw [hp] at hphase
  obtain ⟨hmade, hedit, hpos, hle⟩ := hphase
  have hnumber : sequence = s.versions.length := by
    -- a sequence that is taken was committed before
    by_contra hne
    have hmem := (h.committed sequence).mpr ⟨hpos, by omega⟩
    exact (List.nodup_cons.mp hnone.kept).1 hmem
  subst hnumber
  let v : Version Archive := ⟨f.kind.source, dir.base, dir.archive⟩
  have hversions := s.versions_commit v
  have hv : (s.versions ++ [v])[s.versions.length]? = some v := List.getElem?_concat_length
  have hfollows := hnone.follows s.versions.length v hpos (by rw [hversions]; exact hv)
  rw [hversions] at hfollows
  refine ⟨rfl, ?_, ?_, ?_⟩
  · intro hkind
    have hsource := mt (Kind.source_eq_configChange hedit).mp hkind
    have hbase := hfollows.previous hsource
    have hsince := hmade.base.previous hedit hkind
    exact hsince.symm.trans hbase
  · intro hkind m u w hm hw hu
    have hlatest := hfollows.config ((Kind.source_eq_configChange hedit).mpr hkind)
    have hbase := hmade.base
    rw [hkind] at hbase
    have hlt : dir.base < f.since := Latest.lt hbase
    have hmlt := (List.getElem?_eq_some_iff.mp hu).1
    exact hlatest.last m u w (by show dir.base < m; omega) hmlt (getElem?_append_of_some v hw)
      (getElem?_append_of_some v hu)
  · intro hsource u hu
    obtain ⟨n, hn⟩ : ∃ n, s.versions.length = n + 1 := ⟨s.versions.length - 1, by omega⟩
    have hlast : s.versions[n]? = some u := by
      rw [List.getLast?_eq_getElem?, hn, Nat.add_sub_cancel] at hu
      exact hu
    rw [hn] at hv
    have hplace := hnone.place n v u (by rw [hversions]; exact hv)
      (by rw [hversions]; exact getElem?_append_of_some v hlast) hsource
    rw [← hmade.place]
    exact hplace

/-- A version that loses nothing, on top of versions that lose nothing. -/
theorem noneLost_append (h : StoreOk K s) (v : Version Archive)
    (hfollows : Follows K s.versions s.versions.length v)
    (hlicense : v.source ≠ .licenseChange → ∀ u, s.versions[v.base]? = some u →
      K.license v.archive = K.license u.archive)
    (hrelease : v.source ≠ .upstreamUpdate → ∀ u, s.versions[v.base]? = some u →
      K.updateCursor v.archive = K.updateCursor u.archive)
    (hplace : v.source ≠ .registryChange → ∀ u, s.versions.getLast? = some u →
      K.place v.archive = K.place u.archive) : NoneLost K (s.commit s.versions.length v) := by
  have hversions := s.versions_commit v
  have hold := h.noneLost
  -- the version that another one was made from is an old one
  have hbase : ∀ {n u w}, Follows K s.versions n u → n ≤ s.versions.length →
      (s.versions ++ [v])[u.base]? = some w → s.versions[u.base]? = some w := by
    intro n u w hu hn hw
    have hlt := hu.lt
    rw [List.getElem?_append_left (by omega)] at hw
    exact hw
  refine ⟨?_, ?_, ?_, ?_, ?_⟩
  · refine List.nodup_cons.mpr ⟨fun hmem => ?_, hold.kept⟩
    exact Nat.lt_irrefl _ ((h.committed _).mp hmem).2
  · intro n u hn hu
    rw [hversions] at hu ⊢
    rcases getElem?_concat_cases hu with ⟨hlt, hu⟩ | ⟨rfl, rfl⟩
    · exact (hold.follows n u hn hu).append v (by omega)
    · exact hfollows.append u (Nat.le_refl _)
  · intro n u w hn hu hw hsource
    rw [hversions] at hu hw
    rcases getElem?_concat_cases hu with ⟨hlt, hu⟩ | ⟨rfl, rfl⟩
    · have hw := hbase (hold.follows n u hn hu) (by omega) hw
      exact hold.license n u w hn hu hw hsource
    · exact hlicense hsource w (hbase hfollows (Nat.le_refl _) hw)
  · intro n u w hn hu hw hsource
    rw [hversions] at hu hw
    rcases getElem?_concat_cases hu with ⟨hlt, hu⟩ | ⟨rfl, rfl⟩
    · have hw := hbase (hold.follows n u hn hu) (by omega) hw
      exact hold.release n u w hn hu hw hsource
    · exact hrelease hsource w (hbase hfollows (Nat.le_refl _) hw)
  · intro n u w hu hw hsource
    rw [hversions] at hu hw
    rcases getElem?_concat_cases hu with ⟨hlt, hu⟩ | ⟨hn, rfl⟩
    · rw [List.getElem?_append_left (by omega)] at hw
      exact hold.place n u w hu hw hsource
    · rw [List.getElem?_append_left (by omega)] at hw
      exact hplace hsource w (getLast?_eq_some hn.symm hw)

theorem noneLost_of_undisturbed (h : StoreOk K s) (hf : FlowOk K s.versions f)
    (hp : f.phase = .numbered dir registry sequence)
    (hundisturbed : Undisturbed K s f dir.base registry sequence) :
    NoneLost K (s.commit sequence ⟨f.kind.source, dir.base, dir.archive⟩) := by
  have hphase := hf.phase
  rw [hp] at hphase
  obtain ⟨hmade, hedit, hpos, -⟩ := hphase
  have hnumber := hundisturbed.number
  subst hnumber
  obtain ⟨w, hw, hlicense, hrelease⟩ := hmade.content
  refine noneLost_append h _ ⟨?_, ?_⟩ ?_ ?_ ?_
  · intro hsource
    have hkind := (Kind.source_eq_configChange hedit).mp hsource
    have hbase := hmade.base
    rw [hkind] at hbase
    have hlatest : Latest K s.versions f.since dir.base := hbase
    refine ⟨(List.getElem?_eq_some_iff.mp hw).1, ?_⟩
    intro m u w' hm hlt hw' hu
    by_cases hsince : m < f.since
    · exact hlatest.last m u w' hm hsince hw' hu
    · exact hundisturbed.cursor hkind m u w' (by omega) hw' hu
  · intro hsource
    have hkind := mt (Kind.source_eq_configChange hedit).mpr hsource
    have hsince := hmade.base.previous hedit hkind
    exact hsince.trans (hundisturbed.since hkind)
  · intro hsource u hu
    rw [hw] at hu
    cases hu
    refine hlicense fun hsync => hsource ?_
    rw [hsync]
    rfl
  · intro hsource u hu
    rw [hw] at hu
    cases hu
    refine hrelease fun hupdate => hsource ?_
    rw [hupdate]
    rfl
  · intro hsource u hu
    exact hmade.place.trans (hundisturbed.settings hsource u hu)

end Commit

theorem storeOk_commit (h : StoreOk K s) {v : Version Archive}
    (hnone : NoneLost K (s.commit s.versions.length v)) :
    StoreOk K (s.commit s.versions.length v) := by
  have hversions := s.versions_commit v
  refine ⟨?_, ?_, ?_, hnone⟩
  · rw [hversions, List.length_append, List.length_singleton]
    rfl
  · intro n a ha
    rw [hversions]
    exact (h.objects n a ha).append v
  · intro n
    rw [hversions, List.length_append, List.length_singleton]
    show n ∈ s.versions.length :: s.committed ↔ _
    have hcurrent := h.current
    rw [List.mem_cons, h.committed n]
    omega

/-- The flow whose version was committed. -/
theorem flowOk_committed (hf : FlowOk K versions f) (dir : Dir Archive) :
    FlowOk K (versions ++ [⟨f.kind.source, dir.base, dir.archive⟩]) { f with
      phase := .committed { dir with base := versions.length }
      since := if f.kind = .config then f.since else versions.length + 1 } := by
  have hold := hf.append ⟨f.kind.source, dir.base, dir.archive⟩
  refine ⟨?_, ?_, ?_, ?_⟩
  · have hsince := hold.since
    rw [List.length_append, List.length_singleton] at hsince ⊢
    dsimp only
    split
    next => exact hsince
    next => exact Nat.le_refl _
  · intro hkind
    dsimp only at hkind ⊢
    rw [if_pos hkind]
    exact hold.todo hkind
  · intro hkind
    change f.kind = .update at hkind
    show versions.length + 1 = if f.kind = .config then f.since else versions.length + 1
    rw [if_neg (by rw [hkind]; exact nofun)]
  · exact ⟨_, List.getElem?_concat_length, rfl, rfl⟩

/-- What a step keeps, of the store, of the flow that takes it, and of the other flows. -/
structure Moves (K : Kots Archive License Upstream) (s : Store Archive)
    (next : Store Archive × Flow Archive) : Prop where
  store : StoreOk K next.1
  flow : FlowOk K next.1.versions next.2
  others : ∀ f, FlowOk K s.versions f → FlowOk K next.1.versions f

theorem Keeps.moves {next : Store Archive × Flow Archive} (h : Keeps K s next) : Moves K s next where
  store := h.store
  flow := by
    rw [h.versions]
    exact h.flow
  others f hf := by
    rw [h.versions]
    exact hf

theorem moves_commit {hasDownstream : Bool} {next : Store Archive × Flow Archive}
    (h : StoreOk K s) (hf : FlowOk K s.versions f)
    (hguard : ∀ dir registry sequence, f.phase = .numbered dir registry sequence →
      ¬ (sequence < s.versions.length ∧ hasDownstream = true) →
      Undisturbed K s f dir.base registry sequence)
    (hact : f.commit hasDownstream s = some next) : Moves K s next := by
  unfold Flow.commit at hact
  split at hact
  next dir registry sequence hp =>
    split at hact
    next =>
      cases hact
      have hkeeps : Keeps K s (s, f.giveUp) := ⟨rfl, h, hf.giveUp⟩
      exact hkeeps.moves
    next hfree =>
      have hundisturbed := hguard dir registry sequence hp hfree
      have hnone := noneLost_of_undisturbed h hf hp hundisturbed
      have hnumber := hundisturbed.number
      subst hnumber
      cases hact
      have hversions := s.versions_commit ⟨f.kind.source, dir.base, dir.archive⟩
      refine ⟨storeOk_commit h hnone, ?_, fun other hother => ?_⟩
      · dsimp only
        rw [hversions, List.length_append, List.length_singleton]
        exact flowOk_committed hf dir
      · dsimp only
        rw [hversions]
        exact hother.append _
  next => cases hact

/-! ## The database -/

/-- The rows of the app are the versions of the store. -/
structure Represents (appId : AppId) (db : Database) (s : Store Archive) : Prop where
  versions : ∀ n : Int, Interleaving.HasVersion appId db n ↔ 0 ≤ n ∧ n < s.versions.length
  app : (db.app.find? appId).isSome
  currentSequence : Interleaving.current appId db = s.currentSequence

/-- The select of `createVersion` is `Flow.number`. -/
theorem nextSequence_of_represents {appId : AppId} {db : Database} (h : Represents appId db s)
    {currentSequence sequence : Int}
    (hsequence : Version.nextSequence db appId (some currentSequence) = some sequence) :
    sequence = s.versions.length := by
  obtain ⟨hbase, hfresh⟩ := Interleaving.nextSequence_spec hsequence
  have hlast := (h.versions _).mp hbase
  have hnew : ¬ Interleaving.HasVersion appId db sequence := fun hversion =>
    (hfresh sequence hversion).ne rfl
  rw [h.versions] at hnew
  omega

theorem represents_created {appId : AppId} {db tx : Database} (h : Represents appId db s)
    (htx : Version.Created appId s.versions.length db tx) (v : Version Archive) :
    Represents appId tx (s.commit s.versions.length v) := by
  obtain ⟨name, icon, happ⟩ := htx.app
  obtain ⟨now, columns, hversions⟩ := htx.appVersion
  constructor
  case versions =>
    intro n
    have hrow : Interleaving.HasVersion appId tx n ↔
        (s.versions.length : Int) = n ∨ Interleaving.HasVersion appId db n := by
      rw [← Interleaving.hasVersion_upsert]
      unfold Interleaving.HasVersion
      rw [hversions]
    rw [hrow, h.versions, Store.versions_commit, List.length_append, List.length_singleton]
    push_cast
    omega
  case app =>
    rw [happ]
    exact Interleaving.isSome_updateAppVersion h.app
  case currentSequence =>
    unfold Interleaving.current
    rw [happ]
    exact Interleaving.current_updateAppVersion h.app

/-- A run of `createVersion` that nothing comes between takes the number and commits it. -/
theorem represents_createVersion {appId : AppId} {env : Version.VersionEnv}
    {filesInDir source : String} {currentSequence sequence : Int} {server server' : Server}
    (h : Represents appId server.db s)
    (hcreate : Version.createVersion env appId filesInDir source (some currentSequence) server =
      (.ok sequence, server')) (v : Version Archive) :
    sequence = s.versions.length ∧
      Represents appId server'.db (s.commit s.versions.length v) := by
  rcases Version.createVersion_cases env appId filesInDir source (some currentSequence) server with
    ⟨e, herror⟩ | ⟨created, tx, hok, hsequence, hcreated⟩
  · rw [herror] at hcreate
    cases hcreate
  · rw [hok] at hcreate
    cases hcreate
    have hnumber := nextSequence_of_represents h hsequence
    rw [hnumber] at hcreated
    exact ⟨hnumber, represents_created h hcreated v⟩

/-! ## A new flow -/

theorem latest_of_newest {rows : List AppVersion} (hrows : s.getVersions K = .ok rows)
    {row : AppVersion} (hrow : row ∈ rows) (hnewest : Newest rows row) :
    Latest K s.versions s.versions.length row.sequence.toNat := by
  obtain ⟨hfrom, hback⟩ := List.mapM_eq_ok hrows
  obtain ⟨⟨v, base⟩, hmem, hscan⟩ := hback row hrow
  have hbase : s.versions[base]? = some v := List.mk_mem_zipIdx_iff_getElem?.mp hmem
  obtain ⟨hsequence, hcursor⟩ := scan_eq_ok hscan
  rw [hsequence, Int.toNat_natCast]
  refine ⟨(List.getElem?_eq_some_iff.mp hbase).1, ?_⟩
  intro m u w hlt _ hw hu hsame
  rw [hbase] at hw
  cases hw
  -- a later version with the cursor is a row that is newer
  have humem : (u, m) ∈ s.versions.zipIdx := List.mk_mem_zipIdx_iff_getElem?.mpr hu
  obtain ⟨other, hother, hscan'⟩ := hfrom (u, m) humem
  obtain ⟨hm, hcursor'⟩ := scan_eq_ok hscan'
  unfold cursorOf at hsame
  rw [hcursor, hcursor', Option.some.injEq] at hsame
  have hle := hnewest other hother hsame
  omega

theorem flowOk_startConfig {sequence : Int} (hstart : s.startConfig K sequence = some f) :
    FlowOk K s.versions f := by
  unfold Store.startConfig at hstart
  split at hstart
  next => cases hstart
  next latest later hlater =>
    cases hstart
    obtain ⟨rows, hrows⟩ : ∃ rows, s.getVersions K = .ok rows := by
      cases hrows : s.getVersions K with
      | error e =>
        rw [hrows] at hlater
        cases hlater
      | ok rows => exact ⟨rows, rfl⟩
    rw [hrows] at hlater
    obtain ⟨⟨row, hrow, hsequence, hnewest⟩, hall⟩ := newest_of_getLaterVersions hlater
    refine ⟨Nat.le_refl _, fun _ base hbase => ?_, ?_⟩
    · obtain ⟨version, hversion, rfl⟩ := List.mem_map.mp hbase
      obtain ⟨hmem, hnewest⟩ := hall version hversion
      exact latest_of_newest hrows hmem hnewest
    · rw [← hsequence]
      exact latest_of_newest hrows hrow hnewest

theorem flowOk_start (h : StoreOk K s) {phase : Nat → Phase Archive}
    (hphase : ∀ base, BaseOk K s.versions kind s.versions.length base →
      PhaseOk K s.versions kind s.versions.length (phase base))
    (hkind : kind ≠ .config) : FlowOk K s.versions (s.start kind phase) where
  since := Nat.le_refl _
  todo hconfig := absurd hconfig hkind
  phase := by
    apply hphase
    cases kind with
    | config => exact absurd rfl hkind
    | edit => trivial
    | update => exact h.current
    | rewrite registry => exact h.current
    | sync => exact h.current

/-! ## Every run -/

section Runs

variable {hasDownstream : Bool} {w w' : System Archive}

theorem inv_init (h : Init w) : Inv K w := by
  have hlength := h.versions
  have hfirst : ∀ {n v}, w.store.versions[n]? = some v → n = 0 := by
    intro n v hv
    have hlt := (List.getElem?_eq_some_iff.mp hv).1
    omega
  have hnone : NoneLost K w.store := by
    constructor
    case kept =>
      rw [h.committed]
      exact List.nodup_nil
    case follows =>
      intro n v hn hv
      exact absurd (hfirst hv) (Nat.ne_of_gt hn)
    case license =>
      intro n v u hn hv
      exact absurd (hfirst hv) (Nat.ne_of_gt hn)
    case release =>
      intro n v u hn hv
      exact absurd (hfirst hv) (Nat.ne_of_gt hn)
    case place =>
      intro n v u hv
      exact absurd (hfirst hv) (Nat.succ_ne_zero n)
  refine ⟨⟨?_, ?_, ?_, hnone⟩, ?_⟩
  · rw [h.currentSequence, hlength]
  · intro n a ha
    obtain ⟨v, hv, harchive⟩ := h.objects n a ha
    rw [← harchive]
    exact ⟨v, hv, rfl, rfl⟩
  · intro n
    rw [h.committed, hlength]
    constructor
    · intro hmem
      cases hmem
    · omega
  · intro f hf
    rw [h.flows] at hf
    cases hf

theorem Inv.start (h : Inv K w) (hf : FlowOk K w.store.versions f) : Inv K (w.start f) where
  store := h.store
  flows other hother := by
    rcases List.mem_append.mp hother with hother | hother
    · exact h.flows other hother
    · rw [List.mem_singleton.mp hother]
      exact hf

theorem moves_act {a : Act License Upstream} {i : Nat} {next : Store Archive × Flow Archive}
    (h : Inv K w) (hguard : Guard K hasDownstream w (.act i a)) (hf : w.flows[i]? = some f)
    (hact : f.act K hasDownstream w.store a = some next) : Moves K w.store next := by
  have hflow := h.flows f (List.mem_of_getElem? hf)
  by_cases hcommit : a = .commit
  · subst hcommit
    exact moves_commit h.store hflow (hguard f · · · hf) hact
  · exact (keeps_act h.store hflow hact hcommit).moves

theorem inv_step (action : Action License Upstream) (h : Inv K w)
    (hguard : Guard K hasDownstream w action)
    (hstep : (machine K hasDownstream).step w action = some w') : Inv K w' := by
  cases action with
  | update =>
    cases hstep
    exact h.start (flowOk_start h.store (fun _ hbase => hbase) nofun)
  | rewrite registry =>
    cases hstep
    exact h.start (flowOk_start h.store (fun _ hbase => hbase) nofun)
  | sync =>
    cases hstep
    exact h.start (flowOk_start h.store (fun _ hbase => hbase) nofun)
  | config sequence =>
    obtain ⟨f, hf, hw⟩ := Option.map_eq_some_iff.mp hstep
    rw [← hw]
    exact h.start (flowOk_startConfig hf)
  | edit sequence =>
    cases hstep
    exact h.start (flowOk_start h.store (fun _ hbase => hbase) nofun)
  | act i a =>
    obtain ⟨f, hf, hstep⟩ := Option.bind_eq_some_iff.mp hstep
    obtain ⟨next, hact, hw⟩ := Option.bind_eq_some_iff.mp hstep
    cases hw
    have hmoves := moves_act h hguard hf hact
    refine ⟨hmoves.store, fun other hother => ?_⟩
    rcases List.mem_or_eq_of_mem_set hother with hother | rfl
    · exact hmoves.others other (h.flows other hother)
    · exact hmoves.flow

theorem everyState_inv : (machine K hasDownstream).EveryState Init (Guard K hasDownstream) (Inv K) :=
  Machine.everyState_of_inv (fun _ => inv_init) fun _ action _ h hguard => inv_step action h hguard

/-- What a commit that goes through does, whatever came between. -/
theorem guard_of_noneLost {i : Nat} (h : Inv K w)
    (hstep : (machine K hasDownstream).step w (.act i .commit) = some w')
    (hnone : NoneLost K w'.store) : Guard K hasDownstream w (.act i .commit) := by
  intro f dir registry sequence hf hp hfree
  obtain ⟨f', hf', hstep⟩ := Option.bind_eq_some_iff.mp hstep
  rw [hf] at hf'
  cases hf'
  obtain ⟨next, hact, hw⟩ := Option.bind_eq_some_iff.mp hstep
  cases hw
  change f.commit hasDownstream w.store = some next at hact
  unfold Flow.commit at hact
  rw [hp] at hact
  dsimp only at hact
  rw [if_neg hfree] at hact
  cases hact
  exact undisturbed_of_noneLost h.store (h.flows f (List.mem_of_getElem? hf)) hp hnone

/-- As long as no other flow comes between, no update is lost, and the first commit that another
one has come before loses one. -/
theorem noneLost_everyState : (machine K hasDownstream).EveryState Init (Guard K hasDownstream)
    (fun w => NoneLost K w.store ∧ ∀ i w',
      (machine K hasDownstream).step w (.act i .commit) = some w' →
      (NoneLost K w'.store ↔ Guard K hasDownstream w (.act i .commit))) := by
  intro w hw
  have hinv := everyState_inv w hw
  refine ⟨hinv.store.noneLost, fun i w' hstep => ⟨guard_of_noneLost hinv hstep, ?_⟩⟩
  intro hguard
  exact (inv_step (.act i .commit) hinv hguard hstep).store.noneLost

end Runs

end

/-! ## Flows that overlap -/

/-- What the results are about, of an archive. -/
structure Tree where
  license : Int
  updateCursor : String
  place : Option (String × String) := none
  deriving DecidableEq

def Tree.kots : Kots Tree Int String where
  license a := a.license
  licenseSequence := id
  updateCursor a := a.updateCursor
  place a := a.place
  writeLicense license a := { a with license }
  writeConfigValues _ a := a
  rewrite registry a := { a with place := registry.map RegistryOptions.place }
  pull upstream _ registry a :=
    (true, { a with updateCursor := upstream, place := registry.map RegistryOptions.place })
  updateCursor_writeLicense _ _ := rfl
  license_writeConfigValues _ _ := rfl
  updateCursor_writeConfigValues _ _ := rfl
  license_rewrite _ _ := rfl
  updateCursor_rewrite _ _ := rfl
  place_rewrite _ _ := rfl
  license_pull _ _ _ _ := rfl
  place_pull _ _ _ _ _ := rfl

def installed : System Tree where
  store := {
    versions := [⟨.upstreamUpdate, 0, ⟨1, "1", none⟩⟩]
    currentSequence := 0
    objects := fun n => if n = 0 then some ⟨1, "1", none⟩ else none
    settings := none }

theorem init_installed : Init installed where
  versions := rfl
  currentSequence := rfl
  objects := by
    intro n a ha
    change (if n = 0 then some (⟨1, "1", none⟩ : Tree) else none) = some a at ha
    split at ha
    next hn =>
      cases ha
      subst hn
      exact ⟨_, rfl, rfl⟩
    next => cases ha
  committed := rfl
  flows := rfl

/-- The update was downloaded before the new license was committed, and is committed after it. -/
theorem not_noneLost_overlap :
    ¬ (machine Tree.kots true).EveryState Init Machine.Free fun w => NoneLost Tree.kots w.store := by
  refine Machine.not_everyState init_installed
    [.update, .act 0 .download, .sync, .act 1 .download, .act 1 (.writeLicense 2),
      .act 1 .readSettings, .act 1 .render, .act 1 .number, .act 1 .commit, .act 0 .readSettings,
      .act 0 (.pull "2" "2"), .act 0 .number, .act 0 .commit] rfl ?_
  intro hnone
  have hprevious := (hnone.follows 2 ⟨.upstreamUpdate, 0, ⟨1, "2", none⟩⟩ (by decide) rfl).previous
    nofun
  cases hprevious

def registry : RegistryOptions := ⟨"registry.local", "user", "password", "images"⟩

/-- A license sync between the commit of a rewrite and `UpdateRegistry` renders for no registry. -/
theorem not_noneLost_unstoredSettings :
    ¬ (machine Tree.kots true).EveryState Init Machine.Free fun w => NoneLost Tree.kots w.store := by
  refine Machine.not_everyState init_installed
    [.rewrite registry, .act 0 .compare, .act 0 .download, .act 0 .rewriteImages, .act 0 .number,
      .act 0 .commit, .act 0 .upload, .sync, .act 1 .download, .act 1 (.writeLicense 2),
      .act 1 .readSettings, .act 1 .render, .act 1 .number, .act 1 .commit] rfl ?_
  intro hnone
  have hplace := hnone.place 1 ⟨.licenseChange, 1, ⟨2, "1", none⟩⟩
    ⟨.registryChange, 0, ⟨1, "1", some registry.place⟩⟩ rfl rfl nofun
  cases hplace

end Kotsadm.Flows.LostUpdates
