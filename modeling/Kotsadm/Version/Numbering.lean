import Kotsadm.Lib.Machine
import Kotsadm.Version.CreateVersion

/-!
# Numbering — the two sequences of a downstream version

`app_downstream_version` has a `sequence` and a `parent_sequence`.  The Go transaction writes one
number into both; the TypeScript store takes the parent from its caller and counts the versions of
the cluster for the other.  A run interleaves the four operations that write these rows or the
clusters of an app.
-/

namespace Kotsadm.Numbering

open Version

inductive Action where
  | createVersion (env : VersionEnv) (appId : AppId) (filesInDir source : String)
      (currentSequence : Option Int)
  | createDownstream (appId : AppId) (downstreamName : String) (clusterId : ClusterId)
  | createDownstreamVersion (appId : AppId) (parentSequence : Int) (clusterId : ClusterId)
      (now : Timestamp) (args : KotsAppStore.DownstreamVersionArgs)
  | uploadUpdate (env : UploadEnv) (slug buffer source : String)

/-- A call that fails leaves what it has written before. -/
def machine : Machine Server Action where
  step s
    | .createVersion env appId filesInDir source currentSequence =>
      some (createVersion env appId filesInDir source currentSequence s).2
    | .createDownstream appId downstreamName clusterId =>
      some { s with db := KotsAppStore.createDownstream s.db appId downstreamName clusterId }
    | .createDownstreamVersion appId parentSequence clusterId now args =>
      match KotsAppStore.createDownstreamVersion s.db appId parentSequence clusterId now args with
      | .error _ => some s
      | .ok db => some { s with db := db }
    | .uploadUpdate env slug buffer source => some (uploadUpdate env slug buffer source s).1

/-- No version has been created yet; the apps and their clusters are arbitrary. -/
def Init (s : Server) : Prop :=
  s.db.appVersion.rows = [] ∧ s.db.appDownstreamVersion.rows = [] ∧
    ∀ r ∈ s.db.app.rows, r.currentSequence = none

def Aligned (s : Server) : Prop :=
  ∀ r ∈ s.db.appDownstreamVersion.rows, r.sequence = r.parentSequence

/-! ## The condition -/

/-- The parent comes directly after the newest version of the cluster, or it is 0 and the cluster
has no version. -/
def Follows (db : Database) (appId : AppId) (clusterId : ClusterId) (parentSequence : Int) : Prop :=
  let versions := db.appDownstreamVersion.rows.filter fun r =>
    r.appId = appId && r.clusterId = clusterId
  (versions = [] ∧ parentSequence = 0) ∨
    ((∃ r ∈ versions, r.sequence + 1 = parentSequence) ∧
      ∀ r ∈ versions, r.sequence < parentSequence)

/-- The clusters that `uploadUpdate` gets to: it stops at the first one without a commit or diff. -/
def reached (env : UploadEnv) (clusterIds : List ClusterId) : List ClusterId :=
  clusterIds.takeWhile fun c => (env.commitUrl c).isOk && (env.diffSummary c).isOk

/-- Whatever the TypeScript store is asked to number follows; the Go transaction needs nothing. -/
def Guard (s : Server) : Action → Prop
  | .createVersion .. => True
  | .createDownstream .. => True
  | .createDownstreamVersion appId parentSequence clusterId _ _ =>
    Follows s.db appId clusterId parentSequence
  | .uploadUpdate env slug _ _ =>
    ∀ kotsApp, getIdFromSlug s.db slug >>= KotsAppStore.getApp s.db = .ok kotsApp →
      env.putObject.isOk → env.extract.isOk →
      ∀ clusterId ∈ reached env (KotsAppStore.listClusterIDsForApp s.db kotsApp.id),
        Follows s.db kotsApp.id clusterId (kotsApp.currentSequence.getD 0 + 1)

/-! ## The steps -/

theorem nextDownstreamSequence_eq_iff (db : Database) (appId : AppId) (clusterId : ClusterId)
    (parentSequence : Int) :
    KotsAppStore.nextDownstreamSequence db appId clusterId = parentSequence ↔
      Follows db appId clusterId parentSequence := by
  unfold KotsAppStore.nextDownstreamSequence KotsAppStore.maxDownstreamSequence Follows
  generalize (db.appDownstreamVersion.rows.filter fun r =>
    r.appId = appId && r.clusterId = clusterId) = versions
  cases hmax : (versions.map (·.sequence)).max? with
  | none =>
    have hnil : versions = [] := List.map_eq_nil_iff.mp (List.max?_eq_none_iff.mp hmax)
    subst hnil
    simp [eq_comm]
  | some last =>
    have hlast := List.max?_eq_some_iff.mp hmax
    obtain ⟨newest, hnewest, hsequence⟩ := List.mem_map.mp hlast.1
    have hbound : ∀ r ∈ versions, r.sequence ≤ last :=
      fun r hr => hlast.2 r.sequence (List.mem_map_of_mem hr)
    constructor
    · intro hnext
      change last + 1 = parentSequence at hnext
      refine .inr ⟨⟨newest, hnewest, by omega⟩, ?_⟩
      intro r hr
      have hr' := hbound r hr
      omega
    · intro hfollows
      rcases hfollows with ⟨hnil, -⟩ | ⟨⟨r, hr, hparent⟩, hless⟩
      · rw [hnil] at hnewest
        cases hnewest
      · have hr' := hbound r hr
        have hnewest' := hless newest hnewest
        show last + 1 = parentSequence
        omega

/-- The next sequence of a cluster is free, so the insert is never refused. -/
theorem createDownstreamVersion_isOk (db : Database) (appId : AppId) (parentSequence : Int)
    (clusterId : ClusterId) (now : Timestamp) (args : KotsAppStore.DownstreamVersionArgs) :
    ∃ db', KotsAppStore.createDownstreamVersion db appId parentSequence clusterId now args =
      .ok db' := by
  have hnext : ∀ r ∈ db.appDownstreamVersion.rows, r.appId = appId → r.clusterId = clusterId →
      r.sequence ≠ KotsAppStore.nextDownstreamSequence db appId clusterId := by
    intro r hr happ hcluster
    have hmem : r ∈ db.appDownstreamVersion.rows.filter fun r =>
        r.appId = appId && r.clusterId = clusterId := by
      rw [List.mem_filter]
      exact ⟨hr, by simp [happ, hcluster]⟩
    rcases (nextDownstreamSequence_eq_iff db appId clusterId _).mp rfl with ⟨hnil, -⟩ | ⟨-, hless⟩
    · rw [hnil] at hmem
      cases hmem
    · exact (hless r hmem).ne
  unfold KotsAppStore.createDownstreamVersion KotsAppStore.insertDownstreamVersion
  dsimp only
  split
  next hnone =>
    obtain ⟨r, hr⟩ := Option.isSome_iff_exists.mp (Keyed.insert?_eq_none.mp hnone)
    obtain ⟨hmem, hkey⟩ := Keyed.find?_eq_some.mp hr
    simp only [AppDownstreamVersionRow.key, Prod.mk.injEq] at hkey
    exact absurd hkey.2.2 (hnext r hmem hkey.1 hkey.2.1)
  next table _ => exact ⟨_, rfl⟩

/-- The row that `createDownstreamVersion` inserts is aligned exactly when its parent follows. -/
theorem aligned_createDownstreamVersion {s : Server} {db : Database} {appId : AppId}
    {parentSequence : Int} {clusterId : ClusterId} {now : Timestamp}
    {args : KotsAppStore.DownstreamVersionArgs} (hs : Aligned s)
    (h : KotsAppStore.createDownstreamVersion s.db appId parentSequence clusterId now args =
      .ok db) :
    Aligned { s with db := db } ↔ Follows s.db appId clusterId parentSequence := by
  have hrows := (storeInsert_rows h).1
  rw [← nextDownstreamSequence_eq_iff]
  unfold Aligned
  dsimp only
  rw [hrows, List.forall_mem_append, List.forall_mem_singleton]
  exact and_iff_right hs

/-- A version of another cluster changes nothing for this one. -/
theorem follows_createDownstreamVersion {db db' : Database} {appId : AppId}
    {parentSequence sequence : Int} {clusterId clusterId' : ClusterId} {now : Timestamp}
    {args : KotsAppStore.DownstreamVersionArgs} (hne : clusterId ≠ clusterId')
    (h : KotsAppStore.createDownstreamVersion db appId parentSequence clusterId now args =
      .ok db') :
    Follows db' appId clusterId' sequence ↔ Follows db appId clusterId' sequence := by
  have hrows := (storeInsert_rows h).1
  have hfilter : db'.appDownstreamVersion.rows.filter (fun r =>
      r.appId = appId && r.clusterId = clusterId') =
      db.appDownstreamVersion.rows.filter fun r =>
        r.appId = appId && r.clusterId = clusterId' := by
    rw [hrows, List.filter_append]
    simp [KotsAppStore.DownstreamVersionArgs.row, hne]
  unfold Follows
  rw [hfilter]

theorem aligned_createVersion {s : Server} (hs : Aligned s) (env : VersionEnv) (appId : AppId)
    (filesInDir source : String) (currentSequence : Option Int) :
    Aligned (createVersion env appId filesInDir source currentSequence s).2 := by
  rcases createVersion_cases env appId filesInDir source currentSequence s with
    ⟨e, he⟩ | ⟨sequence, tx, htx, -, hcreated⟩
  · rw [he]
    exact hs
  · rw [htx]
    intro r hr
    rcases hcreated.rows r hr with hold | ⟨-, hsequence, hparent⟩
    · exact hs r hold
    · rw [hsequence, hparent]

theorem uploadDownstreamVersion_isOk_iff {env : UploadEnv} {db : Database} {appId : AppId}
    {newSequence : Int} {source : String} {columns : AppVersionColumns} {clusterId : ClusterId} :
    (uploadDownstreamVersion env db appId newSequence source columns clusterId).isOk =
      ((env.commitUrl clusterId).isOk && (env.diffSummary clusterId).isOk) := by
  unfold uploadDownstreamVersion
  cases env.commitUrl clusterId with
  | error e => rfl
  | ok commitUrl =>
    cases env.diffSummary clusterId with
    | error e => rfl
    | ok diffSummary =>
      obtain ⟨db', hdb'⟩ := createDownstreamVersion_isOk db appId newSequence clusterId env.now _
      simp only [bind, Except.bind]
      rw [hdb']
      rfl

/-- The loop only adds rows. -/
theorem rows_uploadDownstreamVersions (env : UploadEnv) (appId : AppId) (newSequence : Int)
    (source : String) (columns : AppVersionColumns) (clusterIds : List ClusterId) (s : Server)
    (r : AppDownstreamVersionRow) (hr : r ∈ s.db.appDownstreamVersion.rows) :
    r ∈ (uploadDownstreamVersions env appId newSequence source columns clusterIds
      s).1.db.appDownstreamVersion.rows := by
  unfold uploadDownstreamVersions
  refine forEach_inv (I := fun s => r ∈ s.db.appDownstreamVersion.rows) clusterIds ?_ s hr
  intro clusterId _ s hs
  split
  next => exact hs
  next db hrun =>
    obtain ⟨commitUrl, -, hdb⟩ := Except.bind_eq_ok.mp hrun
    obtain ⟨diffSummary, -, hdb⟩ := Except.bind_eq_ok.mp hdb
    rw [(storeInsert_rows hdb).1]
    exact List.mem_append_left _ hs

/-- The clusters are distinct, so what follows before the loop follows at its own iteration. -/
theorem aligned_uploadDownstreamVersions {env : UploadEnv} {appId : AppId} {newSequence : Int}
    {source : String} {columns : AppVersionColumns} {clusterIds : List ClusterId} {s : Server}
    (hs : Aligned s) (hnodup : clusterIds.Nodup) :
    Aligned (uploadDownstreamVersions env appId newSequence source columns clusterIds s).1 ↔
      ∀ clusterId ∈ reached env clusterIds, Follows s.db appId clusterId newSequence := by
  induction clusterIds generalizing s with
  | nil => exact iff_of_true hs fun c hc => by cases hc
  | cons clusterId clusterIds ih =>
    rw [List.nodup_cons] at hnodup
    have hok : (uploadDownstreamVersion env s.db appId newSequence source columns clusterId).isOk =
        ((env.commitUrl clusterId).isOk && (env.diffSummary clusterId).isOk) :=
      uploadDownstreamVersion_isOk_iff
    unfold reached
    rw [List.takeWhile_cons, ← hok]
    cases hrun : uploadDownstreamVersion env s.db appId newSequence source columns clusterId with
    | error e =>
      have hstop : uploadDownstreamVersions env appId newSequence source columns
          (clusterId :: clusterIds) s = (s, some e) := by
        simp only [uploadDownstreamVersions, forEach, hrun]
      rw [hstop]
      exact iff_of_true hs fun c hc => by cases hc
    | ok db =>
      have hgo : uploadDownstreamVersions env appId newSequence source columns
          (clusterId :: clusterIds) s = uploadDownstreamVersions env appId newSequence source
            columns clusterIds { s with db := db } := by
        simp only [uploadDownstreamVersions, forEach, hrun]
      obtain ⟨commitUrl, -, hdb⟩ := Except.bind_eq_ok.mp hrun
      obtain ⟨diffSummary, -, hdb⟩ := Except.bind_eq_ok.mp hdb
      have hfirst := aligned_createDownstreamVersion hs hdb
      rw [hgo, Except.isOk, Except.toBool, if_pos rfl, List.forall_mem_cons, ← hfirst]
      by_cases haligned : Aligned { s with db := db }
      · rw [ih haligned hnodup.2, and_iff_right haligned]
        apply forall₂_congr
        intro clusterId' hmem
        have hmem' : clusterId' ∈ clusterIds := (List.takeWhile_sublist _).subset hmem
        have hne : clusterId ≠ clusterId' := fun heq => hnodup.1 (heq ▸ hmem')
        exact follows_createDownstreamVersion hne hdb
      · apply iff_of_false
        · intro hend
          apply haligned
          intro r hr
          exact hend r (rows_uploadDownstreamVersions _ _ _ _ _ _ _ r hr)
        · exact fun hand => haligned hand.1

theorem nodup_listClusterIDsForApp (db : Database) (appId : AppId) :
    (KotsAppStore.listClusterIDsForApp db appId).Nodup := by
  unfold KotsAppStore.listClusterIDsForApp
  apply List.Nodup.map_on
  · intro r hr r' hr' hcluster
    have happ : r.appId = appId := by simpa using (List.mem_filter.mp hr).2
    have happ' : r'.appId = appId := by simpa using (List.mem_filter.mp hr').2
    apply db.appDownstream.eq_of_key_eq (List.mem_filter.mp hr).1 (List.mem_filter.mp hr').1
    show (r.appId, r.clusterId) = (r'.appId, r'.clusterId)
    rw [happ, happ', hcluster]
  · exact List.Nodup.filter _ (List.Nodup.of_map _ db.appDownstream.nodup)

/-- The version of an app that exists is created, and no downstream changes. -/
theorem createMidstreamVersion_ok {db : Database} {id : AppId} {kotsApp : KotsAppStore.KotsApp}
    (hkotsApp : KotsAppStore.getApp db id = .ok kotsApp) (sequence : Int) (now : Timestamp)
    (columns : AppVersionColumns) (appTitle appIcon : String) :
    ∃ db', KotsAppStore.createMidstreamVersion db kotsApp.id sequence now columns appTitle appIcon =
        (db', .ok ()) ∧
      db'.appDownstream = db.appDownstream ∧
      db'.appDownstreamVersion = db.appDownstreamVersion := by
  unfold KotsAppStore.createMidstreamVersion
  by_cases htitle : appTitle = ""
  · rw [if_pos htitle]
    unfold KotsAppStore.getApp at hkotsApp
    cases hrow : db.app.find? id with
    | none =>
      rw [hrow] at hkotsApp
      cases hkotsApp
    | some row =>
      rw [hrow] at hkotsApp
      cases hkotsApp
      have hid : row.id = id := (Keyed.find?_eq_some.mp hrow).2
      have hfind : (KotsAppStore.upsertAppVersion db row.id sequence now columns).app.find?
          row.id = some row := by
        rw [hid]
        exact hrow
      dsimp only [KotsAppStore.mapKotsApp]
      rw [hfind]
      exact ⟨_, rfl, rfl, rfl⟩
  · rw [if_neg htitle]
    exact ⟨_, rfl, rfl, rfl⟩

theorem aligned_uploadUpdate {env : UploadEnv} {slug buffer source : String} {s : Server}
    (hs : Aligned s) :
    Aligned (uploadUpdate env slug buffer source s).1 ↔
      Guard s (.uploadUpdate env slug buffer source) := by
  simp only [uploadUpdate, Guard]
  cases hkotsApp : getIdFromSlug s.db slug >>= KotsAppStore.getApp s.db with
  | error e => exact iff_of_true hs (by simp)
  | ok kotsApp =>
    cases hput : env.putObject with
    | error e => exact iff_of_true hs (by simp [Except.isOk, Except.toBool])
    | ok _ =>
      cases hextract : env.extract with
      | error e => exact iff_of_true hs (by simp [Except.isOk, Except.toBool])
      | ok columns =>
        obtain ⟨id, -, hgetApp⟩ := Except.bind_eq_ok.mp hkotsApp
        obtain ⟨db, hmidstream, hdownstream, hversions⟩ := createMidstreamVersion_ok hgetApp
          (kotsApp.currentSequence.getD 0 + 1) env.now columns env.appTitle env.appIcon
        have hclusters : KotsAppStore.listClusterIDsForApp db kotsApp.id =
            KotsAppStore.listClusterIDsForApp s.db kotsApp.id := by
          unfold KotsAppStore.listClusterIDsForApp
          rw [hdownstream]
        dsimp only
        rw [hmidstream]
        dsimp only
        rw [aligned_uploadDownstreamVersions, hclusters]
        · simp [Except.isOk, Except.toBool, Follows, hversions]
        · unfold Aligned
          dsimp only
          rw [hversions]
          exact hs
        · exact nodup_listClusterIDsForApp db kotsApp.id

/-- A step keeps the two sequences equal exactly when it meets the condition. -/
theorem aligned_step_iff {s s' : Server} {a : Action} (hs : Aligned s)
    (hstep : machine.step s a = some s') : Aligned s' ↔ Guard s a := by
  cases a with
  | createVersion env appId filesInDir source currentSequence =>
    cases hstep
    exact iff_of_true (aligned_createVersion hs env appId filesInDir source currentSequence) trivial
  | createDownstream appId downstreamName clusterId =>
    cases hstep
    exact iff_of_true hs trivial
  | createDownstreamVersion appId parentSequence clusterId now args =>
    obtain ⟨db, hdb⟩ :=
      createDownstreamVersion_isOk s.db appId parentSequence clusterId now args
    simp only [machine, hdb] at hstep
    cases hstep
    exact aligned_createDownstreamVersion hs hdb
  | uploadUpdate env slug buffer source =>
    cases hstep
    exact aligned_uploadUpdate hs

/-- An app of one cluster. -/
def clusteredServer : Server where
  db := {
    app := .single { id := "app", name := "App", slug := "app" }
    appDownstream := .single { appId := "app", clusterId := "cluster", downstreamName := "first" } }

def plainEnv : VersionEnv where
  loadKotsKindsFromPath := fun _ => .ok { title := "App" }

/-- An app without a cluster. -/
def bareServer : Server where
  db := { app := .single { id := "app", name := "App", slug := "app" } }

end Kotsadm.Numbering
