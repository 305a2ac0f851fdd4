import Kotsadm.Version.CreateVersion

/-!
# FirstVersion — which downstream versions `createVersion` writes, and when a first version succeeds

A version gets one row for each downstream of the app.  A first version needs no archive and no
diff; when nothing outside fails, only a row that is there already can stop it.
-/

namespace Kotsadm.Version

theorem Except.eq_ok_of_isOk {ε α : Type} {x : Except ε α} (h : x.isOk) : ∃ a, x = .ok a := by
  cases x with
  | error e => cases h
  | ok a => exact ⟨a, rfl⟩

/-! ## The rows -/

theorem find?_storeInsert {db db' : Database} {row : AppDownstreamVersionRow}
    (h : KotsAppStore.insertDownstreamVersion db row = .ok db') (key : AppId × ClusterId × Int) :
    (db'.appDownstreamVersion.find? key).isSome ↔
      (db.appDownstreamVersion.find? key).isSome ∨ key = row.key := by
  unfold KotsAppStore.insertDownstreamVersion at h
  split at h
  next => cases h
  next table htable =>
    cases h
    dsimp only
    rw [Keyed.find?_insert? htable]
    by_cases hkey : row.key = key
    · rw [if_pos hkey]
      exact iff_of_true rfl (.inr hkey.symm)
    · rw [if_neg hkey, or_iff_left fun heq => hkey heq.symm]

theorem find?_createDownstreamVersions {env : VersionEnv} {db tx tx' : Database} {appId : AppId}
    {source : String} {currentSequence : Option Int} {sequence : Int} {kinds : KotsKinds}
    {columns : AppVersionColumns} {ds : List AppDownstreamRow}
    (h : createDownstreamVersions env db appId source currentSequence sequence kinds columns ds
      tx = .ok tx') (key : AppId × ClusterId × Int) :
    (tx'.appDownstreamVersion.find? key).isSome ↔
      (tx.appDownstreamVersion.find? key).isSome ∨ ∃ d ∈ ds, key = (appId, d.clusterId, sequence) := by
  induction ds generalizing tx with
  | nil =>
    cases h
    simp
  | cons d ds ih =>
    obtain ⟨tx₁, hfirst, hrest⟩ := Except.bind_eq_ok.mp h
    obtain ⟨status, -, hfirst⟩ := Except.bind_eq_ok.mp hfirst
    obtain ⟨commitUrl, -, hfirst⟩ := Except.bind_eq_ok.mp hfirst
    have hrow := find?_storeInsert (insertDownstreamVersion_eq_ok hfirst) key
    rw [ih hrest, hrow, or_assoc]
    simp only [List.mem_cons, exists_eq_or_imp]
    rfl

/-- One row for each downstream of the app. -/
theorem find?_createVersionTx {env : VersionEnv} {appId : AppId} {filesInDir source : String}
    {currentSequence : Option Int} {s : Server} {sequence : Int} {tx : Database}
    (h : createVersionTx env appId filesInDir source currentSequence s = .ok (sequence, tx))
    (key : AppId × ClusterId × Int) :
    (tx.appDownstreamVersion.find? key).isSome ↔
      (s.db.appDownstreamVersion.find? key).isSome ∨
        ∃ d ∈ s.db.appDownstream.rows, d.appId = appId ∧ key = (appId, d.clusterId, sequence) := by
  obtain ⟨kinds, columns, name, downstreams, -, -, -, hlist, hdownstreams⟩ := createVersionTx_spec h
  have hrows := find?_createDownstreamVersions hdownstreams key
  rw [hrows, hlist]
  refine or_congr_right ?_
  simp only [List.mem_filter, decide_eq_true_eq, and_assoc]

/-- The clusters of an app's downstreams are distinct. -/
theorem nodup_clusterIds (db : Database) (appId : AppId) :
    ((db.appDownstream.rows.filter fun r => r.appId = appId).map (·.clusterId)).Nodup := by
  apply List.Nodup.map_on
  · intro r hr r' hr' hcluster
    have happ : r.appId = appId := by simpa using (List.mem_filter.mp hr).2
    have happ' : r'.appId = appId := by simpa using (List.mem_filter.mp hr').2
    apply db.appDownstream.eq_of_key_eq (List.mem_filter.mp hr).1 (List.mem_filter.mp hr').1
    show (r.appId, r.clusterId) = (r'.appId, r'.clusterId)
    rw [happ, happ', hcluster]
  · exact List.Nodup.filter _ (List.Nodup.of_map _ db.appDownstream.nodup)

/-- The transaction writes three tables. -/
theorem frame_createVersionTx {env : VersionEnv} {appId : AppId} {filesInDir source : String}
    {currentSequence : Option Int} {s : Server} {sequence : Int} {tx : Database}
    (h : createVersionTx env appId filesInDir source currentSequence s = .ok (sequence, tx)) :
    tx = { s.db with app := tx.app, appVersion := tx.appVersion,
                     appDownstreamVersion := tx.appDownstreamVersion } := by
  obtain ⟨kinds, columns, name, downstreams, -, -, -, -, hdownstreams⟩ := createVersionTx_spec h
  have hframe := frame_createDownstreamVersions hdownstreams
  rw [hframe]
  rfl

/-! ## A first version succeeds -/

/-- Nothing outside fails. -/
structure VersionEnv.Succeeds (env : VersionEnv) (filesInDir : String) : Prop where
  load : ∃ kinds, env.loadKotsKindsFromPath filesInDir = .ok kinds ∧
    ∀ kind, (kinds.marshal kind).isOk
  exec : ∀ statement, env.exec statement = .ok ()
  needsConfiguration : ∀ configSpec configValues license,
    (env.needsConfiguration configSpec configValues license).isOk
  hasGitOps : ∀ appId clusterId, (env.hasGitOps appId clusterId).isOk
  createGitOpsCommit : ∀ a sequence name, (env.createGitOpsCommit a sequence name).isOk

section

variable {env : VersionEnv} {filesInDir : String} {appId : AppId} {kinds : KotsKinds}

theorem marshalColumns_isOk (hmarshal : ∀ kind, (kinds.marshal kind).isOk) :
    ∃ columns, marshalColumns kinds = .ok columns := by
  have hkind : ∀ kind, ∃ spec, kinds.marshal kind = .ok spec :=
    fun kind => Except.eq_ok_of_isOk (hmarshal kind)
  obtain ⟨collector, hcollector⟩ := hkind .collector
  obtain ⟨analyzer, hanalyzer⟩ := hkind .analyzer
  obtain ⟨preflight, hpreflight⟩ := hkind .preflight
  obtain ⟨application, happlication⟩ := hkind .application
  obtain ⟨kotsApplication, hkotsApplication⟩ := hkind .kotsApplication
  obtain ⟨backup, hbackup⟩ := hkind .backup
  obtain ⟨license, hlicense⟩ := hkind .license
  obtain ⟨config, hconfig⟩ := hkind .config
  obtain ⟨configValues, hconfigValues⟩ := hkind .configValues
  unfold marshalColumns
  rw [hcollector, hanalyzer, hpreflight, happlication, hkotsApplication, hbackup, hlicense, hconfig,
    hconfigValues]
  exact ⟨_, rfl⟩

theorem get_isOk {db : Database} {outcome : Except GoError Unit} (houtcome : outcome = .ok ())
    (hrow : (db.app.find? appId).isSome) : ∃ a, App.get outcome db appId = .ok a := by
  obtain ⟨row, hrow⟩ := Option.isSome_iff_exists.mp hrow
  unfold App.get
  rw [houtcome, hrow]
  exact ⟨_, rfl⟩

theorem appName_isOk (hexec : ∀ statement, env.exec statement = .ok ()) {db : Database}
    (hrow : (db.app.find? appId).isSome) : ∃ name, appName env db appId kinds = .ok name := by
  unfold appName
  split
  next =>
    obtain ⟨a, ha⟩ := get_isOk (hexec .getApp) hrow
    rw [ha]
    exact ⟨a.name, rfl⟩
  next => exact ⟨kinds.title, rfl⟩

theorem firstStatus_isOk (henv : env.Succeeds filesInDir)
    (hmarshal : ∀ kind, (kinds.marshal kind).isOk) :
    ∃ status, firstStatus env kinds = .ok status := by
  have hoptional : ∀ present kind context,
      ∃ spec, renderOptional kinds present kind context = .ok spec := by
    intro present kind context
    obtain ⟨spec, hspec⟩ := Except.eq_ok_of_isOk (hmarshal kind)
    unfold renderOptional
    rw [hspec]
    split <;> exact ⟨_, rfl⟩
  unfold firstStatus
  split
  next =>
    obtain ⟨configSpec, hconfigSpec⟩ := Except.eq_ok_of_isOk (hmarshal .config)
    obtain ⟨configValues, hconfigValues⟩ := hoptional kinds.configValues.isSome .configValues
      "failed to render config values"
    obtain ⟨license, hlicense⟩ := hoptional kinds.license.isSome .license
      "failed to render license"
    obtain ⟨needsConfig, hneedsConfig⟩ :=
      Except.eq_ok_of_isOk (henv.needsConfiguration configSpec configValues license)
    rw [hconfigSpec, hconfigValues, hlicense]
    simp only [Except.wrapError, bind, Except.bind]
    rw [hneedsConfig]
    exact ⟨_, rfl⟩
  next => exact ⟨_, rfl⟩

theorem gitOpsCommitURL_isOk (henv : env.Succeeds filesInDir) {db : Database}
    (hrow : (db.app.find? appId).isSome) (sequence : Int) (d : AppDownstreamRow) :
    ∃ url, gitOpsCommitURL env db appId sequence d = .ok url := by
  obtain ⟨hasGitOps, hhasGitOps⟩ := Except.eq_ok_of_isOk (henv.hasGitOps appId d.clusterId)
  unfold gitOpsCommitURL
  rw [hhasGitOps]
  cases hasGitOps with
  | false => exact ⟨"", rfl⟩
  | true =>
    obtain ⟨a, ha⟩ := get_isOk (henv.exec (.getGitOpsApp d.clusterId)) hrow
    obtain ⟨url, hurl⟩ := Except.eq_ok_of_isOk (henv.createGitOpsCommit a sequence d.downstreamName)
    simp only [Except.wrapError, bind, Except.bind, if_true]
    rw [ha]
    dsimp only
    rw [hurl]
    exact ⟨url, rfl⟩

/-- Every insert is possible when the rows are new and the clusters distinct. -/
theorem createDownstreamVersions_isOk (henv : env.Succeeds filesInDir)
    (hmarshal : ∀ kind, (kinds.marshal kind).isOk) {db : Database}
    (hrow : (db.app.find? appId).isSome) (source : String) (sequence : Int)
    (columns : AppVersionColumns) {ds : List AppDownstreamRow}
    (hnodup : (ds.map (·.clusterId)).Nodup) {tx : Database}
    (hfree : ∀ d ∈ ds, tx.appDownstreamVersion.find? (appId, d.clusterId, sequence) = none) :
    ∃ tx', createDownstreamVersions env db appId source none sequence kinds columns ds tx =
      .ok tx' := by
  induction ds generalizing tx with
  | nil => exact ⟨tx, rfl⟩
  | cons d ds ih =>
    obtain ⟨status, hstatus⟩ := firstStatus_isOk henv hmarshal
    obtain ⟨url, hurl⟩ := gitOpsCommitURL_isOk henv hrow sequence d
    rw [List.map_cons, List.nodup_cons] at hnodup
    let args : KotsAppStore.DownstreamVersionArgs :=
      { versionLabel := kinds.versionLabel, status, source, diffSummary := "", commitUrl := url,
        gitDeployable := url ≠ "" }
    have hinsert : ∃ tx₁, KotsAppStore.insertDownstreamVersion tx
        (args.row appId d.clusterId sequence sequence env.now) = .ok tx₁ := by
      have hnew : tx.appDownstreamVersion.find?
          (args.row appId d.clusterId sequence sequence env.now).key = none :=
        hfree d List.mem_cons_self
      unfold KotsAppStore.insertDownstreamVersion
      split
      next hnone =>
        have htaken := Keyed.insert?_eq_none.mp hnone
        rw [hnew] at htaken
        cases htaken
      next table _ => exact ⟨_, rfl⟩
    obtain ⟨tx₁, htx₁⟩ := hinsert
    have hinserted : insertDownstreamVersion env tx
        (args.row appId d.clusterId sequence sequence env.now) = .ok tx₁ := by
      unfold insertDownstreamVersion
      rw [henv.exec, htx₁]
      rfl
    have hfirst : createDownstreamVersion env db tx appId source none sequence kinds columns d =
        .ok tx₁ := by
      unfold createDownstreamVersion downstreamStatus
      rw [hstatus, hurl]
      exact hinserted
    have hfree₁ : ∀ other ∈ ds,
        tx₁.appDownstreamVersion.find? (appId, other.clusterId, sequence) = none := by
      intro other hother
      rw [← Option.not_isSome_iff_eq_none, find?_storeInsert htx₁]
      rintro (hold | hkey)
      · rw [hfree other (List.mem_cons_of_mem d hother)] at hold
        cases hold
      · apply hnodup.1
        have hcluster : other.clusterId = d.clusterId := by
          have hpair := congrArg (fun key => key.2.1) hkey
          exact hpair
        rw [← hcluster]
        exact List.mem_map_of_mem hother
    obtain ⟨tx', htx'⟩ := ih hnodup.2 hfree₁
    refine ⟨tx', ?_⟩
    unfold createDownstreamVersions
    rw [hfirst]
    exact htx'

theorem createFirstVersion_isOk (henv : env.Succeeds filesInDir) (source : String) {s : Server}
    (hrow : (s.db.app.find? appId).isSome)
    (hfree : ∀ d ∈ s.db.appDownstream.rows, d.appId = appId →
      s.db.appDownstreamVersion.find? (appId, d.clusterId, 0) = none) :
    ∃ tx, createVersionTx env appId filesInDir source none s = .ok (0, tx) := by
  obtain ⟨kinds, hkinds, hmarshal⟩ := henv.load
  obtain ⟨columns, hcolumns⟩ := marshalColumns_isOk hmarshal
  have hnamed : ∃ name, appName env s.db appId kinds = .ok name := appName_isOk henv.exec hrow
  obtain ⟨name, hname⟩ := hnamed
  let downstreams := s.db.appDownstream.rows.filter fun r => r.appId = appId
  have hnodup : (downstreams.map (·.clusterId)).Nodup := nodup_clusterIds s.db appId
  let tx₀ := KotsAppStore.updateAppVersion
    (KotsAppStore.upsertAppVersion s.db appId 0 env.now columns) appId 0 name kinds.icon
  have hfree₀ : ∀ d ∈ downstreams,
      tx₀.appDownstreamVersion.find? (appId, d.clusterId, 0) = none := by
    intro d hd
    exact hfree d (List.mem_filter.mp hd).1 (by simpa using (List.mem_filter.mp hd).2)
  obtain ⟨tx, htx⟩ := createDownstreamVersions_isOk henv hmarshal hrow source 0 columns hnodup hfree₀
  refine ⟨tx, ?_⟩
  unfold createVersionTx newSequence getPreviousArchive listDownstreamsForApp
  rw [hkinds]
  simp only [Except.wrapError, bind, Except.bind]
  rw [hcolumns, henv.exec, henv.exec, henv.exec, henv.exec, henv.exec, hname]
  dsimp only
  rw [htx]
  rfl

end

end Kotsadm.Version
