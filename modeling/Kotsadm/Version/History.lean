import Kotsadm.Version.CurrentVersion

/-!
# History — the three queries of `getKotsDownstreamHistory`

The versions after the current one, the current one and those before it.  They are read by three
queries; together they list the table once.
-/

namespace Kotsadm.CurrentVersion

open KotsAppStore Version

/-! ## The versions of a cluster -/

/-- The rows of a cluster in `app_downstream_version`. -/
def clusterVersions (db : Database) (appId : AppId) (clusterId : ClusterId) :
    List AppDownstreamVersionRow :=
  db.appDownstreamVersion.rows.filter fun r => r.appId = appId && r.clusterId = clusterId

/-- In strictly descending order of the sequences. -/
abbrev Descending (rows : List AppDownstreamVersionRow) : Prop :=
  rows.Pairwise fun r r' => r'.sequence < r.sequence

/-- The version shows the row; its status is what the query makes of the status of the row. -/
def Shows (db : Database) (v : KotsVersion) (row : AppDownstreamVersionRow) : Prop :=
  ∃ status, v = { mapKotsVersion db row with status }

/-- Every version of the cluster is listed once and no other, the latest first. -/
def Complete (db : Database) (appId : AppId) (clusterId : ClusterId) (versions : List KotsVersion) :
    Prop :=
  ∃ rows, rows.Perm (clusterVersions db appId clusterId) ∧ Descending rows ∧
    List.Forall₂ (Shows db) versions rows

/-- The versions of a cluster are numbered from 0; `-1` stands for no current version. -/
def NumberedFromZero (db : Database) (appId : AppId) (clusterId : ClusterId) : Prop :=
  ∀ r ∈ clusterVersions db appId clusterId, 0 ≤ r.sequence

section Rows

variable {db : Database} {appId : AppId} {clusterId : ClusterId}

theorem mem_clusterVersions {r : AppDownstreamVersionRow} :
    r ∈ clusterVersions db appId clusterId ↔
      r ∈ db.appDownstreamVersion.rows ∧ r.appId = appId ∧ r.clusterId = clusterId := by
  simp [clusterVersions]

theorem nodup_clusterVersions : (clusterVersions db appId clusterId).Nodup :=
  List.Nodup.filter _ (List.Nodup.of_map _ db.appDownstreamVersion.nodup)

theorem mem_versionsOfCluster {p : Int → Bool} {r : AppDownstreamVersionRow} :
    r ∈ versionsOfCluster db appId clusterId p ↔
      r ∈ clusterVersions db appId clusterId ∧ p r.sequence = true := by
  unfold versionsOfCluster
  rw [List.mem_insertionSort, mem_clusterVersions]
  simp [and_assoc]

/-- The sequence of a version identifies it within its cluster. -/
theorem eq_of_sequence_eq {r r' : AppDownstreamVersionRow}
    (hr : r ∈ clusterVersions db appId clusterId) (hr' : r' ∈ clusterVersions db appId clusterId)
    (h : r.sequence = r'.sequence) : r = r' := by
  obtain ⟨hmem, happ, hcluster⟩ := mem_clusterVersions.mp hr
  obtain ⟨hmem', happ', hcluster'⟩ := mem_clusterVersions.mp hr'
  apply db.appDownstreamVersion.eq_of_key_eq hmem hmem'
  rw [AppDownstreamVersionRow.key, AppDownstreamVersionRow.key, happ, happ', hcluster, hcluster', h]

theorem descending_versionsOfCluster (p : Int → Bool) :
    Descending (versionsOfCluster db appId clusterId p) := by
  have hsorted : (versionsOfCluster db appId clusterId p).Pairwise
      fun r r' => r'.sequence ≤ r.sequence := List.pairwise_insertionSort _ _
  -- the sort leaves equal sequences side by side, and there are none
  have hnodup : (versionsOfCluster db appId clusterId p).Nodup := by
    have hrows := List.Nodup.of_map _ db.appDownstreamVersion.nodup
    exact (List.perm_insertionSort _ _).nodup_iff.mpr (hrows.filter _)
  refine (hsorted.and hnodup).imp_of_mem fun {r r'} hr hr' h => ?_
  obtain ⟨hle, hne⟩ := h
  have hsequence : r.sequence ≠ r'.sequence := fun heq =>
    hne (eq_of_sequence_eq (mem_versionsOfCluster.mp hr).1 (mem_versionsOfCluster.mp hr').1 heq)
  omega

/-- Rows in descending order that have the members of the cluster are its versions. -/
theorem perm_clusterVersions {rows : List AppDownstreamVersionRow} (hrows : Descending rows)
    (hmem : ∀ r, r ∈ rows ↔ r ∈ clusterVersions db appId clusterId) :
    rows.Perm (clusterVersions db appId clusterId) := by
  have hnodup : rows.Nodup := hrows.imp fun hlt heq => by
    rw [heq] at hlt
    omega
  exact (List.perm_ext_iff_of_nodup hnodup nodup_clusterVersions).mpr hmem

end Rows

/-! ## The history -/

section History

variable {db : Database} {appId : AppId} {clusterId : ClusterId} {d : AppDownstreamRow}

/-- A list of versions that a query has made of rows. -/
theorem shows_map {show' : AppDownstreamVersionRow → KotsVersion}
    (h : ∀ row, Shows db (show' row) row) (rows : List AppDownstreamVersionRow) :
    List.Forall₂ (Shows db) (rows.map show') rows := by
  rw [List.forall₂_map_left_iff, List.forall₂_same]
  exact fun row _ => h row

theorem shows_mapKotsVersion (row : AppDownstreamVersionRow) :
    Shows db (mapKotsVersion db row) row := ⟨_, rfl⟩

theorem shows_pending (row : AppDownstreamVersionRow) :
    Shows db { mapKotsVersion db row with status := row.status } row := ⟨_, rfl⟩

/-- Without a current version everything is pending. -/
theorem complete_none (hd : db.appDownstream.find? (appId, clusterId) = some d)
    (hnull : d.currentSequence = none) (hnumbered : NumberedFromZero db appId clusterId) :
    ∃ versions, getKotsDownstreamHistory db appId clusterId = .ok versions ∧
      Complete db appId clusterId versions := by
  have hrows : ∀ r, r ∈ versionsOfCluster db appId clusterId (-1 < ·) ↔
      r ∈ clusterVersions db appId clusterId := by
    intro r
    rw [mem_versionsOfCluster, decide_eq_true_eq]
    refine and_iff_left_of_imp fun hr => ?_
    -- the query for the pending ones asks for more than -1
    have hzero := hnumbered r hr
    omega
  have hhistory : getKotsDownstreamHistory db appId clusterId =
      .ok ((versionsOfCluster db appId clusterId (-1 < ·)).map fun r =>
        { mapKotsVersion db r with status := r.status }) := by
    unfold getKotsDownstreamHistory getCurrentVersion listPastVersions listPendingVersions
    rw [hd]
    dsimp only
    rw [hnull]
    show Except.ok (_ ++ []) = _
    rw [List.append_nil]
    rfl
  have hdescending : Descending (versionsOfCluster db appId clusterId (-1 < ·)) :=
    descending_versionsOfCluster _
  exact ⟨_, hhistory, _, perm_clusterVersions hdescending hrows, hdescending,
    shows_map shows_pending _⟩

/-- The current version separates the pending ones from the past ones. -/
theorem complete_some (hd : db.appDownstream.find? (appId, clusterId) = some d) {sequence : Int}
    (hcurrent : d.currentSequence = some sequence)
    (hversion : HasVersion db (appId, clusterId, sequence)) :
    ∃ versions, getKotsDownstreamHistory db appId clusterId = .ok versions ∧
      Complete db appId clusterId versions := by
  obtain ⟨current, hfind⟩ := Option.isSome_iff_exists.mp hversion
  obtain ⟨hcurrentMem, hkey⟩ := Keyed.find?_eq_some.mp hfind
  simp only [Prod.mk.injEq] at hkey
  obtain ⟨happ, hcluster, hsequence⟩ := hkey
  have hmember : current ∈ clusterVersions db appId clusterId :=
    mem_clusterVersions.mpr ⟨hcurrentMem, happ, hcluster⟩
  let pending := versionsOfCluster db appId clusterId (sequence < ·)
  let past := versionsOfCluster db appId clusterId (· < sequence)
  have habove : ∀ r ∈ pending, sequence < r.sequence := fun r hr => by
    simpa using (mem_versionsOfCluster.mp hr).2
  have hbelow : ∀ r ∈ past, r.sequence < sequence := fun r hr => by
    simpa using (mem_versionsOfCluster.mp hr).2
  have hdescending : Descending (pending ++ [current] ++ past) := by
    rw [Descending, List.pairwise_append, List.pairwise_append]
    refine ⟨⟨descending_versionsOfCluster _, List.pairwise_singleton _ _, ?_⟩,
      descending_versionsOfCluster _, ?_⟩
    · intro r hr r' hr'
      rw [List.mem_singleton.mp hr', hsequence]
      exact habove r hr
    · intro r hr r' hr'
      have hr'' := hbelow r' hr'
      rcases List.mem_append.mp hr with hr | hr
      · have hr := habove r hr
        omega
      · rw [List.mem_singleton.mp hr, hsequence]
        exact hr''
  have hrows : ∀ r, r ∈ pending ++ [current] ++ past ↔
      r ∈ clusterVersions db appId clusterId := by
    intro r
    rw [List.mem_append, List.mem_append, List.mem_singleton]
    constructor
    · rintro ((hr | rfl) | hr)
      · exact (mem_versionsOfCluster.mp hr).1
      · exact hmember
      · exact (mem_versionsOfCluster.mp hr).1
    · intro hr
      rcases lt_trichotomy sequence r.sequence with hlt | heq | hgt
      · exact .inl (.inl (mem_versionsOfCluster.mpr ⟨hr, by simpa using hlt⟩))
      · exact .inl (.inr (eq_of_sequence_eq hr hmember (heq.symm.trans hsequence.symm)))
      · exact .inr (mem_versionsOfCluster.mpr ⟨hr, by simpa using hgt⟩)
  have hhistory : getKotsDownstreamHistory db appId clusterId =
      .ok ((pending.map fun r => { mapKotsVersion db r with status := r.status }) ++
        [mapKotsVersion db current] ++ past.map (mapKotsVersion db)) := by
    unfold getKotsDownstreamHistory getCurrentVersion listPastVersions listPendingVersions
    rw [hd]
    dsimp only
    rw [hcurrent]
    dsimp only
    rw [hfind]
    rfl
  refine ⟨_, hhistory, _, perm_clusterVersions hdescending hrows, hdescending, ?_⟩
  have hshown : List.Forall₂ (Shows db) [mapKotsVersion db current] [current] :=
    .cons (shows_mapKotsVersion current) .nil
  exact List.rel_append (List.rel_append (shows_map shows_pending pending) hshown)
    (shows_map shows_mapKotsVersion past)

end History

/-- **Complete history.**  If a downstream points to none of its versions or to one of them, its
history lists each of its versions once, the latest first. -/
theorem history_complete (db : Database) (appId : AppId) (clusterId : ClusterId)
    (d : AppDownstreamRow) (hd : db.appDownstream.find? (appId, clusterId) = some d)
    (hcurrent : ∀ sequence, d.currentSequence = some sequence →
      HasVersion db (appId, clusterId, sequence))
    (hnumbered : d.currentSequence = none → NumberedFromZero db appId clusterId) :
    ∃ versions, getKotsDownstreamHistory db appId clusterId = .ok versions ∧
      Complete db appId clusterId versions := by
  cases hsequence : d.currentSequence with
  | none => exact complete_none hd hsequence (hnumbered hsequence)
  | some sequence => exact complete_some hd hsequence (hcurrent sequence hsequence)

/-- The installed app of two versions, neither of which is deployed. -/
def twoVersions : Database where
  appDownstream := .single { appId := "app", clusterId := "c1", downstreamName := "first" }
  appDownstreamVersion := ⟨[
    { appId := "app", clusterId := "c1", sequence := 0, parentSequence := 0, status := "pending" },
    { appId := "app", clusterId := "c1", sequence := 1, parentSequence := 1, status := "pending" },
    { appId := "app", clusterId := "c2", sequence := 0, parentSequence := 0, status := "pending" }],
    by decide⟩

theorem history_complete_twoVersions :
    ∃ versions, getKotsDownstreamHistory twoVersions "app" "c1" = .ok versions ∧
      Complete twoVersions "app" "c1" versions := by
  apply history_complete twoVersions "app" "c1" _ rfl
  · intro sequence hsequence
    cases hsequence
  · intro _ r hr
    obtain ⟨hmem, -, -⟩ := mem_clusterVersions.mp hr
    revert r
    decide

/-! ## The numbers -/

/-- Versions of apps and of downstreams have no negative numbers. -/
structure Numbered (db : Database) : Prop where
  versions : ∀ r ∈ db.appVersion.rows, 0 ≤ r.sequence
  downstreams : ∀ r ∈ db.appDownstreamVersion.rows, 0 ≤ r.sequence

section Numbered

variable {db : Database}

theorem Numbered.fromZero (h : Numbered db) (appId : AppId) (clusterId : ClusterId) :
    NumberedFromZero db appId clusterId :=
  fun r hr => h.downstreams r (mem_clusterVersions.mp hr).1

/-- An update keeps the numbers, which are part of the key. -/
theorem sequence_updateWhere {t : Keyed AppDownstreamVersionRow.key}
    (ht : ∀ r ∈ t.rows, 0 ≤ r.sequence) (p : AppDownstreamVersionRow → Bool)
    (set : AppDownstreamVersionRow → AppDownstreamVersionRow)
    (hset : ∀ r, AppDownstreamVersionRow.key (set r) = AppDownstreamVersionRow.key r) :
    ∀ r ∈ (t.updateWhere p set hset).rows, 0 ≤ r.sequence := by
  intro r hr
  obtain ⟨r₀, hr₀, rfl⟩ := Keyed.mem_updateWhere.mp hr
  have hzero := ht r₀ hr₀
  split
  next =>
    have hkey := hset r₀
    simp only [Prod.mk.injEq] at hkey
    rw [hkey.2.2]
    exact hzero
  next => exact hzero

theorem numbered_deployVersion (h : Numbered db) (appId : AppId) (sequence : Int)
    (now : Timestamp) : Numbered (deployVersion db appId sequence now) :=
  ⟨h.versions, sequence_updateWhere h.downstreams _
    (fun r => { r with status := "deployed", appliedAt := some now }) fun _ => rfl⟩

theorem nonneg_nextDownstreamSequence (h : Numbered db) (appId : AppId) (clusterId : ClusterId) :
    0 ≤ nextDownstreamSequence db appId clusterId := by
  unfold nextDownstreamSequence
  split
  next last hmax =>
    unfold maxDownstreamSequence at hmax
    obtain ⟨r, hr, hlast⟩ := List.mem_map.mp (List.max?_mem hmax)
    have hzero := h.downstreams r (List.mem_of_mem_filter hr)
    omega
  next => exact Int.le_refl 0

theorem nonneg_nextSequence (h : Numbered db) {appId : AppId} {currentSequence : Option Int}
    {sequence : Int} (hnext : nextSequence db appId currentSequence = some sequence) :
    0 ≤ sequence := by
  unfold nextSequence at hnext
  split at hnext
  next =>
    cases hnext
    exact Int.le_refl 0
  next =>
    obtain ⟨last, hmax, rfl⟩ := Option.map_eq_some_iff.mp hnext
    unfold maxSequence at hmax
    obtain ⟨r, hr, hlast⟩ := List.mem_map.mp (List.max?_mem hmax)
    have hzero := h.versions r (List.mem_of_mem_filter hr)
    omega

theorem numbered_createDownstreamVersion {db' : Database} (h : Numbered db) {id : AppId}
    {parentSequence : Int} {clusterId : ClusterId} {now : Timestamp} {args : DownstreamVersionArgs}
    (hdb : KotsAppStore.createDownstreamVersion db id parentSequence clusterId now args = .ok db') :
    Numbered db' := by
  unfold KotsAppStore.createDownstreamVersion at hdb
  obtain ⟨hrows, hframe⟩ := storeInsert_rows hdb
  rw [hframe]
  refine ⟨h.versions, fun r hr => ?_⟩
  dsimp only at hr
  rw [hrows, List.mem_append, List.mem_singleton] at hr
  rcases hr with hold | rfl
  · exact h.downstreams r hold
  · exact nonneg_nextDownstreamSequence h id clusterId

theorem numbered_createVersion {s : Server} (h : Numbered s.db) (env : VersionEnv) (appId : AppId)
    (filesInDir source : String) (currentSequence : Option Int) :
    Numbered (Version.createVersion env appId filesInDir source currentSequence s).2.db := by
  rcases createVersion_cases env appId filesInDir source currentSequence s with
    ⟨e, he⟩ | ⟨sequence, tx, htx, hnext, hcreated⟩
  · rw [he]
    exact h
  rw [htx]
  have hzero := nonneg_nextSequence h hnext
  constructor
  · intro r hr
    dsimp only at hr
    obtain ⟨now, columns, hversion⟩ := hcreated.appVersion
    rw [hversion] at hr
    have hfind := Keyed.find?_isSome_of_mem hr
    unfold upsertAppVersion at hfind
    dsimp only at hfind
    rw [Keyed.find?_upsert] at hfind
    split at hfind
    next hkey =>
      simp only [Prod.mk.injEq] at hkey
      rw [← hkey.2]
      exact hzero
    next => exact h.versions r (Keyed.find?_eq_some.mp hfind).1
  · intro r hr
    rcases hcreated.rows r hr with hold | ⟨-, hsequence, -⟩
    · exact h.downstreams r hold
    · rw [hsequence]
      exact hzero

theorem numbered_updateVersions (h : Numbered db) (appId : AppId) (sequence : Int)
    (set : AppDownstreamVersionRow → AppDownstreamVersionRow) (hset : ∀ r, (set r).key = r.key) :
    Numbered (updateVersions db appId sequence set hset) :=
  ⟨h.versions, sequence_updateWhere h.downstreams _ set hset⟩

theorem numbered_addKotsPreflight (h : Numbered db) (appId : AppId) (clusterId : ClusterId)
    (sequence : Int) (preflightResult : PreflightResult) (now : Timestamp) :
    Numbered (addKotsPreflight db appId clusterId sequence preflightResult now) := by
  unfold addKotsPreflight
  dsimp only
  split
  next => exact numbered_deployVersion (numbered_updateVersions h _ _ _ _) appId sequence now
  next => exact numbered_updateVersions h _ _ _ _

end Numbered

theorem numbered_step {s s' : Server} {a : Action} (hs : Numbered s.db)
    (hstep : machine.step s a = some s') : Numbered s'.db := by
  cases a with
  | deployVersion appId sequence now =>
    cases hstep
    exact numbered_deployVersion hs appId sequence now
  | createDownstream appId downstreamName clusterId =>
    cases hstep
    exact ⟨hs.versions, hs.downstreams⟩
  | createDownstreamVersion appId parentSequence clusterId now args =>
    cases hstep
    unfold committed
    split
    next => exact hs
    next hdb => exact numbered_createDownstreamVersion hs hdb
  | createVersion env appId filesInDir source currentSequence =>
    cases hstep
    exact numbered_createVersion hs env appId filesInDir source currentSequence
  | deleteDownstream appId clusterId =>
    cases hstep
    unfold committed deleteDownstream
    cases s.db.appDownstream.find? (appId, clusterId) with
    | none => exact hs
    | some _ => exact ⟨hs.versions, hs.downstreams⟩
  | addKotsPreflight appId clusterId sequence preflightResult now =>
    cases hstep
    exact numbered_addKotsPreflight hs appId clusterId sequence preflightResult now

/-- The numbers of a database that starts without negative ones stay so, whatever is done. -/
theorem numbered_everyState :
    machine.EveryState (fun s => Numbered s.db) Machine.Free fun s => Numbered s.db :=
  Machine.everyState_of_inv (fun _ hs => hs) fun _ _ _ hs _ hstep => numbered_step hs hstep

/-- So every history is complete, as long as what every cluster has is deployed. -/
theorem history_complete_everyState :
    machine.EveryState (fun s => Init s ∧ Numbered s.db) Guard fun s =>
      ∀ d ∈ s.db.appDownstream.rows,
        ∃ versions, getKotsDownstreamHistory s.db d.appId d.clusterId = .ok versions ∧
          Complete s.db d.appId d.clusterId versions := by
  intro s hs d hd
  have hinv : machine.EveryState (fun s => Init s ∧ Numbered s.db) Guard
      fun s => Points s.db ∧ Numbered s.db := by
    apply Machine.everyState_of_inv
    · rintro s ⟨hinit, hnumbered⟩
      exact ⟨points_everyState s (.init hinit), hnumbered⟩
    · intro s a s' hs hguard hstep
      exact ⟨(points_step_iff hs.1 hstep).mpr hguard, numbered_step hs.2 hstep⟩
  obtain ⟨hpoints, hnumbered⟩ := hinv s hs
  have hfind : s.db.appDownstream.find? (d.appId, d.clusterId) = some d :=
    Keyed.find?_isSome_of_mem hd
  cases hsequence : d.currentSequence with
  | none => exact complete_none hfind hsequence (hnumbered.fromZero d.appId d.clusterId)
  | some sequence => exact complete_some hfind hsequence (hpoints d hd sequence hsequence)

end Kotsadm.CurrentVersion
