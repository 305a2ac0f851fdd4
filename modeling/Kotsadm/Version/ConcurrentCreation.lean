import Kotsadm.Version.Interleaving

/-!
# ConcurrentCreation — concurrent creations do not merge

The sequence of a new version is read long before the version is visible to others, so two
creations in progress may have the same one.  The upsert then merges them.  Two transactions are
saved by a downstream: the second one finds the downstream version of the first.
-/

namespace Kotsadm.Interleaving

open Version

variable {appId : AppId}

/-! ## What the statements do -/

def HasVersion (appId : AppId) (db : Database) (sequence : Int) : Prop :=
  (db.appVersion.find? (appId, sequence)).isSome

def HasRow (appId : AppId) (db : Database) (clusterId : ClusterId) (sequence : Int) : Prop :=
  (db.appDownstreamVersion.find? (appId, clusterId, sequence)).isSome

/-- The current sequence as `uploadUpdate` reads it. -/
def current (appId : AppId) (db : Database) : Int :=
  ((db.app.find? appId).bind (·.currentSequence)).getD 0

theorem current_of_getApp {db : Database} {kotsApp : KotsAppStore.KotsApp}
    (h : KotsAppStore.getApp db appId = .ok kotsApp) :
    kotsApp.currentSequence.getD 0 = current appId db := by
  unfold KotsAppStore.getApp at h
  unfold current
  cases hrow : db.app.find? appId with
  | none =>
    rw [hrow] at h
    cases h
  | some row =>
    rw [hrow] at h
    cases h
    rfl

/-- The new sequence of a transaction is free, and the one before it is taken. -/
theorem nextSequence_spec {db : Database} {currentSequence sequence : Int}
    (h : nextSequence db appId (some currentSequence) = some sequence) :
    HasVersion appId db (sequence - 1) ∧ ∀ n, HasVersion appId db n → n < sequence := by
  change (maxSequence db appId).map (· + 1) = some sequence at h
  obtain ⟨last, hlast, hsequence⟩ := Option.map_eq_some_iff.mp h
  obtain ⟨hmem, hmax⟩ := List.max?_eq_some_iff.mp hlast
  obtain ⟨row, hrow, hlastRow⟩ := List.mem_map.mp hmem
  rw [List.mem_filter, decide_eq_true_eq] at hrow
  constructor
  · have hkey : row.key = (appId, sequence - 1) := by
      show (row.appId, row.sequence) = _
      rw [hrow.2, hlastRow, ← hsequence]
      simp
    have hfind := Keyed.find?_eq_some.mpr ⟨hrow.1, hkey⟩
    unfold HasVersion
    rw [hfind]
    rfl
  · intro n hn
    obtain ⟨other, hother⟩ := Option.isSome_iff_exists.mp hn
    obtain ⟨hotherMem, hotherKey⟩ := Keyed.find?_eq_some.mp hother
    simp only [AppVersionRow.key, Prod.mk.injEq] at hotherKey
    have hle := hmax other.sequence (List.mem_map_of_mem
      (List.mem_filter.mpr ⟨hotherMem, decide_eq_true hotherKey.1⟩))
    omega

theorem hasVersion_upsert {db : Database} {sequence : Int} {now : Timestamp}
    {columns : AppVersionColumns} {n : Int} :
    HasVersion appId (KotsAppStore.upsertAppVersion db appId sequence now columns) n ↔
      sequence = n ∨ HasVersion appId db n := by
  unfold HasVersion KotsAppStore.upsertAppVersion
  rw [Keyed.find?_upsert]
  by_cases hn : sequence = n
  · simp [hn]
  · simp [hn]

theorem current_updateAppVersion {db : Database} (hrow : (db.app.find? appId).isSome)
    {sequence : Int} {name icon : String} :
    current appId (KotsAppStore.updateAppVersion db appId sequence name icon) = sequence := by
  obtain ⟨row, hrow⟩ := Option.isSome_iff_exists.mp hrow
  unfold current KotsAppStore.updateAppVersion
  rw [KotsAppStore.find?_updateApp, if_pos rfl, hrow]
  rfl

theorem isSome_updateAppVersion {db : Database} (hrow : (db.app.find? appId).isSome)
    {sequence : Int} {name icon : String} :
    ((KotsAppStore.updateAppVersion db appId sequence name icon).app.find? appId).isSome := by
  unfold KotsAppStore.updateAppVersion
  rw [KotsAppStore.find?_updateApp, if_pos rfl, Option.isSome_map]
  exact hrow

/-- Downstream versions were added and nothing else. -/
structure Inserted (db db' : Database) : Prop where
  app : db'.app = db.app
  appVersion : db'.appVersion = db.appVersion
  appDownstream : db'.appDownstream = db.appDownstream
  rows : ∀ key, (db.appDownstreamVersion.find? key).isSome →
    (db'.appDownstreamVersion.find? key).isSome

theorem inserted_insertDownstreamVersion {db db' : Database} {row : AppDownstreamVersionRow}
    (h : KotsAppStore.insertDownstreamVersion db row = .ok db') :
    Inserted db db' ∧ (db'.appDownstreamVersion.find? row.key).isSome := by
  unfold KotsAppStore.insertDownstreamVersion at h
  split at h
  next => cases h
  next table htable =>
    cases h
    refine ⟨⟨rfl, rfl, rfl, ?_⟩, ?_⟩
    · intro key hkey
      dsimp only
      rw [Keyed.find?_insert? htable]
      split
      next => rfl
      next => exact hkey
    · dsimp only
      rw [Keyed.find?_insert? htable, if_pos rfl]
      rfl

theorem inserted_insertDownstreamVersions {db db' : Database} {rows : List AppDownstreamVersionRow}
    (h : insertDownstreamVersions rows db = .ok db') :
    Inserted db db' ∧ ∀ r ∈ rows, (db'.appDownstreamVersion.find? r.key).isSome := by
  induction rows generalizing db with
  | nil =>
    cases h
    exact ⟨⟨rfl, rfl, rfl, fun _ hkey => hkey⟩, fun r hr => by cases hr⟩
  | cons row rows ih =>
    obtain ⟨db₁, hfirst, hrest⟩ := Except.bind_eq_ok.mp h
    obtain ⟨hins, hrow⟩ := inserted_insertDownstreamVersion hfirst
    obtain ⟨hins', hrows⟩ := ih hrest
    refine ⟨⟨?_, ?_, ?_, fun key hkey => hins'.rows key (hins.rows key hkey)⟩, ?_⟩
    · rw [hins'.app, hins.app]
    · rw [hins'.appVersion, hins.appVersion]
    · rw [hins'.appDownstream, hins.appDownstream]
    · intro r hr
      rcases List.mem_cons.mp hr with rfl | hr
      · exact hins'.rows _ hrow
      · exact hrows r hr

/-! ## The invariant -/

/-- The clusters for which a transaction has not inserted a row yet. -/
def Transaction.todo (clusters : List ClusterId) (t : Transaction) : List ClusterId :=
  match t.phase with
  | .inserting todo _ => todo
  | _ => clusters

/-- All versions come before the one of the transaction. -/
def Fresh (appId : AppId) (db : Database) (t : Transaction) : Prop :=
  ∀ n, HasVersion appId db n → n < t.sequence

/-- A downstream version that the transaction has still to insert is there already. -/
def Doomed (appId : AppId) (clusters : List ClusterId) (db : Database) (t : Transaction) : Prop :=
  ∃ c ∈ t.todo clusters, HasRow appId db c t.sequence

structure TransactionOk (appId : AppId) (clusters : List ClusterId) (db : Database)
    (t : Transaction) : Prop where
  base : HasVersion appId db (t.sequence - 1)
  fate : Fresh appId db t ∨ Doomed appId clusters db t
  inserted : ∀ todo rows, t.phase = .inserting todo rows →
    ∀ c ∈ clusters, c ∈ todo ∨ ∃ r ∈ rows, r.key = (appId, c, t.sequence)

def UploadPhase.Applied : UploadPhase → Prop
  | .fetched | .upserted => False
  | _ => True

structure UploadOk (appId : AppId) (db : Database) (u : Upload) : Prop where
  base : ∃ n, HasVersion appId db n ∧ u.sequence ≤ n + 1
  written : u.phase ≠ .fetched → HasVersion appId db u.sequence
  applied : u.phase.Applied → u.sequence ≤ current appId db

def CreationOk (appId : AppId) (clusters : List ClusterId) (db : Database) : Creation → Prop
  | .transaction t => TransactionOk appId clusters db t
  | .upload u => UploadOk appId db u
  | .succeeded n => HasVersion appId db n ∧ n ≤ current appId db
  | .failed => True

/-- Two creations do not merge: only transactions may have one sequence, and then one of them is
still before its upsert and will find a downstream version of the other. -/
def Apart (clusters : List ClusterId) : Creation → Creation → Prop
  | .failed, _ => True
  | _, .failed => True
  | .transaction t, .transaction t' =>
    t.sequence = t'.sequence → clusters ≠ [] ∧ (t.phase = .selected ∨ t'.phase = .selected)
  | .transaction _, .succeeded _ => True
  | .succeeded _, .transaction _ => True
  | .transaction t, .upload u => t.sequence ≠ u.sequence
  | .upload u, .transaction t => u.sequence ≠ t.sequence
  | .upload u, .upload u' => u.sequence ≠ u'.sequence
  | .upload u, .succeeded n => u.sequence ≠ n
  | .succeeded n, .upload u => n ≠ u.sequence
  | .succeeded n, .succeeded m => n ≠ m

theorem apart_symm (clusters : List ClusterId) (c d : Creation) (h : Apart clusters c d) :
    Apart clusters d c := by
  cases c <;> cases d <;> simp only [Apart] at h ⊢
  case transaction.transaction t t' =>
    intro heq
    obtain ⟨hclusters, hselected⟩ := h heq.symm
    exact ⟨hclusters, hselected.symm⟩
  all_goals exact fun heq => h heq.symm

/-- The committed database: the current version exists. -/
structure DatabaseOk (appId : AppId) (clusters : List ClusterId) (db : Database) : Prop where
  clusters : KotsAppStore.listClusterIDsForApp db appId = clusters
  row : (db.app.find? appId).isSome
  current : HasVersion appId db (current appId db)

/-- Every write is of the sequence of its creation. -/
def Creation.Wrote (sequence : Int) : Creation → Prop
  | .transaction _ => False
  | .upload u => u.sequence = sequence
  | .succeeded n => n = sequence
  | .failed => True

structure Inv (appId : AppId) (clusters : List ClusterId) (w : World) : Prop where
  creations : Processes.Inv (DatabaseOk appId clusters) (CreationOk appId clusters)
    (Apart clusters) w.db w.creations
  writes : ∀ i n, (i, n) ∈ w.writes → ∃ c, w.creations[i]? = some c ∧ c.Wrote n

/-! ## One step of a creation -/

section Step

variable {clusters : List ClusterId} {w : World} {i : Nat} {c c' : Creation} {db : Database}

theorem creationOk_mono (hversions : ∀ n, HasVersion appId w.db n → HasVersion appId db n)
    (hrows : ∀ c n, HasRow appId w.db c n → HasRow appId db c n)
    (hcurrent : current appId w.db ≤ current appId db)
    (hfresh : ∀ t, c = .transaction t → Fresh appId w.db t →
      Fresh appId db t ∨ Doomed appId clusters db t)
    (h : CreationOk appId clusters w.db c) : CreationOk appId clusters db c := by
  cases c with
  | transaction t =>
    refine ⟨hversions _ h.base, ?_, h.inserted⟩
    rcases h.fate with hfate | ⟨c, hc, hrow⟩
    · exact hfresh t rfl hfate
    · exact .inr ⟨c, hc, hrows c _ hrow⟩
  | upload u =>
    obtain ⟨n, hn, hle⟩ := h.base
    refine ⟨⟨n, hversions n hn, hle⟩, fun hphase => hversions _ (h.written hphase), ?_⟩
    intro hphase
    have happlied := h.applied hphase
    omega
  | succeeded n =>
    have hle := h.2
    exact ⟨hversions n h.1, by omega⟩
  | failed => trivial

theorem inv_set (h : Inv appId clusters w) (hi : w.creations[i]? = some c)
    (hgood : DatabaseOk appId clusters db) (heach : CreationOk appId clusters db c')
    (hother : ∀ d ∈ w.creations, CreationOk appId clusters w.db d → Apart clusters c d →
      CreationOk appId clusters db d ∧ Apart clusters c' d)
    (hwrote : ∀ n, c.Wrote n → c'.Wrote n) {writes : List (Nat × Int)}
    (hwrites : ∀ j n, (j, n) ∈ writes → (j, n) ∈ w.writes ∨ (j = i ∧ c'.Wrote n)) :
    Inv appId clusters { db, creations := w.creations.set i c', writes } where
  creations := h.creations.set (apart_symm clusters) hi hgood heach hother
  writes := by
    intro j n hmem
    have hlt : i < w.creations.length := (List.getElem?_eq_some_iff.mp hi).1
    by_cases hj : j = i
    · subst hj
      refine ⟨c', ?_, ?_⟩
      · dsimp only
        rw [List.getElem?_set_self hlt]
      · rcases hwrites j n hmem with hold | ⟨-, hnew⟩
        · obtain ⟨d, hd, hdn⟩ := h.writes j n hold
          rw [hi] at hd
          cases hd
          exact hwrote n hdn
        · exact hnew
    · rcases hwrites j n hmem with hold | ⟨hji, -⟩
      · obtain ⟨d, hd, hdn⟩ := h.writes j n hold
        refine ⟨d, ?_, hdn⟩
        dsimp only
        rw [List.getElem?_set_ne (fun hij => hj hij.symm)]
        exact hd
      · exact absurd hji hj

/-- A step that leaves the database alone. -/
theorem inv_put (h : Inv appId clusters w) (hi : w.creations[i]? = some c)
    (heach : CreationOk appId clusters w.db c')
    (hapart : ∀ d ∈ w.creations, Apart clusters c d → Apart clusters c' d)
    (hwrote : ∀ n, c.Wrote n → c'.Wrote n) : Inv appId clusters (w.put i c') :=
  inv_set h hi h.creations.good heach (fun d hd hok hcd => ⟨hok, hapart d hd hcd⟩) hwrote
    fun _ _ hmem => .inl hmem

theorem inv_failed (h : Inv appId clusters w) (hi : w.creations[i]? = some c) :
    Inv appId clusters (w.put i .failed) :=
  inv_put h hi trivial (fun d _ _ => by cases d <;> trivial) fun _ _ => trivial

theorem inv_start (h : Inv appId clusters w) (heach : CreationOk appId clusters w.db c)
    (hapart : ∀ d ∈ w.creations, CreationOk appId clusters w.db d → Apart clusters c d) :
    Inv appId clusters (w.start c) where
  creations := h.creations.concat (apart_symm clusters) heach hapart
  writes := by
    intro j n hmem
    obtain ⟨d, hd, hdn⟩ := h.writes j n hmem
    refine ⟨d, ?_, hdn⟩
    have hlt : j < w.creations.length := (List.getElem?_eq_some_iff.mp hd).1
    show (w.creations ++ [c])[j]? = some d
    rw [List.getElem?_append_left hlt]
    exact hd

theorem not_locked {lock : Transaction → Bool} (hlocked : ¬ w.locked lock = true)
    {t : Transaction} (ht : .transaction t ∈ w.creations) : lock t = false := by
  by_contra hlock
  apply hlocked
  unfold World.locked
  rw [List.any_eq_true]
  exact ⟨.transaction t, ht, by simpa using hlock⟩

/-! ### Transactions -/

section Transaction

variable {t : Transaction}

/-- A transaction goes on to a later phase.  It passes its upsert alone. -/
theorem inv_transactionPhase (h : Inv appId clusters w)
    (hi : w.creations[i]? = some (.transaction t)) {phase : TransactionPhase}
    (hdoomed : Doomed appId clusters w.db t → Doomed appId clusters w.db { t with phase })
    (hinserted : ∀ todo rows, phase = .inserting todo rows →
      ∀ c ∈ clusters, c ∈ todo ∨ ∃ r ∈ rows, r.key = (appId, c, t.sequence))
    (hlock : t.phase = .selected → ∀ t', .transaction t' ∈ w.creations →
      t'.sequence = t.sequence → t'.phase = .selected) :
    Inv appId clusters (w.put i (.transaction { t with phase })) := by
  have hok := h.creations.each i _ hi
  apply inv_put h hi
  · exact ⟨hok.base, hok.fate.imp_right hdoomed, hinserted⟩
  · intro d hd hapart
    cases d with
    | transaction t' =>
      intro heq
      obtain ⟨hclusters, hselected⟩ := hapart heq
      refine ⟨hclusters, .inr ?_⟩
      rcases hselected with hselected | hselected
      · exact hlock hselected t' hd heq.symm
      · exact hselected
    | upload u => exact hapart
    | succeeded n => trivial
    | failed => trivial
  · intro n hn
    cases hn

/-- Before the loop every cluster is left. -/
theorem inv_beforeInserting (h : Inv appId clusters w)
    (hi : w.creations[i]? = some (.transaction t)) (htodo : t.todo clusters = clusters)
    {phase : TransactionPhase} (hphase : ∀ todo rows, phase ≠ .inserting todo rows)
    (hlock : t.phase = .selected → ∀ t', .transaction t' ∈ w.creations →
      t'.sequence = t.sequence → t'.phase = .selected) :
    Inv appId clusters (w.put i (.transaction { t with phase })) := by
  apply inv_transactionPhase h hi
  · intro ⟨c, hc, hrow⟩
    rw [htodo] at hc
    refine ⟨c, ?_, hrow⟩
    unfold Transaction.todo
    split
    next heq => exact absurd heq (hphase _ _)
    next => exact hc
  · intro todo rows heq
    exact absurd heq (hphase todo rows)
  · exact hlock

theorem inv_insertRow (h : Inv appId clusters w) (hi : w.creations[i]? = some (.transaction t))
    {clusterId : ClusterId} {todo : List ClusterId} {rows : List AppDownstreamVersionRow}
    (hphase : t.phase = .inserting (clusterId :: todo) rows) {row : AppDownstreamVersionRow}
    (hkey : row.key = (appId, clusterId, t.sequence))
    (hfree : ¬ (w.db.appDownstreamVersion.find? row.key).isSome) :
    Inv appId clusters
      (w.put i (.transaction { t with phase := .inserting todo (rows ++ [row]) })) := by
  have hok := h.creations.each i _ hi
  apply inv_transactionPhase h hi
  · intro ⟨c, hc, hrow⟩
    unfold Transaction.todo at hc
    rw [hphase] at hc
    rcases List.mem_cons.mp hc with rfl | hc
    · -- the row of this cluster was not there
      rw [hkey] at hfree
      exact absurd hrow hfree
    · exact ⟨c, hc, hrow⟩
  · intro todo' rows' heq c hc
    cases heq
    rcases hok.inserted _ _ hphase c hc with hmem | ⟨r, hr, hrkey⟩
    · rcases List.mem_cons.mp hmem with rfl | hmem
      · exact .inr ⟨row, List.mem_append_right _ List.mem_cons_self, hkey⟩
      · exact .inl hmem
    · exact .inr ⟨r, List.mem_append_left _ hr, hrkey⟩
  · intro hselected
    rw [hselected] at hphase
    cases hphase

theorem commit_spec {rows : List AppDownstreamVersionRow} {db' : Database}
    (hok : DatabaseOk appId clusters db) (hcommit : t.commit appId rows db = .ok db') :
    KotsAppStore.listClusterIDsForApp db' appId = clusters ∧ (db'.app.find? appId).isSome ∧
      current appId db' = t.sequence ∧
      (∀ n, HasVersion appId db' n ↔ t.sequence = n ∨ HasVersion appId db n) ∧
      (∀ c n, HasRow appId db c n → HasRow appId db' c n) ∧
      ∀ r ∈ rows, (db'.appDownstreamVersion.find? r.key).isSome := by
  obtain ⟨hins, hrows⟩ := inserted_insertDownstreamVersions hcommit
  have hrow : ((KotsAppStore.upsertAppVersion db appId t.sequence t.version.now
      t.version.columns).app.find? appId).isSome := hok.row
  refine ⟨?_, ?_, ?_, ?_, ?_, hrows⟩
  · unfold KotsAppStore.listClusterIDsForApp
    rw [hins.appDownstream]
    exact hok.clusters
  · rw [hins.app]
    exact isSome_updateAppVersion hrow
  · unfold current
    rw [hins.app]
    exact current_updateAppVersion hrow
  · intro n
    unfold HasVersion
    rw [hins.appVersion]
    exact hasVersion_upsert
  · exact fun c n hold => hins.rows _ hold

/-- A transaction that commits was not doomed; the others with its sequence are from now on. -/
theorem inv_commit (h : Inv appId clusters w) (hi : w.creations[i]? = some (.transaction t))
    {rows : List AppDownstreamVersionRow} (hphase : t.phase = .inserting [] rows)
    (hcommit : t.commit appId rows w.db = .ok db) :
    Inv appId clusters { db, creations := w.creations.set i (.succeeded t.sequence),
                         writes := (i, t.sequence) :: w.writes } := by
  have hgood := h.creations.good
  have hok := h.creations.each i _ hi
  obtain ⟨hclusters, hrow, hcurrent, hversions, hrows, hinserted⟩ := commit_spec hgood hcommit
  have hfresh : Fresh appId w.db t := by
    rcases hok.fate with hfresh | ⟨c, hc, -⟩
    · exact hfresh
    · unfold Transaction.todo at hc
      rw [hphase] at hc
      cases hc
  have hless : current appId w.db < t.sequence := hfresh _ hgood.current
  apply inv_set h hi
  · refine ⟨hclusters, hrow, ?_⟩
    rw [hcurrent]
    exact (hversions _).mpr (.inl rfl)
  · exact ⟨(hversions _).mpr (.inl rfl), by omega⟩
  · intro d hd hdok hapart
    constructor
    · refine creationOk_mono (fun n hn => (hversions n).mpr (.inr hn)) hrows (by omega) ?_ hdok
      intro t' ht' hfresh'
      subst ht'
      by_cases heq : t.sequence = t'.sequence
      · right
        obtain ⟨hne, hselected⟩ := hapart heq
        have hphase' : t'.phase = .selected := by
          rcases hselected with hselected | hselected
          · rw [hselected] at hphase
            cases hphase
          · exact hselected
        obtain ⟨c, hc⟩ := List.exists_mem_of_ne_nil clusters hne
        rcases hok.inserted _ _ hphase c hc with hmem | ⟨r, hr, hrkey⟩
        · cases hmem
        · refine ⟨c, ?_, ?_⟩
          · unfold Transaction.todo
            rw [hphase']
            exact hc
          · have hfound := hinserted r hr
            rw [hrkey, heq] at hfound
            exact hfound
      · left
        intro n hn
        -- the version before this one exists, so the other transaction has a later sequence
        have hbase := hfresh' _ hok.base
        rcases (hversions n).mp hn with hnew | hold
        · omega
        · exact hfresh' n hold
    · cases d with
      | transaction t' => trivial
      | upload u => exact hapart
      | succeeded n =>
        have hn := hfresh n hdok.1
        show t.sequence ≠ n
        omega
      | failed => trivial
  · intro n hn
    cases hn
  · intro j n hmem
    rcases List.mem_cons.mp hmem with heq | hold
    · cases heq
      exact .inr ⟨rfl, rfl⟩
    · exact .inl hold

theorem inv_nextTransaction (h : Inv appId clusters w)
    (hi : w.creations[i]? = some (.transaction t)) {w' : World}
    (hstep : nextTransaction appId w i t = some w') : Inv appId clusters w' := by
  unfold nextTransaction at hstep
  split at hstep
  next hphase =>
    split at hstep
    next => cases hstep
    next hlocked =>
      cases hstep
      have htodo : t.todo clusters = clusters := by
        unfold Transaction.todo
        rw [hphase]
      apply inv_beforeInserting h hi htodo
      · intro todo rows heq
        cases heq
      · intro _ t' ht' hsequence
        have hfree := not_locked hlocked ht'
        unfold Transaction.locksVersion at hfree
        split at hfree
        next hselected => exact hselected
        next => simp [hsequence] at hfree
  next hphase =>
    split at hstep
    next => cases hstep
    next =>
      cases hstep
      have htodo : t.todo clusters = clusters := by
        unfold Transaction.todo
        rw [hphase]
      apply inv_beforeInserting h hi htodo
      · intro todo rows heq
        cases heq
      · intro hselected
        rw [hselected] at hphase
        cases hphase
  next hphase =>
    cases hstep
    apply inv_transactionPhase h hi
    · intro ⟨c, hc, hrow⟩
      unfold Transaction.todo at hc
      rw [hphase] at hc
      refine ⟨c, ?_, hrow⟩
      show c ∈ KotsAppStore.listClusterIDsForApp w.db appId
      rw [h.creations.good.clusters]
      exact hc
    · intro todo rows heq c hc
      cases heq
      left
      rw [h.creations.good.clusters]
      exact hc
    · intro hselected
      rw [hselected] at hphase
      cases hphase
  next clusterId todo rows hphase =>
    dsimp only at hstep
    split at hstep
    next => cases hstep
    next =>
      split at hstep
      next =>
        cases hstep
        exact inv_failed h hi
      next hfree =>
        cases hstep
        exact inv_insertRow h hi hphase rfl hfree
  next rows hphase =>
    split at hstep
    next =>
      cases hstep
      exact inv_failed h hi
    next db hcommit =>
      cases hstep
      exact inv_commit h hi hphase hcommit

end Transaction

/-! ### Uploads -/

section Upload

variable {u : Upload}

/-- An upload goes on without writing a version. -/
theorem inv_uploadPhase (h : Inv appId clusters w) (hi : w.creations[i]? = some (.upload u))
    {phase : UploadPhase} (hphase : u.phase.Applied) :
    Inv appId clusters (w.put i (.upload { u with phase })) := by
  have hok := h.creations.each i _ hi
  apply inv_put h hi
  · refine ⟨hok.base, fun _ => hok.written ?_, fun _ => hok.applied hphase⟩
    intro hfetched
    rw [hfetched] at hphase
    exact hphase
  · intro d _ hapart
    cases d <;> exact hapart
  · exact fun n hn => hn

theorem inv_upsert (h : Inv appId clusters w) (hi : w.creations[i]? = some (.upload u)) :
    Inv appId clusters
      { db := KotsAppStore.upsertAppVersion w.db appId u.sequence u.version.now u.version.columns
        creations := w.creations.set i (.upload { u with phase := .upserted })
        writes := (i, u.sequence) :: w.writes } := by
  have hgood := h.creations.good
  have hok := h.creations.each i _ hi
  obtain ⟨n, hn, hle⟩ := hok.base
  have hold : ∀ m, HasVersion appId w.db m → HasVersion appId (KotsAppStore.upsertAppVersion w.db
      appId u.sequence u.version.now u.version.columns) m :=
    fun m hm => hasVersion_upsert.mpr (.inr hm)
  apply inv_set h hi
  · exact ⟨hgood.clusters, hgood.row, hold _ hgood.current⟩
  · exact ⟨⟨n, hold n hn, hle⟩, fun _ => hasVersion_upsert.mpr (.inl rfl), fun happlied => by
      cases happlied⟩
  · intro d _ hdok hapart
    constructor
    · refine creationOk_mono hold (fun _ _ hrow => hrow) (le_refl (current appId w.db)) ?_ hdok
      intro t ht hfresh
      subst ht
      left
      intro m hm
      have hbase := hfresh n hn
      have hne : u.sequence ≠ t.sequence := hapart
      rcases hasVersion_upsert.mp hm with hnew | hm
      · omega
      · exact hfresh m hm
    · cases d <;> exact hapart
  · exact fun m hm => hm
  · intro j m hmem
    rcases List.mem_cons.mp hmem with heq | hmem
    · cases heq
      exact .inr ⟨rfl, rfl⟩
    · exact .inl hmem

/-- The current sequence does not go back. -/
theorem inv_updateApp (h : Inv appId clusters w) (hi : w.creations[i]? = some (.upload u))
    (hphase : u.phase = .upserted) (hcurrent : current appId w.db ≤ u.sequence) :
    Inv appId clusters { w with
      db := KotsAppStore.updateAppVersion w.db appId u.sequence u.version.name u.version.icon
      creations := w.creations.set i (.upload { u with phase := .updated }) } := by
  have hgood := h.creations.good
  have hok := h.creations.each i _ hi
  have hwritten : HasVersion appId w.db u.sequence := by
    apply hok.written
    rw [hphase]
    intro heq
    cases heq
  have hcurrent' : current appId (KotsAppStore.updateAppVersion w.db appId u.sequence u.version.name
      u.version.icon) = u.sequence := current_updateAppVersion hgood.row
  apply inv_set h hi
  · refine ⟨hgood.clusters, isSome_updateAppVersion hgood.row, ?_⟩
    rw [hcurrent']
    exact hwritten
  · refine ⟨hok.base, fun _ => hwritten, fun _ => ?_⟩
    show u.sequence ≤ _
    rw [hcurrent']
  · intro d _ hdok hapart
    constructor
    · refine creationOk_mono (fun _ hm => hm) (fun _ _ hrow => hrow) ?_ (fun _ _ => .inl) hdok
      rw [hcurrent']
      exact hcurrent
    · cases d <;> exact hapart
  · exact fun m hm => hm
  · exact fun _ _ hmem => .inl hmem

theorem inv_uploadRow (h : Inv appId clusters w) (hi : w.creations[i]? = some (.upload u))
    (hphase : u.phase.Applied) {todo : List ClusterId} {row : AppDownstreamVersionRow}
    (hins : KotsAppStore.insertDownstreamVersion w.db row = .ok db) :
    Inv appId clusters { w with
      db, creations := w.creations.set i (.upload { u with phase := .numbering todo }) } := by
  have hgood := h.creations.good
  have hok := h.creations.each i _ hi
  have hdb := (inserted_insertDownstreamVersion hins).1
  have hversion : ∀ m, HasVersion appId db m ↔ HasVersion appId w.db m := by
    intro m
    unfold HasVersion
    rw [hdb.appVersion]
  have hcurrent : current appId db = current appId w.db := by
    unfold current
    rw [hdb.app]
  have hmono : ∀ d, CreationOk appId clusters w.db d → CreationOk appId clusters db d := by
    intro d hd
    refine creationOk_mono (fun m => (hversion m).mpr) (fun c m => hdb.rows _) hcurrent.ge ?_ hd
    exact fun t _ hfresh => .inl fun m hm => hfresh m ((hversion m).mp hm)
  have hwritten : UploadOk appId w.db { u with phase := .numbering todo } := by
    refine ⟨hok.base, fun _ => hok.written ?_, fun _ => hok.applied hphase⟩
    intro hfetched
    rw [hfetched] at hphase
    exact hphase
  apply inv_set h hi
  · refine ⟨?_, ?_, ?_⟩
    · unfold KotsAppStore.listClusterIDsForApp
      rw [hdb.appDownstream]
      exact hgood.clusters
    · rw [hdb.app]
      exact hgood.row
    · rw [hcurrent]
      exact (hversion _).mpr hgood.current
  · exact hmono (.upload { u with phase := .numbering todo }) hwritten
  · intro d _ hdok hapart
    refine ⟨hmono d hdok, ?_⟩
    cases d <;> exact hapart
  · exact fun m hm => hm
  · exact fun _ _ hmem => .inl hmem

theorem inv_uploadSucceeded (h : Inv appId clusters w) (hi : w.creations[i]? = some (.upload u))
    (hphase : u.phase.Applied) : Inv appId clusters (w.put i (.succeeded u.sequence)) := by
  have hok := h.creations.each i _ hi
  have hwritten : HasVersion appId w.db u.sequence := by
    apply hok.written
    intro hfetched
    rw [hfetched] at hphase
    exact hphase
  apply inv_put h hi
  · exact ⟨hwritten, hok.applied hphase⟩
  · intro d _ hapart
    cases d with
    | transaction t => trivial
    | upload u' => exact hapart
    | succeeded n => exact hapart
    | failed => trivial
  · exact fun m hm => hm

theorem inv_nextUpload (h : Inv appId clusters w) (hi : w.creations[i]? = some (.upload u))
    (hback : u.phase = .upserted → current appId w.db ≤ u.sequence) {w' : World}
    (hstep : nextUpload appId w i u = some w') : Inv appId clusters w' := by
  unfold nextUpload at hstep
  split at hstep
  next =>
    split at hstep
    next => cases hstep
    next =>
      cases hstep
      exact inv_upsert h hi
  next hphase =>
    split at hstep
    next => cases hstep
    next =>
      cases hstep
      exact inv_updateApp h hi hphase (hback hphase)
  next hphase =>
    cases hstep
    exact inv_uploadPhase h hi (by rw [hphase]; trivial)
  next hphase =>
    cases hstep
    exact inv_uploadPhase h hi (by rw [hphase]; trivial)
  next hphase =>
    cases hstep
    exact inv_uploadSucceeded h hi (by rw [hphase]; trivial)
  next hphase =>
    dsimp only at hstep
    split at hstep
    next => cases hstep
    next =>
      split at hstep
      next =>
        cases hstep
        exact inv_failed h hi
      next db hins =>
        cases hstep
        exact inv_uploadRow h hi (by rw [hphase]; trivial) hins

end Upload

/-! ### Starts -/

theorem inv_createVersion (h : Inv appId clusters w) {currentSequence sequence : Int}
    (version : NewVersion)
    (hsequence : nextSequence w.db appId (some currentSequence) = some sequence)
    (hguard : ∀ c ∈ w.creations, c.Uses sequence → c.IsTransaction ∧ clusters ≠ []) :
    Inv appId clusters (w.start (.transaction { version, sequence })) := by
  obtain ⟨hbase, hfresh⟩ := nextSequence_spec hsequence
  apply inv_start h
  · refine ⟨hbase, .inl hfresh, ?_⟩
    intro todo rows heq
    cases heq
  · intro d hd _
    cases d with
    | transaction t =>
      intro heq
      exact ⟨(hguard _ hd heq.symm).2, .inl rfl⟩
    | upload u =>
      intro heq
      exact (hguard _ hd heq.symm).1
    | succeeded n => trivial
    | failed => trivial

theorem inv_uploadUpdate (h : Inv appId clusters w) (version : NewVersion)
    (hguard : ∀ c ∈ w.creations, ¬ c.Uses (current appId w.db + 1)) :
    Inv appId clusters (w.start (.upload { version, sequence := current appId w.db + 1 })) := by
  apply inv_start h
  · refine ⟨⟨_, h.creations.good.current, le_refl _⟩, ?_, ?_⟩
    · exact fun hphase => absurd rfl hphase
    · intro happlied
      cases happlied
  · intro d hd hdok
    cases d with
    | transaction t => exact fun heq => hguard _ hd heq.symm
    | upload u => exact fun heq => hguard _ hd heq.symm
    | succeeded n =>
      have hn := hdok.2
      show current appId w.db + 1 ≠ n
      omega
    | failed => trivial

end Step

/-! ## Runs -/

theorem inv_step {clusters : List ClusterId} {w w' : World} {a : Action}
    (h : Inv appId clusters w) (hguard : Guard appId w a)
    (hstep : (machine appId).step w a = some w') : Inv appId clusters w' := by
  cases a with
  | createVersion currentSequence version =>
    simp only [machine] at hstep
    split at hstep
    next =>
      cases hstep
      exact inv_start h trivial fun d _ _ => by cases d <;> trivial
    next sequence hsequence =>
      cases hstep
      apply inv_createVersion h version hsequence
      intro c hc huses
      rw [← h.creations.good.clusters]
      exact hguard sequence hsequence c hc huses
  | uploadUpdate version =>
    simp only [machine] at hstep
    split at hstep
    next =>
      cases hstep
      exact inv_start h trivial fun d _ _ => by cases d <;> trivial
    next kotsApp hkotsApp =>
      cases hstep
      have hfree := hguard kotsApp hkotsApp
      rw [current_of_getApp hkotsApp] at hfree ⊢
      exact inv_uploadUpdate h version hfree
  | next i =>
    simp only [machine] at hstep
    split at hstep
    next t hi => exact inv_nextTransaction h hi hstep
    next u hi =>
      apply inv_nextUpload h hi _ hstep
      intro hphase
      obtain ⟨row, hrow⟩ := Option.isSome_iff_exists.mp h.creations.good.row
      have hkotsApp : KotsAppStore.getApp w.db appId = .ok (KotsAppStore.mapKotsApp row) := by
        unfold KotsAppStore.getApp
        rw [hrow]
      rw [← current_of_getApp hkotsApp]
      exact hguard u hi hphase _ hkotsApp
    next => cases hstep
  | fail i =>
    simp only [machine] at hstep
    split at hstep
    next t hi =>
      cases hstep
      exact inv_failed h hi
    next u hi =>
      cases hstep
      exact inv_failed h hi
    next => cases hstep

theorem safe_of_inv {clusters : List ClusterId} {w : World} (h : Inv appId clusters w) :
    Safe w := by
  have hdistinct : ∀ i j n m, w.Succeeded i n → w.Succeeded j m → i ≠ j → n ≠ m :=
    fun i j n m hi hj hij => h.creations.apart i j _ _ hij hi hj
  refine ⟨hdistinct, ?_⟩
  intro i j n m hi hj hij ⟨sequence, hwrites⟩
  -- both creations have written their own sequence
  have hwrote : ∀ k l, (k, sequence) ∈ w.writes → w.Succeeded k l → l = sequence := by
    intro k l hmem hk
    obtain ⟨c, hc, hcwrote⟩ := h.writes k sequence hmem
    rw [show w.creations[k]? = some (.succeeded l) from hk] at hc
    cases hc
    exact hcwrote
  have hn := hwrote i n (hwrites.subset (by simp)) hi
  have hm := hwrote j m (hwrites.subset (by simp)) hj
  exact hdistinct i j n m hi hj hij (hn.trans hm.symm)

/-- **Concurrent creations.**  As long as creations that are to get the same sequence are
transactions of an app with a downstream, and no upload sets the current sequence back, the
creations that succeed have different sequences and do not overwrite each other. -/
theorem safe_everyState (appId : AppId) :
    (machine appId).EveryState (Init appId) (Guard appId) Safe := by
  intro w hw
  have hinv : ∃ clusters, Inv appId clusters w := by
    revert w
    apply Machine.everyState_of_inv
    · intro w ⟨hcreations, hwrites, row, last, hrow, hlast, hversion⟩
      refine ⟨KotsAppStore.listClusterIDsForApp w.db appId, ?_, ?_⟩
      · rw [hcreations]
        apply Processes.inv_nil
        refine ⟨rfl, by rw [hrow]; rfl, ?_⟩
        have hcurrent : current appId w.db = last := by
          unfold current
          rw [hrow, Option.bind_some, hlast]
          rfl
        rw [hcurrent]
        exact hversion
      · intro i n hmem
        rw [hwrites] at hmem
        cases hmem
    · intro w a w' ⟨clusters, h⟩ hguard hstep
      exact ⟨clusters, inv_step h hguard hstep⟩
  obtain ⟨clusters, h⟩ := hinv
  exact safe_of_inv h

/-! ## An app without a downstream -/

def installedWorld : World where
  db :=
    { app := .single { id := "app", name := "App", slug := "app", currentSequence := some 0 }
      appVersion := .single { appId := "app", sequence := 0, createdAt := 0 } }

/-- Two transactions read the maximum 0 and both create the version 1. -/
theorem not_safe_twoTransactions :
    ¬ (machine "app").EveryState (Init "app") Machine.Free Safe := by
  have hinit : Init "app" installedWorld :=
    ⟨rfl, rfl, { id := "app", name := "App", slug := "app", currentSequence := some 0 }, 0, rfl, rfl,
      rfl⟩
  apply Machine.not_everyState hinit
    [.createVersion 0 { columns := { versionLabel := "a" } },
      .createVersion 0 { columns := { versionLabel := "b" } },
      .next 0, .next 0, .next 0, .next 0, .next 1, .next 1, .next 1, .next 1] rfl
  intro hsafe
  exact hsafe.distinct 0 1 1 1 rfl rfl (by decide) rfl

end Kotsadm.Interleaving
