import Kotsadm.Flows.InstallOutcome
import Kotsadm.Version.FirstVersion

/-!
# Retry — a failed installation is tried again

An installation leaves what it has written before it fails.  The version is upserted, the downstream
rows are not: once the first attempt has inserted one, no later attempt gets past it.
-/

namespace Kotsadm.Flows

open Version Body

/-! ## What the attempts have in common -/

/-- What an installation writes of the app, apart from its texts and states. -/
structure View where
  /-- The current sequence, if the app has a row. -/
  current : Option (Option Int)
  cluster : Keyed ClusterRow.key
  appVersion : Keyed AppVersionRow.key
  appDownstream : Keyed AppDownstreamRow.key
  appDownstreamVersion : Keyed AppDownstreamVersionRow.key

def view (appId : AppId) (db : Database) : View where
  current := (db.app.find? appId).map (·.currentSequence)
  cluster := db.cluster
  appVersion := db.appVersion
  appDownstream := db.appDownstream
  appDownstreamVersion := db.appDownstreamVersion

/-- Nothing is in the way of an installation; a version 0 would be overwritten. -/
structure Retryable (appId : AppId) (v : View) : Prop where
  row : v.current.isSome
  version : ∀ n, (v.appVersion.find? (appId, n)).isSome → n = 0
  downstream : ∀ c, v.appDownstream.find? (appId, c) = none
  downstreamVersion : ∀ c n, v.appDownstreamVersion.find? (appId, c, n) = none

/-- A cluster is a downstream of the app already. -/
def HasDownstream (appId : AppId) (v : View) : Prop :=
  ∃ cluster ∈ v.cluster.rows, (v.appDownstream.find? (appId, cluster.id)).isSome

/-- The app has version 0, and for each cluster a downstream and a downstream version. -/
structure Installed (appId : AppId) (v : View) : Prop where
  current : v.current = some (some 0)
  version : ∀ n, (v.appVersion.find? (appId, n)).isSome ↔ n = 0
  downstream : ∀ c, (v.appDownstream.find? (appId, c)).isSome ↔
    ∃ cluster ∈ v.cluster.rows, cluster.id = c
  downstreamVersion : ∀ c n, (v.appDownstreamVersion.find? (appId, c, n)).isSome ↔
    n = 0 ∧ ∃ cluster ∈ v.cluster.rows, cluster.id = c

/-- The clusters are downstreams of the app, and none of them has a version yet. -/
structure Prepared (appId : AppId) (v : View) : Prop where
  row : v.current.isSome
  version : ∀ n, (v.appVersion.find? (appId, n)).isSome → n = 0
  downstream : ∀ c, (v.appDownstream.find? (appId, c)).isSome ↔
    ∃ cluster ∈ v.cluster.rows, cluster.id = c
  downstreamVersion : ∀ c n, v.appDownstreamVersion.find? (appId, c, n) = none

section View

variable {appId : AppId} {s : Server}

theorem view_setTaskStatus (outcome : Except GoError Unit) (id message status : String)
    (now : Timestamp) :
    view appId (setTaskStatus outcome id message status now s).2.db = view appId s.db := by
  cases outcome <;> rfl

theorem view_clearTaskStatus (outcome : Except GoError Unit) (id : String) :
    view appId (clearTaskStatus outcome id s).2.db = view appId s.db := by
  cases outcome <;> rfl

theorem view_reportLines (id : String) (now : Timestamp) (lines : List ReportLine) :
    view appId (reportLines id now lines s).db = view appId s.db := by
  rw [reportLines_frame]
  rfl

theorem view_updateApp (outcome : Except GoError Unit) (id : AppId) {set : AppRow → AppRow}
    {hset : ∀ r, (set r).id = r.id} (hcurrent : ∀ r, (set r).currentSequence = r.currentSequence) :
    view appId (updateApp outcome id set hset s).2.db = view appId s.db := by
  cases outcome with
  | error e => rfl
  | ok _ =>
    have hsame : (((s.db.app.updateWhere (fun r => r.id = id) set hset).find? appId).map
        (·.currentSequence)) = (s.db.app.find? appId).map (·.currentSequence) := by
      rw [Keyed.find?_updateWhere, Option.map_map]
      apply congrArg (fun f => Option.map f (s.db.app.find? appId))
      funext r
      show (if decide (r.id = id) = true then set r else r).currentSequence = r.currentSequence
      split
      next => exact hcurrent r
      next => rfl
    unfold updateApp view
    dsimp only
    rw [hsame]

theorem view_setAppInstallState (outcome : Except GoError Unit) (id : AppId)
    (status : InstallState) :
    view appId (setAppInstallState outcome id status s).2.db = view appId s.db := by
  apply view_updateApp
  intro r
  rfl

theorem view_setInstalled (outcome : Except GoError Unit) (id : AppId) (isAirgap : Bool) :
    view appId (setInstalled outcome id isAirgap s).2.db = view appId s.db := by
  apply view_updateApp
  intro r
  rfl

theorem view_setIsAirgap (outcome : Except GoError Unit) (id : AppId) :
    view appId (setIsAirgap outcome id s).2.db = view appId s.db := by
  apply view_updateApp
  intro r
  rfl

theorem view_updateRegistry (cipher outcome : Except GoError Unit) (id : AppId)
    (settings : RegistrySettings) :
    view appId (updateRegistry cipher outcome id settings s).2.db = view appId s.db := by
  cases cipher with
  | error e => rfl
  | ok _ =>
    show view appId (updateApp outcome id _ _ s).2.db = _
    apply view_updateApp
    intro r
    rfl

theorem view_createAppVersionArchive (packed : Except GoError String) (id : AppId)
    (sequence : Int) :
    view appId (createAppVersionArchive packed id sequence s).2.db = view appId s.db := by
  cases packed <;> rfl

theorem view_installHandler (env : HandlerEnv) (id : String) (now : Timestamp) (id' : AppId)
    (errorState : InstallState) (finalError : Option GoError) :
    view appId (installHandler env id now id' errorState finalError s).db = view appId s.db := by
  cases finalError with
  | none =>
    exact (view_setAppInstallState env.installState id' .installed).trans
      (view_clearTaskStatus env.taskStatus id)
  | some e =>
    exact (view_setAppInstallState env.installState id' errorState).trans
      (view_setTaskStatus env.taskStatus id e.text "failed" now)

end View

/-! ## The pull -/

def OnlineEnv.Pulls (env : OnlineEnv) (upstreamURI : String) : Prop :=
  env.licenseFile = .ok () ∧ env.ReachesPull ∧ env.pull upstreamURI = .ok ()

def AirgapEnv.Pulls (env : AirgapEnv) (pendingApp : PendingApp) (registry : RegistryArgs) : Prop :=
  env.ReachesPull pendingApp ∧ ∃ license, env.decode pendingApp.licenseData = .ok (some license) ∧
    env.pull s!"replicated://{license.appSlug}" registry = .ok ()

section Pull

variable {appId : AppId} {v : View}

/-- The view is `v`, and `p` says what has happened. -/
abbrev Sees (appId : AppId) (v : View) (p : Prop) (r : TaskRun) : Prop :=
  view appId r.server.db = v ∧ p

theorem ne_error {α : Type} {x : Except GoError α} {a : α} {e : GoError} (hok : x = .ok a)
    (herror : x = .error e) : False := by
  rw [hok] at herror
  cases herror

theorem leads_writeConfigValues (env : OnlineEnv) (configValues : String) :
    (writeConfigValues env configValues).Leads
      (Sees appId v (¬ (configValues ≠ "" → env.configFile = .ok () ∧ env.writeConfigValues = .ok ())))
      (Sees appId v True)
      fun _ => Sees appId v
        (configValues ≠ "" → env.configFile = .ok () ∧ env.writeConfigValues = .ok ()) := by
  unfold writeConfigValues
  by_cases hempty : configValues = ""
  · rw [if_pos hempty]
    exact leads_pure fun r hr => ⟨hr.1, fun hne => absurd hempty hne⟩
  · rw [if_neg hempty]
    refine leads_bind (leads_orFinal_outcome fun r e hr he => ?_) fun _ => ?_
    · exact ⟨hr.1, fun h => ne_error (h hempty).1 he⟩
    refine leads_post (leads_orFinal_outcome fun r e hr he => ?_) (fun _ hr => hr) ?_
    · exact ⟨hr.1.1, fun h => ne_error (h hempty).2 he⟩
    · exact fun _ r hr => ⟨hr.1.1.1, fun _ => ⟨hr.1.2, hr.2⟩⟩

theorem leads_pullOnline (env : OnlineEnv) (upstreamURI : String) :
    (pullOnline env upstreamURI).Leads (Sees appId v (¬ env.Pulls upstreamURI)) (Sees appId v True)
      fun _ => Sees appId v (env.Pulls upstreamURI) := by
  refine leads_bind (leads_orReturn_outcome fun r e hr he => ?_) fun _ => ?_
  · exact ⟨hr.1, fun h => ne_error h.1 he⟩
  refine leads_bind (leads_orFinal_outcome fun r e hr he => ?_) fun _ => ?_
  · exact ⟨hr.1.1, fun h => ne_error h.2.1.1 he⟩
  refine leads_bind (leads_orFinal_outcome fun r e hr he => ?_) fun _ => ?_
  · exact ⟨hr.1.1.1, fun h => ne_error h.2.1.2.1 he⟩
  refine leads_bind (leads_orFinal_outcome fun r e hr he => ?_) fun configValues => ?_
  · refine ⟨hr.1.1.1.1, fun h => ?_⟩
    obtain ⟨values, hvalues, -⟩ := h.2.1.2.2
    exact ne_error hvalues he
  -- what was read is fixed from here on
  by_cases hread : env.licenseFile = .ok () ∧ env.writeLicense = .ok () ∧ env.tmpRoot = .ok () ∧
      env.readConfigValues = .ok configValues
  · obtain ⟨hlicense, hwrite, htmpRoot, hvalues⟩ := hread
    refine leads_mono (P := Sees appId v True) (fun r hr => ⟨hr.1.1.1.1.1, trivial⟩) ?_
    have hreaches : env.ReachesPull ↔
        (configValues ≠ "" → env.configFile = .ok () ∧ env.writeConfigValues = .ok ()) := by
      unfold OnlineEnv.ReachesPull
      rw [hvalues]
      constructor
      · rintro ⟨-, -, values, heq, hconfig⟩
        cases heq
        exact hconfig
      · exact fun hconfig => ⟨hwrite, htmpRoot, configValues, rfl, hconfig⟩
    refine leads_bind (leads_post (leads_writeConfigValues env configValues) ?_
      fun _ r hr => hr) fun _ => ?_
    · exact fun r hr => ⟨hr.1, fun h => hr.2 (hreaches.mp h.2.1)⟩
    apply leads_orReturn
    intro r hr
    unfold TaskRun.reporting
    have hview := (view_reportLines "online-install" env.now env.report.lines).trans hr.1
    cases hpull : env.pull upstreamURI with
    | error e => exact ⟨hview, fun h => ne_error h.2.2 hpull⟩
    | ok _ => exact ⟨hview, hlicense, hreaches.mpr hr.2, hpull⟩
  · intro f hf
    exact absurd ⟨hf.1.1.1.2, hf.1.1.2, hf.1.2, hf.2⟩ hread

theorem leads_orFinal_sees {α : Type} {context : String} {x : Except GoError α} {p q : Prop}
    (hq : ∀ e, p → x = .error e → q) :
    (orFinal context (outcome x)).Leads (Sees appId v q) (Sees appId v p)
      fun a => Sees appId v (p ∧ x = .ok a) :=
  leads_post (leads_orFinal_outcome fun _ e hr he => ⟨hr.1, hq e hr.2 he⟩) (fun _ hr => hr)
    fun _ _ hr => ⟨hr.1.1, hr.1.2, hr.2⟩

/-- A statement that leaves the view alone. -/
theorem leads_call_sees {context : String} {c : Call Unit} {x : Except GoError Unit} {p q : Prop}
    (hview : ∀ s, view appId (c s).2.db = view appId s.db) (hok : ∀ s, (c s).1.isOk = x.isOk)
    (hq : ∀ e, p → x = .error e → q) :
    (orFinal context (TaskRun.call c)).Leads (Sees appId v q) (Sees appId v p)
      fun _ => Sees appId v (p ∧ x = .ok ()) := by
  apply leads_orFinal
  intro r hr
  have hview' := (hview r.server).trans hr.1
  have hok' := hok r.server
  unfold TaskRun.call
  generalize c r.server = returned at hview' hok' ⊢
  obtain ⟨e | _, s⟩ := returned
  · refine ⟨hview', ?_⟩
    cases hx : x with
    | error e' => exact hq e' hr.2 hx
    | ok _ =>
      rw [hx] at hok'
      cases hok'
  · refine ⟨hview', hr.2, ?_⟩
    cases hx : x with
    | error e' =>
      rw [hx] at hok'
      cases hok'
    | ok _ => rfl

theorem isOk_updateApp (outcome : Except GoError Unit) (id : AppId) (set : AppRow → AppRow)
    (hset : ∀ r, (set r).id = r.id) (s : Server) :
    (updateApp outcome id set hset s).1.isOk = outcome.isOk := by
  cases outcome <;> rfl

theorem isOk_setTaskStatus (outcome : Except GoError Unit) (id message status : String)
    (now : Timestamp) (s : Server) :
    (setTaskStatus outcome id message status now s).1.isOk = outcome.isOk := by
  cases outcome <;> rfl

theorem leads_pullAirgap (env : AirgapEnv) (pendingApp : PendingApp) (registry : RegistryArgs) :
    (pullAirgap env pendingApp registry).Leads (Sees appId v (¬ env.Pulls pendingApp registry))
      (Sees appId v True) fun _ => Sees appId v (env.Pulls pendingApp registry) := by
  refine leads_bind (leads_call_sees (fun s => view_setIsAirgap env.setIsAirgap pendingApp.id)
    (isOk_updateApp _ _ _ _) fun e _ he h => ne_error h.1.1 he) fun _ => ?_
  refine leads_bind (leads_orFinal_sees fun e _ he h => ne_error h.1.2.1 he) fun _ => ?_
  refine leads_bind (leads_orFinal_sees fun e _ he h => ne_error h.1.2.2.1 he) fun _ => ?_
  refine leads_bind (leads_orFinal_sees fun e _ he h => ne_error h.1.2.2.2.1 he) fun _ => ?_
  refine leads_bind (leads_call_sees (fun s => view_setTaskStatus _ _ _ _ _)
    (isOk_setTaskStatus _ _ _ _ _) fun e _ he h => ne_error h.1.2.2.2.2.1 he) fun _ => ?_
  refine leads_bind (leads_orFinal_sees fun e _ he h => ne_error h.1.2.2.2.2.2.1 he) fun _ => ?_
  refine leads_bind (leads_orFinal_sees fun e _ he h => ne_error h.1.2.2.2.2.2.2.1 he) fun _ => ?_
  refine leads_bind (leads_orFinal_sees fun e _ he h => ne_error h.1.2.2.2.2.2.2.2.1 he) fun _ => ?_
  refine leads_bind (leads_orFinal_sees fun e _ he h => ?_) fun obj => ?_
  · obtain ⟨license, hlicense, -⟩ := h.2
    exact ne_error hlicense he
  cases obj with
  | none =>
    refine leads_bind (Q := fun _ _ => False) (leads_panic fun r hr => ⟨hr.1, fun h => ?_⟩)
      fun _ f hf => absurd hf id
    obtain ⟨license, hlicense, -⟩ := h.2
    have hsame := hlicense.symm.trans hr.2.2
    cases hsame
  | some license =>
    refine leads_pure_bind ?_
    refine leads_bind (leads_orFinal_sees fun e _ he h => ?_) fun _ => ?_
    · exact ne_error h.1.2.2.2.2.2.2.2.2.2.1 he
    refine leads_bind (leads_orFinal_sees fun e _ he h => ?_) fun _ => ?_
    · exact ne_error h.1.2.2.2.2.2.2.2.2.2.2 he
    apply leads_orFinal
    intro r hr
    obtain ⟨hview, ⟨⟨⟨⟨⟨⟨⟨⟨⟨⟨-, hairgap⟩, htmpFile⟩, hcopy⟩, hextract⟩, hpackage⟩, hworkspace⟩, hrelease⟩,
      htmpRoot⟩, hdecode⟩, hlicenseFile⟩, hwrite⟩ := hr
    unfold TaskRun.reporting
    have hview' := (view_reportLines "airgap-install" env.now env.report.lines).trans hview
    have hreaches : env.ReachesPull pendingApp :=
      ⟨hairgap, htmpFile, hcopy, hextract, hpackage, hworkspace, hrelease, htmpRoot,
        ⟨license, hdecode⟩, hlicenseFile, hwrite⟩
    cases hpull : env.pull s!"replicated://{license.appSlug}" registry with
    | error e =>
      refine ⟨hview', fun h => ?_⟩
      obtain ⟨license', hdecode', hpull'⟩ := h.2
      have hsame := hdecode'.symm.trans hdecode
      cases hsame
      exact ne_error hpull' hpull
    | ok _ => exact ⟨hview', hreaches, license, hdecode, hpull⟩

end Pull

/-! ## The downstreams -/

/-- The creation of the downstreams gets past its first insert. -/
def DownstreamsEnv.Inserts (env : DownstreamsEnv) (clusters : List ClusterRow) : Prop :=
  env.queryClusters = .ok () ∧ (∀ cluster ∈ clusters, env.scan cluster = .ok ()) ∧
    ∃ cluster, (env.range clusters).head? = some cluster ∧ env.insert cluster = .ok ()

structure DownstreamsEnv.Succeeds (env : DownstreamsEnv) : Prop where
  queryClusters : env.queryClusters = .ok ()
  scan : ∀ cluster, env.scan cluster = .ok ()
  insert : ∀ cluster, env.insert cluster = .ok ()

section Downstreams

variable {appId : AppId} {v : View}

/-- The insert of a downstream: refused, or the only change. -/
theorem insertAppDownstream_cases (outcome : Except GoError Unit) (appId : AppId)
    (cluster : ClusterRow) (s : Server) :
    (∃ e, insertAppDownstream outcome appId cluster s = (.error e, s) ∧
      (outcome = .ok () → (s.db.appDownstream.find? (appId, cluster.id)).isSome)) ∨
    ∃ table, insertAppDownstream outcome appId cluster s =
        (.ok (), { s with db := { s.db with appDownstream := table } }) ∧
      outcome = .ok () ∧
      s.db.appDownstream.insert?
        { appId := appId, clusterId := cluster.id, downstreamName := cluster.title } =
          some table := by
  unfold insertAppDownstream
  split
  next _ e => exact .inl ⟨e, rfl, fun h => by cases h⟩
  next hnone => exact .inl ⟨_, rfl, fun _ => Keyed.insert?_eq_none.mp hnone⟩
  next table htable => exact .inr ⟨table, rfl, rfl, htable⟩

/-- A downstream stays a downstream. -/
theorem hasDownstream_insert {env : DownstreamsEnv} {cluster : ClusterRow} :
    CallLeads (fun r => HasDownstream appId (view appId r.server.db))
      (fun r => HasDownstream appId (view appId r.server.db))
      (TaskRun.call (insertAppDownstream (env.insert cluster) appId cluster))
      fun _ r => HasDownstream appId (view appId r.server.db) := by
  rintro r ⟨c, hc, hrow⟩
  unfold TaskRun.call
  rcases insertAppDownstream_cases (env.insert cluster) appId cluster r.server with
    ⟨e, he, -⟩ | ⟨table, htable, -, hinsert⟩
  · rw [he]
    exact ⟨c, hc, hrow⟩
  · rw [htable]
    refine ⟨c, hc, ?_⟩
    show (table.find? (appId, c.id)).isSome
    rw [Keyed.find?_insert? hinsert]
    split
    next => rfl
    next => exact hrow

/-- The first insert leaves a downstream, or fails. -/
theorem hasDownstream_firstInsert {env : DownstreamsEnv} {cluster : ClusterRow}
    (hcluster : cluster ∈ v.cluster.rows) :
    CallLeads
      (fun r => (env.insert cluster = .ok () ∧ HasDownstream appId (view appId r.server.db)) ∨
        (env.insert cluster ≠ .ok () ∧ view appId r.server.db = v))
      (fun r => view appId r.server.db = v)
      (TaskRun.call (insertAppDownstream (env.insert cluster) appId cluster))
      fun _ r => env.insert cluster = .ok () ∧ HasDownstream appId (view appId r.server.db) := by
  intro r hr
  have hcluster' : cluster ∈ (view appId r.server.db).cluster.rows := by rw [hr]; exact hcluster
  unfold TaskRun.call
  rcases insertAppDownstream_cases (env.insert cluster) appId cluster r.server with
    ⟨e, he, htaken⟩ | ⟨table, htable, houtcome, hinsert⟩
  · rw [he]
    by_cases houtcome : env.insert cluster = .ok ()
    · exact .inl ⟨houtcome, cluster, hcluster', htaken houtcome⟩
    · exact .inr ⟨houtcome, hr⟩
  · rw [htable]
    refine ⟨houtcome, cluster, hcluster', ?_⟩
    show (table.find? (appId, cluster.id)).isSome
    rw [Keyed.find?_insert? hinsert, if_pos rfl]
    rfl

/-- What an attempt leaves: a downstream if it gets past the first insert, and otherwise nothing
that is in the way. -/
def Left (appId : AppId) (inserts : Prop) (v : View) : Prop :=
  (inserts ∧ HasDownstream appId v) ∨ (¬ inserts ∧ Retryable appId v)

variable (appId v) in
/-- The query of the clusters changes nothing. -/
theorem leads_queryClusters (env : DownstreamsEnv) {I : TaskRun → Prop}
    (hfails : ∀ r, env.queryClusters ≠ .ok () → view appId r.server.db = v → I r) :
    CallLeads I (fun r => view appId r.server.db = v)
      (TaskRun.query fun s => env.queryClusters.map fun _ => s.db.cluster.rows)
      fun clusters r => view appId r.server.db = v ∧ clusters = v.cluster.rows ∧
        env.queryClusters = .ok () := by
  intro r hr
  unfold TaskRun.query
  dsimp only
  cases houtcome : env.queryClusters with
  | error e => exact hfails r (fun hok => ne_error hok houtcome) hr
  | ok _ =>
    refine ⟨hr, ?_, rfl⟩
    rw [← hr]
    rfl

theorem leads_createDownstreams (env : DownstreamsEnv) (hv : Retryable appId v) :
    (createDownstreams env appId).Leads
      (fun r => Left appId (env.Inserts v.cluster.rows) (view appId r.server.db))
      (fun r => view appId r.server.db = v)
      fun _ r => Left appId (env.Inserts v.cluster.rows) (view appId r.server.db) := by
  have hleft : ∀ r : TaskRun, ¬ env.Inserts v.cluster.rows → view appId r.server.db = v →
      Left appId (env.Inserts v.cluster.rows) (view appId r.server.db) := by
    intro r hnot hr
    rw [hr]
    exact .inr ⟨hnot, hv⟩
  have hquery := leads_queryClusters appId v env fun r hnot hr => hleft r (fun h => hnot h.1) hr
  refine leads_bind (leads_orFinal hquery) fun clusters => ?_
  by_cases hclusters : clusters = v.cluster.rows ∧ env.queryClusters = .ok ()
  · obtain ⟨rfl, hqueried⟩ := hclusters
    refine leads_mono (P := fun r => view appId r.server.db = v) (fun r hr => hr.1) ?_
    refine leads_bind (leads_forEach_outcome fun r cluster hmem e hr he => ?_) fun _ => ?_
    · exact hleft r (fun h => ne_error (h.2.1 cluster hmem) he) hr
    -- the first insert decides
    cases hrange : env.range v.cluster.rows with
    | nil =>
      refine leads_pure fun r hr => hleft r ?_ hr.1
      rintro ⟨-, -, cluster, hhead, -⟩
      rw [hrange] at hhead
      cases hhead
    | cons cluster rest =>
      by_cases hscanned : ∀ cluster ∈ v.cluster.rows, env.scan cluster = .ok ()
      · have hmem : cluster ∈ v.cluster.rows := by
          rw [← (env.range_perm v.cluster.rows).mem_iff, hrange]
          exact List.mem_cons_self
        have hinserts : env.Inserts v.cluster.rows ↔ env.insert cluster = .ok () := by
          unfold DownstreamsEnv.Inserts
          rw [hrange]
          constructor
          · rintro ⟨-, -, cluster', hhead, hinsert⟩
            cases hhead
            exact hinsert
          · exact fun hinsert => ⟨hqueried, hscanned, cluster, rfl, hinsert⟩
        refine leads_mono (P := fun r => view appId r.server.db = v) (fun r hr => hr.1) ?_
        refine leads_bind (leads_post (leads_orFinal (hasDownstream_firstInsert hmem)) ?_
          fun _ r hr => hr) fun _ => ?_
        · rintro r (⟨hinsert, hr⟩ | ⟨hinsert, hr⟩)
          · exact .inl ⟨hinserts.mpr hinsert, hr⟩
          · exact hleft r (fun h => hinsert (hinserts.mp h)) hr
        by_cases hinsert : env.insert cluster = .ok ()
        · have hrest : (forEach rest fun cluster => orFinal "failed to create app downstream"
              (TaskRun.call (insertAppDownstream (env.insert cluster) appId cluster))).Preserves
              fun r => HasDownstream appId (view appId r.server.db) :=
            leads_forEach fun cluster _ => leads_orFinal hasDownstream_insert
          exact leads_post (leads_mono (fun r hr => hr.2) hrest)
            (fun r hr => .inl ⟨hinserts.mpr hinsert, hr⟩)
            fun _ r hr => .inl ⟨hinserts.mpr hinsert, hr⟩
        · intro f hf
          exact absurd hf.1 hinsert
      · intro f hf
        exact absurd hf.2 hscanned
  · intro f hf
    exact absurd hf.2 hclusters

/-- The inserts of a list of clusters, one of which has its downstream already. -/
theorem not_insertDownstreams (env : DownstreamsEnv) (appId : AppId) (clusters : List ClusterRow)
    (c : ClusterId) :
    (forEach clusters fun cluster => orFinal "failed to create app downstream"
      (TaskRun.call (insertAppDownstream (env.insert cluster) appId cluster))).Leads
      (fun _ => True)
      (fun r => (∃ cluster ∈ clusters, cluster.id = c) ∧
        (r.server.db.appDownstream.find? (appId, c)).isSome) fun _ _ => False := by
  induction clusters with
  | nil =>
    refine leads_pure fun r hr => ?_
    obtain ⟨cluster, hmem, -⟩ := hr.1
    cases hmem
  | cons cluster clusters ih =>
    refine leads_bind (Q := fun _ r => (∃ cluster ∈ clusters, cluster.id = c) ∧
      (r.server.db.appDownstream.find? (appId, c)).isSome) (leads_orFinal ?_) fun _ => ih
    rintro r ⟨⟨cluster', hmem, hid⟩, hrow⟩
    unfold TaskRun.call
    rcases insertAppDownstream_cases (env.insert cluster) appId cluster r.server with
      ⟨e, he, -⟩ | ⟨table, htable, -, hinsert⟩
    · rw [he]
      trivial
    · rw [htable]
      constructor
      · rcases List.mem_cons.mp hmem with rfl | hmem
        · -- the insert of this cluster cannot have succeeded
          have hfree : r.server.db.appDownstream.find? (appId, cluster'.id) = none :=
            (Keyed.insert?_eq_some hinsert).2
          rw [hid] at hfree
          rw [hfree] at hrow
          cases hrow
        · exact ⟨cluster', hmem, hid⟩
      · show (table.find? (appId, c)).isSome
        rw [Keyed.find?_insert? hinsert]
        split
        next => rfl
        next => exact hrow

/-- With a downstream already there, some insert is refused. -/
theorem not_createDownstreams (env : DownstreamsEnv) (appId : AppId) :
    (createDownstreams env appId).Leads (fun _ => True)
      (fun r => HasDownstream appId (view appId r.server.db)) fun _ _ => False := by
  have hquery : CallLeads (fun _ => True)
      (fun r : TaskRun => HasDownstream appId (view appId r.server.db))
      (TaskRun.query fun s => env.queryClusters.map fun _ => s.db.cluster.rows)
      fun clusters r => ∃ cluster ∈ clusters,
        (r.server.db.appDownstream.find? (appId, cluster.id)).isSome := by
    intro r hr
    unfold TaskRun.query
    dsimp only
    cases env.queryClusters with
    | error e => trivial
    | ok _ => exact hr
  refine leads_bind (leads_orFinal hquery) fun clusters => ?_
  refine leads_bind (leads_post (leads_forEach_outcome fun _ _ _ _ _ _ => trivial)
    (fun _ h => h) fun _ _ hr => hr.1) fun _ => ?_
  rintro f ⟨cluster, hmem, hrow⟩
  refine not_insertDownstreams env appId (env.range clusters) cluster.id f
    ⟨⟨cluster, ?_, rfl⟩, hrow⟩
  rw [(env.range_perm clusters).mem_iff]
  exact hmem

variable (v) in
/-- The inserts of distinct clusters, none of which has a downstream, go through. -/
theorem succeeds_insertDownstreams {env : DownstreamsEnv} (henv : env.Succeeds)
    {todo : List ClusterRow} (hnodup : (todo.map (·.id)).Nodup) (done : List ClusterRow)
    (hnew : ∀ cluster ∈ todo, ∀ other ∈ done, other.id ≠ cluster.id) :
    (forEach todo fun cluster => orFinal "failed to create app downstream"
      (TaskRun.call (insertAppDownstream (env.insert cluster) appId cluster))).Leads
      (fun _ => False)
      (fun r => ∃ table, view appId r.server.db = { v with appDownstream := table } ∧
        ∀ c, (table.find? (appId, c)).isSome ↔ ∃ cluster ∈ done, cluster.id = c)
      fun _ r => ∃ table, view appId r.server.db = { v with appDownstream := table } ∧
        ∀ c, (table.find? (appId, c)).isSome ↔ ∃ cluster ∈ done ++ todo, cluster.id = c := by
  induction todo generalizing done with
  | nil =>
    refine leads_pure fun r hr => ?_
    rw [List.append_nil]
    exact hr
  | cons cluster todo ih =>
    rw [List.map_cons, List.nodup_cons] at hnodup
    have hrest := ih hnodup.2 (done ++ [cluster]) (by
      intro other hother before hbefore
      rcases List.mem_append.mp hbefore with hbefore | hbefore
      · exact hnew other (List.mem_cons_of_mem _ hother) before hbefore
      · rw [List.mem_singleton.mp hbefore]
        intro heq
        exact hnodup.1 (heq ▸ List.mem_map_of_mem hother))
    rw [List.append_assoc, List.singleton_append] at hrest
    refine leads_bind (leads_orFinal ?_) fun _ => hrest
    rintro r ⟨table, hview, htable⟩
    unfold TaskRun.call
    have happ : r.server.db.appDownstream = table := congrArg View.appDownstream hview
    rcases insertAppDownstream_cases (env.insert cluster) appId cluster r.server with
      ⟨e, he, htaken⟩ | ⟨table', htable', -, hinsert⟩
    · have hrow := htaken (henv.insert cluster)
      rw [happ, htable] at hrow
      obtain ⟨other, hother, hid⟩ := hrow
      exact absurd hid (hnew cluster List.mem_cons_self other hother)
    · rw [htable']
      refine ⟨table', ?_, ?_⟩
      · show { view appId r.server.db with appDownstream := table' } = _
        rw [hview]
      · intro c
        rw [Keyed.find?_insert? hinsert, happ]
        by_cases hc : cluster.id = c
        · rw [if_pos (by rw [← hc])]
          refine iff_of_true rfl ⟨cluster, ?_, hc⟩
          exact List.mem_append_right _ List.mem_cons_self
        · rw [if_neg (by simpa [AppDownstreamRow.key] using hc), htable]
          simp [hc]

/-- Without downstreams and failures, every cluster becomes one. -/
theorem succeeds_createDownstreams {env : DownstreamsEnv} (henv : env.Succeeds)
    (hv : Retryable appId v) :
    (createDownstreams env appId).Leads (fun _ => False) (fun r => view appId r.server.db = v)
      fun _ r => Prepared appId (view appId r.server.db) := by
  have hquery := leads_queryClusters appId v env (I := fun _ => False)
    fun r hnot _ => hnot henv.queryClusters
  refine leads_bind (leads_orFinal hquery) fun clusters => ?_
  by_cases hclusters : clusters = v.cluster.rows
  · subst hclusters
    refine leads_bind (leads_post (leads_forEach_outcome fun _ cluster _ e _ he => ?_)
      (fun _ h => h) fun _ _ hr => hr.1.1) fun _ => ?_
    · exact ne_error (henv.scan cluster) he
    have hperm := env.range_perm v.cluster.rows
    have hnodup : ((env.range v.cluster.rows).map (·.id)).Nodup :=
      (hperm.map (·.id)).nodup_iff.mpr v.cluster.nodup
    refine leads_post (leads_mono ?_
      (succeeds_insertDownstreams v henv hnodup [] fun _ _ _ hother => by cases hother))
      (fun _ h => h) ?_
    · intro r hr
      refine ⟨v.appDownstream, hr, fun c => ?_⟩
      simp [hv.downstream c]
    · rintro _ r ⟨table, hview, htable⟩
      rw [hview]
      refine ⟨hv.row, hv.version, fun c => ?_, hv.downstreamVersion⟩
      dsimp only
      rw [htable, List.nil_append]
      simp only [hperm.mem_iff]
  · intro f hf
    exact absurd hf.2.1 hclusters

end Downstreams

/-! ## The version -/

section Version

variable {appId : AppId} {env : VersionEnv} {filesInDir source : String} {s : Server} {tx : Database}

/-- What the transaction of a first version does to the view. -/
theorem view_createVersionTx
    (htx : createVersionTx env appId filesInDir source none s = .ok (0, tx)) :
    (view appId tx).current = (view appId s.db).current.map (fun _ => some 0) ∧
      (view appId tx).cluster = s.db.cluster ∧
      (view appId tx).appDownstream = s.db.appDownstream ∧
      ∀ n, ((view appId tx).appVersion.find? (appId, n)).isSome ↔
        (s.db.appVersion.find? (appId, n)).isSome ∨ n = 0 := by
  obtain ⟨-, hcreated⟩ := created_createVersionTx htx
  obtain ⟨name, icon, happ⟩ := hcreated.app
  obtain ⟨now, columns, hversion⟩ := hcreated.appVersion
  have hframe := frame_createVersionTx htx
  refine ⟨?_, ?_, hcreated.appDownstream, fun n => ?_⟩
  · unfold view
    dsimp only
    rw [happ]
    unfold KotsAppStore.updateAppVersion
    dsimp only
    rw [Keyed.find?_updateWhere, Option.map_map, Option.map_map]
    cases hrow : s.db.app.find? appId with
    | none => rfl
    | some row =>
      have hid : row.id = appId := (Keyed.find?_eq_some.mp hrow).2
      simp [hid]
  · show tx.cluster = _
    rw [hframe]
  · show (tx.appVersion.find? (appId, n)).isSome ↔ _
    rw [hversion]
    unfold KotsAppStore.upsertAppVersion
    dsimp only
    rw [Keyed.find?_upsert]
    by_cases hn : n = 0
    · simp [hn, AppVersionRow.key]
    · simp [Ne.symm hn, hn, AppVersionRow.key]

theorem createFirstVersion_cases (env : VersionEnv) (appId : AppId) (filesInDir source : String)
    (s : Server) :
    (∃ e, createFirstVersion env appId filesInDir source s = (.error e, s)) ∨
    ∃ tx, createFirstVersion env appId filesInDir source s = (.ok 0, { s with db := tx }) ∧
      createVersionTx env appId filesInDir source none s = .ok (0, tx) := by
  unfold createFirstVersion createVersion
  split
  next e _ => exact .inl ⟨e, rfl⟩
  next sequence tx htx =>
    obtain ⟨hsequence, -⟩ := created_createVersionTx htx
    have hzero : sequence = 0 := by
      cases hsequence
      rfl
    subst hzero
    exact .inr ⟨tx, rfl, htx⟩

/-- Without a downstream no downstream version is written. -/
theorem retryable_createVersionTx (hs : Retryable appId (view appId s.db))
    (htx : createVersionTx env appId filesInDir source none s = .ok (0, tx)) :
    Retryable appId (view appId tx) := by
  obtain ⟨hcurrent, -, hdownstream, hversion⟩ := view_createVersionTx htx
  constructor
  case row =>
    rw [hcurrent, Option.isSome_map]
    exact hs.row
  case version =>
    intro n hn
    rcases (hversion n).mp hn with hold | rfl
    · exact hs.version n hold
    · rfl
  case downstream =>
    rw [hdownstream]
    exact hs.downstream
  case downstreamVersion =>
    intro c n
    rw [← Option.not_isSome_iff_eq_none]
    intro hrow
    rcases (find?_createVersionTx htx _).mp hrow with hold | ⟨d, hd, happ, -⟩
    · have hnone : s.db.appDownstreamVersion.find? (appId, c, n) = none := hs.downstreamVersion c n
      rw [hnone] at hold
      cases hold
    · have hnone : s.db.appDownstream.find? (appId, d.clusterId) = none := hs.downstream d.clusterId
      have hkey : d.key = (appId, d.clusterId) := by
        show (d.appId, d.clusterId) = _
        rw [happ]
      have hsome := Keyed.find?_isSome_of_mem hd
      rw [hkey, hnone] at hsome
      cases hsome

theorem left_createFirstVersion {inserts : Prop} (hs : Left appId inserts (view appId s.db)) :
    Left appId inserts (view appId (createFirstVersion env appId filesInDir source s).2.db) := by
  rcases createFirstVersion_cases env appId filesInDir source s with ⟨e, he⟩ | ⟨tx, hcreate, htx⟩
  · rw [he]
    exact hs
  · rw [hcreate]
    rcases hs with ⟨hinserts, c, hc, hrow⟩ | ⟨hnot, hretryable⟩
    · obtain ⟨-, hcluster, hdownstream, -⟩ := view_createVersionTx htx
      refine .inl ⟨hinserts, c, ?_, ?_⟩
      · rw [hcluster]
        exact hc
      · rw [hdownstream]
        exact hrow
    · exact .inr ⟨hnot, retryable_createVersionTx hretryable htx⟩

theorem installed_createFirstVersion (henv : env.Succeeds filesInDir) (source : String)
    (hs : Prepared appId (view appId s.db)) :
    ∃ s', createFirstVersion env appId filesInDir source s = (.ok 0, s') ∧
      Installed appId (view appId s'.db) := by
  have hrow : (s.db.app.find? appId).isSome := by
    have hcurrent := hs.row
    unfold view at hcurrent
    rw [Option.isSome_map] at hcurrent
    exact hcurrent
  obtain ⟨tx, htx⟩ := createFirstVersion_isOk henv source hrow
    fun d _ _ => hs.downstreamVersion d.clusterId 0
  refine ⟨{ s with db := tx }, by unfold createFirstVersion createVersion; rw [htx], ?_⟩
  obtain ⟨hcurrent, hcluster, hdownstream, hversion⟩ := view_createVersionTx htx
  constructor
  case current =>
    rw [hcurrent]
    obtain ⟨current, heq⟩ := Option.isSome_iff_exists.mp hs.row
    rw [heq]
    rfl
  case version =>
    intro n
    rw [hversion]
    exact or_iff_right_of_imp (hs.version n)
  case downstream =>
    rw [hdownstream, hcluster]
    exact hs.downstream
  case downstreamVersion =>
    intro c n
    rw [hcluster]
    have hnone : s.db.appDownstreamVersion.find? (appId, c, n) = none := hs.downstreamVersion c n
    have hrows := find?_createVersionTx htx (appId, c, n)
    rw [hnone, or_iff_right (by simp)] at hrows
    refine hrows.trans ⟨?_, ?_⟩
    · rintro ⟨d, hd, happ, hkey⟩
      cases hkey
      refine ⟨rfl, (hs.downstream d.clusterId).mp ?_⟩
      have hsome := Keyed.find?_isSome_of_mem hd
      have hdkey : d.key = (appId, d.clusterId) := by
        show (d.appId, d.clusterId) = _
        rw [happ]
      rw [hdkey] at hsome
      exact Option.isSome_of_eq_some hsome
    · rintro ⟨rfl, hcluster'⟩
      have hsome := (hs.downstream c).mpr hcluster'
      obtain ⟨d, hd⟩ := Option.isSome_iff_exists.mp hsome
      obtain ⟨hmem, hkey⟩ := Keyed.find?_eq_some.mp hd
      cases hkey
      exact ⟨d, hmem, rfl, rfl⟩

end Version

/-! ## What a failed attempt leaves -/

section Failed

variable {appId : AppId} {inserts : Prop}

/-- The view of the server satisfies `p`. -/
abbrev Viewed (appId : AppId) (p : View → Prop) (r : TaskRun) : Prop := p (view appId r.server.db)

theorem left_call {α : Type} {context : String} {c : Call α}
    (hview : ∀ s, view appId (c s).2.db = view appId s.db) :
    (orFinal context (TaskRun.call c)).Preserves (Viewed appId (Left appId inserts)) := by
  apply preserves_orFinal
  intro r hr
  show Left appId inserts (view appId (c r.server).2.db)
  rw [hview]
  exact hr

theorem left_firstVersion {context : String} (env : VersionEnv) (filesInDir source : String) :
    (orFinal context (TaskRun.call (createFirstVersion env appId filesInDir source))).Preserves
      (Viewed appId (Left appId inserts)) := by
  apply preserves_orFinal
  intro r hr
  exact left_createFirstVersion hr

theorem left_installOnline (env : OnlineEnv) (pendingApp : PendingApp) {v : View}
    (hv : Retryable pendingApp.id v) :
    (installOnline env pendingApp).Leads
      (Viewed pendingApp.id (Left pendingApp.id (env.downstreams.Inserts v.cluster.rows)))
      (Viewed pendingApp.id (· = v))
      fun _ => Viewed pendingApp.id (Left pendingApp.id (env.downstreams.Inserts v.cluster.rows)) := by
  refine leads_bind (leads_createDownstreams env.downstreams hv) fun _ => ?_
  refine preserves_bind (left_call fun s => view_setInstalled _ _ _) fun _ => ?_
  refine preserves_bind (left_firstVersion _ _ _) fun newSequence => ?_
  refine preserves_bind (left_call fun s => view_createAppVersionArchive _ _ _) fun _ => ?_
  exact preserves_orFinal fun _ hr => hr

/-- The app that is read is the pending app. -/
theorem leads_getApp {P : TaskRun → Prop} {context : String} (outcome : Except GoError Unit)
    (id : AppId) :
    (orFinal context (TaskRun.query fun s => App.get outcome s.db id)).Leads P P
      fun a r => P r ∧ a.id = id := by
  apply leads_orFinal
  intro r hr
  unfold TaskRun.query
  dsimp only
  cases ha : App.get outcome r.server.db id with
  | error e => exact hr
  | ok a => exact ⟨hr, id_of_get ha⟩

theorem left_installAirgap (env : AirgapEnv) (pendingApp : PendingApp) (registry : RegistryArgs)
    {v : View} (hv : Retryable pendingApp.id v) :
    (installAirgap env pendingApp registry).Leads
      (Viewed pendingApp.id (Left pendingApp.id (env.downstreams.Inserts v.cluster.rows)))
      (Viewed pendingApp.id (· = v))
      fun _ => Viewed pendingApp.id (Left pendingApp.id (env.downstreams.Inserts v.cluster.rows)) := by
  refine leads_bind (leads_createDownstreams env.downstreams hv) fun _ => ?_
  refine leads_bind (leads_getApp _ _) fun a => ?_
  by_cases hid : a.id = pendingApp.id
  · rw [hid]
    refine leads_mono (fun r hr => hr.1) ?_
    refine preserves_bind (left_call fun s => view_updateRegistry _ _ _ _) fun _ => ?_
    refine preserves_bind (left_call fun s => view_setInstalled _ _ _) fun _ => ?_
    refine preserves_bind (left_firstVersion _ _ _) fun newSequence => ?_
    exact left_call fun s => view_createAppVersionArchive _ _ _
  · exact fun f hf => absurd hf.2 hid

/-- A pull before an installation, seen from both ends. -/
theorem left_pull {α : Type} {pull : Body TaskRun Unit} {install : Body TaskRun α} {p q : Prop}
    {v : View} (hv : Retryable appId v)
    (hpull : pull.Leads (Sees appId v (¬ p)) (Sees appId v True) fun _ => Sees appId v p)
    (hinstall : install.Leads (Viewed appId (Left appId q)) (Viewed appId (· = v))
      fun _ => Viewed appId (Left appId q)) :
    (pull >>= fun _ => install).Leads (Viewed appId (Left appId (p ∧ q))) (Viewed appId (· = v))
      fun _ => Viewed appId (Left appId (p ∧ q)) := by
  refine leads_mono (P := Sees appId v True) (fun r hr => ⟨hr, trivial⟩) ?_
  refine leads_bind (leads_post hpull ?_ fun _ r hr => hr) fun _ => ?_
  · rintro r ⟨hview, hnot⟩
    rw [Viewed, hview]
    exact .inr ⟨fun h => hnot h.1, hv⟩
  by_cases hp : p
  · have hiff : (p ∧ q) = q := propext (and_iff_right hp)
    rw [hiff]
    exact leads_mono (fun r hr => hr.1) hinstall
  · exact fun f hf => absurd hf.2 hp

end Failed

/-- What the report writer and the deferred function do to the view. -/
theorem viewed_runTask {α : Type} {appId : AppId} {p : View → Prop} {v : View} {id : String}
    {now : Timestamp} {env : HandlerEnv} {errorState : InstallState} {body : Body TaskRun α}
    {s : Server}
    (hbody : body.Leads (Viewed appId p) (Viewed appId (· = v)) fun _ => Viewed appId p)
    (hs : view appId s.db = v) :
    p (view appId (runTask id now (installHandler env id now appId errorState) body s).2.db) := by
  refine runTask_leads (I := fun s => p (view appId s.db)) (P := fun s => view appId s.db = v)
    hbody ?_ ?_ hs
  · intro e s hp
    rw [view_installHandler]
    exact hp
  · intro lines s hp
    rw [view_reportLines]
    exact hp

/-! ## What a second attempt comes to -/

/-- Nothing outside fails. -/
structure OnlineEnv.Succeeds (env : OnlineEnv) (upstreamURI : String) : Prop where
  uploadingStatus : env.uploadingStatus = .ok ()
  pulls : env.Pulls upstreamURI
  downstreams : env.downstreams.Succeeds
  setInstalled : env.setInstalled = .ok ()
  version : env.version.Succeeds "tmpRoot"
  archive : env.archive.isOk
  loadKotsKinds : env.loadKotsKinds.isOk

@[inherit_doc OnlineEnv.Succeeds]
structure AirgapEnv.Succeeds (env : AirgapEnv) (pendingApp : PendingApp) (registry : RegistryArgs) :
    Prop where
  processingStatus : env.processingStatus = .ok ()
  pulls : env.Pulls pendingApp registry
  downstreams : env.downstreams.Succeeds
  getApp : env.getApp = .ok ()
  cipher : env.cipher = .ok ()
  updateRegistry : env.updateRegistry = .ok ()
  setInstalled : env.setInstalled = .ok ()
  version : env.version.Succeeds "tmpRoot"
  archive : env.archive.isOk

section Second

variable {appId : AppId} {p : View → Prop}

/-- A call that succeeds and leaves the view alone. -/
theorem succeeds_call {α : Type} {context : String} {c : Call Unit} {x : Except GoError α}
    (hok : ∀ s, (c s).1.isOk = x.isOk) (hx : x.isOk)
    (hview : ∀ s, view appId (c s).2.db = view appId s.db) :
    (orFinal context (TaskRun.call c)).Leads (fun _ => False) (Viewed appId p)
      fun _ => Viewed appId p := by
  apply leads_orFinal
  intro r hr
  have hok' := hok r.server
  rw [hx] at hok'
  have hview' : p (view appId (c r.server).2.db) := by rw [hview]; exact hr
  unfold TaskRun.call
  generalize c r.server = returned at hok' hview' ⊢
  obtain ⟨e | _, s⟩ := returned
  · cases hok'
  · exact hview'

theorem succeeds_outcome {α : Type} {context : String} {x : Except GoError α} (hx : x.isOk) :
    (orFinal context (outcome x)).Leads (fun _ => False) (Viewed appId p)
      fun _ => Viewed appId p := by
  apply leads_orFinal
  intro r hr
  unfold outcome
  dsimp only
  cases x with
  | error e => cases hx
  | ok a => exact hr

theorem succeeds_firstVersion {context : String} {env : VersionEnv} {filesInDir : String}
    (henv : env.Succeeds filesInDir) (source : String) :
    (orFinal context (TaskRun.call (createFirstVersion env appId filesInDir source))).Leads
      (fun _ => False) (Viewed appId (Prepared appId)) fun _ => Viewed appId (Installed appId) := by
  apply leads_orFinal
  intro r hr
  obtain ⟨s', hcreate, hinstalled⟩ := installed_createFirstVersion henv source hr
  unfold TaskRun.call
  rw [hcreate]
  exact hinstalled

theorem isOk_createAppVersionArchive (packed : Except GoError String) (id : AppId) (sequence : Int)
    (s : Server) : (createAppVersionArchive packed id sequence s).1.isOk = packed.isOk := by
  cases packed <;> rfl

theorem succeeds_installOnline {env : OnlineEnv} {upstreamURI : String}
    (henv : env.Succeeds upstreamURI) (pendingApp : PendingApp) {v : View}
    (hv : Retryable pendingApp.id v) :
    (installOnline env pendingApp).Leads (fun _ => False) (Viewed pendingApp.id (· = v))
      fun _ => Viewed pendingApp.id (Installed pendingApp.id) := by
  refine leads_bind (succeeds_createDownstreams henv.downstreams hv) fun _ => ?_
  refine leads_bind (succeeds_call (isOk_updateApp _ _ _ _) (by rw [henv.setInstalled]; rfl)
    fun s => view_setInstalled _ _ _) fun _ => ?_
  refine leads_bind (succeeds_firstVersion henv.version _) fun newSequence => ?_
  refine leads_bind (succeeds_call (isOk_createAppVersionArchive _ _ _) henv.archive
    fun s => view_createAppVersionArchive _ _ _) fun _ => ?_
  exact succeeds_outcome henv.loadKotsKinds

theorem succeeds_getApp {context : String} (hp : ∀ v, p v → v.current.isSome) :
    (orFinal context (TaskRun.query fun s => App.get (.ok ()) s.db appId)).Leads (fun _ => False)
      (Viewed appId p) fun a r => Viewed appId p r ∧ a.id = appId := by
  apply leads_orFinal
  intro r hr
  have hcurrent := hp _ hr
  unfold view at hcurrent
  rw [Option.isSome_map] at hcurrent
  obtain ⟨a, ha⟩ := get_isOk rfl hcurrent
  unfold TaskRun.query
  dsimp only
  rw [ha]
  exact ⟨hr, id_of_get ha⟩

theorem succeeds_installAirgap {env : AirgapEnv} {pendingApp : PendingApp} {registry : RegistryArgs}
    (henv : env.Succeeds pendingApp registry) {v : View} (hv : Retryable pendingApp.id v) :
    (installAirgap env pendingApp registry).Leads (fun _ => False) (Viewed pendingApp.id (· = v))
      fun _ => Viewed pendingApp.id (Installed pendingApp.id) := by
  refine leads_bind (succeeds_createDownstreams henv.downstreams hv) fun _ => ?_
  rw [henv.getApp]
  refine leads_bind (succeeds_getApp fun _ hv => hv.row) fun a => ?_
  by_cases hid : a.id = pendingApp.id
  · rw [hid]
    refine leads_mono (fun r hr => hr.1) ?_
    have hregistry : ∀ settings s, (updateRegistry env.cipher env.updateRegistry pendingApp.id
        settings s).1.isOk = true := by
      intro settings s
      rw [henv.cipher, henv.updateRegistry]
      rfl
    refine leads_bind (succeeds_call (x := .ok ()) (fun s => hregistry _ s) rfl
      fun s => view_updateRegistry _ _ _ _) fun _ => ?_
    refine leads_bind (succeeds_call (isOk_updateApp _ _ _ _) (by rw [henv.setInstalled]; rfl)
      fun s => view_setInstalled _ _ _) fun _ => ?_
    refine leads_bind (succeeds_firstVersion henv.version _) fun newSequence => ?_
    exact succeeds_call (isOk_createAppVersionArchive _ _ _) henv.archive
      fun s => view_createAppVersionArchive _ _ _
  · exact fun f hf => absurd hf.2 hid

/-- A body that cannot fail. -/
theorem succeeds_runTask {α : Type} {v : View} {id : String} {now : Timestamp} {env : HandlerEnv}
    {errorState : InstallState} {body : Body TaskRun α} {s : Server}
    (hbody : body.Leads (fun _ => False) (Viewed appId (· = v)) fun _ => Viewed appId p)
    (hs : view appId s.db = v) :
    (runTask id now (installHandler env id now appId errorState) body s).1.isOk ∧
      p (view appId (runTask id now (installHandler env id now appId errorState) body s).2.db) := by
  have hhandler : ∀ e s, p (view appId s.db) →
      p (view appId (installHandler env id now appId errorState e s).db) := by
    intro e s hp
    rw [view_installHandler]
    exact hp
  have hlines : ∀ lines s, p (view appId s.db) →
      p (view appId (reportLines id now lines s).db) := by
    intro lines s hp
    rw [view_reportLines]
    exact hp
  have hend := runTask_result (I := fun _ => False) (P := fun s => view appId s.db = v)
    (Q := fun s => p (view appId s.db)) hbody hhandler hlines hs
  exact hend.resolve_right fun h => h.2.elim fun _ hfalse => hfalse

/-- A body that cannot succeed. -/
theorem blocked_runTask {α : Type} {v : View} {id : String} {now : Timestamp} {env : HandlerEnv}
    {errorState : InstallState} {body : Body TaskRun α} {s : Server}
    (hbody : body.Leads (fun _ => True) (Viewed appId (· = v)) fun _ => Viewed appId fun _ => False)
    (hs : view appId s.db = v) :
    (runTask id now (installHandler env id now appId errorState) body s).1.isOk = false := by
  refine (Or.resolve_left (runTask_result (I := fun _ => True) (P := fun s => view appId s.db = v)
    (Q := fun _ => False) hbody ?_ ?_ hs) fun h => h.2).1
  · exact fun _ _ h => h
  · exact fun _ _ h => h

theorem blocked_install {α : Type} {v : View} {create : Body TaskRun Unit}
    {rest : Unit → Body TaskRun α}
    (hcreate : create.Leads (fun _ => True) (Viewed appId (HasDownstream appId)) fun _ _ => False)
    (hv : HasDownstream appId v) :
    (create >>= rest).Leads (fun _ => True) (Viewed appId (· = v))
      fun _ => Viewed appId fun _ => False := by
  refine leads_bind (leads_mono ?_ hcreate) fun _ => ?_
  · intro r hr
    rw [Viewed, hr]
    exact hv
  · exact fun f hf => absurd hf id

end Second

/-! ## Retrying -/

inductive Attempt where
  | online (env : OnlineEnv) (upstreamURI : String)
  | airgap (env : AirgapEnv) (registry : RegistryArgs)

namespace Attempt

variable (pendingApp : PendingApp)

/-- Whether the attempt succeeds, and what it leaves. -/
def run (s : Server) : Attempt → Bool × Server
  | online env upstreamURI =>
    let (result, s) := createAppFromOnline env pendingApp upstreamURI s
    (result.isOk, s)
  | airgap env registry =>
    let (result, s) := createAppFromAirgap env pendingApp registry s
    (result.isOk, s)

/-- The attempt gets past the first insert of a downstream. -/
def InsertsDownstream (clusters : List ClusterRow) : Attempt → Prop
  | online env upstreamURI =>
    env.uploadingStatus = .ok () ∧ env.Pulls upstreamURI ∧ env.downstreams.Inserts clusters
  | airgap env registry =>
    env.processingStatus = .ok () ∧ env.Pulls pendingApp registry ∧
      env.downstreams.Inserts clusters

def Succeeds : Attempt → Prop
  | online env upstreamURI => env.Succeeds upstreamURI
  | airgap env registry => env.Succeeds pendingApp registry

variable {pendingApp} {s : Server}

theorem run_online_unset {env : OnlineEnv} {upstreamURI : String} {e : GoError}
    (h : env.uploadingStatus = .error e) :
    (online env upstreamURI).run pendingApp s = (false, s) := by
  unfold run createAppFromOnline
  dsimp only
  rw [h]
  rfl

theorem run_online_set (pendingApp : PendingApp) (s : Server) {env : OnlineEnv}
    (upstreamURI : String) (h : env.uploadingStatus = .ok ()) :
    ∃ s' returned, view pendingApp.id s'.db = view pendingApp.id s.db ∧
      returned = runTask "online-install" env.now
        (installHandler env.handler "online-install" env.now pendingApp.id .installError)
        (do pullOnline env upstreamURI; installOnline env pendingApp) s' ∧
      (online env upstreamURI).run pendingApp s = (returned.1.isOk, returned.2) := by
  refine ⟨_, _, view_setTaskStatus (.ok ()) "online-install" "Uploading license..." "running"
    env.now, rfl, ?_⟩
  unfold run createAppFromOnline
  dsimp only
  rw [h]
  rfl

theorem run_airgap_unset {env : AirgapEnv} {registry : RegistryArgs} {e : GoError}
    (h : env.processingStatus = .error e) :
    (airgap env registry).run pendingApp s = (false, s) := by
  unfold run createAppFromAirgap
  dsimp only
  rw [h]
  rfl

theorem run_airgap_set (pendingApp : PendingApp) (s : Server) {env : AirgapEnv}
    (registry : RegistryArgs) (h : env.processingStatus = .ok ()) :
    ∃ s' returned, view pendingApp.id s'.db = view pendingApp.id s.db ∧
      returned = runTask "airgap-install" env.now
        (installHandler env.handler "airgap-install" env.now pendingApp.id .airgapUploadError)
        (do pullAirgap env pendingApp registry; installAirgap env pendingApp registry) s' ∧
      (airgap env registry).run pendingApp s = (returned.1.isOk, returned.2) := by
  refine ⟨_, _, view_setTaskStatus (.ok ()) "airgap-install" "Processing package..." "running"
    env.now, rfl, ?_⟩
  unfold run createAppFromAirgap
  dsimp only
  rw [h]
  rfl

/-- What a first attempt leaves, whatever it comes to. -/
theorem left_run (attempt : Attempt) (hs : Retryable pendingApp.id (view pendingApp.id s.db)) :
    Left pendingApp.id (attempt.InsertsDownstream pendingApp s.db.cluster.rows)
      (view pendingApp.id (attempt.run pendingApp s).2.db) := by
  cases attempt with
  | online env upstreamURI =>
    cases hstatus : env.uploadingStatus with
    | error e =>
      rw [run_online_unset hstatus]
      exact .inr ⟨fun h => ne_error h.1 hstatus, hs⟩
    | ok _ =>
      obtain ⟨s', returned, hview, hreturned, hrun⟩ := run_online_set pendingApp s upstreamURI hstatus
      have hinserts : (online env upstreamURI).InsertsDownstream pendingApp s.db.cluster.rows =
          (env.Pulls upstreamURI ∧
            env.downstreams.Inserts (view pendingApp.id s.db).cluster.rows) :=
        propext (and_iff_right hstatus)
      rw [hinserts, hrun, hreturned]
      dsimp only
      have hbody := left_pull hs (leads_pullOnline env upstreamURI)
        (left_installOnline env pendingApp hs)
      exact viewed_runTask hbody hview
  | airgap env registry =>
    cases hstatus : env.processingStatus with
    | error e =>
      rw [run_airgap_unset hstatus]
      exact .inr ⟨fun h => ne_error h.1 hstatus, hs⟩
    | ok _ =>
      obtain ⟨s', returned, hview, hreturned, hrun⟩ := run_airgap_set pendingApp s registry hstatus
      have hinserts : (airgap env registry).InsertsDownstream pendingApp s.db.cluster.rows =
          (env.Pulls pendingApp registry ∧
            env.downstreams.Inserts (view pendingApp.id s.db).cluster.rows) :=
        propext (and_iff_right hstatus)
      rw [hinserts, hrun, hreturned]
      dsimp only
      have hbody := left_pull hs (leads_pullAirgap env pendingApp registry)
        (left_installAirgap env pendingApp registry hs)
      exact viewed_runTask hbody hview

/-- A pull that succeeds, before an installation. -/
theorem succeeds_pull {α : Type} {pull : Body TaskRun Unit} {install : Body TaskRun α} {q : Prop}
    {appId : AppId} {v : View} {p : View → Prop} {I : TaskRun → Prop} (hq : q)
    (hpull : pull.Leads (Sees appId v (¬ q)) (Sees appId v True) fun _ => Sees appId v q)
    (hinstall : install.Leads I (Viewed appId (· = v)) fun _ => Viewed appId p) :
    (pull >>= fun _ => install).Leads I (Viewed appId (· = v)) fun _ => Viewed appId p := by
  refine leads_mono (P := Sees appId v True) (fun r hr => ⟨hr, trivial⟩) ?_
  refine leads_bind (leads_post hpull ?_ fun _ r hr => hr) fun _ => ?_
  · exact fun r hr => absurd hq hr.2
  · exact leads_mono (fun r hr => hr.1) hinstall

theorem installed_run {attempt : Attempt} (hattempt : attempt.Succeeds pendingApp)
    (hs : Retryable pendingApp.id (view pendingApp.id s.db)) :
    (attempt.run pendingApp s).1 = true ∧
      Installed pendingApp.id (view pendingApp.id (attempt.run pendingApp s).2.db) := by
  cases attempt with
  | online env upstreamURI =>
    have henv : env.Succeeds upstreamURI := hattempt
    obtain ⟨s', returned, hview, hreturned, hrun⟩ := run_online_set pendingApp s upstreamURI henv.uploadingStatus
    rw [hrun, hreturned]
    exact succeeds_runTask (succeeds_pull henv.pulls (leads_pullOnline env upstreamURI)
      (succeeds_installOnline henv pendingApp hs)) hview
  | airgap env registry =>
    have henv : env.Succeeds pendingApp registry := hattempt
    obtain ⟨s', returned, hview, hreturned, hrun⟩ := run_airgap_set pendingApp s registry henv.processingStatus
    rw [hrun, hreturned]
    exact succeeds_runTask (succeeds_pull henv.pulls (leads_pullAirgap env pendingApp registry)
      (succeeds_installAirgap henv hs)) hview

/-- With a downstream already there, no attempt that gets to the downstreams gets past them. -/
theorem blocked_run {attempt : Attempt} (hattempt : attempt.Succeeds pendingApp)
    (hs : HasDownstream pendingApp.id (view pendingApp.id s.db)) :
    (attempt.run pendingApp s).1 = false := by
  cases attempt with
  | online env upstreamURI =>
    have henv : env.Succeeds upstreamURI := hattempt
    obtain ⟨s', returned, hview, hreturned, hrun⟩ := run_online_set pendingApp s upstreamURI henv.uploadingStatus
    rw [hrun, hreturned]
    exact blocked_runTask (succeeds_pull henv.pulls (leads_pullOnline env upstreamURI)
      (blocked_install (not_createDownstreams _ _) hs)) hview
  | airgap env registry =>
    have henv : env.Succeeds pendingApp registry := hattempt
    obtain ⟨s', returned, hview, hreturned, hrun⟩ := run_airgap_set pendingApp s registry henv.processingStatus
    rw [hrun, hreturned]
    exact blocked_runTask (succeeds_pull henv.pulls (leads_pullAirgap env pendingApp registry)
      (blocked_install (not_createDownstreams _ _) hs)) hview

/-- A retry installs the app unless the attempt before it got past its first insert of a
downstream. -/
theorem retry_installs_iff (hs : Retryable pendingApp.id (view pendingApp.id s.db))
    (first : Attempt) {second : Attempt} (hsecond : second.Succeeds pendingApp) :
    ((second.run pendingApp (first.run pendingApp s).2).1 = true ∧
      Installed pendingApp.id
        (view pendingApp.id (second.run pendingApp (first.run pendingApp s).2).2.db)) ↔
      ¬ first.InsertsDownstream pendingApp s.db.cluster.rows := by
  rcases left_run first hs with ⟨hinserts, hleft⟩ | ⟨hnot, hleft⟩
  · refine iff_of_false ?_ (not_not_intro hinserts)
    rintro ⟨hok, -⟩
    rw [blocked_run hsecond hleft] at hok
    cases hok
  · exact iff_of_true (installed_run hsecond hleft) hnot

/-! ### An attempt that stops after the downstreams, and one that stops before them -/

/-- A pending app and one cluster. -/
def oneCluster : Server where
  db :=
    { app := .single {
        id := "app", name := "App", slug := "app", installState := .onlineUploadPending }
      cluster := .single { id := "cluster", title := "Cluster", token := "token" } }

def successful : Attempt := .online { version := titledEnv } "replicated://app"

theorem retryable_oneCluster : Retryable "app" (view "app" oneCluster.db) where
  row := rfl
  version := fun n hn => by cases hn
  downstream := fun _ => rfl
  downstreamVersion := fun _ _ => rfl

theorem succeeds_successful : successful.Succeeds somePendingApp where
  uploadingStatus := rfl
  pulls := ⟨rfl, ⟨rfl, rfl, "", rfl, fun h => absurd rfl h⟩, rfl⟩
  downstreams := ⟨rfl, fun _ => rfl, fun _ => rfl⟩
  setInstalled := rfl
  version := ⟨⟨{ title := "App" }, rfl, fun _ => rfl⟩, fun _ => rfl, fun _ _ _ => rfl,
    fun _ _ => rfl, fun _ _ _ => rfl⟩
  archive := rfl
  loadKotsKinds := rfl

def pullFails : Attempt :=
  .online { version := titledEnv, pull := fun _ => .error { cause := "no such release" } }
    "replicated://app"

def archiveFails : Attempt :=
  .online { version := titledEnv, archive := .error { cause := "no space left on device" } }
    "replicated://app"

/-- The retry after a failed pull installs the app. -/
theorem retry_installs_pullFails :
    (pullFails.run somePendingApp oneCluster).1 = false ∧
      (successful.run somePendingApp (pullFails.run somePendingApp oneCluster).2).1 = true ∧
      Installed "app"
        (view "app" (successful.run somePendingApp (pullFails.run somePendingApp oneCluster).2).2.db) := by
  refine ⟨by decide, (retry_installs_iff retryable_oneCluster pullFails succeeds_successful).mpr ?_⟩
  rintro ⟨-, ⟨-, -, hpull⟩, -⟩
  cases hpull

/-- The retry after a failed upload of the archive finds its downstream taken. -/
theorem not_retry_installs_archiveFails :
    Retryable "app" (view "app" oneCluster.db) ∧
      (archiveFails.run somePendingApp oneCluster).1 = false ∧
      successful.Succeeds somePendingApp ∧
      (successful.run somePendingApp (archiveFails.run somePendingApp oneCluster).2).1 = false :=
  ⟨retryable_oneCluster, by decide, succeeds_successful, by decide⟩

end Attempt

end Kotsadm.Flows
