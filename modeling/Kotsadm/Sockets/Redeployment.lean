import Kotsadm.Sockets.Ticks

/-!
# Redeployment — what an undeploy leaves in `lastDeployedSequences`

The undeploy of a restore is a `deploy` event too, but it leaves the map of the connection alone.
When the restore ends, `deployLoop` takes the version in the map for the deployed one.
-/

namespace Kotsadm.Ticks

open KotsAppStore

/-- What the connection has received last for the app. -/
def lastMessage (w : World) (history : ClusterSocketHistory) (appId : AppId) : Option Message :=
  w.messages.find? fun m => m.receivers.contains history && m.args.appId = appId

def DeployedLast (w : World) (history : ClusterSocketHistory) (appId : AppId) (sequence : Int) :
    Prop :=
  ∃ m seen, lastMessage w history appId = some m ∧ m.purpose = .deploy seen ∧
    seen.sequence = sequence

def UndeployedLast (w : World) (history : ClusterSocketHistory) (appId : AppId) : Prop :=
  ∃ m restore, lastMessage w history appId = some m ∧ m.purpose = .undeploy restore

/-- Without a restore in progress, the version that is remembered for a connection was deployed to it
last, and an app that was undeployed last passes the check of `deployLoop`. -/
structure Redeployed (s : State) : Prop where
  remembered : ∀ c ∈ s.world.connected, ∀ appId sequence, ¬ InProgress s.world.db appId →
    s.world.lastDeployedSequences c appId = some sequence →
      DeployedLast s.world c appId sequence
  redeploys : ∀ c ∈ s.world.connected, ∀ app : KotsApp, ¬ InProgress s.world.db app.id →
    UndeployedLast s.world c app.id →
      ∀ seen apps, check s.world c app seen apps = .rendering c app seen apps

/-! ## The condition -/

/-- No connection that was sent an undeploy last remembers a version of the app. -/
def Forgotten (w : World) (appId : AppId) : Prop :=
  ∀ c ∈ w.connected, UndeployedLast w c appId → w.lastDeployedSequences c appId = none

/-- A restore ends, completed, failed or cancelled, only when no connection that was undeployed
remembers a version.  An undeploy is sent while its restore is in progress, or to connections that
remember nothing, and a version to connections that remember no other. -/
def RestoreGuard (s : State) : Action → Prop
  | .cancelRestore appId => Forgotten s.world appId
  | .tick i _ => ∀ t, s.ticks[i]? = some t →
    match t.phase with
    | .rendering history app seen _ => ∀ other ∈ s.world.connected,
      other.clusterId = history.clusterId → other ≠ history →
        ∀ sequence, s.world.lastDeployedSequences other app.id = some sequence →
          sequence = seen.sequence
    | .undeploying history listed _ _ => InProgress s.world.db listed.app.id ∨
      ∀ other ∈ s.world.connected, other.clusterId = history.clusterId →
        s.world.lastDeployedSequences other listed.app.id = none
    | .resetting _ listed _ => Forgotten s.world listed.app.id
    | _ => True
  | _ => True

/-! ## The invariant -/

/-- What is remembered was deployed last, or undeployed by a restore that is in progress. -/
def Remembers (w : World) : Prop :=
  ∀ c ∈ w.connected, ∀ appId sequence, w.lastDeployedSequences c appId = some sequence →
    DeployedLast w c appId sequence ∨ (InProgress w.db appId ∧ UndeployedLast w c appId)

/-- A last message has one purpose. -/
theorem not_undeployedLast {w : World} {history : ClusterSocketHistory} {appId : AppId}
    {sequence : Int} (h : DeployedLast w history appId sequence) :
    ¬ UndeployedLast w history appId := by
  rintro ⟨m', restore, hlast', hundeploy⟩
  obtain ⟨m, seen, hlast, hdeploy, -⟩ := h
  rw [hlast] at hlast'
  cases hlast'
  rw [hdeploy] at hundeploy
  cases hundeploy

theorem redeployed_of_remembers {s : State} (h : Remembers s.world) : Redeployed s := by
  constructor
  case remembered =>
    intro c hc appId sequence hnone hlast
    exact (h c hc appId sequence hlast).resolve_right fun hprogress => hnone hprogress.1
  case redeploys =>
    intro c hc app hnone hundeployed seen apps
    unfold check
    rw [if_neg]
    intro hlast
    rcases h c hc app.id seen.sequence hlast with hdeployed | ⟨hprogress, -⟩
    · exact not_undeployedLast hdeployed hundeployed
    · exact hnone hprogress

/-! ## Emissions -/

section Emit

variable {w : World} {history c : ClusterSocketHistory} {purpose : Purpose}
  {args : ApplicationManifests} {appId : AppId}

theorem lastMessage_emit (hc : c ∈ w.connected) :
    lastMessage (w.emit history purpose args) c appId =
      if c.clusterId = history.clusterId ∧ args.appId = appId then
        some ⟨history, w.connected.filter fun other => other.clusterId = history.clusterId, purpose,
          args⟩
      else lastMessage w c appId := by
  unfold lastMessage World.emit
  dsimp only
  rw [List.find?_cons]
  by_cases hcluster : c.clusterId = history.clusterId
  · by_cases happ : args.appId = appId
    · simp [hcluster, happ, hc]
    · simp [happ]
  · simp [hcluster]

theorem lastMessage_emit_room (hc : c ∈ w.connected) (hcluster : c.clusterId = history.clusterId)
    (happ : args.appId = appId) :
    ∃ m, lastMessage (w.emit history purpose args) c appId = some m ∧ m.purpose = purpose := by
  rw [lastMessage_emit hc, if_pos ⟨hcluster, happ⟩]
  exact ⟨_, rfl, rfl⟩

/-- Who is not in the room or gets it for another app keeps what was last. -/
theorem lastMessage_emit_other (hc : c ∈ w.connected)
    (h : ¬ (c.clusterId = history.clusterId ∧ args.appId = appId)) :
    lastMessage (w.emit history purpose args) c appId = lastMessage w c appId := by
  rw [lastMessage_emit hc, if_neg h]

theorem remembers_emitDeploy (h : Remembers w) {app : KotsApp} {seen : Observed}
    (hargs : args.appId = app.id)
    (hroom : ∀ other ∈ w.connected, other.clusterId = history.clusterId → other ≠ history →
      ∀ sequence, w.lastDeployedSequences other app.id = some sequence → sequence = seen.sequence) :
    Remembers (w.emitDeploy history app seen args) := by
  intro c hc appId sequence hlast
  have hc' : c ∈ w.connected := hc
  have hmessage : lastMessage (w.emitDeploy history app seen args) c appId =
      lastMessage (w.emit history (.deploy seen) args) c appId := rfl
  by_cases hroomed : c.clusterId = history.clusterId ∧ args.appId = appId
  · left
    obtain ⟨hcluster, happ⟩ := hroomed
    obtain ⟨m, hm, hpurpose⟩ := lastMessage_emit_room hc' hcluster happ
    refine ⟨m, seen, hm, hpurpose, ?_⟩
    rw [← happ, hargs] at hlast
    unfold World.emitDeploy at hlast
    dsimp only at hlast
    by_cases hown : c = history
    · rw [hown, Function.update_self, Function.update_self] at hlast
      exact Option.some.inj hlast
    · rw [Function.update_of_ne hown] at hlast
      exact (hroom c hc' hcluster hown sequence hlast).symm
  · have hlast' : w.lastDeployedSequences c appId = some sequence := by
      unfold World.emitDeploy at hlast
      dsimp only at hlast
      by_cases hown : c = history
      · have hne : appId ≠ app.id := by
          rintro rfl
          exact hroomed ⟨by rw [hown], hargs⟩
        rw [hown, Function.update_self, Function.update_of_ne hne] at hlast
        rw [hown]
        exact hlast
      · rw [Function.update_of_ne hown] at hlast
        exact hlast
    unfold DeployedLast UndeployedLast
    rw [hmessage, lastMessage_emit_other hc' hroomed]
    exact h c hc' appId sequence hlast'

theorem remembers_emitUndeploy (h : Remembers w) {listed : Listed}
    (hargs : args.appId = listed.app.id)
    (hroom : InProgress w.db listed.app.id ∨ ∀ other ∈ w.connected,
      other.clusterId = history.clusterId → w.lastDeployedSequences other listed.app.id = none) :
    Remembers (w.emit history (.undeploy listed.restore) args) := by
  intro c hc appId sequence hlast
  have hc' : c ∈ w.connected := hc
  by_cases hroomed : c.clusterId = history.clusterId ∧ args.appId = appId
  · have happ : appId = listed.app.id := hroomed.2.symm.trans hargs
    rcases hroom with hprogress | hnone
    · right
      rw [happ]
      obtain ⟨m, hm, hpurpose⟩ := lastMessage_emit_room hc' hroomed.1 hargs
      exact ⟨hprogress, m, listed.restore, hm, hpurpose⟩
    · have hnone' := hnone c hc' hroomed.1
      rw [← happ] at hnone'
      have hlast' : w.lastDeployedSequences c appId = some sequence := hlast
      rw [hnone'] at hlast'
      cases hlast'
  · unfold DeployedLast UndeployedLast
    rw [lastMessage_emit_other hc' hroomed]
    exact h c hc' appId sequence hlast

end Emit

/-! ## The other steps -/

theorem remembers_setDb {w : World} (h : Remembers w) {db : Database}
    (hprogress : ∀ appId, InProgress w.db appId → InProgress db appId) :
    Remembers (w.setDb db) := by
  intro c hc appId sequence hlast
  exact (h c hc appId sequence hlast).imp_right fun hold => ⟨hprogress appId hold.1, hold.2⟩

/-- The end of a restore. -/
theorem remembers_reset {w : World} (h : Remembers w) {appId : AppId}
    (hforgotten : Forgotten w appId) :
    Remembers (w.setDb (updateAppRestoreReset w.db appId)) := by
  intro c hc appId' sequence hlast
  have hlast' : w.lastDeployedSequences c appId' = some sequence := hlast
  rcases h c hc appId' sequence hlast' with hdeployed | ⟨hprogress, hundeployed⟩
  · exact .inl hdeployed
  · refine .inr ⟨inProgress_reset.mpr ⟨?_, hprogress⟩, hundeployed⟩
    rintro rfl
    rw [hforgotten c hc hundeployed] at hlast'
    cases hlast'

theorem remembers_tick {s : State} (hs : Remembers s.world) {i : Nat} {t : Tick}
    (ht : s.ticks[i]? = some t) {input : Input} (hguard : RestoreGuard s (.tick i input)) :
    Remembers (t.step s.world input).1 := by
  have hclauses := hguard t ht
  rcases t.step_world s.world input with
    h | ⟨history, app, seen, apps, args, hphase, hargs, h⟩ |
    ⟨history, listed, cluster, apps, args, hphase, hargs, h⟩ | ⟨db, hprogress, h⟩ |
    ⟨history, listed, apps, hphase, h⟩
  · rw [h]
    exact hs
  · rw [h]
    rw [hphase] at hclauses
    exact remembers_emitDeploy hs hargs hclauses
  · rw [h]
    rw [hphase] at hclauses
    exact remembers_emitUndeploy hs hargs hclauses
  · rw [h]
    exact remembers_setDb hs fun appId => (hprogress appId).mpr
  · rw [h]
    rw [hphase] at hclauses
    exact remembers_reset hs hclauses

theorem remembers_step {s s' : State} {a : Action} (hentries : Entries s) (hs : Remembers s.world)
    (hguard : RestoreGuard s a) (hstep : machine.step s a = some s') : Remembers s'.world := by
  cases a with
  | connect history gone =>
    simp only [machine, step] at hstep
    split at hstep
    next => cases hstep
    next hnew =>
      cases hstep
      have hnew' : history ∉ s.world.pushed :=
        fun hmem => hnew (List.any_eq_true.mpr ⟨history, hmem, by simp⟩)
      intro c hc appId sequence hlast
      have hold : c ∈ s.world.connected := by
        -- a new entry remembers nothing
        have hlast' : s.world.lastDeployedSequences c appId = some sequence := hlast
        have hpushed : c ∈ s.world.pushed := by
          apply hentries.lastDeployedSequences c appId
          rw [hlast']
          exact Option.some_ne_none _
        have hne : c ≠ history := fun heq => hnew' (heq ▸ hpushed)
        unfold connect at hc
        dsimp only at hc
        split at hc
        next => exact hc
        next =>
          rcases List.mem_append.mp hc with hmem | hlast
          · exact hmem
          · exact absurd (List.mem_singleton.mp hlast) hne
      exact hs c hold appId sequence hlast
  | disconnect socketId =>
    cases hstep
    intro c hc appId sequence hlast
    exact hs c (List.mem_filter.mp hc).1 appId sequence hlast
  | start loop =>
    cases hstep
    exact hs
  | tick i input =>
    obtain ⟨t, ht, rfl⟩ := Option.map_eq_some_iff.mp hstep
    exact remembers_tick hs ht hguard
  | deployVersion appId sequence now =>
    cases hstep
    exact remembers_setDb hs fun _ => (inProgress_of_app rfl).mpr
  | initiateRestore snapshotName appId =>
    simp only [machine, step] at hstep
    split at hstep
    next => cases hstep
    next hname =>
      cases hstep
      exact remembers_setDb hs fun _ => inProgress_of_initiateRestore hname
  | cancelRestore appId =>
    cases hstep
    exact remembers_reset hs hguard
  | undeployResult appId status =>
    cases hstep
    exact remembers_setDb hs fun _ => inProgress_undeployStatus.mpr

/-- **An undeployed app is not remembered as deployed, in every run whose restores end with nothing
remembered.** -/
theorem redeployed_everyState {s : State} (hs : machine.Reachable Init RestoreGuard s) :
    Redeployed s := by
  have hinv : machine.EveryState Init RestoreGuard fun s => Entries s ∧ Remembers s.world := by
    refine Machine.everyState_of_inv (fun s hs => ⟨entries_init hs, ?_⟩)
      fun s a s' hs hguard hstep => ⟨entries_step hs.1 hstep, remembers_step hs.1 hs.2 hguard hstep⟩
    intro c hc
    rw [hs.connected] at hc
    cases hc
  exact redeployed_of_remembers (hinv s hs).2

/-- A restore is cancelled after its undeploy, and nothing was deployed before. -/
theorem redeployed_nothingRemembered : ∃ s, machine.Reachable Init RestoreGuard s ∧
    s.world.messages.map (·.purpose) = [.undeploy 1] ∧ ¬ InProgress s.world.db "app" ∧
    Redeployed s := by
  have hinit := Machine.Reachable.init (M := machine) (G := RestoreGuard) init_startedState
  have hstarted := hinit.run
    [.connect ⟨"c1", "s1"⟩ false, .initiateRestore "b1" "app", .start .restoreLoop]
    (by simp [RestoreGuard]) rfl
  have hentry := hstarted.step (a := echoTick 0) (fun t ht => by cases ht; trivial) rfl
  have hnext := hentry.step (a := echoTick 0) (fun t ht => by cases ht; trivial) rfl
  have hrestoring := hnext.step (a := echoTick 0) (fun t ht => by cases ht; trivial) rfl
  have hsent := hrestoring.step (a := echoTick 0) (fun t ht => by
    cases ht
    exact .inr fun other _ _ => rfl) rfl
  have hcancelled := hsent.step (a := Action.cancelRestore "app") (fun c _ _ => rfl) rfl
  refine ⟨_, hcancelled, rfl, ?_, redeployed_everyState hcancelled⟩
  rintro ⟨name, hname, -⟩
  cases hname

/-- A restore is cancelled after its undeploy: the version that was pruned is remembered. -/
theorem not_redeployed_cancelled : ¬ machine.EveryState Init Machine.Free Redeployed := by
  refine Machine.not_everyState init_startedState
    [.connect ⟨"c1", "s1"⟩ false, .start .deployLoop, echoTick 0, echoTick 0, echoTick 0, echoTick 0,
      .initiateRestore "b1" "app", .start .restoreLoop, echoTick 1, echoTick 1, echoTick 1, echoTick 1,
      echoTick 1, .cancelRestore "app"] rfl ?_
  intro hredeployed
  obtain ⟨m, seen, hlast, hpurpose, -⟩ := hredeployed.remembered ⟨"c1", "s1"⟩ List.mem_cons_self "app"
    0 (by rintro ⟨name, hname, -⟩; cases hname) rfl
  cases hlast
  cases hpurpose

end Kotsadm.Ticks
