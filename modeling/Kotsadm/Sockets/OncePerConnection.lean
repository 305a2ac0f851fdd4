import Kotsadm.Sockets.Ticks

/-!
# OncePerConnection — how often a version is sent to a connection, and an undeploy to a cluster

The check of a version against `lastDeployedSequences` comes long before the note of it, and so does
the read of the undeploy status before its write.  Between them another tick may do the same, and a
room may have several sockets.
-/

namespace Kotsadm.Ticks

open KotsAppStore

/-- Every connection has received each version of an app once, and every cluster one undeploy for each
restore. -/
structure OncePerConnection (s : State) : Prop where
  deploy : ∀ history appId change,
    (s.world.messages.filter (Message.isDeploy history appId change)).length ≤ 1
  undeploy : ∀ clusterId appId restore, (s.world.messages.filter fun m =>
    m.undeployOf = some (clusterId, appId, restore)).length ≤ 1

/-! ## The condition -/

namespace Phase

/-- A version that has passed its check and is still to be sent. -/
def rendersFor : Phase → Option (ClusterSocketHistory × AppId)
  | .rendering history app _ _ => some (history, app.id)
  | _ => none

/-- An undeploy under way, until it is noted. -/
def undeploysFor : Phase → Option (ClusterId × AppId × Nat)
  | .undeploying history listed _ _ => some (history.clusterId, listed.app.id, listed.restore)
  | .undeployed history listed _ => some (history.clusterId, listed.app.id, listed.restore)
  | _ => none

/-- An undeploy that is sent and not noted. -/
def writesFor : Phase → Option (ClusterId × AppId × Nat)
  | .undeployed history listed _ => some (history.clusterId, listed.app.id, listed.restore)
  | _ => none

end Phase

/-- The restore is still the one in progress, without an undeploy status. -/
def Unnoted (w : World) (appId : AppId) (restore : Nat) : Prop :=
  w.restores appId = restore ∧ InProgress w.db appId ∧ restoreUndeployStatus w.db appId = none

/-- A version passes its check only while no other tick has one of the same app under way to the
connection, and the connection has not been sent a later one; when it is sent, the connection is
alone in its room.  An undeploy is begun only while no other tick has the same one under way, and on
an outdated row only if it has not been sent. -/
def Guard (s : State) : Action → Prop
  | .tick i _ => ∀ t, s.ticks[i]? = some t →
    match t.phase with
    | .checking history app seen _ =>
      s.world.lastDeployedSequences history app.id ≠ some seen.sequence →
        (∀ j u, j ≠ i → s.ticks[j]? = some u →
          u.phase.rendersFor ≠ some (history, app.id)) ∧
        ∀ m ∈ s.world.messages, ∀ sent, m.deployOf history app.id = some sent →
          sent.change ≤ seen.change
    | .rendering history _ _ _ => ∀ other ∈ s.world.connected,
      other.clusterId = history.clusterId → other = history
    | .restoring history listed _ _ => listed.app.restoreUndeployStatus = none →
      (∀ j u, j ≠ i → s.ticks[j]? = some u →
        u.phase.undeploysFor ≠ some (history.clusterId, listed.app.id, listed.restore)) ∧
      (Unnoted s.world listed.app.id listed.restore ∨ ∀ m ∈ s.world.messages,
        m.undeployOf ≠ some (history.clusterId, listed.app.id, listed.restore))
    | _ => True
  | _ => True

/-! ## The invariant -/

/-- The version was current when `current_sequence` had changed so often. -/
def World.Observes (w : World) (appId : AppId) (clusterId : ClusterId) (seen : Observed) : Prop :=
  seen.change ≤ w.changes appId clusterId ∧
    w.values appId clusterId seen.change = some seen.sequence

/-- What was sent last to a connection for an app. -/
def newest (messages : List Message) (history : ClusterSocketHistory) (appId : AppId) :
    Option Observed :=
  messages.findSome? (Message.deployOf history appId)

/-- `m` was sent after `m'`: a later version, if both are for one connection and app. -/
def Newer (m m' : Message) : Prop :=
  ∀ history appId seen seen', m.deployOf history appId = some seen →
    m'.deployOf history appId = some seen' → seen'.change < seen.change

def Differs (m m' : Message) : Prop :=
  ∀ key, m.undeployOf = some key → m'.undeployOf ≠ some key

structure Good (w : World) : Prop where
  values : ∀ appId clusterId,
    w.values appId clusterId (w.changes appId clusterId) = deployedSequence w.db appId clusterId
  receivers : ∀ m ∈ w.messages, ∀ seen, m.purpose = .deploy seen →
    ∀ r ∈ m.receivers, r = m.history
  observed : ∀ m ∈ w.messages, ∀ seen, m.purpose = .deploy seen →
    w.Observes m.args.appId m.history.clusterId seen
  last : ∀ history appId, w.lastDeployedSequences history appId =
    (newest w.messages history appId).map (·.sequence)
  newer : w.messages.Pairwise Newer
  restores : ∀ m ∈ w.messages, ∀ restore, m.purpose = .undeploy restore →
    restore ≤ w.restores m.args.appId
  differs : w.messages.Pairwise Differs

/-- The apps were listed before some of the restores. -/
def ListedBefore (w : World) (apps : List Listed) : Prop :=
  ∀ l ∈ apps, l.restore ≤ w.restores l.app.id

/-- What a tick knows where it is. -/
def Fits (w : World) (t : Tick) : Prop :=
  match t.phase with
  | .entry _ | .done | .deployApps _ _ | .failed _ _ _ _ _ => True
  | .checking history app seen _ => w.Observes app.id history.clusterId seen
  | .rendering history app seen _ =>
    w.Observes app.id history.clusterId seen ∧
      ∀ m ∈ w.messages, ∀ sent, m.deployOf history app.id = some sent → sent.change < seen.change
  | .restoreApps _ apps => ListedBefore w apps
  | .restoring _ listed _ apps | .undeployed _ listed apps
  | .restored _ listed apps | .resetting _ listed apps => ListedBefore w (listed :: apps)
  | .undeploying history listed _ apps =>
    ListedBefore w (listed :: apps) ∧ ∀ m ∈ w.messages,
      m.undeployOf ≠ some (history.clusterId, listed.app.id, listed.restore)

/-- Two ticks have nothing of the same kind under way. -/
structure Apart (t u : Tick) : Prop where
  rendersFor : ∀ key, t.phase.rendersFor = some key → u.phase.rendersFor ≠ some key
  undeploysFor : ∀ key, t.phase.undeploysFor = some key → u.phase.undeploysFor ≠ some key

/-- An undeploy that was sent is noted, or about to be. -/
def Noted (s : State) : Prop :=
  ∀ m ∈ s.world.messages, ∀ clusterId appId restore,
    m.undeployOf = some (clusterId, appId, restore) → Unnoted s.world appId restore →
      ∃ t ∈ s.ticks, t.phase.writesFor = some (clusterId, appId, restore)

structure Inv (s : State) : Prop where
  ticks : Processes.Inv Good Fits Apart s.world s.ticks
  noted : Noted s

theorem length_filter_le_one {α : Type*} {R : α → α → Prop} {p : α → Bool} {l : List α}
    (h : l.Pairwise R) (hp : ∀ a ∈ l, ∀ b ∈ l, p a → p b → ¬ R a b) : (l.filter p).length ≤ 1 := by
  have hpairwise : (l.filter p).Pairwise R := h.filter p
  have hmem : ∀ a ∈ l.filter p, a ∈ l ∧ p a := fun a ha => List.mem_filter.mp ha
  generalize l.filter p = l' at hpairwise hmem
  match l' with
  | [] => exact Nat.zero_le 1
  | [_] => exact le_refl 1
  | a :: b :: _ =>
    have hab : R a b := (List.pairwise_cons.mp hpairwise).1 b List.mem_cons_self
    have ha := hmem a List.mem_cons_self
    have hb := hmem b (List.mem_cons_of_mem a List.mem_cons_self)
    exact absurd hab (hp a ha.1 b hb.1 ha.2 hb.2)

theorem isDeploy_iff {m : Message} {history : ClusterSocketHistory} {appId : AppId}
    {change : Nat} :
    m.isDeploy history appId change ↔ ∃ seen, m.purpose = .deploy seen ∧
      history ∈ m.receivers ∧ m.args.appId = appId ∧ seen.change = change := by
  unfold Message.isDeploy
  split
  next seen hpurpose => simp [hpurpose, and_assoc]
  next restore hpurpose => simp [hpurpose]

theorem deployOf_eq_some {m : Message} {history : ClusterSocketHistory} {appId : AppId}
    {seen : Observed} :
    m.deployOf history appId = some seen ↔
      m.purpose = .deploy seen ∧ m.history = history ∧ m.args.appId = appId := by
  unfold Message.deployOf
  split
  next seen' hpurpose =>
    rw [hpurpose]
    split
    next hkey => simp [hkey]
    next hkey =>
      refine iff_of_false (by simp) ?_
      rintro ⟨-, h⟩
      exact hkey h
  next restore hpurpose => simp [hpurpose]

theorem undeployOf_eq_some {m : Message} {key : ClusterId × AppId × Nat} :
    m.undeployOf = some key ↔ ∃ restore, m.purpose = .undeploy restore ∧
      (m.history.clusterId, m.args.appId, restore) = key := by
  unfold Message.undeployOf
  split
  next seen hpurpose => simp [hpurpose]
  next restore hpurpose => simp [hpurpose]

/-- Messages in order are messages sent once. -/
theorem oncePerConnection_of_good {s : State} (h : Good s.world) : OncePerConnection s := by
  constructor
  case deploy =>
    intro history appId change
    refine length_filter_le_one h.newer fun m hm m' hm' hp hp' hnewer => ?_
    obtain ⟨seen, hpurpose, hreceived, happ, hchange⟩ := isDeploy_iff.mp hp
    obtain ⟨seen', hpurpose', hreceived', happ', hchange'⟩ := isDeploy_iff.mp hp'
    have hhistory := h.receivers m hm seen hpurpose history hreceived
    have hhistory' := h.receivers m' hm' seen' hpurpose' history hreceived'
    have hlt := hnewer history appId seen seen'
      (deployOf_eq_some.mpr ⟨hpurpose, hhistory.symm, happ⟩)
      (deployOf_eq_some.mpr ⟨hpurpose', hhistory'.symm, happ'⟩)
    omega
  case undeploy =>
    intro clusterId appId restore
    refine length_filter_le_one h.differs fun m _ m' _ hp hp' hdiffers => ?_
    exact hdiffers _ (of_decide_eq_true hp) (of_decide_eq_true hp')

/-! ## What does not disturb the others -/

/-- Nothing is taken back. -/
structure Grows (w w' : World) : Prop where
  observes : ∀ appId clusterId seen, w.Observes appId clusterId seen →
    w'.Observes appId clusterId seen
  restores : ∀ appId, w.restores appId ≤ w'.restores appId

theorem grows_refl (w : World) : Grows w w := ⟨fun _ _ _ h => h, fun _ => le_rfl⟩

theorem observes_setDb {w : World} {db : Database} {appId : AppId} {clusterId : ClusterId}
    {seen : Observed} (h : w.Observes appId clusterId seen) :
    (w.setDb db).Observes appId clusterId seen := by
  obtain ⟨hchange, hvalue⟩ := h
  unfold World.Observes World.setDb
  dsimp only
  split
  next => exact ⟨hchange, hvalue⟩
  next =>
    refine ⟨by omega, ?_⟩
    rw [Function.update_of_ne (by omega)]
    exact hvalue

theorem grows_setDb (w : World) (db : Database) : Grows w (w.setDb db) :=
  ⟨fun _ _ _ h => observes_setDb h, fun _ => le_rfl⟩

/-- The message is not of the kind the tick has under way. -/
structure Unrelated (m : Message) (t : Tick) : Prop where
  rendersFor : ∀ key, t.phase.rendersFor = some key → m.deployOf key.1 key.2 = none
  undeploysFor : ∀ key, t.phase.undeploysFor = some key → m.undeployOf ≠ some key

theorem ListedBefore.grows {w w' : World} {apps : List Listed} (h : ListedBefore w apps)
    (hgrows : Grows w w') : ListedBefore w' apps :=
  fun l hl => (h l hl).trans (hgrows.restores l.app.id)

/-- A tick still fits when its world grows and the new messages are not its own. -/
theorem Fits.grows {w w' : World} {t : Tick} (h : Fits w t) (hgrows : Grows w w')
    (hnew : ∀ m ∈ w'.messages, m ∈ w.messages ∨ Unrelated m t) : Fits w' t := by
  obtain ⟨array, index, phase⟩ := t
  cases phase with
  | entry => trivial
  | done => trivial
  | deployApps => trivial
  | failed => trivial
  | checking => exact hgrows.observes _ _ _ h
  | rendering history app seen =>
    refine ⟨hgrows.observes _ _ _ h.1, fun m hm sent hsent => ?_⟩
    rcases hnew m hm with hold | hunrelated
    · exact h.2 m hold sent hsent
    · have hnone := hunrelated.rendersFor (history, app.id) rfl
      rw [hsent] at hnone
      cases hnone
  | restoreApps => exact ListedBefore.grows h hgrows
  | restoring => exact ListedBefore.grows h hgrows
  | undeployed => exact ListedBefore.grows h hgrows
  | restored => exact ListedBefore.grows h hgrows
  | resetting => exact ListedBefore.grows h hgrows
  | undeploying history listed =>
    refine ⟨h.1.grows hgrows, fun m hm => ?_⟩
    rcases hnew m hm with hold | hunrelated
    · exact h.2 m hold
    · exact hunrelated.undeploysFor _ rfl

/-! ## The world -/

theorem good_setDb {w : World} (h : Good w) (db : Database) : Good (w.setDb db) where
  values := by
    intro appId clusterId
    unfold World.setDb
    dsimp only
    by_cases hsame : deployedSequence db appId clusterId = deployedSequence w.db appId clusterId
    · rw [if_pos hsame, if_pos hsame, hsame]
      exact h.values appId clusterId
    · rw [if_neg hsame, if_neg hsame, Function.update_self]
  receivers := h.receivers
  observed := fun m hm seen hpurpose => observes_setDb (h.observed m hm seen hpurpose)
  last := h.last
  newer := h.newer
  restores := h.restores
  differs := h.differs

/-- A version is sent to a connection that is alone, as the latest one. -/
theorem good_emitDeploy {w : World} (h : Good w) {history : ClusterSocketHistory} {app : KotsApp}
    {seen : Observed} {args : ApplicationManifests} (hargs : args.appId = app.id)
    (hseen : w.Observes app.id history.clusterId seen)
    (hlatest : ∀ m ∈ w.messages, ∀ sent, m.deployOf history app.id = some sent →
      sent.change < seen.change)
    (halone : ∀ other ∈ w.connected, other.clusterId = history.clusterId →
      other = history) : Good (w.emitDeploy history app seen args) where
  values := h.values
  receivers := by
    intro m hm seen' hpurpose r hr
    rcases List.mem_cons.mp hm with rfl | hm
    · obtain ⟨hconnected, hcluster⟩ := List.mem_filter.mp hr
      exact halone r hconnected (of_decide_eq_true hcluster)
    · exact h.receivers m hm seen' hpurpose r hr
  observed := by
    intro m hm seen' hpurpose
    rcases List.mem_cons.mp hm with rfl | hm
    · cases hpurpose
      show w.Observes args.appId history.clusterId seen
      rw [hargs]
      exact hseen
    · exact h.observed m hm seen' hpurpose
  last := by
    intro history' appId
    have hlast := h.last history' appId
    unfold newest at hlast ⊢
    show Function.update w.lastDeployedSequences history _ history' appId =
      ((_ :: w.messages).findSome? _).map _
    rw [List.findSome?_cons]
    unfold Message.deployOf
    dsimp only
    rw [hargs]
    by_cases hhistory : history = history'
    · subst hhistory
      rw [Function.update_self]
      by_cases happ : app.id = appId
      · subst happ
        rw [Function.update_self, if_pos ⟨rfl, rfl⟩]
        rfl
      · rw [Function.update_of_ne (Ne.symm happ), if_neg fun hkey => happ hkey.2]
        exact hlast
    · rw [Function.update_of_ne (Ne.symm hhistory), if_neg fun hkey => hhistory hkey.1]
      exact hlast
  newer := by
    refine List.pairwise_cons.mpr ⟨?_, h.newer⟩
    intro m hm history' appId seen' sent hnew hold
    obtain ⟨hpurpose, rfl, rfl⟩ := deployOf_eq_some.mp hnew
    cases hpurpose
    dsimp only at hold
    rw [hargs] at hold
    exact hlatest m hm sent hold
  restores := by
    intro m hm restore hpurpose
    rcases List.mem_cons.mp hm with rfl | hm
    · cases hpurpose
    · exact h.restores m hm restore hpurpose
  differs := by
    refine List.pairwise_cons.mpr ⟨?_, h.differs⟩
    intro m _ key hkey
    obtain ⟨restore, hpurpose, -⟩ := undeployOf_eq_some.mp hkey
    cases hpurpose

/-- An undeploy is sent that was not sent before. -/
theorem good_emitUndeploy {w : World} (h : Good w) {history : ClusterSocketHistory}
    {listed : Listed} {args : ApplicationManifests} (hargs : args.appId = listed.app.id)
    (hrestore : listed.restore ≤ w.restores listed.app.id)
    (hfirst : ∀ m ∈ w.messages,
      m.undeployOf ≠ some (history.clusterId, listed.app.id, listed.restore)) :
    Good (w.emit history (.undeploy listed.restore) args) where
  values := h.values
  receivers := by
    intro m hm seen hpurpose
    rcases List.mem_cons.mp hm with rfl | hm
    · cases hpurpose
    · exact h.receivers m hm seen hpurpose
  observed := by
    intro m hm seen hpurpose
    rcases List.mem_cons.mp hm with rfl | hm
    · cases hpurpose
    · exact h.observed m hm seen hpurpose
  last := h.last
  newer := by
    refine List.pairwise_cons.mpr ⟨?_, h.newer⟩
    intro m _ history' appId seen sent hnew
    obtain ⟨hpurpose, -⟩ := deployOf_eq_some.mp hnew
    cases hpurpose
  restores := by
    intro m hm restore hpurpose
    rcases List.mem_cons.mp hm with rfl | hm
    · cases hpurpose
      show listed.restore ≤ w.restores args.appId
      rw [hargs]
      exact hrestore
    · exact h.restores m hm restore hpurpose
  differs := by
    refine List.pairwise_cons.mpr ⟨?_, h.differs⟩
    intro m hm key hkey
    obtain ⟨restore, hpurpose, rfl⟩ := undeployOf_eq_some.mp hkey
    cases hpurpose
    dsimp only
    rw [hargs]
    exact hfirst m hm

/-- What was sent last is the latest of what was sent. -/
theorem newest_eq_some {messages : List Message} (h : messages.Pairwise Newer) {history : ClusterSocketHistory}
    {appId : AppId} {top : Observed} (htop : newest messages history appId = some top) :
    (∃ m ∈ messages, m.deployOf history appId = some top) ∧
      ∀ m ∈ messages, ∀ sent, m.deployOf history appId = some sent → sent.change ≤ top.change := by
  induction messages with
  | nil => cases htop
  | cons m messages ih =>
    obtain ⟨hnewer, hrest⟩ := List.pairwise_cons.mp h
    unfold newest at htop
    rw [List.findSome?_cons] at htop
    cases hdeploy : m.deployOf history appId with
    | none =>
      rw [hdeploy] at htop
      obtain ⟨⟨m', hm', hdeploy'⟩, hlatest⟩ := ih hrest htop
      refine ⟨⟨m', List.mem_cons_of_mem m hm', hdeploy'⟩, fun m'' hm'' sent hsent => ?_⟩
      rcases List.mem_cons.mp hm'' with rfl | hm''
      · rw [hdeploy] at hsent
        cases hsent
      · exact hlatest m'' hm'' sent hsent
    | some seen =>
      rw [hdeploy] at htop
      cases htop
      refine ⟨⟨m, List.mem_cons_self, hdeploy⟩, fun m' hm' sent hsent => ?_⟩
      rcases List.mem_cons.mp hm' with rfl | hm'
      · rw [hdeploy] at hsent
        cases hsent
        exact le_refl _
      · exact (hnewer m' hm' history appId top sent hdeploy hsent).le

/-- A version that passes its check, and that nothing later has overtaken, is later than everything
that was sent. -/
theorem latest_of_check {w : World} (h : Good w) {history : ClusterSocketHistory} {app : KotsApp}
    {seen : Observed}
    (hseen : w.Observes app.id history.clusterId seen)
    (hcheck : w.lastDeployedSequences history app.id ≠ some seen.sequence)
    (hovertaken : ∀ m ∈ w.messages, ∀ sent, m.deployOf history app.id = some sent →
      sent.change ≤ seen.change) :
    ∀ m ∈ w.messages, ∀ sent, m.deployOf history app.id = some sent →
      sent.change < seen.change := by
  intro m hm sent hsent
  refine lt_of_le_of_ne (hovertaken m hm sent hsent) fun heq => hcheck ?_
  -- the same version was sent, and nothing since: it is the one remembered
  rw [h.last]
  cases htop : newest w.messages history app.id with
  | none =>
    have hnone := List.findSome?_eq_none_iff.mp htop m hm
    rw [hsent] at hnone
    cases hnone
  | some top =>
    obtain ⟨⟨m', hm', htop'⟩, hlatest⟩ := newest_eq_some h.newer htop
    have hchange : top.change = seen.change := by
      have hge := hlatest m hm sent hsent
      have hle := hovertaken m' hm' top htop'
      omega
    obtain ⟨hpurpose, hhistory, happ⟩ := deployOf_eq_some.mp htop'
    have hvalue := (h.observed m' hm' top hpurpose).2
    rw [hhistory, happ, hchange, hseen.2] at hvalue
    exact hvalue.symm

/-! ## One tick -/

theorem apart_symm (t u : Tick) (h : Apart t u) : Apart u t where
  rendersFor := fun key hu ht => h.rendersFor key ht hu
  undeploysFor := fun key hu ht => h.undeploysFor key ht hu

/-- A tick with nothing under way. -/
structure Tick.Idle (t : Tick) : Prop where
  rendersFor : t.phase.rendersFor = none
  undeploysFor : t.phase.undeploysFor = none

theorem Tick.Idle.apart {t : Tick} (h : t.Idle) (u : Tick) : Apart t u where
  rendersFor := fun key ht => by rw [h.rendersFor] at ht; cases ht
  undeploysFor := fun key ht => by rw [h.undeploysFor] at ht; cases ht

/-- **The rule for a step of a tick.** -/
theorem inv_set {s : State} (hs : Inv s) {i : Nat} {t t' : Tick} (ht : s.ticks[i]? = some t)
    {w' : World} (hgood : Good w') (hgrows : Grows s.world w') (hfits : Fits w' t')
    (hnew : ∀ m ∈ w'.messages, m ∈ s.world.messages ∨ ∀ u, Apart t u → Unrelated m u)
    (hapart : ∀ j u, j ≠ i → s.ticks[j]? = some u → Apart t u → Apart t' u)
    (hnoted : ∀ m ∈ w'.messages, ∀ clusterId appId restore,
      m.undeployOf = some (clusterId, appId, restore) → Unnoted w' appId restore →
        t'.phase.writesFor = some (clusterId, appId, restore) ∨
          (m ∈ s.world.messages ∧ Unnoted s.world appId restore ∧
            t.phase.writesFor ≠ some (clusterId, appId, restore))) :
    Inv { world := w', ticks := s.ticks.set i t' } := by
  constructor
  case ticks =>
    refine hs.ticks.setAt apart_symm ht hgood hfits fun j u hj hu hold happart => ?_
    refine ⟨hold.grows hgrows fun m hm => ?_, hapart j u hj hu happart⟩
    exact (hnew m hm).imp_right fun hunrelated => hunrelated u happart
  case noted =>
    intro m hm clusterId appId restore hkey hunnoted
    have hlt : i < s.ticks.length := (List.getElem?_eq_some_iff.mp ht).1
    rcases hnoted m hm clusterId appId restore hkey hunnoted with hown | ⟨hold, hunnoted', hne⟩
    · exact ⟨t', List.mem_set hlt t', hown⟩
    · obtain ⟨u, hu, hwrites⟩ := hs.noted m hold clusterId appId restore hkey hunnoted'
      obtain ⟨j, hj⟩ := List.mem_iff_getElem?.mp hu
      have hji : j ≠ i := by
        rintro rfl
        rw [ht] at hj
        cases hj
        exact hne hwrites
      refine ⟨u, List.mem_of_getElem? (i := j) ?_, hwrites⟩
      rw [List.getElem?_set_ne hji.symm]
      exact hj

/-- A step that only moves the tick, to where it has nothing under way. -/
theorem inv_idle {s : State} (hs : Inv s) {i : Nat} {t t' : Tick} (ht : s.ticks[i]? = some t)
    (hwrites : t.phase.writesFor = none) (hidle : t'.Idle) (hfits : Fits s.world t') :
    Inv { world := s.world, ticks := s.ticks.set i t' } := by
  refine inv_set hs ht hs.ticks.good (grows_refl s.world) hfits (fun m hm => .inl hm)
    (fun _ u _ _ _ => hidle.apart u) fun m hm clusterId appId restore _ hunnoted => ?_
  refine .inr ⟨hm, hunnoted, ?_⟩
  rw [hwrites]
  exact (Option.some_ne_none _).symm

/-- A statement, after which the tick has nothing under way. -/
theorem inv_statement {s : State} (hs : Inv s) {i : Nat} {t t' : Tick} (ht : s.ticks[i]? = some t)
    {db : Database} (hidle : t'.Idle) (hfits : Fits s.world t')
    (hunnoted : ∀ clusterId appId restore, Unnoted (s.world.setDb db) appId restore →
      Unnoted s.world appId restore ∧ t.phase.writesFor ≠ some (clusterId, appId, restore)) :
    Inv { world := s.world.setDb db, ticks := s.ticks.set i t' } := by
  have hgrows := grows_setDb s.world db
  refine inv_set hs ht (good_setDb hs.ticks.good db) hgrows (hfits.grows hgrows fun m hm => .inl hm)
    (fun m hm => .inl hm) (fun _ u _ _ _ => hidle.apart u) fun m hm clusterId appId restore _ h => ?_
  exact .inr ⟨hm, hunnoted clusterId appId restore h⟩

/-! ### The statements -/

theorem unnoted_of_app {w : World} {db : Database} (happ : db.app = w.db.app) {appId : AppId}
    {restore : Nat} (h : Unnoted (w.setDb db) appId restore) : Unnoted w appId restore := by
  obtain ⟨hrestore, hprogress, hstatus⟩ := h
  refine ⟨hrestore, (inProgress_of_app happ).mp hprogress, ?_⟩
  unfold restoreUndeployStatus World.setDb at hstatus
  dsimp only at hstatus
  rw [happ] at hstatus
  exact hstatus

theorem unnoted_undeployStatus {w : World} {appId appId' : AppId} {status : UndeployStatus}
    {restore : Nat}
    (h : Unnoted (w.setDb (updateAppRestoreUndeployStatus w.db appId status)) appId' restore) :
    Unnoted w appId' restore ∧ appId' ≠ appId := by
  obtain ⟨hrestore, hprogress, hstatus⟩ := h
  have hprogress' := inProgress_undeployStatus.mp hprogress
  unfold World.setDb at hstatus
  dsimp only at hstatus
  have hother : appId' ≠ appId := by
    rintro rfl
    -- the row that has the name has the status too
    obtain ⟨name, hname, -⟩ := hprogress'
    obtain ⟨row, hrow, -⟩ := Option.bind_eq_some_iff.mp hname
    unfold restoreUndeployStatus updateAppRestoreUndeployStatus at hstatus
    rw [find?_updateApp, if_pos rfl, hrow] at hstatus
    cases hstatus
  refine ⟨⟨hrestore, hprogress', ?_⟩, hother⟩
  unfold restoreUndeployStatus updateAppRestoreUndeployStatus at hstatus
  rw [find?_updateApp, if_neg hother] at hstatus
  exact hstatus

theorem unnoted_reset {w : World} {appId appId' : AppId} {restore : Nat}
    (h : Unnoted (w.setDb (updateAppRestoreReset w.db appId)) appId' restore) :
    Unnoted w appId' restore := by
  obtain ⟨hrestore, hprogress, hstatus⟩ := h
  obtain ⟨hother, hprogress'⟩ := inProgress_reset.mp hprogress
  refine ⟨hrestore, hprogress', ?_⟩
  unfold World.setDb at hstatus
  dsimp only at hstatus
  unfold restoreUndeployStatus updateAppRestoreReset at hstatus
  rw [find?_updateApp, if_neg hother] at hstatus
  exact hstatus

/-! ### The steps -/

section Steps

variable {s : State} {i array index : Nat} {history : ClusterSocketHistory}

theorem idle_deployApps (history : ClusterSocketHistory) (apps : List KotsApp) :
    Tick.Idle ⟨array, index, .deployApps history apps⟩ := ⟨rfl, rfl⟩

theorem idle_restoreApps (history : ClusterSocketHistory) (apps : List Listed) :
    Tick.Idle ⟨array, index, .restoreApps history apps⟩ := ⟨rfl, rfl⟩

theorem fits_entry (t : Tick) (loop : Loop) :
    Fits s.world { t with phase := t.entry s.world loop } ∧
      Tick.Idle { t with phase := t.entry s.world loop } := by
  unfold Tick.entry
  split
  next => exact ⟨trivial, rfl, rfl⟩
  next history _ =>
    split
    next => exact ⟨trivial, rfl, rfl⟩
    next => exact ⟨trivial, rfl, rfl⟩
    next apps _ =>
      refine ⟨fun l hl => ?_, rfl, rfl⟩
      obtain ⟨app, -, rfl⟩ := List.mem_map.mp hl
      exact le_refl _

/-- The version that is read is the current one. -/
theorem fits_nextDeploy (array index : Nat) (hs : Good s.world) (history : ClusterSocketHistory) (app : KotsApp)
    (apps : List KotsApp) :
    Fits s.world ⟨array, index, nextDeploy s.world history app apps⟩ ∧
      Tick.Idle ⟨array, index, nextDeploy s.world history app apps⟩ := by
  unfold nextDeploy
  split
  next => exact ⟨trivial, rfl, rfl⟩
  next =>
    split
    next => exact ⟨trivial, rfl, rfl⟩
    next => exact ⟨trivial, rfl, rfl⟩
    next v hv =>
      split
      next =>
        obtain ⟨row, hdeployed, -, rfl⟩ := getCurrentVersion_eq_some.mp hv
        refine ⟨⟨le_refl _, ?_⟩, rfl, rfl⟩
        rw [hs.values]
        exact hdeployed
      next => exact ⟨trivial, rfl, rfl⟩

theorem inv_check (hs : Inv s) {app : KotsApp} {seen : Observed} {apps : List KotsApp}
    (ht : s.ticks[i]? = some ⟨array, index, .checking history app seen apps⟩) {input : Input}
    (hguard : Guard s (.tick i input)) :
    Inv { world := s.world, ticks := s.ticks.set i ⟨array, index, check s.world history app seen apps⟩ } := by
  have hseen := hs.ticks.each i _ ht
  unfold check
  split
  next => exact inv_idle hs ht rfl (idle_deployApps history apps) trivial
  next hcheck =>
    obtain ⟨hothers, hovertaken⟩ := hguard _ ht hcheck
    refine inv_set hs ht hs.ticks.good (grows_refl s.world) ⟨hseen, ?_⟩
      (fun m hm => .inl hm) ?_ ?_
    · exact latest_of_check hs.ticks.good hseen hcheck hovertaken
    · intro j u hj hu _
      refine ⟨fun key hkey => ?_, fun key hkey => by cases hkey⟩
      cases hkey
      exact hothers j u hj hu
    · exact fun m hm _ _ _ _ hunnoted => .inr ⟨hm, hunnoted, (Option.some_ne_none _).symm⟩

theorem inv_render (hs : Inv s) {app : KotsApp} {seen : Observed} {apps : List KotsApp}
    (ht : s.ticks[i]? = some ⟨array, index, .rendering history app seen apps⟩) {input : Input}
    (hguard : Guard s (.tick i input)) :
    Inv { world := (render s.world input.env history app seen apps).1,
          ticks := s.ticks.set i
            ⟨array, index, (render s.world input.env history app seen apps).2⟩ } := by
  obtain ⟨hseen, hlatest⟩ := hs.ticks.each i _ ht
  rcases render_cases s.world input.env history app seen apps with
    h | ⟨err, h⟩ | ⟨args, hargs, h⟩
  · rw [h]
    exact inv_idle hs ht rfl ⟨rfl, rfl⟩ trivial
  · rw [h]
    exact inv_idle hs ht rfl ⟨rfl, rfl⟩ trivial
  · rw [h]
    refine inv_set hs ht (good_emitDeploy hs.ticks.good hargs hseen hlatest (hguard _ ht))
      ⟨fun _ _ _ h => h, fun _ => le_rfl⟩ trivial ?_
      (fun _ u _ _ _ => (idle_deployApps history apps).apart u) ?_
    · intro m hm
      rcases List.mem_cons.mp hm with rfl | hold
      · refine .inr fun u happart => ⟨fun key hkey => ?_, fun key _ => (Option.some_ne_none _).symm⟩
        by_contra hne
        obtain ⟨sent, hsent⟩ := Option.ne_none_iff_exists'.mp hne
        obtain ⟨-, hhistory, happ⟩ := deployOf_eq_some.mp hsent
        refine happart.rendersFor key ?_ hkey
        show some (history, app.id) = some key
        dsimp only at hhistory happ
        rw [← hargs, hhistory, happ]
      · exact .inl hold
    · intro m hm clusterId appId restore hkey hunnoted
      rcases List.mem_cons.mp hm with rfl | hold
      · cases hkey
      · exact .inr ⟨hold, hunnoted, (Option.some_ne_none _).symm⟩

theorem inv_restoring (hs : Inv s) {listed : Listed} {cluster : ClusterRow} {apps : List Listed}
    (ht : s.ticks[i]? = some ⟨array, index, .restoring history listed cluster apps⟩) {input : Input}
    (hguard : Guard s (.tick i input)) :
    Inv { world := s.world,
          ticks := s.ticks.set i ⟨array, index,
            handleRestoreInProgress input history listed cluster apps⟩ } := by
  have hbefore : ListedBefore s.world (listed :: apps) := hs.ticks.each i _ ht
  rcases handleRestoreInProgress_cases input history listed cluster apps with
    ⟨hstatus, h⟩ | h | h | h
  · rw [h]
    obtain ⟨hothers, hoverdue⟩ := hguard _ ht hstatus
    refine inv_set hs ht hs.ticks.good (grows_refl s.world) ⟨hbefore, ?_⟩
      (fun m hm => .inl hm) ?_ ?_
    · intro m hm hkey
      rcases hoverdue with hunnoted | hfirst
      · -- it was sent and is not noted: another tick is about to note it
        obtain ⟨u, hu, hwrites⟩ := hs.noted m hm _ _ _ hkey hunnoted
        obtain ⟨j, hj⟩ := List.mem_iff_getElem?.mp hu
        have hji : j ≠ i := by
          rintro rfl
          rw [ht] at hj
          cases hj
          cases hwrites
        refine hothers j u hji hj ?_
        unfold Phase.writesFor at hwrites
        split at hwrites
        next hphase =>
          rw [hphase]
          exact hwrites
        next => cases hwrites
      · exact hfirst m hm hkey
    · intro j u hj hu _
      refine ⟨fun key hkey => (by cases hkey), fun key hkey => ?_⟩
      cases hkey
      exact hothers j u hj hu
    · exact fun m hm _ _ _ _ hunnoted => .inr ⟨hm, hunnoted, (Option.some_ne_none _).symm⟩
  · rw [h]
    exact inv_idle hs ht rfl ⟨rfl, rfl⟩ fun l hl => hbefore l (List.mem_cons_of_mem _ hl)
  · rw [h]
    exact inv_idle hs ht rfl ⟨rfl, rfl⟩ hbefore
  · rw [h]
    exact inv_idle hs ht rfl ⟨rfl, rfl⟩ hbefore

theorem inv_undeploying (hs : Inv s) {listed : Listed} {cluster : ClusterRow} {apps : List Listed}
    (ht : s.ticks[i]? = some ⟨array, index, .undeploying history listed cluster apps⟩)
    (env : Env) :
    Inv { world := (undeployApp s.world env history listed cluster apps).1,
          ticks := s.ticks.set i
            ⟨array, index, (undeployApp s.world env history listed cluster apps).2⟩ } := by
  obtain ⟨hbefore, hfirst⟩ := hs.ticks.each i _ ht
  rcases undeployApp_cases s.world env history listed cluster apps with h | ⟨args, hargs, h⟩
  · rw [h]
    exact inv_idle hs ht rfl ⟨rfl, rfl⟩ fun l hl => hbefore l (List.mem_cons_of_mem _ hl)
  · rw [h]
    have hrestore := hbefore listed List.mem_cons_self
    refine inv_set hs ht (good_emitUndeploy hs.ticks.good hargs hrestore hfirst)
      ⟨fun _ _ _ h => h, fun _ => le_rfl⟩ hbefore ?_ ?_ ?_
    · intro m hm
      rcases List.mem_cons.mp hm with rfl | hold
      · refine .inr fun u happart => ⟨fun _ _ => rfl, fun key hkey hsent => ?_⟩
        obtain ⟨restore, hpurpose, rfl⟩ := undeployOf_eq_some.mp hsent
        cases hpurpose
        dsimp only at hkey
        rw [hargs] at hkey
        exact happart.undeploysFor _ rfl hkey
      · exact .inl hold
    · intro j u _ _ happart
      exact ⟨fun key hkey => (by cases hkey), happart.undeploysFor⟩
    · intro m hm clusterId appId restore hkey hunnoted
      rcases List.mem_cons.mp hm with rfl | hold
      · left
        rw [← hkey]
        unfold Message.undeployOf
        dsimp only
        rw [hargs]
        rfl
      · exact .inr ⟨hold, hunnoted, (Option.some_ne_none _).symm⟩

theorem inv_tick (hs : Inv s) {t : Tick} (ht : s.ticks[i]? = some t) {input : Input}
    (hguard : Guard s (.tick i input)) :
    Inv { world := (t.step s.world input).1, ticks := s.ticks.set i (t.step s.world input).2 } := by
  have hfits := hs.ticks.each i t ht
  obtain ⟨array, index, phase⟩ := t
  cases phase with
  | entry loop =>
    obtain ⟨hentry, hidle⟩ := fits_entry (s := s) ⟨array, index, .entry loop⟩ loop
    exact inv_idle hs ht rfl hidle hentry
  | deployApps history apps =>
    cases apps with
    | nil => exact inv_idle hs ht rfl ⟨rfl, rfl⟩ trivial
    | cons app apps =>
      obtain ⟨hnext, hidle⟩ := fits_nextDeploy array index hs.ticks.good history app apps
      exact inv_idle hs ht rfl hidle hnext
  | checking history app seen apps => exact inv_check hs ht hguard
  | rendering history app seen apps => exact inv_render hs ht hguard
  | failed history app sequence err apps =>
    exact inv_statement hs ht (idle_deployApps history apps) hfits
      fun _ _ _ h => ⟨unnoted_of_app rfl h, (Option.some_ne_none _).symm⟩
  | restoreApps history apps =>
    cases apps with
    | nil => exact inv_idle hs ht rfl ⟨rfl, rfl⟩ trivial
    | cons listed apps =>
      have htail : ListedBefore s.world apps := fun l hl => hfits l (List.mem_cons_of_mem _ hl)
      have hnext : Fits s.world ⟨array, index, nextRestore s.world history listed apps⟩ ∧
          Tick.Idle ⟨array, index, nextRestore s.world history listed apps⟩ := by
        unfold nextRestore
        split
        next =>
          split
          next => exact ⟨trivial, rfl, rfl⟩
          next => exact ⟨hfits, rfl, rfl⟩
        next => exact ⟨htail, rfl, rfl⟩
      exact inv_idle hs ht rfl hnext.2 hnext.1
  | restoring history listed cluster apps => exact inv_restoring hs ht hguard
  | undeploying history listed cluster apps => exact inv_undeploying hs ht input.env
  | undeployed history listed apps =>
    refine inv_statement hs ht (idle_restoreApps history apps)
      (fun l hl => hfits l (List.mem_cons_of_mem _ hl)) fun clusterId appId restore h => ?_
    obtain ⟨hunnoted, hother⟩ := unnoted_undeployStatus h
    refine ⟨hunnoted, fun hkey => hother ?_⟩
    cases hkey
    rfl
  | restored history listed apps =>
    have htail : ListedBefore s.world apps := fun l hl => hfits l (List.mem_cons_of_mem _ hl)
    show Inv { world := (deployRestored s.world input history listed apps).1,
               ticks := s.ticks.set i
                 ⟨array, index, (deployRestored s.world input history listed apps).2⟩ }
    unfold deployRestored
    split
    next => exact inv_idle hs ht rfl (idle_restoreApps history apps) htail
    next =>
      exact inv_statement hs ht ⟨rfl, rfl⟩ hfits
        fun _ _ _ h => ⟨unnoted_of_app rfl h, (Option.some_ne_none _).symm⟩
  | resetting history listed apps =>
    exact inv_statement hs ht (idle_restoreApps history apps)
      (fun l hl => hfits l (List.mem_cons_of_mem _ hl))
      fun _ _ _ h => ⟨unnoted_reset h, (Option.some_ne_none _).symm⟩
  | done => exact inv_idle hs ht rfl ⟨rfl, rfl⟩ trivial

end Steps

/-- A change of the world that is not a tick's. -/
theorem inv_share {s : State} (hs : Inv s) {w' : World} (hgood : Good w') (hgrows : Grows s.world w')
    (hmessages : w'.messages = s.world.messages)
    (hunnoted : ∀ appId restore, restore ≤ s.world.restores appId → Unnoted w' appId restore →
      Unnoted s.world appId restore) : Inv { s with world := w' } := by
  constructor
  case ticks =>
    refine hs.ticks.share hgood fun t _ hfits => hfits.grows hgrows fun m hm => .inl ?_
    rw [← hmessages]
    exact hm
  case noted =>
    intro m hm clusterId appId restore hkey h
    have hold : m ∈ s.world.messages := by rw [← hmessages]; exact hm
    refine hs.noted m hold clusterId appId restore hkey (hunnoted appId restore ?_ h)
    obtain ⟨restore', hpurpose, heq⟩ := undeployOf_eq_some.mp hkey
    cases heq
    exact hs.ticks.good.restores m hold restore hpurpose

/-- The arrays and the rooms are of no account here. -/
theorem good_connections {w w' : World} (h : Good w)
    (hsame : w' = { w with arrays := w'.arrays, array := w'.array, connected := w'.connected,
                           pushed := w'.pushed }) : Good w' := by
  rw [hsame]
  exact ⟨h.values, h.receivers, h.observed, h.last, h.newer, h.restores, h.differs⟩

theorem inv_initiateRestore {s : State} (hs : Inv s) (snapshotName : String) (appId : AppId) :
    Inv { s with world :=
      { s.world.setDb (KotsAppStore.initiateRestore s.world.db snapshotName appId) with
        restores := Function.update s.world.restores appId (s.world.restores appId + 1) } } := by
  have hgood := good_setDb hs.ticks.good (KotsAppStore.initiateRestore s.world.db snapshotName appId)
  have hle : ∀ appId', s.world.restores appId' ≤
      Function.update s.world.restores appId (s.world.restores appId + 1) appId' := by
    intro appId'
    by_cases heq : appId' = appId
    · rw [heq, Function.update_self]
      omega
    · rw [Function.update_of_ne heq]
  refine inv_share hs ?_ ⟨fun _ _ _ h => observes_setDb h, hle⟩ rfl ?_
  · exact { hgood with
      restores := fun m hm restore hpurpose => (hgood.restores m hm restore hpurpose).trans (hle _) }
  · rintro appId' restore hrestore ⟨hcurrent, hprogress, hstatus⟩
    dsimp only at hcurrent
    have hother : appId' ≠ appId := by
      rintro rfl
      rw [Function.update_self] at hcurrent
      omega
    rw [Function.update_of_ne hother] at hcurrent
    unfold World.setDb at hstatus
    dsimp only at hstatus
    rw [restoreUndeployStatus_initiateRestore] at hstatus
    exact ⟨hcurrent, inProgress_initiateRestore hother hprogress, hstatus⟩

theorem inv_step {s s' : State} {a : Action} (hs : Inv s) (hguard : Guard s a)
    (hstep : machine.step s a = some s') : Inv s' := by
  cases a with
  | connect history gone =>
    simp only [machine, step] at hstep
    split at hstep
    next => cases hstep
    next =>
      cases hstep
      exact inv_share hs (good_connections hs.ticks.good rfl)
        ⟨fun _ _ _ h => h, fun _ => le_rfl⟩ rfl
        fun _ _ _ h => h
  | disconnect socketId =>
    cases hstep
    exact inv_share hs (good_connections hs.ticks.good rfl)
      ⟨fun _ _ _ h => h, fun _ => le_rfl⟩ rfl fun _ _ _ h => h
  | start loop =>
    cases hstep
    constructor
    case ticks =>
      refine hs.ticks.concat apart_symm trivial fun u _ _ => ?_
      exact Tick.Idle.apart ⟨rfl, rfl⟩ u
    case noted =>
      intro m hm clusterId appId restore hkey h
      obtain ⟨t, ht, hwrites⟩ := hs.noted m hm clusterId appId restore hkey h
      exact ⟨t, List.mem_append_left _ ht, hwrites⟩
  | tick i input =>
    obtain ⟨t, ht, rfl⟩ := Option.map_eq_some_iff.mp hstep
    exact inv_tick hs ht hguard
  | deployVersion appId sequence now =>
    cases hstep
    exact inv_share hs (good_setDb hs.ticks.good _) (grows_setDb s.world _) rfl
      fun _ _ _ h => unnoted_of_app rfl h
  | initiateRestore snapshotName appId =>
    simp only [machine, step] at hstep
    split at hstep
    next => cases hstep
    next =>
      cases hstep
      exact inv_initiateRestore hs snapshotName appId
  | cancelRestore appId =>
    cases hstep
    exact inv_share hs (good_setDb hs.ticks.good _) (grows_setDb s.world _) rfl
      fun _ _ _ h => unnoted_reset h
  | undeployResult appId status =>
    cases hstep
    exact inv_share hs (good_setDb hs.ticks.good _) (grows_setDb s.world _) rfl
      fun _ _ _ h => (unnoted_undeployStatus h).1

theorem inv_init {s : State} (h : Init s) : Inv s := by
  have hgood : Good s.world := by
    constructor
    case values => exact h.values
    case last => intro history appId; rw [h.lastDeployedSequences, h.messages]; rfl
    case newer => rw [h.messages]; exact List.Pairwise.nil
    case differs => rw [h.messages]; exact List.Pairwise.nil
    all_goals intro m hm; rw [h.messages] at hm; cases hm
  constructor
  case ticks =>
    rw [h.ticks]
    exact Processes.inv_nil hgood
  case noted =>
    intro m hm
    rw [h.messages] at hm
    cases hm

/-- **Versions and undeploys are sent once, in every run without overlaps and shared rooms.** -/
theorem oncePerConnection_everyState {s : State} (hs : machine.Reachable Init Guard s) :
    OncePerConnection s := by
  have hinv : machine.EveryState Init Guard Inv :=
    Machine.everyState_of_inv (fun _ => inv_init) fun _ _ _ => inv_step
  exact oncePerConnection_of_good (hinv s hs).ticks.good

/-- A tick sends the version to the only connection. -/
theorem oncePerConnection_firstTick : ∃ s, machine.Reachable Init Guard s ∧
    s.world.messages.length = 1 ∧ OncePerConnection s := by
  have hinit := Machine.Reachable.init (M := machine) (G := Guard) init_startedState
  have hstarted := hinit.run [.connect ⟨"c1", "s1"⟩ false, .start .deployLoop] (by simp [Guard]) rfl
  have hentry := hstarted.step (a := echoTick 0) (fun t ht => by cases ht; trivial) rfl
  have hnext := hentry.step (a := echoTick 0) (fun t ht => by cases ht; trivial) rfl
  have hchecked := hnext.step (a := echoTick 0) (fun t ht => by
    cases ht
    intro _
    refine ⟨fun j u hj hu => ?_, fun m hm => nomatch hm⟩
    cases j with
    | zero => exact absurd rfl hj
    | succ j => cases hu) rfl
  have hsent := hchecked.step (a := echoTick 0) (fun t ht => by
    cases ht
    intro other hother _
    exact List.mem_singleton.mp hother) rfl
  exact ⟨_, hsent, rfl, oncePerConnection_everyState hsent⟩

/-! ### Each part of the condition is needed -/

/-- Two ticks check the version before either of them sends it. -/
theorem not_oncePerConnection_overlap :
    ¬ machine.EveryState Init Machine.Free OncePerConnection := by
  refine Machine.not_everyState init_startedState
    [.connect ⟨"c1", "s1"⟩ false, .start .deployLoop, .start .deployLoop,
      echoTick 0, echoTick 0, echoTick 0, echoTick 1, echoTick 1, echoTick 1,
      echoTick 0, echoTick 1] rfl ?_
  intro honce
  exact absurd (honce.deploy ⟨"c1", "s1"⟩ "app" 0) (by decide)

/-- One tick sends the version for each of the two sockets in a room. -/
theorem not_oncePerConnection_room :
    ¬ machine.EveryState Init Machine.Free OncePerConnection := by
  refine Machine.not_everyState init_startedState
    [.connect ⟨"c1", "s1"⟩ false, .connect ⟨"c1", "s2"⟩ false, .start .deployLoop,
      echoTick 0, echoTick 0, echoTick 0, echoTick 0, echoTick 0,
      echoTick 0, echoTick 0, echoTick 0, echoTick 0] rfl ?_
  intro honce
  exact absurd (honce.deploy ⟨"c1", "s1"⟩ "app" 0) (by decide)

/-- Two ticks list the app before either of them notes its undeploy. -/
theorem not_oncePerConnection_undeploy :
    ¬ machine.EveryState Init Machine.Free OncePerConnection := by
  refine Machine.not_everyState init_startedState
    [.connect ⟨"c1", "s1"⟩ false, .initiateRestore "b1" "app",
      .start .restoreLoop, .start .restoreLoop, echoTick 0, echoTick 1,
      echoTick 0, echoTick 0, echoTick 0, echoTick 0, echoTick 1, echoTick 1, echoTick 1] rfl ?_
  intro honce
  exact absurd (honce.undeploy "c1" "app" 1) (by decide)

end Kotsadm.Ticks
