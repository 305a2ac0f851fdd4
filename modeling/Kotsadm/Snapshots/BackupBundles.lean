import Kotsadm.Lib.Processes
import Kotsadm.Lib.Refinement
import Kotsadm.Snapshots.BackupInformer

/-!
# BackupBundles — one support bundle for a backup, or none

The annotation goes in by the version that was read, so only one of the watches gets through.  It
goes in before the bundle is made, and nothing makes up for a bundle that fails.
-/

namespace Kotsadm.Snapshots.BackupInformer

/-! ## Annotations -/

namespace Backup

variable {b : Backup} {a : Dictionary String String} {key value : String}

theorem requested_annotate : (b.annotate a supportBundleRequested value).Requested := by
  unfold Requested annotationOf annotate
  dsimp only [Option.bind_some]
  rw [Dictionary.get_set, if_pos rfl]
  rfl

/-- An annotation that is there stays. -/
theorem Requested.annotate (h : b.Requested) (ha : b.annotations = some a) :
    (b.annotate a key value).Requested := by
  unfold Requested annotationOf at h ⊢
  rw [ha] at h
  unfold Backup.annotate
  dsimp only [Option.bind_some] at h ⊢
  rw [Dictionary.get_set]
  split
  · rfl
  · exact h

end Backup

/-! ## What is known of the backups -/

/-- A backup has one key from its creation on. -/
structure Tracked (t : Versioned Key Backup) : Prop where
  good : t.Good
  uids : ∀ key v b, (key, v, b) ∈ t.history → b.uid ≤ v
  keys : ∀ key v b key' v' b', (key, v, b) ∈ t.history → (key', v', b') ∈ t.history →
    b.uid = b'.uid → key = key'

/-- The backup was created, and if it still is there the bundle is requested. -/
structure Marked (t : Versioned Key Backup) (uid : Nat) : Prop where
  bound : uid ≤ t.revision
  stored : ∀ key v b, t.get key = some (v, b) → b.uid = uid → b.Requested

/-- A write that keeps the annotation. -/
inductive Change (t : Versioned Key Backup) : Versioned Key Backup → Prop
  | same : Change t t
  | create (key : Key) (b : Backup) (huid : b.uid = t.revision + 1) : Change t (t.put key b)
  | write (key : Key) (v : Nat) (b b' : Backup) (hget : t.get key = some (v, b))
      (huid : b'.uid = b.uid) (hkeeps : b.Requested → b'.Requested) : Change t (t.put key b')
  | delete (key : Key) : Change t (t.delete key)

namespace Change

variable {t t' : Versioned Key Backup} {uid : Nat}

theorem revision_le (h : Change t t') : t.revision ≤ t'.revision := by
  cases h with
  | same => exact Nat.le_refl _
  | create | write | delete => exact Nat.le_succ _

theorem history (h : Change t t') {e : Key × Nat × Backup} (he : e ∈ t.history) :
    e ∈ t'.history := by
  cases h with
  | same | delete => exact he
  | create | write => exact Versioned.mem_put.mpr (.inl he)

theorem tracked (h : Change t t') (ht : Tracked t) : Tracked t' := by
  cases h with
  | same => exact ht
  | delete key => exact ⟨ht.good.delete key, ht.uids, ht.keys⟩
  | create key b huid =>
    have hnew : ∀ key' v' b', (key', v', b') ∈ t.history → b'.uid ≠ b.uid := by
      intro key' v' b' hmem heq
      have hle := ht.uids key' v' b' hmem
      have hbound := ht.good.bound key' v' b' hmem
      omega
    refine ⟨ht.good.put key b, ?_, ?_⟩
    · intro key' v' b' hmem
      rcases Versioned.mem_put.mp hmem with hmem | heq
      · exact ht.uids key' v' b' hmem
      · cases heq
        exact Nat.le_of_eq huid
    · intro k₁ v₁ b₁ k₂ v₂ b₂ h₁ h₂ heq
      rcases Versioned.mem_put.mp h₁ with h₁ | h₁ <;> rcases Versioned.mem_put.mp h₂ with h₂ | h₂
      · exact ht.keys k₁ v₁ b₁ k₂ v₂ b₂ h₁ h₂ heq
      · cases h₂
        exact absurd heq (hnew k₁ v₁ b₁ h₁)
      · cases h₁
        exact absurd heq.symm (hnew k₂ v₂ b₂ h₂)
      · cases h₁
        cases h₂
        rfl
  | write key v b b' hget huid =>
    have hold := ht.good.written key v b hget
    refine ⟨ht.good.put key b', ?_, ?_⟩
    · intro key' v' b'' hmem
      rcases Versioned.mem_put.mp hmem with hmem | heq
      · exact ht.uids key' v' b'' hmem
      · cases heq
        have hle := ht.uids key v b hold
        have hbound := ht.good.bound key v b hold
        omega
    · intro k₁ v₁ b₁ k₂ v₂ b₂ h₁ h₂ heq
      rcases Versioned.mem_put.mp h₁ with h₁ | h₁ <;> rcases Versioned.mem_put.mp h₂ with h₂ | h₂
      · exact ht.keys k₁ v₁ b₁ k₂ v₂ b₂ h₁ h₂ heq
      · cases h₂
        exact ht.keys k₁ v₁ b₁ key v b h₁ hold (heq.trans huid)
      · cases h₁
        exact ht.keys key v b k₂ v₂ b₂ hold h₂ (huid.symm.trans heq)
      · cases h₁
        cases h₂
        rfl

theorem marked (h : Change t t') (hmarked : Marked t uid) : Marked t' uid := by
  refine ⟨Nat.le_trans hmarked.bound h.revision_le, ?_⟩
  cases h with
  | same => exact hmarked.stored
  | create key b huid =>
    intro key' v' b' hget heq
    rw [Versioned.get_put] at hget
    split at hget
    next =>
      cases hget
      have hbound := hmarked.bound
      omega
    next => exact hmarked.stored key' v' b' hget heq
  | write key v b b' hold huid hkeeps =>
    intro key' v' b'' hget heq
    rw [Versioned.get_put] at hget
    split at hget
    next =>
      cases hget
      exact hkeeps (hmarked.stored key v b hold (huid.symm.trans heq))
    next => exact hmarked.stored key' v' b'' hget heq
  | delete key =>
    intro key' v' b' hget heq
    by_cases hkey : key' = key
    · rw [hkey, Versioned.get_delete_self] at hget
      cases hget
    · rw [Versioned.get_delete_ne hkey] at hget
      exact hmarked.stored key' v' b' hget heq

end Change

/-- The event that a job goes back to: the backup has failed, after it was created. -/
def Failed (t : Versioned Key Backup) (uid : Nat) (key : Key) : Prop :=
  ∃ v b, (key, v, b) ∈ t.history ∧ b.uid = uid ∧ b.failed = true ∧ v ≠ uid

theorem Failed.change {t t' : Versioned Key Backup} (h : Change t t') {uid : Nat} {key : Key}
    (hfailed : Failed t uid key) : Failed t' uid key := by
  obtain ⟨v, b, hmem, hrest⟩ := hfailed
  exact ⟨v, b, h.history hmem, hrest⟩

/-! ## At most once -/

/-- Whoever modifies a backup leaves the annotation as it is. -/
def KeepsRequested (s : State) : Action → Prop
  | .modify key phase annotations => ∀ v b, s.backups.get key = some (v, b) → b.Requested →
      ({ uid := b.uid, phase := phase, annotations := annotations } : Backup).Requested
  | _ => True

/-- Nobody else writes the id, and whoever modifies a backup leaves the annotations as they are. -/
def KeepsBundleId (s : State) (a : Action) : Prop :=
  KeepsRequested s a ∧
    match a with
    | .create _ phase annotations =>
      ({ uid := 0, phase := phase, annotations := annotations } : Backup).annotationOf supportBundleId =
        none
    | .modify key phase annotations => ∀ v b, s.backups.get key = some (v, b) →
      ({ uid := b.uid, phase := phase, annotations := annotations } : Backup).annotationOf
        supportBundleId = b.annotationOf supportBundleId
    | _ => True

namespace State

variable {s s' : State}

def uids (s : State) : List Nat := s.called.map Prod.fst

structure CalledOnce (s : State) : Prop where
  tracked : Tracked s.backups
  nodup : s.uids.Nodup
  marked : ∀ uid ∈ s.uids, Marked s.backups uid
  failed : ∀ e ∈ s.called, Failed s.backups e.1 e.2

/-- What is on its way was made from an event without the annotation. -/
structure Annotates (s : State) (job : Job) (version : Nat) (backup : Backup) : Prop where
  failed : Failed s.backups job.uid job.key
  event : ∃ b a now, (job.key, version, b) ∈ s.backups.history ∧ b.uid = job.uid ∧ ¬ b.Requested ∧
    b.annotations = some a ∧ backup = b.annotate a supportBundleRequested now

/-- What goes in with the id was made from what was read. -/
def Records (s : State) (job : Job) (version : Nat) (backup : Backup) : Prop :=
  ∃ b a, (job.key, version, b) ∈ s.backups.history ∧ b.annotations = some a ∧
    backup = b.annotate a supportBundleId job.id

/-- The annotation is in, and the bundle is not asked for yet. -/
structure Takes (s : State) (job : Job) : Prop where
  fresh : job.uid ∉ s.uids
  marked : Marked s.backups job.uid
  failed : Failed s.backups job.uid job.key

def Each (s : State) (w : Watch) : Prop :=
  match w.phase with
  | .updating job version backup => s.Annotates job version backup
  | .updated job => s.Takes job
  | .recording job version backup => s.Records job version backup
  | _ => True

end State

def Phase.taken : Phase → Option Nat
  | .updated job => some job.uid
  | _ => none

/-- No two watches have annotated one backup. -/
def Watch.Apart (w w' : Watch) : Prop := ∀ uid, w.phase.taken = some uid → w'.phase.taken ≠ some uid

theorem Watch.Apart.symm {w w' : Watch} (h : w.Apart w') : w'.Apart w :=
  fun uid h' hw => h uid hw h'

namespace State

variable {s s' : State} {w : Watch}

def Inv (s : State) : Prop := Processes.Inv CalledOnce Each Watch.Apart s s.watches

theorem CalledOnce.change (h : s.CalledOnce) (hchange : Change s.backups s'.backups)
    (hcalled : s'.called = s.called) : s'.CalledOnce := by
  have huids : s'.uids = s.uids := congrArg (List.map Prod.fst) hcalled
  refine ⟨hchange.tracked h.tracked, ?_, ?_, ?_⟩
  · rw [huids]
    exact h.nodup
  · rw [huids]
    exact fun uid huid => hchange.marked (h.marked uid huid)
  · rw [hcalled]
    exact fun e he => (h.failed e he).change hchange

theorem Each.change (h : s.Each w) (hchange : Change s.backups s'.backups)
    (hcalled : s'.called = s.called) : s'.Each w := by
  have huids : s'.uids = s.uids := congrArg (List.map Prod.fst) hcalled
  unfold Each at h ⊢
  split
  next job version backup hphase =>
    rw [hphase] at h
    obtain ⟨hfailed, b, a, now, hmem, hrest⟩ := h
    exact ⟨hfailed.change hchange, b, a, now, hchange.history hmem, hrest⟩
  next job hphase =>
    rw [hphase] at h
    refine ⟨?_, hchange.marked h.marked, h.failed.change hchange⟩
    rw [huids]
    exact h.fresh
  next job version backup hphase =>
    rw [hphase] at h
    obtain ⟨b, a, hmem, hrest⟩ := h
    exact ⟨b, a, hchange.history hmem, hrest⟩
  next => trivial

/-- A change of what nobody looks at here, or of the backups. -/
theorem Inv.share (h : s.Inv) (hchange : Change s.backups s'.backups)
    (hcalled : s'.called = s.called) (hwatches : s'.watches = s.watches) : s'.Inv := by
  unfold Inv
  rw [hwatches]
  exact Processes.Inv.share h (h.good.change hchange hcalled) fun _ _ heach =>
    heach.change hchange hcalled

/-- A step of a watch that does not get the annotation in. -/
theorem Inv.set (h : s.Inv) {t : State} {i : Nat} (hw : s.watches[i]? = some w) {w' : Watch}
    (hchange : Change s.backups t.backups) (hcalled : t.called = s.called)
    (hwatches : t.watches = s.watches) (heach : s.Each w') (htaken : w'.phase.taken = none) :
    (t.setWatch i w').Inv := by
  unfold Inv setWatch
  dsimp only
  rw [hwatches]
  refine Processes.Inv.set h (fun _ _ => Watch.Apart.symm) hw (h.good.change hchange hcalled)
    (heach.change hchange hcalled) ?_
  intro q _ hq _
  refine ⟨hq.change hchange hcalled, ?_⟩
  intro uid huid
  rw [htaken] at huid
  cases huid

theorem Inv.start (h : s.Inv) (seen : Nat) :
    State.Inv { s with watches := s.watches ++ [{ seen := seen }] } := by
  have hnew : s.Each { seen := seen } := trivial
  have hconcat := Processes.Inv.concat h (fun _ _ => Watch.Apart.symm) hnew
    fun q _ _ uid huid => by cases huid
  exact Processes.Inv.share hconcat (h.good.change .same rfl) fun _ _ hq => hq.change .same rfl

/-- What an event leads to is made from it. -/
theorem each_handle {key : Key} {version : Nat} {backup : Backup} {now : String}
    (hmem : (key, version, backup) ∈ s.backups.history) (seen : Nat) :
    s.Each { seen := seen, phase := handle key version backup now } := by
  unfold handle
  split
  next hfailed =>
    split
    next => trivial
    next hrequested =>
      split
      next => trivial
      next a ha =>
        refine ⟨⟨version, backup, hmem, rfl, hfailed.2, hfailed.1⟩, backup, a, now, hmem, rfl, ?_, ha,
          rfl⟩
        unfold Backup.Requested
        rw [hrequested]
        exact Bool.false_ne_true
  next => trivial

theorem taken_handle {key : Key} {version : Nat} {backup : Backup} {now : String} :
    (handle key version backup now).taken = none := by
  unfold handle
  split
  · split
    · rfl
    · split <;> rfl
  · rfl

/-- The update got through, so no other one made from an older backup will. -/
theorem Annotates.change {job : Job} {version : Nat} {backup : Backup}
    {backups : Versioned Key Backup} (h : s.Annotates job version backup)
    (htracked : Tracked s.backups) (hupdate : s.backups.update job.key version backup = some backups) :
    Change s.backups backups ∧ Marked backups job.uid ∧
      ∃ b, s.backups.get job.key = some (version, b) ∧ b.uid = job.uid ∧ ¬ b.Requested := by
  obtain ⟨-, b, a, now, hmem, huid, hnot, ha, rfl⟩ := h
  unfold Versioned.update at hupdate
  split at hupdate
  next hat =>
    cases hupdate
    have hget := htracked.good.current hmem hat
    have hbound := htracked.good.bound _ _ _ hmem
    have hle := htracked.uids _ _ _ hmem
    refine ⟨.write job.key version b _ hget rfl fun hreq => absurd hreq hnot, ⟨?_, ?_⟩, b, hget, huid,
      hnot⟩
    · show job.uid ≤ s.backups.revision + 1
      omega
    · intro key' v' b' hget' huid'
      rw [Versioned.get_put] at hget'
      split at hget'
      next =>
        cases hget'
        exact Backup.requested_annotate
      next hne =>
        -- the backup is under one key only
        have hmem' := htracked.good.written key' v' b' hget'
        exact absurd (htracked.keys _ _ _ _ _ _ hmem hmem' (huid.trans huid'.symm)) hne
  next => cases hupdate

theorem Records.change {job : Job} {version : Nat} {backup : Backup}
    {backups : Versioned Key Backup} (h : s.Records job version backup)
    (htracked : Tracked s.backups) (hupdate : s.backups.update job.key version backup = some backups) :
    Change s.backups backups := by
  obtain ⟨b, a, hmem, ha, rfl⟩ := h
  unfold Versioned.update at hupdate
  split at hupdate
  next hat =>
    cases hupdate
    exact .write job.key version b _ (htracked.good.current hmem hat) rfl fun hreq => hreq.annotate ha
  next => cases hupdate

theorem uids_call (job : Job) :
    State.uids { s with called := s.called ++ [(job.uid, job.key)] } = s.uids ++ [job.uid] :=
  List.map_append

theorem Inv.next {t : State} {i : Nat} {w' : Watch} (h : s.Inv) (hw : s.watches[i]? = some w)
    (hnext : Next s w t w') : (t.setWatch i w').Inv := by
  have heach := h.each i w hw
  have hgood : s.CalledOnce := h.good
  unfold Each at heach
  cases hnext with
  | receive e now hmem => exact h.set hw .same rfl rfl (each_handle hmem _) taken_handle
  | idle phase hphase => rcases hphase with rfl | rfl <;> exact h.set hw .same rfl rfl trivial rfl
  | collect | upload | insert | analyze | mark | panic => exact h.set hw .same rfl rfl trivial rfl
  | read job version backup a hphase hget ha =>
    exact h.set hw .same rfl rfl ⟨backup, a, hgood.tracked.good.written _ _ _ hget, ha, rfl⟩ rfl
  | record job version backup backups hphase hupdate =>
    rw [hphase] at heach
    exact h.set hw (heach.change hgood.tracked hupdate) rfl rfl trivial rfl
  | annotate job version backup backups hphase hupdate =>
    rw [hphase] at heach
    obtain ⟨hchange, hmarked, b, hget, huid, hnot⟩ := heach.change hgood.tracked hupdate
    refine Processes.Inv.set h (fun _ _ => Watch.Apart.symm) hw (hgood.change hchange rfl) ?_ ?_
    · refine ⟨?_, hmarked, heach.failed.change hchange⟩
      intro hmem
      exact hnot ((hgood.marked job.uid hmem).stored _ _ _ hget huid)
    · intro q _ hq _
      refine ⟨hq.change hchange rfl, ?_⟩
      rintro uid huid' htaken
      obtain rfl := Option.some.inj huid'
      unfold Each at hq
      unfold Phase.taken at htaken
      split at htaken
      next job' hphase' =>
        rw [hphase'] at hq
        exact hnot (hq.marked.stored _ _ _ hget (huid.trans (Option.some.inj htaken).symm))
      next => cases htaken
  | call job hphase =>
    rw [hphase] at heach
    refine Processes.Inv.set h (fun _ _ => Watch.Apart.symm) hw ⟨hgood.tracked, ?_, ?_, ?_⟩ trivial ?_
    · show (State.uids { s with called := s.called ++ [(job.uid, job.key)] }).Nodup
      rw [uids_call, ← List.concat_eq_append]
      exact hgood.nodup.concat heach.fresh
    · intro uid huid
      change uid ∈ State.uids { s with called := s.called ++ [(job.uid, job.key)] } at huid
      rw [uids_call] at huid
      rcases List.mem_append.mp huid with huid | huid
      · exact hgood.marked uid huid
      · exact List.mem_singleton.mp huid ▸ heach.marked
    · intro e he
      rcases List.mem_append.mp he with he | he
      · exact hgood.failed e he
      · obtain rfl := List.mem_singleton.mp he
        exact heach.failed
    · intro q _ hq hapart
      refine ⟨?_, fun uid huid => by cases huid⟩
      unfold Each at hq ⊢
      split
      next hphase' =>
        rw [hphase'] at hq
        exact ⟨hq.failed, hq.event⟩
      next job' hphase' =>
        rw [hphase'] at hq
        refine ⟨?_, hq.marked, hq.failed⟩
        show job'.uid ∉ State.uids { s with called := s.called ++ [(job.uid, job.key)] }
        rw [uids_call]
        intro hmem
        rcases List.mem_append.mp hmem with hmem | hmem
        · exact hq.fresh hmem
        · refine hapart job.uid ?_ ?_
          · rw [hphase]
            rfl
          · rw [hphase', ← List.mem_singleton.mp hmem]
            rfl
      next hphase' =>
        rw [hphase'] at hq
        exact hq
      next => trivial

theorem Inv.step {a : Action} (h : s.Inv) (ha : KeepsRequested s a) (hstep : Steps s a s') :
    s'.Inv := by
  cases hstep with
  | create key phase annotations hfree => exact h.share (.create key _ rfl) rfl rfl
  | modify key phase annotations v b hget =>
    exact h.share (.write key v b _ hget rfl (ha v b hget)) rfl rfl
  | delete key => exact h.share (.delete key) rfl rfl
  | start seen => exact h.start seen
  | watch a i w w' t hw hnext => exact h.next hw hnext
  | restart i seen w hw => exact (h.next hw (.idle .closed (.inr rfl))).start seen

theorem inv_init : State.Inv {} :=
  Processes.inv_nil
    { tracked := ⟨Versioned.good_empty, fun _ _ _ h => (by cases h), fun _ _ _ _ _ _ h => (by cases h)⟩
      nodup := List.nodup_nil
      marked := fun _ h => (by cases h)
      failed := fun _ h => (by cases h) }

end State

theorem everyState_inv : informer.EveryState Init KeepsRequested State.Inv :=
  Machine.everyState_of_inv (fun _ hs => hs ▸ State.inv_init) fun _ _ _ h ha hstep =>
    h.step ha (State.steps_of_step hstep)

/-! ## What is lost -/

/-- The annotation of a backup is in, and no watch is about to have its bundle created. -/
structure Lost (s : State) (uid : Nat) : Prop where
  stored : ∃ key v b, s.backups.get key = some (v, b) ∧ b.uid = uid ∧ b.Requested
  uncalled : uid ∉ s.uids
  untaken : ∀ w ∈ s.watches, w.phase.taken ≠ some uid

namespace Lost

variable {s s' : State} {uid : Nat}

/-- What is left of it when the backup is changed or deleted. -/
structure Kept (uid : Nat) (s : State) : Prop where
  marked : Marked s.backups uid
  uncalled : uid ∉ s.uids
  untaken : ∀ w ∈ s.watches, w.phase.taken ≠ some uid

theorem kept (h : Lost s uid) (htracked : Tracked s.backups) : Kept uid s := by
  obtain ⟨key, v, b, hget, huid, hrequested⟩ := h.stored
  have hmem := htracked.good.written key v b hget
  refine ⟨⟨?_, ?_⟩, h.uncalled, h.untaken⟩
  · have hle := htracked.uids key v b hmem
    have hbound := htracked.good.bound key v b hmem
    omega
  · intro key' v' b' hget' huid'
    have hmem' := htracked.good.written key' v' b' hget'
    obtain rfl := htracked.keys _ _ _ _ _ _ hmem hmem' (huid.trans huid'.symm)
    cases hget.symm.trans hget'
    exact hrequested

theorem Kept.change {t : State} (h : Kept uid s) (hchange : Change s.backups t.backups)
    (hcalled : t.called = s.called) (hwatches : ∀ w ∈ t.watches, w ∈ s.watches ∨ w.phase.taken = none) :
    Kept uid t := by
  refine ⟨hchange.marked h.marked, ?_, ?_⟩
  · unfold State.uids
    rw [hcalled]
    exact h.uncalled
  · intro w hw
    rcases hwatches w hw with hold | hnone
    · exact h.untaken w hold
    · rw [hnone]
      exact fun hsome => by cases hsome

theorem Kept.set {t : State} {w : Watch} (h : Kept uid s) {i : Nat}
    (hchange : Change s.backups t.backups) (hcalled : t.called = s.called)
    (hwatches : t.watches = s.watches) (htaken : w.phase.taken = none) : Kept uid (t.setWatch i w) := by
  refine h.change hchange hcalled ?_
  intro w' hw'
  change w' ∈ t.watches.set i w at hw'
  rw [hwatches] at hw'
  rcases List.mem_or_eq_of_mem_set hw' with hw' | rfl
  · exact .inl hw'
  · exact .inr htaken

theorem Kept.next {t : State} {i : Nat} {w w' : Watch} (h : Kept uid s) (hinv : s.Inv)
    (hw : s.watches[i]? = some w) (hnext : Next s w t w') : Kept uid (t.setWatch i w') := by
  have heach := hinv.each i w hw
  unfold State.Each at heach
  cases hnext with
  | receive e now hmem => exact h.set .same rfl rfl State.taken_handle
  | idle phase hphase => rcases hphase with rfl | rfl <;> exact h.set .same rfl rfl rfl
  | collect | upload | insert | analyze | mark | panic | read => exact h.set .same rfl rfl rfl
  | record job version backup backups hphase hupdate =>
    rw [hphase] at heach
    exact h.set (heach.change hinv.good.tracked hupdate) rfl rfl rfl
  | annotate job version backup backups hphase hupdate =>
    rw [hphase] at heach
    obtain ⟨hchange, -, b, hget, huid, hnot⟩ := heach.change hinv.good.tracked hupdate
    refine ⟨hchange.marked h.marked, h.uncalled, ?_⟩
    intro w' hw'
    rcases List.mem_or_eq_of_mem_set hw' with hw' | rfl
    · exact h.untaken w' hw'
    · intro heq
      exact hnot (h.marked.stored _ _ _ hget (huid.trans (Option.some.inj heq)))
  | call job hphase =>
    have hne : job.uid ≠ uid := by
      intro heq
      apply h.untaken w (List.mem_of_getElem? hw)
      rw [hphase]
      exact congrArg some heq
    refine ⟨h.marked, ?_, ?_⟩
    · show uid ∉ State.uids { s with called := s.called ++ [(job.uid, job.key)] }
      rw [State.uids_call]
      intro hmem
      rcases List.mem_append.mp hmem with hmem | hmem
      · exact h.uncalled hmem
      · exact hne (List.mem_singleton.mp hmem).symm
    · intro w' hw'
      rcases List.mem_or_eq_of_mem_set hw' with hw' | rfl
      · exact h.untaken w' hw'
      · exact fun heq => by cases heq

theorem Kept.start (h : Kept uid s) (seen : Nat) :
    Kept uid { s with watches := s.watches ++ [{ seen := seen }] } := by
  refine h.change .same rfl ?_
  intro w hw
  rcases List.mem_append.mp hw with hw | hw
  · exact .inl hw
  · rw [List.mem_singleton.mp hw]
    exact .inr rfl

theorem Kept.step {a : Action} (h : Kept uid s) (hinv : s.Inv) (ha : KeepsRequested s a)
    (hstep : Steps s a s') : Kept uid s' := by
  cases hstep with
  | create key phase annotations hfree => exact h.change (.create key _ rfl) rfl fun _ => .inl
  | modify key phase annotations v b hget =>
    exact h.change (.write key v b _ hget rfl (ha v b hget)) rfl fun _ => .inl
  | delete key => exact h.change (.delete key) rfl fun _ => .inl
  | start seen => exact h.start seen
  | watch a i w w' t hw hnext => exact h.next hinv hw hnext
  | restart i seen w hw => exact (h.next hinv hw (.idle .closed (.inr rfl))).start seen

end Lost

/-- A backup is created, and fails. -/
def fails (t : Versioned Key Backup) (key : Key) : Versioned Key Backup :=
  let backup : String → Backup := fun phase =>
    { uid := t.revision + 1, phase := phase, annotations := some .empty }
  (t.put key (backup "InProgress")).put key (backup "Failed")

theorem reachable_fails {s : State} (h : informer.Reachable Init KeepsBundleId s) (key : Key)
    (hfree : s.backups.get key = none) :
    informer.Reachable Init KeepsBundleId { s with backups := fails s.backups key } := by
  have hcreate : informer.step s (.create key "InProgress" (some .empty)) =
      some { s with
        backups := s.backups.put key
          { uid := s.backups.revision + 1, phase := "InProgress", annotations := some .empty } } := by
    unfold informer State.step
    dsimp only
    rw [hfree]
  have hkeeps : KeepsBundleId s (.create key "InProgress" (some .empty)) := ⟨trivial, rfl⟩
  refine (h.step hkeeps hcreate).step (a := .modify key "Failed" (some .empty)) ⟨?_, ?_⟩ ?_
  · intro v b hget hrequested
    cases Versioned.get_put_self.symm.trans hget
    exact absurd hrequested Bool.false_ne_true
  · intro v b hget
    cases Versioned.get_put_self.symm.trans hget
    rfl
  · unfold informer State.step
    dsimp only
    rw [Versioned.get_put_self]
    rfl

/-- The answer to the update is lost. -/
def lostAnswer : List Action :=
  [.start 0, .receive 0 "now", .receive 0 "now", .step 0, .fail 0]

theorem lost_reachable : ∃ s, informer.Reachable Init KeepsRequested s ∧ Lost s 1 := by
  have hfailed := reachable_fails (.init rfl) ("velero", "b") rfl
  have hend : (informer.run { backups := fails { objects := .empty } ("velero", "b") } lostAnswer).map
      (fun s =>
      ((s.backups.get ("velero", "b")).map fun e => (e.1, e.2.uid, decide e.2.Requested), s.uids,
        s.watches.map fun w => w.phase.taken)) = some (some (3, 1, true), [], [none]) := by decide
  obtain ⟨s, hrun, hs⟩ := Option.map_eq_some_iff.mp hend
  simp only [Prod.mk.injEq] at hs
  obtain ⟨hbackup, huids, hwatches⟩ := hs
  obtain ⟨⟨v, b⟩, hget, hb⟩ := Option.map_eq_some_iff.mp hbackup
  simp only [Prod.mk.injEq, decide_eq_true_eq] at hb
  refine ⟨s, (hfailed.mono fun _ _ ha => ha.1).run lostAnswer ?_ hrun, ⟨_, v, b, hget, hb.2⟩, ?_, ?_⟩
  · intro a ha t
    simp only [lostAnswer, List.mem_cons, List.not_mem_nil, or_false] at ha
    rcases ha with rfl | rfl | rfl | rfl | rfl <;> trivial
  · rw [huids]
    exact List.not_mem_nil
  · intro w hw
    have htaken : w.phase.taken ∈ [none] := hwatches ▸ List.mem_map_of_mem hw
    rw [List.mem_singleton.mp htaken]
    exact fun h => by cases h

/-- **One bundle, or none.**  However many watches there are and however old their events, a bundle is
asked for at most once for a backup, and only after it failed.  Where the annotation went in and the
bundle was not asked for, nobody ever does. -/
theorem called_once :
    (informer.EveryState Init KeepsRequested fun s =>
      s.uids.Nodup ∧ ∀ e ∈ s.called, Failed s.backups e.1 e.2) ∧
    (∀ s, informer.Reachable Init KeepsRequested s → ∀ uid, Lost s uid →
      informer.EveryState (· = s) KeepsRequested fun s' => uid ∉ s'.uids) ∧
    ∃ s, informer.Reachable Init KeepsRequested s ∧ ∃ uid, Lost s uid := by
  refine ⟨fun s hs => ⟨(everyState_inv s hs).good.nodup, (everyState_inv s hs).good.failed⟩, ?_, ?_⟩
  · intro s hs uid hlost s' hs'
    have hinv := everyState_inv s hs
    have hkept : s'.Inv ∧ Lost.Kept uid s' := by
      refine Machine.everyState_of_inv (I := fun t => t.Inv ∧ Lost.Kept uid t) (fun t ht => ?_)
        (fun t a t' h ha hstep => ?_) s' hs'
      · exact ht ▸ ⟨hinv, hlost.kept hinv.good.tracked⟩
      · have hsteps := State.steps_of_step hstep
        exact ⟨h.1.step ha hsteps, h.2.step h.1 ha hsteps⟩
    exact hkept.2.uncalled
  · obtain ⟨s, hs, hlost⟩ := lost_reachable
    exact ⟨s, hs, 1, hlost⟩

end Kotsadm.Snapshots.BackupInformer
