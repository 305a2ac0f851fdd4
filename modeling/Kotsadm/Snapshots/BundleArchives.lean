import Kotsadm.Snapshots.BackupBundles

/-!
# BundleArchives — what the id of a support bundle leads to

The id is recorded in the backup after everything else.  It is made of the name alone, so a backup of
another namespace replaces the archive before its row is refused.
-/

namespace Kotsadm.Snapshots.BackupInformer

theorem Backup.annotationOf_annotate {b : Backup} {a : Dictionary String String}
    {key key' value : String} (ha : b.annotations = some a) (hne : key ≠ key') :
    (b.annotate a key value).annotationOf key' = b.annotationOf key' := by
  unfold Backup.annotationOf Backup.annotate
  rw [ha]
  dsimp only [Option.bind_some]
  rw [Dictionary.get_set, if_neg hne]

theorem Backup.annotationOf_annotate_self {b : Backup} {a : Dictionary String String}
    {key value : String} : (b.annotate a key value).annotationOf key = some value := by
  unfold Backup.annotationOf Backup.annotate
  dsimp only [Option.bind_some]
  rw [Dictionary.get_set, if_pos rfl]

/-- The bundle of this id can be shown with its analysis. -/
def Analyzed (s : State) (id : String) : Prop :=
  (∃ row, s.supportbundle.get id = some row ∧ row.status = "analyzed") ∧ id ∈ s.analyses

namespace Recorded

/-- Nothing is removed, and a bundle stays analyzed. -/
structure Grows (s t : State) : Prop where
  history : s.backups.history ⊆ t.backups.history
  rows : ∀ id row, s.supportbundle.get id = some row →
    ∃ row', t.supportbundle.get id = some row' ∧ (row.status = "analyzed" → row'.status = "analyzed")
  analyses : s.analyses ⊆ t.analyses

structure Good (s : State) : Prop where
  recorded : ∀ key v b id, (key, v, b) ∈ s.backups.history →
    b.annotationOf supportBundleId = some id → id = bundleId key ∧ Analyzed s id

def Each (s : State) (w : Watch) : Prop :=
  match w.phase with
  | .analyzing job => ∃ row, s.supportbundle.get job.id = some row
  | .marked job => ∃ row, s.supportbundle.get job.id = some row ∧ row.status = "analyzed"
  | .created job | .recording job _ _ => Analyzed s job.id
  | .panicked => ∃ e ∈ s.backups.history, e.2.2.annotations = none
  | _ => True

def Inv (s : State) : Prop := Processes.Inv Good Each (fun _ _ => True) s s.watches

variable {s t : State} {w w' : Watch}

theorem Grows.analyzed (h : Grows s t) {id : String} (hid : Analyzed s id) : Analyzed t id := by
  obtain ⟨⟨row, hrow, hstatus⟩, hmem⟩ := hid
  obtain ⟨row', hrow', hkept⟩ := h.rows id row hrow
  exact ⟨⟨row', hrow', hkept hstatus⟩, h.analyses hmem⟩

theorem Grows.each (h : Grows s t) (hw : Each s w) : Each t w := by
  unfold Each at hw ⊢
  split
  next job hphase =>
    rw [hphase] at hw
    obtain ⟨row, hrow⟩ := hw
    obtain ⟨row', hrow', -⟩ := h.rows job.id row hrow
    exact ⟨row', hrow'⟩
  next job hphase =>
    rw [hphase] at hw
    obtain ⟨row, hrow, hstatus⟩ := hw
    obtain ⟨row', hrow', hkept⟩ := h.rows job.id row hrow
    exact ⟨row', hrow', hkept hstatus⟩
  next job hphase =>
    rw [hphase] at hw
    exact h.analyzed hw
  next job _ _ hphase =>
    rw [hphase] at hw
    exact h.analyzed hw
  next hphase =>
    rw [hphase] at hw
    obtain ⟨e, he, hnil⟩ := hw
    exact ⟨e, h.history he, hnil⟩
  next => trivial

theorem grows_of_eq (hhistory : s.backups.history ⊆ t.backups.history)
    (hrows : t.supportbundle = s.supportbundle) (hanalyses : t.analyses = s.analyses) :
    Grows s t where
  history := hhistory
  rows := fun _ row hrow => ⟨row, hrows ▸ hrow, id⟩
  analyses := hanalyses ▸ List.Subset.refl _

theorem Good.grows (h : Good s) (hgrows : Grows s t)
    (hnew : ∀ e ∈ t.backups.history, e ∈ s.backups.history ∨
      ∀ id, e.2.2.annotationOf supportBundleId = some id → id = bundleId e.1 ∧ Analyzed t id) :
    Good t := by
  refine ⟨fun key v b id hmem hid => ?_⟩
  rcases hnew _ hmem with hold | hnew
  · obtain ⟨heq, hanalyzed⟩ := h.recorded key v b id hold hid
    exact ⟨heq, hgrows.analyzed hanalyzed⟩
  · exact hnew id hid

/-- A write that leaves the id as it is. -/
theorem Good.put (h : Good s) (hgood : s.backups.Good) {key : Key} {v : Nat} {b b' : Backup}
    (hget : s.backups.get key = some (v, b))
    (hsame : b'.annotationOf supportBundleId = b.annotationOf supportBundleId) :
    Good { s with backups := s.backups.put key b' } := by
  have hgrows : Grows s { s with backups := s.backups.put key b' } :=
    grows_of_eq (fun e he => Versioned.mem_put.mpr (.inl he)) rfl rfl
  refine h.grows hgrows ?_
  intro e he
  rcases Versioned.mem_put.mp he with he | rfl
  · exact .inl he
  · right
    intro id hid
    obtain ⟨heq, hanalyzed⟩ := h.recorded key v b id (hgood.written key v b hget) (hsame.symm.trans hid)
    exact ⟨heq, hgrows.analyzed hanalyzed⟩

theorem Inv.set (h : Inv s) {i : Nat} (hw : s.watches[i]? = some w) (hgrows : Grows s t)
    (hgood : Good t) (hwatches : t.watches = s.watches) (heach : Each t w') :
    Inv (t.setWatch i w') := by
  unfold Inv State.setWatch
  dsimp only
  rw [hwatches]
  have hset := grows_of_eq (s := t) (t := { t with watches := s.watches.set i w' })
    (List.Subset.refl _) rfl rfl
  refine Processes.Inv.set h (fun _ _ => id) hw (hgood.grows hset fun e he => .inl he)
    (hset.each heach) ?_
  exact fun q _ hq _ => ⟨hset.each (hgrows.each hq), trivial⟩

/-- A step of a watch that only changes where it is. -/
theorem Inv.keep (h : Inv s) {i : Nat} (hw : s.watches[i]? = some w) (heach : Each s w') :
    Inv (s.setWatch i w') :=
  h.set hw (grows_of_eq (List.Subset.refl _) rfl rfl) h.good rfl heach

theorem Inv.share (h : Inv s) (hgrows : Grows s t) (hgood : Good t) (hwatches : t.watches = s.watches) :
    Inv t := by
  unfold Inv
  rw [hwatches]
  exact Processes.Inv.share h hgood fun _ _ hq => hgrows.each hq

theorem each_handle {key : Key} {version : Nat} {backup : Backup} {now : String}
    (hmem : (key, version, backup) ∈ s.backups.history) (seen : Nat) :
    Each s { seen := seen, phase := handle key version backup now } := by
  unfold handle
  split
  · split
    · trivial
    · split
      next hnil => exact ⟨_, hmem, hnil⟩
      next => trivial
  · trivial

theorem Inv.next {i : Nat} (h : Inv s) (hinv : s.Inv) (hw : s.watches[i]? = some w)
    (hnext : Next s w t w') : Inv (t.setWatch i w') := by
  have heach := h.each i w hw
  have hevent := hinv.each i w hw
  have hgood := hinv.good.tracked.good
  unfold Each at heach
  unfold State.Each at hevent
  cases hnext with
  | receive e now hmem => exact h.keep hw (each_handle hmem _)
  | idle phase hphase => rcases hphase with rfl | rfl <;> exact h.keep hw trivial
  | collect => exact h.keep hw trivial
  | call | upload =>
    exact h.set hw (grows_of_eq (List.Subset.refl _) rfl rfl)
      (h.good.grows (grows_of_eq (List.Subset.refl _) rfl rfl) fun e he => .inl he) rfl trivial
  | annotate job version backup backups hphase hupdate =>
    rw [hphase] at hevent
    obtain ⟨-, b, a, now, hmem, -, -, ha, rfl⟩ := hevent
    unfold Versioned.update at hupdate
    split at hupdate
    next hat =>
      cases hupdate
      exact h.set hw (grows_of_eq (fun e he => Versioned.mem_put.mpr (.inl he)) rfl rfl)
        (h.good.put hgood (hgood.current hmem hat) (Backup.annotationOf_annotate ha (by decide))) rfl
        trivial
    next => cases hupdate
  | insert job archive hphase hfree =>
    have hgrows : Grows s { s with
        supportbundle := s.supportbundle.set job.id
          { watchId := job.appId, size := archive.size, status := "uploaded",
            treeIndex := archive.tree } } := by
      refine ⟨List.Subset.refl _, ?_, List.Subset.refl _⟩
      intro id row hrow
      have hne : job.id ≠ id := by
        rintro rfl
        rw [hfree] at hrow
        cases hrow
      exact ⟨row, (Dictionary.get_set _ _ _ _).trans ((if_neg hne).trans hrow), fun h => h⟩
    refine h.set hw hgrows (h.good.grows hgrows fun e he => .inl he) rfl ?_
    exact ⟨_, (Dictionary.get_set _ _ _ _).trans (if_pos rfl)⟩
  | analyze job hphase =>
    rw [hphase] at heach
    obtain ⟨row, hrow⟩ := heach
    have hgrows : Grows s { s with
        supportbundle := s.supportbundle.modify job.id fun row =>
          { row with status := "analyzed" } } := by
      refine ⟨List.Subset.refl _, ?_, List.Subset.refl _⟩
      intro id row hrow
      dsimp only
      rw [Dictionary.get_modify]
      split
      next => exact ⟨{ row with status := "analyzed" }, by rw [hrow]; rfl, fun _ => rfl⟩
      next => exact ⟨row, hrow, fun h => h⟩
    refine h.set hw hgrows (h.good.grows hgrows fun e he => .inl he) rfl ?_
    refine ⟨{ row with status := "analyzed" }, ?_, rfl⟩
    dsimp only
    rw [Dictionary.get_modify, if_pos rfl, hrow]
    rfl
  | mark job hphase =>
    rw [hphase] at heach
    have hgrows : Grows s { s with analyses := s.analyses ++ [job.id] } :=
      ⟨List.Subset.refl _, fun _ row hrow => ⟨row, hrow, id⟩, fun _ => List.mem_append_left _⟩
    refine h.set hw hgrows (h.good.grows hgrows fun e he => .inl he) rfl ⟨heach, ?_⟩
    exact List.mem_append_right _ (List.mem_singleton_self _)
  | read job version backup a hphase hget ha =>
    rw [hphase] at heach
    exact h.keep hw heach
  | panic job version backup hget ha =>
    exact h.keep hw ⟨_, hgood.written _ _ _ hget, ha⟩
  | record job version backup backups hphase hupdate =>
    rw [hphase] at heach hevent
    obtain ⟨b, a, hmem, ha, rfl⟩ := hevent
    unfold Versioned.update at hupdate
    split at hupdate
    next hat =>
      cases hupdate
      have hgrows : Grows s { s with
          backups := s.backups.put job.key (b.annotate a supportBundleId job.id) } :=
        grows_of_eq (fun e he => Versioned.mem_put.mpr (.inl he)) rfl rfl
      refine h.set hw hgrows (h.good.grows hgrows ?_) rfl trivial
      intro e he
      rcases Versioned.mem_put.mp he with he | rfl
      · exact .inl he
      · right
        intro id hid
        rw [Backup.annotationOf_annotate_self] at hid
        cases hid
        exact ⟨rfl, hgrows.analyzed heach⟩
    next => cases hupdate

theorem Inv.start (h : Inv s) (seen : Nat) :
    Inv { s with watches := s.watches ++ [{ seen := seen }] } := by
  have hnew : Each s { seen := seen } := trivial
  have hconcat := Processes.Inv.concat h (fun _ _ => id) hnew fun _ _ _ => trivial
  have hgrows : Grows s { s with watches := s.watches ++ [{ seen := seen }] } :=
    grows_of_eq (List.Subset.refl _) rfl rfl
  exact Processes.Inv.share hconcat (h.good.grows hgrows fun e he => .inl he) fun _ _ => hgrows.each

theorem Inv.step {a : Action} (h : Inv s) (hinv : s.Inv) (ha : KeepsBundleId s a)
    (hstep : Steps s a t) : Inv t := by
  have hgood := hinv.good.tracked.good
  cases hstep with
  | create key phase annotations hfree =>
    have hgrows : Grows s { s with
        backups := s.backups.put key
          { uid := s.backups.revision + 1, phase := phase, annotations := annotations } } :=
      grows_of_eq (fun e he => Versioned.mem_put.mpr (.inl he)) rfl rfl
    refine h.share hgrows (h.good.grows hgrows ?_) rfl
    intro e he
    rcases Versioned.mem_put.mp he with he | rfl
    · exact .inl he
    · right
      intro id hid
      cases ha.2.symm.trans hid
  | modify key phase annotations v b hget =>
    exact h.share (grows_of_eq (fun e he => Versioned.mem_put.mpr (.inl he)) rfl rfl)
      (h.good.put hgood hget (ha.2 v b hget)) rfl
  | delete key =>
    exact h.share (grows_of_eq (List.Subset.refl _) rfl rfl)
      (h.good.grows (grows_of_eq (List.Subset.refl _) rfl rfl) fun e he => .inl he) rfl
  | start seen => exact h.start seen
  | watch a i w w' t hw hnext => exact h.next hinv hw hnext
  | restart i seen w hw => exact (h.next hinv hw (.idle .closed (.inr rfl))).start seen

end Recorded

/-! ## The archive of a row -/

theorem bundleId_inj {key key' : Key} (h : bundleId key = bundleId key') : key.2 = key'.2 :=
  String.append_right_inj "backup-" |>.mp h

/-- A new backup has a name that no backup had before. -/
def OwnName (s : State) (a : Action) : Prop :=
  KeepsRequested s a ∧
    match a with
    | .create key _ _ => ∀ e ∈ s.backups.history, e.1.2 ≠ key.2
    | _ => True

/-- The size and the tree are those of the archive that is stored under the id. -/
def Row.Of (s : State) (id : String) (row : Row) : Prop :=
  ∃ archive, s.archives.get id = some archive ∧ row.size = archive.size ∧
    row.treeIndex = archive.tree

/-- The job whose row does not exist yet. -/
def Phase.pending : Phase → Option Job
  | .collecting job | .uploading job _ | .inserting job _ => some job
  | _ => none

namespace Owned

structure Good (s : State) : Prop where
  names : ∀ e ∈ s.backups.history, ∀ e' ∈ s.backups.history, e.1.2 = e'.1.2 →
    e.2.2.uid = e'.2.2.uid
  rows : ∀ id row, s.supportbundle.get id = some row →
    (∃ e ∈ s.called, id = bundleId e.2) ∧ row.Of s id

structure Pending (s : State) (job : Job) : Prop where
  called : (job.uid, job.key) ∈ s.called
  free : s.supportbundle.get job.id = none

def Each (s : State) (w : Watch) : Prop :=
  match w.phase with
  | .collecting job | .uploading job _ => Pending s job
  | .inserting job archive => Pending s job ∧ s.archives.get job.id = some archive
  | _ => True

def Apart (w w' : Watch) : Prop :=
  ∀ job job', w.phase.pending = some job → w'.phase.pending = some job' → job.id ≠ job'.id

def Inv (s : State) : Prop := Processes.Inv Good Each Apart s s.watches

variable {s t : State} {w w' : Watch}

theorem Apart.symm (h : Apart w w') : Apart w' w :=
  fun job job' hj hj' heq => h job' job hj' hj heq.symm

theorem apart_of_none (h : w.phase.pending = none) : Apart w w' := by
  intro job _ hjob
  rw [h] at hjob
  cases hjob

theorem Each.pending {job : Job} (h : Each s w) (hjob : w.phase.pending = some job) :
    Pending s job := by
  unfold Phase.pending at hjob
  unfold Each at h
  split at hjob
  next hphase =>
    cases hjob
    rw [hphase] at h
    exact h
  next hphase =>
    cases hjob
    rw [hphase] at h
    exact h
  next hphase =>
    cases hjob
    rw [hphase] at h
    exact h.1
  next => cases hjob

/-- The bundle of another job, or nothing of the bundles, has changed. -/
theorem Each.of_pending (h : Each s w)
    (hpending : ∀ job, w.phase.pending = some job → Pending s job → Pending t job ∧
      t.archives.get job.id = s.archives.get job.id) : Each t w := by
  unfold Each at h ⊢
  split
  next hphase =>
    rw [hphase] at h hpending
    exact (hpending _ rfl h).1
  next hphase =>
    rw [hphase] at h hpending
    exact (hpending _ rfl h).1
  next hphase =>
    rw [hphase] at h hpending
    obtain ⟨hnew, hsame⟩ := hpending _ rfl h.1
    exact ⟨hnew, hsame.trans h.2⟩
  next => trivial

/-- The bundles are as they were. -/
structure Same (s t : State) : Prop where
  supportbundle : t.supportbundle = s.supportbundle
  archives : t.archives = s.archives
  called : t.called = s.called

theorem Same.each (h : Same s t) (hw : Each s w) : Each t w := by
  refine hw.of_pending fun job _ hpending => ⟨⟨?_, ?_⟩, by rw [h.archives]⟩
  · rw [h.called]
    exact hpending.called
  · rw [h.supportbundle]
    exact hpending.free

theorem Same.good (h : Same s t) (hgood : Good s)
    (hnames : ∀ e ∈ t.backups.history, ∃ e' ∈ s.backups.history, e'.1 = e.1 ∧ e'.2.2.uid = e.2.2.uid) :
    Good t := by
  refine ⟨?_, ?_⟩
  · intro e₁ h₁ e₂ h₂ hname
    obtain ⟨e₁', h₁', hkey₁, huid₁⟩ := hnames e₁ h₁
    obtain ⟨e₂', h₂', hkey₂, huid₂⟩ := hnames e₂ h₂
    rw [← huid₁, ← huid₂]
    refine hgood.names e₁' h₁' e₂' h₂' ?_
    rw [hkey₁, hkey₂]
    exact hname
  · unfold Row.Of
    rw [h.supportbundle, h.archives, h.called]
    exact hgood.rows

/-- The backup was written again. -/
theorem names_put {key : Key} {v : Nat} {b b' : Backup} (hgood : s.backups.Good)
    (hget : s.backups.get key = some (v, b)) (huid : b'.uid = b.uid) :
    ∀ e ∈ (s.backups.put key b').history,
      ∃ e' ∈ s.backups.history, e'.1 = e.1 ∧ e'.2.2.uid = e.2.2.uid := by
  intro e he
  rcases Versioned.mem_put.mp he with he | rfl
  · exact ⟨e, he, rfl, rfl⟩
  · exact ⟨_, hgood.written key v b hget, rfl, huid.symm⟩

theorem Inv.set (h : Inv s) {i : Nat} (hw : s.watches[i]? = some w) (hgood : Good t)
    (hwatches : t.watches = s.watches) (heach : Each t w')
    (hother : ∀ q, Each s q → Apart w q → Each t q ∧ Apart w' q) : Inv (t.setWatch i w') := by
  unfold Inv State.setWatch
  dsimp only
  rw [hwatches]
  have hset : Same t { t with watches := s.watches.set i w' } := ⟨rfl, rfl, rfl⟩
  refine Processes.Inv.set h (fun _ _ => Apart.symm) hw
    (hset.good hgood fun e he => ⟨e, he, rfl, rfl⟩) (hset.each heach) ?_
  intro q _ hq hapart
  obtain ⟨hq', hapart'⟩ := hother q hq hapart
  exact ⟨hset.each hq', hapart'⟩

/-- A step that leaves the bundles as they are. -/
theorem Inv.same (h : Inv s) {i : Nat} (hw : s.watches[i]? = some w) (hsame : Same s t)
    (hnames : ∀ e ∈ t.backups.history, ∃ e' ∈ s.backups.history, e'.1 = e.1 ∧ e'.2.2.uid = e.2.2.uid)
    (hwatches : t.watches = s.watches) (heach : Each t w') (hpending : w'.phase.pending = none) :
    Inv (t.setWatch i w') :=
  h.set hw (hsame.good h.good hnames) hwatches heach fun _ hq _ =>
    ⟨hsame.each hq, apart_of_none hpending⟩

theorem Inv.keep (h : Inv s) {i : Nat} (hw : s.watches[i]? = some w) (heach : Each s w')
    (hpending : w'.phase.pending = none) : Inv (s.setWatch i w') :=
  h.same hw ⟨rfl, rfl, rfl⟩ (fun e he => ⟨e, he, rfl, rfl⟩) rfl heach hpending

theorem each_handle (s : State) (key : Key) (version : Nat) (backup : Backup) (now : String)
    (seen : Nat) : Each s { seen := seen, phase := handle key version backup now } ∧
      (handle key version backup now).pending = none := by
  unfold handle
  split
  · split
    · exact ⟨trivial, rfl⟩
    · split <;> exact ⟨trivial, rfl⟩
  · exact ⟨trivial, rfl⟩

/-- A job that is not among the calls has another name than those that are. -/
theorem ne_of_called (h : Good s) (hinv : s.Inv) {job : Job} (htakes : s.Takes job)
    {e : Nat × Key} (he : e ∈ s.called) : job.id ≠ bundleId e.2 := by
  intro hid
  obtain ⟨v, b, hmem, huid, -⟩ := htakes.failed
  obtain ⟨v', b', hmem', huid', -⟩ := hinv.good.failed e he
  have heq : b.uid = b'.uid := h.names _ hmem _ hmem' (bundleId_inj hid)
  apply htakes.fresh
  rw [← huid, heq, huid']
  exact List.mem_map_of_mem he

theorem Inv.next {i : Nat} (h : Inv s) (hinv : s.Inv) (hw : s.watches[i]? = some w)
    (hnext : Next s w t w') : Inv (t.setWatch i w') := by
  have heach := h.each i w hw
  have hevent := hinv.each i w hw
  have hgood := hinv.good.tracked.good
  unfold State.Each at hevent
  cases hnext with
  | receive e now hmem =>
    obtain ⟨heach', hpending⟩ := each_handle s e.1 e.2.1 e.2.2 now (w.seen + 1)
    exact h.keep hw heach' hpending
  | idle phase hphase => rcases hphase with rfl | rfl <;> exact h.keep hw trivial rfl
  | panic => exact h.keep hw trivial rfl
  | read => exact h.keep hw trivial rfl
  | mark => exact h.same hw ⟨rfl, rfl, rfl⟩ (fun e he => ⟨e, he, rfl, rfl⟩) rfl trivial rfl
  | collect job archive hphase =>
    have hpending := heach.pending (by rw [hphase]; rfl)
    refine h.set hw h.good rfl hpending fun q hq hapart => ⟨hq, ?_⟩
    intro j j' hj hj'
    cases hj
    exact hapart job j' (by rw [hphase]; rfl) hj'
  | annotate job version backup backups hphase hupdate =>
    rw [hphase] at hevent
    obtain ⟨-, b, a, now, hmem, -, -, ha, rfl⟩ := hevent
    unfold Versioned.update at hupdate
    split at hupdate
    next hat =>
      cases hupdate
      exact h.same hw ⟨rfl, rfl, rfl⟩ (names_put hgood (hgood.current hmem hat) rfl) rfl trivial rfl
    next => cases hupdate
  | record job version backup backups hphase hupdate =>
    rw [hphase] at hevent
    obtain ⟨b, a, hmem, ha, rfl⟩ := hevent
    unfold Versioned.update at hupdate
    split at hupdate
    next hat =>
      cases hupdate
      exact h.same hw ⟨rfl, rfl, rfl⟩ (names_put hgood (hgood.current hmem hat) rfl) rfl trivial rfl
    next => cases hupdate
  | call job hphase =>
    rw [hphase] at hevent
    have hne := fun {e : Nat × Key} (he : e ∈ s.called) => ne_of_called h.good hinv hevent he
    have hfree : s.supportbundle.get job.id = none := by
      rw [Option.eq_none_iff_forall_ne_some]
      intro row hrow
      obtain ⟨⟨e, he, hid⟩, -⟩ := h.good.rows _ row hrow
      exact hne he hid
    refine h.set hw ⟨h.good.names, ?_⟩ rfl ⟨List.mem_append_right _ (List.mem_singleton_self _), hfree⟩ ?_
    · intro id row hrow
      obtain ⟨⟨e, he, hid⟩, hof⟩ := h.good.rows id row hrow
      exact ⟨⟨e, List.mem_append_left _ he, hid⟩, hof⟩
    · intro q hq _
      refine ⟨hq.of_pending fun j _ hj => ⟨⟨List.mem_append_left _ hj.called, hj.free⟩, rfl⟩, ?_⟩
      intro j j' hj hj'
      cases hj
      exact hne (hq.pending hj').called
  | upload job archive hphase =>
    have hpending := heach.pending (by rw [hphase]; rfl)
    have hother : ∀ id, id ≠ job.id →
        (s.archives.set job.id archive).get id = s.archives.get id :=
      fun id hne => (Dictionary.get_set _ _ _ _).trans (if_neg (Ne.symm hne))
    refine h.set hw ⟨h.good.names, ?_⟩ rfl
      ⟨⟨hpending.called, hpending.free⟩, (Dictionary.get_set _ _ _ _).trans (if_pos rfl)⟩ ?_
    · intro id row hrow
      obtain ⟨hcalled, stored, hstored, hof⟩ := h.good.rows id row hrow
      refine ⟨hcalled, stored, (hother id ?_).trans hstored, hof⟩
      rintro rfl
      cases hpending.free.symm.trans hrow
    · intro q hq hapart
      have hne : ∀ j', q.phase.pending = some j' → job.id ≠ j'.id :=
        fun j' hj' => hapart job j' (by rw [hphase]; rfl) hj'
      refine ⟨hq.of_pending fun j hj hp => ⟨⟨hp.called, hp.free⟩, hother _ (hne j hj).symm⟩, ?_⟩
      intro j j' hj hj'
      cases hj
      exact hne j' hj'
  | insert job archive hphase hfree =>
    unfold Each at heach
    rw [hphase] at heach
    have hget : ∀ id row, (s.supportbundle.set job.id row).get id =
        if job.id = id then some row else s.supportbundle.get id :=
      fun id row => Dictionary.get_set _ _ _ _
    refine h.set hw ⟨h.good.names, ?_⟩ rfl trivial ?_
    · intro id row hrow
      dsimp only at hrow
      rw [hget] at hrow
      split at hrow
      next heq =>
        cases hrow
        exact ⟨⟨_, heach.1.called, heq.symm⟩, archive, heq ▸ heach.2, rfl, rfl⟩
      next => exact h.good.rows id row hrow
    · intro q hq hapart
      refine ⟨hq.of_pending fun j hj hp => ⟨⟨hp.called, ?_⟩, rfl⟩, apart_of_none rfl⟩
      dsimp only
      rw [hget, if_neg (hapart job j (by rw [hphase]; rfl) hj)]
      exact hp.free
  | analyze job hphase =>
    refine h.set hw ⟨h.good.names, ?_⟩ rfl trivial ?_
    · intro id row hrow
      dsimp only at hrow
      rw [Dictionary.get_modify] at hrow
      split at hrow
      next =>
        obtain ⟨old, hold, rfl⟩ := Option.map_eq_some_iff.mp hrow
        exact h.good.rows id old hold
      next => exact h.good.rows id row hrow
    · intro q hq _
      refine ⟨hq.of_pending fun j hj hp => ⟨⟨hp.called, ?_⟩, rfl⟩, apart_of_none rfl⟩
      dsimp only
      rw [Dictionary.get_modify, hp.free]
      split <;> rfl

theorem Inv.share (h : Inv s) (hsame : Same s t) (hgood : Good t) (hwatches : t.watches = s.watches) :
    Inv t := by
  unfold Inv
  rw [hwatches]
  exact Processes.Inv.share h hgood fun _ _ hq => hsame.each hq

theorem Inv.start (h : Inv s) (seen : Nat) :
    Inv { s with watches := s.watches ++ [{ seen := seen }] } := by
  have hnew : Each s { seen := seen } := trivial
  have hconcat := Processes.Inv.concat h (fun _ _ => Apart.symm) hnew fun _ _ _ => apart_of_none rfl
  have hsame : Same s { s with watches := s.watches ++ [{ seen := seen }] } := ⟨rfl, rfl, rfl⟩
  exact Processes.Inv.share hconcat (hsame.good h.good fun e he => ⟨e, he, rfl, rfl⟩) fun _ _ =>
    hsame.each

theorem Inv.step {a : Action} (h : Inv s) (hinv : s.Inv) (ha : OwnName s a) (hstep : Steps s a t) :
    Inv t := by
  cases hstep with
  | create key phase annotations hfree =>
    refine h.share ⟨rfl, rfl, rfl⟩ ⟨?_, h.good.rows⟩ rfl
    intro e₁ h₁ e₂ h₂ hname
    rcases Versioned.mem_put.mp h₁ with h₁ | rfl <;> rcases Versioned.mem_put.mp h₂ with h₂ | rfl
    · exact h.good.names e₁ h₁ e₂ h₂ hname
    · exact absurd hname (ha.2 e₁ h₁)
    · exact absurd hname.symm (ha.2 e₂ h₂)
    · rfl
  | modify key phase annotations v b hget =>
    have hsame : Same s { s with
        backups := s.backups.put key { b with phase := phase, annotations := annotations } } :=
      ⟨rfl, rfl, rfl⟩
    exact h.share hsame (hsame.good h.good (names_put hinv.good.tracked.good hget rfl)) rfl
  | delete key =>
    have hsame : Same s { s with backups := s.backups.delete key } := ⟨rfl, rfl, rfl⟩
    exact h.share hsame (hsame.good h.good fun e he => ⟨e, he, rfl, rfl⟩) rfl
  | start seen => exact h.start seen
  | watch a i w w' t hw hnext => exact h.next hinv hw hnext
  | restart i seen w hw => exact (h.next hinv hw (.idle .closed (.inr rfl))).start seen

end Owned

/-- Two backups of one name: the second one is refused when its archive is stored already. -/
def sameName : List Action :=
  let archive : Nat → Archive := fun size => { contents := "logs", size := size, tree := "[]" }
  [.start 0, .receive 0 "now", .receive 0 "now", .step 0, .step 0, .collect 0 (archive 1), .step 0,
    .step 0, .step 0, .step 0, .step 0, .step 0, .receive 0 "now", .receive 0 "now", .step 0, .step 0,
    .collect 0 (archive 2), .step 0, .step 0]

theorem replaced_reachable : ∃ s, informer.Reachable Init KeepsBundleId s ∧
    ∃ id row, s.supportbundle.get id = some row ∧ ¬ row.Of s id := by
  have hone := reachable_fails (.init rfl) ("velero", "b") rfl
  have htwo := reachable_fails hone ("other", "b") (by decide)
  have hend : (informer.run
      { backups := fails (fails { objects := .empty } ("velero", "b")) ("other", "b") } sameName).map
      (fun s => ((s.supportbundle.get "backup-b").map Row.size,
        (s.archives.get "backup-b").map Archive.size)) = some (some 1, some 2) := by decide
  obtain ⟨s, hrun, hs⟩ := Option.map_eq_some_iff.mp hend
  obtain ⟨hrow, harchive⟩ := Prod.mk.inj hs
  obtain ⟨row, hrow, hsize⟩ := Option.map_eq_some_iff.mp hrow
  refine ⟨s, htwo.run sameName ?_ hrun, "backup-b", row, hrow, ?_⟩
  · intro a ha t
    simp only [sameName, List.mem_cons, List.not_mem_nil, or_false] at ha
    rcases ha with rfl | rfl | rfl | rfl | rfl | rfl | rfl | rfl | rfl | rfl | rfl | rfl | rfl | rfl |
      rfl | rfl | rfl | rfl | rfl <;> exact ⟨trivial, trivial⟩
  · rintro ⟨archive, hstored, hof, -⟩
    rw [hstored] at harchive
    have := Option.some.inj harchive
    omega

/-- **What the id of a support bundle leads to.**  When nobody else writes the id, the id in a backup is
the one of its name, and its bundle is stored and analyzed; a watch panics only at a backup without
annotations.  When no two backups have one name, every row is about the archive that is stored under
its id.  Two backups of one name in two namespaces can break that. -/
theorem bundle_recorded :
    (informer.EveryState Init KeepsBundleId fun s =>
      (∀ key v b id, s.backups.get key = some (v, b) → b.annotationOf supportBundleId = some id →
        id = bundleId key ∧ Analyzed s id) ∧
      ∀ w ∈ s.watches, w.phase = .panicked → ∃ e ∈ s.backups.history, e.2.2.annotations = none) ∧
    (informer.EveryState Init OwnName fun s =>
      ∀ id row, s.supportbundle.get id = some row → row.Of s id) ∧
    ∃ s, informer.Reachable Init KeepsBundleId s ∧
      ∃ id row, s.supportbundle.get id = some row ∧ ¬ row.Of s id := by
  refine ⟨?_, ?_, replaced_reachable⟩
  · intro s hs
    have hinv : s.Inv ∧ Recorded.Inv s := by
      refine Machine.everyState_of_inv (I := fun t => t.Inv ∧ Recorded.Inv t) (fun t ht => ?_)
        (fun t a t' h ha hstep => ?_) s hs
      · exact ht ▸ ⟨State.inv_init, Processes.inv_nil ⟨fun _ _ _ _ h => (by cases h)⟩⟩
      · have hsteps := State.steps_of_step hstep
        exact ⟨h.1.step ha.1 hsteps, h.2.step h.1 ha hsteps⟩
    refine ⟨fun key v b id hget hid => ?_, fun w hw hphase => ?_⟩
    · exact hinv.2.good.recorded key v b id (hinv.1.good.tracked.good.written key v b hget) hid
    · obtain ⟨i, hi⟩ := List.mem_iff_getElem?.mp hw
      have heach := hinv.2.each i w hi
      unfold Recorded.Each at heach
      rw [hphase] at heach
      exact heach
  · intro s hs
    have hinv : s.Inv ∧ Owned.Inv s := by
      refine Machine.everyState_of_inv (I := fun t => t.Inv ∧ Owned.Inv t) (fun t ht => ?_)
        (fun t a t' h ha hstep => ?_) s hs
      · exact ht ▸ ⟨State.inv_init, Processes.inv_nil
          ⟨fun _ h => (by cases h), fun _ _ h => (by cases h)⟩⟩
      · have hsteps := State.steps_of_step hstep
        exact ⟨h.1.step ha.1 hsteps, h.2.step h.1 ha hsteps⟩
    exact fun id row hrow => (hinv.2.good.rows id row hrow).2

end Kotsadm.Snapshots.BackupInformer
