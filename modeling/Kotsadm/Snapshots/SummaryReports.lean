import Kotsadm.Lib.Refinement
import Kotsadm.Snapshots.FinalSummary

/-!
# SummaryReports — what the requests return, in every run

What a request has in its hands of a finished backup is about volumes that do not change any more,
or comes from what was stored of them.
-/

namespace Kotsadm.Snapshots.VolumeSummary

open JsInteger (Number)

variable {sha256 : String → String} {s s' t : State} {name : String}

/-! ## The invariant -/

section

variable (sha256)

/-- A summary is stored in a finished backup only, and is right. -/
structure Stored (s : State) : Prop where
  good : s.backups.Good
  finished : ∀ name v b, (name, v, b) ∈ s.backups.history → b.Finished →
    Final sha256 s name fun _ => True
  stored : ∀ name v b, (name, v, b) ∈ s.backups.history →
    b.Unstored ∨ b.Finished ∧ Final sha256 s name fun items => Right items b.Says

def Snapshot.Sound (s : State) (r : Snapshot) : Prop :=
  r.status ≠ some "New" → r.status ≠ some "InProgress" →
    Final sha256 s r.name fun items => Right items r.Says

def ListedBackup.Sound (s : State) (r : ListedBackup) : Prop :=
  r.status ≠ "New" → r.status ≠ "InProgress" →
    Final sha256 s r.name fun items => Right items r.Says

def Reader.Holds (s : State) : Reader → Prop
  | .read name version backup => (name, version, backup) ∈ s.backups.history ∧ ¬ backup.Bare
  | .summarized name version backup summary =>
    (name, version, backup) ∈ s.backups.history ∧ backup.Finished ∧
      Final sha256 s name fun items => getSnapshotVolumeSummary items = some summary
  | .listing rest backups => (∀ e ∈ rest, ∃ v, (e.1, v, e.2) ∈ s.backups.history) ∧
      ∀ entry ∈ backups, entry.Sound sha256 s
  | .done => True

structure Inv (s : State) : Prop extends Stored sha256 s where
  readers : ∀ reader ∈ s.readers, reader.Holds sha256 s
  snapshots : ∀ r ∈ s.snapshots, r.Sound sha256 s
  listed : ∀ r ∈ s.listed, r.Sound sha256 s

end

theorem Snapshot.Sound.change {r : Snapshot} (h : r.Sound sha256 s) (hc : Change sha256 s s') :
    r.Sound sha256 s' := fun hnew hprogress => (h hnew hprogress).change hc

theorem ListedBackup.Sound.change {r : ListedBackup} (h : r.Sound sha256 s)
    (hc : Change sha256 s s') : r.Sound sha256 s' :=
  fun hnew hprogress => (h hnew hprogress).change hc

theorem Reader.Holds.change {reader : Reader} (h : reader.Holds sha256 s)
    (hc : Change sha256 s s') : reader.Holds sha256 s' := by
  cases reader with
  | read name version backup => exact ⟨hc.history h.1, h.2⟩
  | summarized name version backup summary => exact ⟨hc.history h.1, h.2.1, h.2.2.change hc⟩
  | listing rest backups =>
    refine ⟨fun e he => ?_, fun entry hentry => (h.2 entry hentry).change hc⟩
    obtain ⟨v, hv⟩ := h.1 e he
    exact ⟨v, hc.history hv⟩
  | done => trivial

theorem Stored.put (h : Stored sha256 s) (hc : Change sha256 s s') {b : Backup}
    (hbackups : s'.backups = s.backups.put name b)
    (hfinished : b.Finished → Final sha256 s' name fun _ => True)
    (hstored : b.Unstored ∨ b.Finished ∧ Final sha256 s' name fun items => Right items b.Says) :
    Stored sha256 s' where
  good := hbackups ▸ h.good.put name b
  finished := by
    intro name' v b' hmem hfin
    rw [hbackups] at hmem
    rcases Versioned.mem_put.mp hmem with hold | heq
    · exact (h.finished name' v b' hold hfin).change hc
    · cases heq
      exact hfinished hfin
  stored := by
    intro name' v b' hmem
    rw [hbackups] at hmem
    rcases Versioned.mem_put.mp hmem with hold | heq
    · exact (h.stored name' v b' hold).imp_right fun hs => ⟨hs.1, hs.2.change hc⟩
    · cases heq
      exact hstored

theorem Stored.keep (h : Stored sha256 s) (hc : Change sha256 s s') (hgood : s'.backups.Good)
    (hhistory : s'.backups.history = s.backups.history) : Stored sha256 s' where
  good := hgood
  finished := fun name v b hmem hfin => (h.finished name v b (hhistory ▸ hmem) hfin).change hc
  stored := fun name v b hmem =>
    (h.stored name v b (hhistory ▸ hmem)).imp_right fun hs => ⟨hs.1, hs.2.change hc⟩

/-- The version that was just written is the current one. -/
theorem final_put {b : Backup} {p : List PodVolumeBackup → Prop}
    (hbackups : s'.backups = s.backups.put name b) (hfinished : b.Finished)
    (hp : p (s'.volumesOf sha256 name)) : Final sha256 s' name p where
  known := ⟨s.backups.revision + 1, b, hbackups ▸ Versioned.mem_put.mpr (.inr rfl)⟩
  settled := by
    intro v b' hget
    rw [hbackups] at hget
    cases Versioned.get_put_self.symm.trans hget
    exact ⟨hfinished, hp⟩

theorem Stored.change (h : Stored sha256 s) (hc : Change sha256 s s') : Stored sha256 s' := by
  cases hcase : hc with
  | same hbackups _ => exact h.keep hc (hbackups ▸ h.good) (by rw [hbackups])
  | create name b hfinished hstored _ hbackups _ =>
    exact h.put hc hbackups (fun hfin => absurd hfin hfinished) (.inl hstored)
  | write name v b b' _ _ hstored hbackups _ =>
    exact h.put hc hbackups (fun hfin => final_put hbackups hfin trivial)
      (hstored.imp_right fun hs => ⟨hs.1, hs.2.change hc⟩)
  | delete name hbackups _ =>
    exact h.keep hc (hbackups ▸ h.good.delete name) (by rw [hbackups]; rfl)
  | setVolumes label items _ hbackups _ => exact h.keep hc (hbackups ▸ h.good) (by rw [hbackups])

/-- What was stored, and read again, or computed when the backup was finished. -/
theorem Stored.final_volumes (h : Stored sha256 s) {v : Nat} {b : Backup}
    (hmem : (name, v, b) ∈ s.backups.history) (hfinished : b.Finished)
    {p : List PodVolumeBackup → Prop} (hnow : p (s.volumesOf sha256 name)) :
    Final sha256 s name p := (h.finished name v b hmem hfinished).volumes hnow

/-! ## Steps -/

/-- What a request does next. -/
inductive Next (sha256 : String → String) (s : State) : Reader → State → Reader → Prop
  | stop (reader : Reader) : Next sha256 s reader s .done
  | stored (name : String) (v : Nat) (b : Backup) (summary : VolumeSummary)
      (hsummary : b.summary = some summary) :
      Next sha256 s (.read name v b) { s with snapshots := s.snapshots ++ [b.snapshot name summary] }
        .done
  | unfinished (name : String) (v : Nat) (b : Backup) (summary : VolumeSummary)
      (hstores : b.stores = false) (hnone : b.summary = none) :
      Next sha256 s (.read name v b) { s with snapshots := s.snapshots ++ [b.snapshot name summary] }
        .done
  | summarize (name : String) (v : Nat) (b : Backup) (summary : VolumeSummary)
      (hnone : b.summary = none) (hstores : b.stores = true)
      (hsummary : getSnapshotVolumeSummary (s.volumesOf sha256 name) = some summary) :
      Next sha256 s (.read name v b) s (.summarized name v b summary)
  | put (name : String) (v : Nat) (b : Backup) (summary : VolumeSummary) (hat : s.backups.At name v) :
      Next sha256 s (.summarized name v b summary)
        { s with
          backups := s.backups.put name (b.store summary)
          snapshots := s.snapshots ++ [b.snapshot name summary] } .done
  | entry (name : String) (b : Backup) (rest : List (String × Backup)) (backups : List ListedBackup)
      (entry : ListedBackup) (hentry : b.listed name (s.volumesOf sha256 name) = some entry) :
      Next sha256 s (.listing ((name, b) :: rest) backups) s (.listing rest (backups ++ [entry]))
  | returned (backups : List ListedBackup) :
      Next sha256 s (.listing [] backups) { s with listed := s.listed ++ backups } .done

theorem next_of_stepReader {i : Nat} {reader : Reader}
    (h : s.stepReader sha256 i reader = some s') :
    ∃ t reader', Next sha256 s reader t reader' ∧ s' = t.setReader i reader' := by
  unfold State.stepReader at h
  split at h
  next name v b =>
    split at h
    next summary hsummary =>
      cases h
      exact ⟨_, _, .stored name v b summary hsummary, rfl⟩
    next hnone =>
      split at h
      next =>
        cases h
        exact ⟨_, _, .stop _, rfl⟩
      next summary hsummary =>
        split at h
        next hstores =>
          cases h
          exact ⟨_, _, .summarize name v b summary hnone hstores hsummary, rfl⟩
        next hstores =>
          cases h
          exact ⟨_, _, .unfinished name v b summary (Bool.eq_false_iff.mpr hstores) hnone, rfl⟩
  next name v b summary =>
    unfold Versioned.update at h
    by_cases hat : s.backups.At name v
    · rw [if_pos hat] at h
      cases h
      exact ⟨_, _, .put name v b summary hat, rfl⟩
    · rw [if_neg hat] at h
      cases h
      exact ⟨_, _, .stop _, rfl⟩
  next backups =>
    cases h
    exact ⟨_, _, .returned backups, rfl⟩
  next name b rest backups =>
    split at h
    next entry hentry =>
      cases h
      exact ⟨_, _, .entry name b rest backups entry hentry, rfl⟩
    next =>
      cases h
      exact ⟨_, _, .stop _, rfl⟩
  next => cases h

/-! ## What a report says -/

theorem Snapshot.says_of {b : Backup} {count success bytes : Nat} :
    (b.snapshot name (.of count success bytes)).Says count success bytes := by
  unfold Snapshot.Says Backup.snapshot VolumeSummary.of
  simp only [and_self]

/-- From the annotations. -/
theorem Snapshot.sound_stored (h : Stored sha256 s) {v : Nat} {b : Backup} {summary : VolumeSummary}
    (hmem : (name, v, b) ∈ s.backups.history) (hsummary : b.summary = some summary) :
    (b.snapshot name summary).Sound sha256 s := by
  intro _ _
  rcases h.stored name v b hmem with hun | ⟨-, hfinal⟩
  · cases hun.summary.symm.trans hsummary
  · refine hfinal.mono fun items hright hfits => ?_
    rw [← Option.some.inj ((hright hfits).summary.symm.trans hsummary)]
    exact Snapshot.says_of

/-- From the volumes. -/
theorem Snapshot.sound_volumes {b : Backup} {summary : VolumeSummary}
    (hfinal : Final sha256 s name fun items => getSnapshotVolumeSummary items = some summary) :
    (b.snapshot name summary).Sound sha256 s := by
  intro _ _
  refine hfinal.mono fun items hsummary hfits => ?_
  rw [getSnapshotVolumeSummary_right hsummary hfits]
  exact Snapshot.says_of

/-- The status of an unfinished backup. -/
theorem Snapshot.sound_unfinished {b : Backup} {summary : VolumeSummary} (hstores : b.stores = false) :
    (b.snapshot name summary).Sound sha256 s := by
  intro hnew hprogress
  have htrue : b.stores = true := by
    unfold Backup.stores
    rw [Bool.and_eq_true, decide_eq_true_iff, decide_eq_true_iff]
    exact ⟨hnew, hprogress⟩
  cases htrue.symm.trans hstores

theorem listed_name {b : Backup} {items : List PodVolumeBackup} {entry : ListedBackup}
    (h : b.listed name items = some entry) : entry.name = name ∧ entry.status = b.listedStatus := by
  unfold Backup.listed at h
  simp only [Option.bind_eq_bind, Option.bind_eq_some_iff] at h
  obtain ⟨_, -, _, -, _, -, h⟩ := h
  cases h
  exact ⟨rfl, rfl⟩

/-- An entry of the list, from either. -/
theorem ListedBackup.sound_listed (h : Stored sha256 s) {v : Nat} {b : Backup} {entry : ListedBackup}
    (hmem : (name, v, b) ∈ s.backups.history)
    (hentry : b.listed name (s.volumesOf sha256 name) = some entry) : entry.Sound sha256 s := by
  obtain ⟨hname, hstatus⟩ := listed_name hentry
  intro hnew hprogress
  rw [hstatus] at hnew hprogress
  rw [hname]
  rcases h.stored name v b hmem with hun | ⟨-, hfinal⟩
  · exact h.final_volumes hmem (Backup.finished_of_listedStatus hnew hprogress)
      (hun.listed hnew hprogress hentry)
  · refine hfinal.mono fun items hright hfits => ?_
    have hle : completed items ≤ items.length := completed_le
    exact (hright hfits).listed hfits.length (Nat.lt_of_le_of_lt hle hfits.length) hfits.bytes hentry

/-- What is stored is what was computed. -/
theorem right_store {b : Backup} {summary : VolumeSummary} {items : List PodVolumeBackup}
    (h : getSnapshotVolumeSummary items = some summary) : Right items (b.store summary).Says := by
  intro hfits
  have hle : completed items ≤ items.length := completed_le
  rw [getSnapshotVolumeSummary_right h hfits]
  exact Backup.store_reports hfits.length (Nat.lt_of_le_of_lt hle hfits.length) hfits.bytes

/-! ## The invariant is kept -/

namespace Inv

theorem share (h : Inv sha256 s) (hc : Change sha256 s s')
    (hreaders : ∀ reader ∈ s'.readers, reader.Holds sha256 s')
    (hsnapshots : s'.snapshots = s.snapshots) (hlisted : s'.listed = s.listed) : Inv sha256 s' where
  toStored := h.toStored.change hc
  readers := hreaders
  snapshots := fun r hr => (h.snapshots r (hsnapshots ▸ hr)).change hc
  listed := fun r hr => (h.listed r (hlisted ▸ hr)).change hc

/-- The requests go on as they were. -/
theorem keep (h : Inv sha256 s) (hc : Change sha256 s s') (hreaders : s'.readers = s.readers)
    (hsnapshots : s'.snapshots = s.snapshots) (hlisted : s'.listed = s.listed) : Inv sha256 s' :=
  h.share hc (fun reader hr => (h.readers reader (hreaders ▸ hr)).change hc) hsnapshots hlisted

/-- A request begins. -/
theorem start (h : Inv sha256 s) {reader : Reader} (hr : reader.Holds sha256 s) :
    Inv sha256 { s with readers := s.readers ++ [reader] } := by
  have hc : Change sha256 s { s with readers := s.readers ++ [reader] } := .same rfl rfl
  refine h.share hc (fun reader' hmem => ?_) rfl rfl
  rcases List.mem_append.mp hmem with hold | hnew
  · exact (h.readers reader' hold).change hc
  · rw [List.mem_singleton.mp hnew]
    exact hr.change hc

/-- A request that holds is in the place of another one. -/
theorem setReader (h : Inv sha256 s) {i : Nat} {reader : Reader} (hr : reader.Holds sha256 s) :
    Inv sha256 (s.setReader i reader) := by
  have hc : Change sha256 s (s.setReader i reader) := .same rfl rfl
  refine h.share hc (fun reader' hmem => ?_) rfl rfl
  rcases List.mem_or_eq_of_mem_set hmem with hold | rfl
  · exact (h.readers reader' hold).change hc
  · exact hr.change hc

/-- The details are returned. -/
theorem answer (h : Inv sha256 s) {r : Snapshot} (hr : r.Sound sha256 s) :
    Inv sha256 { s with snapshots := s.snapshots ++ [r] } where
  toStored := h.toStored.change (.same rfl rfl)
  readers := fun reader hmem => (h.readers reader hmem).change (.same rfl rfl)
  snapshots := by
    intro r' hmem
    have hsound : r'.Sound sha256 s := by
      rcases List.mem_append.mp hmem with hold | hnew
      · exact h.snapshots r' hold
      · rw [List.mem_singleton.mp hnew]
        exact hr
    exact hsound.change (.same rfl rfl)
  listed := fun r' hmem => (h.listed r' hmem).change (.same rfl rfl)

theorem next (h : Inv sha256 s) {reader reader' : Reader} (hr : reader.Holds sha256 s)
    (hnext : Next sha256 s reader t reader') : Inv sha256 t ∧ reader'.Holds sha256 t := by
  cases hnext with
  | stop _ => exact ⟨h, trivial⟩
  | stored name v b summary hsummary =>
    exact ⟨h.answer (Snapshot.sound_stored h.toStored hr.1 hsummary), trivial⟩
  | unfinished name v b summary hstores _ =>
    exact ⟨h.answer (Snapshot.sound_unfinished hstores), trivial⟩
  | summarize name v b summary _ hstores hsummary =>
    have hfinished := (Backup.stores_iff hr.2).mp hstores
    exact ⟨h, hr.1, hfinished, h.toStored.final_volumes hr.1 hfinished hsummary⟩
  | put name v b summary hat =>
    obtain ⟨hmem, hfinished, hfinal⟩ := hr
    -- the update went through, so this is still the current version
    have hget := h.good.current hmem hat
    have hc : Change sha256 s { s with backups := s.backups.put name (b.store summary) } :=
      .write name v b (b.store summary) hget (fun hfin => hfin)
        (.inr ⟨hfinished, hfinal.mono fun items hitems => right_store hitems⟩) rfl rfl
    have hinv := h.keep hc rfl rfl rfl
    exact ⟨hinv.answer (Snapshot.sound_volumes (hfinal.change hc)), trivial⟩
  | entry name b rest backups entry hentry =>
    obtain ⟨v, hmem⟩ := hr.1 (name, b) List.mem_cons_self
    refine ⟨h, fun e he => hr.1 e (List.mem_cons_of_mem _ he), fun e he => ?_⟩
    rcases List.mem_append.mp he with hold | hnew
    · exact hr.2 e hold
    · rw [List.mem_singleton.mp hnew]
      exact ListedBackup.sound_listed h.toStored hmem hentry
  | returned backups =>
    refine ⟨⟨h.toStored.change (.same rfl rfl), fun reader hmem => ?_, fun r hmem => ?_, fun r hmem => ?_⟩,
      trivial⟩
    · exact (h.readers reader hmem).change (.same rfl rfl)
    · exact (h.snapshots r hmem).change (.same rfl rfl)
    · have hsound : r.Sound sha256 s := by
        rcases List.mem_append.mp hmem with hold | hnew
        · exact h.listed r hold
        · exact hr.2 r hnew
      exact hsound.change (.same rfl rfl)

/-- The backups of an app that the list goes through. -/
theorem mem_listing {appID : String} {e : String × Backup}
    (h : e ∈ (s.backups.objects.rows.map fun row => (row.1, row.2.2)).filter fun e =>
      (e.2.annotationOf kotsAppIdKey).getD "" = appID) :
    ∃ v, s.backups.get e.1 = some (v, e.2) := by
  obtain ⟨row, hrow, rfl⟩ := List.mem_map.mp (List.mem_filter.mp h).1
  exact ⟨row.2.1, Dictionary.get_eq_some.mpr hrow⟩

theorem step (h : Inv sha256 s) {a : Action} (ha : Velero sha256 s a ∧ Phased s a)
    (hstep : (system sha256).step s a = some s') : Inv sha256 s' := by
  obtain ⟨hvelero, hphased⟩ := ha
  unfold system State.step at hstep
  dsimp only at hstep
  cases a with
  | create name b =>
    dsimp only at hstep
    split at hstep
    next => cases hstep
    next =>
      cases hstep
      exact h.keep (.create name b hvelero.1 hvelero.2.1 hvelero.2.2 rfl rfl) rfl rfl rfl
  | write name b' =>
    obtain ⟨⟨v, b⟩, hget, rfl⟩ := Option.map_eq_some_iff.mp hstep
    obtain ⟨hfinished, hagrees⟩ := hvelero v b hget
    refine h.keep (.write name v b b' hget hfinished ?_ rfl rfl) rfl rfl rfl
    refine (h.stored name v b (h.good.written name v b hget)).imp hagrees.unstored ?_
    exact fun hs => ⟨hfinished hs.1, hs.2.mono fun items hright hfits => hagrees.report (hright hfits)⟩
  | delete name =>
    obtain ⟨e, -, rfl⟩ := Option.map_eq_some_iff.mp hstep
    exact h.keep (.delete name rfl rfl) rfl rfl rfl
  | setVolumes label items =>
    cases hstep
    exact h.keep (.setVolumes label items hvelero rfl rfl) rfl rfl rfl
  | snapshotDetail name =>
    obtain ⟨⟨v, b⟩, hget, rfl⟩ := Option.map_eq_some_iff.mp hstep
    exact h.start ⟨h.good.written name v b hget, hphased v b hget⟩
  | listBackups appID =>
    cases hstep
    refine h.start ⟨fun e he => ?_, fun entry hentry => by cases hentry⟩
    obtain ⟨v, hget⟩ := mem_listing he
    exact ⟨v, h.good.written e.1 v e.2 hget⟩
  | step i =>
    obtain ⟨reader, hreader, hstepped⟩ := Option.bind_eq_some_iff.mp hstep
    obtain ⟨t, reader', hnext, rfl⟩ := next_of_stepReader hstepped
    obtain ⟨hinv, hholds⟩ := h.next (h.readers reader (List.mem_of_getElem? hreader)) hnext
    exact hinv.setReader hholds
  | fail i =>
    obtain ⟨reader, -, rfl⟩ := Option.map_eq_some_iff.mp hstep
    exact h.setReader trivial

end Inv

theorem everyState_inv :
    (system sha256).EveryState Init (fun s a => Velero sha256 s a ∧ Phased s a) (Inv sha256) := by
  refine Machine.everyState_of_inv (fun s hs => ?_) fun s a s' h ha hstep => h.step ha hstep
  subst hs
  exact
    { good := Versioned.good_empty
      finished := fun _ _ _ hmem => (by cases hmem)
      stored := fun _ _ _ hmem => (by cases hmem)
      readers := fun _ hmem => (by cases hmem)
      snapshots := fun _ hmem => (by cases hmem)
      listed := fun _ hmem => (by cases hmem) }

/-! ## What is stored stays -/

section

variable {count success bytes : Nat}

/-- What a request has of the backup says this. -/
def Reader.Says (name : String) (count success bytes : Nat) : Reader → Prop
  | .read name' _ backup => name' = name → backup.Says count success bytes
  | .summarized name' _ _ _ => name' ≠ name
  | .listing rest backups => (∀ e ∈ rest, e.1 = name → e.2.Says count success bytes) ∧
      ∀ entry ∈ backups, entry.name = name → entry.Says count success bytes
  | .done => True

/-- The numbers are stored in the backup, and since `s₀` nothing else is reported of it. -/
structure Kept (s₀ : State) (name : String) (count success bytes : Nat) (s : State) : Prop where
  known : ∃ v b, (name, v, b) ∈ s.backups.history
  current : ∀ v b, s.backups.get name = some (v, b) → b.Says count success bytes
  readers : ∀ reader ∈ s.readers, reader.Says name count success bytes
  snapshots : ∀ r ∈ s.snapshots, r ∈ s₀.snapshots ∨ (r.name = name → r.Says count success bytes)
  listed : ∀ r ∈ s.listed, r ∈ s₀.listed ∨ (r.name = name → r.Says count success bytes)

/-- Velero is done with the volumes, the stored numbers are others, and no request is under way. -/
structure Misstated (sha256 : String → String) (s : State) (name : String)
    (count success bytes : Nat) : Prop where
  current : ∃ v b, s.backups.get name = some (v, b) ∧ b.Finished ∧ b.Says count success bytes
  bound : count < 2 ^ 53 ∧ success < 2 ^ 53 ∧ bytes < 2 ^ 53
  fits : Fits (s.volumesOf sha256 name)
  wrong : count ≠ (s.volumesOf sha256 name).length ∨ success ≠ completed (s.volumesOf sha256 name) ∨
    bytes ≠ totalBytes (s.volumesOf sha256 name)
  idle : ∀ reader ∈ s.readers, reader = .done

namespace Kept

variable {s₀ : State}

/-- The backups change, and the requests do not. -/
theorem share (h : Kept s₀ name count success bytes s)
    (hhistory : ∀ e ∈ s.backups.history, e ∈ s'.backups.history)
    (hcurrent : ∀ v b, s'.backups.get name = some (v, b) → b.Says count success bytes)
    (hreaders : s'.readers = s.readers) (hsnapshots : s'.snapshots = s.snapshots)
    (hlisted : s'.listed = s.listed) : Kept s₀ name count success bytes s' where
  known := by
    obtain ⟨v, b, hmem⟩ := h.known
    exact ⟨v, b, hhistory _ hmem⟩
  current := hcurrent
  readers := hreaders ▸ h.readers
  snapshots := hsnapshots ▸ h.snapshots
  listed := hlisted ▸ h.listed

theorem setReaders (h : Kept s₀ name count success bytes s) {readers : List Reader}
    (hreaders : ∀ reader ∈ readers, reader ∈ s.readers ∨ reader.Says name count success bytes) :
    Kept s₀ name count success bytes { s with readers := readers } where
  known := h.known
  current := h.current
  readers := fun reader hmem => (hreaders reader hmem).elim (h.readers reader) id
  snapshots := h.snapshots
  listed := h.listed

theorem answer (h : Kept s₀ name count success bytes s) {r : Snapshot}
    (hr : r.name = name → r.Says count success bytes) :
    Kept s₀ name count success bytes { s with snapshots := s.snapshots ++ [r] } where
  known := h.known
  current := h.current
  readers := h.readers
  snapshots := by
    intro r' hmem
    rcases List.mem_append.mp hmem with hold | hnew
    · exact h.snapshots r' hold
    · exact .inr (List.mem_singleton.mp hnew ▸ hr)
  listed := h.listed

theorem next (h : Kept s₀ name count success bytes s) (hcount : count < 2 ^ 53)
    (hsuccess : success < 2 ^ 53) (hbytes : bytes < 2 ^ 53) {reader reader' : Reader}
    (hr : reader.Says name count success bytes) (hnext : Next sha256 s reader t reader') :
    Kept s₀ name count success bytes t ∧ reader'.Says name count success bytes := by
  cases hnext with
  | stop _ => exact ⟨h, trivial⟩
  | stored name' v b summary hsummary =>
    refine ⟨h.answer fun hname => ?_, trivial⟩
    rw [← Option.some.inj ((hr hname).summary.symm.trans hsummary)]
    exact Snapshot.says_of
  | unfinished name' v b summary _ hnone =>
    refine ⟨h.answer fun hname => ?_, trivial⟩
    cases (hr hname).summary.symm.trans hnone
  | summarize name' v b summary hnone _ _ =>
    refine ⟨h, fun hname => ?_⟩
    cases (hr hname).summary.symm.trans hnone
  | put name' v b summary _ =>
    have hput : Kept s₀ name count success bytes
        { s with backups := s.backups.put name' (b.store summary) } := by
      refine h.share (fun e he => Versioned.mem_put.mpr (.inl he)) (fun v' b' hget => ?_) rfl rfl rfl
      exact h.current v' b' ((Versioned.get_put_ne hr).symm.trans hget)
    exact ⟨hput.answer fun hname => absurd hname hr, trivial⟩
  | entry name' b rest backups entry hentry =>
    refine ⟨h, fun e he => hr.1 e (List.mem_cons_of_mem _ he), fun e he => ?_⟩
    rcases List.mem_append.mp he with hold | hnew
    · exact hr.2 e hold
    · rw [List.mem_singleton.mp hnew]
      intro hname
      exact (hr.1 (name', b) List.mem_cons_self ((listed_name hentry).1.symm.trans hname)).listed hcount
        hsuccess hbytes hentry
  | returned backups =>
    refine ⟨⟨h.known, h.current, h.readers, h.snapshots, fun r hmem => ?_⟩, trivial⟩
    rcases List.mem_append.mp hmem with hold | hnew
    · exact h.listed r hold
    · exact .inr (hr.2 r hnew)

theorem step (h : Kept s₀ name count success bytes s) (hcount : count < 2 ^ 53)
    (hsuccess : success < 2 ^ 53) (hbytes : bytes < 2 ^ 53) {a : Action} (ha : Velero sha256 s a)
    (hstep : (system sha256).step s a = some s') : Kept s₀ name count success bytes s' := by
  unfold system State.step at hstep
  dsimp only at hstep
  cases a with
  | create name' b' =>
    dsimp only at hstep
    split at hstep
    next => cases hstep
    next =>
      cases hstep
      refine h.share (fun e he => Versioned.mem_put.mpr (.inl he)) (fun v b hget => ?_) rfl rfl rfl
      -- its name was that of no backup before
      obtain ⟨v₀, b₀, hknown⟩ := h.known
      have hne : name' ≠ name := fun heq => ha.2.2 _ hknown (heq ▸ rfl)
      exact h.current v b ((Versioned.get_put_ne hne).symm.trans hget)
  | write name' b' =>
    obtain ⟨⟨v, b⟩, hget, rfl⟩ := Option.map_eq_some_iff.mp hstep
    refine h.share (fun e he => Versioned.mem_put.mpr (.inl he)) (fun v' b'' hget' => ?_) rfl rfl rfl
    by_cases hname : name' = name
    · subst hname
      cases Versioned.get_put_self.symm.trans hget'
      exact (ha v b hget).2.report (h.current v b hget)
    · exact h.current v' b'' ((Versioned.get_put_ne hname).symm.trans hget')
  | delete name' =>
    obtain ⟨e, -, rfl⟩ := Option.map_eq_some_iff.mp hstep
    refine h.share (fun e he => he) (fun v b hget => ?_) rfl rfl rfl
    by_cases hname : name = name'
    · subst hname
      cases Versioned.get_delete_self.symm.trans hget
    · exact h.current v b ((Versioned.get_delete_ne hname).symm.trans hget)
  | setVolumes label items =>
    cases hstep
    exact h.share (fun e he => he) h.current rfl rfl rfl
  | snapshotDetail name' =>
    obtain ⟨⟨v, b⟩, hget, rfl⟩ := Option.map_eq_some_iff.mp hstep
    refine h.setReaders fun reader hmem => (List.mem_append.mp hmem).imp_right fun hnew => ?_
    rw [List.mem_singleton.mp hnew]
    rintro rfl
    exact h.current v b hget
  | listBackups appID =>
    cases hstep
    refine h.setReaders fun reader hmem => (List.mem_append.mp hmem).imp_right fun hnew => ?_
    rw [List.mem_singleton.mp hnew]
    refine ⟨fun e he hname => ?_, fun entry hentry => by cases hentry⟩
    obtain ⟨v, hget⟩ := Inv.mem_listing he
    exact h.current v e.2 (hname ▸ hget)
  | step i =>
    obtain ⟨reader, hreader, hstepped⟩ := Option.bind_eq_some_iff.mp hstep
    obtain ⟨t, reader', hnext, rfl⟩ := next_of_stepReader hstepped
    obtain ⟨hkept, hreport⟩ := h.next hcount hsuccess hbytes
      (h.readers reader (List.mem_of_getElem? hreader)) hnext
    refine hkept.setReaders fun reader'' hmem => (List.mem_or_eq_of_mem_set hmem).imp_right ?_
    rintro rfl
    exact hreport
  | fail i =>
    obtain ⟨reader, -, rfl⟩ := Option.map_eq_some_iff.mp hstep
    refine h.setReaders fun reader'' hmem => (List.mem_or_eq_of_mem_set hmem).imp_right ?_
    rintro rfl
    trivial

end Kept

theorem Misstated.kept (h : Misstated sha256 s name count success bytes) (hgood : s.backups.Good) :
    Kept s name count success bytes s := by
  obtain ⟨v, b, hget, -, hreport⟩ := h.current
  refine ⟨⟨v, b, hgood.written name v b hget⟩, fun v' b' hget' => ?_, fun reader hmem => ?_,
    fun r hr => .inl hr, fun r hr => .inl hr⟩
  · cases hget.symm.trans hget'
    exact hreport
  · rw [h.idle reader hmem]
    trivial

end

theorem good_step {a : Action} (h : s.backups.Good)
    (hstep : (system sha256).step s a = some s') : s'.backups.Good := by
  unfold system State.step at hstep
  dsimp only at hstep
  cases a with
  | create name' b' =>
    dsimp only at hstep
    split at hstep
    next => cases hstep
    next =>
      cases hstep
      exact h.put name' b'
  | write name' b' =>
    obtain ⟨e, -, rfl⟩ := Option.map_eq_some_iff.mp hstep
    exact h.put name' b'
  | delete name' =>
    obtain ⟨e, -, rfl⟩ := Option.map_eq_some_iff.mp hstep
    exact h.delete name'
  | setVolumes label items =>
    cases hstep
    exact h
  | snapshotDetail name' =>
    obtain ⟨e, -, rfl⟩ := Option.map_eq_some_iff.mp hstep
    exact h
  | listBackups appID =>
    cases hstep
    exact h
  | step i =>
    obtain ⟨reader, -, hstepped⟩ := Option.bind_eq_some_iff.mp hstep
    obtain ⟨t, reader', hnext, rfl⟩ := next_of_stepReader hstepped
    cases hnext with
    | put name' v b summary _ => exact h.put name' _
    | stop | stored | unfinished | summarize | entry | returned => exact h
  | fail i =>
    obtain ⟨reader, -, rfl⟩ := Option.map_eq_some_iff.mp hstep
    exact h

/-! ## A summary that comes too early -/

/-- What the client of velero creates. -/
def created : Backup where
  status := some none
  annotations := some .empty

def oneVolume : List PodVolumeBackup :=
  [{ status := some { phase := some "Completed", progress := some (some 1) } }]

theorem misstated_reachable :
    ∃ s, (system sha256).Reachable Init (Velero sha256) s ∧
      ∃ name count success bytes, Misstated sha256 s name count success bytes := by
  let stored : Backup := created.store {}
  let finished : Backup := { stored with status := some (some "Completed") }
  let backups : Versioned String Backup := ({ objects := .empty } : Versioned _ _).put "b" created
  let asked : State := { backups := backups, readers := [.read "b" 1 created] }
  let answered : State := {
    backups := backups.put "b" stored, readers := [.done], snapshots := [created.snapshot "b" {}] }
  let volumes := answered.volumes.set (getValidName sha256 "b") oneVolume
  have hunfinished : ∀ b : Backup, b.status = some none → ¬ b.Finished := by
    rintro b hstatus ⟨phase, hphase, -⟩
    cases hstatus.symm.trans hphase
  have hreport : stored.Says 0 0 0 := by
    have hzero : 0 < 2 ^ 53 := Nat.two_pow_pos 53
    exact Backup.store_reports hzero hzero hzero
  have hcreate : (system sha256).Reachable Init (Velero sha256) { backups := backups } := by
    have hinit : (system sha256).Reachable Init (Velero sha256) {} := .init rfl
    refine hinit.step (a := .create "b" created) ⟨?_, ?_, ?_⟩ rfl
    · exact hunfinished _ rfl
    · exact fun _ _ => rfl
    · exact fun e he => by cases he
  have hask : (system sha256).Reachable Init (Velero sha256) asked :=
    hcreate.step (a := .snapshotDetail "b") trivial rfl
  have hcompute : (system sha256).Reachable Init (Velero sha256)
      (asked.setReader 0 (.summarized "b" 1 created {})) :=
    hask.step (a := .step 0) trivial rfl
  have hstore : (system sha256).Reachable Init (Velero sha256) answered :=
    hcompute.step (a := .step 0) trivial rfl
  have hvolumes : (system sha256).Reachable Init (Velero sha256) { answered with volumes := volumes } := by
    refine hstore.step (a := .setVolumes (getValidName sha256 "b") oneVolume) ?_ rfl
    intro name v b hget _
    by_cases hname : "b" = name
    · subst hname
      cases Versioned.get_put_self.symm.trans hget
      exact hunfinished _ rfl
    · cases (Versioned.get_put_ne hname).symm.trans ((Versioned.get_put_ne hname).symm.trans hget)
  have hcompleted : finished.Finished :=
    ⟨"Completed", rfl, by decide, by decide, by decide⟩
  have hfinish : (system sha256).Reachable Init (Velero sha256)
      { answered with backups := answered.backups.put "b" finished, volumes := volumes } := by
    refine hvolumes.step (a := .write "b" finished) (fun v b hget => ?_) rfl
    cases Versioned.get_put_self.symm.trans hget
    exact ⟨fun _ => hcompleted, fun _ _ => rfl⟩
  have hvolume : volumes.get (getValidName sha256 "b") = some oneVolume :=
    (Dictionary.get_set _ _ _ _).trans (if_pos rfl)
  have hfits : Fits oneVolume := by
    refine ⟨by decide, fun pvb hpvb => ?_, by decide⟩
    rw [List.mem_singleton.mp hpvb]
    decide
  refine ⟨_, hfinish, "b", 0, 0, 0, ?_⟩
  refine ⟨⟨_, _, Versioned.get_put_self, hcompleted, ?_⟩, ?_, ?_, ?_, ?_⟩
  · exact ⟨hreport.count, hreport.success, hreport.bytes⟩
  · exact ⟨Nat.two_pow_pos 53, Nat.two_pow_pos 53, Nat.two_pow_pos 53⟩
  · unfold State.volumesOf
    rw [hvolume]
    exact hfits
  · unfold State.volumesOf
    rw [hvolume]
    exact .inl (by decide)
  · intro reader hmem
    exact List.mem_singleton.mp hmem

/-- **Reported as they are, unless summed up too early.**  When the details are asked for only of backups
without a status or with a phase, both readers report the volumes that a finished backup has, whether they
compute the summary or take it from the backup.  A summary that was stored before velero saw the backup
is reported from then on by both, and that can happen. -/
theorem summaries_right (sha256 : String → String) :
    ((system sha256).EveryState Init (fun s a => Velero sha256 s a ∧ Phased s a) fun s =>
      (∀ r ∈ s.snapshots, r.Sound sha256 s) ∧ ∀ r ∈ s.listed, r.Sound sha256 s) ∧
    (∀ s, (system sha256).Reachable Init (Velero sha256) s → ∀ name count success bytes,
      Misstated sha256 s name count success bytes →
      (system sha256).EveryState (· = s) (Velero sha256) fun s' =>
        (∀ r ∈ s'.snapshots, r ∈ s.snapshots ∨ (r.name = name → r.Says count success bytes)) ∧
        ∀ r ∈ s'.listed, r ∈ s.listed ∨ (r.name = name → r.Says count success bytes)) ∧
    ∃ s, (system sha256).Reachable Init (Velero sha256) s ∧
      ∃ name count success bytes, Misstated sha256 s name count success bytes := by
  refine ⟨fun s hs => ?_, ?_, misstated_reachable⟩
  · have hinv := everyState_inv s hs
    exact ⟨hinv.snapshots, hinv.listed⟩
  · intro s hs name count success bytes hmisstated s' hs'
    have hgood : s.backups.Good :=
      Machine.everyState_of_inv (I := fun t => t.backups.Good)
        (fun t ht => ht ▸ Versioned.good_empty) (fun t a t' h _ hstep => good_step h hstep) s hs
    obtain ⟨hcount, hsuccess, hbytes⟩ := hmisstated.bound
    have hkept : Kept s name count success bytes s' :=
      Machine.everyState_of_inv (fun t ht => ht ▸ hmisstated.kept hgood)
        (fun t a t' h ha hstep => h.step hcount hsuccess hbytes ha hstep) s' hs'
    exact ⟨hkept.snapshots, hkept.listed⟩

end Kotsadm.Snapshots.VolumeSummary
