import Kotsadm.Lib.Machine
import Kotsadm.Lib.Versioned

/-!
# BackupInformer — support bundles for failed backups

Each API server watches the backups of velero.  A backup that failed is annotated, and then gets a
support bundle.  What a watch delivers may be old, and any number of servers may run at a time.
-/

namespace Kotsadm.Snapshots.BackupInformer

def supportBundleRequested : String := "kots.io/support-bundle-requested"
def supportBundleId : String := "kots.io/support-bundle-id"
def kotsAppId : String := "kots.io/app-id"

/-- A map that may be nil. -/
abbrev Annotations := Option (Dictionary String String)

structure Backup where
  -- the version that created it
  uid : Nat
  phase : String
  annotations : Annotations

/-- The namespace and the name of a backup. -/
abbrev Key := String × String

namespace Backup

def annotationOf (b : Backup) (key : String) : Option String := b.annotations.bind fun a => a.get key

/-- `b.Annotations[key] = value`, where the map is `a`. -/
def annotate (b : Backup) (a : Dictionary String String) (key value : String) : Backup :=
  { b with annotations := some (a.set key value) }

def failed (b : Backup) : Bool := b.phase = "Failed" || b.phase = "PartiallyFailed"

def Requested (b : Backup) : Prop := (b.annotationOf supportBundleRequested).isSome = true

instance (b : Backup) : Decidable b.Requested := inferInstanceAs (Decidable (_ = _))

end Backup

/-- The support bundle of a backup has its name. -/
def bundleId (key : Key) : String := "backup-" ++ key.2

/-- What `CreateBundle` reads of the archive. -/
structure Archive where
  contents : String
  size : Nat
  tree : String
  deriving DecidableEq

/-- A row of the table; the slug is the id. -/
structure Row where
  watchId : String
  size : Nat
  status : String
  treeIndex : String
  deriving DecidableEq

structure Job where
  key : Key
  uid : Nat
  appId : String
  deriving DecidableEq

def Job.id (job : Job) : String := bundleId job.key

/-- Where the goroutine of a watch is. -/
inductive Phase
  /-- it receives from the channel -/
  | watching
  /-- `backup` is on its way -/
  | updating (job : Job) (version : Nat) (backup : Backup)
  | updated (job : Job)
  /-- in `CreateBundleForBackup` -/
  | collecting (job : Job)
  /-- in `CreateBundle` -/
  | uploading (job : Job) (archive : Archive)
  | inserting (job : Job) (archive : Archive)
  /-- the bundle is analyzed, and then in `SetBundleAnalysis` -/
  | analyzing (job : Job)
  | marked (job : Job)
  /-- `CreateBundleForBackup` has returned the id -/
  | created (job : Job)
  | recording (job : Job) (version : Nat) (backup : Backup)
  /-- the goroutine or its process is over -/
  | closed
  /-- assignment to an entry of a nil map -/
  | panicked

structure Watch where
  -- what it has received of what was written, and what it did not ask for
  seen : Nat
  phase : Phase := .watching

structure State where
  backups : Versioned Key Backup := { objects := .empty }
  -- the objects of the bucket, by the id in their path
  archives : Dictionary String Archive := .empty
  supportbundle : Dictionary String Row := .empty
  -- the support bundles of `supportbundle_analysis`
  analyses : List String := []
  watches : List Watch := []
  -- the calls of `CreateBundleForBackup`
  called : List (Nat × Key) := []

inductive Action
  /-- velero, the API or anybody else writes a backup -/
  | create (key : Key) (phase : String) (annotations : Annotations)
  | modify (key : Key) (phase : String) (annotations : Annotations)
  | delete (key : Key)
  /-- `Start` in a new process -/
  | start (seen : Nat)
  /-- the channel is closed, and `Start` is called again, which may fail -/
  | close (i : Nat) (restarted : Option Nat)
  /-- the next event, at this time -/
  | receive (i : Nat) (now : String)
  /-- the collectors have run -/
  | collect (i : Nat) (archive : Archive)
  | step (i : Nat)
  /-- a call fails, or its answer is lost -/
  | fail (i : Nat)
  /-- the process ends -/
  | crash (i : Nat)

/-- What the goroutine does with an event; the event that created the backup is not `Modified`. -/
def handle (key : Key) (version : Nat) (backup : Backup) (now : String) : Phase :=
  if version ≠ backup.uid ∧ backup.failed = true then
    match backup.annotationOf supportBundleRequested with
    | some _ => .watching
    | none =>
      match backup.annotations with
      | none => .panicked
      | some annotations =>
        .updating { key := key, uid := backup.uid, appId := (backup.annotationOf kotsAppId).getD "" }
          version (backup.annotate annotations supportBundleRequested now)
  else .watching

namespace State

def setWatch (s : State) (i : Nat) (w : Watch) : State := { s with watches := s.watches.set i w }

def setPhase (s : State) (i : Nat) (w : Watch) (phase : Phase) : State :=
  s.setWatch i { w with phase := phase }

/-- A watch from the version "0": from any that the server still has. -/
def start (s : State) (seen : Nat) : Option State :=
  if seen ≤ s.backups.history.length then
    some { s with watches := s.watches ++ [{ seen := seen }] }
  else none

def receive (s : State) (i : Nat) (now : String) (w : Watch) : Option State :=
  match w.phase with
  | .watching =>
    (s.backups.history[w.seen]?).map fun e =>
      s.setWatch i { seen := w.seen + 1, phase := handle e.1 e.2.1 e.2.2 now }
  | _ => none

def close (s : State) (i : Nat) (restarted : Option Nat) (w : Watch) : Option State :=
  match w.phase with
  | .watching =>
    match restarted with
    | some seen => (s.setPhase i w .closed).start seen
    | none => some (s.setPhase i w .closed)
  | _ => none

def collect (s : State) (i : Nat) (archive : Archive) (w : Watch) : Option State :=
  match w.phase with
  | .collecting job => some (s.setPhase i w (.uploading job archive))
  | _ => none

def stepWatch (s : State) (i : Nat) (w : Watch) : Option State :=
  match w.phase with
  | .updating job version backup =>
    match s.backups.update job.key version backup with
    | some backups => some ({ s with backups := backups }.setPhase i w (.updated job))
    | none => some (s.setPhase i w .watching)
  | .updated job =>
    some ({ s with called := s.called ++ [(job.uid, job.key)] }.setPhase i w (.collecting job))
  | .uploading job archive =>
    some ({ s with archives := s.archives.set job.id archive }.setPhase i w (.inserting job archive))
  | .inserting job archive =>
    match s.supportbundle.get job.id with
    -- the primary key is taken
    | some _ => some (s.setPhase i w .watching)
    | none =>
      some ({ s with
        supportbundle := s.supportbundle.set job.id
          { watchId := job.appId, size := archive.size, status := "uploaded",
            treeIndex := archive.tree } }.setPhase i w (.analyzing job))
  | .analyzing job =>
    some ({ s with
      supportbundle := s.supportbundle.modify job.id fun row =>
        { row with status := "analyzed" } }.setPhase i w (.marked job))
  | .marked job => some ({ s with analyses := s.analyses ++ [job.id] }.setPhase i w (.created job))
  | .created job =>
    match s.backups.get job.key with
    | none => some (s.setPhase i w .watching)
    | some (version, backup) =>
      match backup.annotations with
      | none => some (s.setPhase i w .panicked)
      | some annotations =>
        some (s.setPhase i w
          (.recording job version (backup.annotate annotations supportBundleId job.id)))
  | .recording job version backup =>
    match s.backups.update job.key version backup with
    | some backups => some ({ s with backups := backups }.setPhase i w .watching)
    | none => some (s.setPhase i w .watching)
  | .watching | .collecting _ | .closed | .panicked => none

def fail (s : State) (i : Nat) (w : Watch) : Option State :=
  match w.phase with
  | .watching | .closed | .panicked => none
  | _ => some (s.setPhase i w .watching)

def step (s : State) : Action → Option State
  | .create key phase annotations =>
    match s.backups.get key with
    | some _ => none
    | none =>
      some { s with
        backups := s.backups.put key
          { uid := s.backups.revision + 1, phase := phase, annotations := annotations } }
  | .modify key phase annotations =>
    (s.backups.get key).map fun e =>
      { s with backups := s.backups.put key { e.2 with phase := phase, annotations := annotations } }
  | .delete key => (s.backups.get key).map fun _ => { s with backups := s.backups.delete key }
  | .start seen => s.start seen
  | .close i restarted => (s.watches[i]?).bind (s.close i restarted)
  | .receive i now => (s.watches[i]?).bind (s.receive i now)
  | .collect i archive => (s.watches[i]?).bind (s.collect i archive)
  | .step i => (s.watches[i]?).bind (s.stepWatch i)
  | .fail i => (s.watches[i]?).bind (s.fail i)
  | .crash i => (s.watches[i]?).map fun w => s.setPhase i w .closed

end State

def informer : Machine State Action := ⟨State.step⟩

/-- Nothing was written, and nobody watches. -/
def Init (s : State) : Prop := s = {}

/-! ## What a step can do -/

/-- What the goroutine of `w` does to the rest of the state, and where it is then. -/
inductive Next (s : State) (w : Watch) : State → Watch → Prop
  | receive (e : Key × Nat × Backup) (now : String) (hmem : e ∈ s.backups.history) :
      Next s w s { seen := w.seen + 1, phase := handle e.1 e.2.1 e.2.2 now }
  /-- it gives up, or it is over -/
  | idle (phase : Phase) (hphase : phase = .watching ∨ phase = .closed) :
      Next s w s { w with phase := phase }
  | collect (job : Job) (archive : Archive) (hphase : w.phase = .collecting job) :
      Next s w s { w with phase := .uploading job archive }
  | annotate (job : Job) (version : Nat) (backup : Backup) (backups : Versioned Key Backup)
      (hphase : w.phase = .updating job version backup)
      (hupdate : s.backups.update job.key version backup = some backups) :
      Next s w { s with backups := backups } { w with phase := .updated job }
  | call (job : Job) (hphase : w.phase = .updated job) :
      Next s w { s with called := s.called ++ [(job.uid, job.key)] }
        { w with phase := .collecting job }
  | upload (job : Job) (archive : Archive) (hphase : w.phase = .uploading job archive) :
      Next s w { s with archives := s.archives.set job.id archive }
        { w with phase := .inserting job archive }
  | insert (job : Job) (archive : Archive) (hphase : w.phase = .inserting job archive)
      (hfree : s.supportbundle.get job.id = none) :
      Next s w { s with
          supportbundle := s.supportbundle.set job.id
            { watchId := job.appId, size := archive.size, status := "uploaded",
              treeIndex := archive.tree } }
        { w with phase := .analyzing job }
  | analyze (job : Job) (hphase : w.phase = .analyzing job) :
      Next s w { s with
          supportbundle := s.supportbundle.modify job.id fun row =>
            { row with status := "analyzed" } }
        { w with phase := .marked job }
  | mark (job : Job) (hphase : w.phase = .marked job) :
      Next s w { s with analyses := s.analyses ++ [job.id] } { w with phase := .created job }
  | read (job : Job) (version : Nat) (backup : Backup) (a : Dictionary String String)
      (hphase : w.phase = .created job) (hget : s.backups.get job.key = some (version, backup))
      (ha : backup.annotations = some a) :
      Next s w s
        { w with phase := .recording job version (backup.annotate a supportBundleId job.id) }
  | panic (job : Job) (version : Nat) (backup : Backup)
      (hget : s.backups.get job.key = some (version, backup)) (ha : backup.annotations = none) :
      Next s w s { w with phase := .panicked }
  | record (job : Job) (version : Nat) (backup : Backup) (backups : Versioned Key Backup)
      (hphase : w.phase = .recording job version backup)
      (hupdate : s.backups.update job.key version backup = some backups) :
      Next s w { s with backups := backups } { w with phase := .watching }

inductive Steps (s : State) : Action → State → Prop
  | create (key : Key) (phase : String) (annotations : Annotations)
      (hfree : s.backups.get key = none) :
      Steps s (.create key phase annotations)
        { s with
          backups := s.backups.put key
            { uid := s.backups.revision + 1, phase := phase, annotations := annotations } }
  | modify (key : Key) (phase : String) (annotations : Annotations) (v : Nat) (b : Backup)
      (hget : s.backups.get key = some (v, b)) :
      Steps s (.modify key phase annotations)
        { s with backups := s.backups.put key { b with phase := phase, annotations := annotations } }
  | delete (key : Key) : Steps s (.delete key) { s with backups := s.backups.delete key }
  | start (seen : Nat) :
      Steps s (.start seen) { s with watches := s.watches ++ [{ seen := seen }] }
  | watch (a : Action) (i : Nat) (w w' : Watch) (s' : State) (hw : s.watches[i]? = some w)
      (hnext : Next s w s' w') : Steps s a (s'.setWatch i w')
  | restart (i seen : Nat) (w : Watch) (hw : s.watches[i]? = some w) :
      Steps s (.close i (some seen))
        { s with watches := s.watches.set i { w with phase := .closed } ++ [{ seen := seen }] }

namespace State

variable {s s' : State}

theorem next_of_stepWatch {i : Nat} {w : Watch} (h : s.stepWatch i w = some s') :
    ∃ t w', Next s w t w' ∧ s' = t.setWatch i w' := by
  have hidle : Next s w s { w with phase := .watching } := .idle _ (.inl rfl)
  unfold stepWatch at h
  split at h
  next job version backup hphase =>
    split at h
    next backups hupdate =>
      cases h
      exact ⟨_, _, .annotate job version backup backups hphase hupdate, rfl⟩
    next =>
      cases h
      exact ⟨_, _, hidle, rfl⟩
  next job hphase =>
    cases h
    exact ⟨_, _, .call job hphase, rfl⟩
  next job archive hphase =>
    cases h
    exact ⟨_, _, .upload job archive hphase, rfl⟩
  next job archive hphase =>
    split at h
    next =>
      cases h
      exact ⟨_, _, hidle, rfl⟩
    next hfree =>
      cases h
      exact ⟨_, _, .insert job archive hphase hfree, rfl⟩
  next job hphase =>
    cases h
    exact ⟨_, _, .analyze job hphase, rfl⟩
  next job hphase =>
    cases h
    exact ⟨_, _, .mark job hphase, rfl⟩
  next job hphase =>
    split at h
    next =>
      cases h
      exact ⟨_, _, hidle, rfl⟩
    next version backup hget =>
      split at h
      next ha =>
        cases h
        exact ⟨_, _, .panic job version backup hget ha, rfl⟩
      next a ha =>
        cases h
        exact ⟨_, _, .read job version backup a hphase hget ha, rfl⟩
  next job version backup hphase =>
    split at h
    next backups hupdate =>
      cases h
      exact ⟨_, _, .record job version backup backups hphase hupdate, rfl⟩
    next =>
      cases h
      exact ⟨_, _, hidle, rfl⟩
  all_goals cases h

theorem start_eq_some {seen : Nat} (h : s.start seen = some s') :
    s' = { s with watches := s.watches ++ [{ seen := seen }] } := by
  unfold start at h
  split at h
  next => exact (Option.some.inj h).symm
  next => cases h

theorem steps_of_step {a : Action} (h : informer.step s a = some s') : Steps s a s' := by
  cases a with
  | create key phase annotations =>
    unfold informer step at h
    dsimp only at h
    split at h
    next => cases h
    next hfree =>
      cases h
      exact .create key phase annotations hfree
  | modify key phase annotations =>
    obtain ⟨⟨v, b⟩, hget, rfl⟩ := Option.map_eq_some_iff.mp h
    exact .modify key phase annotations v b hget
  | delete key =>
    obtain ⟨_, -, rfl⟩ := Option.map_eq_some_iff.mp h
    exact .delete key
  | start seen =>
    obtain rfl := start_eq_some h
    exact .start seen
  | close i restarted =>
    obtain ⟨w, hw, h⟩ := Option.bind_eq_some_iff.mp h
    unfold close at h
    split at h
    next =>
      cases restarted with
      | some seen =>
        obtain rfl := start_eq_some h
        exact .restart i seen w hw
      | none =>
        cases h
        exact .watch _ i w _ s hw (.idle .closed (.inr rfl))
    next => cases h
  | receive i now =>
    obtain ⟨w, hw, h⟩ := Option.bind_eq_some_iff.mp h
    unfold receive at h
    split at h
    next =>
      obtain ⟨e, he, rfl⟩ := Option.map_eq_some_iff.mp h
      exact .watch _ i w _ s hw (.receive e now (List.mem_of_getElem? he))
    next => cases h
  | collect i archive =>
    obtain ⟨w, hw, h⟩ := Option.bind_eq_some_iff.mp h
    unfold collect at h
    split at h
    next job hphase =>
      cases h
      exact .watch _ i w _ s hw (.collect job archive hphase)
    next => cases h
  | step i =>
    obtain ⟨w, hw, h⟩ := Option.bind_eq_some_iff.mp h
    obtain ⟨t, w', hnext, rfl⟩ := next_of_stepWatch h
    exact .watch _ i w w' t hw hnext
  | fail i =>
    obtain ⟨w, hw, h⟩ := Option.bind_eq_some_iff.mp h
    unfold fail at h
    split at h
    · cases h
    · cases h
    · cases h
    · cases h
      exact .watch _ i w _ s hw (.idle .watching (.inl rfl))
  | crash i =>
    obtain ⟨w, hw, rfl⟩ := Option.map_eq_some_iff.mp h
    exact .watch _ i w _ s hw (.idle .closed (.inr rfl))

end State

end Kotsadm.Snapshots.BackupInformer
