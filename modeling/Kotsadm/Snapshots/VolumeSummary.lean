import Kotsadm.Lib.JsInteger
import Kotsadm.Lib.Machine
import Kotsadm.Lib.Versioned

/-!
# VolumeSummary — how many volumes a snapshot has, in two readers

The details of a snapshot are read in TypeScript and the list of snapshots in Go.  The details store
the summary of the volumes in annotations of the backup, once it is finished, and both readers take
it from there.
-/

namespace Kotsadm.Snapshots.VolumeSummary

open JsInteger (Number)

def kotsAppIdKey : String := "kots.io/app-id"
def snapshotVolumeCountKey : String := "kots.io/snapshot-volume-count"
def snapshotVolumeSuccessCountKey : String := "kots.io/snapshot-volume-success-count"
def snapshotVolumeBytesKey : String := "kots.io/snapshot-volume-bytes"

def summaryKeys : List String :=
  [snapshotVolumeCountKey, snapshotVolumeSuccessCountKey, snapshotVolumeBytesKey]

/-! ## What velero has -/

/-- The progress may have no `bytesDone`, the status no progress. -/
structure PodVolumeBackupStatus where
  phase : Option String := none
  progress : Option (Option Int64) := none

structure PodVolumeBackup where
  status : Option PodVolumeBackupStatus := none

structure Backup where
  -- the status, and the phase in it
  status : Option (Option String) := none
  annotations : Option (Dictionary String String) := none

def Backup.annotationOf (b : Backup) (key : String) : Option String :=
  b.annotations.bind fun a => a.get key

/-! ## VeleroClient -/

/-- What is reported of a backup. -/
structure Snapshot where
  name : String
  -- none is `undefined`
  status : Option String
  volumeCount : Number
  volumeSuccessCount : Number
  volumeBytes : Number

structure VolumeSummary where
  count : Number := .ofInt 0
  success : Number := .ofInt 0
  bytes : Number := .ofInt 0

/-- One turn of the loop; a volume without status or progress throws. -/
def VolumeSummary.add (summary : VolumeSummary) (pvb : PodVolumeBackup) : Option VolumeSummary :=
  match pvb.status with
  | none => none
  | some status =>
    match status.progress with
    | none => none
    | some bytesDone =>
      some {
        count := summary.count.plus (.ofInt 1)
        success :=
          if status.phase = some "Completed" then summary.success.plus (.ofInt 1) else summary.success
        bytes :=
          match bytesDone with
          | some n => summary.bytes.plus (.ofInt n.toInt)
          | none => summary.bytes }

def getSnapshotVolumeSummary (items : List PodVolumeBackup) : Option VolumeSummary :=
  items.foldlM VolumeSummary.add {}

namespace Backup

/-- `backup.status ? backup.status.phase : Phase.New` -/
def phase (b : Backup) : Option String :=
  match b.status with
  | none => some "New"
  | some phase => phase

/-- Its summary is stored. -/
def stores (b : Backup) : Bool := b.phase ≠ some "New" && b.phase ≠ some "InProgress"

/-- The summary in the annotations, if it is all there. -/
def summary (b : Backup) : Option VolumeSummary :=
  match b.annotationOf snapshotVolumeCountKey, b.annotationOf snapshotVolumeSuccessCountKey,
      b.annotationOf snapshotVolumeBytesKey with
  | some count, some success, some bytes =>
    some { count := .parseInt count, success := .parseInt success, bytes := .parseInt bytes }
  | _, _, _ => none

def store (b : Backup) (summary : VolumeSummary) : Backup :=
  { b with
    annotations := some ((((b.annotations.getD .empty).set snapshotVolumeCountKey summary.count.text).set
      snapshotVolumeSuccessCountKey summary.success.text).set
      snapshotVolumeBytesKey summary.bytes.text) }

def snapshot (b : Backup) (name : String) (summary : VolumeSummary) : Snapshot where
  name := name
  status := b.phase
  volumeCount := summary.count
  volumeSuccessCount := summary.success
  volumeBytes := summary.bytes

end Backup

/-- `sha256` gives the digits of the hash. -/
def getValidName (sha256 : String → String) (label : String) : String :=
  if label.length ≤ 63 then label
  else String.ofList (label.toList.take 57) ++ String.ofList ((sha256 label).toList.take 6)

/-! ## ListBackupsForApp -/

/-- `types.Backup` -/
structure ListedBackup where
  name : String
  status : String
  volumeCount : Int64
  volumeSuccessCount : Int64
  volumeBytes : Int64
  deriving DecidableEq

/-- A missing field is the zero value. -/
def PodVolumeBackup.phase (pvb : PodVolumeBackup) : String :=
  (pvb.status.bind PodVolumeBackupStatus.phase).getD ""

def PodVolumeBackup.bytesDone (pvb : PodVolumeBackup) : Int64 :=
  (pvb.status.bind PodVolumeBackupStatus.progress).join.getD 0

structure GoVolumeSummary where
  count : Int64 := 0
  success : Int64 := 0
  totalBytes : Int64 := 0

def GoVolumeSummary.add (summary : GoVolumeSummary) (pvb : PodVolumeBackup) : GoVolumeSummary where
  count := summary.count + 1
  success := if pvb.phase = "Completed" then summary.success + 1 else summary.success
  totalBytes := summary.totalBytes + pvb.bytesDone

/-- `getSnapshotVolumeSummary` of the package -/
def goVolumeSummary (items : List PodVolumeBackup) : GoVolumeSummary :=
  items.foldl GoVolumeSummary.add {}

namespace Backup

def listedStatus (b : Backup) : String :=
  match b.status.join with
  | none => "New"
  | some phase => if phase = "" then "New" else phase

/-- The integer of an annotation; none if it does not parse. -/
def goAnnotationOf (b : Backup) (key : String) : Option (Option Int64) :=
  match b.annotationOf key with
  | none => some none
  | some text => (GoString.atoi (GoString.ofChars text.toList)).toOption.map some

/-- The entry of the list.  `items` are the volumes, if they are looked at. -/
def listed (b : Backup) (name : String) (items : List PodVolumeBackup) : Option ListedBackup := do
  let volumeCount ← b.goAnnotationOf snapshotVolumeCountKey
  let volumeSuccessCount ← b.goAnnotationOf snapshotVolumeSuccessCountKey
  let volumeBytes ← b.goAnnotationOf snapshotVolumeBytesKey
  let summary :=
    if b.listedStatus ≠ "New" ∧ b.listedStatus ≠ "InProgress" ∧
        (volumeBytes = none ∨ volumeSuccessCount = none) then
      goVolumeSummary items
    else
      { count := volumeCount.getD 0, success := volumeSuccessCount.getD 0,
        totalBytes := volumeBytes.getD 0 }
  return {
    name := name
    status := b.listedStatus
    volumeCount := summary.count
    volumeSuccessCount := summary.success
    volumeBytes := summary.totalBytes }

end Backup

/-! ## The system -/

/-- Where a request is. -/
inductive Reader
  /-- `snapshotFromBackup` has the backup -/
  | read (name : String) (version : Nat) (backup : Backup)
  /-- it has the summary of the volumes -/
  | summarized (name : String) (version : Nat) (backup : Backup) (summary : VolumeSummary)
  /-- the loop of `ListBackupsForApp`, with what is left and what is done -/
  | listing (rest : List (String × Backup)) (backups : List ListedBackup)
  | done

structure State where
  backups : Versioned String Backup := { objects := .empty }
  -- the volumes, by the label with the name of their backup
  volumes : Dictionary String (List PodVolumeBackup) := .empty
  readers : List Reader := []
  -- what the requests have returned
  snapshots : List Snapshot := []
  listed : List ListedBackup := []

inductive Action
  /-- velero, kotsadm or anybody else -/
  | create (name : String) (backup : Backup)
  | write (name : String) (backup : Backup)
  | delete (name : String)
  | setVolumes (label : String) (items : List PodVolumeBackup)
  /-- a request for the details -/
  | snapshotDetail (name : String)
  /-- a request for the backups of an app -/
  | listBackups (appID : String)
  | step (i : Nat)
  /-- a call of the request fails -/
  | fail (i : Nat)

section

variable (sha256 : String → String)

namespace State

def volumesOf (s : State) (name : String) : List PodVolumeBackup :=
  (s.volumes.get (getValidName sha256 name)).getD []

def setReader (s : State) (i : Nat) (reader : Reader) : State :=
  { s with readers := s.readers.set i reader }

/-- The details are returned. -/
def answer (s : State) (i : Nat) (snapshot : Snapshot) : State :=
  { s with snapshots := s.snapshots ++ [snapshot] }.setReader i .done

def stepReader (s : State) (i : Nat) : Reader → Option State
  | .read name version backup =>
    match backup.summary with
    | some summary => some (s.answer i (backup.snapshot name summary))
    | none =>
      match getSnapshotVolumeSummary (s.volumesOf sha256 name) with
      -- a TypeError
      | none => some (s.setReader i .done)
      | some summary =>
        if backup.stores then some (s.setReader i (.summarized name version backup summary))
        else some (s.answer i (backup.snapshot name summary))
  | .summarized name version backup summary =>
    match s.backups.update name version (backup.store summary) with
    | some backups => some ({ s with backups := backups }.answer i (backup.snapshot name summary))
    | none => some (s.setReader i .done)
  | .listing [] backups => some ({ s with listed := s.listed ++ backups }.setReader i .done)
  | .listing ((name, backup) :: rest) backups =>
    match backup.listed name (s.volumesOf sha256 name) with
    | some entry => some (s.setReader i (.listing rest (backups ++ [entry])))
    -- the whole request fails
    | none => some (s.setReader i .done)
  | .done => none

def step (s : State) : Action → Option State
  | .create name backup =>
    match s.backups.get name with
    | some _ => none
    | none => some { s with backups := s.backups.put name backup }
  | .write name backup =>
    (s.backups.get name).map fun _ => { s with backups := s.backups.put name backup }
  | .delete name => (s.backups.get name).map fun _ => { s with backups := s.backups.delete name }
  | .setVolumes label items => some { s with volumes := s.volumes.set label items }
  | .snapshotDetail name =>
    (s.backups.get name).map fun e => { s with readers := s.readers ++ [.read name e.1 e.2] }
  | .listBackups appID =>
    some { s with
      readers := s.readers ++
        [.listing ((s.backups.objects.rows.map fun row => (row.1, row.2.2)).filter fun e =>
          (e.2.annotationOf kotsAppIdKey).getD "" = appID) []] }
  | .step i => (s.readers[i]?).bind (s.stepReader sha256 i)
  | .fail i => (s.readers[i]?).map fun _ => s.setReader i .done

end State

def system : Machine State Action where
  step := State.step sha256

end

def Init (s : State) : Prop := s = {}

end Kotsadm.Snapshots.VolumeSummary
