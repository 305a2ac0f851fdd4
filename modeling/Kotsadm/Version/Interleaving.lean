import Kotsadm.Lib.Machine
import Kotsadm.Lib.Processes
import Kotsadm.Version.CreateVersion

/-!
# Interleaving — creations of versions of one app, statement by statement

The Go `createVersion` runs its statements in a transaction, the TypeScript `uploadUpdate` in
statements that commit at once.  Under READ COMMITTED a statement sees what is committed when it
starts, and waits for the rows that an open transaction has written.  A transaction is modelled by
what it has still to write; its commit writes all of it.  What may go wrong outside the statements
is the action `fail`, which may come at any time.
-/

namespace Kotsadm.Interleaving

open Version

/-- What a creation is going to store. -/
structure NewVersion where
  columns : AppVersionColumns := {}
  name : String := ""
  icon : String := ""
  downstream : ClusterId → KotsAppStore.DownstreamVersionArgs := fun _ => { status := "pending" }
  now : Timestamp := 0

/-! ## The creations -/

/-- The last statement of a `createVersion`; the rows are the downstream versions inserted so far. -/
inductive TransactionPhase where
  | selected
  | upserted
  | updated
  | inserting (todo : List ClusterId) (rows : List AppDownstreamVersionRow)

structure Transaction where
  version : NewVersion
  sequence : Int
  phase : TransactionPhase := .selected

/-- The last statement of an `uploadUpdate`; `inserting` comes after the select of the maximum. -/
inductive UploadPhase where
  | fetched
  | upserted
  | updated
  | numbering (todo : List ClusterId)
  | inserting (clusterId : ClusterId) (newSequence : Int) (todo : List ClusterId)

structure Upload where
  version : NewVersion
  sequence : Int
  phase : UploadPhase := .fetched

inductive Creation where
  | transaction (t : Transaction)
  | upload (u : Upload)
  | succeeded (sequence : Int)
  | failed

/-- The committed database, the creations so far, and who has written which version, the last write
first. -/
structure World where
  db : Database
  creations : List Creation := []
  writes : List (Nat × Int) := []

namespace World

def put (w : World) (i : Nat) (c : Creation) : World := { w with creations := w.creations.set i c }

def start (w : World) (c : Creation) : World := { w with creations := w.creations ++ [c] }

/-- An open transaction holds a lock of this kind. -/
def locked (w : World) (lock : Transaction → Bool) : Bool :=
  w.creations.any fun
    | .transaction t => lock t
    | _ => false

end World

namespace Transaction

def locksVersion (sequence : Int) (t : Transaction) : Bool :=
  match t.phase with
  | .selected => false
  | _ => t.sequence = sequence

def locksApp (t : Transaction) : Bool :=
  match t.phase with
  | .selected | .upserted => false
  | _ => true

def locksRow (key : AppId × ClusterId × Int) (t : Transaction) : Bool :=
  match t.phase with
  | .inserting _ rows => rows.any fun r => r.key = key
  | _ => false

end Transaction

/-! ## The statements -/

def insertDownstreamVersions : List AppDownstreamVersionRow → Database → Except String Database
  | [], db => .ok db
  | row :: rows, db => do
    let db ← KotsAppStore.insertDownstreamVersion db row
    insertDownstreamVersions rows db

/-- What the commit of a transaction writes. -/
def Transaction.commit (appId : AppId) (t : Transaction) (rows : List AppDownstreamVersionRow)
    (db : Database) : Except String Database :=
  let db := KotsAppStore.upsertAppVersion db appId t.sequence t.version.now t.version.columns
  insertDownstreamVersions rows
    (KotsAppStore.updateAppVersion db appId t.sequence t.version.name t.version.icon)

/-- The next statement of a `createVersion`; `none` while it waits for a lock. -/
def nextTransaction (appId : AppId) (w : World) (i : Nat) (t : Transaction) : Option World :=
  match t.phase with
  | .selected =>
    if w.locked (Transaction.locksVersion t.sequence) then none
    else some (w.put i (.transaction { t with phase := .upserted }))
  | .upserted =>
    if w.locked Transaction.locksApp then none
    else some (w.put i (.transaction { t with phase := .updated }))
  | .updated =>
    let downstreams := KotsAppStore.listClusterIDsForApp w.db appId
    some (w.put i (.transaction { t with phase := .inserting downstreams [] }))
  | .inserting (clusterId :: todo) rows =>
    let row := (t.version.downstream clusterId).row appId clusterId t.sequence t.sequence
      t.version.now
    if w.locked (Transaction.locksRow row.key) then none
    else if (w.db.appDownstreamVersion.find? row.key).isSome then
      -- a duplicate key: the transaction is rolled back
      some (w.put i .failed)
    else some (w.put i (.transaction { t with phase := .inserting todo (rows ++ [row]) }))
  | .inserting [] rows =>
    match t.commit appId rows w.db with
    | .error _ => some (w.put i .failed)
    | .ok db =>
      some { db, creations := w.creations.set i (.succeeded t.sequence),
             writes := (i, t.sequence) :: w.writes }

/-- The next statement of an `uploadUpdate`. -/
def nextUpload (appId : AppId) (w : World) (i : Nat) (u : Upload) : Option World :=
  match u.phase with
  | .fetched =>
    if w.locked (Transaction.locksVersion u.sequence) then none
    else some {
      db := KotsAppStore.upsertAppVersion w.db appId u.sequence u.version.now u.version.columns
      creations := w.creations.set i (.upload { u with phase := .upserted })
      writes := (i, u.sequence) :: w.writes }
  | .upserted =>
    if w.locked Transaction.locksApp then none
    else some { w with
      db := KotsAppStore.updateAppVersion w.db appId u.sequence u.version.name u.version.icon
      creations := w.creations.set i (.upload { u with phase := .updated }) }
  | .updated =>
    let clusterIds := KotsAppStore.listClusterIDsForApp w.db appId
    some (w.put i (.upload { u with phase := .numbering clusterIds }))
  | .numbering (clusterId :: todo) =>
    let newSequence := KotsAppStore.nextDownstreamSequence w.db appId clusterId
    some (w.put i (.upload { u with phase := .inserting clusterId newSequence todo }))
  | .numbering [] => some (w.put i (.succeeded u.sequence))
  | .inserting clusterId newSequence todo =>
    let row := (u.version.downstream clusterId).row appId clusterId newSequence u.sequence
      u.version.now
    if w.locked (Transaction.locksRow row.key) then none
    else match KotsAppStore.insertDownstreamVersion w.db row with
      | .error _ => some (w.put i .failed)
      | .ok db =>
        some { w with db, creations := w.creations.set i (.upload { u with phase := .numbering todo }) }

inductive Action where
  /-- `begin` and `select max(sequence)` -/
  | createVersion (currentSequence : Int) (version : NewVersion)
  /-- `getApp` -/
  | uploadUpdate (version : NewVersion)
  /-- The next statement of a creation. -/
  | next (i : Nat)
  /-- A creation gives up: a transaction is rolled back, an upload leaves what it has written. -/
  | fail (i : Nat)

def machine (appId : AppId) : Machine World Action where
  step w
    | .createVersion currentSequence version =>
      match nextSequence w.db appId (some currentSequence) with
      | none => some (w.start .failed)
      | some sequence => some (w.start (.transaction { version, sequence }))
    | .uploadUpdate version =>
      match KotsAppStore.getApp w.db appId with
      | .error _ => some (w.start .failed)
      | .ok kotsApp =>
        some (w.start (.upload { version, sequence := kotsApp.currentSequence.getD 0 + 1 }))
    | .next i =>
      match w.creations[i]? with
      | some (.transaction t) => nextTransaction appId w i t
      | some (.upload u) => nextUpload appId w i u
      | _ => none
    | .fail i =>
      match w.creations[i]? with
      | some (.transaction _) => some (w.put i .failed)
      | some (.upload _) => some (w.put i .failed)
      | _ => none

/-! ## What is to hold -/

def World.Succeeded (w : World) (i : Nat) (sequence : Int) : Prop :=
  w.creations[i]? = some (.succeeded sequence)

/-- Creation `j` has written a version that creation `i` had written before. -/
def World.Overwrites (w : World) (j i : Nat) : Prop :=
  ∃ sequence, [(j, sequence), (i, sequence)].Sublist w.writes

structure Safe (w : World) : Prop where
  distinct : ∀ i j n m, w.Succeeded i n → w.Succeeded j m → i ≠ j → n ≠ m
  kept : ∀ i j n m, w.Succeeded i n → w.Succeeded j m → i ≠ j → ¬ w.Overwrites j i

/-- The app has a current version, and nothing is going on. -/
def Init (appId : AppId) (w : World) : Prop :=
  w.creations = [] ∧ w.writes = [] ∧
    ∃ row current, w.db.app.find? appId = some row ∧ row.currentSequence = some current ∧
      (w.db.appVersion.find? (appId, current)).isSome

/-- A creation in progress is going to store the version `sequence`. -/
def Creation.Uses (sequence : Int) : Creation → Prop
  | .transaction t => t.sequence = sequence
  | .upload u => u.sequence = sequence
  | _ => False

def Creation.IsTransaction : Creation → Prop
  | .transaction _ => True
  | _ => False

/-- No creation gets the sequence of one in progress, unless both are transactions and the app has a
downstream; and no upload sets the current sequence back. -/
def Guard (appId : AppId) (w : World) : Action → Prop
  | .createVersion currentSequence _ =>
    ∀ sequence, nextSequence w.db appId (some currentSequence) = some sequence →
      ∀ c ∈ w.creations, c.Uses sequence →
        c.IsTransaction ∧ KotsAppStore.listClusterIDsForApp w.db appId ≠ []
  | .uploadUpdate _ =>
    ∀ kotsApp, KotsAppStore.getApp w.db appId = .ok kotsApp →
      ∀ c ∈ w.creations, ¬ c.Uses (kotsApp.currentSequence.getD 0 + 1)
  | .next i =>
    ∀ u, w.creations[i]? = some (.upload u) → u.phase = .upserted →
      ∀ kotsApp, KotsAppStore.getApp w.db appId = .ok kotsApp →
        kotsApp.currentSequence.getD 0 ≤ u.sequence
  | .fail _ => True

end Kotsadm.Interleaving
