import Kotsadm.Snapshots.VolumeSummary

/-!
# FinalSummary — when the reported volumes are those of the snapshot

The volumes of a backup do not change any more once it is finished, so a summary that is stored then
is right for good.  A backup that velero has not looked at yet may have a status without a phase.
The details take it for a finished one, and the summary they store stays.
-/

namespace Kotsadm.Snapshots.VolumeSummary

open JsInteger (Number)

/-! ## Summaries -/

def completed (items : List PodVolumeBackup) : Nat :=
  items.countP fun pvb => pvb.phase = "Completed"

def totalBytes (items : List PodVolumeBackup) : Nat :=
  items.foldr (fun pvb bytes => pvb.bytesDone.toInt.toNat + bytes) 0

/-- Both languages have the numbers that the summary needs. -/
structure Fits (items : List PodVolumeBackup) : Prop where
  length : items.length < 2 ^ 53
  natural : ∀ pvb ∈ items, 0 ≤ pvb.bytesDone.toInt
  bytes : totalBytes items < 2 ^ 53

def VolumeSummary.of (count success bytes : Nat) : VolumeSummary where
  count := .ofInt count
  success := .ofInt success
  bytes := .ofInt bytes

def GoVolumeSummary.of (count success totalBytes : Nat) : GoVolumeSummary where
  count := .ofNat count
  success := .ofNat success
  totalBytes := .ofNat totalBytes

def Snapshot.Says (r : Snapshot) (count success bytes : Nat) : Prop :=
  r.volumeCount = .ofInt count ∧ r.volumeSuccessCount = .ofInt success ∧ r.volumeBytes = .ofInt bytes

def ListedBackup.Says (r : ListedBackup) (count success bytes : Nat) : Prop :=
  r.volumeCount = Int64.ofNat count ∧ r.volumeSuccessCount = Int64.ofNat success ∧
    r.volumeBytes = Int64.ofNat bytes

/-- The numbers that hold are those of the volumes. -/
def Right (items : List PodVolumeBackup) (p : Nat → Nat → Nat → Prop) : Prop :=
  Fits items → p items.length (completed items) (totalBytes items)

section

variable {pvb : PodVolumeBackup} {items : List PodVolumeBackup} {summary summary' : VolumeSummary}

theorem completed_nil : completed [] = 0 := rfl

theorem totalBytes_nil : totalBytes [] = 0 := rfl

theorem completed_cons :
    completed (pvb :: items) = completed items + if pvb.phase = "Completed" then 1 else 0 := by
  unfold completed
  rw [List.countP_cons]
  simp only [decide_eq_true_eq]

theorem totalBytes_cons :
    totalBytes (pvb :: items) = pvb.bytesDone.toInt.toNat + totalBytes items := rfl

theorem completed_le : completed items ≤ items.length := List.countP_le_length

theorem add_eq_some (h : summary.add pvb = some summary') :
    summary'.count = summary.count.plus (.ofInt 1) ∧
    summary'.success =
      (if pvb.phase = "Completed" then summary.success.plus (.ofInt 1) else summary.success) ∧
    (summary'.bytes = summary.bytes.plus (.ofInt pvb.bytesDone.toInt) ∨
      pvb.bytesDone = 0 ∧ summary'.bytes = summary.bytes) := by
  unfold VolumeSummary.add at h
  cases hstatus : pvb.status with
  | none =>
    rw [hstatus] at h
    cases h
  | some status =>
    rw [hstatus] at h
    dsimp only at h
    cases hprogress : status.progress with
    | none =>
      rw [hprogress] at h
      cases h
    | some bytesDone =>
      rw [hprogress] at h
      cases h
      have hphase : status.phase = some "Completed" ↔ pvb.phase = "Completed" := by
        unfold PodVolumeBackup.phase
        rw [hstatus, Option.bind_some]
        cases status.phase with
        | none => simp
        | some phase => simp
      have hbytes : pvb.bytesDone = bytesDone.getD 0 := by
        unfold PodVolumeBackup.bytesDone
        rw [hstatus, Option.bind_some, hprogress, Option.join_some]
      refine ⟨rfl, ?_, ?_⟩
      · simp only [hphase]
      · cases bytesDone with
        | none => exact .inr ⟨hbytes, rfl⟩
        | some n =>
          rw [hbytes]
          exact .inl rfl

/-- The loop adds to what it has. -/
theorem foldlM_add {a b c : Nat} (hnatural : ∀ pvb ∈ items, 0 ≤ pvb.bytesDone.toInt)
    (hcount : a + items.length < 2 ^ 53) (hle : b ≤ a) (hbytes : c + totalBytes items < 2 ^ 53)
    (h : items.foldlM VolumeSummary.add (.of a b c) = some summary) :
    summary = .of (a + items.length) (b + completed items) (c + totalBytes items) := by
  induction items generalizing a b c with
  | nil =>
    rw [List.foldlM_nil] at h
    rw [← Option.some.inj h, completed_nil, totalBytes_nil, List.length_nil, Nat.add_zero, Nat.add_zero,
      Nat.add_zero]
  | cons pvb items ih =>
    rw [List.foldlM_cons] at h
    obtain ⟨next, hadd, h⟩ := Option.bind_eq_some_iff.mp h
    rw [List.length_cons] at hcount
    rw [totalBytes_cons] at hbytes
    have hnat : ((pvb.bytesDone.toInt.toNat : Nat) : Int) = pvb.bytesDone.toInt :=
      Int.toNat_of_nonneg (hnatural pvb List.mem_cons_self)
    have hone : (b + if pvb.phase = "Completed" then 1 else 0) ≤ a + 1 := by
      split <;> omega
    have hnext : next = .of (a + 1) (b + if pvb.phase = "Completed" then 1 else 0)
        (c + pvb.bytesDone.toInt.toNat) := by
      obtain ⟨hc, hs, hb⟩ := add_eq_some hadd
      simp only [VolumeSummary.of] at hc hs hb
      have hs' : next.success =
          .ofInt ((b + if pvb.phase = "Completed" then 1 else 0 : Nat) : Int) := by
        rw [hs]
        split
        · exact Number.plus_one (by omega)
        · rw [Nat.add_zero]
      have hb' : next.bytes = .ofInt ((c + pvb.bytesDone.toInt.toNat : Nat) : Int) := by
        rcases hb with hb | ⟨hzero, hb⟩
        · rw [hb, ← hnat]
          exact Number.plus_ofInt (by omega)
        · rw [hb, hzero, Int64.toInt_zero, Int.toNat_zero, Nat.add_zero]
      cases next
      simp only at hc hs' hb'
      rw [hc, hs', hb', Number.plus_one (by omega)]
      rfl
    rw [hnext] at h
    rw [ih (fun pvb hpvb => hnatural pvb (List.mem_cons_of_mem _ hpvb)) (by omega) hone (by omega) h,
      List.length_cons, completed_cons, totalBytes_cons, Nat.add_assoc, Nat.add_assoc, Nat.add_assoc,
      Nat.add_comm 1, Nat.add_comm (completed items)]

/-- What the details compute. -/
theorem getSnapshotVolumeSummary_right (h : getSnapshotVolumeSummary items = some summary)
    (hfits : Fits items) : summary = .of items.length (completed items) (totalBytes items) := by
  have hsum := foldlM_add (a := 0) (b := 0) (c := 0) hfits.natural
    (by rw [Nat.zero_add]; exact hfits.length) (Nat.le_refl 0)
    (by rw [Nat.zero_add]; exact hfits.bytes) h
  simpa only [Nat.zero_add] using hsum

theorem foldl_goAdd {a b c : Nat} (hnatural : ∀ pvb ∈ items, 0 ≤ pvb.bytesDone.toInt) :
    items.foldl GoVolumeSummary.add (.of a b c) =
      .of (a + items.length) (b + completed items) (c + totalBytes items) := by
  induction items generalizing a b c with
  | nil => rfl
  | cons pvb items ih =>
    have hbytes : Int64.ofNat pvb.bytesDone.toInt.toNat = pvb.bytesDone := by
      have hnat := Int.toNat_of_nonneg (hnatural pvb List.mem_cons_self)
      rw [← Int64.ofInt_eq_ofNat, hnat, Int64.ofInt_toInt]
    have hadd : GoVolumeSummary.add (.of a b c) pvb =
        .of (a + 1) (b + if pvb.phase = "Completed" then 1 else 0)
          (c + pvb.bytesDone.toInt.toNat) := by
      unfold GoVolumeSummary.add GoVolumeSummary.of
      simp only [Int64.ofNat_add, hbytes]
      split <;> simp
    rw [List.foldl_cons, hadd, ih fun pvb hpvb => hnatural pvb (List.mem_cons_of_mem _ hpvb),
      List.length_cons, completed_cons, totalBytes_cons, Nat.add_assoc, Nat.add_assoc, Nat.add_assoc,
      Nat.add_comm 1, Nat.add_comm (completed items)]

/-- What the list computes. -/
theorem goVolumeSummary_right (hfits : Fits items) :
    goVolumeSummary items = .of items.length (completed items) (totalBytes items) := by
  have hsum := foldl_goAdd (a := 0) (b := 0) (c := 0) hfits.natural
  rw [Nat.zero_add, Nat.zero_add, Nat.zero_add] at hsum
  exact hsum

end

/-! ## What a backup says -/

namespace Backup

/-- Velero is done with it. -/
def Finished (b : Backup) : Prop :=
  ∃ phase, b.status = some (some phase) ∧ phase ≠ "" ∧ phase ≠ "New" ∧ phase ≠ "InProgress"

/-- It has a status without a phase. -/
def Bare (b : Backup) : Prop := b.status = some none ∨ b.status = some (some "")

/-- No part of a summary is stored. -/
def Unstored (b : Backup) : Prop := ∀ key ∈ summaryKeys, b.annotationOf key = none

/-- The annotations of a summary are the same. -/
def Agrees (b b' : Backup) : Prop := ∀ key ∈ summaryKeys, b'.annotationOf key = b.annotationOf key

structure Says (b : Backup) (count success bytes : Nat) : Prop where
  count : b.annotationOf snapshotVolumeCountKey = some (toString count)
  success : b.annotationOf snapshotVolumeSuccessCountKey = some (toString success)
  bytes : b.annotationOf snapshotVolumeBytesKey = some (toString bytes)

variable {b b' : Backup} {name : String} {count success bytes : Nat}

theorem stores_iff (h : ¬ b.Bare) : b.stores = true ↔ b.Finished := by
  unfold Backup.stores Backup.phase Finished
  unfold Bare at h
  rcases hstatus : b.status with _ | _ | phase
  · simp
  · exact absurd (.inl hstatus) h
  · have hne : phase ≠ "" := fun heq => h (.inr (heq ▸ hstatus))
    simp [hne]

/-- What the list reports as finished. -/
theorem finished_of_listedStatus (hnew : b.listedStatus ≠ "New")
    (hprogress : b.listedStatus ≠ "InProgress") : b.Finished := by
  unfold Backup.listedStatus at hnew hprogress
  rcases hstatus : b.status with _ | _ | phase
  · rw [hstatus] at hnew
    exact absurd rfl hnew
  · rw [hstatus] at hnew
    exact absurd rfl hnew
  · rw [hstatus] at hnew hprogress
    dsimp only [Option.join_some] at hnew hprogress
    split at hnew
    next => exact absurd rfl hnew
    next hne =>
      rw [if_neg hne] at hprogress
      exact ⟨phase, hstatus, hne, hnew, hprogress⟩

theorem Agrees.report (h : b.Agrees b') (hreport : b.Says count success bytes) :
    b'.Says count success bytes where
  count := (h _ (by simp [summaryKeys])).trans hreport.count
  success := (h _ (by simp [summaryKeys])).trans hreport.success
  bytes := (h _ (by simp [summaryKeys])).trans hreport.bytes

theorem Agrees.unstored (h : b.Agrees b') (hun : b.Unstored) : b'.Unstored :=
  fun key hkey => (h key hkey).trans (hun key hkey)

theorem Unstored.summary (h : b.Unstored) : b.summary = none := by
  unfold Backup.summary
  rw [h snapshotVolumeCountKey (by simp [summaryKeys])]

/-- What is stored is the text of the numbers. -/
theorem store_reports (hcount : count < 2 ^ 53) (hsuccess : success < 2 ^ 53) (hbytes : bytes < 2 ^ 53) :
    (b.store (.of count success bytes)).Says count success bytes := by
  have hne : snapshotVolumeCountKey ≠ snapshotVolumeSuccessCountKey := by decide
  have hne' : snapshotVolumeCountKey ≠ snapshotVolumeBytesKey := by decide
  have hne'' : snapshotVolumeSuccessCountKey ≠ snapshotVolumeBytesKey := by decide
  have hkeys : ∀ key, (b.store (.of count success bytes)).annotationOf key =
      if snapshotVolumeBytesKey = key then some (toString bytes)
      else if snapshotVolumeSuccessCountKey = key then some (toString success)
      else if snapshotVolumeCountKey = key then some (toString count)
      else (b.annotations.getD .empty).get key := by
    intro key
    unfold Backup.annotationOf Backup.store VolumeSummary.of
    dsimp only [Option.bind_some]
    rw [Dictionary.get_set, Dictionary.get_set, Dictionary.get_set, Number.text_ofInt hcount,
      Number.text_ofInt hsuccess, Number.text_ofInt hbytes]
  refine ⟨?_, ?_, ?_⟩
  · rw [hkeys, if_neg hne'.symm, if_neg hne.symm, if_pos rfl]
  · rw [hkeys, if_neg hne''.symm, if_pos rfl]
  · rw [hkeys, if_pos rfl]

/-- The details read a number back. -/
theorem Says.summary (h : b.Says count success bytes) :
    b.summary = some (.of count success bytes) := by
  have hparse : ∀ n : Nat, Number.parseInt (toString n) = .ofInt n := by
    intro n
    unfold Number.parseInt
    have hread : NumberText.parseIntPrefix (toString n) = some (n : Int) :=
      NumberText.parseIntPrefix_toString n
    rw [hread]
  unfold Backup.summary
  rw [h.count, h.success, h.bytes]
  dsimp only
  rw [hparse, hparse, hparse]
  rfl

/-- So does the list. -/
theorem Says.goAnnotationOf {key : String} {n : Nat} (h : b.annotationOf key = some (toString n))
    (hn : n < 2 ^ 53) : b.goAnnotationOf key = some (some (Int64.ofNat n)) := by
  have hcast : toString (n : Int) = toString n := rfl
  have hread := NumberText.atoi_toString (n := (n : Int)) (by omega) (by omega)
  rw [hcast] at hread
  unfold Backup.goAnnotationOf
  rw [h]
  dsimp only
  rw [hread, Int64.ofInt_eq_ofNat]
  rfl

/-- The entry of the list, from the annotations. -/
theorem Says.listed (h : b.Says count success bytes) (hcount : count < 2 ^ 53)
    (hsuccess : success < 2 ^ 53) (hbytes : bytes < 2 ^ 53) {items : List PodVolumeBackup}
    {entry : ListedBackup} (hlisted : b.listed name items = some entry) :
    entry.Says count success bytes := by
  unfold Backup.listed at hlisted
  rw [Says.goAnnotationOf h.count hcount, Says.goAnnotationOf h.success hsuccess,
    Says.goAnnotationOf h.bytes hbytes] at hlisted
  have hcond : ¬ (b.listedStatus ≠ "New" ∧ b.listedStatus ≠ "InProgress" ∧
      (some (Int64.ofNat bytes) = none ∨ some (Int64.ofNat success) = none)) := by
    rintro ⟨-, -, hnone | hnone⟩ <;> cases hnone
  simp only [Option.bind_eq_bind, Option.bind_some, if_neg hcond] at hlisted
  cases hlisted
  exact ⟨rfl, rfl, rfl⟩

/-- The entry of the list, from the volumes. -/
theorem Unstored.listed (h : b.Unstored) (hnew : b.listedStatus ≠ "New")
    (hprogress : b.listedStatus ≠ "InProgress") {items : List PodVolumeBackup} {entry : ListedBackup}
    (hlisted : b.listed name items = some entry) :
    Right items entry.Says := by
  have hnone : ∀ key ∈ summaryKeys, b.goAnnotationOf key = some none := by
    intro key hkey
    unfold Backup.goAnnotationOf
    rw [h key hkey]
  intro hfits
  unfold Backup.listed at hlisted
  rw [hnone _ (by simp [summaryKeys]), hnone _ (by simp [summaryKeys]),
    hnone _ (by simp [summaryKeys])] at hlisted
  simp only [Option.bind_eq_bind, Option.bind_some, ne_eq, hnew, hprogress, not_false_eq_true,
    true_or, and_self, if_true, goVolumeSummary_right hfits] at hlisted
  cases hlisted
  exact ⟨rfl, rfl, rfl⟩

end Backup

/-! ## Runs -/

section

variable (sha256 : String → String)

/-- A backup begins unfinished and without a summary, and its name is its own.  Whoever writes it does
not undo that it is finished, and leaves a summary alone.  The volumes of a finished backup do not
change. -/
def Velero (s : State) : Action → Prop
  | .create name backup => ¬ backup.Finished ∧ backup.Unstored ∧
      ∀ e ∈ s.backups.history, getValidName sha256 e.1 ≠ getValidName sha256 name
  | .write name backup => ∀ v b, s.backups.get name = some (v, b) →
      (b.Finished → backup.Finished) ∧ b.Agrees backup
  | .setVolumes label _ => ∀ name v b, s.backups.get name = some (v, b) →
      getValidName sha256 name = label → ¬ b.Finished
  | _ => True

/-- The details are asked for when the backup has no status, or one with a phase. -/
def Phased (s : State) : Action → Prop
  | .snapshotDetail name => ∀ v b, s.backups.get name = some (v, b) → ¬ b.Bare
  | _ => True

/-- The backup was there, and if it is there it is finished, with volumes of this kind. -/
structure Final (s : State) (name : String) (p : List PodVolumeBackup → Prop) : Prop where
  known : ∃ v b, (name, v, b) ∈ s.backups.history
  settled : ∀ v b, s.backups.get name = some (v, b) → b.Finished ∧ p (s.volumesOf sha256 name)

/-- How the backups and volumes change. -/
inductive Change (s s' : State) : Prop
  | same (hbackups : s'.backups = s.backups) (hvolumes : s'.volumes = s.volumes)
  | create (name : String) (b : Backup) (hfinished : ¬ b.Finished) (hstored : b.Unstored)
      (hfresh : ∀ e ∈ s.backups.history, getValidName sha256 e.1 ≠ getValidName sha256 name)
      (hbackups : s'.backups = s.backups.put name b) (hvolumes : s'.volumes = s.volumes)
  | write (name : String) (v : Nat) (b b' : Backup) (hget : s.backups.get name = some (v, b))
      (hfinished : b.Finished → b'.Finished)
      (hstored : b'.Unstored ∨ b'.Finished ∧ Final sha256 s name fun items => Right items b'.Says)
      (hbackups : s'.backups = s.backups.put name b') (hvolumes : s'.volumes = s.volumes)
  | delete (name : String) (hbackups : s'.backups = s.backups.delete name)
      (hvolumes : s'.volumes = s.volumes)
  | setVolumes (label : String) (items : List PodVolumeBackup)
      (hopen : ∀ name v b, s.backups.get name = some (v, b) → getValidName sha256 name = label →
        ¬ b.Finished)
      (hbackups : s'.backups = s.backups) (hvolumes : s'.volumes = s.volumes.set label items)

end

section

variable {sha256 : String → String} {s s' : State} {name : String} {p q : List PodVolumeBackup → Prop}

theorem Final.mono (h : Final sha256 s name p) (himp : ∀ items, p items → q items) :
    Final sha256 s name q where
  known := h.known
  settled := fun v b hget => ⟨(h.settled v b hget).1, himp _ (h.settled v b hget).2⟩

/-- What its volumes are now they stay. -/
theorem Final.volumes (h : Final sha256 s name p) (hnow : q (s.volumesOf sha256 name)) :
    Final sha256 s name q where
  known := h.known
  settled := fun v b hget => ⟨(h.settled v b hget).1, hnow⟩

theorem volumesOf_eq (hvolumes : s'.volumes = s.volumes) :
    s'.volumesOf sha256 name = s.volumesOf sha256 name := by
  unfold State.volumesOf
  rw [hvolumes]

theorem Change.history (h : Change sha256 s s') {e : String × Nat × Backup}
    (he : e ∈ s.backups.history) : e ∈ s'.backups.history := by
  cases h with
  | same hbackups _ => exact hbackups ▸ he
  | create name b _ _ _ hbackups _ => exact hbackups ▸ Versioned.mem_put.mpr (.inl he)
  | write name v b b' _ _ _ hbackups _ => exact hbackups ▸ Versioned.mem_put.mpr (.inl he)
  | delete name hbackups _ =>
    rw [hbackups]
    exact he
  | setVolumes label items _ hbackups _ => exact hbackups ▸ he

/-- **What is final stays.** -/
theorem Final.change (h : Final sha256 s name p) (hc : Change sha256 s s') :
    Final sha256 s' name p := by
  obtain ⟨v₀, b₀, hknown⟩ := h.known
  refine ⟨⟨v₀, b₀, hc.history hknown⟩, ?_⟩
  cases hc with
  | same hbackups hvolumes =>
    rw [hbackups, volumesOf_eq hvolumes]
    exact h.settled
  | create name' b' _ _ hfresh hbackups hvolumes =>
    have hne : name' ≠ name := fun heq => hfresh _ hknown (heq ▸ rfl)
    rw [hbackups, Versioned.get_put_ne hne, volumesOf_eq hvolumes]
    exact h.settled
  | write name' v b b' hget hfinished _ hbackups hvolumes =>
    rw [hbackups, volumesOf_eq hvolumes]
    by_cases hname : name' = name
    · subst hname
      intro v' b'' hget'
      cases Versioned.get_put_self.symm.trans hget'
      exact ⟨hfinished (h.settled v b hget).1, (h.settled v b hget).2⟩
    · rw [Versioned.get_put_ne hname]
      exact h.settled
  | delete name' hbackups hvolumes =>
    rw [hbackups, volumesOf_eq hvolumes]
    by_cases hname : name' = name
    · subst hname
      intro v' b' hget'
      cases Versioned.get_delete_self.symm.trans hget'
    · rw [Versioned.get_delete_ne (fun heq => hname heq.symm)]
      exact h.settled
  | setVolumes label items hopen hbackups hvolumes =>
    rw [hbackups]
    intro v b hget
    obtain ⟨hfinished, hp⟩ := h.settled v b hget
    have hne : getValidName sha256 name ≠ label := fun heq => hopen name v b hget heq hfinished
    refine ⟨hfinished, ?_⟩
    unfold State.volumesOf
    rw [hvolumes, Dictionary.get_set, if_neg hne.symm]
    exact hp

end

end Kotsadm.Snapshots.VolumeSummary
