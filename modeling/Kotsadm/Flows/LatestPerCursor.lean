import Kotsadm.Flows.LaterVersions
import Mathlib.Order.Bounds.Defs

/-!
# LatestPerCursor — which versions a config change is for

Of the versions with the update cursor of the changed one, and of those with each larger cursor, the
latest is taken.
-/

namespace Kotsadm.Flows

section Cursors

variable {versions : List AppVersion} {start : Int} {this : AppVersion}

/-- The sequences are the keys of the versions of an app. -/
def UniqueSequences (versions : List AppVersion) : Prop := (versions.map (·.sequence)).Nodup

instance (versions : List AppVersion) : Decidable (UniqueSequences versions) :=
  inferInstanceAs (Decidable (versions.map (·.sequence)).Nodup)

/-- The first loop finds the cursor of the version. -/
theorem cursor_foldl_eq (hunique : UniqueSequences versions) (hthis : this ∈ versions)
    (cursor : Int) :
    versions.foldl (fun cursor version =>
      if version.sequence = this.sequence then version.updateCursor else cursor) cursor =
      this.updateCursor := by
  have hskip : ∀ (rest : List AppVersion) (cursor : Int),
      this.sequence ∉ rest.map (·.sequence) → rest.foldl (fun cursor version =>
        if version.sequence = this.sequence then version.updateCursor else cursor) cursor =
        cursor := by
    intro rest
    induction rest with
    | nil => exact fun _ _ => rfl
    | cons version rest ih =>
      intro cursor hfresh
      rw [List.map_cons, List.mem_cons, not_or] at hfresh
      rw [List.foldl_cons, if_neg fun heq => hfresh.1 heq.symm]
      exact ih cursor hfresh.2
  induction versions generalizing cursor with
  | nil => cases hthis
  | cons version rest ih =>
    obtain ⟨hfresh, hunique⟩ := List.nodup_cons.mp hunique
    rw [List.foldl_cons]
    rcases List.mem_cons.mp hthis with rfl | hthis
    · rw [if_pos rfl]
      exact hskip rest this.updateCursor hfresh
    · exact ih hunique hthis _

/-- Versions with a cursor of their own and the greatest sequence are in the list once. -/
structure LatestPerCursor (versions : List AppVersion) (cursor : Int) (later : List AppVersion) :
    Prop where
  ascending : later.Pairwise fun v w => v.updateCursor < w.updateCursor
  latest : ∀ v, v ∈ later ↔ v ∈ versions ∧ cursor < v.updateCursor ∧ Newest versions v
  each : ∀ v ∈ versions, cursor < v.updateCursor →
    ∃ w ∈ later, w.updateCursor = v.updateCursor

/-- **Latest versions.**  A config change is for the latest version with the cursor of the changed
one, and then for the latest version with each larger cursor, in ascending order. -/
theorem getLaterVersions_latest (versions : List AppVersion) (this : AppVersion)
    (hunique : UniqueSequences versions) (hcursors : ∀ v ∈ versions, 0 ≤ v.updateCursor)
    (hthis : this ∈ versions) :
    ∃ latest later, getLaterVersions (.ok versions) this.sequence = .ok (latest, later) ∧
      IsGreatest {n | ∃ v ∈ versions, v.updateCursor = this.updateCursor ∧ v.sequence = n} latest ∧
      LatestPerCursor versions this.updateCursor later := by
  have hcursor := cursor_foldl_eq hunique hthis (-1)
  have hpositive := hcursors this hthis
  have hok : getLaterVersions (.ok versions) this.sequence =
      .ok (versions.foldl (latestStep this.updateCursor) this.sequence,
        (versions.foldl (laterStep this.updateCursor) []).insertionSort fun v w =>
          v.updateCursor ≤ w.updateCursor) := by
    unfold getLaterVersions
    show (if _ then _ else _) = _
    rw [hcursor, if_neg (by omega)]
    rfl
  have hall : ∀ u ∈ versions, u.updateCursor = this.updateCursor →
      u.sequence ≤ versions.foldl (latestStep this.updateCursor) this.sequence :=
    (le_latest_foldl this.sequence).2
  obtain ⟨v, hv, hsequence, hvCursor⟩ := latest_foldl ⟨this, hthis, rfl, rfl⟩
  obtain ⟨-, -, hascending, -⟩ := getLaterVersions_eq_ok hok
  have hsaved := saved_foldl this.updateCursor versions
  refine ⟨_, _, hok, ⟨⟨v, hv, hvCursor, hsequence⟩, ?_⟩, hascending, ?_, ?_⟩
  · rintro n ⟨u, hu, hsame, rfl⟩
    exact hall u hu hsame
  · intro w
    rw [List.mem_insertionSort]
    constructor
    · intro hw
      exact ⟨(hsaved.mem w hw).1, (hsaved.mem w hw).2, newest_foldl _ versions w hw⟩
    · rintro ⟨hw, hlarger, hnewest⟩
      obtain ⟨u, hu, hsame⟩ := hsaved.all w hw hlarger
      have huMem := (hsaved.mem u hu).1
      -- two latest versions of one cursor have the same sequence
      have hle := hnewest u huMem hsame
      have hge := newest_foldl _ versions u hu w hw hsame.symm
      rw [List.inj_on_of_nodup_map hunique hw huMem (Int.le_antisymm hge hle)]
      exact hu
  · intro w hw hlarger
    obtain ⟨u, hu, hsame⟩ := hsaved.all w hw hlarger
    exact ⟨u, (List.mem_insertionSort _).mpr hu, hsame⟩

end Cursors

/-- Three cursors, the second and the third of which have later sequences. -/
def threeCursors : List AppVersion :=
  [{ sequence := 3, updateCursor := 2, versionLabel := "1.1" },
    { sequence := 0, updateCursor := 1, versionLabel := "1.0" },
    { sequence := 1, updateCursor := 2, versionLabel := "1.1" },
    { sequence := 4, updateCursor := 7, versionLabel := "1.2" },
    { sequence := 2, updateCursor := 1, versionLabel := "1.0" }]

example : getLaterVersions (.ok threeCursors) 0 = .ok (2,
    [{ sequence := 3, updateCursor := 2, versionLabel := "1.1" },
      { sequence := 4, updateCursor := 7, versionLabel := "1.2" }]) := by decide

theorem getLaterVersions_threeCursors :
    ∃ latest later, getLaterVersions (.ok threeCursors) 0 = .ok (latest, later) ∧
      IsGreatest {n | ∃ v ∈ threeCursors, v.updateCursor = 1 ∧ v.sequence = n} latest ∧
      LatestPerCursor threeCursors 1 later :=
  getLaterVersions_latest threeCursors
    { sequence := 0, updateCursor := 1, versionLabel := "1.0" } (by decide) (by decide) (by decide)

end Kotsadm.Flows
