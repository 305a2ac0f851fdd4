import Kotsadm.Lib.Processes
import Kotsadm.Sockets.SupportBundleLoop

/-!
# PendingBundles — every support bundle is asked for, or waits

A row is deleted after its event was emitted.  So no bundle is forgotten, but overlapping ticks ask
for it twice, and a row whose app was deleted holds up the rows behind it.
-/

namespace Kotsadm.SupportBundleLoop

open KotsAppStore DeleteApp

/-- The rows that a tick still goes through, the one in its hands included. -/
def Phase.held : Phase → List PendingSupportbundleRow
  | .sockets | .ended => []
  | .rows rest => rest
  | .found row _ rest | .clearing row rest => row :: rest

theorem Next.held {s s' : State} {t t' : Tick} (h : Next s t s' t') :
    t'.phase.held.Sublist t.phase.held := by
  cases h with
  | ended => exact List.nil_sublist _
  | next => exact List.nil_sublist _
  | getApp row slug rest hphase | emit row slug rest hphase =>
    rw [hphase]
    exact List.Sublist.refl _
  | clear row rest hphase =>
    rw [hphase]
    exact List.sublist_cons_self row rest

theorem rows_nodup (t : Keyed PendingSupportbundleRow.id) : t.rows.Nodup := List.Nodup.of_map _ t.nodup

/-! ## No bundle is forgotten -/

def Emitted (s : State) (row : PendingSupportbundleRow) : Prop := ∃ e ∈ s.emitted, e.row = row

namespace Sent

structure Good (s : State) : Prop where
  ids : (s.queued.map PendingSupportbundleRow.id).Nodup
  queued : s.pending.rows ⊆ s.queued
  kept : ∀ row ∈ s.queued, row ∈ s.pending.rows ∨ Emitted s row
  emitted : ∀ e ∈ s.emitted, e.row ∈ s.queued ∧ ∀ socket ∈ e.recipients,
    socket.clusterId = e.row.clusterId

structure Each (s : State) (t : Tick) : Prop where
  queued : t.phase.held ⊆ s.queued
  nodup : t.phase.held.Nodup
  clearing : ∀ row rest, t.phase = .clearing row rest → Emitted s row

def Inv (s : State) : Prop := Processes.Inv Good Each (fun _ _ => True) s s.ticks

variable {s s' : State} {t t' : Tick}

theorem Good.eq_of_id (h : Good s) {row row' : PendingSupportbundleRow} (hrow : row ∈ s.queued)
    (hrow' : row' ∈ s.queued) (hid : row.id = row'.id) : row = row' :=
  List.inj_on_of_nodup_map h.ids hrow hrow' hid

/-- Nothing that was queued or emitted is taken back. -/
structure Grows (s s' : State) : Prop where
  queued : s.queued ⊆ s'.queued
  emitted : s.emitted ⊆ s'.emitted

theorem Grows.sent (h : Grows s s') {row : PendingSupportbundleRow} (hrow : Emitted s row) :
    Emitted s' row := by
  obtain ⟨e, he, heq⟩ := hrow
  exact ⟨e, h.emitted he, heq⟩

theorem Grows.each (h : Grows s s') (ht : Each s t) : Each s' t :=
  ⟨fun row hrow => h.queued (ht.queued hrow), ht.nodup,
    fun row rest hphase => h.sent (ht.clearing row rest hphase)⟩

theorem Inv.setTick (h : Inv s) {i : Nat} (ht : s.ticks[i]? = some t) (hgrows : Grows s s')
    (hgood : Good s') (hticks : s'.ticks = s.ticks) (heach : Each s' t') : Inv (s'.setTick i t') := by
  unfold Inv State.setTick
  dsimp only
  rw [hticks]
  refine Processes.Inv.set h (fun _ _ => id) ht ⟨hgood.ids, hgood.queued, hgood.kept, hgood.emitted⟩
    ⟨heach.queued, heach.nodup, heach.clearing⟩ fun q _ hq _ => ⟨?_, trivial⟩
  have hq' := hgrows.each hq
  exact ⟨hq'.queued, hq'.nodup, hq'.clearing⟩

theorem Inv.next (h : Inv s) {i : Nat} (ht : s.ticks[i]? = some t) (hnext : Next s t s' t') :
    Inv (s'.setTick i t') := by
  have hgood := h.good
  have heach := h.each i t ht
  have hheld : t'.phase.held ⊆ s.queued ∧ t'.phase.held.Nodup :=
    ⟨fun row hrow => heach.queued (hnext.held.subset hrow), hnext.held.nodup heach.nodup⟩
  have hsame : Grows s s := ⟨List.Subset.refl _, List.Subset.refl _⟩
  cases hnext with
  | ended | next | getApp =>
    exact h.setTick ht hsame hgood rfl ⟨hheld.1, hheld.2, fun row rest heq => by cases heq⟩
  | emit row slug rest hphase =>
    have hgrows : Grows s (s.emit row slug (s.room t.server row.clusterId)) :=
      ⟨List.Subset.refl _, fun _ => List.mem_append_left _⟩
    refine h.setTick ht hgrows ⟨hgood.ids, hgood.queued, ?_, ?_⟩ rfl ⟨hheld.1, hheld.2, ?_⟩
    · intro row' hrow'
      rcases hgood.kept row' hrow' with hpending | hsent
      · exact .inl hpending
      · exact .inr (hgrows.sent hsent)
    · intro e he
      rcases List.mem_append.mp he with he | he
      · exact hgood.emitted e he
      · rw [List.mem_singleton.mp he]
        refine ⟨heach.queued (by rw [hphase]; exact List.mem_cons_self), fun socket hsocket => ?_⟩
        exact of_decide_eq_true (List.mem_filter.mp hsocket).2
    · intro row' rest' heq
      cases heq
      exact ⟨_, List.mem_append_right _ (List.mem_singleton_self _), rfl⟩
  | clear row rest hphase =>
    refine h.setTick ht ⟨List.Subset.refl _, List.Subset.refl _⟩
      ⟨hgood.ids, ?_, ?_, hgood.emitted⟩ rfl ⟨hheld.1, hheld.2, fun row rest heq => by cases heq⟩
    · exact fun row' hrow' => hgood.queued (Keyed.mem_deleteWhere.mp hrow').1
    · intro row' hrow'
      rcases hgood.kept row' hrow' with hpending | hsent
      · by_cases hid : row'.id = row.id
        · right
          have hrow : row ∈ s.queued := heach.queued (by rw [hphase]; exact List.mem_cons_self)
          rw [hgood.eq_of_id hrow' hrow hid]
          exact heach.clearing row rest hphase
        · exact .inl (Keyed.mem_deleteWhere.mpr ⟨hpending, decide_eq_false hid⟩)
      · exact .inr hsent

theorem Inv.step (h : Inv s) {a : Action} (ha : Fresh s a) (hstep : Steps s a s') : Inv s' := by
  have hgood := h.good
  cases hstep with
  | apps a apps happs =>
    have hgrows : Grows s { s with apps := apps } := ⟨List.Subset.refl _, List.Subset.refl _⟩
    exact Processes.Inv.share h ⟨hgood.ids, hgood.queued, hgood.kept, hgood.emitted⟩
      fun _ _ ht => hgrows.each ht
  | servers a servers =>
    have hgrows : Grows s { s with servers := servers } := ⟨List.Subset.refl _, List.Subset.refl _⟩
    exact Processes.Inv.share h ⟨hgood.ids, hgood.queued, hgood.kept, hgood.emitted⟩
      fun _ _ ht => hgrows.each ht
  | queue row pending hrows =>
    have hgrows : Grows s { s with pending := pending, queued := s.queued ++ [row] } :=
      ⟨List.subset_append_left _ _, List.Subset.refl _⟩
    refine Processes.Inv.share h ⟨?_, ?_, ?_, ?_⟩ fun _ _ ht => hgrows.each ht
    · dsimp only
      rw [List.map_append, List.map_singleton, ← List.concat_eq_append]
      refine hgood.ids.concat ?_
      intro hmem
      obtain ⟨old, hold, heq⟩ := List.mem_map.mp hmem
      exact ha old hold heq
    · dsimp only
      rw [hrows]
      intro row' hrow'
      rcases List.mem_append.mp hrow' with hrow' | hrow'
      · exact List.mem_append_left _ (hgood.queued hrow')
      · exact List.mem_append_right _ hrow'
    · intro row' hrow'
      dsimp only
      rw [hrows]
      rcases List.mem_append.mp hrow' with hrow' | hrow'
      · rcases hgood.kept row' hrow' with hpending | hsent
        · exact .inl (List.mem_append_left _ hpending)
        · exact .inr (hgrows.sent hsent)
      · exact .inl (List.mem_append_right _ hrow')
    · intro e he
      exact ⟨hgrows.queued (hgood.emitted e he).1, (hgood.emitted e he).2⟩
  | tick server array =>
    have hnew : Each s { server := server, array := array } :=
      ⟨List.nil_subset _, List.nodup_nil, fun row rest heq => by cases heq⟩
    have hconcat := Processes.Inv.concat h (fun _ _ => id) hnew fun _ _ _ => trivial
    have hgrows : Grows s { s with ticks := s.ticks ++ [{ server := server, array := array }] } :=
      ⟨List.Subset.refl _, List.Subset.refl _⟩
    exact Processes.Inv.share hconcat ⟨hgood.ids, hgood.queued, hgood.kept, hgood.emitted⟩
      fun _ _ ht => hgrows.each ht
  | list i t socket rows ht hphase hrows =>
    exact h.setTick ht ⟨List.Subset.refl _, List.Subset.refl _⟩ hgood rfl
      ⟨fun row hrow => hgood.queued (List.mem_filter.mp (hrows.mem_iff.mp hrow)).1,
        hrows.nodup_iff.mpr ((rows_nodup _).filter _), fun row rest heq => by cases heq⟩
  | run i t t' u ht hnext => exact h.next ht hnext
  | fail i t ht hrunning =>
    exact h.setTick ht ⟨List.Subset.refl _, List.Subset.refl _⟩ hgood rfl
      ⟨List.nil_subset _, List.nodup_nil, fun row rest heq => by cases heq⟩

theorem inv_init : Inv {} :=
  Processes.inv_nil
    { ids := List.nodup_nil
      queued := List.nil_subset _
      kept := fun _ h => (by cases h)
      emitted := fun _ h => (by cases h) }

end Sent

theorem everyState_sent : loop.EveryState Init Fresh Sent.Inv :=
  Machine.everyState_of_inv (fun _ hs => hs ▸ Sent.inv_init) fun _ _ _ h ha hstep =>
    h.step ha (State.steps_of_step hstep)

/-! ## One tick at a time -/

/-- No tick starts before the one before has ended, and no deletion fails. -/
def Alone (s : State) (a : Action) : Prop :=
  Fresh s a ∧
    match a with
    | .tick _ => ∀ t ∈ s.ticks, t.phase = .ended
    | .fail i => ∀ t row rest, s.ticks[i]? = some t → t.phase ≠ .clearing row rest
    | _ => True

/-- The rows that a tick has not emitted. -/
def Phase.waiting : Phase → List PendingSupportbundleRow
  | .sockets | .ended => []
  | .rows rest | .clearing _ rest => rest
  | .found row _ rest => row :: rest

theorem Phase.waiting_sublist (phase : Phase) : phase.waiting.Sublist phase.held := by
  cases phase with
  | clearing row rest => exact List.sublist_cons_self row rest
  | _ => exact List.Sublist.refl _

structure Once (s : State) : Prop where
  sent : Sent.Inv s
  nodup : (s.emitted.map Emission.row).Nodup
  alone : ∀ (i j : Nat) (t t' : Tick), s.ticks[i]? = some t → s.ticks[j]? = some t' → t.phase ≠ .ended →
    t'.phase ≠ .ended → i = j
  pending : ∀ row ∈ s.pending.rows, Emitted s row →
    ∃ t ∈ s.ticks, ∃ rest, t.phase = .clearing row rest
  waiting : ∀ t ∈ s.ticks, ∀ row ∈ t.phase.waiting, ¬ Emitted s row

namespace Once

variable {s s' : State} {t t' : Tick}

/-- The tick that runs is the only one. -/
theorem eq_of_running (h : Once s) {i : Nat} (ht : s.ticks[i]? = some t) (hrunning : t.phase ≠ .ended)
    (ht' : t' ∈ s.ticks) (hrunning' : t'.phase ≠ .ended) : t' = t := by
  obtain ⟨j, hj⟩ := List.mem_iff_getElem?.mp ht'
  obtain rfl := h.alone i j t t' ht hj hrunning hrunning'
  exact Option.some.inj (hj.symm.trans ht)

/-- The step of the tick that runs; the other ones have ended. -/
theorem setTick (h : Once s) {i : Nat} (ht : s.ticks[i]? = some t) (hrunning : t.phase ≠ .ended)
    (hsent : Sent.Inv (s'.setTick i t')) (hticks : s'.ticks = s.ticks)
    (hnodup : (s'.emitted.map Emission.row).Nodup)
    (hpending : ∀ row ∈ s'.pending.rows, Emitted s' row → ∃ rest, t'.phase = .clearing row rest)
    (hwaiting : ∀ row ∈ t'.phase.waiting, ¬ Emitted s' row) : Once (s'.setTick i t') := by
  have hlt := (List.getElem?_eq_some_iff.mp ht).1
  have hset : (s'.setTick i t').ticks = s.ticks.set i t' := by
    unfold State.setTick
    dsimp only
    rw [hticks]
  have hother : ∀ j u, (s'.setTick i t').ticks[j]? = some u → u.phase ≠ .ended → j = i := by
    intro j u hu hne
    rw [hset] at hu
    rcases Processes.getElem?_set_cases hu with ⟨hji, -⟩ | ⟨-, hold⟩
    · exact hji
    · exact h.alone j i u t hold ht hne hrunning
  refine ⟨hsent, hnodup, ?_, ?_, ?_⟩
  · intro j k u u' hu hu' hne hne'
    exact (hother j u hu hne).trans (hother k u' hu' hne').symm
  · intro row hrow hemitted
    obtain ⟨rest, hphase⟩ := hpending row hrow hemitted
    refine ⟨t', ?_, rest, hphase⟩
    rw [hset]
    exact List.mem_set hlt _
  · intro u hu row hrow
    obtain ⟨j, hj⟩ := List.mem_iff_getElem?.mp hu
    have hne : u.phase ≠ .ended := by
      intro hended
      rw [hended] at hrow
      cases hrow
    obtain rfl := hother j u hj hne
    rw [hset, List.getElem?_set_self hlt] at hj
    cases hj
    exact hwaiting row hrow

/-- A row that was emitted and is pending is in the hands of the tick that runs. -/
theorem clearing (h : Once s) {i : Nat} (ht : s.ticks[i]? = some t) (hrunning : t.phase ≠ .ended)
    {row : PendingSupportbundleRow} (hrow : row ∈ s.pending.rows) (hemitted : Emitted s row) :
    ∃ rest, t.phase = .clearing row rest := by
  obtain ⟨u, hu, rest, hphase⟩ := h.pending row hrow hemitted
  have hne : u.phase ≠ .ended := by
    rw [hphase]
    exact fun heq => by cases heq
  obtain rfl := h.eq_of_running ht hrunning hu hne
  exact ⟨rest, hphase⟩

theorem next (h : Once s) {i : Nat} (ht : s.ticks[i]? = some t) (hrunning : t.phase ≠ .ended)
    (hnext : Next s t s' t') : Once (s'.setTick i t') := by
  have hsent := h.sent.next ht hnext
  have heach := h.sent.each i t ht
  have hclearing : ∀ row ∈ s.pending.rows, Emitted s row → ∃ rest, t.phase = .clearing row rest :=
    fun row hrow hemitted => h.clearing ht hrunning hrow hemitted
  have hwaiting := h.waiting t (List.mem_of_getElem? ht)
  cases hnext with
  | ended _ hphase =>
    refine h.setTick ht hrunning hsent rfl h.nodup ?_ fun row hrow => (by cases hrow)
    intro row hrow hemitted
    obtain ⟨rest, heq⟩ := hclearing _ hrow hemitted
    exact absurd heq (hphase row rest)
  | next hphase =>
    refine h.setTick ht hrunning hsent rfl h.nodup ?_ fun row hrow => (by cases hrow)
    intro row hrow hemitted
    obtain ⟨rest, heq⟩ := hclearing _ hrow hemitted
    cases hphase.symm.trans heq
  | getApp row slug rest hphase =>
    rw [hphase] at hwaiting
    refine h.setTick ht hrunning hsent rfl h.nodup ?_ hwaiting
    intro row' hrow' hemitted
    obtain ⟨rest', heq⟩ := hclearing _ hrow' hemitted
    cases hphase.symm.trans heq
  | emit row slug rest hphase =>
    rw [hphase] at hwaiting
    have hnodup := heach.nodup
    rw [hphase] at hnodup
    have hemits : ∀ row', Emitted (s.emit row slug (s.room t.server row.clusterId)) row' →
        Emitted s row' ∨ row' = row := by
      rintro row' ⟨e, he, rfl⟩
      rcases List.mem_append.mp he with he | he
      · exact .inl ⟨e, he, rfl⟩
      · rw [List.mem_singleton.mp he]
        exact .inr rfl
    refine h.setTick ht hrunning hsent rfl ?_ ?_ ?_
    · unfold State.emit
      dsimp only
      rw [List.map_append, List.map_singleton, ← List.concat_eq_append]
      refine h.nodup.concat ?_
      intro hmem
      obtain ⟨e, he, heq⟩ := List.mem_map.mp hmem
      exact hwaiting row List.mem_cons_self ⟨e, he, heq⟩
    · intro row' hrow' hemitted
      rcases hemits row' hemitted with hold | rfl
      · obtain ⟨rest', heq⟩ := hclearing _ hrow' hold
        cases hphase.symm.trans heq
      · exact ⟨rest, rfl⟩
    · intro row' hrow' hemitted
      rcases hemits row' hemitted with hold | rfl
      · exact hwaiting row' (List.mem_cons_of_mem _ hrow') hold
      · exact (List.nodup_cons.mp hnodup).1 hrow'
  | clear row rest hphase =>
    rw [hphase] at hwaiting
    refine h.setTick ht hrunning hsent rfl h.nodup ?_ hwaiting
    intro row' hrow' hemitted
    obtain ⟨hpending, hid⟩ := Keyed.mem_deleteWhere.mp hrow'
    obtain ⟨rest', heq⟩ := hclearing _ hpending hemitted
    cases hphase.symm.trans heq
    exact absurd rfl (of_decide_eq_false hid)

/-- A step outside the ticks. -/
theorem keep (h : Once s) (hsent : Sent.Inv s') (hticks : s'.ticks = s.ticks)
    (hemitted : s'.emitted = s.emitted)
    (hpending : ∀ row ∈ s'.pending.rows, row ∈ s.pending.rows ∨ ¬ Emitted s row) : Once s' := by
  have hiff : ∀ row, Emitted s' row ↔ Emitted s row := by
    intro row
    unfold Emitted
    rw [hemitted]
  refine ⟨hsent, ?_, ?_, ?_, ?_⟩
  · rw [hemitted]
    exact h.nodup
  · rw [hticks]
    exact h.alone
  · intro row hrow hsentRow
    rw [hticks]
    rw [hiff] at hsentRow
    rcases hpending row hrow with hold | hnot
    · exact h.pending row hold hsentRow
    · exact absurd hsentRow hnot
  · intro t ht row hrow
    rw [hiff]
    rw [hticks] at ht
    exact h.waiting t ht row hrow

theorem step (h : Once s) {a : Action} (ha : Alone s a) (hstep : Steps s a s') : Once s' := by
  have hsent := h.sent.step ha.1 hstep
  cases hstep with
  | apps a apps happs => exact h.keep hsent rfl rfl fun row hrow => .inl hrow
  | servers a servers => exact h.keep hsent rfl rfl fun row hrow => .inl hrow
  | queue row pending hrows =>
    refine h.keep hsent rfl rfl fun row' hrow' => ?_
    change row' ∈ pending.rows at hrow'
    rw [hrows] at hrow'
    rcases List.mem_append.mp hrow' with hrow' | hrow'
    · exact .inl hrow'
    · right
      rintro ⟨e, he, heq⟩
      rw [List.mem_singleton.mp hrow'] at heq
      exact ha.1 e.row (h.sent.good.emitted e he).1 (congrArg PendingSupportbundleRow.id heq)
  | tick server array =>
    have hended : ∀ t ∈ s.ticks, t.phase = .ended := ha.2
    have hnew : ∀ (j : Nat) (t : Tick), (s.ticks ++ [{ server := server, array := array }])[j]? = some t →
        t.phase ≠ .ended → j = s.ticks.length := by
      intro j t ht hne
      rcases Processes.getElem?_concat_cases ht with ⟨hj, -⟩ | ⟨-, hold⟩
      · exact hj
      · exact absurd (hended t (List.mem_of_getElem? hold)) hne
    refine ⟨hsent, h.nodup, ?_, ?_, ?_⟩
    · intro i j t t' ht ht' hne hne'
      exact (hnew i t ht hne).trans (hnew j t' ht' hne').symm
    · intro row hrow hemitted
      obtain ⟨t, ht, rest, hphase⟩ := h.pending row hrow hemitted
      cases (hended t ht).symm.trans hphase
    · intro t ht row hrow
      rcases List.mem_append.mp ht with ht | ht
      · exact h.waiting t ht row hrow
      · rw [List.mem_singleton.mp ht] at hrow
        cases hrow
  | list i t socket rows ht hphase hrows =>
    have hrunning : t.phase ≠ .ended := fun hended => by cases hphase.symm.trans hended
    have hnone : ∀ row ∈ s.pending.rows, ¬ Emitted s row := by
      intro row hrow hemitted
      obtain ⟨rest, heq⟩ := h.clearing ht hrunning hrow hemitted
      cases hphase.symm.trans heq
    exact h.setTick ht hrunning hsent rfl h.nodup
      (fun row hrow hemitted => absurd hemitted (hnone row hrow))
      fun row hrow => hnone row (List.mem_filter.mp (hrows.mem_iff.mp hrow)).1
  | run i t t' u ht hnext =>
    refine h.next ht ?_ hnext
    intro hended
    cases hnext with
    | ended hrunning => exact hrunning hended
    | next hphase | getApp _ _ _ hphase | emit _ _ _ hphase | clear _ _ hphase =>
      cases hphase.symm.trans hended
  | fail i t ht hrunning =>
    refine h.setTick ht hrunning hsent rfl h.nodup ?_ fun row hrow => (by cases hrow)
    intro row hrow hemitted
    obtain ⟨rest, hphase⟩ := h.clearing ht hrunning hrow hemitted
    exact absurd hphase (ha.2 t row rest ht)

end Once

/-! ## A row whose app is gone -/

/-- `p` stands before `r`. -/
def Before (p r : PendingSupportbundleRow) (rows : List PendingSupportbundleRow) : Prop :=
  ∃ before after, rows = before ++ p :: after ∧ r ∈ after

namespace Before

variable {p r row : PendingSupportbundleRow} {rows : List PendingSupportbundleRow}

theorem mem (h : Before p r rows) : r ∈ rows := by
  obtain ⟨before, after, rfl, hr⟩ := h
  exact List.mem_append_right _ (List.mem_cons_of_mem _ hr)

theorem mem_left (h : Before p r rows) : p ∈ rows := by
  obtain ⟨before, after, rfl, -⟩ := h
  exact List.mem_append_right _ List.mem_cons_self

theorem filter {keep : PendingSupportbundleRow → Bool} (h : Before p r rows) (hp : keep p = true)
    (hr : keep r = true) : Before p r (rows.filter keep) := by
  obtain ⟨before, after, rfl, hmem⟩ := h
  refine ⟨before.filter keep, after.filter keep, ?_, List.mem_filter.mpr ⟨hmem, hr⟩⟩
  rw [List.filter_append, List.filter_cons_of_pos hp]

theorem concat (h : Before p r rows) : Before p r (rows ++ [row]) := by
  obtain ⟨before, after, rfl, hmem⟩ := h
  exact ⟨before, after ++ [row], List.append_assoc _ _ _, List.mem_append_left _ hmem⟩

theorem tail (h : Before p r (row :: rows)) (hne : row ≠ p) : Before p r rows := by
  obtain ⟨before, after, heq, hmem⟩ := h
  cases before with
  | nil =>
    cases heq
    exact absurd rfl hne
  | cons first before =>
    cases heq
    exact ⟨before, after, rfl, hmem⟩

end Before

/-- The app of `p` is gone, and `r` is behind `p` in the table; no tick has seen either. -/
structure Blocked (p r : PendingSupportbundleRow) (s : State) : Prop where
  before : Before p r s.pending.rows
  cluster : p.clusterId = r.clusterId
  gone : s.apps.get p.appId = none
  unsent : ¬ Emitted s r
  unseen : ∀ t ∈ s.ticks, p ∉ t.phase.held ∧ r ∉ t.phase.held

/-- The ids of apps are not used again, and the query lists what was there before first. -/
def StaysGone (p r : PendingSupportbundleRow) (s : State) (a : Action) : Prop :=
  Fresh s a ∧
    match a with
    | .createApp id _ => id ≠ p.appId
    | .list _ rows => r ∈ rows → p ∈ rows → Before p r rows
    | _ => True

namespace Blocked

/-- What a tick may hold. -/
structure Each (p r : PendingSupportbundleRow) (t : Tick) : Prop where
  -- `r` comes after `p`
  behind : r ∈ t.phase.waiting → Before p r t.phase.waiting
  free : (∀ slug rest, t.phase ≠ .found p slug rest ∧ t.phase ≠ .found r slug rest) ∧
    ∀ rest, t.phase ≠ .clearing p rest ∧ t.phase ≠ .clearing r rest

structure Stays (p r : PendingSupportbundleRow) (s : State) : Prop where
  sent : Sent.Inv s
  before : Before p r s.pending.rows
  cluster : p.clusterId = r.clusterId
  gone : s.apps.get p.appId = none
  unsent : ¬ Emitted s r
  each : ∀ t ∈ s.ticks, Each p r t

variable {s s' : State} {t t' : Tick} {p r : PendingSupportbundleRow}

theorem each_of_waiting_nil (hphase : t.phase = .sockets ∨ t.phase = .ended) : Each p r t := by
  rcases hphase with hphase | hphase <;>
    exact ⟨fun hr => (by rw [hphase] at hr; cases hr),
      fun slug rest => ⟨fun heq => (by cases hphase.symm.trans heq),
        fun heq => (by cases hphase.symm.trans heq)⟩,
      fun rest => ⟨fun heq => (by cases hphase.symm.trans heq),
        fun heq => (by cases hphase.symm.trans heq)⟩⟩

theorem stays (h : Blocked p r s) (hsent : Sent.Inv s) : Stays p r s := by
  refine ⟨hsent, h.before, h.cluster, h.gone, h.unsent, fun t ht => ?_⟩
  obtain ⟨hp, hr⟩ := h.unseen t ht
  refine ⟨fun hmem => absurd (t.phase.waiting_sublist.subset hmem) hr, ?_, ?_⟩
  · refine fun slug rest => ⟨fun heq => ?_, fun heq => ?_⟩
    · rw [heq] at hp
      exact hp List.mem_cons_self
    · rw [heq] at hr
      exact hr List.mem_cons_self
  · refine fun rest => ⟨fun heq => ?_, fun heq => ?_⟩
    · rw [heq] at hp
      exact hp List.mem_cons_self
    · rw [heq] at hr
      exact hr List.mem_cons_self

/-- A tick gets neither to `p` nor past it. -/
theorem Stays.each_next (h : Stays p r s) (ht : t ∈ s.ticks) (hnext : Next s t s' t') :
    Each p r t' := by
  have heach := h.each t ht
  cases hnext with
  | ended => exact each_of_waiting_nil (.inr rfl)
  | next => exact each_of_waiting_nil (.inl rfl)
  | getApp row slug rest hphase happ =>
    obtain ⟨hbehind, -⟩ := heach
    rw [hphase] at hbehind
    have hne : row ≠ p := by
      rintro rfl
      cases h.gone.symm.trans happ
    obtain ⟨i, hi⟩ := List.mem_iff_getElem?.mp ht
    have hnodup := (h.sent.each i t hi).nodup
    rw [hphase] at hnodup
    have hner : row ≠ r := by
      rintro rfl
      -- `r` is behind `p`, so it is not the first one
      exact (List.nodup_cons.mp hnodup).1 ((hbehind List.mem_cons_self).tail hne).mem
    refine ⟨hbehind, fun slug' rest' => ⟨fun heq => ?_, fun heq => ?_⟩,
      fun rest => ⟨fun heq => (by cases heq), fun heq => (by cases heq)⟩⟩
    · cases heq
      exact hne rfl
    · cases heq
      exact hner rfl
  | emit row slug rest hphase =>
    obtain ⟨hbehind, hfree, -⟩ := heach
    rw [hphase] at hbehind hfree
    have hne : row ≠ p := fun heq => (hfree slug rest).1 (by rw [heq])
    have hner : row ≠ r := fun heq => (hfree slug rest).2 (by rw [heq])
    refine ⟨fun hr => (hbehind (List.mem_cons_of_mem _ hr)).tail hne,
      fun slug rest => ⟨fun heq => (by cases heq), fun heq => (by cases heq)⟩,
      fun rest => ⟨fun heq => ?_, fun heq => ?_⟩⟩
    · cases heq
      exact hne rfl
    · cases heq
      exact hner rfl
  | clear row rest hphase =>
    obtain ⟨hbehind, -⟩ := heach
    rw [hphase] at hbehind
    exact ⟨hbehind, fun slug rest => ⟨fun heq => (by cases heq), fun heq => (by cases heq)⟩,
      fun rest => ⟨fun heq => (by cases heq), fun heq => (by cases heq)⟩⟩

theorem Stays.setTick (h : Stays p r s) {i : Nat} (hsent : Sent.Inv (s'.setTick i t'))
    (hbefore : Before p r s'.pending.rows) (happs : s'.apps = s.apps) (hunsent : ¬ Emitted s' r)
    (hticks : s'.ticks = s.ticks) (heach : Each p r t') : Stays p r (s'.setTick i t') := by
  refine ⟨hsent, hbefore, h.cluster, ?_, hunsent, ?_⟩
  · show s'.apps.get p.appId = none
    rw [happs]
    exact h.gone
  · intro t ht
    change t ∈ s'.ticks.set i t' at ht
    rw [hticks] at ht
    rcases List.mem_or_eq_of_mem_set ht with ht | rfl
    · exact h.each t ht
    · exact heach

theorem Stays.step (h : Stays p r s) {a : Action} (ha : StaysGone p r s a) (hstep : Steps s a s') :
    Stays p r s' := by
  have hsent := h.sent.step ha.1 hstep
  cases hstep with
  | apps a apps happs =>
    refine ⟨hsent, h.before, h.cluster, ?_, h.unsent, h.each⟩
    rcases happs with ⟨id, slug, rfl, rfl⟩ | ⟨id, rfl, rfl⟩
    · dsimp only
      rw [Dictionary.get_set, if_neg ha.2]
      exact h.gone
    · dsimp only
      by_cases hid : p.appId = id
      · rw [hid]
        exact Dictionary.get_remove
      · rw [Dictionary.get_remove_ne hid]
        exact h.gone
  | servers a servers => exact ⟨hsent, h.before, h.cluster, h.gone, h.unsent, h.each⟩
  | queue row pending hrows =>
    refine ⟨hsent, ?_, h.cluster, h.gone, h.unsent, h.each⟩
    dsimp only
    rw [hrows]
    exact h.before.concat
  | tick server array =>
    refine ⟨hsent, h.before, h.cluster, h.gone, h.unsent, ?_⟩
    intro t ht
    rcases List.mem_append.mp ht with ht | ht
    · exact h.each t ht
    · rw [List.mem_singleton.mp ht]
      exact each_of_waiting_nil (.inl rfl)
  | list i t socket rows ht hphase hrows =>
    refine h.setTick hsent h.before rfl h.unsent rfl ⟨fun hr => ?_,
      fun slug rest => ⟨fun heq => (by cases heq), fun heq => (by cases heq)⟩,
      fun rest => ⟨fun heq => (by cases heq), fun heq => (by cases heq)⟩⟩
    -- both are of the cluster
    have hcluster := (List.mem_filter.mp (hrows.mem_iff.mp hr)).2
    refine ha.2 hr (hrows.mem_iff.mpr (List.mem_filter.mpr ⟨h.before.mem_left, ?_⟩))
    rw [h.cluster]
    exact hcluster
  | fail i t ht =>
    exact h.setTick hsent h.before rfl h.unsent rfl (each_of_waiting_nil (.inr rfl))
  | run i t t' u ht hnext =>
    have hmem := List.mem_of_getElem? ht
    have heach := h.each_next hmem hnext
    have hold := h.each t hmem
    cases hnext with
    | ended | next | getApp => exact h.setTick hsent h.before rfl h.unsent rfl heach
    | emit row slug rest hphase =>
      refine h.setTick hsent h.before rfl ?_ rfl heach
      rintro ⟨e, he, heq⟩
      rcases List.mem_append.mp he with he | he
      · exact h.unsent ⟨e, he, heq⟩
      · rw [List.mem_singleton.mp he] at heq
        obtain ⟨hfree, -⟩ := hold.free
        exact (hfree slug rest).2 (by rw [hphase]; exact congrArg (Phase.found · slug rest) heq)
    | clear row rest hphase =>
      have hqueued : row ∈ s.queued :=
        (h.sent.each i t ht).queued (by rw [hphase]; exact List.mem_cons_self)
      have hkept : ∀ other ∈ s.pending.rows, (other = p ∨ other = r) →
          (!decide (other.id = row.id)) = true := by
        intro other hother hor
        rw [Bool.not_eq_true', decide_eq_false_iff_not]
        intro hid
        obtain rfl := h.sent.good.eq_of_id (h.sent.good.queued hother) hqueued hid
        rcases hor with rfl | rfl
        · exact (hold.free.2 rest).1 hphase
        · exact (hold.free.2 rest).2 hphase
      refine h.setTick hsent ?_ rfl h.unsent rfl heach
      exact h.before.filter (hkept p h.before.mem_left (.inl rfl)) (hkept r h.before.mem (.inr rfl))

end Blocked

/-! ## Examples of runs -/

def firstRow : PendingSupportbundleRow := { id := "1", appId := "a", clusterId := "c" }

def secondRow : PendingSupportbundleRow := { id := "2", appId := "b", clusterId := "c" }

/-- Two ticks list the row before one of them deletes it. -/
def overlap : List Action :=
  [.createApp "a" "a", .queue firstRow, .startServer,
    .onConnection 0 { clusterId := "c", socketId := "s" } true, .tick 0, .tick 0, .list 0 [firstRow],
    .list 1 [firstRow], .step 0, .step 1, .step 0, .step 1]

/-- The operator disconnects after the row was listed. -/
def disconnected : List Action :=
  [.createApp "a" "a", .queue firstRow, .startServer,
    .onConnection 0 { clusterId := "c", socketId := "s" } true, .tick 0, .list 0 [firstRow], .step 0,
    .onDisconnect 0 "s", .step 0, .step 0]

/-- The app is deleted while its support bundle is pending. -/
def deletedApp : List Action :=
  [.createApp "a" "a", .createApp "b" "b", .queue firstRow, .queue secondRow, .deleteApp "a"]

theorem reachable_run {s : State} {as : List Action} (hrun : loop.guardedRun Fresh {} as = some s) :
    loop.Reachable Init Fresh s := by
  have hinit : loop.Reachable Init Fresh {} := .init rfl
  exact hinit.guardedRun as hrun

theorem overlap_reachable :
    ∃ s, loop.Reachable Init Fresh s ∧ ¬ (s.emitted.map Emission.row).Nodup := by
  have hend : (loop.guardedRun Fresh {} overlap).map (fun s => s.emitted.map Emission.row) =
      some [firstRow, firstRow] := by decide
  obtain ⟨s, hrun, hs⟩ := Option.map_eq_some_iff.mp hend
  refine ⟨s, reachable_run hrun, ?_⟩
  rw [hs]
  decide

theorem disconnected_reachable : ∃ s, loop.Reachable Init Fresh s ∧
    ∃ row ∈ s.queued, row ∉ s.pending.rows ∧ ∀ e ∈ s.emitted, e.row = row → e.recipients = [] := by
  have hend : (loop.guardedRun Fresh {} disconnected).map (fun s =>
      (s.queued, s.pending.rows, s.emitted.all fun e => e.recipients = [])) =
      some ([firstRow], [], true) := by decide
  obtain ⟨s, hrun, hs⟩ := Option.map_eq_some_iff.mp hend
  simp only [Prod.mk.injEq] at hs
  obtain ⟨hqueued, hpending, hemitted⟩ := hs
  refine ⟨s, reachable_run hrun, firstRow, ?_, ?_, ?_⟩
  · rw [hqueued]
    exact List.mem_singleton_self _
  · rw [hpending]
    exact List.not_mem_nil
  · exact fun e he _ => of_decide_eq_true (List.all_eq_true.mp hemitted e he)

theorem blocked_reachable :
    ∃ s, loop.Reachable Init Fresh s ∧ ∃ p r, Blocked p r s := by
  have hend : (loop.guardedRun Fresh {} deletedApp).map (fun s =>
      (s.pending.rows, s.apps.get "a", s.emitted.map Emission.row, s.ticks.length)) =
      some ([firstRow, secondRow], none, [], 0) := by decide
  obtain ⟨s, hrun, hs⟩ := Option.map_eq_some_iff.mp hend
  simp only [Prod.mk.injEq] at hs
  obtain ⟨hpending, hgone, hemitted, hticks⟩ := hs
  refine ⟨s, reachable_run hrun, firstRow, secondRow,
    ⟨[], [secondRow], hpending, List.mem_singleton_self _⟩, rfl, hgone, ?_, ?_⟩
  · rintro ⟨e, he, -⟩
    rw [List.map_eq_nil_iff.mp hemitted] at he
    cases he
  · intro t ht
    rw [List.length_eq_zero_iff.mp hticks] at ht
    cases ht

end Kotsadm.SupportBundleLoop
