import Kotsadm.Api.ServerStart
import Kotsadm.Lib.Processes
import Kotsadm.Lib.Refinement
import Kotsadm.Store.SlugLoop

/-!
# LocalCluster — servers that start at the same time

The index on the token lets one of them create the cluster, and the others find it or fail.  A server
looks for the title as well, so it does not start any more once the cluster was renamed.
-/

namespace Kotsadm.ServerStart

/-! ## The database -/

namespace Cluster

theorem conflicts_eq_false {id token : String} {c : Cluster} :
    c.conflicts id token = false ↔ c.id ≠ id ∧ c.token ≠ token := by
  unfold conflicts
  rw [Bool.or_eq_false_iff, decide_eq_false_iff_not, decide_eq_false_iff_not]

end Cluster

namespace Database

structure Good (s : State) : Prop where
  tokens : (s.clusters.map Cluster.token).Nodup
  ids : (s.clusters.map Cluster.id).Nodup
  user : ∀ user, s.localUser = some user → user.userId ∈ s.shipUsers
  password : s.localUser.map LocalUser.passwordBcrypt = s.provisioned.getLast?

def Each (s : State) (x : Start) : Prop :=
  match x.phase with
  | .inserted row => row.token = x.token ∧ row.Local ∧
      ∀ c ∈ s.clusters, c.id ≠ row.id ∧ c.token ≠ row.token
  | .selected true => s.localUser.isSome = true
  | .written newUser userId => s.localUser = none → newUser = some userId
  | _ => True

/-- Neither of two transactions is in the way of the other. -/
structure Apart (x y : Start) : Prop where
  insert : ∀ row row', x.phase = .inserted row → y.phase = .inserted row' →
    row.id ≠ row'.id ∧ row.token ≠ row'.token
  upsert : x.blocksUpsert = true → y.blocksUpsert = false

def Inv (s : State) : Prop := Processes.Inv Good Each Apart s s.starts

variable {s t : State} {x x' y : Start}

theorem Apart.symm (h : Apart x y) : Apart y x where
  insert := by
    intro row row' hrow hrow'
    obtain ⟨hid, htoken⟩ := h.insert row' row hrow' hrow
    exact ⟨hid.symm, htoken.symm⟩
  upsert := by
    intro hy
    rw [← Bool.not_eq_true]
    intro hx
    cases hy.symm.trans (h.upsert hx)

/-- No transaction is open. -/
def Start.Quiet (x : Start) : Prop := (∀ row, x.phase ≠ .inserted row) ∧ x.blocksUpsert = false

theorem Start.Quiet.apart (h : Start.Quiet x) : Apart x y where
  insert := fun row _ hrow => absurd hrow (h.1 row)
  upsert := fun hx => by cases hx.symm.trans h.2

theorem eq_of_token (h : Good s) {c c' : Cluster} (hc : c ∈ s.clusters) (hc' : c' ∈ s.clusters)
    (htoken : c.token = c'.token) : c = c' := List.inj_on_of_nodup_map h.tokens hc hc' htoken

/-- The rows with their ids and tokens are among those before, and there still is a local user. -/
structure Keeps (s t : State) : Prop where
  clusters : ∀ c ∈ t.clusters, ∃ c' ∈ s.clusters, c'.id = c.id ∧ c'.token = c.token
  localUser : t.localUser = s.localUser

theorem Keeps.each (h : Keeps s t) (hx : Each s x) : Each t x := by
  unfold Each at hx ⊢
  split
  next row hphase =>
    rw [hphase] at hx
    refine ⟨hx.1, hx.2.1, fun c hc => ?_⟩
    obtain ⟨c', hc', hid, htoken⟩ := h.clusters c hc
    rw [← hid, ← htoken]
    exact hx.2.2 c' hc'
  next hphase =>
    rw [hphase] at hx
    rw [h.localUser]
    exact hx
  next hphase =>
    rw [hphase] at hx
    rw [h.localUser]
    exact hx
  next => trivial

theorem Inv.setStart (h : Inv s) {i : Nat} (hx : s.starts[i]? = some x) (hgood : Good t)
    (hstarts : t.starts = s.starts) (heach : Each t x')
    (hother : ∀ y ∈ s.starts, Each s y → Apart x y → Each t y ∧ Apart x' y) :
    Inv (t.setStart i x') := by
  unfold Inv State.setStart
  dsimp only
  rw [hstarts]
  have hset : Keeps t { t with starts := s.starts.set i x' } := ⟨fun c hc => ⟨c, hc, rfl, rfl⟩, rfl⟩
  refine Processes.Inv.set h (fun _ _ => Apart.symm) hx
    ⟨hgood.tokens, hgood.ids, hgood.user, hgood.password⟩ (hset.each heach) fun y hy heachY hapart => ?_
  obtain ⟨heachY', hapart'⟩ := hother y hy heachY hapart
  exact ⟨hset.each heachY', hapart'⟩

/-- A step that leaves the database as it is and opens no transaction. -/
theorem Inv.keep (h : Inv s) {i : Nat} (hx : s.starts[i]? = some x) (heach : Each s x')
    (hquiet : Start.Quiet x') : Inv (s.setStart i x') :=
  h.setStart hx h.good rfl heach fun _ _ hy _ => ⟨hy, hquiet.apart⟩

theorem Inv.next (h : Inv s) {i : Nat} (hx : s.starts[i]? = some x) (hnext : Next s x t x') :
    Inv (t.setStart i x') := by
  have hgood := h.good
  have heach := h.each i x hx
  unfold Each at heach
  cases hnext with
  | look | create | get | skip | fail =>
    exact h.keep hx trivial ⟨fun row heq => (by cases heq), rfl⟩
  | slug k phase hphase hnext =>
    rcases hnext with rfl | rfl <;>
      exact h.keep hx trivial ⟨fun row heq => (by cases heq), rfl⟩
  | select hphase =>
    refine h.keep hx ?_ ⟨fun row heq => (by cases heq), rfl⟩
    unfold Each
    cases s.localUser.isSome with
    | true => rfl
    | false => trivial
  | insert id slug hphase hblocked hfree =>
    refine h.setStart hx hgood rfl ⟨rfl, ⟨rfl, rfl⟩, fun c hc => ?_⟩ fun y hy heachY _ => ⟨heachY, ?_⟩
    · exact Cluster.conflicts_eq_false.mp (hfree c hc)
    · refine ⟨fun row row' hrow hrow' => ?_, fun hblocks => (by cases hblocks)⟩
      cases hrow
      have hblocks := hblocked y hy
      unfold Start.blocksInsert at hblocks
      rw [hrow'] at hblocks
      obtain ⟨hid, htoken⟩ := Cluster.conflicts_eq_false.mp hblocks
      exact ⟨hid.symm, htoken.symm⟩
  | commit row hphase =>
    rw [hphase] at heach
    obtain ⟨-, -, hnew⟩ := heach
    refine h.setStart hx ⟨?_, ?_, hgood.user, hgood.password⟩ rfl trivial
      fun y hy heachY hapart => ⟨?_, Start.Quiet.apart ⟨fun row heq => (by cases heq), rfl⟩⟩
    · dsimp only
      rw [List.map_append, List.map_singleton, ← List.concat_eq_append]
      refine hgood.tokens.concat fun hmem => ?_
      obtain ⟨c, hc, heq⟩ := List.mem_map.mp hmem
      exact (hnew c hc).2 heq
    · dsimp only
      rw [List.map_append, List.map_singleton, ← List.concat_eq_append]
      refine hgood.ids.concat fun hmem => ?_
      obtain ⟨c, hc, heq⟩ := List.mem_map.mp hmem
      exact (hnew c hc).1 heq
    · unfold Each at heachY ⊢
      split
      next row' hphase' =>
        rw [hphase'] at heachY
        refine ⟨heachY.1, heachY.2.1, fun c hc => ?_⟩
        rcases List.mem_append.mp hc with hc | hc
        · exact heachY.2.2 c hc
        · rw [List.mem_singleton.mp hc]
          exact hapart.insert row row' hphase hphase'
      next hphase' =>
        rw [hphase'] at heachY
        exact heachY
      next hphase' =>
        rw [hphase'] at heachY
        exact heachY
      next => trivial
  | upsert found id hphase hblocked =>
    rw [hphase] at heach
    refine h.setStart hx hgood rfl ?_ fun y hy heachY _ => ⟨heachY, ?_⟩
    · intro hnone
      cases found with
      | true =>
        rw [hnone] at heach
        cases heach
      | false => rfl
    · exact ⟨fun row _ heq => (by cases heq), fun _ => hblocked y hy⟩
  | commitUser newUser userId hphase =>
    rw [hphase] at heach
    have hblocks : x.blocksUpsert = true := by
      unfold Start.blocksUpsert
      rw [hphase]
    refine h.setStart hx ⟨hgood.tokens, hgood.ids, ?_, ?_⟩ rfl trivial
      fun y hy heachY hapart => ⟨?_, Start.Quiet.apart ⟨fun row heq => (by cases heq), rfl⟩⟩
    · intro user huser
      unfold State.commitUser at huser ⊢
      dsimp only at huser ⊢
      split at huser
      next old hold =>
        cases huser
        exact List.mem_append_left _ (hgood.user old hold)
      next hnone =>
        cases huser
        rw [heach hnone]
        exact List.mem_append_right _ (List.mem_singleton_self _)
    · unfold State.commitUser
      dsimp only
      rw [List.getLast?_append, List.getLast?_singleton, Option.some_or]
      split <;> rfl
    · have hnot := hapart.upsert hblocks
      unfold Each at heachY ⊢
      split
      next row' hphase' =>
        rw [hphase'] at heachY
        exact heachY
      next =>
        unfold State.commitUser
        dsimp only
        split <;> rfl
      next hphase' =>
        unfold Start.blocksUpsert at hnot
        rw [hphase'] at hnot
        cases hnot
      next => trivial

theorem Inv.step (h : Inv s) {a : Action} (hstep : Steps s a t) : Inv t := by
  have hgood := h.good
  cases hstep with
  | begin token password =>
    have hnew : Each s { token := token, sharedPasswordBcrypt := password } := trivial
    have hconcat := Processes.Inv.concat h (fun _ _ => Apart.symm) hnew fun y _ _ =>
      Start.Quiet.apart ⟨fun row heq => (by cases heq), rfl⟩
    have hkeeps : Keeps s { s with
        starts := s.starts ++ [{ token := token, sharedPasswordBcrypt := password }] } :=
      ⟨fun c hc => ⟨c, hc, rfl, rfl⟩, rfl⟩
    exact Processes.Inv.share hconcat ⟨hgood.tokens, hgood.ids, hgood.user, hgood.password⟩
      fun _ _ hy => hkeeps.each hy
  | run a i x x' t hx hnext => exact h.next hx hnext
  | update clusterId clusterName slug =>
    have hrow : ∀ c : Cluster,
        (if c.id = clusterId then { c with title := clusterName, slug := slug } else c).id = c.id ∧
        (if c.id = clusterId then { c with title := clusterName, slug := slug } else c).token =
          c.token := by
      intro c
      split <;> exact ⟨rfl, rfl⟩
    have hkeeps : Keeps s { s with
        clusters := s.clusters.map fun c =>
          if c.id = clusterId then { c with title := clusterName, slug := slug } else c } := by
      refine ⟨fun c hc => ?_, rfl⟩
      obtain ⟨c', hc', rfl⟩ := List.mem_map.mp hc
      exact ⟨c', hc', (hrow c').1.symm, (hrow c').2.symm⟩
    refine Processes.Inv.share h ⟨?_, ?_, hgood.user, hgood.password⟩ fun _ _ hy => hkeeps.each hy
    · dsimp only
      rw [List.map_map]
      exact (List.map_congr_left fun c _ => (hrow c).2) ▸ hgood.tokens
    · dsimp only
      rw [List.map_map]
      exact (List.map_congr_left fun c _ => (hrow c).1) ▸ hgood.ids
  | delete clusterId =>
    have hkeeps : Keeps s { s with
        clusters := s.clusters.filter fun c => decide (c.id ≠ clusterId) } :=
      ⟨fun c hc => ⟨c, (List.mem_filter.mp hc).1, rfl, rfl⟩, rfl⟩
    exact Processes.Inv.share h
      ⟨hgood.tokens.sublist (List.filter_sublist.map _), hgood.ids.sublist (List.filter_sublist.map _),
        hgood.user, hgood.password⟩ fun _ _ hy => hkeeps.each hy

theorem inv_init : Inv {} :=
  Processes.inv_nil
    { tokens := List.nodup_nil
      ids := List.nodup_nil
      user := fun _ h => (by cases h)
      password := rfl }

end Database

theorem everyState_database : servers.EveryState Init Machine.Free Database.Inv :=
  Machine.everyState_of_inv (fun _ hs => hs ▸ Database.inv_init) fun _ _ _ h _ hstep =>
    h.step (State.steps_of_step hstep)

/-! ## Servers that agree -/

/-- Nobody renames or deletes a cluster. -/
def NoEdit (_ : State) : Action → Prop
  | .updateCluster .. | .deleteCluster _ => False
  | _ => True

namespace Agreed

/-- The cluster of the token, with this id. -/
def Has (s : State) (token id : String) : Prop :=
  ∃ c ∈ s.clusters, c.id = id ∧ c.token = token ∧ c.Local

def Phase.late : Phase → Bool
  | .provisioning | .selected _ | .written .. | .started => true
  | _ => false

structure Each (s : State) (x : Start) : Prop where
  getting : ∀ id, x.phase = .getting id → Has s x.token id
  got : ∀ id, x.clusterId = some id → Has s x.token id
  late : Phase.late x.phase = true → x.clusterId.isSome = true

variable {s t : State} {x x' : Start}

theorem Each.grows (h : Each s x) (hclusters : s.clusters ⊆ t.clusters) : Each t x := by
  have hhas : ∀ id, Has s x.token id → Has t x.token id := by
    rintro id ⟨c, hc, hrest⟩
    exact ⟨c, hclusters hc, hrest⟩
  exact ⟨fun id hid => hhas id (h.getting id hid), fun id hid => hhas id (h.got id hid), h.late⟩

theorem Each.next (h : Each s x) (hdatabase : Database.Each s x) (hnext : Next s x t x') :
    Each t x' ∧ s.clusters ⊆ t.clusters := by
  have hsame := List.Subset.refl s.clusters
  have hlate : ∀ phase, x.phase = phase → Phase.late phase = true → x.clusterId.isSome = true :=
    fun phase hphase hlate => h.late (by rw [hphase]; exact hlate)
  cases hnext with
  | look c hphase hfound =>
    refine ⟨⟨fun id heq => ?_, h.got, fun hlate => by cases hlate⟩, hsame⟩
    cases heq
    have hc := List.find?_some hfound
    rw [decide_eq_true_eq] at hc
    exact ⟨c, List.mem_of_find?_eq_some hfound, rfl, hc.2, hc.1⟩
  | create | insert | fail =>
    exact ⟨⟨fun id heq => (by cases heq), h.got, fun hlate => by cases hlate⟩, hsame⟩
  | slug k phase hphase hnext =>
    rcases hnext with rfl | rfl <;>
      exact ⟨⟨fun id heq => (by cases heq), h.got, fun hlate => by cases hlate⟩, hsame⟩
  | commit row hphase =>
    unfold Database.Each at hdatabase
    rw [hphase] at hdatabase
    have hgrows : s.clusters ⊆ s.clusters ++ [row] := List.subset_append_left _ _
    refine ⟨⟨fun id heq => ?_, ?_, fun hlate => by cases hlate⟩, hgrows⟩
    · cases heq
      exact ⟨row, List.mem_append_right _ (List.mem_singleton_self _), rfl, hdatabase.1,
        hdatabase.2.1⟩
    · exact (h.grows (t := { s with clusters := s.clusters ++ [row] }) hgrows).got
  | get c id hphase hmem hid =>
    refine ⟨⟨fun id heq => (by cases heq), fun id' heq => ?_, fun _ => rfl⟩, hsame⟩
    cases heq
    exact h.getting id hphase
  | select hphase =>
    exact ⟨⟨fun id heq => (by cases heq), h.got, fun _ => hlate _ hphase rfl⟩, hsame⟩
  | skip hphase =>
    exact ⟨⟨fun id heq => (by cases heq), h.got, fun _ => hlate _ hphase rfl⟩, hsame⟩
  | upsert found id hphase =>
    exact ⟨⟨fun id heq => (by cases heq), h.got, fun _ => hlate _ hphase rfl⟩, hsame⟩
  | commitUser newUser userId hphase =>
    exact ⟨⟨fun id heq => (by cases heq), h.got, fun _ => hlate _ hphase rfl⟩, hsame⟩

theorem each_step (h : ∀ x ∈ s.starts, Each s x) (hdatabase : Database.Inv s) {a : Action}
    (ha : NoEdit s a) (hstep : Steps s a t) : ∀ x ∈ t.starts, Each t x := by
  cases hstep with
  | begin token password =>
    intro x hx
    rcases List.mem_append.mp hx with hx | hx
    · exact (h x hx).grows (List.Subset.refl _)
    · rw [List.mem_singleton.mp hx]
      exact ⟨fun id heq => (by cases heq), fun id heq => (by cases heq), fun hlate => by cases hlate⟩
  | run a i x x' u hx hnext =>
    obtain ⟨hnew, hgrows⟩ := (h x (List.mem_of_getElem? hx)).next (hdatabase.each i x hx) hnext
    have hstarts : u.starts = s.starts := by cases hnext <;> rfl
    intro y hy
    change y ∈ u.starts.set i x' at hy
    rw [hstarts] at hy
    rcases List.mem_or_eq_of_mem_set hy with hy | rfl
    · exact (h y hy).grows hgrows
    · exact hnew.grows (List.Subset.refl _)
  | update => exact ha.elim
  | delete => exact ha.elim

end Agreed

theorem everyState_agreed :
    servers.EveryState Init NoEdit fun s => Database.Inv s ∧ ∀ x ∈ s.starts, Agreed.Each s x := by
  refine Machine.everyState_of_inv (fun s hs => ?_) (fun s a s' h ha hstep => ?_)
  · rw [hs]
    exact ⟨Database.inv_init, fun x hx => by cases hx⟩
  · have hsteps := State.steps_of_step hstep
    exact ⟨h.1.step hsteps, Agreed.each_step h.2 h.1 ha hsteps⟩

/-! ## A cluster that was renamed -/

/-- The cluster with the token is not what a server looks for. -/
def Renamed (s : State) (token : String) : Prop := ∃ c ∈ s.clusters, c.token = token ∧ ¬ c.Local

/-- It is neither named back nor deleted. -/
def StaysRenamed (token : String) (s : State) : Action → Prop
  | .updateCluster clusterId clusterName _ =>
    ∀ c ∈ s.clusters, c.token = token → c.id = clusterId → clusterName ≠ thisCluster
  | .deleteCluster clusterId => ∀ c ∈ s.clusters, c.token = token → c.id ≠ clusterId
  | _ => True

namespace Renamed

def Phase.early : Phase → Bool
  | .looking | .slugging _ | .creating _ | .failed => true
  | _ => false

/-- The servers from the number `n` on do not get past the insert. -/
def Stuck (n : Nat) (token : String) (s : State) : Prop :=
  ∀ i x, n ≤ i → s.starts[i]? = some x → x.token = token → Phase.early x.phase = true

variable {s t : State} {token : String} {n : Nat}

theorem step (h : Renamed s token) (hstuck : Stuck n token s) (hinv : Database.Inv s) {a : Action}
    (ha : StaysRenamed token s a) (hstep : Steps s a t) : Renamed t token ∧ Stuck n token t := by
  obtain ⟨c, hc, htoken, hnot⟩ := h
  cases hstep with
  | begin token' password =>
    refine ⟨⟨c, hc, htoken, hnot⟩, fun i x hi hx hxtoken => ?_⟩
    rcases Processes.getElem?_concat_cases hx with ⟨-, rfl⟩ | ⟨-, hold⟩
    · rfl
    · exact hstuck i x hi hold hxtoken
  | update clusterId clusterName slug =>
    refine ⟨⟨_, List.mem_map_of_mem hc, ?_, ?_⟩, hstuck⟩
    · split
      · exact htoken
      · exact htoken
    · split
      next hid => exact fun hlocal => ha c hc htoken hid hlocal.2
      next => exact hnot
  | delete clusterId =>
    exact ⟨⟨c, List.mem_filter.mpr ⟨hc, decide_eq_true (ha c hc htoken)⟩, htoken, hnot⟩, hstuck⟩
  | run a i x x' u hx hnext =>
    have hstarts : u.starts = s.starts := by cases hnext <;> rfl
    have hclusters : c ∈ u.clusters := by
      cases hnext with
      | commit => exact List.mem_append_left _ hc
      | _ => exact hc
    refine ⟨⟨c, hclusters, htoken, hnot⟩, fun j y hj hy hytoken => ?_⟩
    change (u.starts.set i x')[j]? = some y at hy
    rw [hstarts] at hy
    rcases Processes.getElem?_set_cases hy with ⟨rfl, rfl⟩ | ⟨-, hold⟩
    · have hxtoken : x.token = token := by
        cases hnext <;> exact hytoken
      have hearly := hstuck j x hj hx hxtoken
      cases hnext with
      | look c' hphase hfound =>
        have hc' := List.find?_some hfound
        rw [decide_eq_true_eq] at hc'
        obtain rfl := Database.eq_of_token hinv.good hc (List.mem_of_find?_eq_some hfound)
          (htoken.trans (hxtoken.symm.trans hc'.2.symm))
        exact absurd hc'.1 hnot
      | create | fail => rfl
      | slug k phase hphase hnext => rcases hnext with rfl | rfl <;> rfl
      | insert id slug hphase hblocked hfree =>
        obtain ⟨-, hne⟩ := Cluster.conflicts_eq_false.mp (hfree c hc)
        exact absurd (htoken.trans hxtoken.symm) hne
      | commit _ hphase | get _ _ hphase | select hphase | skip hphase | upsert _ _ hphase
      | commitUser _ _ hphase =>
        rw [hphase] at hearly
        cases hearly
    · exact hstuck j y hj hold hytoken

end Renamed

/-! ## A server that starts alone -/

/-- The steps of the server with this number. -/
def Only (n : Nat) (_ : State) : Action → Prop
  | .step i | .insert i _ | .upsert i _ => i = n
  | _ => False

/-- The state with one more server. -/
def State.and (s : State) (x : Start) : State := { s with starts := s.starts ++ [x] }

/-- The server gets from one state to the other by itself. -/
def Leads (n : Nat) (s s' : State) : Prop := servers.Reachable (· = s) (Only n) s'

theorem Leads.refl {n : Nat} {s : State} : Leads n s s := .init rfl

theorem Leads.trans {n : Nat} {s s' s'' : State} (h : Leads n s s') (h' : Leads n s' s'') :
    Leads n s s'' := Machine.Reachable.trans h h'

theorem Leads.single {n : Nat} {s s' : State} {a : Action} (ha : Only n s a)
    (hstep : servers.step s a = some s') : Leads n s s' := by
  have hinit : Leads n s s := .refl
  exact Machine.Reachable.step hinit ha hstep

namespace Lone

variable {s : State} {x : Start}

theorem starts_and : (s.and x).starts[s.starts.length]? = some x := List.getElem?_concat_length

theorem setStart_and (s : State) (x x' : Start) :
    (s.and x).setStart s.starts.length x' = s.and x' := by
  unfold State.and State.setStart
  dsimp only
  rw [List.set_append_right _ _ (Nat.le_refl _), Nat.sub_self]
  rfl

theorem step_and : servers.step (s.and x) (.step s.starts.length) =
    (s.and x).stepStart s.starts.length x := by
  show ((s.and x).starts[s.starts.length]?).bind _ = _
  rw [starts_and, Option.bind_some]

theorem leads_step {s' : State} (h : (s.and x).stepStart s.starts.length x = some s') :
    Leads s.starts.length (s.and x) s' :=
  .single (a := .step s.starts.length) rfl (step_and.trans h)

theorem setPhase_and (phase : Phase) : (s.and x).setPhase s.starts.length x phase =
    s.and { x with phase := phase } := setStart_and s x _

/-- The loop finds a slug. -/
theorem leads_slugging {k m : Nat} (hle : k ≤ m) (hfree : s.countSlug (slugProposal m) = 0) :
    ∃ slug, Leads s.starts.length (s.and { x with phase := .slugging k })
      (s.and { x with phase := .creating slug }) := by
  obtain ⟨d, rfl⟩ := Nat.exists_eq_add_of_le hle
  clear hle
  have hcount : ∀ (y : Start) (slug : String), (s.and y).countSlug slug = s.countSlug slug :=
    fun _ _ => rfl
  induction d generalizing k with
  | zero =>
    rw [Nat.add_zero] at hfree
    refine ⟨slugProposal k, leads_step ?_⟩
    unfold State.stepStart
    dsimp only
    rw [hcount, if_pos hfree, setPhase_and]
  | succ d ih =>
    by_cases hk : s.countSlug (slugProposal k) = 0
    · refine ⟨slugProposal k, leads_step ?_⟩
      unfold State.stepStart
      dsimp only
      rw [hcount, if_pos hk, setPhase_and]
    · have hnext : k + (d + 1) = k + 1 + d := by omega
      rw [hnext] at hfree
      obtain ⟨slug, hleads⟩ := ih hfree
      refine ⟨slug, Leads.trans (leads_step ?_) hleads⟩
      unfold State.stepStart
      dsimp only
      rw [hcount, if_neg hk, setPhase_and]

theorem slugProposal_inj {i j : Nat} (hi : 1 ≤ i) (hj : 1 ≤ j) (h : slugProposal i = slugProposal j) :
    i = j := by
  unfold slugProposal at h
  rw [if_pos (show i > 0 by omega), if_pos (show j > 0 by omega)] at h
  have htext : toString i = toString j := by
    rw [← String.toList_inj]
    have hlist := congrArg String.toList h
    simp only [String.toList_append] at hlist
    exact List.append_cancel_left hlist
  have hint : toString (i : Int) = toString (j : Int) := htext
  exact Int.ofNat_inj.mp (NumberText.toString_inj hint)

/-- A text that is not in the list, such as a slug or a random id. -/
theorem exists_proposal (xs : List String) : ∃ k, slugProposal k ∉ xs := by
  obtain ⟨k, -, -, hk⟩ := AppSlugs.exists_notMem (n := 1) (fun i j hi hj => slugProposal_inj hi hj) xs
  exact ⟨k, hk⟩

/-- The other servers have no transaction open. -/
def Idle (s : State) : Prop := ∀ x ∈ s.starts, Database.Start.Quiet x

theorem leads_started (hidle : Idle s) (hphase : x.phase = .provisioning) :
    ∃ s' x', Leads s.starts.length (s.and x) s' ∧ s'.starts[s.starts.length]? = some x' ∧
      x'.phase = .started := by
  cases hpassword : x.sharedPasswordBcrypt with
  | none =>
    refine ⟨s.and { x with phase := .started }, { x with phase := .started }, leads_step ?_,
      starts_and, rfl⟩
    unfold State.stepStart
    rw [hphase]
    dsimp only
    split
    next heq => cases hpassword.symm.trans heq
    next => rw [setPhase_and]
  | some password =>
    have hselect : Leads s.starts.length (s.and x)
        (s.and { x with phase := .selected s.localUser.isSome }) := by
      refine leads_step ?_
      unfold State.stepStart
      rw [hphase]
      dsimp only
      split
      next =>
        rw [setPhase_and]
        rfl
      next heq => cases hpassword.symm.trans heq
    have hupsert : ∀ found, Leads s.starts.length (s.and { x with phase := .selected found })
        (s.and { x with phase := .written (if found then none else some "id") "id" }) := by
      intro found
      refine .single (a := .upsert s.starts.length "id") rfl ?_
      show ((s.and _).starts[s.starts.length]?).bind _ = _
      rw [starts_and, Option.bind_some]
      unfold State.upsert
      dsimp only
      rw [if_neg, setPhase_and]
      rw [List.any_eq_true]
      rintro ⟨y, hy, hblocks⟩
      rcases List.mem_append.mp hy with hy | hy
      · cases hblocks.symm.trans (hidle y hy).2
      · rw [List.mem_singleton.mp hy] at hblocks
        cases hblocks
    have hcommit : ∀ newUser, Leads s.starts.length (s.and { x with phase := .written newUser "id" })
        ((s.commitUser newUser "id" (x.sharedPasswordBcrypt.getD "")).and
          { x with phase := .started }) := by
      intro newUser
      refine leads_step ?_
      unfold State.stepStart
      dsimp only
      exact congrArg some (setStart_and (s.commitUser newUser "id" (x.sharedPasswordBcrypt.getD "")) _ _)
    refine ⟨_, { x with phase := .started }, hselect.trans ((hupsert _).trans (hcommit _)), ?_, rfl⟩
    exact starts_and (s := s.commitUser _ "id" (x.sharedPasswordBcrypt.getD ""))

/-- The cluster that was found or created is read, and the rest follows. -/
theorem leads_getting (hidle : Idle s) {c : Cluster} (hc : c ∈ s.clusters) :
    ∃ s' x', Leads s.starts.length (s.and { x with phase := .getting c.id }) s' ∧
      s'.starts[s.starts.length]? = some x' ∧ x'.phase = .started := by
  have hfind : (s.clusters.find? fun c' => decide (c'.id = c.id)).isSome = true :=
    List.find?_isSome.mpr ⟨c, hc, decide_eq_true rfl⟩
  obtain ⟨c', hc'⟩ := Option.isSome_iff_exists.mp hfind
  obtain ⟨s', x', hleads, hx'⟩ :=
    leads_started (x := { x with clusterId := some c'.id, phase := .provisioning }) hidle rfl
  refine ⟨s', x', Leads.trans (leads_step ?_) hleads, hx'⟩
  unfold State.stepStart
  dsimp only
  rw [show (s.and { x with phase := .getting c.id }).clusters = s.clusters from rfl, hc']
  dsimp only
  rw [setStart_and]

/-- **A lone start.**  Where the token is free, or is that of a cluster with the right name. -/
theorem leads (hinv : Database.Inv s) (hidle : Idle s) (hphase : x.phase = .looking)
    (hlocal : ∀ c ∈ s.clusters, c.token = x.token → c.Local) :
    ∃ s' x', Leads s.starts.length (s.and x) s' ∧ s'.starts[s.starts.length]? = some x' ∧
      x'.phase = .started := by
  cases hfound : s.maybeGetCluster x.token with
  | some c =>
    obtain ⟨s', x', hleads, hx'⟩ := leads_getting (x := x) hidle (List.mem_of_find?_eq_some hfound)
    refine ⟨s', x', Leads.trans (leads_step ?_) hleads, hx'⟩
    unfold State.stepStart
    rw [hphase]
    dsimp only
    rw [show (s.and x).maybeGetCluster x.token = s.maybeGetCluster x.token from rfl, hfound]
    dsimp only
    rw [setPhase_and]
  | none =>
    -- nobody has the token, so the insert goes through
    have hfree : ∀ c ∈ s.clusters, c.token ≠ x.token := by
      intro c hc htoken
      have hnot := List.find?_eq_none.mp hfound c hc
      rw [decide_eq_true_eq] at hnot
      exact hnot ⟨hlocal c hc htoken, htoken⟩
    have hlook : Leads s.starts.length (s.and x) (s.and { x with phase := .slugging 0 }) := by
      refine leads_step ?_
      unfold State.stepStart
      rw [hphase]
      dsimp only
      rw [show (s.and x).maybeGetCluster x.token = s.maybeGetCluster x.token from rfl, hfound]
      dsimp only
      rw [setPhase_and]
    obtain ⟨m, hm⟩ := exists_proposal (s.clusters.map Cluster.slug)
    have hcount : s.countSlug (slugProposal m) = 0 := by
      unfold State.countSlug
      rw [List.countP_eq_zero]
      intro c hc heq
      exact hm (List.mem_map.mpr ⟨c, hc, of_decide_eq_true heq⟩)
    obtain ⟨slug, hslug⟩ := leads_slugging (x := x) (Nat.zero_le m) hcount
    obtain ⟨k, hk⟩ := exists_proposal (s.clusters.map Cluster.id)
    have hinsert : Leads s.starts.length (s.and { x with phase := .creating slug })
        (s.and { x with phase := .inserted (newShipCluster (slugProposal k) slug x.token) }) := by
      refine .single (a := .insert s.starts.length (slugProposal k)) rfl ?_
      show ((s.and _).starts[s.starts.length]?).bind _ = _
      rw [starts_and, Option.bind_some]
      unfold State.insert
      dsimp only
      rw [if_neg, if_neg, setPhase_and]
      · rw [List.any_eq_true]
        rintro ⟨c, hc, hconflicts⟩
        have hne := Cluster.conflicts_eq_false.mpr
          ⟨fun heq => hk (List.mem_map.mpr ⟨c, hc, heq⟩), hfree c hc⟩
        cases hconflicts.symm.trans hne
      · rw [List.any_eq_true]
        rintro ⟨y, hy, hblocks⟩
        unfold Start.blocksInsert at hblocks
        split at hblocks
        next row hrow =>
          rcases List.mem_append.mp hy with hy | hy
          · exact (hidle y hy).1 row hrow
          · rw [List.mem_singleton.mp hy] at hrow
            cases hrow
        next => cases hblocks
    have hcommit : ∀ row : Cluster, Leads s.starts.length (s.and { x with phase := .inserted row })
        (State.and { s with clusters := s.clusters ++ [row] } { x with phase := .getting row.id }) := by
      intro row
      refine leads_step ?_
      unfold State.stepStart
      dsimp only
      exact congrArg some (setStart_and { s with clusters := s.clusters ++ [row] } _ _)
    obtain ⟨s', x', hleads, hx'⟩ := leads_getting (x := x)
      (s := { s with clusters := s.clusters ++ [newShipCluster (slugProposal k) slug x.token] })
      hidle (List.mem_append_right _ (List.mem_singleton_self _))
    exact ⟨s', x', hlook.trans (hslug.trans (hinsert.trans ((hcommit _).trans hleads))), hx'⟩

end Lone

/-- **One cluster for a token.**  In any run of servers that start and fail, while clusters are edited,
no two clusters have one token, and the password of the local user is the one committed last.  Unless a
cluster is edited, servers that have started with one token have got one cluster, which is there.  A server
that starts alone succeeds when its token is free or that of a cluster with the right name, and no server
that begins after the cluster was renamed ever does. -/
theorem starts_agree :
    (servers.EveryState Init Machine.Free fun s =>
      (s.clusters.map Cluster.token).Nodup ∧ (∀ user, s.localUser = some user → user.userId ∈ s.shipUsers) ∧
      s.localUser.map LocalUser.passwordBcrypt = s.provisioned.getLast?) ∧
    (servers.EveryState Init NoEdit fun s =>
      (∀ x ∈ s.starts, x.phase = .started → ∃ c ∈ s.clusters, x.clusterId = some c.id ∧
        c.token = x.token ∧ c.Local) ∧
      ∀ x ∈ s.starts, ∀ y ∈ s.starts, x.phase = .started → y.phase = .started →
        x.token = y.token → x.clusterId = y.clusterId) ∧
    (∀ s, servers.Reachable Init Machine.Free s → Lone.Idle s → ∀ token password,
      (∀ c ∈ s.clusters, c.token = token → c.Local) →
      ∃ s' x, Leads s.starts.length
          (s.and { token := token, sharedPasswordBcrypt := password }) s' ∧
        s'.starts[s.starts.length]? = some x ∧ x.phase = .started) ∧
    ∀ s, servers.Reachable Init Machine.Free s → ∀ token, Renamed s token →
      servers.EveryState (· = s) (StaysRenamed token) fun s' =>
        ∀ i x, s.starts.length ≤ i → s'.starts[i]? = some x → x.token = token → x.phase ≠ .started := by
  refine ⟨fun s hs => ?_, fun s hs => ?_, fun s hs hidle token password hlocal => ?_,
    fun s hs token hrenamed s' hs' => ?_⟩
  · have hgood := (everyState_database s hs).good
    exact ⟨hgood.tokens, hgood.user, hgood.password⟩
  · obtain ⟨hdatabase, heach⟩ := everyState_agreed s hs
    have hcluster : ∀ x ∈ s.starts, x.phase = .started →
        ∃ c ∈ s.clusters, x.clusterId = some c.id ∧ c.token = x.token ∧ c.Local := by
      intro x hx hphase
      have hlate := (heach x hx).late (by rw [hphase]; rfl)
      obtain ⟨id, hid⟩ := Option.isSome_iff_exists.mp hlate
      obtain ⟨c, hc, rfl, hrest⟩ := (heach x hx).got id hid
      exact ⟨c, hc, hid, hrest⟩
    refine ⟨hcluster, fun x hx y hy hxphase hyphase htoken => ?_⟩
    obtain ⟨c, hc, hxid, hxtoken, -⟩ := hcluster x hx hxphase
    obtain ⟨c', hc', hyid, hytoken, -⟩ := hcluster y hy hyphase
    rw [hxid, hyid, Database.eq_of_token hdatabase.good hc hc' (by rw [hxtoken, hytoken, htoken])]
  · exact Lone.leads (everyState_database s hs) hidle rfl hlocal
  · have hstuck : Database.Inv s' ∧ Renamed s' token ∧ Renamed.Stuck s.starts.length token s' := by
      refine Machine.everyState_of_inv
        (I := fun t => Database.Inv t ∧ Renamed t token ∧ Renamed.Stuck s.starts.length token t)
        (fun t ht => ?_) (fun t a t' h ha hstep => ?_) s' hs'
      · rw [ht]
        refine ⟨everyState_database s hs, hrenamed, fun i x hi hx => ?_⟩
        have hlt := (List.getElem?_eq_some_iff.mp hx).1
        omega
      · have hsteps := State.steps_of_step hstep
        exact ⟨h.1.step hsteps, h.2.1.step h.2.2 h.1 ha hsteps⟩
    intro i x hi hx htoken hphase
    have hearly := hstuck.2.2 i x hi hx htoken
    rw [hphase] at hearly
    cases hearly

end Kotsadm.ServerStart
