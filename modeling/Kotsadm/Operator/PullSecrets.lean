import Kotsadm.Lib.Processes
import Kotsadm.Operator.ArrivalOrder
import Kotsadm.Operator.ImagePullSecrets

/-!
# PullSecrets — which namespaces get which pull secret

When the last deploy is over and the informers have nothing left to do, every watched namespace has
its secret.  That needs that nobody is in `AddFunc` while a deploy assigns the fields, which the code
does not see to.
-/

namespace Kotsadm.Operator.ImagePullSecrets

open Requests (Client DeployHandler DeployPhase DeployRequest)

/-! ## What a handler does to the fields -/

/-- The next step assigns a field that `AddFunc` reads. -/
def Assigns (phase : DeployPhase) : Prop := phase = .ensuring [] ∨ phase = .assigning

instance (phase : DeployPhase) : Decidable (Assigns phase) := inferInstanceAs (Decidable (_ ∨ _))

/-- Its informer was started. -/
def Deployed (phase : DeployPhase) : Prop := phase = .reporting .deployed ∨ phase = .done .deployed

instance (phase : DeployPhase) : Decidable (Deployed phase) := inferInstanceAs (Decidable (_ ∨ _))

section

variable {phase phase' : DeployPhase} {args : DeployRequest} {ok : Bool} {c c' : Client}

theorem next_fields (h : phase.next args ok c = some (c', phase')) (hassigns : ¬ Assigns phase) :
    c'.imagePullSecret = c.imagePullSecret ∧ c'.watchedNamespaces = c.watchedNamespaces := by
  unfold DeployPhase.next at h
  split at h
  next =>
    split at h <;> cases h <;> exact ⟨rfl, rfl⟩
  next =>
    cases h
    exact ⟨rfl, rfl⟩
  next =>
    cases h
    exact ⟨rfl, rfl⟩
  next => exact absurd (.inl rfl) hassigns
  next => exact absurd (.inr rfl) hassigns
  next =>
    cases h
    exact ⟨rfl, rfl⟩
  next =>
    cases h
    exact ⟨rfl, rfl⟩
  next =>
    split at h
    next =>
      cases h
      exact ⟨rfl, rfl⟩
    next =>
      split at h
      next =>
        cases h
        exact ⟨rfl, rfl⟩
      next => cases h
  next =>
    cases h
    exact ⟨rfl, rfl⟩
  next =>
    split at h <;> cases h <;> exact ⟨rfl, rfl⟩
  next =>
    cases h
    exact ⟨rfl, rfl⟩
  next =>
    cases h
    exact ⟨rfl, rfl⟩
  next => cases h

/-- The step that starts the informer, or the one after it. -/
theorem next_deployed (h : phase.next args ok c = some (c', phase')) (hdeployed : Deployed phase') :
    phase = .running ∨ phase = .reporting .deployed := by
  cases phase with
  | running => exact .inl rfl
  | reporting ending =>
    cases h
    rcases hdeployed with hphase | hphase
    · cases hphase
    · cases hphase
      exact .inr rfl
  | done ending => cases h
  | ensuring rest =>
    cases rest <;> cases h <;> rcases hdeployed with hphase | hphase <;> cases hphase
  | received =>
    unfold DeployPhase.next at h
    dsimp only at h
    split at h <;> cases h <;> rcases hdeployed with hphase | hphase <;> cases hphase
  | stopping =>
    unfold DeployPhase.next at h
    dsimp only at h
    split at h
    next =>
      cases h
      rcases hdeployed with hphase | hphase <;> cases hphase
    next =>
      split at h
      next =>
        cases h
        rcases hdeployed with hphase | hphase <;> cases hphase
      next => cases h
  | removing | applying | starting =>
    unfold DeployPhase.next at h
    dsimp only at h
    cases ok <;> cases h <;> rcases hdeployed with hphase | hphase <;> cases hphase
  | assigning | assigned | stopped =>
    cases h
    rcases hdeployed with hphase | hphase <;> cases hphase

end

/-! ## Runs -/

/-- A deploy message arrives when the earlier deploys are over. -/
def Sequential (s : State) : Action → Prop
  | .receiveDeploy _ => ∀ h ∈ s.deploys, h.phase.isDone = true
  | _ => True

instance (s : State) (a : Action) : Decidable (Sequential s a) :=
  match a with
  | .receiveDeploy _ => inferInstanceAs (Decidable (∀ h ∈ s.deploys, h.phase.isDone = true))
  | .createNamespace _ | .deleteNamespace _ | .deploy _ _ | .add _ | .informer _ | .fail _ =>
    .isTrue trivial

/-- Moreover nobody is in `AddFunc` when a deploy assigns a field, and no call fails. -/
def Undisturbed (s : State) (a : Action) : Prop :=
  Sequential s a ∧
    match a with
    | .deploy i _ => ∀ h ∈ s.deploys[i]?, Assigns h.phase → ∀ informer ∈ s.informers,
        informer.phase = .idle
    | .fail _ => False
    | _ => True

instance (s : State) (a : Action) : Decidable (Undisturbed s a) :=
  match a with
  | .deploy i _ => inferInstanceAs (Decidable (_ ∧ ∀ h ∈ s.deploys[i]?, Assigns h.phase →
      ∀ informer ∈ s.informers, informer.phase = .idle))
  | .fail _ => .isFalse And.right
  | .createNamespace _ | .deleteNamespace _ | .receiveDeploy _ | .add _ | .informer _ =>
    inferInstanceAs (Decidable (_ ∧ True))

/-- The last deploy is over and has started its informer, and no informer has anything to do. -/
structure Settled (s : State) : Prop where
  deployed : s.deploys.getLast?.map DeployHandler.phase = some (.done .deployed)
  idle : ∀ informer ∈ s.informers, informer.phase = .idle
  told : ∀ informer ∈ s.informers, informer.stopped = false → informer.pending = []

instance (s : State) : Decidable (Settled s) :=
  decidable_of_iff (s.deploys.getLast?.map DeployHandler.phase = some (.done .deployed) ∧
      (∀ informer ∈ s.informers, informer.phase = .idle) ∧
      ∀ informer ∈ s.informers, informer.stopped = false → informer.pending = [])
    ⟨fun h => ⟨h.1, h.2.1, h.2.2⟩, fun h => ⟨h.deployed, h.idle, h.told⟩⟩

/-- The namespace is watched. -/
def Watched (namespaces : List String) (ns : String) : Prop := ∃ w ∈ namespaces, Matches w ns

instance (namespaces : List String) (ns : String) : Decidable (Watched namespaces ns) :=
  inferInstanceAs (Decidable (∃ w ∈ namespaces, Matches w ns))

namespace AddPhase

/-- The secret that `AddFunc` has decoded. -/
def decoded : AddPhase → Option Secret
  | .getting _ secret _ | .creating _ secret _ | .updating _ secret _ => some secret
  | .idle | .looping _ _ | .panicked => none

/-- `AddFunc` will write the secret of the namespace, unless it panics. -/
def Works (s : State) (ns : String) : AddPhase → Prop
  | .idle => False
  | .looping ns' rest => ns' = ns ∧ Watched rest ns
  | .getting ns' _ _ | .creating ns' _ _ => ns' = ns
  | .updating ns' secret _ => ns' = ns ∧ s.secrets.get (ns, secret.name) ≠ none
  | .panicked => True

end AddPhase

/-- The namespace has the secret, or the informer gets to it. -/
def Served (s : State) (informer : Informer) (secret : Secret) (ns : String) : Prop :=
  s.secrets.get (ns, secret.name) = some secret.data ∨ ns ∈ informer.pending ∨
    informer.phase.Works s ns

/-- What an informer has in its hands is what is in the fields. -/
structure Current (decode : String → Decoded) (s : State) (informer : Informer) : Prop where
  decoded : ∀ secret, informer.phase.decoded = some secret →
    decode s.client.imagePullSecret = .secret secret
  creating : ∀ ns secret rest, informer.phase = .creating ns secret rest →
    s.secrets.get (ns, secret.name) = none ∨ s.secrets.get (ns, secret.name) = some secret.data

/-- An informer that runs serves the watched namespaces. -/
def Serves (decode : String → Decoded) (s : State) : Prop :=
  ∃ (k : Nat) (informer : Informer), s.informers[k]? = some informer ∧ informer.stopped = false ∧
    ∀ secret, decode s.client.imagePullSecret = .secret secret → ∀ ns ∈ s.namespaces,
      Watched s.client.watchedNamespaces ns → Served s informer secret ns

structure Inv (decode : String → Decoded) (s : State) : Prop where
  order : ∀ (i : Nat) (h : DeployHandler), s.deploys[i]? = some h → h.phase.isDone = false →
    i + 1 = s.deploys.length
  current : ∀ informer ∈ s.informers, Current decode s informer
  serves : ∀ h, s.deploys.getLast? = some h → Deployed h.phase → Serves decode s

/-! ## What the cluster keeps -/

section

variable {decode : String → Decoded} {s s' : State} {informer : Informer} {ns ns' : String}
  {secret : Secret}

/-- A secret of the fields is written. -/
structure Writes (decode : String → Decoded) (s s' : State) : Prop where
  client : s'.client = s.client
  namespaces : s'.namespaces = s.namespaces
  secrets : s'.secrets = s.secrets ∨ ∃ ns secret, decode s.client.imagePullSecret = .secret secret ∧
    s'.secrets = s.secrets.set (ns, secret.name) secret.data

theorem Writes.get (h : Writes decode s s')
    (hsecret : decode s.client.imagePullSecret = .secret secret) (ns : String) :
    s'.secrets.get (ns, secret.name) = s.secrets.get (ns, secret.name) ∨
      s'.secrets.get (ns, secret.name) = some secret.data := by
  rcases h.secrets with heq | ⟨ns', secret', hsecret', heq⟩
  · exact .inl (by rw [heq])
  · cases hsecret.symm.trans hsecret'
    rw [heq, Dictionary.get_set]
    split
    next => exact .inr rfl
    next => exact .inl rfl

theorem Current.writes (h : Current decode s informer) (hw : Writes decode s s') :
    Current decode s' informer where
  decoded := by
    rw [hw.client]
    exact h.decoded
  creating := by
    intro ns secret rest hphase
    have hsecret : decode s.client.imagePullSecret = .secret secret :=
      h.decoded secret (by rw [hphase]; rfl)
    rcases hw.get hsecret ns with heq | heq
    · rw [heq]
      exact h.creating ns secret rest hphase
    · exact .inr heq

theorem Works.writes {phase : AddPhase} (h : phase.Works s ns) (hw : Writes decode s s')
    (hdecoded : ∀ secret, phase.decoded = some secret →
      decode s.client.imagePullSecret = .secret secret) : phase.Works s' ns := by
  cases phase with
  | updating ns' secret rest =>
    refine ⟨h.1, fun hnone => ?_⟩
    rcases hw.get (hdecoded secret rfl) ns with heq | heq
    · exact h.2 (heq.symm.trans hnone)
    · cases heq.symm.trans hnone
  | idle | looping | getting | creating | panicked => exact h

theorem Served.writes (h : Served s informer secret ns) (hw : Writes decode s s')
    (hsecret : decode s.client.imagePullSecret = .secret secret) (hcurrent : Current decode s informer) :
    Served s' informer secret ns := by
  rcases h with hget | hpending | hworks
  · rcases hw.get hsecret ns with heq | heq
    · exact .inl (heq.trans hget)
    · exact .inl heq
  · exact .inr (.inl hpending)
  · exact .inr (.inr (Works.writes hworks hw hcurrent.decoded))

/-! ## The step of an informer -/

/-- What a step of `AddFunc` does, from `informer` to `informer'`. -/
structure InformerStep (decode : String → Decoded) (s s' : State) (i : Nat)
    (informer informer' : Informer) : Prop where
  writes : Writes decode s s'
  informers : s'.informers = s.informers.set i informer'
  deploys : s'.deploys = s.deploys
  current : Current decode s' informer'
  stopped : informer'.stopped = informer.stopped
  served : ∀ secret, decode s.client.imagePullSecret = .secret secret → ∀ ns ∈ s.namespaces,
    Watched s.client.watchedNamespaces ns → Served s informer secret ns → Served s' informer' secret ns

theorem current_of_decoded (hdecoded : informer.phase.decoded = none) : Current decode s informer where
  decoded := fun secret h => by cases hdecoded.symm.trans h
  creating := fun ns secret rest h => by
    rw [h] at hdecoded
    cases hdecoded

theorem informerStep_add {i : Nat} (h : s.add i informer = some s') :
    ∃ informer', InformerStep decode s s' i informer informer' := by
  unfold State.add at h
  split at h
  next ns pending hphase hpending =>
    cases h
    refine ⟨_, ⟨rfl, rfl, .inl rfl⟩, rfl, rfl, current_of_decoded rfl, rfl, ?_⟩
    intro secret _ ns' _ hwatched hserved
    rcases hserved with hget | hmem | hworks
    · exact .inl hget
    · rw [hpending] at hmem
      rcases List.mem_cons.mp hmem with rfl | hmem
      · exact .inr (.inr ⟨rfl, hwatched⟩)
      · exact .inr (.inl hmem)
    · rw [hphase] at hworks
      exact hworks.elim
  next => cases h

/-- The secrets stay, and `AddFunc` has as much to do for the watched namespaces. -/
theorem informerStep_phase {i : Nat} {phase : AddPhase}
    (hcurrent : Current decode (s.setInformer i { informer with phase := phase })
      { informer with phase := phase })
    (hworks : ∀ secret, decode s.client.imagePullSecret = .secret secret → ∀ ns ∈ s.namespaces,
      informer.phase.Works s ns →
      s.secrets.get (ns, secret.name) = some secret.data ∨ phase.Works s ns) :
    InformerStep decode s (s.setInformer i { informer with phase := phase }) i informer
      { informer with phase := phase } := by
  refine ⟨⟨rfl, rfl, .inl rfl⟩, rfl, rfl, hcurrent, rfl, ?_⟩
  intro secret hsecret ns hns _ hserved
  rcases hserved with hget | hmem | hold
  · exact .inl hget
  · exact .inr (.inl hmem)
  · rcases hworks secret hsecret ns hns hold with hget | hnew
    · exact .inl hget
    · refine .inr (.inr ?_)
      cases phase <;> exact hnew

/-- The secret of the fields is written. -/
theorem informerStep_write {i : Nat} {rest : List String} {written : Secret}
    (hcurrent : Current decode s informer) (hdecoded : informer.phase.decoded = some written)
    (hworks : ∀ ns', informer.phase.Works s ns' → ns = ns') :
    InformerStep decode s
      ({ s with secrets := s.secrets.set (ns, written.name) written.data }.setInformer i
        { informer with phase := .looping ns rest }) i informer
      { informer with phase := .looping ns rest } := by
  have hwritten := hcurrent.decoded written hdecoded
  have hw : Writes decode s
      ({ s with secrets := s.secrets.set (ns, written.name) written.data }.setInformer i
        { informer with phase := .looping ns rest }) :=
    ⟨rfl, rfl, .inr ⟨ns, written, hwritten, rfl⟩⟩
  refine ⟨hw, rfl, rfl, current_of_decoded rfl, rfl, ?_⟩
  intro secret hsecret ns' _ _ hserved
  rcases hserved with hget | hmem | hold
  · exact .inl ((hw.get hsecret _).elim (fun heq => heq.trans hget) id)
  · exact .inr (.inl hmem)
  · cases hsecret.symm.trans hwritten
    rw [← hworks ns' hold]
    exact .inl ((Dictionary.get_set _ _ _ _).trans (if_pos rfl))

theorem informerStep_stepInformer {i : Nat} (hcurrent : Current decode s informer)
    (h : s.stepInformer decode i informer = some s') :
    ∃ informer', InformerStep decode s s' i informer informer' := by
  unfold State.stepInformer at h
  split at h
  next => cases h
  next => cases h
  next ns hphase =>
    cases h
    refine ⟨_, informerStep_phase (current_of_decoded rfl) fun secret _ ns' _ hworks => ?_⟩
    rw [hphase] at hworks
    obtain ⟨-, w, hw, -⟩ := hworks
    cases hw
  next ns watchedNamespace rest hphase =>
    cases h
    unfold State.turn
    by_cases hmatches : Matches watchedNamespace ns
    · rw [if_pos hmatches]
      cases hdecode : decode s.client.imagePullSecret with
      | error =>
        refine ⟨_, informerStep_phase (current_of_decoded rfl) fun secret hsecret _ _ _ => ?_⟩
        cases hdecode.symm.trans hsecret
      | other =>
        exact ⟨_, informerStep_phase (current_of_decoded rfl) fun _ _ _ _ _ => .inr trivial⟩
      | secret secret =>
        refine ⟨_, informerStep_phase ⟨fun secret' hdecoded => ?_, fun _ _ _ heq => by cases heq⟩
          fun _ _ ns' _ hworks => ?_⟩
        · cases hdecoded
          exact hdecode
        · rw [hphase] at hworks
          exact .inr hworks.1
    · rw [if_neg hmatches]
      refine ⟨_, informerStep_phase (current_of_decoded rfl) fun _ _ ns' _ hworks => .inr ?_⟩
      rw [hphase] at hworks
      obtain ⟨rfl, w, hw, hmatch⟩ := hworks
      rcases List.mem_cons.mp hw with rfl | hw
      · exact absurd hmatch hmatches
      · exact ⟨rfl, w, hw, hmatch⟩
  next ns secret rest hphase =>
    have hdecoded : informer.phase.decoded = some secret := by
      rw [hphase]
      rfl
    have hsecret := hcurrent.decoded secret hdecoded
    have hkeeps : ∀ phase : AddPhase, phase.decoded = some secret →
        ∀ secret', phase.decoded = some secret' →
          decode s.client.imagePullSecret = .secret secret' := by
      intro phase hsame secret' hsecret'
      cases hsame.symm.trans hsecret'
      exact hsecret
    split at h
    next hnone =>
      cases h
      refine ⟨_, informerStep_phase ⟨hkeeps _ rfl, fun _ _ _ heq => ?_⟩ fun _ _ ns' _ hworks => ?_⟩
      · cases heq
        exact .inl hnone
      · rw [hphase] at hworks
        exact .inr hworks
    next =>
      cases h
      exact ⟨_, informerStep_phase (current_of_decoded rfl) fun _ _ _ _ _ => .inr trivial⟩
    next data hfound =>
      cases h
      refine ⟨_, informerStep_phase ⟨hkeeps _ rfl, fun _ _ _ heq => by cases heq⟩
        fun _ _ ns' _ hworks => ?_⟩
      rw [hphase] at hworks
      obtain rfl : ns = ns' := hworks
      exact .inr ⟨rfl, fun hnone => by cases hfound.symm.trans hnone⟩
  next ns secret rest hphase =>
    have hdecoded : informer.phase.decoded = some secret := by
      rw [hphase]
      rfl
    split at h
    next =>
      cases h
      refine ⟨_, informerStep_write hcurrent hdecoded fun ns' hworks => ?_⟩
      rw [hphase] at hworks
      exact hworks
    next hfails =>
      cases h
      refine ⟨_, informerStep_phase (current_of_decoded rfl) fun secret' hsecret' ns' hns hworks => ?_⟩
      -- the secret is there, since somebody else has created it
      rw [hphase] at hworks
      obtain rfl : ns = ns' := hworks
      cases hsecret'.symm.trans (hcurrent.decoded secret hdecoded)
      rcases hcurrent.creating ns secret rest hphase with hnone | hget
      · exact absurd ⟨hns, hnone⟩ hfails
      · exact .inl hget
  next ns secret rest hphase =>
    have hdecoded : informer.phase.decoded = some secret := by
      rw [hphase]
      rfl
    split at h
    next =>
      cases h
      refine ⟨_, informerStep_write hcurrent hdecoded fun ns' hworks => ?_⟩
      rw [hphase] at hworks
      exact hworks.1
    next hnone =>
      cases h
      refine ⟨_, informerStep_phase (current_of_decoded rfl) fun _ _ ns' _ hworks => ?_⟩
      rw [hphase] at hworks
      obtain ⟨rfl, hfound⟩ := hworks
      exact absurd hnone hfound

end

/-! ## The invariant is kept -/

namespace Inv

variable {decode : String → Decoded} {s s' : State}

theorem informer (h : Inv decode s) {i : Nat} {informer informer' : Informer}
    (hi : s.informers[i]? = some informer) (hstep : InformerStep decode s s' i informer informer') :
    Inv decode s' where
  order := hstep.deploys ▸ h.order
  current := by
    intro other hother
    rw [hstep.informers] at hother
    rcases List.mem_or_eq_of_mem_set hother with hold | rfl
    · exact (h.current other hold).writes hstep.writes
    · exact hstep.current
  serves := by
    rw [hstep.deploys]
    intro handler hlast hdeployed
    obtain ⟨k, runs, hk, hrunning, hserved⟩ := h.serves handler hlast hdeployed
    rw [Serves, hstep.writes.client, hstep.writes.namespaces, hstep.informers]
    by_cases hki : i = k
    · subst hki
      cases hi.symm.trans hk
      have hlt := (List.getElem?_eq_some_iff.mp hk).1
      refine ⟨i, informer', List.getElem?_set_self hlt, hstep.stopped.trans hrunning, ?_⟩
      intro secret hsecret ns hns hwatched
      exact hstep.served secret hsecret ns hns hwatched (hserved secret hsecret ns hns hwatched)
    · refine ⟨k, runs, (List.getElem?_set_ne hki).trans hk, hrunning, ?_⟩
      intro secret hsecret ns hns hwatched
      exact (hserved secret hsecret ns hns hwatched).writes hstep.writes hsecret
        (h.current runs (List.mem_of_getElem? hk))

theorem createNamespace (h : Inv decode s) (ns : String) :
    Inv decode { s with
      namespaces := s.namespaces ++ [ns], informers := s.informers.map (Informer.tell ns) } where
  order := h.order
  current := by
    intro informer hmem
    obtain ⟨old, hold, rfl⟩ := List.mem_map.mp hmem
    obtain ⟨hdecoded, hcreating⟩ := h.current old hold
    unfold Informer.tell
    split <;> exact ⟨hdecoded, hcreating⟩
  serves := by
    intro handler hlast hdeployed
    obtain ⟨k, runs, hk, hrunning, hserved⟩ := h.serves handler hlast hdeployed
    have htell : Informer.tell ns runs = { runs with pending := runs.pending ++ [ns] } := by
      unfold Informer.tell
      rw [hrunning]
      rfl
    refine ⟨k, _, (List.getElem?_map ..).trans (congrArg _ hk), ?_, ?_⟩
    · rw [htell]
      exact hrunning
    · intro secret hsecret ns' hns' hwatched
      rw [htell]
      rcases List.mem_append.mp hns' with hold | hnew
      · exact (hserved secret hsecret ns' hold hwatched).imp_right
          (Or.imp_left (List.mem_append_left _))
      · exact .inr (.inl (List.mem_append_right _ hnew))

theorem deleteNamespace (h : Inv decode s) (ns : String) :
    Inv decode { s with
      namespaces := s.namespaces.filter (· ≠ ns)
      secrets := s.secrets.deleteWhere fun row => row.1.1 = ns } := by
  have hget : ∀ ns' name, ns' ≠ ns →
      Dictionary.get (s.secrets.deleteWhere fun row => row.1.1 = ns) (ns', name) =
        s.secrets.get (ns', name) := by
    intro ns' name hne
    unfold Dictionary.get
    rw [Keyed.find?_deleteWhere_of_kept]
    rintro ⟨key, data⟩ rfl
    exact decide_eq_false hne
  have hgone : ∀ name,
      Dictionary.get (s.secrets.deleteWhere fun row => row.1.1 = ns) (ns, name) = none := by
    intro name
    refine Dictionary.get_eq_none.mpr fun row hrow heq => ?_
    have hkept := (Keyed.mem_deleteWhere.mp hrow).2
    rw [heq] at hkept
    exact absurd rfl (of_decide_eq_false hkept)
  refine ⟨h.order, fun informer hmem => ⟨(h.current informer hmem).decoded, ?_⟩, ?_⟩
  · intro ns' secret rest hphase
    by_cases hns : ns' = ns
    · exact .inl (hns ▸ hgone secret.name)
    · exact (hget ns' secret.name hns).symm ▸ (h.current informer hmem).creating ns' secret rest hphase
  · intro handler hlast hdeployed
    obtain ⟨k, runs, hk, hrunning, hserved⟩ := h.serves handler hlast hdeployed
    refine ⟨k, runs, hk, hrunning, fun secret hsecret ns' hns' hwatched => ?_⟩
    obtain ⟨hns', hne⟩ := List.mem_filter.mp hns'
    have hne : ns' ≠ ns := of_decide_eq_true hne
    rcases hserved secret hsecret ns' hns' hwatched with hfound | hpending | hworks
    · exact .inl ((hget ns' secret.name hne).trans hfound)
    · exact .inr (.inl hpending)
    · refine .inr (.inr ?_)
      cases hphase : runs.phase with
      | updating ns₀ secret₀ rest =>
        rw [hphase] at hworks
        exact ⟨hworks.1, fun hnone => hworks.2 ((hget ns' secret₀.name hne).symm.trans hnone)⟩
      | idle | looping | getting | creating | panicked =>
        rw [hphase] at hworks
        exact hworks

theorem receiveDeploy (h : Inv decode s) (args : DeployRequest)
    (hdone : ∀ handler ∈ s.deploys, handler.phase.isDone = true) :
    Inv decode { s with deploys := s.deploys ++ [{ args := args }] } where
  order := by
    intro i handler hi hopen
    dsimp only at hi ⊢
    rw [List.length_append, List.length_singleton]
    rw [List.getElem?_append] at hi
    split at hi
    next => cases (hdone handler (List.mem_of_getElem? hi)).symm.trans hopen
    next hge =>
      have hlt := (List.getElem?_eq_some_iff.mp hi).1
      rw [List.length_singleton] at hlt
      omega
  current := fun informer hmem => ⟨(h.current informer hmem).decoded, (h.current informer hmem).creating⟩
  serves := by
    intro handler hlast hdeployed
    rw [List.getLast?_concat] at hlast
    cases hlast
    rcases hdeployed with hphase | hphase <;> cases hphase

theorem mem_stopFirst {channel : Nat} {informer : Informer} {informers : List Informer}
    (h : informer ∈ stopFirst channel informers) :
    ∃ old ∈ informers, informer = old ∨ informer = { old with stopped := true } := by
  induction informers with
  | nil => cases h
  | cons first rest ih =>
    unfold stopFirst at h
    split at h
    next =>
      rcases List.mem_cons.mp h with rfl | hmem
      · exact ⟨first, List.mem_cons_self, .inr rfl⟩
      · exact ⟨informer, List.mem_cons_of_mem _ hmem, .inl rfl⟩
    next =>
      rcases List.mem_cons.mp h with rfl | hmem
      · exact ⟨informer, List.mem_cons_self, .inl rfl⟩
      · obtain ⟨old, hold, heq⟩ := ih hmem
        exact ⟨old, List.mem_cons_of_mem _ hold, heq⟩

/-- An informer after the step of a handler was there, with the same phase, or is new. -/
theorem mem_informersAfter {h : DeployHandler} {informer : Informer}
    (hmem : informer ∈ s.informersAfter h) :
    (∃ old ∈ s.informers, informer.phase = old.phase) ∨ informer.phase = .idle := by
  unfold State.informersAfter at hmem
  split at hmem
  next =>
    split at hmem
    next =>
      obtain ⟨old, hold, rfl | rfl⟩ := mem_stopFirst hmem
      · exact .inl ⟨informer, hold, rfl⟩
      · exact .inl ⟨old, hold, rfl⟩
    next => exact .inl ⟨informer, hmem, rfl⟩
  next =>
    rcases List.mem_append.mp hmem with hold | hnew
    · exact .inl ⟨informer, hold, rfl⟩
    · rw [List.mem_singleton.mp hnew]
      exact .inr rfl
  next => exact .inl ⟨informer, hmem, rfl⟩

theorem deploy (h : Inv decode s) {i : Nat} {ok : Bool} {handler : DeployHandler}
    (hi : s.deploys[i]? = some handler)
    (hidle : Assigns handler.phase → ∀ informer ∈ s.informers, informer.phase = .idle)
    (hstep : s.stepDeploy i ok handler = some s') : Inv decode s' := by
  obtain ⟨⟨client, phase⟩, hnext, rfl⟩ := Option.map_eq_some_iff.mp hstep
  have hopen : handler.phase.isDone = false := Requests.isDone_next hnext
  have hlength := h.order i handler hi hopen
  have hlast : s.deploys.getLast? = some handler := by
    rw [List.getLast?_eq_getElem?, ← hlength, Nat.add_sub_cancel]
    exact hi
  refine ⟨?_, ?_, ?_⟩
  · intro j other hj hother
    dsimp only at hj ⊢
    rw [List.length_set]
    rcases Processes.getElem?_set_cases hj with ⟨rfl, -⟩ | ⟨-, hold⟩
    · exact hlength
    · exact h.order j other hold hother
  · intro informer hmem
    by_cases hassigns : Assigns handler.phase
    · have hphase : informer.phase = .idle := by
        rcases mem_informersAfter hmem with ⟨old, hold, heq⟩ | heq
        · exact heq.trans (hidle hassigns old hold)
        · exact heq
      exact current_of_decoded (by rw [hphase]; rfl)
    · rcases mem_informersAfter hmem with ⟨old, hold, heq⟩ | heq
      · obtain ⟨hdecoded, hcreating⟩ := h.current old hold
        refine ⟨?_, ?_⟩
        · rw [heq, (next_fields hnext hassigns).1]
          exact hdecoded
        · rw [heq]
          exact hcreating
      · exact current_of_decoded (by rw [heq]; rfl)
  · intro handler' hlast' hdeployed
    have hhandler : handler' = { handler with phase := phase } := by
      have hlt := (List.getElem?_eq_some_iff.mp hi).1
      dsimp only at hlast'
      rw [List.getLast?_eq_getElem?, List.length_set, ← hlength, Nat.add_sub_cancel,
        List.getElem?_set_self hlt] at hlast'
      exact (Option.some.inj hlast').symm
    rw [hhandler] at hdeployed
    rcases next_deployed hnext hdeployed with hrunning | hreporting
    · -- the informer that was just started is to be told of all namespaces
      let started : Informer := { channel := s.client.namespaceStopChan, pending := s.namespaces }
      have hinformers : s.informersAfter handler = s.informers ++ [started] := by
        unfold State.informersAfter
        rw [hrunning]
      refine ⟨s.informers.length, started, ?_, rfl, fun _ _ ns hns _ => .inr (.inl hns)⟩
      dsimp only
      rw [hinformers]
      exact List.getElem?_concat_length
    · have hassigns : ¬ Assigns handler.phase := by
        rw [hreporting]
        decide
      have hinformers : s.informersAfter handler = s.informers := by
        unfold State.informersAfter
        rw [hreporting]
      obtain ⟨hsecret, hwatched⟩ := next_fields hnext hassigns
      obtain ⟨k, runs, hk, hstopped, hserved⟩ := h.serves handler hlast (.inl hreporting)
      refine ⟨k, runs, ?_, hstopped, ?_⟩
      · dsimp only
        rw [hinformers]
        exact hk
      · dsimp only
        rw [hsecret, hwatched]
        exact hserved

theorem step (h : Inv decode s) {a : Action} (ha : Undisturbed s a)
    (hstep : (operator decode).step s a = some s') : Inv decode s' := by
  unfold operator State.step at hstep
  dsimp only at hstep
  cases a with
  | createNamespace ns =>
    dsimp only at hstep
    split at hstep
    next => cases hstep
    next =>
      cases hstep
      exact h.createNamespace ns
  | deleteNamespace ns =>
    cases hstep
    exact h.deleteNamespace ns
  | receiveDeploy args =>
    cases hstep
    exact h.receiveDeploy args ha.1
  | deploy i ok =>
    obtain ⟨handler, hi, hstepped⟩ := Option.bind_eq_some_iff.mp hstep
    exact h.deploy hi (ha.2 handler hi) hstepped
  | add i =>
    obtain ⟨informer, hi, hstepped⟩ := Option.bind_eq_some_iff.mp hstep
    obtain ⟨informer', hinformer⟩ := informerStep_add hstepped
    exact h.informer hi hinformer
  | informer i =>
    obtain ⟨informer, hi, hstepped⟩ := Option.bind_eq_some_iff.mp hstep
    obtain ⟨informer', hinformer⟩ :=
      informerStep_stepInformer (h.current informer (List.mem_of_getElem? hi)) hstepped
    exact h.informer hi hinformer
  | fail i => exact ha.2.elim

end Inv

theorem everyState_inv (decode : String → Decoded) :
    (operator decode).EveryState Init Undisturbed (Inv decode) := by
  refine Machine.everyState_of_inv (fun s hs => ?_) fun s a s' h ha hstep => h.step ha hstep
  subst hs
  exact ⟨fun _ _ h => (by cases h), fun _ h => (by cases h), fun _ h => (by cases h)⟩

/-- With nothing left to do, what is served has the secret. -/
theorem Inv.settled {decode : String → Decoded} {s : State} (h : Inv decode s) (hs : Settled s)
    {secret : Secret} (hsecret : decode s.client.imagePullSecret = .secret secret) {ns : String}
    (hns : ns ∈ s.namespaces) (hwatched : Watched s.client.watchedNamespaces ns) :
    s.secrets.get (ns, secret.name) = some secret.data := by
  obtain ⟨handler, hlast, hdone⟩ := Option.map_eq_some_iff.mp hs.deployed
  obtain ⟨k, runs, hk, hrunning, hserved⟩ := h.serves handler hlast (.inr hdone)
  have hmem := List.mem_of_getElem? hk
  rcases hserved secret hsecret ns hns hwatched with hget | hpending | hworks
  · exact hget
  · rw [hs.told runs hmem hrunning] at hpending
    cases hpending
  · rw [hs.idle runs hmem] at hworks
    exact hworks.elim

/-! ## What can go wrong -/

/-- A watched namespace of the last deploy has another secret than that of the deploy. -/
def Stale (decode : String → Decoded) (s : State) (secret : Secret) (ns : String) : Prop :=
  Settled s ∧ decode s.client.imagePullSecret = .secret secret ∧ ns ∈ s.namespaces ∧
    Watched s.client.watchedNamespaces ns ∧ s.secrets.get (ns, secret.name) ≠ some secret.data

instance (decode : String → Decoded) (s : State) (secret : Secret) (ns : String) :
    Decidable (Stale decode s secret ns) := inferInstanceAs (Decidable (_ ∧ _))

/-- A namespace has the secret of deploys that do not watch it. -/
def Strayed (decode : String → Decoded) (s : State) (secret : Secret) (ns : String) : Prop :=
  Settled s ∧ s.secrets.get (ns, secret.name) = some secret.data ∧
    ∀ h ∈ s.deploys, decode h.args.imagePullSecret = .secret secret →
      ¬ Watched h.args.additionalNamespaces ns

instance (decode : String → Decoded) (s : State) (secret : Secret) (ns : String) :
    Decidable (Strayed decode s secret ns) := inferInstanceAs (Decidable (_ ∧ _))

/-- A namespace that a deploy watches has no secret. -/
def Forgotten (decode : String → Decoded) (s : State) (secret : Secret) (ns : String) : Prop :=
  Settled s ∧ ns ∈ s.namespaces ∧ s.secrets.get (ns, secret.name) = none ∧
    ∃ h ∈ s.deploys, h.phase = .done .deployed ∧ decode h.args.imagePullSecret = .secret secret ∧
      Watched h.args.additionalNamespaces ns

instance (decode : String → Decoded) (s : State) (secret : Secret) (ns : String) :
    Decidable (Forgotten decode s secret ns) := inferInstanceAs (Decidable (_ ∧ _))

/-- The text is the data of the secret. -/
def plain (text : String) : Decoded := .secret { name := "pull", data := some text }

def deployOf (app imagePullSecret : String) (additionalNamespaces : List String) : DeployRequest where
  appID := app
  additionalNamespaces := additionalNamespaces
  imagePullSecret := imagePullSecret

/-- A deploy from its message to its end. -/
def wholeDeploy (i : Nat) (args : DeployRequest) : List Action :=
  .receiveDeploy args ::
    List.replicate (10 + args.additionalNamespaces.length) (.deploy i true)

/-- An `AddFunc` sends its update after the next deploy is over. -/
def lateUpdate : List Action :=
  [.createNamespace "n"] ++ wholeDeploy 0 (deployOf "a" "1" ["*", "n"]) ++
  [.add 0, .informer 0, .informer 0, .informer 0, .informer 0, .informer 0] ++
  wholeDeploy 1 (deployOf "a" "2" ["n"]) ++
  [.add 1, .informer 1, .informer 1, .informer 1, .informer 1, .informer 0, .informer 0]

/-- `AddFunc` runs between the two assignments of the deploy of another app. -/
def tornRead : List Action :=
  [.createNamespace "n"] ++ wholeDeploy 0 (deployOf "a" "1" ["n"]) ++
  [.receiveDeploy (deployOf "b" "2" ["m"]), .deploy 1 true, .deploy 1 true, .deploy 1 true] ++
  [.add 0, .informer 0, .informer 0, .informer 0, .informer 0] ++
  List.replicate 8 (.deploy 1 true) ++ [.add 1, .informer 1, .informer 1]

/-- A namespace of one app is created after the deploy of another app. -/
def lateNamespace : List Action :=
  wholeDeploy 0 (deployOf "a" "1" ["n"]) ++ wholeDeploy 1 (deployOf "b" "2" ["m"]) ++
  [.createNamespace "n", .add 1, .informer 1, .informer 1]

theorem stale_reachable : ∃ s, (operator plain).Reachable Init Sequential s ∧
    Stale plain s { name := "pull", data := some "2" } "n" := by
  refine Machine.exists_of_guardedRun (rfl : Init {}) lateUpdate ?_
  decide

theorem strayed_reachable : ∃ s, (operator plain).Reachable Init Undisturbed s ∧
    Strayed plain s { name := "pull", data := some "2" } "n" := by
  refine Machine.exists_of_guardedRun (rfl : Init {}) tornRead ?_
  decide

theorem forgotten_reachable : ∃ s, (operator plain).Reachable Init Undisturbed s ∧
    Forgotten plain s { name := "pull", data := some "1" } "n" := by
  refine Machine.exists_of_guardedRun (rfl : Init {}) lateNamespace ?_
  decide

/-- **Pull secrets.**  When deploys come one after the other, no call fails and nobody is in
`AddFunc` while a deploy assigns the fields: once the last deploy is over and the informers have
nothing left to do, every watched namespace there is has the secret of the fields.  Of the three
conditions the code sees to none: an `AddFunc` that is under way when a field is assigned may leave
the old secret.  And where they do hold, an `AddFunc` between the two assignments puts the secret of
one deploy into a namespace that only another one watches, and the namespaces of an app are no longer
watched after the deploy of another app. -/
theorem pull_secrets_settle :
    (∀ decode : String → Decoded,
      (operator decode).EveryState Init Undisturbed fun s => Settled s →
        ∀ secret, decode s.client.imagePullSecret = .secret secret →
          ∀ ns ∈ s.namespaces, Watched s.client.watchedNamespaces ns →
            s.secrets.get (ns, secret.name) = some secret.data) ∧
    (∃ decode s secret ns, (operator decode).Reachable Init Sequential s ∧
      Stale decode s secret ns) ∧
    (∃ decode s secret ns, (operator decode).Reachable Init Undisturbed s ∧
      Strayed decode s secret ns) ∧
    ∃ decode s secret ns, (operator decode).Reachable Init Undisturbed s ∧
      Forgotten decode s secret ns := by
  refine ⟨fun decode s hs hsettled secret hsecret ns hns hwatched =>
    (everyState_inv decode s hs).settled hsettled hsecret hns hwatched, ?_, ?_, ?_⟩
  · obtain ⟨s, hs, hstale⟩ := stale_reachable
    exact ⟨plain, s, _, _, hs, hstale⟩
  · obtain ⟨s, hs, hstrayed⟩ := strayed_reachable
    exact ⟨plain, s, _, _, hs, hstrayed⟩
  · obtain ⟨s, hs, hforgotten⟩ := forgotten_reachable
    exact ⟨plain, s, _, _, hs, hforgotten⟩

end Kotsadm.Operator.ImagePullSecrets
