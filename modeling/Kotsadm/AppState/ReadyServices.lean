import Kotsadm.AppState.MinState

/-!
# ReadyServices — what the state of a service and of an ingress says about the endpoints

The state of a service is the minimum over its ports and the subsets of its endpoints.  A subset
that has nothing to say about a port contributes the empty string, which counts for nothing in the
minimum, and so does a port that no subset lists.
-/

namespace Kotsadm.AppState

/-! ## The states as minima -/

/-- What a subset contributes for some ports. -/
def EndpointSubset.part (ports : List String) (ss : EndpointSubset) : Option State :=
  if ss.ports = [] then
    if ss.notReadyAddresses ≠ [] then some .degraded else none
  else if ∃ port ∈ ss.ports, port ∈ ports then some ss.portState
  else none

theorem foldl_minState (min : Option State) (s : State) (ports listed : List String) :
    listed.foldl (fun min port =>
        if port ∈ ports then AppState.minState [min, some s] else min) min =
      Option.merge Min.min min
        (if ∃ port ∈ listed, port ∈ ports then some s else none) := by
  induction listed generalizing min with
  | nil =>
    rw [if_neg (by simp)]
    exact Option.merge_none_right.symm
  | cons port listed ih =>
    rw [List.foldl_cons, ih]
    by_cases hport : port ∈ ports
    · have hmem : ∃ p ∈ port :: listed, p ∈ ports := ⟨port, List.mem_cons_self, hport⟩
      rw [if_pos hport, minState_pair, if_pos hmem]
      split
      · -- a state that is met twice counts once
        cases min with
        | none => exact congrArg some (min_self s)
        | some m => exact congrArg some ((min_assoc m s s).trans (congrArg _ (min_self s)))
      · exact Option.merge_none_right
    · have hiff : (∃ p ∈ port :: listed, p ∈ ports) ↔ ∃ p ∈ listed, p ∈ ports := by
        simp [hport]
      rw [if_neg hport]
      simp only [hiff]

theorem EndpointSubset.minState_eq (ports : List String) (min : Option State)
    (ss : EndpointSubset) : ss.minState ports min = Option.merge Min.min min (ss.part ports) := by
  unfold EndpointSubset.minState EndpointSubset.part
  by_cases hports : ss.ports = []
  · rw [if_pos hports, if_pos hports]
    by_cases hnotReady : ss.notReadyAddresses ≠ []
    · rw [if_pos hnotReady, if_pos hnotReady, minState_pair]
    · rw [if_neg hnotReady, if_neg hnotReady, Option.merge_none_right]
  · rw [if_neg hports, if_neg hports]
    exact foldl_minState min ss.portState ports ss.ports

theorem servicePortGetStateFromEndpoints_eq {endpoints : Endpoints}
    (hsubsets : endpoints.subsets ≠ []) (ports : List String) :
    servicePortGetStateFromEndpoints endpoints ports =
      (endpoints.subsets.map (EndpointSubset.part ports)).foldl (Option.merge min) none := by
  unfold servicePortGetStateFromEndpoints
  rw [if_neg hsubsets, List.foldl_map]
  congr 1
  funext min ss
  exact ss.minState_eq ports min

theorem serviceGetStateFromEndpoints_eq {clientset : Clientset} {svc : Service}
    {endpoints : Endpoints} (hendpoints : clientset.endpoints svc.ns svc.name = some endpoints) :
    serviceGetStateFromEndpoints clientset svc =
      (svc.ports.map fun port => servicePortGetStateFromEndpoints endpoints [port]).foldl
        (Option.merge min) none := by
  unfold serviceGetStateFromEndpoints
  rw [hendpoints, List.foldl_map]
  simp only [minState_pair]

theorem minState_minStateOf (ss : List (Option State)) (s : State) :
    minState (ss ++ [some s]) = some (minStateOf ss s) :=
  (Option.some_get _).symm

theorem some_minStateOf (ss : List (Option State)) (s : State) :
    some (minStateOf ss s) = (ss ++ [some s]).foldl (Option.merge min) none := by
  rw [← minState_minStateOf]
  exact minState_eq (List.append_ne_nil_of_right_ne_nil ss (List.cons_ne_nil _ _))

/-! ## Ready -/

/-- A part that does not keep the whole from being ready. -/
def Fine (s : Option State) : Prop := s = none ∨ s = some .ready

theorem fine_merge {s t : Option State} : Fine (Option.merge min s t) ↔ Fine s ∧ Fine t := by
  rcases s with _ | s <;> rcases t with _ | t
  · simp [Fine]
  · simp [Fine]
  · simp [Fine]
  · cases s <;> cases t <;> simp [Fine] <;> decide

theorem fine_foldl {m : Option State} {ss : List (Option State)} :
    Fine (ss.foldl (Option.merge min) m) ↔ Fine m ∧ ∀ s ∈ ss, Fine s := by
  induction ss generalizing m with
  | nil => simp
  | cons s ss ih => rw [List.foldl_cons, ih, fine_merge, List.forall_mem_cons, and_assoc]

theorem minStateOf_eq_ready {ss : List (Option State)} {s : State} :
    minStateOf ss s = .ready ↔ (∀ t ∈ ss, Fine t) ∧ s = .ready := by
  have hfine : minStateOf ss s = .ready ↔ Fine (some (minStateOf ss s)) := by simp [Fine]
  have hlast : Fine (some s) ↔ s = .ready := by simp [Fine]
  rw [hfine, some_minStateOf, fine_foldl, List.forall_mem_append, List.forall_mem_singleton, hlast]
  exact and_iff_right (.inl rfl)

/-! ## What keeps a service from being ready -/

/-- There are no subsets, a subset without ports has an address that is not ready, or a subset with
the port has such an address or no ready one. -/
def Endpoints.Impaired (endpoints : Endpoints) (port : String) : Prop :=
  endpoints.subsets = [] ∨ ∃ ss ∈ endpoints.subsets,
    ss.ports = [] ∧ ss.notReadyAddresses ≠ [] ∨
      port ∈ ss.ports ∧ (ss.addresses = [] ∨ ss.notReadyAddresses ≠ [])

/-- The service has no endpoints, or they are impaired for one of its ports. -/
def Service.Impaired (clientset : Clientset) (svc : Service) : Prop :=
  match clientset.endpoints svc.ns svc.name with
  | none => True
  | some endpoints => ∃ port ∈ svc.ports, endpoints.Impaired port

theorem fine_part {ss : EndpointSubset} {port : String} :
    Fine (ss.part [port]) ↔ ¬ (ss.ports = [] ∧ ss.notReadyAddresses ≠ [] ∨
      port ∈ ss.ports ∧ (ss.addresses = [] ∨ ss.notReadyAddresses ≠ [])) := by
  unfold EndpointSubset.part EndpointSubset.portState
  by_cases hports : ss.ports = []
  · by_cases hnotReady : ss.notReadyAddresses = [] <;> simp [Fine, hports, hnotReady]
  · by_cases hport : port ∈ ss.ports
    · by_cases haddresses : ss.addresses = [] <;>
        by_cases hnotReady : ss.notReadyAddresses = [] <;>
        simp [Fine, hports, hport, haddresses, hnotReady]
    · simp [Fine, hports, hport]

theorem fine_servicePort {endpoints : Endpoints} {port : String} :
    Fine (servicePortGetStateFromEndpoints endpoints [port]) ↔ ¬ endpoints.Impaired port := by
  unfold Endpoints.Impaired
  by_cases hsubsets : endpoints.subsets = []
  · simp [servicePortGetStateFromEndpoints, Fine, hsubsets]
  · rw [servicePortGetStateFromEndpoints_eq hsubsets, fine_foldl, List.forall_mem_map]
    simp only [fine_part, hsubsets, false_or, not_exists, not_and]
    exact and_iff_right (.inl rfl)

theorem fine_service {clientset : Clientset} {svc : Service} :
    Fine (serviceGetStateFromEndpoints clientset svc) ↔ ¬ svc.Impaired clientset := by
  unfold Service.Impaired
  cases hendpoints : clientset.endpoints svc.ns svc.name with
  | none => simp [serviceGetStateFromEndpoints, Fine, hendpoints]
  | some endpoints =>
    rw [serviceGetStateFromEndpoints_eq hendpoints, fine_foldl, List.forall_mem_map]
    simp only [fine_servicePort, not_exists, not_and]
    exact and_iff_right (.inl rfl)

theorem calculateServiceState_eq_ready {clientset : Clientset} {svc : Service} :
    calculateServiceState clientset svc = .ready ↔
      ¬ svc.Impaired clientset ∧ serviceGetStateFromExternalIP svc = .ready := by
  unfold calculateServiceState
  rw [minStateOf_eq_ready, List.forall_mem_singleton, fine_service]

/-! ## The backends of an ingress -/

/-- The services that the ingress refers to, by namespace.  Without a backend of its own it inherits
the default one. -/
def Ingress.backends (r : Ingress) : List (String × IngressBackend) :=
  r.defaultBackend :: (r.rules.flatMap fun rule => rule.getD []).map fun backend => (r.ns, backend)

theorem pathBackends_eq {rules : List (Option (List IngressBackend))} :
    pathBackends rules =
      if none ∈ rules then none else some (rules.flatMap fun rule => rule.getD []) := by
  induction rules with
  | nil => rfl
  | cons rule rules ih =>
    cases rule with
    | none => rw [pathBackends, if_pos List.mem_cons_self]
    | some paths =>
      rw [pathBackends, ih]
      by_cases hnone : none ∈ rules
      · rw [if_pos hnone, if_pos (List.mem_cons_of_mem _ hnone)]
        rfl
      · have hnone' : none ∉ some paths :: rules := by simp [hnone]
        rw [if_neg hnone, if_neg hnone']
        rfl

/-- What `MinState` gets for an ingress without a nil `HTTP`. -/
theorem calculateIngressState_eq {clientset : Clientset} {r : Ingress} :
    calculateIngressState clientset r =
      if none ∈ r.rules then none
      else some (minStateOf
        (r.backends.map fun b => ingressGetStateFromBackend clientset b.1 b.2)
        (ingressGetStateFromExternalIP r)) := by
  unfold calculateIngressState Ingress.backends
  rw [pathBackends_eq, List.map_cons, List.map_map]
  by_cases hnone : none ∈ r.rules
  · rw [if_pos hnone, if_pos hnone]
    rfl
  · rw [if_neg hnone, if_neg hnone]
    rfl

/-- There is no such service, or it is impaired. -/
def BackendImpaired (clientset : Clientset) (b : String × IngressBackend) : Prop :=
  match clientset.services b.1 b.2.serviceName with
  | none => True
  | some service => service.Impaired clientset

theorem fine_backend {clientset : Clientset} {b : String × IngressBackend} :
    Fine (ingressGetStateFromBackend clientset b.1 b.2) ↔ ¬ BackendImpaired clientset b := by
  unfold ingressGetStateFromBackend BackendImpaired
  cases clientset.services b.1 b.2.serviceName with
  | none => simp [Fine]
  | some service => exact fine_service

theorem calculateIngressState_eq_ready {clientset : Clientset} {r : Ingress} :
    calculateIngressState clientset r = some .ready ↔
      none ∉ r.rules ∧ (∀ b ∈ r.backends, ¬ BackendImpaired clientset b) ∧
        ingressGetStateFromExternalIP r = .ready := by
  rw [calculateIngressState_eq]
  by_cases hnone : none ∈ r.rules
  · simp [hnone]
  · rw [if_neg hnone, Option.some.injEq, minStateOf_eq_ready, List.forall_mem_map]
    simp only [fine_backend]
    exact (and_iff_right hnone).symm

/-! ## Reachable services -/

/-- Some subset lists the port. -/
def Service.Listed (clientset : Clientset) (svc : Service) (port : String) : Prop :=
  ∃ endpoints, clientset.endpoints svc.ns svc.name = some endpoints ∧
    ∃ ss ∈ endpoints.subsets, port ∈ ss.ports

/-- For every port some subset lists it and has a ready address. -/
def Service.Reachable (clientset : Clientset) (svc : Service) : Prop :=
  ∀ port ∈ svc.ports, ∃ endpoints, clientset.endpoints svc.ns svc.name = some endpoints ∧
    ∃ ss ∈ endpoints.subsets, port ∈ ss.ports ∧ ss.addresses ≠ []

theorem reachable_iff_listed {clientset : Clientset} {svc : Service}
    (h : ¬ svc.Impaired clientset) :
    svc.Reachable clientset ↔ ∀ port ∈ svc.ports, svc.Listed clientset port := by
  constructor
  · intro hreachable port hport
    obtain ⟨endpoints, hendpoints, ss, hss, hlisted, -⟩ := hreachable port hport
    exact ⟨endpoints, hendpoints, ss, hss, hlisted⟩
  · intro hlisted port hport
    obtain ⟨endpoints, hendpoints, ss, hss, hmem⟩ := hlisted port hport
    refine ⟨endpoints, hendpoints, ss, hss, hmem, fun haddresses => h ?_⟩
    unfold Service.Impaired
    rw [hendpoints]
    exact ⟨port, hport, .inr ⟨ss, hss, .inr ⟨hmem, .inl haddresses⟩⟩⟩

/-- The answer is the service that was asked for, and not the empty one that stands for an error. -/
def Asked (b : String × IngressBackend) (service : Service) : Prop :=
  service.ns = b.1 ∧ service.name = b.2.serviceName

def BackendReachable (clientset : Clientset) (b : String × IngressBackend) : Prop :=
  ∃ service, clientset.services b.1 b.2.serviceName = some service ∧ Asked b service ∧
    service.Reachable clientset

def BackendListed (clientset : Clientset) (b : String × IngressBackend) : Prop :=
  ∃ service, clientset.services b.1 b.2.serviceName = some service ∧ Asked b service ∧
    ∀ port ∈ service.ports, service.Listed clientset port

theorem backendReachable_iff_listed {clientset : Clientset} {b : String × IngressBackend}
    (h : ¬ BackendImpaired clientset b) :
    BackendReachable clientset b ↔ BackendListed clientset b := by
  unfold BackendReachable BackendListed
  unfold BackendImpaired at h
  cases hservice : clientset.services b.1 b.2.serviceName with
  | none => simp
  | some service =>
    rw [hservice] at h
    simp only [Option.some.injEq, exists_eq_left', reachable_iff_listed h]

/-! ## Worse endpoints -/

/-- Addresses that are not ready were added, or ready ones removed. -/
structure EndpointSubset.Worse (ss ss' : EndpointSubset) : Prop where
  ports : ss'.ports = ss.ports
  addresses : ss'.addresses ⊆ ss.addresses
  notReadyAddresses : ss.notReadyAddresses ⊆ ss'.notReadyAddresses

def Endpoints.Worse (endpoints endpoints' : Endpoints) : Prop :=
  List.Forall₂ EndpointSubset.Worse endpoints.subsets endpoints'.subsets

structure Clientset.Worse (clientset clientset' : Clientset) : Prop where
  services : clientset'.services = clientset.services
  endpoints : ∀ ns name,
    Option.Rel Endpoints.Worse (clientset.endpoints ns name) (clientset'.endpoints ns name)

/-- The state is at most the other one; the empty string is above all. -/
def AtMost (s' s : Option State) : Prop := ∀ t, s = some t → ∃ t', s' = some t' ∧ t' ≤ t

theorem AtMost.refl (s : Option State) : AtMost s s := fun t ht => ⟨t, ht, le_refl t⟩

theorem AtMost.merge {s s' t t' : Option State} (hs : AtMost s' s) (ht : AtMost t' t) :
    AtMost (Option.merge min s' t') (Option.merge min s t) := by
  intro u hu
  have hleft : ∀ {v}, s = some v → ∃ v', Option.merge min s' t' = some v' ∧ v' ≤ v := by
    intro v hv
    obtain ⟨v', hv', hle⟩ := hs v hv
    cases t' with
    | none => exact ⟨v', by rw [hv', Option.merge_none_right], hle⟩
    | some w => exact ⟨min v' w, by rw [hv', Option.merge_some_some], (min_le_left v' w).trans hle⟩
  have hright : ∀ {v}, t = some v → ∃ v', Option.merge min s' t' = some v' ∧ v' ≤ v := by
    intro v hv
    obtain ⟨v', hv', hle⟩ := ht v hv
    cases s' with
    | none => exact ⟨v', by rw [hv', Option.merge_none_left], hle⟩
    | some w => exact ⟨min w v', by rw [hv', Option.merge_some_some], (min_le_right w v').trans hle⟩
  cases s with
  | none => exact hright (by rw [← hu, Option.merge_none_left])
  | some v =>
    cases t with
    | none => exact hleft (by rw [← hu, Option.merge_none_right])
    | some w =>
      cases hu
      -- the minimum is one of the two
      rcases min_choice v w with hmin | hmin
      · rw [hmin]
        exact hleft rfl
      · rw [hmin]
        exact hright rfl

theorem AtMost.foldl {ss ss' : List (Option State)} (h : List.Forall₂ AtMost ss' ss)
    {m m' : Option State} (hm : AtMost m' m) :
    AtMost (ss'.foldl (Option.merge min) m') (ss.foldl (Option.merge min) m) := by
  induction h generalizing m m' with
  | nil => exact hm
  | cons hfirst _ ih => exact ih (hm.merge hfirst)

/-- Only one of the parts differs. -/
theorem forall₂_map_atMost {α : Type} {f f' : α → Option State} {l : List α}
    (h : ∀ a ∈ l, AtMost (f' a) (f a)) : List.Forall₂ AtMost (l.map f') (l.map f) := by
  rw [List.forall₂_map_left_iff, List.forall₂_map_right_iff, List.forall₂_same]
  exact h

theorem EndpointSubset.Worse.portState {ss ss' : EndpointSubset} (h : ss.Worse ss') :
    ss'.portState ≤ ss.portState := by
  unfold EndpointSubset.portState
  by_cases haddresses' : ss'.addresses = []
  · rw [if_pos haddresses']
    split
    · exact le_refl _
    · split <;> decide
  · have haddresses : ss.addresses ≠ [] := fun hnil =>
      haddresses' (List.subset_nil.mp (hnil ▸ h.addresses))
    rw [if_neg haddresses', if_neg haddresses]
    by_cases hnotReady : ss.notReadyAddresses ≠ []
    · have hnotReady' : ss'.notReadyAddresses ≠ [] := fun hnil =>
        hnotReady (List.subset_nil.mp (hnil ▸ h.notReadyAddresses))
      rw [if_pos hnotReady, if_pos hnotReady']
    · rw [if_neg hnotReady]
      exact le_ready _

theorem EndpointSubset.Worse.part {ss ss' : EndpointSubset} (h : ss.Worse ss')
    (ports : List String) : AtMost (ss'.part ports) (ss.part ports) := by
  unfold EndpointSubset.part
  rw [h.ports]
  by_cases hports : ss.ports = []
  · rw [if_pos hports, if_pos hports]
    by_cases hnotReady : ss.notReadyAddresses ≠ []
    · have hnotReady' : ss'.notReadyAddresses ≠ [] := fun hnil =>
        hnotReady (List.subset_nil.mp (hnil ▸ h.notReadyAddresses))
      rw [if_pos hnotReady, if_pos hnotReady']
      exact AtMost.refl _
    · rw [if_neg hnotReady]
      exact fun t ht => by cases ht
  · rw [if_neg hports, if_neg hports]
    split
    · intro t ht
      cases ht
      exact ⟨_, rfl, h.portState⟩
    · exact AtMost.refl none

theorem Endpoints.Worse.servicePort {endpoints endpoints' : Endpoints}
    (h : endpoints.Worse endpoints') (ports : List String) :
    AtMost (servicePortGetStateFromEndpoints endpoints' ports)
      (servicePortGetStateFromEndpoints endpoints ports) := by
  have hlength := h.length_eq
  by_cases hsubsets : endpoints.subsets = []
  · have hsubsets' : endpoints'.subsets = [] := by
      rw [← List.length_eq_zero_iff, ← hlength, hsubsets]
      rfl
    unfold servicePortGetStateFromEndpoints
    rw [if_pos hsubsets, if_pos hsubsets']
    exact AtMost.refl _
  · have hsubsets' : endpoints'.subsets ≠ [] := by
      rw [← List.length_pos_iff, ← hlength, List.length_pos_iff]
      exact hsubsets
    rw [servicePortGetStateFromEndpoints_eq hsubsets, servicePortGetStateFromEndpoints_eq hsubsets']
    refine AtMost.foldl ?_ (AtMost.refl none)
    rw [List.forall₂_map_left_iff, List.forall₂_map_right_iff]
    exact h.flip.imp fun _ _ hworse => hworse.part ports

section Worse

variable {clientset clientset' : Clientset} (h : clientset.Worse clientset')

include h

theorem Clientset.Worse.service (svc : Service) :
    AtMost (serviceGetStateFromEndpoints clientset' svc)
      (serviceGetStateFromEndpoints clientset svc) := by
  have hrel := h.endpoints svc.ns svc.name
  cases hendpoints : clientset.endpoints svc.ns svc.name with
  | none =>
    rw [hendpoints] at hrel
    cases hendpoints' : clientset'.endpoints svc.ns svc.name with
    | none =>
      unfold serviceGetStateFromEndpoints
      rw [hendpoints, hendpoints']
      exact AtMost.refl _
    | some endpoints' =>
      rw [hendpoints'] at hrel
      cases hrel
  | some endpoints =>
    rw [hendpoints] at hrel
    cases hendpoints' : clientset'.endpoints svc.ns svc.name with
    | none =>
      rw [hendpoints'] at hrel
      cases hrel
    | some endpoints' =>
      rw [hendpoints'] at hrel
      cases hrel with
      | some hworse =>
        rw [serviceGetStateFromEndpoints_eq hendpoints, serviceGetStateFromEndpoints_eq hendpoints']
        exact AtMost.foldl (forall₂_map_atMost fun port _ => hworse.servicePort [port])
          (AtMost.refl none)

theorem Clientset.Worse.backend (ns : String) (backend : IngressBackend) :
    AtMost (ingressGetStateFromBackend clientset' ns backend)
      (ingressGetStateFromBackend clientset ns backend) := by
  unfold ingressGetStateFromBackend
  rw [h.services]
  split
  next => exact AtMost.refl _
  next service _ => exact h.service service

end Worse

theorem minStateOf_atMost {ss ss' : List (Option State)} (h : List.Forall₂ AtMost ss' ss)
    (s : State) : minStateOf ss' s ≤ minStateOf ss s := by
  have hall : List.Forall₂ AtMost (ss' ++ [some s]) (ss ++ [some s]) :=
    List.rel_append h (.cons (AtMost.refl _) .nil)
  have hfold := AtMost.foldl hall (AtMost.refl none)
  rw [← some_minStateOf, ← some_minStateOf] at hfold
  obtain ⟨t, ht, hle⟩ := hfold _ rfl
  cases ht
  exact hle

/-! ## What ready says -/

/-- **A ready service.**  Ready means reachable exactly where every port is listed, unless something
else keeps the service from being ready; the same holds for the backends of an ingress.  Worse
endpoints never give a better state. -/
theorem reachable_of_ready_iff (clientset : Clientset) (svc : Service) (r : Ingress) :
    ((calculateServiceState clientset svc = .ready → svc.Reachable clientset) ↔
      (∀ port ∈ svc.ports, svc.Listed clientset port) ∨ svc.Impaired clientset ∨
        serviceGetStateFromExternalIP svc ≠ .ready) ∧
    ((calculateIngressState clientset r = some .ready →
        ∀ b ∈ r.backends, BackendReachable clientset b) ↔
      (∀ b ∈ r.backends, BackendListed clientset b) ∨ none ∈ r.rules ∨
        (∃ b ∈ r.backends, BackendImpaired clientset b) ∨
        ingressGetStateFromExternalIP r ≠ .ready) ∧
    ∀ clientset', clientset.Worse clientset' →
      calculateServiceState clientset' svc ≤ calculateServiceState clientset svc ∧
      ∀ s, calculateIngressState clientset r = some s →
        ∃ s', calculateIngressState clientset' r = some s' ∧ s' ≤ s := by
  refine ⟨?_, ?_, ?_⟩
  · have hlisted : (calculateServiceState clientset svc = .ready → svc.Reachable clientset) ↔
        (calculateServiceState clientset svc = .ready →
          ∀ port ∈ svc.ports, svc.Listed clientset port) :=
      imp_congr_right fun hready =>
        reachable_iff_listed (calculateServiceState_eq_ready.mp hready).1
    rw [hlisted, imp_iff_or_not, calculateServiceState_eq_ready, not_and_or, not_not]
  · have hlisted : (calculateIngressState clientset r = some .ready →
          ∀ b ∈ r.backends, BackendReachable clientset b) ↔
        (calculateIngressState clientset r = some .ready →
          ∀ b ∈ r.backends, BackendListed clientset b) :=
      imp_congr_right fun hready => forall₂_congr fun b hb =>
        backendReachable_iff_listed ((calculateIngressState_eq_ready.mp hready).2.1 b hb)
    rw [hlisted, imp_iff_or_not, calculateIngressState_eq_ready]
    simp only [not_and_or, not_not, not_forall, exists_prop, ne_eq]
  · intro clientset' h
    constructor
    · exact minStateOf_atMost (.cons (h.service svc) .nil) _
    · intro s hs
      rw [calculateIngressState_eq] at hs ⊢
      split at hs
      next => cases hs
      next hnone =>
        cases hs
        rw [if_neg hnone]
        exact ⟨_, rfl, minStateOf_atMost (forall₂_map_atMost fun b _ => h.backend b.1 b.2) _⟩

/-- The endpoints list another port than the service. -/
def otherPort : Clientset where
  endpoints := fun _ _ => some ⟨[⟨["10.0.0.1"], [], ["metrics"]⟩]⟩
  services := fun _ _ => none

def webService : Service where
  ns := "default"
  name := "web"
  type := "ClusterIP"
  ports := ["http"]
  externalIPs := []
  loadBalancer := []

theorem not_reachable_otherPort : ¬ ∀ (clientset : Clientset) (svc : Service),
    calculateServiceState clientset svc = .ready → svc.Reachable clientset := by
  intro h
  have hready : calculateServiceState otherPort webService = .ready := by decide
  obtain ⟨endpoints, hendpoints, ss, hss, hlisted, -⟩ :=
    h otherPort webService hready "http" List.mem_cons_self
  cases hendpoints
  rw [List.mem_singleton.mp hss] at hlisted
  exact absurd hlisted (by decide)

/-! ## One of the four states -/

/-- **A state for every object.**  `MinState` gives one of the four states for a service, and for an
ingress exactly when none of its rules is without `HTTP`. -/
theorem calculates_iff (clientset : Clientset) (svc : Service) (r : Ingress) :
    (∃ s, minState [serviceGetStateFromEndpoints clientset svc,
        some (serviceGetStateFromExternalIP svc)] = some s ∧
      calculateServiceState clientset svc = s) ∧
    ((∃ s, minState ((r.backends.map fun b => ingressGetStateFromBackend clientset b.1 b.2) ++
        [some (ingressGetStateFromExternalIP r)]) = some s ∧
      calculateIngressState clientset r = some s) ↔ none ∉ r.rules) := by
  constructor
  · exact ⟨_, minState_minStateOf [serviceGetStateFromEndpoints clientset svc] _, rfl⟩
  · rw [calculateIngressState_eq]
    constructor
    · intro ⟨s, _, hs⟩ hnone
      rw [if_pos hnone] at hs
      cases hs
    · intro hnone
      rw [if_neg hnone]
      exact ⟨_, minState_minStateOf _ _, rfl⟩

/-- An ingress for a host, whose rule leaves the traffic to the default backend. -/
def hostIngress : Ingress where
  ns := "default"
  name := "web"
  backend := some ⟨"web"⟩
  rules := [none]
  loadBalancer := []

theorem not_calculates_hostIngress : ¬ ∀ (clientset : Clientset) (r : Ingress),
    ∃ s, calculateIngressState clientset r = some s := by
  intro h
  obtain ⟨s, hs⟩ := h otherPort hostIngress
  cases hs

end Kotsadm.AppState
