import Kotsadm.Lib.Reorder

/-!
# ResourceStates — what the operator reports about the resources of an app

`runInformers` keeps one state for each informer.  Every resource state it receives rebuilds and
sorts the list, with a `Less` that is no order, and the whole list is reported.
-/

namespace Kotsadm.AppState

inductive State where
  | ready
  | degraded
  | unavailable
  | missing
  deriving DecidableEq, Repr

structure StatusInformer where
  kind : String
  name : String
  ns : String
  deriving DecidableEq, Repr

structure ResourceState where
  kind : String
  name : String
  ns : String
  state : State
  deriving DecidableEq, Repr

structure AppStatus where
  appID : String
  resourceStates : List ResourceState
  updatedAt : Int
  deriving DecidableEq, Repr

/-- Kind, namespace and name. -/
abbrev Key := String × String × String

def StatusInformer.key (i : StatusInformer) : Key := (i.kind, i.ns, i.name)

def ResourceState.key (r : ResourceState) : Key := (r.kind, r.ns, r.name)

/-! ## normalizeStatusInformers -/

/-- The names registered by the `init` functions, file by file. -/
def resourceKindNames : List (List String) :=
  [["deployment", "deployments", "deploy"],
   ["ingress", "ingresses", "ing"],
   ["persistentvolumeclaim", "persistentvolumeclaims", "pvc"],
   ["service", "services", "svc"],
   ["statefulset", "statefulsets", "sts"]]

/-- `unicode.ToLower`, as far as a comparison with lower case ASCII can tell: the dotted capital I
and the Kelvin sign are the only other characters whose lower case is ASCII. -/
def toLower (c : Char) : Char :=
  if 'A' ≤ c ∧ c ≤ 'Z' then Char.ofNat (c.toNat + 32)
  else if c.toNat = 0x130 then 'i'
  else if c.toNat = 0x212A then 'k'
  else c

def getResourceKindCommonName (a : String) : String :=
  match resourceKindNames.find? fun names => names.any fun name =>
      name.toList = a.toList.map toLower with
  | some (name :: _) => name
  | _ => a

def normalizeStatusInformers (informers : List StatusInformer) (targetNamespace : String) :
    List StatusInformer :=
  informers.map fun informer => { informer with
    kind := getResourceKindCommonName informer.kind
    ns := if informer.ns = "" then targetNamespace else informer.ns }

example : getResourceKindCommonName "StatefulSet" = "statefulset" := by decide

/-! ## sort.Sort -/

/-- `ResourceStates.Less`.  It is not asymmetric, so what `sort.Sort` makes of it is not specified;
`sort` below is any function that only swaps. -/
def less (a b : ResourceState) : Bool :=
  a.kind < b.kind || a.name < b.name || a.ns < b.ns

/-! ## The states -/

section

variable (sort : Reorder ResourceState)

def buildResourceStatesFromStatusInformers (informers : List StatusInformer) :
    List ResourceState :=
  sort.apply (informers.map fun informer => ⟨informer.kind, informer.name, informer.ns, .missing⟩)

/-- The entry is replaced. -/
def changes (resourceState r : ResourceState) : Bool :=
  resourceState.kind = r.kind && resourceState.ns = r.ns && resourceState.name = r.name &&
    resourceState.state ≠ r.state

def resourceStatesApplyNew (resourceStates : List ResourceState)
    (resourceState : ResourceState) : List ResourceState × Bool :=
  (sort.apply (resourceStates.map fun r => if changes resourceState r then resourceState else r),
    resourceStates.any (changes resourceState))

/-- What `runInformers` sends first. -/
def resetStatus (appID : String) (informers : List StatusInformer) (now : Int) : AppStatus :=
  ⟨appID, buildResourceStatesFromStatusInformers sort informers, now⟩

/-- What it sends after a resource state. -/
def AppStatus.receive (status : AppStatus) (resourceState : ResourceState) (now : Int) :
    AppStatus :=
  { status with
    resourceStates := (resourceStatesApplyNew sort status.resourceStates resourceState).1
    updatedAt := now }

/-- The loop: everything that is sent from `status` on. -/
def runLoop (status : AppStatus) : List (ResourceState × Int) → List AppStatus
  | [] => [status]
  | (resourceState, now) :: received =>
    status :: runLoop (status.receive sort resourceState now) received

/-- The statuses that `runInformers` sends, for the resource states it receives, each with the
time then. -/
def runInformers (targetNamespace appID : String) (informers : List StatusInformer) (now : Int)
    (received : List (ResourceState × Int)) : List AppStatus :=
  runLoop sort (resetStatus sort appID (normalizeStatusInformers informers targetNamespace) now)
    received

end

/-! ## Exact states -/

/-- The last state received for a key. -/
def lastState (received : List ResourceState) (key : Key) : State :=
  match received.reverse.find? fun r => r.key = key with
  | some r => r.state
  | none => .missing

/-- There is one state for each informer, and it is the last one received. -/
structure Exact (informers : List StatusInformer) (received : List ResourceState)
    (resourceStates : List ResourceState) : Prop where
  keys : (resourceStates.map ResourceState.key).Perm (informers.map StatusInformer.key)
  state : ∀ r ∈ resourceStates, r.state = lastState received r.key

section

variable {sort : Reorder ResourceState} {informers : List StatusInformer}
  {received received' resourceStates resourceStates' : List ResourceState}

theorem lastState_concat (resourceState : ResourceState) (key : Key) :
    lastState (received ++ [resourceState]) key =
      if resourceState.key = key then resourceState.state else lastState received key := by
  unfold lastState
  rw [List.reverse_concat, List.find?_cons]
  by_cases hkey : resourceState.key = key
  · rw [decide_eq_true hkey, if_pos hkey]
  · rw [decide_eq_false hkey, if_neg hkey]

/-- Only the states received for the key matter. -/
theorem lastState_filter (key : Key) :
    lastState (received.filter fun r => r.key = key) key = lastState received key := by
  unfold lastState
  rw [← List.filter_reverse, List.find?_filter]
  simp

/-- An entry whose key is the one received holds the received state afterwards. -/
theorem changes_cases (resourceState r : ResourceState) :
    (if changes resourceState r then resourceState else r) =
      if resourceState.key = r.key then { r with state := resourceState.state } else r := by
  obtain ⟨kind, name, ns, state⟩ := resourceState
  obtain ⟨kind', name', ns', state'⟩ := r
  unfold changes ResourceState.key
  by_cases hkind : kind = kind' <;> by_cases hns : ns = ns' <;> by_cases hname : name = name' <;>
    by_cases hstate : state = state' <;> simp [hkind, hns, hname, hstate]

theorem exact_build :
    Exact informers [] (buildResourceStatesFromStatusInformers sort informers) where
  keys := by
    have hperm := sort.map_perm ResourceState.key
      (informers.map fun i => (⟨i.kind, i.name, i.ns, .missing⟩ : ResourceState))
    rw [List.map_map] at hperm
    exact hperm
  state r hr := by
    rw [buildResourceStatesFromStatusInformers, Reorder.mem_apply, List.mem_map] at hr
    obtain ⟨informer, -, rfl⟩ := hr
    rfl

/-- **The step.**  A received state goes to the entries of its key. -/
theorem Exact.receive (h : Exact informers received resourceStates)
    (resourceState : ResourceState) : Exact informers (received ++ [resourceState])
      (resourceStatesApplyNew sort resourceStates resourceState).1 where
  keys := by
    -- neither the replacement nor the sort changes the keys
    refine (sort.map_perm ResourceState.key _).trans ?_
    have hkeys : (resourceStates.map fun r =>
        if changes resourceState r then resourceState else r).map ResourceState.key =
        resourceStates.map ResourceState.key := by
      rw [List.map_map]
      apply List.map_congr_left
      intro r _
      rw [Function.comp_apply, changes_cases]
      split <;> rfl
    rw [hkeys]
    exact h.keys
  state r hr := by
    rw [resourceStatesApplyNew, Reorder.mem_apply, List.mem_map] at hr
    obtain ⟨old, hold, rfl⟩ := hr
    rw [changes_cases]
    by_cases hkey : resourceState.key = old.key
    · rw [if_pos hkey, lastState_concat]
      exact (if_pos hkey).symm
    · rw [if_neg hkey, lastState_concat, if_neg hkey]
      exact h.state old hold

/-- The entry of a key. -/
def entry (received : List ResourceState) (key : Key) : ResourceState :=
  ⟨key.1, key.2.2, key.2.1, lastState received key⟩

/-- Only the order is open. -/
theorem Exact.perm_entries (h : Exact informers received resourceStates) :
    resourceStates.Perm (informers.map fun informer => entry received informer.key) := by
  -- an exact entry is known by its key
  have hself : (resourceStates.map ResourceState.key).map (entry received) = resourceStates := by
    rw [List.map_map]
    refine (List.map_congr_left fun r hr => ?_).trans (List.map_id _)
    change ResourceState.mk r.kind r.name r.ns (lastState received r.key) = r
    rw [← h.state r hr]
  have hmapped := h.keys.map (entry received)
  rw [hself, List.map_map] at hmapped
  exact hmapped

/-- States received for keys without an informer, and the order between different keys, do not
matter. -/
theorem Exact.perm (h : Exact informers received resourceStates)
    (h' : Exact informers received' resourceStates')
    (hsame : ∀ informer ∈ informers, (received.filter fun r => r.key = informer.key) =
      received'.filter fun r => r.key = informer.key) :
    resourceStates.Perm resourceStates' := by
  have hentries : (informers.map fun informer => entry received informer.key) =
      informers.map fun informer => entry received' informer.key := by
    apply List.map_congr_left
    intro informer hinformer
    unfold entry
    rw [← lastState_filter, hsame informer hinformer, lastState_filter]
  have hperm := h.perm_entries
  rw [hentries] at hperm
  exact hperm.trans h'.perm_entries.symm

/-- Whatever the loop has sent after a part of the states is exact for them. -/
theorem exact_runLoop {status : AppStatus} {before : List ResourceState}
    (h : Exact informers before status.resourceStates)
    (received later : List (ResourceState × Int)) :
    ∃ sent, (runLoop sort status (received ++ later))[received.length]? = some sent ∧
      sent.appID = status.appID ∧
      Exact informers (before ++ received.map Prod.fst) sent.resourceStates := by
  induction received generalizing status before with
  | nil =>
    refine ⟨status, ?_, rfl, ?_⟩
    · cases later <;> rfl
    · rw [List.map_nil, List.append_nil]
      exact h
  | cons next received ih =>
    obtain ⟨resourceState, now⟩ := next
    -- the loop goes on with the status of the step
    have hnext : Exact informers (before ++ [resourceState])
        (status.receive sort resourceState now).resourceStates := h.receive resourceState
    obtain ⟨sent, hsent, happ, hexact⟩ := ih hnext
    refine ⟨sent, hsent, happ, ?_⟩
    rw [List.map_cons, List.append_cons]
    exact hexact

end

theorem length_runLoop (sort : Reorder ResourceState) (status : AppStatus)
    (received : List (ResourceState × Int)) :
    (runLoop sort status received).length = received.length + 1 := by
  induction received generalizing status with
  | nil => rfl
  | cons next received ih =>
    rw [runLoop, List.length_cons, ih, List.length_cons]

/-- **Status tracking is exact.**  A status is sent at the start and after each received state.  The
one after the first `received` of them has one entry for each informer, with the last state
received for its key; and it has the same entries as a status that was sent after the same states
for each of the keys. -/
theorem tracks_exactly (sort : Reorder ResourceState) (targetNamespace appID : String)
    (informers : List StatusInformer) (now : Int) (received later : List (ResourceState × Int)) :
    let normalized := normalizeStatusInformers informers targetNamespace
    let sent := runInformers sort targetNamespace appID informers now
    (sent (received ++ later)).length = received.length + later.length + 1 ∧
    ∃ status, (sent (received ++ later))[received.length]? = some status ∧ status.appID = appID ∧
      Exact normalized (received.map Prod.fst) status.resourceStates ∧
      ∀ received' later' status', (sent (received' ++ later'))[received'.length]? = some status' →
        (∀ informer ∈ normalized,
          ((received.map Prod.fst).filter fun r => r.key = informer.key) =
            (received'.map Prod.fst).filter fun r => r.key = informer.key) →
        status.resourceStates.Perm status'.resourceStates := by
  intro normalized sent
  have hbuild : Exact normalized [] (resetStatus sort appID normalized now).resourceStates :=
    exact_build
  obtain ⟨status, hstatus, happ, hstates⟩ := exact_runLoop hbuild received later
  refine ⟨?_, status, hstatus, happ, hstates, ?_⟩
  · rw [← List.length_append]
    exact length_runLoop sort _ _
  · intro received' later' status' hstatus' hsame
    obtain ⟨other, hother, -, hstates'⟩ := exact_runLoop hbuild received' later'
    cases hother.symm.trans hstatus'
    exact hstates.perm hstates' hsame

end Kotsadm.AppState
