import Kotsadm.Lib.Machine

/-!
# ServerStart — what an API server ensures before it listens

There has to be a cluster with the token of the environment, and the shared password has to be that of
the local user.  Any number of servers start, fail and start again at a time.
-/

namespace Kotsadm.ServerStart

/-- A row of `cluster`; the id is its key, and no two rows have one token. -/
structure Cluster where
  id : String
  title : String
  slug : String
  clusterType : String
  isAllUsers : Bool
  token : String
  deriving DecidableEq

/-- The row of `ship_user_local` whose email is "default-user@none.com". -/
structure LocalUser where
  userId : String
  passwordBcrypt : String
  deriving DecidableEq

def thisCluster : String := "this-cluster"

/-- What `maybeGetClusterWithTypeNameAndToken` looks for. -/
def Cluster.Local (c : Cluster) : Prop := c.clusterType = "ship" ∧ c.title = thisCluster

instance (c : Cluster) : Decidable c.Local := inferInstanceAs (Decidable (_ ∧ _))

/-- The row of `createNewShipCluster`. -/
def newShipCluster (id slug token : String) : Cluster where
  id := id
  title := thisCluster
  slug := slug
  clusterType := "ship"
  isAllUsers := true
  token := token

/-- `slugify` leaves the title as it is. -/
def slugProposal (i : Nat) : String :=
  if i > 0 then thisCluster ++ "-" ++ toString i else thisCluster

inductive Phase
  /-- in `maybeGetClusterWithTypeNameAndToken` -/
  | looking
  /-- in the loop of `createNewShipCluster` -/
  | slugging (i : Nat)
  | creating (slug : String)
  /-- the transaction is open -/
  | inserted (row : Cluster)
  /-- in `getCluster` -/
  | getting (id : String)
  /-- at `createAdminConsolePassword` -/
  | provisioning
  /-- there is a local user, or none was found and a user is inserted -/
  | selected (found : Bool)
  /-- the transaction is open; a user is inserted where there was none -/
  | written (newUser : Option String) (userId : String)
  | started
  | failed
  deriving DecidableEq

/-- A server with its environment. -/
structure Start where
  token : String
  sharedPasswordBcrypt : Option String
  -- the cluster that it has got
  clusterId : Option String := none
  phase : Phase := .looking

/-- What is committed, and the servers. -/
structure State where
  clusters : List Cluster := []
  shipUsers : List String := []
  localUser : Option LocalUser := none
  starts : List Start := []
  -- the passwords that were committed
  provisioned : List String := []

inductive Action
  | begin (token : String) (sharedPasswordBcrypt : Option String)
  | step (i : Nat)
  /-- the insert of the cluster, with a random id -/
  | insert (i : Nat) (id : String)
  /-- the insert of the local user, with a random id -/
  | upsert (i : Nat) (id : String)
  /-- a query fails, and the transaction is rolled back -/
  | fail (i : Nat)
  | updateCluster (clusterId clusterName slug : String)
  | deleteCluster (clusterId : String)

namespace State

def setStart (s : State) (i : Nat) (x : Start) : State := { s with starts := s.starts.set i x }

def setPhase (s : State) (i : Nat) (x : Start) (phase : Phase) : State :=
  s.setStart i { x with phase := phase }

def maybeGetCluster (s : State) (token : String) : Option Cluster :=
  s.clusters.find? fun c => decide (c.Local ∧ c.token = token)

def countSlug (s : State) (slug : String) : Nat := s.clusters.countP fun c => decide (c.slug = slug)

end State

/-- A row that the new one is not unique beside. -/
def Cluster.conflicts (id token : String) (c : Cluster) : Bool := c.id = id || c.token = token

/-- The insert waits for the transaction of this one. -/
def Start.blocksInsert (id token : String) (x : Start) : Bool :=
  match x.phase with
  | .inserted row => row.conflicts id token
  | _ => false

def Start.blocksUpsert (x : Start) : Bool :=
  match x.phase with
  | .written _ _ => true
  | _ => false

namespace State

def insert (s : State) (i : Nat) (id : String) (x : Start) : Option State :=
  match x.phase with
  | .creating slug =>
    if s.starts.any (Start.blocksInsert id x.token) then none
    else if s.clusters.any (Cluster.conflicts id x.token) then some (s.setPhase i x .failed)
    else some (s.setPhase i x (.inserted (newShipCluster id slug x.token)))
  | _ => none

/-- "on conflict (email) do update": the password is set at the commit. -/
def upsert (s : State) (i : Nat) (id : String) (x : Start) : Option State :=
  match x.phase with
  | .selected found =>
    if s.starts.any Start.blocksUpsert then none
    else some (s.setPhase i x (.written (if found then none else some id) id))
  | _ => none

def commitUser (s : State) (newUser : Option String) (userId passwordBcrypt : String) : State :=
  { s with
    shipUsers := s.shipUsers ++ newUser.toList
    localUser :=
      match s.localUser with
      | some user => some { user with passwordBcrypt := passwordBcrypt }
      | none => some { userId := userId, passwordBcrypt := passwordBcrypt }
    provisioned := s.provisioned ++ [passwordBcrypt] }

def stepStart (s : State) (i : Nat) (x : Start) : Option State :=
  match x.phase with
  | .looking =>
    match s.maybeGetCluster x.token with
    | some c => some (s.setPhase i x (.getting c.id))
    | none => some (s.setPhase i x (.slugging 0))
  | .slugging k =>
    if s.countSlug (slugProposal k) = 0 then some (s.setPhase i x (.creating (slugProposal k)))
    else some (s.setPhase i x (.slugging (k + 1)))
  | .inserted row =>
    some ({ s with clusters := s.clusters ++ [row] }.setPhase i x (.getting row.id))
  | .getting id =>
    match s.clusters.find? fun c => decide (c.id = id) with
    | some c => some (s.setStart i { x with clusterId := some c.id, phase := .provisioning })
    -- `mapCluster` reads a row that is not there
    | none => some (s.setPhase i x .failed)
  | .provisioning =>
    match x.sharedPasswordBcrypt with
    | some _ => some (s.setPhase i x (.selected s.localUser.isSome))
    | none => some (s.setPhase i x .started)
  | .written newUser userId =>
    some ((s.commitUser newUser userId (x.sharedPasswordBcrypt.getD "")).setPhase i x .started)
  | .creating _ | .selected _ | .started | .failed => none

def fail (s : State) (i : Nat) (x : Start) : Option State :=
  match x.phase with
  | .started | .failed => none
  | _ => some (s.setPhase i x .failed)

def step (s : State) : Action → Option State
  | .begin token sharedPasswordBcrypt =>
    some { s with
      starts := s.starts ++ [{ token := token, sharedPasswordBcrypt := sharedPasswordBcrypt }] }
  | .step i => (s.starts[i]?).bind (s.stepStart i)
  | .insert i id => (s.starts[i]?).bind (s.insert i id)
  | .upsert i id => (s.starts[i]?).bind (s.upsert i id)
  | .fail i => (s.starts[i]?).bind (s.fail i)
  | .updateCluster clusterId clusterName slug =>
    some { s with
      clusters := s.clusters.map fun c =>
        if c.id = clusterId then { c with title := clusterName, slug := slug } else c }
  | .deleteCluster clusterId =>
    some { s with clusters := s.clusters.filter fun c => decide (c.id ≠ clusterId) }

end State

def servers : Machine State Action := ⟨State.step⟩

/-- An empty database, and no server. -/
def Init (s : State) : Prop := s = {}

/-! ## What a step can do -/

/-- What a start does to the rest of the state, and where it is then. -/
inductive Next (s : State) (x : Start) : State → Start → Prop
  | look (c : Cluster) (hphase : x.phase = .looking) (hfound : s.maybeGetCluster x.token = some c) :
      Next s x s { x with phase := .getting c.id }
  | create (hphase : x.phase = .looking) (hfound : s.maybeGetCluster x.token = none) :
      Next s x s { x with phase := .slugging 0 }
  | slug (k : Nat) (phase : Phase) (hphase : x.phase = .slugging k)
      (hnext : phase = .creating (slugProposal k) ∨ phase = .slugging (k + 1)) :
      Next s x s { x with phase := phase }
  | insert (id slug : String) (hphase : x.phase = .creating slug)
      (hblocked : ∀ y ∈ s.starts, y.blocksInsert id x.token = false)
      (hfree : ∀ c ∈ s.clusters, c.conflicts id x.token = false) :
      Next s x s { x with phase := .inserted (newShipCluster id slug x.token) }
  | commit (row : Cluster) (hphase : x.phase = .inserted row) :
      Next s x { s with clusters := s.clusters ++ [row] } { x with phase := .getting row.id }
  | get (c : Cluster) (id : String) (hphase : x.phase = .getting id) (hmem : c ∈ s.clusters)
      (hid : c.id = id) : Next s x s { x with clusterId := some id, phase := .provisioning }
  | select (hphase : x.phase = .provisioning) :
      Next s x s { x with phase := .selected s.localUser.isSome }
  | skip (hphase : x.phase = .provisioning) : Next s x s { x with phase := .started }
  | upsert (found : Bool) (id : String) (hphase : x.phase = .selected found)
      (hblocked : ∀ y ∈ s.starts, y.blocksUpsert = false) :
      Next s x s { x with phase := .written (if found then none else some id) id }
  | commitUser (newUser : Option String) (userId : String)
      (hphase : x.phase = .written newUser userId) :
      Next s x (s.commitUser newUser userId (x.sharedPasswordBcrypt.getD ""))
        { x with phase := .started }
  | fail : Next s x s { x with phase := .failed }

inductive Steps (s : State) : Action → State → Prop
  | begin (token : String) (sharedPasswordBcrypt : Option String) :
      Steps s (.begin token sharedPasswordBcrypt)
        { s with
          starts := s.starts ++ [{ token := token, sharedPasswordBcrypt := sharedPasswordBcrypt }] }
  | run (a : Action) (i : Nat) (x x' : Start) (s' : State) (hx : s.starts[i]? = some x)
      (hnext : Next s x s' x') : Steps s a (s'.setStart i x')
  | update (clusterId clusterName slug : String) :
      Steps s (.updateCluster clusterId clusterName slug)
        { s with
          clusters := s.clusters.map fun c =>
            if c.id = clusterId then { c with title := clusterName, slug := slug } else c }
  | delete (clusterId : String) :
      Steps s (.deleteCluster clusterId)
        { s with clusters := s.clusters.filter fun c => decide (c.id ≠ clusterId) }

namespace State

variable {s s' : State}

theorem next_of_stepStart {i : Nat} {x : Start} (h : s.stepStart i x = some s') :
    ∃ t x', Next s x t x' ∧ s' = t.setStart i x' := by
  unfold stepStart at h
  split at h
  next hphase =>
    split at h
    next c hfound =>
      cases h
      exact ⟨_, _, .look c hphase hfound, rfl⟩
    next hfound =>
      cases h
      exact ⟨_, _, .create hphase hfound, rfl⟩
  next k hphase =>
    split at h
    next =>
      cases h
      exact ⟨_, _, .slug k _ hphase (.inl rfl), rfl⟩
    next =>
      cases h
      exact ⟨_, _, .slug k _ hphase (.inr rfl), rfl⟩
  next row hphase =>
    cases h
    exact ⟨_, _, .commit row hphase, rfl⟩
  next id hphase =>
    split at h
    next c hfind =>
      cases h
      have hid := List.find?_some hfind
      rw [decide_eq_true_eq] at hid
      refine ⟨_, _, .get c id hphase (List.mem_of_find?_eq_some hfind) hid, ?_⟩
      rw [hid]
    next =>
      cases h
      exact ⟨_, _, .fail, rfl⟩
  next hphase =>
    split at h
    next =>
      cases h
      exact ⟨_, _, .select hphase, rfl⟩
    next =>
      cases h
      exact ⟨_, _, .skip hphase, rfl⟩
  next newUser userId hphase =>
    cases h
    exact ⟨_, _, .commitUser newUser userId hphase, rfl⟩
  all_goals cases h

theorem next_of_insert {i : Nat} {id : String} {x : Start} (h : s.insert i id x = some s') :
    ∃ t x', Next s x t x' ∧ s' = t.setStart i x' := by
  unfold insert at h
  split at h
  next slug hphase =>
    split at h
    next => cases h
    next hblocked =>
      split at h
      next =>
        cases h
        exact ⟨_, _, .fail, rfl⟩
      next hfree =>
        cases h
        rw [Bool.not_eq_true, List.any_eq_false] at hblocked hfree
        refine ⟨_, _, .insert id slug hphase (fun y hy => ?_) (fun c hc => ?_), rfl⟩
        · exact Bool.not_eq_true _ ▸ hblocked y hy
        · exact Bool.not_eq_true _ ▸ hfree c hc
  next => cases h

theorem next_of_upsert {i : Nat} {id : String} {x : Start} (h : s.upsert i id x = some s') :
    ∃ t x', Next s x t x' ∧ s' = t.setStart i x' := by
  unfold upsert at h
  split at h
  next found hphase =>
    split at h
    next => cases h
    next hblocked =>
      cases h
      rw [Bool.not_eq_true, List.any_eq_false] at hblocked
      refine ⟨_, _, .upsert found id hphase fun y hy => ?_, rfl⟩
      exact Bool.not_eq_true _ ▸ hblocked y hy
  next => cases h

theorem steps_of_step {a : Action} (h : servers.step s a = some s') : Steps s a s' := by
  cases a with
  | begin token sharedPasswordBcrypt =>
    cases h
    exact .begin token sharedPasswordBcrypt
  | step i =>
    obtain ⟨x, hx, h⟩ := Option.bind_eq_some_iff.mp h
    obtain ⟨t, x', hnext, rfl⟩ := next_of_stepStart h
    exact .run _ i x x' t hx hnext
  | insert i id =>
    obtain ⟨x, hx, h⟩ := Option.bind_eq_some_iff.mp h
    obtain ⟨t, x', hnext, rfl⟩ := next_of_insert h
    exact .run _ i x x' t hx hnext
  | upsert i id =>
    obtain ⟨x, hx, h⟩ := Option.bind_eq_some_iff.mp h
    obtain ⟨t, x', hnext, rfl⟩ := next_of_upsert h
    exact .run _ i x x' t hx hnext
  | fail i =>
    obtain ⟨x, hx, h⟩ := Option.bind_eq_some_iff.mp h
    unfold State.fail at h
    split at h
    next => cases h
    next => cases h
    next =>
      cases h
      exact .run _ i x _ s hx .fail
  | updateCluster clusterId clusterName slug =>
    cases h
    exact .update clusterId clusterName slug
  | deleteCluster clusterId =>
    cases h
    exact .delete clusterId

end State

end Kotsadm.ServerStart
