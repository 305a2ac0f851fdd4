import Kotsadm.Lib.Dictionary
import Kotsadm.Lib.Machine
import Kotsadm.Store.DeleteApp

/-!
# SupportBundleLoop — support bundles that operators are asked for

`supportBundleLoop` of `DeploySocket` runs every second and does not wait for the tick before.  It
goes through the sockets, and for each through the pending support bundles of its cluster.
-/

namespace Kotsadm.SupportBundleLoop

open KotsAppStore DeleteApp

/-- An element of `clusterSocketHistory`. -/
structure ClusterSocket where
  clusterId : ClusterId
  socketId : String
  deriving DecidableEq

/-- An API server. -/
structure Server where
  -- the arrays that `clusterSocketHistory` was; `$onDisconnect` replaces it, `push` does not
  past : List (List ClusterSocket) := []
  clusterSocketHistory : List ClusterSocket := []
  -- the sockets in the rooms of the clusters
  rooms : List ClusterSocket := []

def Server.arrays (server : Server) : List (List ClusterSocket) :=
  server.past ++ [server.clusterSocketHistory]

/-- A tick, with the pending support bundles that are left of those it has listed. -/
inductive Phase
  /-- at the next element of the array -/
  | sockets
  | rows (rest : List PendingSupportbundleRow)
  /-- `getApp` has answered -/
  | found (row : PendingSupportbundleRow) (slug : String) (rest : List PendingSupportbundleRow)
  | clearing (row : PendingSupportbundleRow) (rest : List PendingSupportbundleRow)
  /-- the loop is over, or something was thrown -/
  | ended
  deriving DecidableEq

structure Tick where
  server : Nat
  array : Nat
  index : Nat := 0
  phase : Phase := .sockets

/-- An event "supportbundle" and the sockets in the room. -/
structure Emission where
  row : PendingSupportbundleRow
  slug : String
  recipients : List ClusterSocket

structure State where
  apps : Dictionary AppId String := .empty
  pending : Keyed PendingSupportbundleRow.id := .empty
  servers : List Server := []
  ticks : List Tick := []
  -- by now
  queued : List PendingSupportbundleRow := []
  emitted : List Emission := []

inductive Action
  | createApp (id : AppId) (slug : String)
  | deleteApp (id : AppId)
  /-- `queueSupportBundleCollection` -/
  | queue (row : PendingSupportbundleRow)
  | startServer
  /-- the token is looked up; the socket may be disconnected by then -/
  | onConnection (server : Nat) (socket : ClusterSocket) (connected : Bool)
  | onDisconnect (server : Nat) (socketId : String)
  /-- the interval is over -/
  | tick (server : Nat)
  /-- the query for the next socket is answered -/
  | list (i : Nat) (rows : List PendingSupportbundleRow)
  | step (i : Nat)
  /-- a query fails, or the process ends -/
  | fail (i : Nat)

namespace State

def setTick (s : State) (i : Nat) (t : Tick) : State := { s with ticks := s.ticks.set i t }

def setPhase (s : State) (i : Nat) (t : Tick) (phase : Phase) : State :=
  s.setTick i { t with phase := phase }

/-- The element of the array that the tick goes through. -/
def socket (s : State) (t : Tick) : Option ClusterSocket :=
  (s.servers[t.server]?).bind fun server => (server.arrays[t.array]?).bind fun array => array[t.index]?

/-- The rows of the query, which does not order them. -/
def listPendingSupportBundlesForCluster (s : State) (clusterId : ClusterId) :
    List PendingSupportbundleRow :=
  s.pending.rows.filter fun row => decide (row.clusterId = clusterId)

/-- The sockets in the room of the cluster. -/
def room (s : State) (server : Nat) (clusterId : ClusterId) : List ClusterSocket :=
  ((s.servers[server]?).elim [] Server.rooms).filter fun socket =>
    decide (socket.clusterId = clusterId)

def emit (s : State) (row : PendingSupportbundleRow) (slug : String)
    (recipients : List ClusterSocket) : State :=
  { s with emitted := s.emitted ++ [{ row := row, slug := slug, recipients := recipients }] }

def clearPendingSupportBundle (s : State) (id : String) : State :=
  { s with pending := s.pending.deleteWhere fun row => decide (row.id = id) }

def stepTick (s : State) (i : Nat) (t : Tick) : Option State :=
  match t.phase with
  | .sockets =>
    match s.socket t with
    | none => some (s.setPhase i t .ended)
    | some _ => none
  | .rows [] => some (s.setTick i { t with index := t.index + 1, phase := .sockets })
  | .rows (row :: rest) =>
    match s.apps.get row.appId with
    -- `getApp` throws, and nobody catches it
    | none => some (s.setPhase i t .ended)
    | some slug => some (s.setPhase i t (.found row slug rest))
  | .found row slug rest =>
    -- the cluster of the row is that of the socket
    some ((s.emit row slug (s.room t.server row.clusterId)).setPhase i t (.clearing row rest))
  | .clearing row rest => some ((s.clearPendingSupportBundle row.id).setPhase i t (.rows rest))
  | .ended => none

def list (s : State) (i : Nat) (rows : List PendingSupportbundleRow) (t : Tick) : Option State :=
  match t.phase with
  | .sockets =>
    (s.socket t).bind fun socket =>
      if rows.Perm (s.listPendingSupportBundlesForCluster socket.clusterId) then
        some (s.setPhase i t (.rows rows))
      else none
  | _ => none

def fail (s : State) (i : Nat) (t : Tick) : Option State :=
  match t.phase with
  | .ended => none
  | _ => some (s.setPhase i t .ended)

def step (s : State) : Action → Option State
  | .createApp id slug =>
    match s.apps.get id with
    | some _ => none
    | none => some { s with apps := s.apps.set id slug }
  | .deleteApp id => some { s with apps := s.apps.remove id }
  | .queue row =>
    (s.pending.insert? row).map fun pending =>
      { s with pending := pending, queued := s.queued ++ [row] }
  | .startServer => some { s with servers := s.servers ++ [{}] }
  | .onConnection server socket connected =>
    (s.servers[server]?).map fun sv =>
      { s with
        servers := s.servers.set server
          { sv with
            clusterSocketHistory := sv.clusterSocketHistory ++ [socket]
            rooms := if connected then sv.rooms ++ [socket] else sv.rooms } }
  | .onDisconnect server socketId =>
    (s.servers[server]?).map fun sv =>
      { s with
        servers := s.servers.set server
          { past := sv.arrays
            clusterSocketHistory := sv.clusterSocketHistory.filter fun socket =>
              decide (socket.socketId ≠ socketId)
            rooms := sv.rooms.filter fun socket => decide (socket.socketId ≠ socketId) } }
  | .tick server =>
    (s.servers[server]?).map fun sv =>
      { s with ticks := s.ticks ++ [{ server := server, array := sv.past.length }] }
  | .list i rows => (s.ticks[i]?).bind (s.list i rows)
  | .step i => (s.ticks[i]?).bind (s.stepTick i)
  | .fail i => (s.ticks[i]?).bind (s.fail i)

end State

def loop : Machine State Action := ⟨State.step⟩

def Init (s : State) : Prop := s = {}

/-- A new row has an id that no row had. -/
def Fresh (s : State) : Action → Prop
  | .queue row => ∀ old ∈ s.queued, old.id ≠ row.id
  | _ => True

instance (s : State) (a : Action) : Decidable (Fresh s a) :=
  match a with
  | .queue row => inferInstanceAs (Decidable (∀ old ∈ s.queued, old.id ≠ row.id))
  | .createApp .. | .deleteApp _ | .startServer | .onConnection .. | .onDisconnect .. | .tick _
  | .list .. | .step _ | .fail _ => .isTrue trivial

/-! ## What a step can do -/

/-- What a tick does to the rest of the state, and where it is then. -/
inductive Next (s : State) (t : Tick) : State → Tick → Prop
  | ended (hrunning : t.phase ≠ .ended) (hphase : ∀ row rest, t.phase ≠ .clearing row rest) :
      Next s t s { t with phase := .ended }
  | next (hphase : t.phase = .rows []) :
      Next s t s { t with index := t.index + 1, phase := .sockets }
  | getApp (row : PendingSupportbundleRow) (slug : String) (rest : List PendingSupportbundleRow)
      (hphase : t.phase = .rows (row :: rest)) (happ : s.apps.get row.appId = some slug) :
      Next s t s { t with phase := .found row slug rest }
  | emit (row : PendingSupportbundleRow) (slug : String) (rest : List PendingSupportbundleRow)
      (hphase : t.phase = .found row slug rest) :
      Next s t (s.emit row slug (s.room t.server row.clusterId))
        { t with phase := .clearing row rest }
  | clear (row : PendingSupportbundleRow) (rest : List PendingSupportbundleRow)
      (hphase : t.phase = .clearing row rest) :
      Next s t (s.clearPendingSupportBundle row.id) { t with phase := .rows rest }

/-- The steps outside the ticks, and those of a tick. -/
inductive Steps (s : State) : Action → State → Prop
  | apps (a : Action) (apps : Dictionary AppId String)
      (ha : (∃ id slug, a = .createApp id slug ∧ apps = s.apps.set id slug) ∨
        ∃ id, a = .deleteApp id ∧ apps = s.apps.remove id) : Steps s a { s with apps := apps }
  | queue (row : PendingSupportbundleRow) (pending : Keyed PendingSupportbundleRow.id)
      (hrows : pending.rows = s.pending.rows ++ [row]) :
      Steps s (.queue row) { s with pending := pending, queued := s.queued ++ [row] }
  | servers (a : Action) (servers : List Server) : Steps s a { s with servers := servers }
  | tick (server : Nat) (array : Nat) :
      Steps s (.tick server) { s with ticks := s.ticks ++ [{ server := server, array := array }] }
  | list (i : Nat) (t : Tick) (socket : ClusterSocket) (rows : List PendingSupportbundleRow)
      (ht : s.ticks[i]? = some t) (hphase : t.phase = .sockets)
      (hrows : rows.Perm (s.listPendingSupportBundlesForCluster socket.clusterId)) :
      Steps s (.list i rows) (s.setTick i { t with phase := .rows rows })
  | run (i : Nat) (t t' : Tick) (s' : State) (ht : s.ticks[i]? = some t) (hnext : Next s t s' t') :
      Steps s (.step i) (s'.setTick i t')
  | fail (i : Nat) (t : Tick) (ht : s.ticks[i]? = some t) (hrunning : t.phase ≠ .ended) :
      Steps s (.fail i) (s.setTick i { t with phase := .ended })

namespace State

variable {s s' : State}

theorem next_of_stepTick {i : Nat} {t : Tick} (h : s.stepTick i t = some s') :
    ∃ u t', Next s t u t' ∧ s' = u.setTick i t' := by
  unfold stepTick at h
  cases hphase : t.phase with
  | sockets =>
    rw [hphase] at h
    dsimp only at h
    split at h
    next =>
      cases h
      exact ⟨_, _, .ended (fun heq => by cases hphase.symm.trans heq)
        (fun row rest heq => by cases hphase.symm.trans heq), rfl⟩
    next => cases h
  | rows rest =>
    rw [hphase] at h
    cases rest with
    | nil =>
      cases h
      exact ⟨_, _, .next hphase, rfl⟩
    | cons row rest =>
      dsimp only at h
      split at h
      next =>
        cases h
        exact ⟨_, _, .ended (fun heq => by cases hphase.symm.trans heq)
        (fun row rest heq => by cases hphase.symm.trans heq), rfl⟩
      next slug happ =>
        cases h
        exact ⟨_, _, .getApp row slug rest hphase happ, rfl⟩
  | found row slug rest =>
    rw [hphase] at h
    cases h
    exact ⟨_, _, .emit row slug rest hphase, rfl⟩
  | clearing row rest =>
    rw [hphase] at h
    cases h
    exact ⟨_, _, .clear row rest hphase, rfl⟩
  | ended =>
    rw [hphase] at h
    cases h

theorem steps_of_step {a : Action} (h : loop.step s a = some s') : Steps s a s' := by
  cases a with
  | createApp id slug =>
    unfold loop step at h
    dsimp only at h
    split at h
    · cases h
    · cases h
      exact .apps _ _ (.inl ⟨id, slug, rfl, rfl⟩)
  | deleteApp id =>
    cases h
    exact .apps _ _ (.inr ⟨id, rfl, rfl⟩)
  | queue row =>
    obtain ⟨pending, hinsert, rfl⟩ := Option.map_eq_some_iff.mp h
    exact .queue row pending (Keyed.insert?_eq_some hinsert).1
  | startServer =>
    cases h
    exact .servers _ _
  | onConnection server socket connected =>
    obtain ⟨sv, -, rfl⟩ := Option.map_eq_some_iff.mp h
    exact .servers _ _
  | onDisconnect server socketId =>
    obtain ⟨sv, -, rfl⟩ := Option.map_eq_some_iff.mp h
    exact .servers _ _
  | tick server =>
    obtain ⟨sv, -, rfl⟩ := Option.map_eq_some_iff.mp h
    exact .tick server _
  | list i rows =>
    obtain ⟨t, ht, h⟩ := Option.bind_eq_some_iff.mp h
    unfold State.list at h
    split at h
    next hphase =>
      obtain ⟨socket, -, h⟩ := Option.bind_eq_some_iff.mp h
      split at h
      next hrows =>
        cases h
        exact .list i t socket rows ht hphase hrows
      next => cases h
    next => cases h
  | step i =>
    obtain ⟨t, ht, h⟩ := Option.bind_eq_some_iff.mp h
    obtain ⟨u, t', hnext, rfl⟩ := next_of_stepTick h
    exact .run i t t' u ht hnext
  | fail i =>
    obtain ⟨t, ht, h⟩ := Option.bind_eq_some_iff.mp h
    unfold fail at h
    split at h
    next => cases h
    next hrunning =>
      cases h
      exact .fail i t ht hrunning

end State

end Kotsadm.SupportBundleLoop
