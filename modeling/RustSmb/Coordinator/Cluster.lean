import RustSmb.Coordinator.State
import RustSmb.Lib.Schedule
import RustSmb.State.Store

/-!
# The coordinator service and its clients

The coordinator service keeps its state under a lock and tells epoch changes and server failures to
subscribers.  Each server of the cluster has a client: it registers, sends heartbeats, follows the
stream of epoch changes and passes epochs on to local subscribers, among them the failure listener
that cleans up after failed servers.

The tasks of the service and of the clients interleave.  A critical section of the service, or an
access to a channel or an atomic variable, is one call.  A subscriber has a queue of its own, which
keeps the order and does not overflow.

## Main definitions

* `CoordOp`, `Cluster` — the calls.
* `Service.registerServer`, `Service.heartbeat`, `Service.leaveCluster`,
  `Service.incrementEpoch`, `Service.heartbeatMonitor` — the service.
* `Client.registerServer`, `Client.heartbeat`, `Client.handleEpochChange` and its companions —
  the client, and `Client.handleServerFailure`, the failure listener of its server.
* `World.answer` — the answers to the calls.
* `clusterMachine` — the system of tasks.

Source: `rustsmb-coordinator/src/service.rs`, `rustsmb-coordinator-client/src/client.rs`,
`rustsmb-server/src/coordination.rs`.
-/

namespace RustSmb.Coordinator

/-! ### Calls -/

/-- The news that the epoch has changed. -/
structure EpochChangeEvent where
  newEpoch : UInt64
  reason : String
  timestamp : UInt64
  deriving DecidableEq

/-- The news that a server has failed. -/
structure ServerFailureEvent where
  failedServerId : String
  newEpoch : UInt64
  timestamp : UInt64
  deriving DecidableEq

/-- The calls of the service and of the clients.  Clients are numbered. -/
inductive CoordOp where
  -- critical sections of the service
  | registerServer (registration : ServerRegistration)
  | heartbeat (serverId : String) (activeSessions activeHandles : UInt64)
  | unregisterServer (serverId : String)
  | incrementEpoch (reason : String)
  | getEpoch
  | getStaleServers (timeoutSecs : UInt64)
  -- the clock and the channels of the service
  | currentTimestamp
  | sendEpochChange (event : EpochChangeEvent)
  | sendServerFailure (event : ServerFailureEvent)
  | subscribeEpochChanges (j : ℕ)
  | subscribeServerFailures (j : ℕ)
  -- the variables and the channels of a client
  | nextEpochChange (j : ℕ)
  | loadEpoch (j : ℕ)
  | storeEpoch (j : ℕ) (epoch : UInt64)
  | sendEpoch (j : ℕ) (epoch : UInt64)
  | getServerId (j : ℕ)
  | setServerId (j : ℕ) (serverId : Option String)
  | sendFailure (j : ℕ) (serverId : String)
  | nextFailure (j : ℕ)
  -- the shared store
  | deleteLeasesForServer (serverId : String)
  | releaseFileLocksForServer (serverId : String)
  deriving DecidableEq

/-- What a call returns. -/
abbrev CoordOp.Res : CoordOp → Type
  | registerServer _ => UInt64 × ℕ
  | heartbeat _ _ _ => Except String UInt64
  | unregisterServer _ | incrementEpoch _ | getEpoch | currentTimestamp | loadEpoch _ => UInt64
  | getStaleServers _ => List String
  | nextEpochChange _ => EpochChangeEvent
  | getServerId _ => Option String
  | nextFailure _ => String
  | _ => Unit

/-- The calls as a signature. -/
abbrev Cluster : Signature := ⟨CoordOp, CoordOp.Res⟩

/-- The start and the end of an activity. -/
inductive Mark where
  | begin
  | finish
  deriving DecidableEq

/-- The calls with marks. -/
abbrev ClusterT : Signature := Cluster.withMarks Mark

/-- A task; its errors are texts. -/
abbrev Coord (α : Type) : Type := Proc Cluster Unit String α

/-! ### The service -/

namespace Service

open Proc

/-- Register a server: the current epoch and the size of the cluster. -/
def registerServer (registration : ServerRegistration) : Coord (UInt64 × ℕ) :=
  perform (S := Cluster) (.registerServer { registration with raftAddr := "" })

/-- The service notes a heartbeat and returns its epoch. -/
def heartbeat (serverId : String) (activeSessions activeHandles : UInt64) : Coord UInt64 := do
  let epoch ← perform (S := Cluster) (.heartbeat serverId activeSessions activeHandles)
  ofExcept epoch

/-- The service removes a server and sends the new epoch. -/
def leaveCluster (serverId : String) : Coord Unit := do
  let newEpoch ← perform (S := Cluster) (.unregisterServer serverId)
  let timestamp ← perform (S := Cluster) .currentTimestamp
  perform (S := Cluster) (.sendEpochChange ⟨newEpoch, "server_leave:" ++ serverId, timestamp⟩)

/-- The epoch of the service. -/
def getEpoch : Coord UInt64 := perform (S := Cluster) .getEpoch

/-- The service goes to the next epoch and sends it. -/
def incrementEpoch (reason : String) : Coord UInt64 := do
  let newEpoch ← perform (S := Cluster) (.incrementEpoch reason)
  let timestamp ← perform (S := Cluster) .currentTimestamp
  perform (S := Cluster) (.sendEpochChange ⟨newEpoch, reason, timestamp⟩)
  pure newEpoch

/-- A server that was found stale is removed and its failure is told. -/
def handleStale (serverId : String) : Coord Unit := do
  let newEpoch ← perform (S := Cluster) (.unregisterServer serverId)
  let timestamp ← perform (S := Cluster) .currentTimestamp
  perform (S := Cluster) (.sendServerFailure ⟨serverId, newEpoch, timestamp⟩)
  let timestamp ← perform (S := Cluster) .currentTimestamp
  perform (S := Cluster) (.sendEpochChange ⟨newEpoch, "server_failure:" ++ serverId, timestamp⟩)

/-- One round of the heartbeat monitor.  The lock is released between finding the stale servers
and removing each. -/
def heartbeatMonitor (timeoutSecs : UInt64) : Coord Unit := do
  let stale ← perform (S := Cluster) (.getStaleServers timeoutSecs)
  forEach handleStale stale

end Service

/-! ### The client -/

namespace Client

open Proc

variable (j : ℕ)

/-- A client registers and stores the epoch. -/
def registerServer (registration : ServerRegistration) : Coord Unit := do
  let response ← Service.registerServer registration
  perform (S := Cluster) (.setServerId j (some registration.serverId))
  perform (S := Cluster) (.storeEpoch j response.1)

/-- Send a heartbeat.  An epoch that differs from the one that is kept is passed on. -/
def heartbeat (serverId : String) : Coord Unit := do
  let epoch ← Service.heartbeat serverId 0 0
  let current ← perform (S := Cluster) (.loadEpoch j)
  Proc.when (epoch != current) do
    perform (S := Cluster) (.storeEpoch j epoch)
    perform (S := Cluster) (.sendEpoch j epoch)

/-- A client leaves the cluster. -/
def leaveCluster : Coord Unit := do
  let serverId ← perform (S := Cluster) (.getServerId j)
  match serverId with
  | none => throw "Not registered"
  | some serverId =>
      Service.leaveCluster serverId
      perform (S := Cluster) (.setServerId j none)

/-- The stored epoch, or that of the service if there is none. -/
def getEpoch : Coord UInt64 := do
  let cached ← perform (S := Cluster) (.loadEpoch j)
  if cached > 0 then pure cached
  else do
    let epoch ← Service.getEpoch
    perform (S := Cluster) (.storeEpoch j epoch)
    pure epoch

/-- A client increments the epoch by hand. -/
def incrementEpoch : Coord UInt64 := do
  let newEpoch ← Service.incrementEpoch "manual"
  perform (S := Cluster) (.storeEpoch j newEpoch)
  perform (S := Cluster) (.sendEpoch j newEpoch)
  pure newEpoch

/-- A client asks for the changes of the epoch. -/
def subscribe : Coord Unit := perform (S := Cluster) (.subscribeEpochChanges j)

/-- A client handles the next change of the epoch. -/
def handleEpochChange : Coord Unit := do
  let event ← perform (S := Cluster) (.nextEpochChange j)
  perform (S := Cluster) (.storeEpoch j event.newEpoch)
  perform (S := Cluster) (.sendEpoch j event.newEpoch)

/-- A client cleans up after a failed server. -/
def handleServerFailure : Coord Unit := do
  let failed ← perform (S := Cluster) (.nextFailure j)
  perform (S := Cluster) (.deleteLeasesForServer failed)
  perform (S := Cluster) (.releaseFileLocksForServer failed)

end Client

/-! ### The world -/

/-- What a client keeps, and what is on its way to it. -/
structure ClientState where
  serverId : Option String := none
  cachedEpoch : UInt64 := 0
  /-- The stream of epoch changes, once there is one: what waits in it. -/
  epochStream : Option (List EpochChangeEvent) := none
  /-- The stream of server failures, once there is one. -/
  failureStream : Option (List ServerFailureEvent) := none
  /-- What was sent to the local subscribers, the newest first. -/
  epochsSent : List UInt64 := []
  /-- What waits for the failure listener. -/
  failures : List String := []

/-- The state of the service, its clients and their common store. -/
structure World where
  state : CoordinationState
  clock : UInt64
  clients : ℕ → ClientState
  store : MemoryStateStore

namespace World

variable (w : World)

/-- The world with another state of a client. -/
def setClient (j : ℕ) (c : ClientState) : World :=
  { w with clients := Function.update w.clients j c }

@[simp] theorem setClient_clients_self (j : ℕ) (c : ClientState) :
    (w.setClient j c).clients j = c := by
  simp [setClient]

theorem setClient_clients_ne {j k : ℕ} (hk : k ≠ j) (c : ClientState) :
    (w.setClient j c).clients k = w.clients k := by
  simp [setClient, hk]

theorem frame_setClient {γ : Type} {f : ClientState → γ} {w : World} {j : ℕ} {c : ClientState}
    (h : f c = f (w.clients j)) (k : ℕ) : f ((w.setClient j c).clients k) = f (w.clients k) := by
  by_cases hk : k = j
  · rw [hk, setClient_clients_self, h]
  · rw [setClient_clients_ne w hk]

/-- A request to the state of the service, at the present time. -/
def applied (request : CoordRequest) : CoordResponse × World :=
  let r := w.state.apply w.clock request
  (r.1, { w with state := r.2 })

/-- The epoch that a response carries. -/
def epochOf : CoordResponse → UInt64
  | .epoch e => e
  | _ => w.state.cacheEpoch

/-- The answer to a call.  To wait for a message takes a message. -/
def answer : (o : CoordOp) → Option (o.Res × World)
  | .registerServer registration =>
      let r := w.applied (.registerServer registration)
      some ((r.2.epochOf r.1, r.2.state.servers.entries.length), r.2)
  | .heartbeat serverId activeSessions activeHandles =>
      let r := w.applied (.updateHeartbeat serverId w.clock activeSessions activeHandles)
      match r.1 with
      | .error message => some (.error message, r.2)
      | _ => some (.ok r.2.state.cacheEpoch, r.2)
  | .unregisterServer serverId =>
      let r := w.applied (.unregisterServer serverId)
      some (r.2.epochOf r.1, r.2)
  | .incrementEpoch reason =>
      let r := w.applied (.incrementEpoch reason)
      some (r.2.epochOf r.1, r.2)
  | .getEpoch => some (w.state.cacheEpoch, w)
  | .getStaleServers timeoutSecs => some (w.state.getStaleServers w.clock timeoutSecs, w)
  | .currentTimestamp => some (w.clock, w)
  | .sendEpochChange event =>
      some ((), { w with clients := fun j =>
        { w.clients j with epochStream := (w.clients j).epochStream.map (· ++ [event]) } })
  | .sendServerFailure event =>
      some ((), { w with clients := fun j =>
        { w.clients j with failureStream := (w.clients j).failureStream.map (· ++ [event]) } })
  | .subscribeEpochChanges j => some ((), w.setClient j { w.clients j with epochStream := some [] })
  | .subscribeServerFailures j =>
      some ((), w.setClient j { w.clients j with failureStream := some [] })
  | .nextEpochChange j =>
      match (w.clients j).epochStream with
      | some (event :: rest) =>
          some (event, w.setClient j { w.clients j with epochStream := some rest })
      | _ => none
  | .loadEpoch j => some ((w.clients j).cachedEpoch, w)
  | .storeEpoch j epoch => some ((), w.setClient j { w.clients j with cachedEpoch := epoch })
  | .sendEpoch j epoch =>
      some ((), w.setClient j
        { w.clients j with epochsSent := epoch :: (w.clients j).epochsSent })
  | .getServerId j => some ((w.clients j).serverId, w)
  | .setServerId j serverId => some ((), w.setClient j { w.clients j with serverId := serverId })
  | .sendFailure j serverId =>
      some ((), w.setClient j
        { w.clients j with failures := (w.clients j).failures ++ [serverId] })
  | .nextFailure j =>
      match (w.clients j).failures with
      | serverId :: rest => some (serverId, w.setClient j { w.clients j with failures := rest })
      | [] => none
  | .deleteLeasesForServer serverId =>
      some ((), { w with store :=
        (MemoryStateStore.answer w.clock (.deleteLeasesForServer serverId) w.store).2 })
  | .releaseFileLocksForServer serverId =>
      some ((), { w with store :=
        (MemoryStateStore.answer w.clock (.releaseFileLocksForServer serverId) w.store).2 })

/-- What a call or a mark returns. -/
def answerMarks : (o : CoordOp ⊕ Mark) → Option (ClusterT.Res o × World)
  | .inl o => w.answer o
  | .inr _ => some ((), w)

end World

/-! ### The system -/

/-- The tasks: the monitor, for each client the subscription and the failure listener, and any
number of others. -/
inductive Actor where
  | monitor
  | subscription (j : ℕ)
  | listener (j : ℕ)
  | task (k : ℕ)
  deriving DecidableEq

/-- What an actor can do. -/
inductive Activity where
  | heartbeatMonitor
  | subscribe
  | handleEpochChange
  | handleServerFailure
  | registerServer (j : ℕ) (registration : ServerRegistration)
  | heartbeat (j : ℕ) (serverId : String)
  | leaveCluster (j : ℕ)
  | getEpoch (j : ℕ)
  | incrementEpoch (j : ℕ)

/-- A task between its marks; afterwards `s` is kept, whatever the outcome. -/
def marked {α : Type} (s : Bool) (x : Coord α) : Prog ClusterT Bool :=
  ((Proc.mark .begin >>= fun _ => Proc.attempt (Proc.lift x) >>= fun _ =>
    (Proc.mark .finish : Proc ClusterT Unit String Unit)) ()).bind fun _ => .ret s

/-- The programs of the tasks.  The state of a subscription says whether it has begun. -/
def program (timeoutSecs : UInt64) : Actor → Bool → Activity → Option (Prog ClusterT Bool)
  | .monitor, s, .heartbeatMonitor => some (marked s (Service.heartbeatMonitor timeoutSecs))
  | .subscription j, false, .subscribe => some (marked true (Client.subscribe j))
  | .subscription j, true, .handleEpochChange => some (marked true (Client.handleEpochChange j))
  | .listener j, s, .handleServerFailure => some (marked s (Client.handleServerFailure j))
  | .task _, s, .registerServer j registration =>
      some (marked s (Client.registerServer j registration))
  | .task _, s, .heartbeat j serverId => some (marked s (Client.heartbeat j serverId))
  | .task _, s, .leaveCluster j => some (marked s (Client.leaveCluster j))
  | .task _, s, .getEpoch j => some (marked s (Client.getEpoch j))
  | .task _, s, .incrementEpoch j => some (marked s (Client.incrementEpoch j))
  | _, _, _ => none

/-- What happens besides: the clock changes, and the servers use the store. -/
inductive EnvStep (w : World) : World → Prop where
  | clock (t : UInt64) : EnvStep w { w with clock := t }
  | store (st : MemoryStateStore) : EnvStep w { w with store := st }

/-- The actors of the cluster. -/
abbrev clusterMachine (timeoutSecs : UInt64) : Machine ClusterT where
  World := World
  Actor := Actor
  Local := Bool
  start i s p := ∃ activity, program timeoutSecs i s activity = some p
  exec w o r w' := w.answerMarks o = some (r, w')
  env := EnvStep

instance (timeoutSecs : UInt64) : DecidableEq (clusterMachine timeoutSecs).Actor :=
  inferInstanceAs (DecidableEq Actor)

/-- A run starts with an empty state and fresh clients. -/
structure ClusterInit {timeoutSecs : UInt64} (c : (clusterMachine timeoutSecs).Config) : Prop where
  idle : ∀ i, c.phase i = .idle false
  state : c.world.state = .new
  clients : ∀ j, c.world.clients j = {}

variable {timeoutSecs : UInt64}

/-- The trace of a run, the newest call first. -/
abbrev ClusterTrace (timeoutSecs : UInt64) := List (Actor × (clusterMachine timeoutSecs).Stamped)

/-- The runs of the cluster. -/
abbrev ClusterRun : (clusterMachine timeoutSecs).Config → ClusterTrace timeoutSecs → Prop :=
  Machine.Run ClusterInit

/-- What happens to the world by itself. -/
inductive Change where
  | clock (t : UInt64)
  | store (st : MemoryStateStore)

/-- Runs of the cluster, move by move. -/
def player (timeoutSecs : UInt64) : Machine.Player (clusterMachine timeoutSecs) where
  Task := Activity
  program := program timeoutSecs
  start_of_program := fun h => ⟨_, h⟩
  answer o w := w.answerMarks o
  exec_of_answer := fun h => h
  Change := Change
  change
    | .clock t, w => { w with clock := t }
    | .store st, w => { w with store := st }
  env_change := by
    rintro (t | st) w
    · exact .clock t
    · exact .store st

/-- Nobody is registered. -/
def start (timeoutSecs : UInt64) (store : MemoryStateStore) :
    (clusterMachine timeoutSecs).Config :=
  ⟨⟨.new, 0, fun _ => {}, store⟩, fun _ => .idle false⟩

theorem run_start (timeoutSecs : UInt64) (store : MemoryStateStore) :
    ClusterRun (start timeoutSecs store) [] :=
  .init ⟨fun _ => rfl, rfl, fun _ => rfl⟩

end RustSmb.Coordinator
