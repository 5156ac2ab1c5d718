import RustSmb.Lib.Table

/-!
# The state of the coordinator

The coordinator service keeps the servers of the cluster and the cache epoch.  The state changes by
requests, one log of which each replica is meant to apply.  A registration is stamped with the clock
of the replica, so replicas agree only as far as their clocks do.

## Main results

* `replicasAgree_iff` — **replicas agree iff their clocks agree on each registration.**
* `Sample.registration_disagrees` — one registration, two clocks.

Source: `rustsmb-coordinator/src/state.rs`, `rustsmb-state/src/coordination.rs`.
-/

namespace RustSmb

open List

/-- What the coordinator knows of a server. -/
structure ServerRegistration where
  serverId : String
  hostname : String
  port : UInt16
  raftAddr : String
  registeredAt : UInt64
  lastHeartbeat : UInt64
  activeSessions : UInt64
  activeHandles : UInt64
  deriving DecidableEq

namespace Coordinator

/-- The requests. -/
inductive CoordRequest where
  /-- Register a new server. -/
  | registerServer (registration : ServerRegistration)
  /-- Unregister a server, after a failure or when it leaves. -/
  | unregisterServer (serverId : String)
  /-- Update the heartbeat of a server. -/
  | updateHeartbeat (serverId : String) (timestamp activeSessions activeHandles : UInt64)
  /-- Increment the cache epoch. -/
  | incrementEpoch (reason : String)
  deriving DecidableEq

/-- What they are answered with. -/
inductive CoordResponse where
  | ok
  | epoch (epoch : UInt64)
  | error (message : String)
  deriving DecidableEq

/-- The state of the coordinator: the cache epoch and the registered servers. -/
structure CoordinationState where
  cacheEpoch : UInt64
  servers : Table String ServerRegistration
  deriving DecidableEq

namespace CoordinationState

def new : CoordinationState := ⟨1, ∅⟩

/-- Apply a command.  `now` is what the clock of this replica shows. -/
def apply (now : UInt64) (state : CoordinationState) :
    CoordRequest → CoordResponse × CoordinationState
  | .registerServer registration =>
      -- the times in the request are replaced
      let registration := { registration with registeredAt := now, lastHeartbeat := now }
      (.epoch state.cacheEpoch,
        { state with servers := state.servers.insert registration.serverId registration })
  | .unregisterServer serverId =>
      (.epoch (state.cacheEpoch + 1), ⟨state.cacheEpoch + 1, state.servers.erase serverId⟩)
  | .updateHeartbeat serverId timestamp activeSessions activeHandles =>
      match state.servers.lookup serverId with
      | some server =>
          let server := { server with lastHeartbeat := timestamp, activeSessions, activeHandles }
          (.ok, { state with servers := state.servers.insert serverId server })
      | none => (.error ("Server not found: " ++ serverId), state)
  | .incrementEpoch _ =>
      (.epoch (state.cacheEpoch + 1), { state with cacheEpoch := state.cacheEpoch + 1 })

/-- The time before which a heartbeat is too old: `now` less the timeout, or 0. -/
def cutoff (now timeoutSecs : UInt64) : UInt64 :=
  if timeoutSecs ≤ now then now - timeoutSecs else 0

/-- The servers whose last heartbeat is too old. -/
def getStaleServers (state : CoordinationState) (now timeoutSecs : UInt64) : List String :=
  (state.servers.entries.filter fun e => e.2.lastHeartbeat < cutoff now timeoutSecs).map Sigma.fst

/-- A heartbeat is too old when more than the timeout has passed since then. -/
theorem lt_cutoff_iff {t now timeoutSecs : UInt64} :
    t < cutoff now timeoutSecs ↔ t.toNat + timeoutSecs.toNat < now.toNat := by
  unfold cutoff
  split
  · next hle =>
    rw [UInt64.lt_iff_toNat_lt, UInt64.toNat_sub_of_le _ _ hle]
    omega
  · next hle =>
    rw [UInt64.le_iff_toNat_le] at hle
    rw [UInt64.lt_iff_toNat_lt, UInt64.toNat_zero]
    omega

theorem mem_getStaleServers {state : CoordinationState} {now timeoutSecs : UInt64} {id : String} :
    id ∈ state.getStaleServers now timeoutSecs ↔
      ∃ server, state.servers.lookup id = some server ∧
        server.lastHeartbeat.toNat + timeoutSecs.toNat < now.toNat := by
  unfold getStaleServers
  simp only [mem_map, mem_filter, decide_eq_true_eq, lt_cutoff_iff]
  constructor
  · rintro ⟨⟨id, server⟩, ⟨hmem, hold⟩, rfl⟩
    exact ⟨server, AList.mem_lookup_iff.2 hmem, hold⟩
  · rintro ⟨server, hlook, hold⟩
    exact ⟨⟨id, server⟩, ⟨AList.mem_lookup_iff.1 hlook, hold⟩, rfl⟩

/-- Two states have the same epoch and the same servers. -/
def Same (a b : CoordinationState) : Prop :=
  a.cacheEpoch = b.cacheEpoch ∧ ∀ id, a.servers.lookup id = b.servers.lookup id

theorem apply_clock {now now' : UInt64} {request : CoordRequest} (state : CoordinationState)
    (h : ∀ registration, request = .registerServer registration → now = now') :
    state.apply now request = state.apply now' request := by
  cases request with
  | registerServer registration => rw [h registration rfl]
  | unregisterServer _ | updateHeartbeat _ _ _ _ => rfl
  | incrementEpoch reason => rfl

end CoordinationState

open CoordinationState

/-! ### Replicas -/

/-- A replica after a log, from a state and a position.  `clock k` is its clock at entry `k`. -/
def replayFrom (clock : ℕ → UInt64) : ℕ → CoordinationState → List CoordRequest → CoordinationState
  | _, state, [] => state
  | k, state, request :: log => replayFrom clock (k + 1) (state.apply (clock k) request).2 log

/-- The state after a log, from the start. -/
def replay (clock : ℕ → UInt64) (log : List CoordRequest) : CoordinationState :=
  replayFrom clock 0 .new log

theorem replayFrom_append (clock : ℕ → UInt64) (k : ℕ) (state : CoordinationState)
    (log log' : List CoordRequest) :
    replayFrom clock k state (log ++ log') =
      replayFrom clock (k + log.length) (replayFrom clock k state log) log' := by
  induction log generalizing k state with
  | nil => rfl
  | cons request log ih =>
    have hlength : k + (request :: log).length = k + 1 + log.length := by
      rw [length_cons]
      omega
    rw [cons_append, hlength]
    exact ih (k + 1) _

theorem replay_take_succ (clock : ℕ → UInt64) {log : List CoordRequest} {k : ℕ}
    {request : CoordRequest} (hk : log[k]? = some request) :
    replay clock (log.take (k + 1)) = ((replay clock (log.take k)).apply (clock k) request).2 := by
  have hlt : k < log.length := (List.getElem?_eq_some_iff.1 hk).1
  have htake : log.take (k + 1) = log.take k ++ [request] := by
    rw [take_add_one, hk]
    rfl
  have hlength : 0 + (log.take k).length = k := by
    rw [length_take]
    omega
  unfold replay
  rw [htake, replayFrom_append, hlength]
  rfl

/-- Two replicas agree after every beginning of a log: on their states, and so on the stale
servers. -/
def ReplicasAgree (clock clock' : ℕ → UInt64) (log : List CoordRequest) : Prop :=
  ∀ n, (replay clock (log.take n)).Same (replay clock' (log.take n)) ∧
    ∀ now timeoutSecs id,
      id ∈ (replay clock (log.take n)).getStaleServers now timeoutSecs ↔
        id ∈ (replay clock' (log.take n)).getStaleServers now timeoutSecs

theorem replay_take_eq {clock clock' : ℕ → UInt64} {log : List CoordRequest}
    (h : ∀ k registration, log[k]? = some (.registerServer registration) → clock k = clock' k)
    (n : ℕ) : replay clock (log.take n) = replay clock' (log.take n) := by
  induction n with
  | zero => rfl
  | succ n ih =>
    cases hn : log[n]? with
    | none =>
      have hlen : log.length ≤ n := getElem?_eq_none_iff.1 hn
      rw [take_of_length_le hlen] at ih
      rw [take_of_length_le (by omega)]
      exact ih
    | some request =>
      rw [replay_take_succ clock hn, replay_take_succ clock' hn, ih]
      refine congrArg Prod.snd (apply_clock _ ?_)
      rintro registration rfl
      exact h n registration hn

/-- **Replicas agree iff their clocks agree on each registration.** -/
theorem replicasAgree_iff (clock clock' : ℕ → UInt64) (log : List CoordRequest) :
    ReplicasAgree clock clock' log ↔
      ∀ k registration, log[k]? = some (.registerServer registration) → clock k = clock' k := by
  constructor
  · intro h k registration hk
    -- the registration that was just made shows both clocks
    have hsame := (h (k + 1)).1.2 registration.serverId
    rw [replay_take_succ clock hk, replay_take_succ clock' hk] at hsame
    have hshown := ((AList.lookup_insert _).symm.trans hsame).trans (AList.lookup_insert _)
    exact congrArg ServerRegistration.registeredAt (Option.some.inj hshown)
  · intro h n
    have heq := replay_take_eq h n
    have hsame : (replay clock (log.take n)).Same (replay clock' (log.take n)) := by
      rw [heq]
      exact ⟨rfl, fun _ => rfl⟩
    refine ⟨hsame, fun now timeoutSecs id => ?_⟩
    rw [mem_getStaleServers, mem_getStaleServers, hsame.2 id]

namespace Sample

def registration (serverId : String) : ServerRegistration :=
  ⟨serverId, "localhost", 445, "", 0, 0, 0, 0⟩

/-- **One registration, two clocks**: two replicas have different states, and at time 116 with a
timeout of 15 seconds the server is stale on one of them only. -/
theorem registration_disagrees :
    ¬ ReplicasAgree (fun _ => 100) (fun _ => 110) [.registerServer (registration "server1")] ∧
      "server1" ∈ (replay (fun _ => 100)
        [.registerServer (registration "server1")]).getStaleServers 116 15 ∧
      "server1" ∉ (replay (fun _ => 110)
        [.registerServer (registration "server1")]).getStaleServers 116 15 := by
  refine ⟨fun h => ?_, by decide, by decide⟩
  have hstale := (h 1).2 116 15 "server1"
  revert hstale
  decide

end Sample

end Coordinator

end RustSmb
