import RustSmb.Lib.Table
import RustSmb.State.Types

/-!
# The break registry

One registry is shared by the connections of a server.  It knows where the notification for a lease
or an oplock must be sent, and which notifications wait for an acknowledgment.  Each access to one
of its maps is one step (`RegistryOp`).

A break that waits has a completion channel: the initiator waits on it, and whoever takes the
pending break out of the map sends the result or drops the sender.

## Main definitions

* `LeaseBreakRegistry` — the maps, the channels and the counter.
* `RegistryOp`, `LeaseBreakRegistry.answer` — the steps.
* `calculateBreakState` — the state to which a lease is broken.

Source: `rustsmb-server/src/lease_break.rs`.
-/

namespace RustSmb

/-- Where to send the break notification of a lease; a channel is named by its connection. -/
structure LeaseConnectionEntry where
  breakTx : UInt64
  serverId : String
  clientGuid : String
  sessionId : UInt64
  deriving DecidableEq

/-- What a connection is told of a lease break. -/
structure LeaseBreakEvent where
  leaseKey : String
  currentState : UInt32
  newState : UInt32
  newEpoch : UInt16
  ackRequired : Bool
  breakId : UInt64
  deriving DecidableEq

/-- What a connection is told of an oplock break. -/
structure OplockBreakEvent where
  handleId : HandleId
  currentLevel : UInt8
  newLevel : UInt8
  ackRequired : Bool
  breakId : UInt64
  deriving DecidableEq

/-- The connection that holds an oplock. -/
structure OplockConnectionEntry where
  breakTx : UInt64
  serverId : String
  sessionId : UInt64
  oplockLevel : UInt8
  filePath : String
  shareName : String
  deriving DecidableEq

/-- An oplock break that waits for its acknowledgment. -/
structure PendingOplockBreak where
  handleId : HandleId
  newLevel : UInt8
  filePath : String
  deriving DecidableEq

/-- A lease break that waits for its acknowledgment. -/
structure PendingBreak where
  leaseKey : String
  newState : UInt32
  filePath : String
  deriving DecidableEq

/-- How a wait ends. -/
inductive LeaseBreakResult where
  | acknowledged (newState : UInt32) (epoch : UInt16)
  | timedOut
  | disconnected
  | alreadyBroken
  | noAckRequired
  deriving DecidableEq, Repr

/-- Why an acknowledgment is refused. -/
inductive LeaseBreakError where
  | leaseNotFound
  | noPendingBreak
  | connectionUnavailable
  | sendFailed
  | invalidStateSubset
  deriving DecidableEq, Repr

/-- What the initiator of a break finds: a result, a dropped sender, or nothing before the
timeout. -/
inductive BreakWait where
  | received (result : LeaseBreakResult)
  | dropped
  | elapsed
  deriving DecidableEq, Repr

/-- The channel on which a wait gets its result. -/
inductive Completion where
  | open
  | sent (result : LeaseBreakResult)
  | dropped
  deriving DecidableEq, Repr

/-- Which connection holds what, the pending breaks, and the channels. -/
structure LeaseBreakRegistry where
  leaseConnections : Table String LeaseConnectionEntry
  pendingBreaks : Table UInt64 PendingBreak
  oplockConnections : Table HandleId OplockConnectionEntry
  pendingOplockBreaks : Table UInt64 PendingOplockBreak
  nextBreakId : UInt64
  completions : Table UInt64 Completion
  leaseEvents : Table UInt64 (List LeaseBreakEvent)
  oplockEvents : Table UInt64 (List OplockBreakEvent)

/-- The calls on the registry. -/
inductive RegistryOp where
  | registerLease (leaseKey : String) (entry : LeaseConnectionEntry)
  | unregisterLease (leaseKey : String)
  | unregisterConnectionLeases (serverId : String) (sessionId : UInt64)
  | leaseConnection (leaseKey : String)
  | registerOplock (handleId : HandleId) (entry : OplockConnectionEntry)
  | unregisterOplock (handleId : HandleId)
  | unregisterConnectionOplocks (serverId : String) (sessionId : UInt64)
  | oplockConnection (handleId : HandleId)
  | getOplocksForFile (shareName filePath : String)
  | updateOplockLevel (handleId : HandleId) (newLevel : UInt8)
  | nextBreakId
  | sendLeaseBreak (breakTx : UInt64) (event : LeaseBreakEvent)
  | sendOplockBreak (breakTx : UInt64) (event : OplockBreakEvent)
  | trySendOplockBreak (breakTx : UInt64) (event : OplockBreakEvent)
  | insertPendingBreak (breakId : UInt64) (pending : PendingBreak)
  | insertPendingOplockBreak (breakId : UInt64) (pending : PendingOplockBreak)
  | awaitCompletion (breakId : UInt64)
  | findPendingBreak (leaseKey : String)
  | findPendingOplockBreak (handleId : HandleId)
  | removePendingBreak (breakId : UInt64)
  | removePendingOplockBreak (breakId : UInt64)
  | complete (breakId : UInt64) (result : LeaseBreakResult)
  | dropCompletion (breakId : UInt64)

namespace RegistryOp

/-- What a call returns. -/
abbrev Res : RegistryOp → Type
  | unregisterLease _ | unregisterOplock _ => Bool
  | leaseConnection _ => Option LeaseConnectionEntry
  | oplockConnection _ => Option OplockConnectionEntry
  | getOplocksForFile _ _ => List (HandleId × UInt8 × String × UInt64)
  | nextBreakId => UInt64
  | sendLeaseBreak _ _ | sendOplockBreak _ _ | trySendOplockBreak _ _ => Bool
  | awaitCompletion _ => BreakWait
  | findPendingBreak _ | findPendingOplockBreak _ => Option UInt64
  | removePendingBreak _ => Option PendingBreak
  | removePendingOplockBreak _ => Option PendingOplockBreak
  | _ => Unit

end RegistryOp

namespace LeaseBreakRegistry

def new : LeaseBreakRegistry where
  leaseConnections := ∅
  pendingBreaks := ∅
  oplockConnections := ∅
  pendingOplockBreaks := ∅
  nextBreakId := 1
  completions := ∅
  leaseEvents := ∅
  oplockEvents := ∅

/-- The identifier of a pending break that satisfies a predicate, if there is one. -/
def findKey {ν : Type} (m : Table UInt64 ν) (p : ν → Bool) : Option UInt64 :=
  (m.entries.find? fun e => p e.2).map Sigma.fst

/-- What the initiator of a break finds.  `outcome` is what reaches a channel that is still open. -/
def wait (r : LeaseBreakRegistry) (breakId : UInt64) (outcome : BreakWait) : BreakWait :=
  match r.completions.lookup breakId with
  | some (.sent result) => .received result
  | some .dropped => .dropped
  | _ => outcome

/-- How many events wait in the channel of a connection before a sender has to wait. -/
def CHANNEL_CAPACITY : ℕ := 32

/-- Answer one access.  A channel takes events as long as it is open.  `outcome` is used by
`awaitCompletion` only. -/
def answer (outcome : BreakWait) :
    (o : RegistryOp) → LeaseBreakRegistry → o.Res × LeaseBreakRegistry
  | .registerLease k e, r => ((), { r with leaseConnections := r.leaseConnections.insert k e })
  | .unregisterLease k, r =>
      ((r.leaseConnections.lookup k).isSome,
        { r with leaseConnections := r.leaseConnections.erase k })
  | .unregisterConnectionLeases sv sid, r =>
      ((), { r with
        leaseConnections :=
          r.leaseConnections.retain fun _ e => !(e.serverId == sv && e.sessionId == sid) })
  | .leaseConnection k, r => (r.leaseConnections.lookup k, r)
  | .registerOplock id e, r => ((), { r with oplockConnections := r.oplockConnections.insert id e })
  | .unregisterOplock id, r =>
      ((r.oplockConnections.lookup id).isSome,
        { r with oplockConnections := r.oplockConnections.erase id })
  | .unregisterConnectionOplocks sv sid, r =>
      ((), { r with
        oplockConnections :=
          r.oplockConnections.retain fun _ e => !(e.serverId == sv && e.sessionId == sid) })
  | .oplockConnection id, r => (r.oplockConnections.lookup id, r)
  | .getOplocksForFile share path, r =>
      ((r.oplockConnections.entries.filter fun e =>
          e.2.shareName == share && e.2.filePath == path).map fun e =>
        (e.1, e.2.oplockLevel, e.2.serverId, e.2.sessionId), r)
  | .updateOplockLevel id level, r =>
      ((), match r.oplockConnections.lookup id with
        | some e =>
            { r with
              oplockConnections := r.oplockConnections.insert id { e with oplockLevel := level } }
        | none => r)
  | .nextBreakId, r => (r.nextBreakId, { r with nextBreakId := r.nextBreakId + 1 })
  | .sendLeaseBreak tx ev, r =>
      match r.leaseEvents.lookup tx with
      | some q => (true, { r with leaseEvents := r.leaseEvents.insert tx (q ++ [ev]) })
      | none => (false, r)
  | .sendOplockBreak tx ev, r =>
      match r.oplockEvents.lookup tx with
      | some q => (true, { r with oplockEvents := r.oplockEvents.insert tx (q ++ [ev]) })
      | none => (false, r)
  | .trySendOplockBreak tx ev, r =>
      match r.oplockEvents.lookup tx with
      | some q =>
          if q.length < CHANNEL_CAPACITY then
            (true, { r with oplockEvents := r.oplockEvents.insert tx (q ++ [ev]) })
          else (false, r)
      | none => (false, r)
  | .insertPendingBreak id p, r =>
      ((), { r with
        pendingBreaks := r.pendingBreaks.insert id p
        completions := r.completions.insert id .open })
  | .insertPendingOplockBreak id p, r =>
      ((), { r with
        pendingOplockBreaks := r.pendingOplockBreaks.insert id p
        completions := r.completions.insert id .open })
  | .awaitCompletion id, r => (r.wait id outcome, r)
  | .findPendingBreak k, r => (findKey r.pendingBreaks fun p => p.leaseKey == k, r)
  | .findPendingOplockBreak id, r => (findKey r.pendingOplockBreaks fun p => p.handleId == id, r)
  | .removePendingBreak id, r =>
      (r.pendingBreaks.lookup id, { r with pendingBreaks := r.pendingBreaks.erase id })
  | .removePendingOplockBreak id, r =>
      (r.pendingOplockBreaks.lookup id,
        { r with pendingOplockBreaks := r.pendingOplockBreaks.erase id })
  | .complete id result, r => ((), { r with completions := r.completions.insert id (.sent result) })
  | .dropCompletion id, r => ((), { r with completions := r.completions.insert id .dropped })

end LeaseBreakRegistry

/-- The state to which an existing lease is broken by a request. -/
def calculateBreakState (existingState requestedState : UInt32) : UInt32 :=
  if requestedState &&& 0x02 ≠ 0 then
    if existingState &&& 0x01 ≠ 0 then 0x01 else 0
  else if requestedState &&& 0x04 ≠ 0 then existingState &&& (0x01 ||| 0x02)
  else existingState &&& ~~~0x02

end RustSmb
