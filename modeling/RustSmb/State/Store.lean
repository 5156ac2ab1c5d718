import RustSmb.Lib.Prog
import RustSmb.Lib.Table
import RustSmb.State.Types

/-!
# The state store

`StoreOp` lists the methods of the `StateStore` trait that the server calls, and `StoreOp.Res` what
each returns.  `MemoryStateStore.answer` is the in-memory implementation, in which each method holds
its lock to the end and so is one step of a run.

## Main definitions

* `StoreOp`, `StoreOp.Res`, `StoreOp.isWrite` — the trait.
* `MemoryStateStore` — the tables and counters.
* `leasesConflict`, `reduceLeaseState`, `checkAndCreateLease` — how a lease is granted.
* `MemoryStateStore.answer` — the implementation.

Source: `rustsmb-state/src/traits.rs`, `rustsmb-state-memory/src/lib.rs`.
-/

namespace RustSmb

/-- The calls on a store. -/
inductive StoreOp where
  | createSession (session : SessionState)
  | getSession (sessionId : UInt64)
  | deleteSession (sessionId : UInt64)
  | refreshSession (sessionId : UInt64) (ttlSecs : UInt64)
  | createTree (tree : TreeState)
  | getTree (sessionId : UInt64) (treeId : UInt32)
  | getTreesBySession (sessionId : UInt64)
  | deleteTree (sessionId : UInt64) (treeId : UInt32)
  | createHandle (handle : HandleState)
  | getHandle (persistentId : HandleId)
  | updateHandle (handle : HandleState)
  | getHandlesBySession (sessionId : UInt64)
  | getHandlesForFile (shareName filePath : String)
  | deleteHandle (persistentId : HandleId)
  | nextSessionId
  | nextTreeId (sessionId : UInt64)
  | nextHandleId
  | getLease (leaseKey : String)
  | updateLease (lease : LeaseEntry)
  | deleteLease (leaseKey : String)
  | getLeasesForFile (filePath : String)
  | checkAndCreateLease (filePath : String) (lease : LeaseEntry) (requestedState : UInt32)
  | deleteLeasesForServer (serverId : String)
  | acquireFileLock (lock : DistributedLock)
  | releaseFileLock (lockId : UInt64)
  | getFileLocks (filePath : String)
  | releaseFileLocksForHandle (handleId : HandleId)
  | releaseFileLocksForServer (serverId : String)
  | nextFileLockId

namespace StoreOp

abbrev Value : StoreOp → Type
  | getSession _ => Option SessionState
  | getTree _ _ => Option TreeState
  | getTreesBySession _ => List TreeState
  | getHandle _ => Option HandleState
  | getHandlesBySession _ | getHandlesForFile _ _ => List HandleState
  | nextSessionId => UInt64
  | nextTreeId _ => UInt32
  | nextHandleId => HandleId
  | getLease _ => Option LeaseEntry
  | getLeasesForFile _ => List LeaseEntry
  | checkAndCreateLease _ _ _ => LeaseConflictResult
  | acquireFileLock _ => Bool
  | getFileLocks _ => List DistributedLock
  | nextFileLockId => UInt64
  | _ => Unit

abbrev Res (o : StoreOp) : Type := Except StateError o.Value

/-- Does the method change a session, tree, handle, lease or lock record?  A counter is none. -/
def isWrite : StoreOp → Bool
  | createSession _ | deleteSession _ | refreshSession _ _ | createTree _ | deleteTree _ _
  | createHandle _ | updateHandle _ | deleteHandle _ | updateLease _ | deleteLease _
  | checkAndCreateLease _ _ _ | deleteLeasesForServer _ | acquireFileLock _
  | releaseFileLock _ | releaseFileLocksForHandle _ | releaseFileLocksForServer _ => true
  | _ => false

end StoreOp

/-! ### Granting a lease -/

/-- One of the two caches writes and the other caches anything at all. -/
def leasesConflict (existingState requestedState : UInt32) : Bool :=
  let existingHasWrite := existingState &&& LeaseEntry.WRITE_CACHING != 0
  let requestedHasWrite := requestedState &&& LeaseEntry.WRITE_CACHING != 0
  if existingHasWrite && requestedState != 0 then true
  else if requestedHasWrite && existingState != 0 then true
  else false

/-- What is left of a requested lease state in view of the conflicting leases. -/
def reduceLeaseState (requestedState : UInt32) (conflicts : List LeaseEntry) : UInt32 :=
  let anyWrite := conflicts.any fun l => l.leaseState &&& LeaseEntry.WRITE_CACHING != 0
  if anyWrite then 0
  else if requestedState &&& LeaseEntry.WRITE_CACHING != 0 then
    requestedState &&& ~~~LeaseEntry.WRITE_CACHING
  else requestedState

/-- The leases on the file under other keys. -/
def otherLeases (leases : Table String LeaseEntry) (filePath leaseKey : String) :
    List LeaseEntry :=
  leases.values.filter fun l => l.filePath == filePath && l.leaseKey != leaseKey

/-- Record a lease on a file, reduced in view of the leases already there. -/
def checkAndCreateLease (leases : Table String LeaseEntry) (filePath : String)
    (lease : LeaseEntry) (requestedState : UInt32) :
    LeaseConflictResult × Table String LeaseEntry :=
  let existing := otherLeases leases filePath lease.leaseKey
  if existing.isEmpty then
    (.granted requestedState,
      leases.insert lease.leaseKey { lease with leaseState := requestedState })
  else
    let conflicts := existing.filter fun l => leasesConflict l.leaseState requestedState
    let grantedState :=
      if !conflicts.isEmpty then reduceLeaseState requestedState conflicts else requestedState
    let leases := leases.insert lease.leaseKey { lease with leaseState := grantedState }
    if conflicts.isEmpty then (.granted grantedState, leases)
    else (.conflict conflicts grantedState, leases)

/-! ### The in-memory store -/

/-- The store of a single server. -/
structure MemoryStateStore where
  sessions : Table UInt64 SessionState
  trees : Table (UInt64 × UInt32) TreeState
  handles : Table HandleId HandleState
  leases : Table String LeaseEntry
  fileLocks : Table UInt64 DistributedLock
  sessionCounter : UInt64
  treeCounters : Table UInt64 UInt64
  handleCounter : UInt64
  fileLockCounter : UInt64

namespace MemoryStateStore

def new : MemoryStateStore where
  sessions := ∅
  trees := ∅
  handles := ∅
  leases := ∅
  fileLocks := ∅
  sessionCounter := 1
  treeCounters := ∅
  handleCounter := 1
  fileLockCounter := 1

/-- Push the expiry of a session `ttlSecs` ahead of `now`. -/
def refreshSession (st : MemoryStateStore) (sessionId ttlSecs now : UInt64) :
    MemoryStateStore :=
  match st.sessions.lookup sessionId with
  | some s =>
      { st with
        sessions := st.sessions.insert sessionId
          { s with lastAccess := now, expiresAt := now + ttlSecs } }
  | none => st

/-- Every session counts for itself. -/
def nextTreeId (st : MemoryStateStore) (sessionId : UInt64) : UInt32 × MemoryStateStore :=
  let c := (st.treeCounters.lookup sessionId).getD 1
  (c.toUInt32, { st with treeCounters := st.treeCounters.insert sessionId (c + 1) })

/-- Record a byte-range lock unless it conflicts with one that is held. -/
def acquireFileLock (st : MemoryStateStore) (lock : DistributedLock) :
    Bool × MemoryStateStore :=
  if st.fileLocks.values.any fun existing => lock.conflictsWith existing then (false, st)
  else (true, { st with fileLocks := st.fileLocks.insert lock.lockId lock })

/-- The in-memory implementation of the store's methods, at the time `now`. -/
def answer (now : UInt64) : (o : StoreOp) → MemoryStateStore → o.Res × MemoryStateStore
  | .createSession s, st => (.ok (), { st with sessions := st.sessions.insert s.sessionId s })
  | .getSession sid, st => (.ok (st.sessions.lookup sid), st)
  | .deleteSession sid, st => (.ok (), { st with sessions := st.sessions.erase sid })
  | .refreshSession sid ttl, st => (.ok (), st.refreshSession sid ttl now)
  | .createTree t, st => (.ok (), { st with trees := st.trees.insert (t.sessionId, t.treeId) t })
  | .getTree sid tid, st => (.ok (st.trees.lookup (sid, tid)), st)
  | .getTreesBySession sid, st =>
      (.ok ((st.trees.entries.filter fun e => e.1.1 == sid).map Sigma.snd), st)
  | .deleteTree sid tid, st => (.ok (), { st with trees := st.trees.erase (sid, tid) })
  | .createHandle h, st | .updateHandle h, st =>
      (.ok (), { st with handles := st.handles.insert h.persistentId h })
  | .getHandle id, st => (.ok (st.handles.lookup id), st)
  | .getHandlesBySession sid, st => (.ok (st.handles.values.filter fun h => h.sessionId == sid), st)
  | .getHandlesForFile share path, st =>
      (.ok (st.handles.values.filter fun h => h.shareName == share && h.path == path), st)
  | .deleteHandle id, st => (.ok (), { st with handles := st.handles.erase id })
  | .nextSessionId, st =>
      (.ok st.sessionCounter, { st with sessionCounter := st.sessionCounter + 1 })
  | .nextTreeId sid, st => (.ok (st.nextTreeId sid).1, (st.nextTreeId sid).2)
  | .nextHandleId, st =>
      (.ok (BitVec.ofNat 128 st.handleCounter.toNat),
        { st with handleCounter := st.handleCounter + 1 })
  | .getLease key, st => (.ok (st.leases.lookup key), st)
  | .updateLease l, st => (.ok (), { st with leases := st.leases.insert l.leaseKey l })
  | .deleteLease key, st => (.ok (), { st with leases := st.leases.erase key })
  | .getLeasesForFile path, st => (.ok (st.leases.values.filter fun l => l.filePath == path), st)
  | .checkAndCreateLease path l r, st =>
      (.ok (RustSmb.checkAndCreateLease st.leases path l r).1,
        { st with leases := (RustSmb.checkAndCreateLease st.leases path l r).2 })
  | .deleteLeasesForServer sv, st =>
      (.ok (), { st with leases := st.leases.retain fun _ l => l.serverId != sv })
  | .acquireFileLock l, st => (.ok (st.acquireFileLock l).1, (st.acquireFileLock l).2)
  | .releaseFileLock id, st => (.ok (), { st with fileLocks := st.fileLocks.erase id })
  | .getFileLocks path, st => (.ok (st.fileLocks.values.filter fun l => l.filePath == path), st)
  | .releaseFileLocksForHandle id, st =>
      (.ok (), { st with fileLocks := st.fileLocks.retain fun _ l => l.handleId != id })
  | .releaseFileLocksForServer sv, st =>
      (.ok (), { st with fileLocks := st.fileLocks.retain fun _ l => l.serverId != sv })
  | .nextFileLockId, st =>
      (.ok st.fileLockCounter, { st with fileLockCounter := st.fileLockCounter + 1 })

/-- Handles and leases are filed under their own keys. -/
structure Keyed (st : MemoryStateStore) : Prop where
  handles : st.handles.KeyedBy HandleState.persistentId
  leases : st.leases.KeyedBy LeaseEntry.leaseKey

theorem keyed_new : Keyed .new := ⟨.empty, .empty⟩

theorem keyedBy_checkAndCreateLease {leases : Table String LeaseEntry}
    (h : leases.KeyedBy LeaseEntry.leaseKey) (filePath : String) (lease : LeaseEntry)
    (requestedState : UInt32) :
    (RustSmb.checkAndCreateLease leases filePath lease requestedState).2.KeyedBy
      LeaseEntry.leaseKey := by
  have hins : ∀ state : UInt32,
      Table.KeyedBy LeaseEntry.leaseKey
        (leases.insert lease.leaseKey { lease with leaseState := state }) :=
    fun state => h.insert { lease with leaseState := state }
  unfold RustSmb.checkAndCreateLease
  dsimp only
  split
  · exact hins _
  split
  · exact hins _
  · exact hins _

theorem Keyed.answer {st : MemoryStateStore} (h : Keyed st) (now : UInt64) (o : StoreOp) :
    Keyed (answer now o st).2 := by
  cases o with
  | createHandle handle | updateHandle handle => exact ⟨h.handles.insert handle, h.leases⟩
  | deleteHandle id => exact ⟨h.handles.erase id, h.leases⟩
  | updateLease lease => exact ⟨h.handles, h.leases.insert lease⟩
  | deleteLease key => exact ⟨h.handles, h.leases.erase key⟩
  | checkAndCreateLease path lease state =>
    exact ⟨h.handles, keyedBy_checkAndCreateLease h.leases path lease state⟩
  | deleteLeasesForServer sv => exact ⟨h.handles, h.leases.retain _⟩
  | refreshSession sid ttl =>
    simp only [MemoryStateStore.answer, refreshSession]
    split
    · exact ⟨h.handles, h.leases⟩
    · exact h
  | acquireFileLock l =>
    simp only [MemoryStateStore.answer, acquireFileLock]
    split
    · exact h
    · exact ⟨h.handles, h.leases⟩
  | _ => exact ⟨h.handles, h.leases⟩

end MemoryStateStore

end RustSmb
