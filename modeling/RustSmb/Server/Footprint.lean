import RustSmb.Server.Dispatch

/-!
# What each command can change

A call has an effect: it changes one of the tables of the store, advances a counter,
reaches a backend, the break registry or the authentication provider, or it only reads.
The footprint of a command bounds the effects of its handler, whatever the replies.

## Main results

* `MemoryStateStore.answer_handles` and its companions — which calls change a table.
* `handleCommand_within` — **a handler stays within the footprint of its command.**
-/

set_option synthInstance.maxSize 1000000

namespace RustSmb

variable {leaseState : UInt32}

/-- What a call changes. -/
inductive Effect where
  | none
  | counter
  | sessionCounter
  | createSession
  | session
  | createTree
  | deleteTree
  /-- Reading the handles on a file. -/
  | fileHandles
  | createHandle
  | handle
  | lease
  | lock
  | backend
  | registry
  /-- Looking at oplocks and breaking them. -/
  | oplock
  | registerOplock
  /-- Completing a break that waits. -/
  | acknowledge
  | authenticate
  deriving DecidableEq

@[reducible]
def StoreOp.effect : StoreOp → Effect
  | createSession _ => .createSession
  | deleteSession _ | refreshSession _ _ => .session
  | createTree _ => .createTree
  | deleteTree _ _ => .deleteTree
  | createHandle _ => .createHandle
  | updateHandle _ | deleteHandle _ => .handle
  | updateLease _ | deleteLease _ | checkAndCreateLease _ _ _ | deleteLeasesForServer _ => .lease
  | acquireFileLock _ | releaseFileLock _ | releaseFileLocksForHandle _
  | releaseFileLocksForServer _ => .lock
  | nextSessionId => .sessionCounter
  | nextTreeId _ | nextHandleId | nextFileLockId => .counter
  | getHandlesForFile _ _ => .fileHandles
  | getSession _ | getTree _ _ | getTreesBySession _ | getHandle _ | getHandlesBySession _
  | getLease _ | getLeasesForFile _ | getFileLocks _ => .none

namespace MemoryStateStore

variable {now : UInt64} {o : StoreOp} {st : MemoryStateStore}

theorem answer_sessions (hc : o.effect ≠ .createSession) (ho : o.effect ≠ .session) :
    (answer now o st).2.sessions = st.sessions := by
  cases o with
  | createSession _ => exact absurd rfl hc
  | deleteSession _ | refreshSession _ _ => exact absurd rfl ho
  | acquireFileLock l =>
    simp only [answer, acquireFileLock]
    split <;> rfl
  | _ => rfl

theorem answer_trees (hc : o.effect ≠ .createTree) (hd : o.effect ≠ .deleteTree) :
    (answer now o st).2.trees = st.trees := by
  cases o with
  | createTree _ => exact absurd rfl hc
  | deleteTree _ _ => exact absurd rfl hd
  | refreshSession sid ttl =>
    simp only [answer, refreshSession]
    split <;> rfl
  | acquireFileLock l =>
    simp only [answer, acquireFileLock]
    split <;> rfl
  | _ => rfl

theorem answer_handles (hc : o.effect ≠ .createHandle) (ho : o.effect ≠ .handle) :
    (answer now o st).2.handles = st.handles := by
  cases o with
  | createHandle _ => exact absurd rfl hc
  | updateHandle _ | deleteHandle _ => exact absurd rfl ho
  | refreshSession sid ttl =>
    simp only [answer, refreshSession]
    split <;> rfl
  | acquireFileLock l =>
    simp only [answer, acquireFileLock]
    split <;> rfl
  | _ => rfl

theorem answer_fileLocks (ho : o.effect ≠ .lock) :
    (answer now o st).2.fileLocks = st.fileLocks := by
  cases o with
  | acquireFileLock _ | releaseFileLock _ | releaseFileLocksForHandle _
  | releaseFileLocksForServer _ => exact absurd rfl ho
  | refreshSession sid ttl =>
    simp only [answer, refreshSession]
    split <;> rfl
  | _ => rfl

end MemoryStateStore

@[reducible]
def RegistryOp.effect : RegistryOp → Effect
  | registerOplock _ _ => .registerOplock
  | oplockConnection _ | getOplocksForFile _ _ | updateOplockLevel _ _ | sendOplockBreak _ _
  | trySendOplockBreak _ _ | insertPendingOplockBreak _ _ | findPendingOplockBreak _
  | removePendingOplockBreak _ => .oplock
  | complete _ _ | dropCompletion _ => .acknowledge
  | _ => .registry

@[reducible]
def SmbOp.effect : SmbOp → Effect
  | store o => o.effect
  | backend _ _ => .backend
  | registry _ o => o.effect
  | authenticate _ _ _ => .authenticate
  | now | filetime | random => .none

/-- The effects that a command can have. -/
@[reducible]
def footprint : Smb2Command → List Effect
  | .negotiate | .flush | .cancel | .echo | .changeNotify => []
  | .sessionSetup =>
      [.authenticate, .sessionCounter, .createSession, .session, .deleteTree, .handle, .lease]
  | .logoff => [.session, .deleteTree, .handle, .lease]
  | .treeConnect => [.counter, .createTree]
  | .treeDisconnect => [.deleteTree, .handle]
  | .create =>
      [.counter, .fileHandles, .createHandle, .handle, .lease, .backend, .registry, .oplock,
        .registerOplock]
  | .close => [.handle, .lease, .lock, .backend, .registry]
  | .read | .write | .setInfo => [.handle, .backend]
  | .lock => [.counter, .lock, .backend]
  | .ioctl | .queryDirectory | .queryInfo => [.backend]
  | .oplockBreak => [.handle, .lease, .registry, .oplock, .acknowledge]

/-- A method has only the given effects, besides reading, and keeps a property of the state of
the connection. -/
abbrev Keeping (P : ConnectionHandler → Prop) (es : List Effect) {ε α : Type}
    (x : Proc Smb ConnectionHandler ε α) : Prop :=
  Proc.Keeps (fun s _ => P s) (fun _ (o : SmbOp) => o.effect = .none ∨ o.effect ∈ es) x

/-- A method has only the given effects, besides reading.  Unless it may authenticate, it leaves
the context `c` of the current exchange alone. -/
abbrev Within (c : AuthContext) (es : List Effect) {ε α : Type}
    (x : Proc Smb ConnectionHandler ε α) : Prop :=
  Keeping (fun s => .authenticate ∈ es ∨ s.authContext = c) es x

/-- The property does not speak about the credits. -/
class IgnoresCredits (P : ConnectionHandler → Prop) : Prop where
  credits : ∀ s c, P s → P { s with connection := { s.connection with credits := c } }

/-- The property does not speak about the sessions of the connection and their keys. -/
class IgnoresSessions (P : ConnectionHandler → Prop) : Prop where
  sessions : ∀ s sessionIds state signingKeys preauthHash, P s →
    P { s with
      connection := { s.connection with sessionIds := sessionIds, state := state }
      signingKeys := signingKeys
      preauthHash := preauthHash }

/-- The property does not speak about the current exchange. -/
class IgnoresExchange (P : ConnectionHandler → Prop) : Prop where
  exchange : ∀ s authContext, P s → P { s with authContext := authContext }

section Instances

variable {p : Prop} {c : AuthContext}

instance : IgnoresCredits fun _ => p := ⟨fun _ _ => id⟩

instance : IgnoresSessions fun _ => p := ⟨fun _ _ _ _ _ => id⟩

instance : IgnoresExchange fun _ => p := ⟨fun _ _ => id⟩

instance : IgnoresCredits fun s => p ∨ s.authContext = c := ⟨fun _ _ => id⟩

instance : IgnoresSessions fun s => p ∨ s.authContext = c := ⟨fun _ _ _ _ _ => id⟩

instance : IgnoresExchange fun s =>
    .authenticate ∈ footprint .sessionSetup ∨ s.authContext = c :=
  ⟨fun _ _ _ => .inl (by decide)⟩

end Instances

/-- The effect is among the given ones. -/
class Has (f : Effect) (es : List Effect) : Prop where
  mem : f = .none ∨ f ∈ es

instance {es : List Effect} : Has .none es := ⟨.inl rfl⟩

instance {f : Effect} {es : List Effect} : Has f (f :: es) := ⟨.inr List.mem_cons_self⟩

instance {f g : Effect} {es : List Effect} [h : Has f es] : Has f (g :: es) :=
  ⟨h.mem.imp_right (List.mem_cons_of_mem g)⟩

instance {es : List Effect} {o : SmbOp} [h : Has o.effect es] :
    Proc.Allows (S := Smb) (fun _ (o : SmbOp) => o.effect = .none ∨ o.effect ∈ es) o :=
  ⟨fun _ => h.mem⟩

/-- See `Keeping`: the form that instance search proves. -/
abbrev Stays (P : ConnectionHandler → Prop) (es : List Effect) {ε α : Type}
    (x : Proc Smb ConnectionHandler ε α) : Prop :=
  Proc.Walks (fun s _ => P s) (fun _ (o : SmbOp) => o.effect = .none ∨ o.effect ∈ es) x

/-- The invariant holds at every call with one of the given effects. -/
class Tolerates (I : List (Event Smb) → SmbOp → Prop) (es : outParam (List Effect)) : Prop where
  call : ∀ h o, o.effect = .none ∨ o.effect ∈ es → I h o

section Within

open Proc Handler

/-- A method whose effects an invariant tolerates keeps what a history has shown. -/
instance (priority := low) walks_tolerated {I : List (Event Smb) → SmbOp → Prop}
    {es : List Effect} {T : List (Event Smb) → Prop} {ε α : Type}
    {x : Proc Smb ConnectionHandler ε α} [hI : Tolerates I es]
    [hT : Lasts (σ := ConnectionHandler) (S := Smb) fun _ h => T h] [Stays (fun _ => True) es x] :
    Walks (fun _ h => T h) I x := by
  have hx : Always I x := Keeps.weaken (walked) hI.call
  refine Keeps.walks fun s h ht => wp_mono (wp_grows (hx s h trivial)) fun r s' h' hr => ?_
  exact Lasts.of_suffix (R := fun (_ : ConnectionHandler) h => T h) (s := s) hr.2 ht

variable {P : ConnectionHandler → Prop} {c : AuthContext} {es : List Effect}

/-! ### The private state -/

section State

variable [IgnoresSessions P] {sessionId : UInt64}

instance :
    Stays P es (modifyConnection fun c => (c.addSession sessionId).2) := by
  refine (keeps_modify fun s _ hs => ?_).walks
  unfold Connection.addSession
  dsimp only
  split
  · exact hs
  · exact IgnoresSessions.sessions s _ _ s.signingKeys s.preauthHash hs

instance : Stays P es (modifyConnection fun c => c.removeSession sessionId) :=
  Keeps.walks (keeps_modify fun s _ => IgnoresSessions.sessions s _ _ s.signingKeys s.preauthHash)

instance {f : Table UInt64 Bytes → Table UInt64 Bytes} :
    Stays P es (modify fun s => { s with signingKeys := f s.signingKeys } : Handler Unit) :=
  Keeps.walks (keeps_modify fun s _ => IgnoresSessions.sessions s s.connection.sessionIds
    s.connection.state _ s.preauthHash)

instance [Externs] {message : Bytes} :
    Stays P es (updatePreauthHash message) :=
  Keeps.walks (keeps_modify fun s _ => IgnoresSessions.sessions s s.connection.sessionIds
    s.connection.state s.signingKeys _)

end State

instance [IgnoresExchange P] {f : AuthContext → AuthContext} :
    Stays P es (modifyAuthContext f) :=
  Keeps.walks (keeps_modify fun s _ => IgnoresExchange.exchange s _)

instance [IgnoresCredits P] {request : Smb2Header} {st : NtStatus} :
    Stays P es (buildResponseHeader request st) :=
  (keeps_buildResponseHeader fun s c _ => IgnoresCredits.credits s c).walks

instance [IgnoresCredits P] {request : Smb2Header} {body : Bytes} :
    Stays P es (respond request body) :=
  (keeps_respond fun s c _ => IgnoresCredits.credits s c).walks

variable {header : Smb2Header} {body fullMessage : Bytes} {r : CreateRequest} {o : OpenOptions}
  {handleId : HandleId} {handle existing : HandleState} {sessionId : UInt64} {treeId : UInt32}
  {share path shareName filename filePath leaseKey : String} {missing : NtStatus}

/-! ### Reading -/

instance : Stays P es (expectSession sessionId) := by
  unfold expectSession
  infer_instance

instance : Stays P es (ownedHandle header handleId missing) := by
  unfold ownedHandle
  infer_instance

instance : Stays P es (fileLocks path) := by
  refine walks_step fun r => ?_
  cases r <;> infer_instance

instance {lockId : UInt64} {e : LockElement} :
    Stays P es (distributedLock header handleId handle lockId e) := by
  unfold distributedLock
  infer_instance

instance : Stays P es (hasHandleCaching existing) := by
  unfold hasHandleCaching
  split
  · infer_instance
  split
  · infer_instance
  · refine walks_step fun r => ?_
    split <;> infer_instance

instance {grantedState : UInt32} :
    Stays P es (recheckLeases filePath leaseKey leaseState grantedState) := by
  refine walks_step fun r => ?_
  cases r <;> infer_instance

instance : Stays P es (reconnectLeaseContext handle) := by
  unfold reconnectLeaseContext
  split
  · infer_instance
  split
  · infer_instance
  · refine walks_step fun r => ?_
    split <;> infer_instance

instance : Stays P es (openGuid o) := by
  unfold openGuid
  split
  · infer_instance
  split
  · exact walks_perform
  · infer_instance

section

variable [Externs]

instance : Stays P es (getShare shareName) := by
  unfold getShare
  infer_instance

instance : Stays P es (treeBackend sessionId treeId missing) := by
  unfold treeBackend
  infer_instance

end

/-! ### Backends -/

instance {α : Type} {r : Except VfsError α} : Stays P es (orVfs r) := by
  cases r <;> unfold orVfs <;> infer_instance

instance {α : Type} {r : Except VfsError α} : Stays P es (orVfsStatus r) := by
  cases r <;> unfold orVfsStatus <;> infer_instance

section Backend

variable [Has .backend es]

instance {readonly : Bool} :
    Stays P es (applyReadonlyAttribute share path readonly) := by
  unfold applyReadonlyAttribute
  infer_instance

instance : Stays P es (openOnBackend r share filename) := by
  unfold openOnBackend
  infer_instance

instance {source target : FileHandle} {chunks : List CopychunkChunk}
    {total : UInt32} : Stays P es (copyChunks share source target chunks total) := by
  induction chunks generalizing total with
  | nil => exact walks_pure
  | cons chunk rest ih =>
    unfold copyChunks
    infer_instance

instance {infoType : InfoType} :
    Stays P es (queryInfoOutput share infoType body handle) := by
  cases infoType <;> unfold queryInfoOutput <;> infer_instance

instance {accessTime writeTime : UInt64} :
    Stays P es (setTimes share path accessTime writeTime) := by
  unfold setTimes
  infer_instance

instance {newPath : String} {replaceIfExists : Bool} :
    Stays P es (checkRenameTarget share newPath replaceIfExists) := by
  unfold checkRenameTarget
  split
  · infer_instance
  · refine walks_step fun r => ?_
    split <;> infer_instance

end Backend

/-! ### The break registry -/

section Registry

variable [Has .registry es] {newLevel : UInt8}

instance {breakId : UInt64} {pending : PendingBreak} :
    Stays P es (awaitLeaseBreak breakId pending) := by
  unfold awaitLeaseBreak
  infer_instance

instance {currentState newState : UInt32} {epoch : UInt16} :
    Stays P es (breakLease leaseKey currentState newState epoch filePath) := by
  refine walks_step fun r => ?_
  split
  · infer_instance
  · refine walks_step fun _ => walks_step fun sent => ?_
    split
    · infer_instance
    split <;> infer_instance

instance : Stays P es (registerHandleLease header handle) := by
  refine walks_step fun s => ?_
  split <;> infer_instance

instance [Has .acknowledge es] {key : Bytes} {ackedState : UInt32} :
    Stays P es (handleAcknowledgment key ackedState) := by
  refine walks_step fun r => ?_
  split
  · infer_instance
  · refine walks_step fun r => ?_
    split <;> infer_instance

variable [Has .oplock es]

instance {breakId : UInt64} {pending : PendingOplockBreak} :
    Stays P es (awaitOplockBreak breakId pending) := by
  unfold awaitOplockBreak
  infer_instance

instance : Stays P es (breakOplock handleId newLevel filePath) := by
  refine walks_step fun r => ?_
  split
  · infer_instance
  · refine walks_step fun _ => walks_step fun sent => ?_
    split
    · infer_instance
    split <;> infer_instance

instance :
    Stays P es (initiateOplockBreakNowait handleId newLevel) := by
  refine walks_step fun r => ?_
  split <;> infer_instance

instance {oplocks : List (HandleId × UInt8 × String × UInt64)} :
    Stays P es (breakBatchOplocks sessionId oplocks) := by
  induction oplocks with
  | nil => exact walks_pure
  | cons oplock rest ih =>
    unfold breakBatchOplocks breakBatchOplock
    infer_instance

instance {oplock : HandleId × UInt8 × String × UInt64} :
    Stays P es (breakOplockConflict filePath oplock) := by
  refine walks_step fun r => ?_
  cases r <;> infer_instance

instance {requested : OplockLevel} :
    Stays P es (grantOplock shareName filename requested) := by
  unfold grantOplock
  infer_instance

instance : Stays P es (openOplock o shareName filename) := by
  unfold openOplock
  split <;> infer_instance

end Registry

instance [Has .oplock es] [Has .acknowledge es]
    {ackedLevel : UInt8} : Stays P es (handleOplockAcknowledgment handleId ackedLevel) := by
  refine walks_step fun r => ?_
  split
  · infer_instance
  · refine walks_step fun r => ?_
    split <;> infer_instance

instance [Has .registerOplock es] {granted : OplockLevel} :
    Stays P es (registerOpenOplock header o handleId granted shareName filename) := by
  unfold registerOpenOplock
  infer_instance

/-! ### Leases -/

section Leases

variable [Has .lease es]

instance : Stays P es (deleteLeaseOf existing) := by
  unfold deleteLeaseOf
  split <;> infer_instance

instance {ackedState : UInt32} :
    Stays P es (recordAcknowledged leaseKey ackedState) := by
  refine walks_step fun r => ?_
  split <;> infer_instance

variable [Has .registry es]

instance {conflict : LeaseEntry} :
    Stays P es (breakConflict leaseState filePath conflict) := by
  unfold breakConflict
  dsimp only
  split
  · infer_instance
  · refine walks_step fun r => ?_
    cases r <;> infer_instance

instance {result : LeaseConflictResult} {broken : List LeaseEntry} :
    Stays P es (reportedLeaseState filePath leaseKey leaseState result broken) := by
  unfold reportedLeaseState
  infer_instance

instance {key : Bytes} {isV2 : Bool} :
    Stays P es (grantLease sessionId filePath key leaseState isV2) := by
  refine walks_step fun s => walks_step fun now => walks_step fun r => ?_
  cases r <;> infer_instance

instance : Stays P es (openLease header o shareName filename) := by
  unfold openLease
  split <;> infer_instance

end Leases

/-! ### Locks -/

section Locks

variable [Has .lock es] {e : LockElement} {acquired : List UInt64}

instance : Stays P es (rollbackLocks acquired) := by
  unfold rollbackLocks
  infer_instance

instance {α : Type} {e : HandlerError} :
    Stays P es (abortLocks acquired e : Handler α) := by
  unfold abortLocks
  infer_instance

variable [Has .backend es]

instance : Stays P es (unlockRange share handleId handle e) := by
  refine walks_step fun locks => walks_seq ?_ fun _ => ?_
  · unfold releaseRecorded
    split <;> infer_instance
  · refine walks_step fun r => ?_
    split <;> infer_instance

variable [Has .counter es]

instance : Stays P es (lockRange header share handleId handle e acquired) := by
  refine walks_step fun locks => walks_step fun newLock => ?_
  split
  · infer_instance
  · refine walks_step fun r => ?_
    split
    · refine walks_step fun r => ?_
      cases r <;> infer_instance
    · infer_instance
    · infer_instance

instance {elements : List LockElement} :
    Stays P es (processLocks header share handleId handle elements acquired) := by
  induction elements generalizing acquired with
  | nil => exact walks_pure
  | cons e rest ih =>
    unfold processLocks
    infer_instance

end Locks

/-! ### Handles, trees and sessions -/

section Manager

variable {R : ConnectionHandler → List (Event Smb) → Prop} {I : List (Event Smb) → SmbOp → Prop}
  {o : StoreOp} [Lasts R] [Allows (S := Smb) I (.store o)]

instance : Walks R I (SessionManager.storeIgnore o) := by
  unfold SessionManager.storeIgnore
  infer_instance

instance : Walks R I (SessionManager.store o) := by
  unfold SessionManager.store
  infer_instance

end Manager

/-- Removing a session, where releasing a handle relies on having found it. -/
theorem deleteSession_shown {I : List (Event Smb) → SmbOp → Prop}
    {T : HandleState → List (Event Smb) → Prop} [Tolerates I es] [Has .session es]
    [Has .deleteTree es] [∀ handle, Lasts (σ := ConnectionHandler) (S := Smb) fun _ h => T handle h]
    (hfound : ∀ sessionId handles h, ∀ handle ∈ handles,
      T handle (⟨SmbOp.store (.getHandlesBySession sessionId), .ok handles⟩ :: h))
    (hrel : ∀ handle, Keeps (fun _ h => T handle h) I (SessionManager.releaseHandle handle)) :
    Always I (SessionManager.deleteSession sessionId) := by
  intro s h _
  unfold SessionManager.deleteSession
  refine wp_bind.2 (wp_bind.2 (wp_perform.2 ⟨?_, fun r => wp_ofExcept.2 ?_⟩))
  · exact Tolerates.call h (.store (.getHandlesBySession sessionId)) (.inl rfl)
  cases r with
  | error err => trivial
  | ok handles =>
    refine wp_bind.2 (wp_mono (wp_forEach_shown hrel (hfound sessionId handles h)) ?_)
    rintro (err | u) s' h' -
    · trivial
    · exact Always.wp walked s' h'

section Handles

variable [Has .handle es]

instance {persistentId : UInt64} {createGuid : Option Bytes} :
    Stays P es (findDurableHandle persistentId createGuid filename) := by
  unfold findDurableHandle
  infer_instance

instance [Has .deleteTree es] :
    Stays P es (SessionManager.deleteTree sessionId treeId) := by
  unfold SessionManager.deleteTree
  infer_instance

variable [Has .lease es]

instance : Stays P es (SessionManager.releaseHandle handle) := by
  unfold SessionManager.releaseHandle SessionManager.deleteLeaseOf
  split
  · infer_instance
  · refine walks_seq ?_ fun _ => inferInstance
    split <;> infer_instance

instance [Has .session es] [Has .deleteTree es] :
    Stays P es (SessionManager.deleteSession sessionId) := by
  unfold SessionManager.deleteSession
  infer_instance

instance : Stays P es (checkShareMode r existing) := by
  unfold checkShareMode purgeHandle
  infer_instance

instance [Has .registry es] [Has .oplock es] [Has .fileHandles es] :
    Stays P es (checkShareModes header r shareName filename) := by
  unfold checkShareModes handlesAfterBreak
  infer_instance

end Handles

/-! ### Commands -/

instance [IgnoresCredits P] [Has .handle es] [Has .lease es]
    [Has .registry es] [Has .oplock es] [Has .acknowledge es] :
    Stays P es (handleOplockBreak header body) := by
  refine walks_step fun _ => ?_
  split
  · unfold handleOplockBreakAck
    infer_instance
  split
  · refine walks_step fun _ => walks_step fun r => ?_
    split <;> infer_instance
  · infer_instance

instance [Has .sessionCounter es] : Stays P es exchangeSessionId := by
  refine walks_step fun s => ?_
  split <;> infer_instance

instance [IgnoresCredits P] [IgnoresSessions P] [Has .session es]
    [Has .deleteTree es] [Has .handle es] [Has .lease es] : Stays P es (handleLogoff header) := by
  unfold handleLogoff
  infer_instance

instance [IgnoresCredits P] [Has .deleteTree es] [Has .handle es] :
    Stays P es (handleTreeDisconnect header) := by
  unfold handleTreeDisconnect
  infer_instance

section Commands

variable [Externs]

theorem handleNegotiate_within : Within c es (handleNegotiate header body fullMessage) := by
  refine keeps_bind walked fun _ => keeps_bind walked fun dialect => ?_
  exact keeps_bind (keeps_modify fun _ _ => id) fun _ => walked

instance :
    Stays (fun _ => True) es (handleNegotiate header body fullMessage) := by
  unfold handleNegotiate
  infer_instance

section SessionSetup

variable {existingSession : Option SessionState} {user : UserInfo} {sessionKey : Bytes}

instance :
    Stays P es (existingForReauth existingSession sessionId) := by
  unfold existingForReauth
  split
  · infer_instance
  · refine walks_step fun r => ?_
    cases r <;> infer_instance

instance : Stays P es (lookupReauthSession header) := by
  refine walks_step fun s => ?_
  split
  · refine walks_step fun r => ?_
    cases r <;> infer_instance
  · infer_instance

instance [IgnoresExchange P] [Has .authenticate es] {token : Bytes} :
    Stays P es (authenticateToken header token) := by
  have hauth : ∀ ctx, Stays P es (authenticate ctx token) := fun ctx =>
    walks_step fun s => walks_perform
  refine walks_step fun _ => walks_step fun s => walks_step fun r => walks_step fun _ => ?_
  split <;> infer_instance

variable [IgnoresCredits P] [IgnoresSessions P]

instance {retained responseToken : Option Bytes}
    {dialect : SmbDialect} :
    Stays P es (sessionSetupResponse header sessionId user retained sessionKey responseToken
      dialect) := by
  unfold sessionSetupResponse
  infer_instance

variable [Has .sessionCounter es] [Has .session es]

instance [Has .createSession es] [Has .deleteTree es] [Has .handle es]
    [Has .lease es] {request : SessionSetupRequest} {responseToken : Option Bytes} :
    Stays P es (sessionSetupSuccess header request fullMessage existingSession user sessionKey
      responseToken) := by
  unfold sessionSetupSuccess createSession
  infer_instance

omit [Has .session es] in
instance [IgnoresExchange P] {responseToken : Bytes} :
    Stays P es (sessionSetupContinue header fullMessage existingSession responseToken) := by
  unfold sessionSetupContinue interimSessionId
  infer_instance

omit [Has .sessionCounter es] in
instance :
    Stays P es (handleSessionBinding header fullMessage) := by
  unfold handleSessionBinding
  infer_instance

instance [IgnoresExchange P] [Has .authenticate es]
    [Has .createSession es] [Has .deleteTree es] [Has .handle es] [Has .lease es] :
    Stays P es (handleSessionSetup header body fullMessage) := by
  refine walks_step fun request => ?_
  split
  · infer_instance
  refine walks_step fun existing => walks_step fun result => ?_
  cases result <;> infer_instance

end SessionSetup

instance [Has .backend es] : Stays P es (deleteFileOf header handle) := by
  refine walks_step fun r => ?_
  split
  · refine walks_step fun s => ?_
    split <;> infer_instance
  · infer_instance

instance [Has .handle es] [Has .backend es] {infoClass : UInt8}
    {buffer : Bytes} : Stays P es (handleSetFileInfo share handle infoClass buffer) := by
  unfold handleSetFileInfo setBasicInfo setRenameInfo
  split <;> infer_instance

section Ordinary

variable [IgnoresCredits P]

omit [Externs] in
instance : Stays P es (handleFlush header) := by
  unfold handleFlush
  infer_instance

instance [Has .counter es] [Has .createTree es] :
    Stays P es (handleTreeConnect header body) := by
  unfold handleTreeConnect
  infer_instance

variable [Has .backend es]

omit [Externs] in
instance {action : UInt32} {oplock : OplockLevel} {lease : UInt32} :
    Stays P es (openResponse header r o share filename handleId action oplock lease) := by
  unfold openResponse
  infer_instance

section Create

variable [Has .registry es] [Has .handle es]

instance [Has .counter es] [Has .fileHandles es] [Has .createHandle es]
    [Has .lease es] [Has .oplock es] [Has .registerOplock es] {contexts : List CreateContext} :
    Stays P es (openFile header r contexts filename) := by
  unfold openFile
  refine walks_step fun _ => walks_step fun _ => walks_step fun _ => walks_step fun _ => ?_
  exact walks_step fun opened => inferInstance

instance {persistentId : UInt64} {createGuid : Option Bytes} :
    Stays P es (durableReconnect header persistentId createGuid filename) := by
  unfold durableReconnect
  infer_instance

instance [Has .counter es] [Has .fileHandles es] [Has .createHandle es]
    [Has .lease es] [Has .oplock es] [Has .registerOplock es] :
    Stays P es (handleCreate header body) := by
  refine walks_seq (walks_step fun r => walks_step fun _ => ?_) fun x => inferInstance
  dsimp only
  split <;> infer_instance

instance [Has .lease es] [Has .lock es] :
    Stays P es (handleClose header body) := by
  refine walks_step fun _ => walks_step fun handle => walks_seq ?_ fun _ => inferInstance
  unfold releaseCaching
  split
  · infer_instance
  split <;> infer_instance

end Create

instance [Has .handle es] : Stays P es (handleRead header body) := by
  unfold handleRead readHandle
  infer_instance

instance [Has .handle es] : Stays P es (handleWrite header body) := by
  unfold handleWrite writeHandle
  infer_instance

instance [Has .counter es] [Has .lock es] :
    Stays P es (handleLock header body) := by
  unfold handleLock
  rw [lockOwnedHandle_eq]
  unfold lockHandle
  infer_instance

instance {status : NtStatus} {output : Bytes} :
    Stays P es (ioctlRespond header body status output) := by
  unfold ioctlRespond
  infer_instance

instance {isWrite : Bool} :
    Stays P es (handleCopychunk header body isWrite) := by
  unfold handleCopychunk copychunkHandles performCopy
  infer_instance

instance : Stays P es (handleIoctl header body) := by
  unfold handleIoctl handleValidateNegotiateInfo handleRequestResumeKey
  infer_instance

instance : Stays P es (handleQueryDirectory header body) := by
  unfold handleQueryDirectory queryDirectoryHandle
  infer_instance

instance : Stays P es (handleQueryInfo header body) := by
  unfold handleQueryInfo queryInfoHandle
  infer_instance

instance [Has .handle es] : Stays P es (handleSetInfo header body) := by
  refine walks_step fun _ => walks_step fun infoType => walks_step fun _ => ?_
  refine walks_step fun handle => walks_step fun share => walks_step fun _ => ?_
  cases infoType <;> unfold applySetInfo <;> infer_instance

end Ordinary

theorem handleCreate_wp {I : List (Event Smb) → SmbOp → Prop} {s : ConnectionHandler}
    {h : List (Event Smb)}
    (hrecon : ∀ persistentId createGuid filename s h,
      wp I (durableReconnect header persistentId createGuid filename) (fun _ _ _ => True) s h)
    (hopen : ∀ r, CreateRequest.read body = some r → ∀ filename s h,
      wp I (openFile header r (r.contexts body) filename) (fun _ _ _ => True) s h) :
    wp I (handleCreate header body) (fun _ _ _ => True) s h := by
  refine wp_seq (wp_onOk_true ?_) fun _ _ _ _ => wp_pure.2 trivial
  refine wp_bind.2 (wp_parsed.2 ⟨fun r hr => wp_skip fun _ s h => ?_, fun _ => trivial⟩)
  dsimp only
  split
  · exact hrecon _ _ _ s h
  · exact hopen r hr _ s h

/-- The dispatcher's checks only read. -/
instance [IgnoresSessions P] : Stays P es (gate header) := by
  unfold gate sessionGate checkSession treeGate
  infer_instance

section Commands

variable (header body fullMessage)

include header body fullMessage

theorem handleCommand_ordinary [IgnoresCredits P] [IgnoresSessions P]
    (hn : header.command ≠ .negotiate) (hs : header.command ≠ .sessionSetup) :
    Keeping P (footprint header.command) (handleCommand header body fullMessage) := by
  unfold handleCommand
  cases hcmd : header.command with
  | negotiate => exact absurd hcmd hn
  | sessionSetup => exact absurd hcmd hs
  | _ => exact walked

/-- All handlers but that of NEGOTIATE keep what speaks neither about credits nor about sessions. -/
theorem handleCommand_keeping [IgnoresCredits P] [IgnoresSessions P] [IgnoresExchange P]
    (hn : header.command ≠ .negotiate) :
    Keeping P (footprint header.command) (handleCommand header body fullMessage) := by
  by_cases hs : header.command = .sessionSetup
  · unfold handleCommand
    rw [hs]
    exact walked
  · exact handleCommand_ordinary header body fullMessage hn hs

/-- **A handler stays within the footprint of its command.** -/
theorem handleCommand_within :
    Within c (footprint header.command) (handleCommand header body fullMessage) := by
  by_cases hn : header.command = .negotiate
  · unfold handleCommand
    rw [hn]
    exact keeps_map handleNegotiate_within
  by_cases hs : header.command = .sessionSetup
  · unfold handleCommand
    rw [hs]
    exact walked
  · exact handleCommand_ordinary header body fullMessage hn hs

theorem handleCommand_effects (s : ConnectionHandler) (h : List (Event Smb)) :
    wp (fun _ (o : SmbOp) => o.effect = .none ∨ o.effect ∈ footprint header.command)
      (handleCommand header body fullMessage) (fun _ _ _ => True) s h :=
  wp_mono (handleCommand_within header body fullMessage s h (.inr rfl)) fun _ _ _ _ => trivial

end Commands

end Commands

end Within

end RustSmb
