import RustSmb.Server.Create

/-!
# CREATE: leases, oplocks and the handle

The second half of CREATE grants the lease or the oplock that the client asks for,
breaking those of others that are in the way, records the handle and answers.  A
request that carries a durable reconnect looks up its old handle instead.

## Main definitions

* `Handler.grantLease` — the lease of an open, with the breaks that it causes.
* `Handler.grantOplock` — the oplock of an open.
* `Handler.openFile`, `Handler.durableReconnect` — the two ways of CREATE.
* `Handler.handleCreate`.

Source: `rustsmb-server/src/handler.rs`.
-/

namespace RustSmb

open Proc

variable [Externs]

/-! ### Leases -/

/-- Does a lease keep a request from getting everything it asks for? -/
def hasLeaseConflict (existingState requestedState : UInt32) : Bool :=
  existingState &&& 0x02 != 0 || requestedState &&& 0x02 != 0

/-- The state of a lease after a break. -/
def LeaseBreakResult.finalState (breakTo : UInt32) : LeaseBreakResult → UInt32
  | acknowledged newState _ => newState
  | timedOut | disconnected => 0
  | noAckRequired | alreadyBroken => breakTo

/-- A lease after a break. -/
def LeaseEntry.afterBreak (l : LeaseEntry) (state : UInt32) : LeaseEntry :=
  { l with
    leaseState := state
    epoch := l.epoch + 1
    breaking := false
    breakToState := 0
    breakStartedAt := none }

/-- The name under which leases and locks file a path. -/
def filePathOf (shareName filename : String) : String := shareName ++ "/" ++ filename

namespace Handler

/-- Break a lease that is in the way, and store what is left of it. -/
def breakConflict (leaseState : UInt32) (filePath : String) (conflict : LeaseEntry) :
    Handler Unit := do
  let breakTo := calculateBreakState conflict.leaseState leaseState
  if breakTo = conflict.leaseState then pure ()
  else do
    match ← breakLease conflict.leaseKey conflict.leaseState breakTo (conflict.epoch + 1)
        filePath with
    | .error _ => pure ()
    | .ok result => do
        let _ ← store (.updateLease (conflict.afterBreak (result.finalState breakTo)))
        pure ()

/-- The state to report after the breaks: everything that was asked for if no other lease is
in the way any more. -/
def recheckLeases (filePath leaseKey : String) (leaseState grantedState : UInt32) :
    Handler UInt32 := do
  match ← store (.getLeasesForFile filePath) with
  | .error _ => pure grantedState
  | .ok (remaining : List LeaseEntry) =>
      let stillConflicting := remaining.filter fun l =>
        l.leaseKey != leaseKey && hasLeaseConflict l.leaseState leaseState
      pure (if stillConflicting.isEmpty then leaseState else grantedState)

/-- The entry under which this connection takes the break notifications of a lease. -/
def leaseConnectionEntry (s : ConnectionHandler) (sessionId : UInt64) : LeaseConnectionEntry where
  breakTx := s.connection.id
  serverId := s.serverId
  clientGuid := s.connection.clientGuid.hex
  sessionId := sessionId

/-- The state to report for a lease, once the conflicting leases of this server were broken. -/
def reportedLeaseState (filePath leaseKey : String) (leaseState : UInt32)
    (result : LeaseConflictResult) (broken : List LeaseEntry) : Handler UInt32 :=
  if broken.isEmpty then pure result.grantedState
  else recheckLeases filePath leaseKey leaseState result.grantedState

/-- Ask for a lease on a file: the state to report, or nothing if the store fails. -/
def grantLease (sessionId : UInt64) (filePath : String) (key : Bytes) (leaseState : UInt32)
    (isV2 : Bool) : Handler (Option UInt32) := do
  let s ← get
  let now ← now
  let lease := LeaseEntry.new key s.connection.clientGuid.hex sessionId s.serverId filePath
    leaseState isV2 now
  match ← store (.checkAndCreateLease filePath lease leaseState) with
  | .error _ => pure none
  | .ok (result : LeaseConflictResult) => do
      let sameServer := result.conflicts.filter fun c => c.serverId == s.serverId
      forEach (breakConflict leaseState filePath) sameServer
      let granted ← reportedLeaseState filePath key.hex leaseState result sameServer
      registry (.registerLease key.hex (leaseConnectionEntry s sessionId))
      pure (some granted)

/-! ### Oplocks -/

/-- Break an oplock to level II. -/
def breakOplockConflict (filePath : String) (oplock : HandleId × UInt8 × String × UInt64) :
    Handler Unit := do
  match ← breakOplock oplock.1 0x01 filePath with
  | .ok _ => registry (.updateOplockLevel oplock.1 0x01)
  | .error _ => pure ()

/-- The oplock that can be granted, after others are broken. -/
def grantOplock (shareName filename : String) (requested : OplockLevel) :
    Handler OplockLevel := do
  let s ← get
  let existing ← registry (.getOplocksForFile shareName filename)
  let conflicting := existing.filter fun o =>
    o.2.2.1 == s.serverId && (o.2.1 == 0x09 || o.2.1 == 0x08)
  forEach (breakOplockConflict (filePathOf shareName filename)) conflicting
  let remaining ← registry (.getOplocksForFile shareName filename)
  let reduce := remaining.any (fun o => o.2.1 != 0x00) &&
    (requested == .batch || requested == .exclusive)
  pure (if reduce then .levelII else requested)

end Handler

/-! ### The handle and the response -/

/-- The handle that is stored.  Its times and its deadline are from one reading of the clock. -/
def newHandle (header : Smb2Header) (r : CreateRequest) (o : OpenOptions) (handleId : HandleId)
    (shareName filename : String) (fileHandle : FileHandle) (isDirectory : Bool) (guid : Bytes)
    (now : UInt64) : HandleState :=
  let handle : HandleState :=
    { persistentId := handleId
      volatileId := handleId
      treeId := header.treeId
      sessionId := header.sessionId
      path := filename
      accessMask := r.desiredAccess
      shareAccess := r.shareAccess
      createOptions := r.createOptions
      isDurable := o.isDurable
      isPersistent := o.isPersistent
      createdAt := now
      lastAccess := now
      createGuid := none
      fileOffset := 0
      shareName := shareName
      createDisposition := r.createDisposition
      fileAttributes := r.fileAttributes
      appInstanceId := none
      durableTimeout := o.durableTimeout
      reconnectDeadline := none
      leaseKey := none
      oplockLevel := o.requestedOplock.asU8
      boundServerId := none
      deleteOnClose := r.createOptions &&& 0x00001000 != 0
      isDirectory := isDirectory
      backendInternalId := fileHandle.backendInternalId }
  if o.isDurable then
    { handle with createGuid := some guid.hex }.setDurableTimeout
      (if o.durableTimeout > 0 then o.durableTimeout else 60000) now
  else handle

/-- The context that grants durability. -/
def durableContext (isPersistent isV2 : Bool) (timeout : UInt32) : ResponseContext :=
  if isPersistent then .durableHandleV2 timeout 0x02
  else if isV2 then .durableHandleV2 timeout 0
  else .durableHandle

/-- The contexts of the response to an open. -/
def openContexts (o : OpenOptions) (grantedLeaseState : UInt32) : List ResponseContext :=
  (if o.isDurable then [durableContext o.isPersistent o.createGuid.isSome o.durableTimeout]
    else []) ++
  (match o.leaseKey with
    | some key =>
        [if o.leaseIsV2 then .leaseV2 key grantedLeaseState 0 1
          else .lease key grantedLeaseState 0]
    | none => []) ++
  (if o.queryMaximalAccess then [.maximalAccess 0 0x001F01FF] else [])

/-- Round up to a multiple of the block size. -/
def roundToBlock (n : UInt64) : UInt64 := (n + 4095) / 4096 * 4096

/-- The attributes that are reported. -/
def openAttributes (r : CreateRequest) (action : UInt32) (metadata : Option Metadata) : UInt32 :=
  if action = 2 then
    let preserved := r.fileAttributes &&& 0x7107
    if metadata.any (fun m => m.fileType == .directory) || r.createOptions &&& 0x01 != 0 then
      preserved ||| 0x10
    else preserved ||| 0x20
  else
    match metadata with
    | none => 0x20
    | some m =>
        (if m.fileType == .directory then 0x10 else 0x20) |||
          (if m.mode &&& 0o200 = 0 then 0x01 else 0)

/-- The allocation size that is reported. -/
def openAllocationSize (o : OpenOptions) (attributes : UInt32) (metadata : Option Metadata) :
    UInt64 :=
  if attributes &&& 0x10 ≠ 0 then 0
  else if o.allocationSize > 0 then roundToBlock o.allocationSize
  else
    match metadata with
    | none => 0
    | some m => if m.size > 0 then roundToBlock m.size else 0

namespace Handler

/-- Grant the lease that is asked for. -/
def openLease (header : Smb2Header) (o : OpenOptions) (shareName filename : String) :
    Handler (Option UInt32) :=
  match o.leaseKey with
  | some key =>
      grantLease header.sessionId (filePathOf shareName filename) key o.leaseState o.leaseIsV2
  | none => pure none

/-- The oplock of an open: leases go their own way. -/
def openOplock (o : OpenOptions) (shareName filename : String) : Handler OplockLevel :=
  if o.leaseKey.isNone ∧ o.requestedOplock ≠ .none then
    grantOplock shareName filename o.requestedOplock
  else pure o.requestedOplock

/-- Register an oplock that was granted. -/
def registerOpenOplock (header : Smb2Header) (o : OpenOptions) (handleId : HandleId)
    (granted : OplockLevel) (shareName filename : String) : Handler Unit := do
  let s ← get
  when (o.leaseKey.isNone && granted != .none)
    (registry (.registerOplock handleId
      { breakTx := s.connection.id
        serverId := s.serverId
        sessionId := header.sessionId
        oplockLevel := granted.asU8
        filePath := filename
        shareName := shareName }))

/-- The response to an open. -/
def openResponse (header : Smb2Header) (r : CreateRequest) (o : OpenOptions)
    (share filename : String) (handleId : HandleId) (action : UInt32) (oplock : OplockLevel)
    (grantedLeaseState : UInt32) : Handler (Smb2Header × CreateResponse) := do
  let respHeader ← buildResponseHeader header .success
  let stat ← backend share (.stat filename)
  let metadata : Option Metadata := stat.toOption
  let attributes := openAttributes r action metadata
  let time ← currentFiletime
  pure (respHeader,
    { oplockLevel := oplock
      createAction := action
      time := time
      allocationSize := openAllocationSize o attributes metadata
      endOfFile := (metadata.map Metadata.size).getD 0
      fileAttributes := attributes
      fileId := handleId
      contexts := openContexts o grantedLeaseState })

/-- The identifier by which a durable handle can be reconnected. -/
def openGuid (o : OpenOptions) : Handler Bytes :=
  match o.createGuid with
  | some guid => pure guid
  | none => if o.isDurable then randomGuid else pure (Bytes.zeros 16)

/-- Open a file. -/
def openFile (header : Smb2Header) (r : CreateRequest) (contexts : List CreateContext)
    (filename : String) : Handler (Smb2Header × CreateResponse) := do
  let found ← storeOrInternal (.getTree header.sessionId header.treeId)
  let tree ← getOrFail found .invalidParameter
  let share ← getShare tree.shareName
  checkShareModes header r tree.shareName filename
  let (fileHandle, isDirectory, action) ← openOnBackend r share filename
  let handleId ← storeOrInternal .nextHandleId
  let s ← get
  let o := OpenOptions.ofRequest s.connection.dialect r contexts
  let guid ← openGuid o
  let now ← now
  let handle := newHandle header r o handleId tree.shareName filename fileHandle isDirectory guid
    now
  let lease ← openLease header o tree.shareName filename
  let oplock ← openOplock o tree.shareName filename
  storeOrInternal (.createHandle
    { handle with
      leaseKey := if lease.isSome then o.leaseKey.map Bytes.hex else none
      oplockLevel := oplock.asU8 })
  registerOpenOplock header o handleId oplock tree.shareName filename
  openResponse header r o share filename handleId action oplock (lease.getD 0)

/-! ### Durable reconnect -/

/-- The client names another handle than the stored one. -/
def guidMismatch (handle : HandleState) (createGuid : Option Bytes) : Bool :=
  match createGuid, handle.createGuid.bind Bytes.unhex with
  | some client, some stored => stored.length == 16 && client != stored
  | _, _ => false

/-- Does the name of a reconnect fit the handle?  Names that start with two underscores
always do. -/
def reconnectNameOk (handle : HandleState) (filename : String) : Bool :=
  filename == "" || handle.path == filename || ['_', '_'].isPrefixOf filename.toList

/-- Find the disconnected handle that a reconnect names and check that it may be taken. -/
def findDurableHandle (persistentId : UInt64) (createGuid : Option Bytes) (filename : String) :
    Handler HandleState := do
  let handleId := BitVec.ofNat 128 persistentId.toNat
  let found ← storeOrInternal (.getHandle handleId)
  let handle ← getOrFail found .objectNameNotFound
  require (handle.isDurable || handle.isPersistent) (.status .objectNameNotFound)
  require (handle.sessionId == 0) (.status .objectNameNotFound)
  let now ← now
  if handle.canReconnect now then do
    require (!guidMismatch handle createGuid) (.status .objectNameNotFound)
    require (reconnectNameOk handle filename) (.status .invalidParameter)
    pure handle
  else do
    let _ ← store (.deleteHandle handleId)
    fail .objectNameNotFound

/-- The lease context of a reconnect: the stored state, or read caching if the store has none. -/
def reconnectLeaseContext (handle : HandleState) : Handler (List ResponseContext) :=
  match handle.leaseKey with
  | none => pure []
  | some leaseKey =>
      match (Bytes.unhex leaseKey).filter fun key => key.length == 16 with
      | none => pure []
      | some key => do
          match ← store (.getLease leaseKey) with
          | .ok (some lease) =>
              pure [if lease.isV2 then .leaseV2 key lease.leaseState 0 lease.epoch
                else .lease key lease.leaseState lease.epoch.toUInt32]
          | _ => pure [.lease key 0x01 0]

/-- The attributes that are reported on a reconnect. -/
def reconnectAttributes (m : Metadata) : UInt32 :=
  0x20 ||| (if m.fileType == .directory then 0x10 else 0) |||
    (if m.mode &&& 0o200 = 0 then 0x01 else 0)

/-- The context that answers a durable reconnect; a handle that deletes its file on close
gets none. -/
def reconnectDurableContext (handle : HandleState) (createGuid : Option Bytes) :
    List ResponseContext :=
  if handle.deleteOnClose then []
  else [durableContext handle.isPersistent createGuid.isSome handle.durableTimeout]

/-- Register the lease of a reconnected handle. -/
def registerHandleLease (header : Smb2Header) (handle : HandleState) : Handler Unit := do
  let s ← get
  match handle.leaseKey with
  | some leaseKey => registry (.registerLease leaseKey (leaseConnectionEntry s header.sessionId))
  | none => pure ()

/-- Take up a durable handle again. -/
def durableReconnect (header : Smb2Header) (persistentId : UInt64) (createGuid : Option Bytes)
    (filename : String) : Handler (Smb2Header × CreateResponse) := do
  let handle ← findDurableHandle persistentId createGuid filename
  let found ← storeOrInternal (.getTree header.sessionId header.treeId)
  let tree ← getOrFail found .invalidParameter
  let share ← getShare tree.shareName
  let stat ← backend share (.stat handle.path)
  let metadata : Metadata ← getOrFail stat.toOption .objectNameNotFound
  require (handle.backendInternalId.all fun ino => metadata.ino == ino)
    (.status .objectNameNotFound)
  let now ← now
  let handle :=
    { handle with
      sessionId := header.sessionId
      treeId := header.treeId
      lastAccess := now
      volatileId := handle.persistentId }
  storeOrInternal (.updateHandle handle)
  registerHandleLease header handle
  let respHeader ← buildResponseHeader header .success
  let lease ← reconnectLeaseContext handle
  let time ← currentFiletime
  pure (respHeader,
    { oplockLevel := OplockLevel.fromU8 handle.oplockLevel
      createAction := 1
      time := time
      allocationSize := metadata.blocks * 512
      endOfFile := metadata.size
      fileAttributes := reconnectAttributes metadata
      fileId := handle.persistentId
      contexts := reconnectDurableContext handle createGuid ++ lease })

/-- The handle that the first reconnect context names. -/
def reconnectOf : List CreateContext → Option (UInt64 × Option Bytes)
  | [] => none
  | .durableHandleReconnect persistentId _ :: _ => some (persistentId, none)
  | .durableHandleReconnectV2 persistentId _ guid _ :: _ => some (persistentId, some guid)
  | _ :: rest => reconnectOf rest

/-- Open a file or take up a handle again. -/
def createResponse (header : Smb2Header) (body : Bytes) :
    Handler (Smb2Header × CreateResponse) := do
  let r ← parsed (CreateRequest.read body)
  ofExcept (validateCreate r body)
  let filename := normalizeSlashes (r.filenameRaw body)
  let contexts := r.contexts body
  match reconnectOf contexts with
  | some (persistentId, guid) => durableReconnect header persistentId guid filename
  | none => openFile header r contexts filename

/-- CREATE. -/
def handleCreate (header : Smb2Header) (body : Bytes) : Handler Response := do
  let (respHeader, response) ← createResponse header body
  pure ⟨respHeader, response.bytes⟩

end Handler

end RustSmb
