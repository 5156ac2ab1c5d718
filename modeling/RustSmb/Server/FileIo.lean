import RustSmb.Server.Create

/-!
# CLOSE, FLUSH, READ, WRITE and LOCK

The commands that work on an open handle.  Each looks the handle up by the identifier
in the request (`Handler.ownedHandle`) and refuses it unless it belongs to the session
and the tree of the request.

## Main definitions

* `fileIdAt` — the identifier that a request names.
* `Handler.ownedHandle`, `Handler.treeBackend` — the handle, and the backend of its tree.
* `Handler.handleClose`, `Handler.handleFlush`, `Handler.handleRead`, `Handler.handleWrite`.
* `Handler.handleLock`, with `Handler.processLocks` for its loop.

Source: `rustsmb-server/src/handler.rs`.
-/

namespace RustSmb

open Bytes Proc

/-- The file identifier at an offset of a body: the persistent half comes first. -/
def fileIdAt (body : Bytes) (offset : ℕ) : HandleId := BitVec.ofNat 128 (body.leNat offset 16)

namespace Handler

/-- The handle that a request names.  It must belong to the request's session and tree. -/
def ownedHandle (header : Smb2Header) (handleId : HandleId) (missing : NtStatus) :
    Handler HandleState := do
  let found ← storeOrInternal (.getHandle handleId)
  let handle ← getOrFail found missing
  ofExcept (validateHandleTreeId header handle)
  pure handle

/-- The check on a handle makes one call, and passes handles of the request's session and tree. -/
theorem ownedHandle_wp {I : List (Event Smb) → SmbOp → Prop} (header : Smb2Header)
    (handleId : HandleId) (missing : NtStatus) {s : ConnectionHandler} {h : List (Event Smb)}
    (hI : I h (.store (.getHandle handleId))) :
    wp I (ownedHandle header handleId missing)
      (onOk (fun _ _ _ => True) fun handle s' h' =>
        (s' = s ∧ h' = ⟨SmbOp.store (.getHandle handleId), .ok (some handle)⟩ :: h) ∧
          handle.sessionId ≠ 0 ∧ handle.sessionId = header.sessionId ∧
            handle.treeId = header.treeId) s h := by
  unfold ownedHandle
  rw [wp_bind]
  refine wp_storeOrInternal.2 ⟨hI, fun found => ?_, fun _ => trivial⟩
  cases found with
  | none => simp
  | some handle =>
    simp only [onOk_ok, getOrFail_some, wp_bind, wp_ofExcept, wp_pure]
    cases hv : validateHandleTreeId header handle with
    | error e => trivial
    | ok u => exact ⟨⟨rfl, rfl⟩, validateHandleTreeId_eq_ok.1 hv⟩

variable [Externs]

/-- The share of a tree. -/
def treeBackend (sessionId : UInt64) (treeId : UInt32) (missing : NtStatus) :
    Handler String := do
  let found ← storeOrInternal (.getTree sessionId treeId)
  let tree ← getOrFail found missing
  getShare tree.shareName

end Handler

/-- The backend's handle. -/
def HandleState.fileHandle (h : HandleState) : FileHandle :=
  ⟨h.persistentId, h.volatileId, h.backendInternalId⟩

namespace Handler

variable [Externs]

/-! ### CLOSE -/

/-- Give up the lease or the oplock of a handle. -/
def releaseCaching (handleId : HandleId) (handle : HandleState) : Handler Unit :=
  match handle.leaseKey with
  | some leaseKey => do
      let _ ← registry (.unregisterLease leaseKey)
      let _ ← store (.deleteLease leaseKey)
      pure ()
  | none =>
      if handle.oplockLevel ≠ 0 then do
        let _ ← registry (.unregisterOplock handleId)
        pure ()
      else pure ()

/-- Delete the file of a handle; failures are ignored. -/
def deleteFileOf (header : Smb2Header) (handle : HandleState) : Handler Unit := do
  match ← store (.getTree header.sessionId header.treeId) with
  | .ok (some tree) => do
      let s ← get
      match lookupShare s tree.shareName with
      | some share => do
          let _ ← backend share (.unlink handle.path)
          pure ()
      | none => pure ()
  | _ => pure ()

/-- Close a handle that was found. -/
def closeHandle (header : Smb2Header) (handleId : HandleId) (handle : HandleState) :
    Handler Response := do
  releaseCaching handleId handle
  let _ ← store (.releaseFileLocksForHandle handleId)
  when handle.deleteOnClose (deleteFileOf header handle)
  let _ ← store (.deleteHandle handleId)
  respond header (ofU16 60 ++ zeros 58)

/-- CLOSE. -/
def handleClose (header : Smb2Header) (body : Bytes) : Handler Response := do
  require (24 ≤ body.length) .protocol
  let handle ← ownedHandle header (fileIdAt body 8) .fileClosed
  closeHandle header (fileIdAt body 8) handle

/-- FLUSH does nothing. -/
def handleFlush (header : Smb2Header) : Handler Response :=
  respond header (ofU16 4 ++ ofU16 0)

/-! ### READ and WRITE -/

/-- Read from a handle that was found. -/
def readHandle (header : Smb2Header) (body : Bytes) (handle : HandleState) :
    Handler Response := do
  let length := body.u32 4
  let offset := body.u64 8
  let minimumCount := body.u32 32
  require (!(handle.isDirectory && !handle.isPersistent)) (.status .invalidDeviceRequest)
  -- FILE_READ_DATA, FILE_EXECUTE, GENERIC_READ or GENERIC_ALL
  require (handle.accessMask &&& 0x90000021 != 0) (.status .accessDenied)
  let share ← treeBackend header.sessionId header.treeId .invalidParameter
  let data : Bytes ← backend share (.read handle.fileHandle offset length) >>= orVfs
  require (!(data.isEmpty && length > 0)) (.status .endOfFile)
  require (!(UInt32.ofNat data.length < minimumCount)) (.status .endOfFile)
  let now ← now
  storeOrInternal (.updateHandle
    { handle with fileOffset := offset + UInt64.ofNat data.length, lastAccess := now })
  respond header
    (ofU16 17 ++ [80, 0] ++ ofU32 (UInt32.ofNat data.length) ++ ofU32 0 ++
      ofU32 0 ++ data)

/-- READ. -/
def handleRead (header : Smb2Header) (body : Bytes) : Handler Response := do
  require (48 ≤ body.length) .protocol
  validateCreditCharge header (body.u32 4)
  let handle ← ownedHandle header (fileIdAt body 16) .invalidHandle
  readHandle header body handle

/-- Write to a handle that was found. -/
def writeHandle (header : Smb2Header) (body : Bytes) (handle : HandleState) :
    Handler Response := do
  let offset := body.u64 8
  let share ← treeBackend header.sessionId header.treeId .invalidParameter
  let data := bodyPart body (body.u16 2).toNat (body.u32 4).toNat
  let written : UInt32 ← backend share (.write handle.fileHandle offset data) >>= orVfs
  when (handle.isDurable || handle.isPersistent) (do
    let now ← now
    let _ ← store (.updateHandle
      { handle with fileOffset := offset + written.toUInt64, lastAccess := now })
    pure ())
  respond header
    (ofU16 17 ++ ofU16 0 ++ ofU32 written ++ ofU32 0 ++ ofU16 0 ++
      ofU16 0)

/-- WRITE. -/
def handleWrite (header : Smb2Header) (body : Bytes) : Handler Response := do
  require (48 ≤ body.length) .protocol
  validateCreditCharge header (body.u32 4)
  let handle ← ownedHandle header (fileIdAt body 16) .invalidHandle
  writeHandle header body handle

end Handler

/-! ### LOCK -/

/-- One range of a LOCK request. -/
structure LockElement where
  offset : UInt64
  length : UInt64
  flags : UInt32
  deriving DecidableEq

namespace LockElement

/-- A shared lock is asked for. -/
def isShared (e : LockElement) : Bool := e.flags &&& 0x00000001 != 0

/-- An exclusive lock is asked for. -/
def isExclusive (e : LockElement) : Bool := e.flags &&& 0x00000002 != 0

/-- A release is asked for. -/
def isUnlock (e : LockElement) : Bool := e.flags &&& 0x00000004 != 0

/-- The request must not wait. -/
def failImmediately (e : LockElement) : Bool := e.flags &&& 0x00000010 != 0

/-- The status with which a conflict is reported. -/
def conflictStatus (e : LockElement) : NtStatus :=
  if e.failImmediately then .lockNotGranted else .fileLockConflict

/-- The lock that the backend is asked for. -/
def fileLock (e : LockElement) : FileLock := ⟨e.isExclusive, e.offset, e.length, 0⟩

/-- The checks on one element. -/
def validate (e : LockElement) : Except HandlerError Unit :=
  if !e.isUnlock ∧ !e.isShared ∧ !e.isExclusive then .error (.status .invalidParameter)
  else if e.isShared ∧ e.isExclusive then .error (.status .invalidParameter)
  else if e.isUnlock ∧ (e.isShared ∨ e.isExclusive) then .error (.status .invalidParameter)
  else if e.offset.toNat + e.length.toNat > 2 ^ 63 - 1 then .error (.status .invalidLockRange)
  else .ok ()

end LockElement

/-- The elements of a LOCK request; `none` if the body is too short for them. -/
def lockElements (body : Bytes) : ℕ → ℕ → Option (List LockElement)
  | _, 0 => some []
  | offset, n + 1 =>
      if offset + 24 > body.length then none
      else
        (lockElements body (offset + 24) n).map
          (⟨body.u64 offset, body.u64 (offset + 8), body.u32 (offset + 16)⟩ :: ·)

namespace Handler

variable [Externs]

/-- The byte-range lock that an element asks for. -/
def distributedLock (header : Smb2Header) (handleId : HandleId) (handle : HandleState)
    (lockId : UInt64) (e : LockElement) : Handler DistributedLock := do
  let s ← get
  let now ← now
  pure
    { lockId := lockId
      handleId := handleId
      sessionId := header.sessionId
      serverId := s.serverId
      filePath := handle.path
      offset := e.offset
      length := e.length
      exclusive := e.isExclusive
      createdAt := now }

/-- The locks on a file; an error counts as none. -/
def fileLocks (path : String) : Handler (List DistributedLock) := do
  match ← store (.getFileLocks path) with
  | .ok locks => pure locks
  | .error _ => pure []

/-- Give back the locks that a failing request has taken. -/
def rollbackLocks (acquired : List UInt64) : Handler Unit :=
  forEach (fun lockId => store (.releaseFileLock lockId) >>= fun _ => pure ()) acquired

/-- Give back the locks taken so far and stop. -/
def abortLocks {α : Type} (acquired : List UInt64) (e : HandlerError) : Handler α := do
  rollbackLocks acquired
  throw e

/-- Give back a recorded lock, if there is one. -/
def releaseRecorded : Option DistributedLock → Handler Unit
  | some l => store (.releaseFileLock l.lockId) >>= fun _ => pure ()
  | none => pure ()

/-- Release a lock on a range. -/
def unlockRange (share : String) (handleId : HandleId) (handle : HandleState)
    (e : LockElement) : Handler Unit := do
  let locks ← fileLocks handle.path
  let found := locks.find? fun l =>
    l.handleId == handleId && l.offset == e.offset && l.length == e.length
  releaseRecorded found
  match ← backend share (.unlock ⟨handleId, handleId, handle.backendInternalId⟩ e.fileLock) with
  | .ok _ => pure ()
  | .error .lockConflict => fail .invalidLockRange
  | .error _ => throw .vfs

/-- Record a lock that the backend has granted. -/
def recordLock (header : Smb2Header) (handleId : HandleId) (handle : HandleState)
    (e : LockElement) (acquired : List UInt64) : Handler (List UInt64) := do
  match ← store .nextFileLockId with
  | .error _ => pure acquired
  | .ok (lockId : UInt64) => do
      let lock ← distributedLock header handleId handle lockId e
      let _ ← store (.acquireFileLock lock)
      pure (acquired ++ [lockId])

/-- Acquire a lock on a range. -/
def lockRange (header : Smb2Header) (share : String) (handleId : HandleId) (handle : HandleState)
    (e : LockElement) (acquired : List UInt64) : Handler (List UInt64) := do
  let locks ← fileLocks handle.path
  let newLock ← distributedLock header handleId handle 0 e
  if locks.any fun existing => newLock.conflictsWith existing then
    abortLocks acquired (.status e.conflictStatus)
  else do
    match ← backend share (.lock ⟨handleId, handleId, handle.backendInternalId⟩ e.fileLock) with
    | .ok _ => recordLock header handleId handle e acquired
    | .error .lockConflict => abortLocks acquired (.status e.conflictStatus)
    | .error _ => abortLocks acquired .vfs

/-- Process the elements in turn. -/
def processLocks (header : Smb2Header) (share : String) (handleId : HandleId)
    (handle : HandleState) : List LockElement → List UInt64 → Handler Unit
  | [], _ => pure ()
  | e :: rest, acquired => do
      ofExcept e.validate
      if e.isUnlock then do
        unlockRange share handleId handle e
        processLocks header share handleId handle rest acquired
      else do
        let acquired ← lockRange header share handleId handle e acquired
        processLocks header share handleId handle rest acquired

/-- Lock ranges of a handle that was found. -/
def lockHandle (header : Smb2Header) (body : Bytes) (handle : HandleState) :
    Handler Response := do
  let lockCount := (body.u16 2).toNat
  let elements ← getOrFail (lockElements body 24 lockCount) .invalidParameter
  require (!(lockCount > 1 && elements.any fun e => !e.isUnlock && !e.failImmediately))
    (.status .invalidParameter)
  let share ← treeBackend header.sessionId handle.treeId .networkNameDeleted
  processLocks header share (fileIdAt body 8) handle elements []
  respond header (ofU16 4 ++ ofU16 0)

/-- The handle that a LOCK request names.  Its session is compared once more before the
usual check. -/
def lockOwnedHandle (header : Smb2Header) (handleId : HandleId) : Handler HandleState := do
  let found ← storeOrInternal (.getHandle handleId)
  let handle ← getOrFail found .fileClosed
  require (handle.sessionId == header.sessionId) (.status .fileClosed)
  ofExcept (validateHandleTreeId header handle)
  pure handle

omit [Externs] in
theorem lockOwnedHandle_eq (header : Smb2Header) (handleId : HandleId) :
    lockOwnedHandle header handleId = ownedHandle header handleId .fileClosed := by
  unfold lockOwnedHandle ownedHandle
  congr 1
  funext found
  cases found with
  | none => rfl
  | some handle =>
    have hget : (getOrFail (some handle) .fileClosed : Handler HandleState) = pure handle := rfl
    rw [hget, pure_bind, pure_bind]
    by_cases h : handle.sessionId = header.sessionId
    · rw [h, beq_self_eq_true]
      rfl
    · -- the comparison and the check refuse with the same status
      have hbeq : (handle.sessionId == header.sessionId) = false := by simpa using h
      have hval : validateHandleTreeId header handle = .error (.status .fileClosed) := by
        unfold validateHandleTreeId
        split
        · rfl
        · rfl
      rw [hbeq, hval]
      rfl

/-- LOCK. -/
def handleLock (header : Smb2Header) (body : Bytes) : Handler Response := do
  require (24 ≤ body.length) .protocol
  require (body.u16 2 != 0) (.status .invalidParameter)
  let handle ← lockOwnedHandle header (fileIdAt body 8)
  lockHandle header body handle

end Handler

end RustSmb
