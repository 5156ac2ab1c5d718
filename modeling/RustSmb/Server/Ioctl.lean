import RustSmb.Server.FileIo
import RustSmb.Server.SessionSetup

/-!
# IOCTL

Three control codes are served: the validation of the negotiation, resume keys, and
server-side copies.  A resume key names a handle and the session that asked for it; a
copy takes its source from a resume key and its target from the request.

## Main definitions

* `CopychunkRequest`, `CopychunkRequest.parse` — the input of a copy.
* `Handler.handleValidateNegotiateInfo`, `Handler.handleRequestResumeKey`
* `Handler.handleCopychunk`, with `Handler.copychunkHandles` for its checks on the two
  handles and `Handler.copyChunks` for its loop.
* `Handler.handleIoctl`

Source: `rustsmb-server/src/handler.rs`, `rustsmb-protocol/src/commands/ioctl.rs`.
-/

namespace RustSmb

open Proc Bytes

/-- The body of an IOCTL response; the control code and the file identifier are the request's. -/
def ioctlBody (body output : Bytes) : Bytes :=
  ofU16 49 ++ ofU16 0 ++ body.slice 4 4 ++ body.slice 8 16 ++ ofU32 0 ++
    ofU32 0 ++ ofU32 112 ++ ofU32 (UInt32.ofNat output.length) ++
    ofU32 0 ++ ofU32 0 ++ output

/-- The input, if it lies in the body. -/
def ioctlInput (body : Bytes) : Option Bytes :=
  let inputCount := (body.u32 28).toNat
  let bodyOffset := (body.u32 24).toNat - SMB2_HEADER_SIZE
  if bodyOffset + inputCount > body.length then none else some (body.slice bodyOffset inputCount)

/-! ### Server-side copies -/

/-- One range to copy. -/
structure CopychunkChunk where
  sourceOffset : UInt64
  targetOffset : UInt64
  length : UInt32
  deriving DecidableEq

/-- The input of `FSCTL_SRV_COPYCHUNK`. -/
structure CopychunkRequest where
  sourceKey : Bytes
  chunkCount : UInt32
  chunks : List CopychunkChunk

namespace CopychunkRequest

def chunkAt (input : Bytes) (offset : ℕ) : CopychunkChunk :=
  ⟨input.u64 offset, input.u64 (offset + 8), input.u32 (offset + 16)⟩

/-- The input must hold as many chunks as it announces. -/
def parse (input : Bytes) : Option CopychunkRequest :=
  if input.length < 32 then none
  else
    let chunkCount := input.u32 24
    if input.length < 32 + chunkCount.toNat * 24 then none
    else
      some
        { sourceKey := input.slice 0 24
          chunkCount := chunkCount
          chunks := (List.range chunkCount.toNat).map fun i => chunkAt input (32 + i * 24) }

/-- A resume key starts with a handle's identifier. -/
def sourceId (r : CopychunkRequest) : HandleId := BitVec.ofNat 128 (r.sourceKey.leNat 0 16)

/-- Then comes its session's. -/
def sourceSessionId (r : CopychunkRequest) : UInt64 := r.sourceKey.u64 16

/-- The limits on number, length and sum. -/
def withinLimits (r : CopychunkRequest) (limits : ServerSideCopyConfig) : Bool :=
  !(r.chunkCount > limits.maxNumberOfChunks) &&
    (r.chunks.all fun c => !(c.length == 0 || c.length > limits.maxChunkSize)) &&
    !((r.chunks.map fun c => c.length.toNat).sum > limits.maxDataSize.toNat)

end CopychunkRequest

/-- Is a range locked exclusively by another handle? -/
def lockedByOther (locks : List DistributedLock) (handleId : HandleId) (offset : UInt64)
    (length : UInt32) : Bool :=
  locks.any fun l =>
    l.handleId != handleId && l.exclusive && offset < l.rangeEnd &&
      l.offset < DistributedLock.saturatingAdd offset length.toUInt64

/-- The three counts of a response. -/
def copychunkOutput (chunksWritten chunkBytesWritten totalBytesWritten : UInt32) : Bytes :=
  ofU32 chunksWritten ++ ofU32 chunkBytesWritten ++ ofU32 totalBytesWritten

namespace Handler

variable [Externs]

/-- An answer with an output. -/
def ioctlRespond (header : Smb2Header) (body : Bytes) (status : NtStatus) (output : Bytes) :
    Handler Response := do
  let respHeader ← buildResponseHeader header status
  pure ⟨respHeader, ioctlBody body output⟩

/-- The two handles of a copy belong to the request's session, the target also to its tree, and
their accesses fit. -/
def copychunkHandles (header : Smb2Header) (targetId : HandleId) (copy : CopychunkRequest)
    (isWriteVariant : Bool) : Handler (HandleState × HandleState) := do
  require (copy.sourceSessionId == header.sessionId) (.status .objectNameNotFound)
  let found ← storeOrInternal (.getHandle copy.sourceId)
  let source ← getOrFail found .objectNameNotFound
  require (source.sessionId == header.sessionId) (.status .objectNameNotFound)
  let target ← ownedHandle header targetId .fileClosed
  require (source.accessMask &&& 0x21 != 0) (.status .accessDenied)
  require (target.accessMask &&& 0x02 != 0) (.status .accessDenied)
  require (isWriteVariant || target.accessMask &&& 0x01 != 0) (.status .accessDenied)
  pure (source, target)

/-- The chunks in turn, up to the first that fails. -/
def copyChunks (share : String) (source target : FileHandle) :
    List CopychunkChunk → UInt32 → Handler UInt32
  | [], total => pure total
  | chunk :: rest, total => do
      let data : Bytes ← backend share (.read source chunk.sourceOffset chunk.length) >>= orVfs
      when (!data.isEmpty)
        (backend share (.write target chunk.targetOffset data) >>= fun r =>
          orVfs r >>= fun _ => pure ())
      copyChunks share source target rest (total + UInt32.ofNat data.length)

/-- The copy itself, once the handles are known. -/
def performCopy (header : Smb2Header) (body : Bytes) (copy : CopychunkRequest)
    (source target : HandleState) : Handler Response := do
  let share ← treeBackend header.sessionId header.treeId .invalidParameter
  let sourceLocks ← fileLocks source.path
  let targetLocks ← fileLocks target.path
  let locked := copy.chunks.any fun c =>
    lockedByOther sourceLocks source.persistentId c.sourceOffset c.length ||
      lockedByOther targetLocks target.persistentId c.targetOffset c.length
  if locked then ioctlRespond header body .fileLockConflict (copychunkOutput 0 0 0)
  else do
    let total ← copyChunks share source.fileHandle target.fileHandle copy.chunks 0
    ioctlRespond header body .success
      (copychunkOutput (UInt32.ofNat copy.chunks.length) 0 total)

/-- FSCTL_SRV_COPYCHUNK and FSCTL_SRV_COPYCHUNK_WRITE. -/
def handleCopychunk (header : Smb2Header) (body : Bytes) (isWriteVariant : Bool) :
    Handler Response := do
  let input ← getOrFail (ioctlInput body) .invalidParameter
  let copy ← getOrFail (CopychunkRequest.parse input) .invalidParameter
  let s ← get
  let limits := s.config.serverSideCopy
  require (copy.chunkCount != 0) (.status .invalidParameter)
  if copy.withinLimits limits then do
    let (source, target) ← copychunkHandles header (fileIdAt body 8) copy isWriteVariant
    performCopy header body copy source target
  else
    ioctlRespond header body .invalidParameter
      (copychunkOutput limits.maxNumberOfChunks limits.maxChunkSize limits.maxDataSize)

/-! ### The other control codes -/

/-- Hands out a key that names the handle and its session. -/
def handleRequestResumeKey (header : Smb2Header) (body : Bytes) : Handler Response := do
  require (!(body.u32 44 < 32)) (.status .invalidParameter)
  let handle ← ownedHandle header (fileIdAt body 8) .fileClosed
  ioctlRespond header body .success
    (ofLeNat 16 handle.persistentId.toNat ++ ofU64 header.sessionId ++
      ofU32 0 ++ ofU32 0)

/-- The client has offered the dialect. -/
def validateListsDialect (input : Bytes) (revision : UInt16) : Bool :=
  (List.range (input.u16 22).toNat).any fun i =>
    decide (24 + i * 2 + 2 ≤ input.length) && input.u16 (24 + i * 2) == revision

/-- Compares the negotiation as the client saw it with the server's. -/
def handleValidateNegotiateInfo (header : Smb2Header) (body : Bytes) : Handler Response := do
  let input ← getOrFail (ioctlInput body) .invalidParameter
  require (24 ≤ input.length) (.status .invalidParameter)
  let s ← get
  require (input.slice 4 16 == s.connection.clientGuid) (.status .accessDenied)
  let dialect ← getOrFail s.connection.dialect .invalidParameter
  require (validateListsDialect input dialect.revision) (.status .accessDenied)
  ioctlRespond header body .success
    (ofU32 (negotiateCapabilities dialect) ++ s.config.serverGuid ++ ofU16 0x0001 ++
      ofU16 dialect.revision)

/-- The control codes that the server knows. -/
def handleIoctl (header : Smb2Header) (body : Bytes) : Handler Response := do
  require (56 ≤ body.length) .protocol
  validateCreditCharge header (max (body.u32 28) (body.u32 44))
  let ctlCode := body.u32 4
  if ctlCode = 0x00140204 then handleValidateNegotiateInfo header body
  else if ctlCode = 0x00140078 then handleRequestResumeKey header body
  else if ctlCode = 0x001440F2 then handleCopychunk header body false
  else if ctlCode = 0x001480F2 then handleCopychunk header body true
  else fail .notSupported

end Handler

end RustSmb
