import RustSmb.Protocol.Create
import RustSmb.Server.Break

/-!
# CREATE: up to the open file

Opening a file starts with the checks of the request, goes on with the share modes of
the handles that are already open, and then opens the file on the backend.  What the
contexts of the request ask for is collected in `OpenOptions`.

## Main definitions

* `validateCreate` — the checks on the request alone.
* `Handler.checkShareModes` — share modes, and disconnected handles that must give way.
* `Handler.openOnBackend` — the backend's part.
* `OpenOptions.ofRequest` — what the contexts ask for.

Source: `rustsmb-server/src/handler.rs`.
-/

namespace RustSmb

/-! ### The request -/

/-- A part of the body that a request names by its offset in the message; empty if it is not
there. -/
def bodyPart (body : Bytes) (offset length : ℕ) : Bytes :=
  let bodyOffset := offset - 64
  if bodyOffset + length ≤ body.length then body.slice bodyOffset length else []

/-- `String::from_utf16_lossy` of the bytes. -/
def decodeUtf16le (b : Bytes) : String := Utf16.decodeLossy (Utf16.units b)

def hasLeadingSlash (path : String) : Bool :=
  match path.toList with
  | c :: _ => c == '/' || c == '\\'
  | [] => false

def normalizeSlashes (path : String) : String :=
  String.ofList (path.toList.map fun c => if c == '\\' then '/' else c)

/-- The name as the request spells it. -/
def CreateRequest.filenameRaw (r : CreateRequest) (body : Bytes) : String :=
  decodeUtf16le (bodyPart body r.nameOffset.toNat r.nameLength.toNat)

/-- The contexts; none where the chain does not parse. -/
def CreateRequest.contexts (r : CreateRequest) (body : Bytes) : List CreateContext :=
  if r.createContextsLength = 0 then []
  else
    let bodyOffset := r.createContextsOffset.toNat - 64
    let length := r.createContextsLength.toNat
    if bodyOffset + length ≤ body.length then
      (parseCreateContexts (body.slice bodyOffset length)).getD []
    else []

/-- The checks of the fixed fields, in the order of the source. -/
def validateCreate (r : CreateRequest) (body : Bytes) : Except HandlerError Unit :=
  if r.securityFlags ≠ 0 then .error (.status .invalidParameter)
  else if body.u8 3 ∉ [0x00, 0x01, 0x08, 0x09, 0xFF] then .error (.status .invalidParameter)
  else if r.smbCreateFlags ≠ 0 then .error (.status .invalidParameter)
  else if r.reserved ≠ 0 then .error (.status .invalidParameter)
  else if r.createOptions &&& 0xFF000000 ≠ 0 then .error (.status .invalidParameter)
  else if r.createOptions &&& 0x00102080 ≠ 0 then .error (.status .notSupported)
  else if hasLeadingSlash (r.filenameRaw body) then .error (.status .invalidParameter)
  else if r.desiredAccess = 0 then .error (.status .accessDenied)
  else if r.desiredAccess &&& 0x0df0fe00 ≠ 0 then .error (.status .accessDenied)
  else if r.fileAttributes &&& 0xffff8048 ≠ 0 then .error (.status .invalidParameter)
  else if r.impersonationLevel > 3 then .error (.status .invalidParameter)
  else if r.createDisposition > 5 then .error (.status .invalidParameter)
  else .ok ()

/-! ### Share modes -/

def wantsRead (access : UInt32) : Bool :=
  access &&& 0x00000001 != 0 || access &&& 0x80000000 != 0 || access &&& 0x10000000 != 0

def wantsWrite (access : UInt32) : Bool :=
  access &&& 0x00000002 != 0 || access &&& 0x40000000 != 0 || access &&& 0x10000000 != 0

def wantsDelete (access : UInt32) : Bool :=
  access &&& 0x00010000 != 0 || access &&& 0x10000000 != 0

/-- The share mode denies one of the accesses wanted. -/
def shareExcludes (share access : UInt32) : Bool :=
  (share &&& 0x01 == 0 && wantsRead access) || (share &&& 0x02 == 0 && wantsWrite access) ||
    (share &&& 0x04 == 0 && wantsDelete access)

/-- The open file denies the request, or the request the open file. -/
def shareConflict (existing : HandleState) (r : CreateRequest) : Bool :=
  shareExcludes existing.shareAccess r.desiredAccess ||
    shareExcludes r.shareAccess existing.accessMask

namespace Handler

/-- Notify the holder of a batch oplock of another session; was it notified? -/
def breakBatchOplock (sessionId : UInt64) (oplock : HandleId × UInt8 × String × UInt64) :
    Handler Bool :=
  if oplock.2.2.2 = sessionId then pure false
  else if oplock.2.1 = 0x09 then do
    let broken ← initiateOplockBreakNowait oplock.1 0x01
    Proc.when broken (registry (.updateOplockLevel oplock.1 0x01))
    pure broken
  else pure false

/-- Notify the holders of batch oplocks of other sessions; was any notified? -/
def breakBatchOplocks (sessionId : UInt64) :
    List (HandleId × UInt8 × String × UInt64) → Handler Bool
  | [] => pure false
  | oplock :: rest => do
      let broken ← breakBatchOplock sessionId oplock
      let others ← breakBatchOplocks sessionId rest
      pure (broken || others)

/-- Does a disconnected handle cache handles?  The lease bit is the one that the source
tests here. -/
def hasHandleCaching (existing : HandleState) : Handler Bool :=
  if existing.oplockLevel = 0x09 then pure true
  else
    match existing.leaseKey with
    | none => pure false
    | some leaseKey => do
        match ← store (.getLease leaseKey) with
        | .ok (some lease) => pure (lease.leaseState &&& 0x02 != 0)
        | _ => pure false

/-- The lease goes with a purged handle. -/
def deleteLeaseOf (existing : HandleState) : Handler Unit :=
  match existing.leaseKey with
  | some leaseKey => store (.deleteLease leaseKey) >>= fun _ => pure ()
  | none => pure ()

/-- Delete a disconnected handle together with its lease. -/
def purgeHandle (existing : HandleState) : Handler Unit := do
  deleteLeaseOf existing
  let _ ← store (.deleteHandle existing.persistentId)
  pure ()

/-- One open handle against the request; a disconnected one with handle caching gives way. -/
def checkShareMode (r : CreateRequest) (existing : HandleState) : Handler Unit :=
  if existing.sessionId = 0 then do
    let caching ← hasHandleCaching existing
    if caching then purgeHandle existing
    else Proc.require (!shareConflict existing r) (.status .sharingViolation)
  else Proc.require (!shareConflict existing r) (.status .sharingViolation)

/-- Handles are read again if an oplock was broken in between. -/
def handlesAfterBreak (broken : Bool) (shareName filename : String)
    (existing : List HandleState) : Handler (List HandleState) :=
  if broken then storeOrInternal (.getHandlesForFile shareName filename) else pure existing

/-- Breaks the batch oplocks on the file, then tests every open handle. -/
def checkShareModes (header : Smb2Header) (r : CreateRequest) (shareName filename : String) :
    Handler Unit := do
  let existing ← storeOrInternal (.getHandlesForFile shareName filename)
  let oplocks ← registry (.getOplocksForFile shareName filename)
  let broken ← breakBatchOplocks header.sessionId oplocks
  let existing ← handlesAfterBreak broken shareName filename existing
  Proc.forEach (checkShareMode r) existing

/-! ### Opening the file -/

/-- A failing backend is reported with its own status. -/
def orVfsStatus {α : Type} : Except VfsError α → Handler α
  | .ok a => pure a
  | .error e => fail e.toStatus

/-- A failing backend is reported as a missing object. -/
def orVfs {α : Type} : Except VfsError α → Handler α
  | .ok a => pure a
  | .error _ => Proc.throw .vfs

/-- The attribute becomes the write bits of the mode. -/
def applyReadonlyAttribute (share path : String) (readonly : Bool) : Handler Unit := do
  let metadata ← backend share (.stat path) >>= orVfs
  let mode := if readonly then metadata.mode &&& ~~~0o222 else metadata.mode ||| 0o200
  backend share (.chmod path mode) >>= orVfs

end Handler

/-- The field of the response that says what the open did. -/
def createAction (disposition : UInt32) (existed : Bool) : UInt32 :=
  if disposition = 0 then if existed then 0 else 2
  else if disposition = 1 then 1
  else if disposition = 2 then 2
  else if disposition = 3 then if existed then 1 else 2
  else if disposition = 4 then 3
  else if disposition = 5 then if existed then 3 else 2
  else 1

namespace Handler

/-- Open the file on the backend: the backend's handle, whether it is a directory, and what
the open did. -/
def openOnBackend (r : CreateRequest) (share filename : String) :
    Handler (FileHandle × Bool × UInt32) := do
  let before ← backend share (.stat filename)
  let fileHandle ← backend share (.open filename
    { desiredAccess := r.desiredAccess
      shareAccess := r.shareAccess
      createDisposition := r.createDisposition
      createOptions := r.createOptions
      fileAttributes := r.fileAttributes }) >>= orVfsStatus
  let after ← backend share (.stat filename)
  let isDirectory := after.toOption.any fun m : Metadata => m.fileType == .directory
  if r.createOptions &&& 0x00000001 ≠ 0 ∧ isDirectory = false then do
    let _ ← backend share (.close fileHandle)
    fail .notADirectory
  else do
    let action := createAction r.createDisposition before.toOption.isSome
    Proc.when (action != 1)
      (applyReadonlyAttribute share filename (r.fileAttributes &&& 0x01 != 0))
    pure (fileHandle, isDirectory, action)

end Handler

/-! ### What the contexts ask for -/

/-- What the contexts ask for. -/
structure OpenOptions where
  isDurable : Bool := false
  isPersistent : Bool := false
  createGuid : Option Bytes := none
  durableTimeout : UInt32 := 0
  requestedOplock : OplockLevel
  leaseKey : Option Bytes := none
  leaseState : UInt32 := 0
  leaseIsV2 : Bool := false
  allocationSize : UInt64 := 0
  queryMaximalAccess : Bool := false

namespace OpenOptions

/-- One context at a time; a later one overrides. -/
def apply (dialect : Option SmbDialect) (o : OpenOptions) : CreateContext → OpenOptions
  | .durableHandleRequest => { o with isDurable := true }
  | .durableHandleRequestV2 timeout flags _ guid =>
      { o with
        isDurable := true
        createGuid := some guid
        durableTimeout := timeout
        -- persistent handles need SMB 3.0
        isPersistent :=
          o.isPersistent || (flags &&& 0x02 != 0 && dialect.any fun d => d.revision ≥ 0x0300) }
  | .leaseRequest key state _ _ =>
      { o with
        leaseKey := some key
        leaseState := state
        requestedOplock := if state &&& 0x01 != 0 then .lease else o.requestedOplock }
  | .leaseRequestV2 key state _ _ _ _ _ =>
      { o with
        leaseKey := some key
        leaseState := state
        leaseIsV2 := true
        requestedOplock := if state &&& 0x01 != 0 then .lease else o.requestedOplock }
  | .allocationSize n => { o with allocationSize := n }
  | .queryMaximalAccess _ => { o with queryMaximalAccess := true }
  | _ => o

/-- Durability needs a batch oplock or, with a lease, the bit for handle caching. -/
def restrictDurable (o : OpenOptions) : OpenOptions :=
  if o.isDurable ∧ o.leaseKey.isNone ∧ o.requestedOplock ≠ .batch then
    { o with isDurable := false }
  else if o.isDurable ∧ o.leaseKey.isSome ∧ o.leaseState &&& 0x02 = 0 then
    { o with isDurable := false }
  else o

/-- All contexts, from the oplock level of the request. -/
def ofRequest (dialect : Option SmbDialect) (r : CreateRequest) (contexts : List CreateContext) :
    OpenOptions :=
  (contexts.foldl (apply dialect) { requestedOplock := r.requestedOplockLevel }).restrictDurable

end OpenOptions

end RustSmb
