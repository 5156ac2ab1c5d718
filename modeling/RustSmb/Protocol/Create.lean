import RustSmb.State.Types

/-!
# CREATE requests and responses

The fixed part of a CREATE request, the create contexts that follow it, and the response.  Contexts
form a chain: each names the distance to the next one, and zero ends it.

## Main definitions

* `OplockLevel`, `CreateRequest` — the fixed part.
* `CreateContext`, `parseCreateContexts` — the contexts of a request.
* `ResponseContext`, `CreateResponse` — the response, with `CreateResponse.leaseState` for
  the lease state that it reports.

Source: `rustsmb-protocol/src/commands/create.rs`.
-/

namespace RustSmb

open Bytes

/-! ### Requests -/

/-- The levels on the wire. -/
inductive OplockLevel where
  | none
  | levelII
  | exclusive
  | batch
  | lease
  deriving DecidableEq, Repr

namespace OplockLevel

def asU8 : OplockLevel → UInt8
  | none => 0x00
  | levelII => 0x01
  | exclusive => 0x08
  | batch => 0x09
  | lease => 0xFF

/-- The level with a given code; other codes mean no oplock. -/
def fromU8 (value : UInt8) : OplockLevel :=
  if value = 0x01 then levelII
  else if value = 0x08 then exclusive
  else if value = 0x09 then batch
  else if value = 0xFF then lease
  else none

end OplockLevel

/-- The fixed part of a create request. -/
structure CreateRequest where
  securityFlags : UInt8
  requestedOplockLevel : OplockLevel
  impersonationLevel : UInt32
  smbCreateFlags : UInt64
  reserved : UInt64
  desiredAccess : UInt32
  fileAttributes : UInt32
  shareAccess : UInt32
  createDisposition : UInt32
  createOptions : UInt32
  nameOffset : UInt16
  nameLength : UInt16
  createContextsOffset : UInt32
  createContextsLength : UInt32

/-- The 56 bytes of the fixed part. -/
def CreateRequest.read (body : Bytes) : Option CreateRequest :=
  if body.length < 56 then none
  else
    some
      { securityFlags := body.u8 2
        requestedOplockLevel := OplockLevel.fromU8 (body.u8 3)
        impersonationLevel := body.u32 4
        smbCreateFlags := body.u64 8
        reserved := body.u64 16
        desiredAccess := body.u32 24
        fileAttributes := body.u32 28
        shareAccess := body.u32 32
        createDisposition := body.u32 36
        createOptions := body.u32 40
        nameOffset := body.u16 44
        nameLength := body.u16 46
        createContextsOffset := body.u32 48
        createContextsLength := body.u32 52 }

/-! ### Contexts of a request -/

/-- The create contexts of a request, with all that they say. -/
inductive CreateContext where
  | durableHandleRequest
  | durableHandleReconnect (persistentId volatileId : UInt64)
  | durableHandleRequestV2 (timeout flags : UInt32) (reserved : UInt64) (createGuid : Bytes)
  | durableHandleReconnectV2 (persistentId volatileId : UInt64) (createGuid : Bytes)
      (flags : UInt32)
  | leaseRequest (leaseKey : Bytes) (leaseState leaseFlags : UInt32) (leaseDuration : UInt64)
  | leaseRequestV2 (leaseKey : Bytes) (leaseState flags : UInt32) (leaseDuration : UInt64)
      (parentLeaseKey : Bytes) (epoch reserved : UInt16)
  | queryMaximalAccess (timestamp : Option UInt64)
  | queryOnDiskId
  | allocationSize (n : UInt64)
  | appInstanceId (structureSize reserved : UInt16) (id : Bytes)
  /-- A context whose name is not known. -/
  | unknown (name data : Bytes)
  deriving DecidableEq

namespace CreateContextName

/-- `DHnQ` -/
def DURABLE_HANDLE_REQUEST : Bytes := [0x44, 0x48, 0x6E, 0x51]

/-- `DHnC` -/
def DURABLE_HANDLE_RECONNECT : Bytes := [0x44, 0x48, 0x6E, 0x43]

/-- `DH2Q` -/
def DURABLE_HANDLE_REQUEST_V2 : Bytes := [0x44, 0x48, 0x32, 0x51]

/-- `DH2C` -/
def DURABLE_HANDLE_RECONNECT_V2 : Bytes := [0x44, 0x48, 0x32, 0x43]

/-- `RqLs` -/
def LEASE_REQUEST : Bytes := [0x52, 0x71, 0x4C, 0x73]

/-- `MxAc` -/
def QUERY_MAXIMAL_ACCESS : Bytes := [0x4D, 0x78, 0x41, 0x63]

/-- `QFid` -/
def QUERY_ON_DISK_ID : Bytes := [0x51, 0x46, 0x69, 0x64]

/-- `AlSi` -/
def ALLOCATION_SIZE : Bytes := [0x41, 0x6C, 0x53, 0x69]

/-- The first bytes of the application instance identifier's name. -/
def APP_INSTANCE_ID : Bytes := [0x45, 0xBC, 0xA6, 0x6A]

end CreateContextName

open CreateContextName in
/-- Parse one context; `none` is malformed data. -/
def parseSingleContext (name data : Bytes) : Option CreateContext :=
  if name.length < 4 then some (.unknown name data)
  else
    let name4 := name.take 4
    if name4 = DURABLE_HANDLE_REQUEST then some .durableHandleRequest
    else if name4 = DURABLE_HANDLE_RECONNECT then
      if data.length < 16 then none else some (.durableHandleReconnect (data.u64 0) (data.u64 8))
    else if name4 = DURABLE_HANDLE_REQUEST_V2 then
      if data.length < 32 then none
      else some (.durableHandleRequestV2 (data.u32 0) (data.u32 4) (data.u64 8) (data.slice 16 16))
    else if name4 = DURABLE_HANDLE_RECONNECT_V2 then
      if data.length < 36 then none
      else some (.durableHandleReconnectV2 (data.u64 0) (data.u64 8) (data.slice 16 16)
        (data.u32 32))
    else if name4 = LEASE_REQUEST then
      if data.length < 32 then none
      else if data.length ≥ 52 then
        some (.leaseRequestV2 (data.slice 0 16) (data.u32 16) (data.u32 20) (data.u64 24)
          (data.slice 32 16) (data.u16 48) (data.u16 50))
      else some (.leaseRequest (data.slice 0 16) (data.u32 16) (data.u32 20) (data.u64 24))
    else if name4 = QUERY_MAXIMAL_ACCESS then
      if data.length ≥ 8 then some (.queryMaximalAccess (some (data.u64 0)))
      else some (.queryMaximalAccess none)
    else if name4 = QUERY_ON_DISK_ID then some .queryOnDiskId
    else if name4 = ALLOCATION_SIZE then
      if data.length < 8 then none else some (.allocationSize (data.u64 0))
    else if name4 = APP_INSTANCE_ID then
      if data.length < 20 then none
      else some (.appInstanceId (data.u16 0) (data.u16 2) (data.slice 4 16))
    else some (.unknown name data)

/-- Parse a chain of contexts, in at most as many steps as there are bytes: each moves on. -/
def parseContextChain : ℕ → Bytes → Option (List CreateContext)
  | 0, _ => some []
  | fuel + 1, remaining =>
      if remaining.isEmpty then some []
      else if remaining.length < 16 then none
      else
        let next := (remaining.u32 0).toNat
        let nameStart := (remaining.u16 4).toNat
        let nameLength := (remaining.u16 6).toNat
        let dataStart := (remaining.u16 10).toNat
        let dataLength := (remaining.u32 12).toNat
        if nameStart + nameLength > remaining.length then none
        else if dataStart + dataLength > remaining.length then none
        else
          match parseSingleContext (remaining.slice nameStart nameLength)
              (remaining.slice dataStart dataLength) with
          | none => none
          | some ctx =>
              if next = 0 then some [ctx]
              else (parseContextChain fuel (remaining.drop next)).map (ctx :: ·)

/-- Every entry takes a byte at least, so the length is fuel enough. -/
def parseCreateContexts (data : Bytes) : Option (List CreateContext) :=
  parseContextChain (data.length + 1) data

/-! ### Responses -/

/-- The contexts that a response can carry. -/
inductive ResponseContext where
  | durableHandle
  | durableHandleV2 (timeout flags : UInt32)
  | lease (leaseKey : Bytes) (leaseState leaseFlags : UInt32)
  | leaseV2 (leaseKey : Bytes) (leaseState flags : UInt32) (epoch : UInt16)
  | maximalAccess (queryStatus maximalAccess : UInt32)
  deriving DecidableEq

namespace ResponseContext

def name : ResponseContext → Bytes
  | durableHandle => CreateContextName.DURABLE_HANDLE_REQUEST
  | durableHandleV2 _ _ => CreateContextName.DURABLE_HANDLE_REQUEST_V2
  | lease _ _ _ | leaseV2 _ _ _ _ => CreateContextName.LEASE_REQUEST
  | maximalAccess _ _ => CreateContextName.QUERY_MAXIMAL_ACCESS

/-- What follows the name. -/
def data : ResponseContext → Bytes
  | durableHandle => zeros 8
  | durableHandleV2 timeout flags => ofU32 timeout ++ ofU32 flags
  | lease key state flags => key ++ ofU32 state ++ ofU32 flags ++ ofU64 0
  | leaseV2 key state flags epoch =>
      key ++ ofU32 state ++ ofU32 flags ++ ofU64 0 ++ zeros 16 ++
        ofU16 epoch ++ ofU16 0
  | maximalAccess status access => ofU32 status ++ ofU32 access

/-- The bytes of a context: the data starts at 24, and all but the last are padded to a multiple
of eight. -/
def bytes (isLast : Bool) (c : ResponseContext) : Bytes :=
  let size := (24 + c.data.length + 7) / 8 * 8
  let body :=
    ofU32 (if isLast then 0 else UInt32.ofNat size) ++ ofU16 16 ++ ofU16 4 ++
      ofU16 0 ++ ofU16 24 ++ ofU32 (UInt32.ofNat c.data.length) ++ c.name ++
      zeros 4 ++ c.data
  if isLast then body else body ++ zeros (size - body.length)

/-- The state that the context grants. -/
def leaseState : ResponseContext → Option UInt32
  | lease _ s _ | leaseV2 _ s _ _ => some s
  | _ => none

/-- Only the last entry has no link. -/
def build : List ResponseContext → Bytes
  | [] => []
  | [c] => c.bytes true
  | c :: c' :: cs => c.bytes false ++ build (c' :: cs)

end ResponseContext

/-- A CREATE response.  Its four times are the time at which it is built. -/
structure CreateResponse where
  oplockLevel : OplockLevel
  createAction : UInt32
  time : UInt64
  allocationSize : UInt64
  endOfFile : UInt64
  fileAttributes : UInt32
  fileId : HandleId
  contexts : List ResponseContext

namespace CreateResponse

def leaseState (r : CreateResponse) : Option UInt32 :=
  r.contexts.findSome? ResponseContext.leaseState

/-- The body on the wire. -/
def bytes (r : CreateResponse) : Bytes :=
  let ctxData := ResponseContext.build r.contexts
  let fileId := r.fileId.toNat
  ofU16 89 ++ [r.oplockLevel.asU8, 0] ++ ofU32 r.createAction ++
    ofU64 r.time ++ ofU64 r.time ++ ofU64 r.time ++ ofU64 r.time ++
    ofU64 r.allocationSize ++ ofU64 r.endOfFile ++ ofU32 r.fileAttributes ++
    ofU32 0 ++ ofLeNat 16 fileId ++
    ofU32 (if ctxData.isEmpty then 0 else 152) ++
    ofU32 (UInt32.ofNat ctxData.length) ++ ctxData

end CreateResponse

end RustSmb
