import RustSmb.Server.FileIo
import RustSmb.Server.Open

/-!
# OPLOCK_BREAK

The acknowledgments that clients send after a break notification.  The size field of
the body tells an oplock acknowledgment from a lease acknowledgment.  Both find their
target by the file identifier or the lease key in the body alone.

## Main definitions

* `Handler.handleOplockBreakAck`, `Handler.handleLeaseBreakAck`
* `Handler.handleOplockBreak`

Source: `rustsmb-server/src/handler.rs`, `rustsmb-protocol/src/commands/oplock_break.rs`.
-/

namespace RustSmb.Handler

def oplockLevels : List UInt8 := [0x00, 0x01, 0x08, 0x09, 0xFF]

/-- The acknowledgment of an oplock break.  An acknowledgment that answers no pending break
is taken as well. -/
def handleOplockBreakAck (header : Smb2Header) (body : Bytes) : Handler Response := do
  let ackedLevel := body.u8 2
  let handleId := fileIdAt body 8
  Proc.require (24 ≤ body.length && oplockLevels.contains ackedLevel) .protocol
  let found ← storeOrInternal (.getHandle handleId)
  let handle ← getOrFail found .fileClosed
  let _ ← handleOplockAcknowledgment handleId ackedLevel
  registry (.updateOplockLevel handleId ackedLevel)
  let _ ← store (.updateHandle { handle with oplockLevel := ackedLevel })
  respond header (Bytes.ofU16 24 ++ [ackedLevel, 0] ++ Bytes.ofU32 0 ++ body.slice 8 16)

/-- The store learns the state that the client keeps. -/
def recordAcknowledged (leaseKey : String) (ackedState : UInt32) : Handler Unit := do
  match ← store (.getLease leaseKey) with
  | .ok (some lease) => do
      let _ ← store (.updateLease (lease.afterBreak ackedState))
      pure ()
  | _ => pure ()

/-- The acknowledgment of a lease break. -/
def handleLeaseBreakAck (header : Smb2Header) (body : Bytes) : Handler Response := do
  Proc.require (36 ≤ body.length) .protocol
  let leaseKey := body.slice 8 16
  let ackedState := body.u32 24
  match ← handleAcknowledgment leaseKey ackedState with
  | .error .invalidStateSubset => fail .requestNotAccepted
  | .error _ => fail .invalidParameter
  | .ok () => do
      recordAcknowledged leaseKey.hex ackedState
      respond header
        (Bytes.ofU16 36 ++ Bytes.ofU16 0 ++ Bytes.ofU32 0 ++ leaseKey ++ Bytes.ofU32 ackedState ++
          Bytes.ofU64 0)

/-- The size of the body tells the two acknowledgments apart. -/
def handleOplockBreak (header : Smb2Header) (body : Bytes) : Handler Response := do
  Proc.require (2 ≤ body.length) .protocol
  if body.u16 0 = 24 then handleOplockBreakAck header body
  else if body.u16 0 = 36 then handleLeaseBreakAck header body
  else fail .invalidParameter

end RustSmb.Handler
