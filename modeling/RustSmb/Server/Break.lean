import RustSmb.Server.Handler

/-!
# Breaking leases and oplocks

The methods of the break registry that make several accesses.  To break a lease or an oplock is to
notify its connection and, if an acknowledgment is needed, to wait for it; an acknowledgment takes
the pending break out of the registry and completes it, or drops it when it acknowledges something
that was not asked for.

## Main definitions

* `Handler.breakLease`, `Handler.breakOplock`, `Handler.initiateOplockBreakNowait`
* `Handler.handleAcknowledgment`, `Handler.handleOplockAcknowledgment`

Source: `rustsmb-server/src/lease_break.rs`.
-/

namespace RustSmb

def BreakWait.toResult : BreakWait → LeaseBreakResult
  | received r => r
  | dropped => .disconnected
  | elapsed => .timedOut

namespace Handler

/-- The break is pending until its wait ends, however it ends. -/
def awaitLeaseBreak (breakId : UInt64) (pending : PendingBreak) : Handler LeaseBreakResult := do
  registry (.insertPendingBreak breakId pending)
  let outcome ← registry (.awaitCompletion breakId)
  let _ ← registry (.removePendingBreak breakId)
  pure (BreakWait.toResult outcome)

/-- Tells the holder, and waits unless only reading was cached. -/
def breakLease (leaseKey : String) (currentState newState : UInt32) (epoch : UInt16)
    (filePath : String) : Handler (Except LeaseBreakError LeaseBreakResult) := do
  match ← registry (.leaseConnection leaseKey) with
  | none => pure (.error .leaseNotFound)
  | some entry => do
      let ackRequired := currentState != 0x01
      let breakId ← registry .nextBreakId
      let sent ← registry (.sendLeaseBreak entry.breakTx
        { leaseKey, currentState, newState, newEpoch := epoch, ackRequired, breakId })
      if !sent then pure (.error .sendFailed)
      else if !ackRequired then pure (.ok .noAckRequired)
      else do
        let result ← awaitLeaseBreak breakId { leaseKey, newState, filePath }
        pure (.ok result)

def oplockAckRequired (level : UInt8) : Bool := level == 0x09 || level == 0x08

/-- The break is pending until its wait ends, however it ends. -/
def awaitOplockBreak (breakId : UInt64) (pending : PendingOplockBreak) :
    Handler LeaseBreakResult := do
  registry (.insertPendingOplockBreak breakId pending)
  let outcome ← registry (.awaitCompletion breakId)
  let _ ← registry (.removePendingOplockBreak breakId)
  pure (BreakWait.toResult outcome)

/-- Tells the holder, and waits if it held more than level II. -/
def breakOplock (handleId : HandleId) (newLevel : UInt8) (filePath : String) :
    Handler (Except LeaseBreakError LeaseBreakResult) := do
  match ← registry (.oplockConnection handleId) with
  | none => pure (.error .leaseNotFound)
  | some entry => do
      let ackRequired := oplockAckRequired entry.oplockLevel
      let breakId ← registry .nextBreakId
      let sent ← registry (.sendOplockBreak entry.breakTx
        { handleId, currentLevel := entry.oplockLevel, newLevel, ackRequired, breakId })
      if !sent then pure (.error .sendFailed)
      else if !ackRequired then pure (.ok .noAckRequired)
      else do
        let result ← awaitOplockBreak breakId { handleId, newLevel, filePath }
        pure (.ok result)

/-- Notify the holder of an oplock without waiting. -/
def initiateOplockBreakNowait (handleId : HandleId) (newLevel : UInt8) : Handler Bool := do
  match ← registry (.oplockConnection handleId) with
  | none => pure false
  | some entry => do
      let breakId ← registry .nextBreakId
      registry (.trySendOplockBreak entry.breakTx
        { handleId, currentLevel := entry.oplockLevel, newLevel,
          ackRequired := oplockAckRequired entry.oplockLevel, breakId })

/-- Take an acknowledgment of a lease break.  A pending break is gone even if the state is
refused. -/
def handleAcknowledgment (leaseKey : Bytes) (ackedState : UInt32) :
    Handler (Except LeaseBreakError Unit) := do
  match ← registry (.findPendingBreak leaseKey.hex) with
  | none => pure (.error .noPendingBreak)
  | some breakId => do
      match ← registry (.removePendingBreak breakId) with
      | none => pure (.error .noPendingBreak)
      | some pending =>
          if ackedState &&& ~~~pending.newState ≠ 0 then do
            registry (.dropCompletion breakId)
            pure (.error .invalidStateSubset)
          else do
            registry (.complete breakId (.acknowledged ackedState 0))
            pure (.ok ())

/-- Completes the wait of the break that it is for. -/
def handleOplockAcknowledgment (handleId : HandleId) (ackedLevel : UInt8) :
    Handler (Except LeaseBreakError Unit) := do
  match ← registry (.findPendingOplockBreak handleId) with
  | none => pure (.error .noPendingBreak)
  | some breakId => do
      match ← registry (.removePendingOplockBreak breakId) with
      | none => pure (.error .noPendingBreak)
      | some pending =>
          if ackedLevel ≠ pending.newLevel ∧ ackedLevel ≠ 0x00 then do
            registry (.dropCompletion breakId)
            pure (.error .invalidStateSubset)
          else do
            registry (.complete breakId (.acknowledged ackedLevel.toUInt32 0))
            pure (.ok ())

end Handler

end RustSmb
