import RustSmb.Server.Dispatch
import RustSmb.Session.Compound

/-!
# Processing a message

A message holds one command or a compound.  A command that fails is answered with an
error response; in a related compound the error is passed on to the commands after it.
A malformed header of the message itself ends the connection.

## Main definitions

* `errorResponse` — error responses.
* `Handler.processSingleMessage`, `Handler.processCompoundRequest`,
  `Handler.processMessage`
* `Handler.processAndRespond` — the reply to a message.
* `Handler.closeConnection` — what happens when the connection goes away.

Source: `rustsmb-server/src/handler.rs`.
-/

namespace RustSmb

open Proc

variable [Externs]

/-- The response with a status and the empty error body. -/
def errorResponse (request : Smb2Header) (status : NtStatus) (sessionId : UInt64)
    (treeId : UInt32) : Response where
  header :=
    { creditCharge := request.creditCharge
      status := status.code
      command := request.command
      credits := 1
      flags := Smb2Flags.SERVER_TO_REDIR
      messageId := request.messageId
      treeId := treeId
      sessionId := sessionId }
  body := Bytes.ofU16 9 ++ [0, 0] ++ Bytes.ofU32 0 ++ [0]

/-- No response is no bytes. -/
def responseBytes : Option Response → Bytes
  | some r => r.bytes
  | none => []

/-- A response in its place: linked and padded if another follows, and signed again if changed. -/
def placeResponse (signingKeys : Table UInt64 Bytes) (isRelated isLast : Bool)
    (response : Bytes) : Bytes :=
  if response.length < SMB2_HEADER_SIZE then []
  else
    let padding := if isLast then 0 else compoundPadding response.length
    let next : UInt32 := if isLast then 0 else UInt32.ofNat (response.length + padding)
    let modified := isRelated || !isLast || response.u32 20 != 0
    let placed :=
      if isRelated then
        response.splice 16 (Bytes.ofU32 (response.u32 16 ||| Smb2Flags.RELATED_OPERATIONS))
      else response
    let placed := placed.splice 20 (Bytes.ofU32 next)
    (if modified then reSignResponse signingKeys placed else placed) ++ Bytes.zeros padding

/-- The responses of a compound in one buffer. -/
def joinResponses (signingKeys : Table UInt64 Bytes) (isRelated : Bool) : List Bytes → Bytes
  | [] => []
  | [response] => placeResponse signingKeys isRelated true response
  | response :: next :: rest =>
      placeResponse signingKeys isRelated false response ++
        joinResponses signingKeys isRelated (next :: rest)

/-- Combine the responses of a compound.  A single response is left as it is. -/
def combineCompoundResponses (signingKeys : Table UInt64 Bytes) (isRelated : Bool) :
    List Bytes → Except HandlerError Bytes
  | [] => .error .internal
  | [response] => .ok response
  | response :: next :: rest => .ok (joinResponses signingKeys isRelated (response :: next :: rest))

namespace Handler

/-- Take the charge of a command from the balance; NEGOTIATE is free, and too low a balance is
ignored. -/
def consumeCredits (header : Smb2Header) : Traced Unit :=
  when (header.command != .negotiate)
    (modify fun s =>
      { s with connection := (s.connection.consumeCredits (max header.creditCharge 1)).2 })

/-- A message with one command. -/
def processSingleMessage (header : Smb2Header) (message : Bytes) : Traced Bytes := do
  consumeCredits header
  let response ← dispatchCommand message header (message.drop SMB2_HEADER_SIZE) message
  pure (responseBytes response)

/-! ### Compounds -/

/-- The header of a related command with the inherited session and tree. -/
def resolveRelatedHeader (header : Smb2Header) (ctx : CompoundContext) : Traced Smb2Header := do
  let sessionId ← lift (getOrFail (ctx.resolveSessionId header.sessionId) .invalidParameter)
  let treeId ← lift (getOrFail (ctx.resolveTreeId header.treeId) .invalidParameter)
  pure { header with sessionId := sessionId, treeId := treeId }

/-- The identifier in a create's response. -/
def createdFileId (command : Smb2Command) (response : Bytes) : Option (UInt64 × UInt64) :=
  if command = .create ∧ response.length ≥ SMB2_HEADER_SIZE + 64 + 16 then
    some (response.u64 (SMB2_HEADER_SIZE + 64), response.u64 (SMB2_HEADER_SIZE + 72))
  else none

/-- Dispatch a command of a compound: its response and the file that it opened. -/
def dispatchCommandCompound (header : Smb2Header) (fullMessage : Bytes) (ctx : CompoundContext) :
    Traced (Bytes × Option (UInt64 × UInt64)) := do
  let message := substituteFileId header.command ctx.fileIdOverride fullMessage
  let response ← dispatchCommand fullMessage header (message.drop SMB2_HEADER_SIZE) message
  let bytes := responseBytes response
  pure (bytes, createdFileId header.command bytes)

/-- What one command of a compound leaves to the next. -/
structure CompoundState where
  ctx : CompoundContext
  lastError : Option NtStatus

def signResponse (response : Bytes) : Traced Bytes := do
  let s ← get
  pure (maybeSignResponse s.signingKeys response)

/-- The command's error response, which is also the last error from then on. -/
def compoundError (st : CompoundState) (header : Smb2Header) (status : NtStatus) :
    Traced (Bytes × CompoundState) := do
  let response ← signResponse (errorResponse header status header.sessionId header.treeId).bytes
  pure (response, ⟨st.ctx.advance none, some status⟩)

/-- A command that is run, with its error turned into a response. -/
def executeCompoundCommand (st : CompoundState) (header : Smb2Header) (cmdData : Bytes) :
    Traced (Bytes × CompoundState) := do
  consumeCredits header
  match ← attempt (dispatchCommandCompound header cmdData st.ctx) with
  | .ok (response, fileId) => do
      let ctx :=
        if st.ctx.isFirst then
          { st.ctx with sessionId := some header.sessionId, treeId := some header.treeId }
        else st.ctx
      let response ← signResponse response
      pure (response, ⟨ctx.advance fileId, st.lastError⟩)
  | .error e => compoundError st header e.toStatus

/-- The header of a command of a compound: commands after the first of a related compound
inherit. -/
def effectiveHeader (st : CompoundState) (header : Smb2Header) : Traced Smb2Header :=
  if st.ctx.related && !st.ctx.isFirst then resolveRelatedHeader header st.ctx else pure header

/-- The error that a command of a related compound inherits. -/
def inheritedError (st : CompoundState) : Option NtStatus :=
  if st.ctx.related && !st.ctx.isFirst then st.lastError else none

/-- An unreadable command and one that inherits an error are answered at once. -/
def processCompoundCommand (st : CompoundState) (cmdData : Bytes) :
    Traced (Bytes × CompoundState) :=
  match Smb2Header.read cmdData with
  | none =>
      -- the command is not known: NEGOTIATE stands in for it
      compoundError st
        { command := .negotiate
          creditCharge := 1
          treeId := st.ctx.treeId.getD 0
          sessionId := st.ctx.sessionId.getD 0 }
        .invalidParameter
  | some header => do
      let header ← effectiveHeader st header
      match inheritedError st with
      | some status => compoundError st header status
      | none => executeCompoundCommand st header cmdData

/-- One after the other, with the state handed on. -/
def processCompoundCommands : List Bytes → CompoundState → Traced (List Bytes)
  | [], _ => pure []
  | cmdData :: rest, st => do
      let (response, st) ← processCompoundCommand st cmdData
      let responses ← processCompoundCommands rest st
      pure (response :: responses)

/-- A compound is related if its second command is. -/
def processCompoundRequest (header : Smb2Header) (message : Bytes) : Traced Bytes := do
  match parseCompoundOffsets message with
  | _ :: second :: rest => do
      let secondHeader ← lift (parsed (Smb2Header.read (message.drop second)))
      let isRelated := Smb2Flags.isRelated secondHeader.flags
      let responses ← processCompoundCommands (compoundCommands message (0 :: second :: rest))
        ⟨{ related := isRelated }, none⟩
      let s ← get
      ofExcept (combineCompoundResponses s.signingKeys isRelated responses)
  | _ => processSingleMessage header message

/-! ### Messages -/

/-- A compound, or a single command, by the first header. -/
def processMessage (message : Bytes) : Traced Bytes := do
  let header ← lift (parsed (Smb2Header.read message))
  if header.nextCommand ≠ 0 then processCompoundRequest header message
  else processSingleMessage header message

/-- An error becomes a response where the message has a header. -/
def orErrorResponse (message : Bytes) : Except HandlerError Bytes → Traced Bytes
  | .ok response => pure response
  | .error e => do
      let header ← lift (parsed (Smb2Header.read message))
      pure (errorResponse header e.toStatus header.sessionId header.treeId).bytes

/-- The reply to a message, if there is one.  A message that fails without a readable header
ends the connection. -/
def processAndRespond (message : Bytes) : Traced (Option Bytes) := do
  let outcome ← attempt (processMessage message)
  let response ← orErrorResponse message outcome
  if response.isEmpty then pure none
  else do
    let signed ← signResponse response
    pure (some signed)

/-- Let a durable handle wait for a reconnect. -/
def preserveHandle (handle : HandleState) : Handler Unit :=
  when handle.shouldPreserveForReconnect (do
    let now ← now
    let _ ← store (.updateHandle (handle.prepareForReconnect 60000 now))
    pure ())

/-- Give up what a session has registered for this connection. -/
def closeSession (sessionId : UInt64) : Handler Unit := do
  let s ← get
  registry (.unregisterConnectionLeases s.serverId sessionId)
  registry (.unregisterConnectionOplocks s.serverId sessionId)
  match ← store (.getHandlesBySession sessionId) with
  | .ok (handles : List HandleState) => forEach preserveHandle handles
  | .error _ => pure ()

/-- What happens when the connection goes away.  Its sessions stay in the store. -/
def closeConnection : Traced Unit := do
  mark .disconnected
  let s ← get
  forEach (fun sessionId => lift (closeSession sessionId)) s.connection.sessionIds

end Handler

end RustSmb
