import RustSmb.Server.Info
import RustSmb.Server.Ioctl
import RustSmb.Server.OplockBreak
import RustSmb.Server.Tree

/-!
# Dispatching a command

Before a command reaches its handler, the dispatcher checks the session and the tree
that the header names.  The session is checked only if the header names one, and only
for the commands in `requiresSession`.

Marks tell where a command is dispatched, where its handler takes over, and where the connection
goes away.  They change nothing.

## Main definitions

* `Mark`, `SmbT`, `Traced` — marks, calls with marks, and methods that make marks.
* `requiresSession`, `requiresTree` — which commands are checked.
* `Handler.sessionGate`, `Handler.treeGate` — the checks.
* `Handler.handleCommand` — the handlers.
* `Handler.dispatchCommand`

Source: `rustsmb-server/src/handler.rs`.
-/

namespace RustSmb

/-! ### Marks -/

/-- A command about to be dispatched, with the handler's state.  `received` are its bytes before
the file identifier of a related command is filled in. -/
structure Command where
  received : Bytes
  header : Smb2Header
  body : Bytes
  fullMessage : Bytes
  handler : ConnectionHandler

/-- What a command's history records besides its calls. -/
inductive Mark where
  /-- A command is dispatched. -/
  | dispatched (cmd : Command)
  /-- The handler of the command takes over. -/
  | executing
  /-- The connection goes away. -/
  | disconnected

abbrev SmbT : Signature := Smb.withMarks Mark

/-- Methods of a connection handler that make marks. -/
abbrev Traced := Proc SmbT ConnectionHandler HandlerError

/-! ### Checks and handlers -/

def requiresSession : Smb2Command → Bool
  | .logoff | .treeConnect | .treeDisconnect | .create | .close | .flush | .read | .write | .lock
  | .ioctl | .queryDirectory | .changeNotify | .queryInfo | .setInfo => true
  | _ => false

def requiresTree : Smb2Command → Bool
  | .treeDisconnect | .create | .close | .flush | .read | .write | .lock | .ioctl
  | .queryDirectory | .changeNotify | .queryInfo | .setInfo => true
  | _ => false

namespace Handler

variable [Externs]

/-- The session of a header must be bound to the connection and be in the store; one that is gone
is unbound. -/
def checkSession (sessionId : UInt64) : Handler Unit := do
  let s ← Proc.get
  Proc.require (s.connection.hasSession sessionId) (.status .userSessionDeleted)
  let session ← storeOrInternal (.getSession sessionId)
  if session.isSome then pure ()
  else do
    modifyConnection fun c => c.removeSession sessionId
    fail .userSessionDeleted

/-- A command that needs a session and names one has it checked. -/
def sessionGate (header : Smb2Header) : Handler Unit :=
  if requiresSession header.command ∧ header.sessionId ≠ 0 then checkSession header.sessionId
  else pure ()

/-- A command that needs a tree has it looked up. -/
def treeGate (header : Smb2Header) : Handler Unit :=
  if requiresTree header.command then do
    let tree ← storeOrInternal (.getTree header.sessionId header.treeId)
    Proc.require tree.isSome (.status .networkNameDeleted)
  else pure ()

/-- Both checks, before the handler. -/
def gate (header : Smb2Header) : Handler Unit := do
  sessionGate header
  treeGate header

/-- The handler of a command.  CANCEL has no response; CHANGE_NOTIFY is not supported. -/
def handleCommand (header : Smb2Header) (body fullMessage : Bytes) : Handler (Option Response) :=
  match header.command with
  | .negotiate => some <$> handleNegotiate header body fullMessage
  | .sessionSetup => some <$> handleSessionSetup header body fullMessage
  | .logoff => some <$> handleLogoff header
  | .treeConnect => some <$> handleTreeConnect header body
  | .treeDisconnect => some <$> handleTreeDisconnect header
  | .create => some <$> handleCreate header body
  | .close => some <$> handleClose header body
  | .flush => some <$> handleFlush header
  | .read => some <$> handleRead header body
  | .write => some <$> handleWrite header body
  | .lock => some <$> handleLock header body
  | .ioctl => some <$> handleIoctl header body
  | .cancel => pure none
  | .echo => some <$> respond header (Bytes.ofU16 4 ++ Bytes.ofU16 0)
  | .queryDirectory => some <$> handleQueryDirectory header body
  | .changeNotify => fail .notSupported
  | .queryInfo => some <$> handleQueryInfo header body
  | .setInfo => some <$> handleSetInfo header body
  | .oplockBreak => some <$> handleOplockBreak header body

/-- Dispatch a command.  The bytes as they were received are for the mark only. -/
def dispatchCommand (received : Bytes) (header : Smb2Header) (body fullMessage : Bytes) :
    Traced (Option Response) := do
  let s ← Proc.get
  Proc.mark (.dispatched ⟨received, header, body, fullMessage, s⟩)
  Proc.lift (gate header)
  Proc.mark .executing
  Proc.lift (handleCommand header body fullMessage)

end Handler

end RustSmb
