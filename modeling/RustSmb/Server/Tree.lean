import RustSmb.Server.Create
import RustSmb.Server.Manager

/-!
# TREE_CONNECT and TREE_DISCONNECT

A tree connection ties a session to a share.

## Main definitions

* `ShareManager.canAccess` — may a user access a share?
* `extractShareName` — the share that a path names.
* `Handler.handleTreeConnect`, `Handler.handleTreeDisconnect`.

Source: `rustsmb-server/src/handler.rs`, `rustsmb-server/src/helpers/strings.rs`,
`rustsmb-server/src/shares.rs`.
-/

namespace RustSmb

variable [Externs]

/-- May a user access a share?  No handler asks. -/
def ShareManager.canAccess (shares : Table String ShareConfig) (shareName username : String)
    (isGuest : Bool) : Bool :=
  match shares.lookup (Externs.toLowercase shareName) with
  | none => false
  | some share =>
      if isGuest && !share.guestOk then false
      else if share.validUsers.isEmpty then true
      else share.validUsers.contains username

/-- The share that a path such as `\\server\share\dir` names. -/
def extractShareName (path : String) : String :=
  let path := path.toList.dropWhile (· == '\\')
  match path.dropWhile (· != '\\') with
  | [] => String.ofList path
  | _ :: afterServer => String.ofList (afterServer.takeWhile (· != '\\'))

/-- The share that a TREE_CONNECT request names. -/
def requestedShare (body : Bytes) : String :=
  extractShareName (decodeUtf16le (bodyPart body (body.u16 4).toNat (body.u16 6).toNat))

namespace Handler

def maximalAccess (share : ShareConfig) : UInt32 :=
  if share.readOnly then 0x001200A9 else 0x001F01FF

/-- Connects a session to a share. -/
def handleTreeConnect (header : Smb2Header) (body : Bytes) : Handler Response := do
  Proc.require (8 ≤ body.length) .protocol
  let shareName := requestedShare body
  let s ← Proc.get
  let share ← getOrFail (s.shares.lookup (Externs.toLowercase shareName)) .badNetworkName
  let treeId ← storeOrInternal (.nextTreeId header.sessionId)
  let now ← now
  storeOrInternal (.createTree
    { treeId := treeId
      sessionId := header.sessionId
      shareName := shareName
      sharePath := share.path
      accessFlags := maximalAccess share
      isDfs := false
      createdAt := now })
  let respHeader ← buildResponseHeader header .success
  pure
    ⟨{ respHeader with treeId := treeId },
      Bytes.ofU16 16 ++ [1, 0] ++ Bytes.ofU32 0 ++ Bytes.ofU32 0 ++
        Bytes.ofU32 (maximalAccess share)⟩

def handleTreeDisconnect (header : Smb2Header) : Handler Response := do
  let found ← storeOrInternal (.getTree header.sessionId header.treeId)
  let _ ← getOrFail found .networkNameDeleted
  let _ ← Proc.attempt (SessionManager.deleteTree header.sessionId header.treeId)
  respond header (Bytes.ofU16 4 ++ Bytes.ofU16 0)

end Handler

end RustSmb
