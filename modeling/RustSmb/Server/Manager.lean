import RustSmb.Server.Handler

/-!
# The session manager

Removing a session or a tree connection takes its handles with it.  Both are sequences
of store calls that stop at the first failing call that they do not ignore.

## Main definitions

* `SessionManager.deleteSession`, `SessionManager.deleteTree`.

Source: `rustsmb-session/src/manager.rs`.
-/

namespace RustSmb.SessionManager

/-- Methods of the session manager, as a connection handler calls them. -/
abbrev Managed := Proc Smb ConnectionHandler StateError

/-- Call the state store and stop if it fails. -/
def store (o : StoreOp) : Managed o.Value :=
  Proc.perform (S := Smb) (.store o) >>= Proc.ofExcept

/-- Call the state store and ignore whether it fails. -/
def storeIgnore (o : StoreOp) : Managed Unit :=
  Proc.perform (S := Smb) (.store o) >>= fun _ => pure ()

/-- The time that a disconnected handle is kept, in milliseconds. -/
def RECONNECT_TIMEOUT_MS : UInt32 := 60000

def deleteLeaseOf (handle : HandleState) : Managed Unit :=
  match handle.leaseKey with
  | some leaseKey => storeIgnore (.deleteLease leaseKey)
  | none => pure ()

/-- When a session is deleted, durable and persistent handles wait for a reconnect, others go
with their lease. -/
def releaseHandle (handle : HandleState) : Managed Unit :=
  if handle.shouldPreserveForReconnect then do
    let now ← Proc.perform (S := Smb) SmbOp.now
    storeIgnore (.updateHandle (handle.prepareForReconnect RECONNECT_TIMEOUT_MS now))
  else do
    deleteLeaseOf handle
    store (.deleteHandle handle.persistentId)

/-- The session with its handles and trees. -/
def deleteSession (sessionId : UInt64) : Managed Unit := do
  let handles ← store (.getHandlesBySession sessionId)
  Proc.forEach releaseHandle handles
  let trees ← store (.getTreesBySession sessionId)
  Proc.forEach (fun tree => store (.deleteTree sessionId tree.treeId)) trees
  store (.deleteSession sessionId)

/-- The tree with the handles opened through it. -/
def deleteTree (sessionId : UInt64) (treeId : UInt32) : Managed Unit := do
  let handles ← store (.getHandlesBySession sessionId)
  Proc.forEach
    (fun handle => Proc.when (handle.treeId == treeId) (store (.deleteHandle handle.persistentId)))
    handles
  store (.deleteTree sessionId treeId)

end RustSmb.SessionManager
