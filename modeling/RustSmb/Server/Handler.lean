import RustSmb.Externs
import RustSmb.Auth.Provider
import RustSmb.Server.Registry
import RustSmb.Session.Connection
import RustSmb.State.Store
import RustSmb.Vfs.Backend

/-!
# Connection handlers

A connection handler owns the state of one connection (`ConnectionHandler`) and reaches everything
else through calls (`Smb`): the state store, the break registry of its server, the backends of the
shares, the authentication provider and the clock.  `Handler` is the type of its methods: they keep
the state, make calls and may stop with a `HandlerError`.  What happens between two calls is the
business of other connections.

## Main definitions

* `ConnectionHandler`, `ServerConfig`, `ShareConfig` — the state of a handler.
* `SmbOp`, `Smb` — the calls.
* `Handler` — methods of a connection handler.
* `Response` — responses before serialization.
* `Handler.buildResponseHeader`, `Handler.validateCreditCharge`, `validateHandleTreeId` —
  what the command handlers share.

Source: `rustsmb-server/src/handler.rs`, `rustsmb-server/src/config.rs`,
`rustsmb-server/src/shares.rs`.
-/

namespace RustSmb

variable {st : NtStatus} {request : Smb2Header}

/-! ### The state of a handler -/

/-- The limits of a server-side copy. -/
structure ServerSideCopyConfig where
  maxChunkSize : UInt32 := 1048576
  maxDataSize : UInt32 := 16777216
  maxNumberOfChunks : UInt32 := 256
  deriving DecidableEq

/-- What all connections of a server have in common. -/
structure ServerConfig where
  serverGuid : Bytes
  serverSideCopy : ServerSideCopyConfig := {}
  deriving DecidableEq

/-- A share. -/
structure ShareConfig where
  name : String
  path : String
  readOnly : Bool := false
  guestOk : Bool := false
  validUsers : List String := []
  deriving DecidableEq

/-- What the handler of a connection keeps. -/
structure ConnectionHandler where
  connection : Connection
  config : ServerConfig
  shares : Table String ShareConfig
  authContext : AuthContext
  serverId : String
  preauthHash : Bytes
  signingKeys : Table UInt64 Bytes

/-- The handler of a new connection. -/
def ConnectionHandler.new (connId : UInt64) (config : ServerConfig)
    (shares : Table String ShareConfig) (serverId : String) : ConnectionHandler where
  connection := Connection.new connId
  config := config
  shares := shares
  authContext := {}
  serverId := serverId
  preauthHash := Bytes.zeros 64
  signingKeys := ∅

/-! ### Calls -/

/-- What a handler calls: the store, the backends, the break registry, authentication and clocks. -/
inductive SmbOp where
  | store (o : StoreOp)
  | backend (share : String) (o : BackendOp)
  | registry (serverId : String) (o : RegistryOp)
  | authenticate (serverId : String) (ctx : AuthContext) (token : Bytes)
  | now
  | filetime
  | random

/-- What a call returns. -/
abbrev SmbOp.Res : SmbOp → Type
  | store o => o.Res
  | backend _ o => o.Res
  | registry _ o => o.Res
  | authenticate _ _ _ => AuthContext × Except AuthError AuthResult
  | now | filetime => UInt64
  | random => Bytes

/-- The calls as a signature. -/
abbrev Smb : Signature := ⟨SmbOp, SmbOp.Res⟩

/-- Why a method stops.  The texts that the source attaches only reach the log. -/
inductive HandlerError where
  | io
  | protocol
  | auth
  | vfs
  | internal
  | status (s : NtStatus)
  deriving DecidableEq, Repr

/-- The status with which an error is reported. -/
def HandlerError.toStatus : HandlerError → NtStatus
  | io => .internalError
  | protocol => .invalidParameter
  | auth => .logonFailure
  | vfs => .objectNameNotFound
  | internal => .internalError
  | status s => s

/-- A method of a connection handler. -/
abbrev Handler := Proc Smb ConnectionHandler HandlerError

/-- A response before it is sent. -/
structure Response where
  header : Smb2Header
  body : Bytes

/-- The bytes of a response. -/
def Response.bytes (r : Response) : Bytes := r.header.write ++ r.body

namespace Handler

/-- End a method with a status. -/
def fail {α : Type} (s : NtStatus) : Handler α := Proc.throw (.status s)

/-- Call the store. -/
def store (o : StoreOp) : Handler o.Res := Proc.perform (S := Smb) (.store o)

/-- Call the backend of a share. -/
def backend (share : String) (o : BackendOp) : Handler o.Res :=
  Proc.perform (S := Smb) (.backend share o)

/-- Call the break registry of the server. -/
def registry (o : RegistryOp) : Handler o.Res :=
  Proc.get >>= fun s => Proc.perform (S := Smb) (.registry s.serverId o)

/-- Call the authentication provider. -/
def authenticate (ctx : AuthContext) (token : Bytes) :
    Handler (AuthContext × Except AuthError AuthResult) :=
  Proc.get >>= fun s => Proc.perform (S := Smb) (.authenticate s.serverId ctx token)

/-- Seconds since 1970. -/
def now : Handler UInt64 := Proc.perform (S := Smb) SmbOp.now

/-- The time, in the unit of the protocol. -/
def currentFiletime : Handler UInt64 := Proc.perform (S := Smb) SmbOp.filetime

/-- Sixteen random bytes. -/
def randomGuid : Handler Bytes := Proc.perform (S := Smb) SmbOp.random

/-- A failing store is an internal error. -/
def orInternal {α : Type} : Except StateError α → Handler α
  | .ok a => pure a
  | .error _ => Proc.throw .internal

/-- Call the state store; a failure is an internal error. -/
def storeOrInternal (o : StoreOp) : Handler o.Value := store o >>= orInternal

/-- Change the state of the connection. -/
def modifyConnection (f : Connection → Connection) : Handler Unit :=
  Proc.modify fun s => { s with connection := f s.connection }

/-- Change what the connection remembers of its current exchange. -/
def modifyAuthContext (f : AuthContext → AuthContext) : Handler Unit :=
  Proc.modify fun s => { s with authContext := f s.authContext }

/-- Go on with the value, or stop with a status. -/
def getOrFail {α : Type} (x : Option α) (s : NtStatus) : Handler α :=
  match x with
  | some a => pure a
  | none => fail s

@[simp]
theorem getOrFail_some {α : Type} (a : α) (s : NtStatus) : getOrFail (some a) s = pure a := rfl

@[simp]
theorem getOrFail_none {α : Type} (s : NtStatus) :
    (getOrFail none s : Handler α) = Proc.throw (.status s) := rfl

/-- Go on with the parsed request, or report a malformed message. -/
def parsed {α : Type} : Option α → Handler α
  | some a => pure a
  | none => Proc.throw .protocol

/-- The session, which must be in the store. -/
def expectSession (sessionId : UInt64) : Handler SessionState := do
  let session ← storeOrInternal (.getSession sessionId)
  getOrFail session .userSessionDeleted

/-- The header of a response, with the credits that are granted. -/
def buildResponseHeader (request : Smb2Header) (status : NtStatus) : Handler Smb2Header := do
  let s ← Proc.get
  let granted := s.connection.grantCredits request.credits false
  modifyConnection fun _ => granted.2
  pure
    { creditCharge := request.creditCharge
      status := status.code
      command := request.command
      credits := granted.1
      flags := Smb2Flags.SERVER_TO_REDIR
      messageId := request.messageId
      treeId := request.treeId
      sessionId := request.sessionId }

/-- A response of success. -/
def respond (request : Smb2Header) (body : Bytes) : Handler Response := do
  let header ← buildResponseHeader request .success
  pure ⟨header, body⟩

/-- The credits that a payload costs. -/
def expectedCharge (payloadSize : UInt32) : UInt16 :=
  if payloadSize = 0 then 1 else ((payloadSize.toUInt64 - 1) / 65536 + 1).toUInt16

/-- Is the charge of a request enough for its payload? -/
def creditChargeOk (c : Connection) (header : Smb2Header) (payloadSize : UInt32) : Bool :=
  !c.supportsMultiCredit ||
    (!(header.creditCharge == 0 && payloadSize > 0) &&
      !(header.creditCharge < expectedCharge payloadSize))

/-- The key of a share, which is found in lower case. -/
def lookupShare [Externs] (s : ConnectionHandler) (name : String) : Option String :=
  if (s.shares.lookup (Externs.toLowercase name)).isSome then some (Externs.toLowercase name)
  else none

/-- The share with a name. -/
def getShare [Externs] (name : String) : Handler String := do
  let s ← Proc.get
  getOrFail (lookupShare s name) .badNetworkName

/-- Refuse a request whose charge is not enough for its payload. -/
def validateCreditCharge (header : Smb2Header) (payloadSize : UInt32) : Handler Unit := do
  let s ← Proc.get
  Proc.require (creditChargeOk s.connection header payloadSize) (.status .invalidParameter)

/-! ### Their rules -/

section Rules

open Proc

variable {α : Type} {I : List (Event Smb) → SmbOp → Prop} {s : ConnectionHandler}
  {h : List (Event Smb)}

variable {st : NtStatus} {Q : Except HandlerError α → ConnectionHandler → List (Event Smb) → Prop}
  {o : StoreOp}

@[simp]
theorem wp_fail :
    wp I (fail st : Handler α) Q s h ↔ Q (.error (.status st)) s h := wp_throw

theorem wp_store {Q : Except HandlerError o.Res → ConnectionHandler → List (Event Smb) → Prop} :
    wp I (store o) Q s h ↔ I h (.store o) ∧ ∀ r : o.Res, Q (.ok r) s (⟨SmbOp.store o, r⟩ :: h) :=
  wp_perform

theorem wp_storeOrInternal
    {Q : Except HandlerError o.Value → ConnectionHandler → List (Event Smb) → Prop} :
    wp I (storeOrInternal o) Q s h ↔
      I h (.store o) ∧ (∀ v : o.Value, Q (.ok v) s (⟨SmbOp.store o, .ok v⟩ :: h)) ∧
        ∀ e, Q (.error .internal) s (⟨SmbOp.store o, .error e⟩ :: h) := by
  unfold storeOrInternal
  rw [wp_bind, wp_store]
  refine and_congr Iff.rfl ⟨fun hr => ⟨fun v => ?_, fun e => ?_⟩, ?_⟩
  · exact wp_pure.1 (hr (.ok v))
  · exact wp_throw.1 (hr (.error e))
  rintro ⟨hok, herr⟩ (e | v)
  · exact wp_throw.2 (herr e)
  · exact wp_pure.2 (hok v)

@[simp]
theorem wp_getOrFail {x : Option α} :
    wp I (getOrFail x st) Q s h ↔
      (∀ a, x = some a → Q (.ok a) s h) ∧ (x = none → Q (.error (.status st)) s h) := by
  cases x <;> simp [getOrFail]

@[simp]
theorem wp_parsed {x : Option α} :
    wp I (parsed x) Q s h ↔
      (∀ a, x = some a → Q (.ok a) s h) ∧ (x = none → Q (.error .protocol) s h) := by
  cases x <;> simp [parsed]

@[simp]
theorem wp_modifyConnection {f : Connection → Connection}
    {Q : Except HandlerError Unit → ConnectionHandler → List (Event Smb) → Prop} :
    wp I (modifyConnection f) Q s h ↔ Q (.ok ()) { s with connection := f s.connection } h :=
  wp_modify

theorem wp_registry {o : RegistryOp}
    {Q : Except HandlerError o.Res → ConnectionHandler → List (Event Smb) → Prop} :
    wp I (registry o) Q s h ↔
      I h (.registry s.serverId o) ∧
        ∀ r : o.Res, Q (.ok r) s (⟨SmbOp.registry s.serverId o, r⟩ :: h) := by
  unfold registry
  rw [wp_bind, wp_get]
  exact wp_perform

variable {P : ConnectionHandler → Prop}

theorem keeps_fail {R : ConnectionHandler → List (Event Smb) → Prop} :
    Keeps R I (fail st : Handler α) := keeps_throw

theorem keeps_store (ho : ∀ h, I h (.store o)) : Keeps (fun s _ => P s) I (store o) :=
  keeps_call ho

theorem keeps_storeOrInternal (ho : ∀ h, I h (.store o)) :
    Keeps (fun s _ => P s) I (storeOrInternal o) := fun _ h hs =>
  wp_storeOrInternal.2 ⟨ho h, fun _ => hs, fun _ => hs⟩

theorem keeps_registry {o : RegistryOp} (ho : ∀ h serverId, I h (.registry serverId o)) :
    Keeps (fun s _ => P s) I (registry o) := fun s h hs =>
  wp_registry.2 ⟨ho h s.serverId, fun _ => hs⟩

theorem keeps_now (ho : ∀ h, I h .now) : Keeps (fun s _ => P s) I now :=
  keeps_call ho

section

variable {R : ConnectionHandler → List (Event Smb) → Prop}

theorem keeps_getOrFail {x : Option α} : Keeps R I (getOrFail x st) :=
  fun _ _ hs => wp_getOrFail.2 ⟨fun _ _ => hs, fun _ => hs⟩

theorem keeps_parsed {x : Option α} : Keeps R I (parsed x) :=
  fun _ _ hs => wp_parsed.2 ⟨fun _ _ => hs, fun _ => hs⟩

theorem keeps_validateCreditCharge {header : Smb2Header} {payloadSize : UInt32} :
    Keeps R I (validateCreditCharge header payloadSize) :=
  keeps_bind keeps_get fun _ => keeps_require

theorem keeps_buildResponseHeader
    (hR : ∀ s c h, R s h → R { s with connection := { s.connection with credits := c } } h) :
    Keeps R I (buildResponseHeader request st) := by
  intro s h hs
  unfold buildResponseHeader
  rw [wp_bind, wp_get, onOk_ok, wp_bind, wp_modifyConnection, onOk_ok, wp_pure]
  exact hR s _ h hs

theorem keeps_respond {body : Bytes}
    (hR : ∀ s c h, R s h → R { s with connection := { s.connection with credits := c } } h) :
    Keeps R I (respond request body) :=
  keeps_bind (keeps_buildResponseHeader hR) fun _ => keeps_pure

end

section Walks

variable {R : ConnectionHandler → List (Event Smb) → Prop}

instance {o : StoreOp} [Lasts R] [Allows (S := Smb) I (.store o)] :
    Walks R I (store o) := walks_perform (S := Smb)

instance {r : Except StateError α} : Walks R I (orInternal r) := by
  cases r <;> unfold orInternal <;> infer_instance

instance {o : StoreOp} [Lasts R] [Allows (S := Smb) I (.store o)] :
    Walks R I (storeOrInternal o) := by
  unfold storeOrInternal
  infer_instance

instance {share : String} {o : BackendOp} [Lasts R]
    [Allows (S := Smb) I (.backend share o)] : Walks R I (backend share o) :=
  walks_perform

instance {o : RegistryOp} [Lasts R]
    [∀ serverId, Allows (S := Smb) I (.registry serverId o)] : Walks R I (registry o) := by
  unfold registry
  exact walks_step fun s => walks_perform

instance [Lasts R] [Allows (S := Smb) I .now] : Walks R I now :=
  walks_perform

instance [Lasts R] [Allows (S := Smb) I .filetime] :
    Walks R I currentFiletime := walks_perform (S := Smb)

instance {T : List (Event Smb) → Prop} {f : Connection → Connection} :
    Walks (fun _ h => T h) I (modifyConnection f) := walks_modify

instance : Walks R I (fail st : Handler α) := walks_throw

instance {x : Option α} : Walks R I (getOrFail x st) :=
  keeps_getOrFail.walks

instance {x : Option α} : Walks R I (parsed x) := keeps_parsed.walks

instance {header : Smb2Header} {payloadSize : UInt32} :
    Walks R I (validateCreditCharge header payloadSize) := keeps_validateCreditCharge.walks

end Walks

theorem always_buildResponseHeader :
    Always I (buildResponseHeader request st) :=
  keeps_buildResponseHeader fun _ _ _ => id

theorem always_respond {body : Bytes} :
    Always I (respond request body) :=
  keeps_respond fun _ _ _ => id

end Rules

/-! ### Credit charges -/

section Charge

open Proc CreditManager

variable {W : Type} (answer : (o : Smb.Op) → W → Smb.Res o × W) {s : ConnectionHandler} (w : W)
  (header : Smb2Header) (payloadSize : UInt32)

/-- The charge of a request is judged by the size of its payload, and never more leniently than by
the credit manager. -/
structure JudgedRightly (accepted : Prop) (charge : UInt16) (payloadSize : UInt32) : Prop where
  iff : accepted ↔ (1 ≤ charge ∨ payloadSize = 0) ∧ payloadSize.toNat ≤ charge.toNat * 65536
  sufficient : accepted → ∀ (m : CreditManager) provided required,
    m.validateCharge charge payloadSize 65536 ≠ .error (.insufficientCharge provided required)

/-- The number of credits is truncated. -/
theorem toNat_expectedCharge {payloadSize : UInt32} (h : payloadSize ≠ 0) :
    (expectedCharge payloadSize).toNat = ((payloadSize.toNat - 1) / 65536 + 1) % 65536 := by
  have hpos : payloadSize.toNat ≠ 0 := fun h0 => h (UInt32.toNat_inj.1 h0)
  have hone : 1 ≤ payloadSize.toUInt64 := by
    rw [UInt64.le_iff_toNat_le, UInt32.toNat_toUInt64]
    exact Nat.one_le_iff_ne_zero.2 hpos
  unfold expectedCharge
  rw [if_neg h]
  simp [UInt64.toNat_sub_of_le _ _ hone]

theorem validateCreditCharge_run :
    run answer (validateCreditCharge header payloadSize) s w =
      (if creditChargeOk s.connection header payloadSize then .ok ()
        else .error (.status .invalidParameter), s, w) := by
  unfold validateCreditCharge
  rw [run_bind_ok run_get, run_require]

/-- **Charges are judged rightly, except for an empty payload without a charge and for payloads
that need 65536 credits**: the former is refused, the latter are accepted with any charge. -/
theorem validateCreditCharge_iff (hmulti : s.connection.supportsMultiCredit = true) :
    JudgedRightly ((run answer (validateCreditCharge header payloadSize) s w).1 = .ok ())
        header.creditCharge payloadSize ↔
      (payloadSize = 0 → header.creditCharge ≠ 0) ∧
        (header.creditCharge ≠ 0 → payloadSize ≤ 0xFFFF0000) := by
  -- everything is put in terms of natural numbers
  have hcharge : header.creditCharge = 0 ↔ header.creditCharge.toNat = 0 := UInt16.toNat_inj.symm
  have hpos : 1 ≤ header.creditCharge ↔ 1 ≤ header.creditCharge.toNat := UInt16.le_iff_toNat_le
  have hpayload : payloadSize = 0 ↔ payloadSize.toNat = 0 := UInt32.toNat_inj.symm
  have hsmall : payloadSize ≤ 0xFFFF0000 ↔ payloadSize.toNat ≤ 0xFFFF0000 := UInt32.le_iff_toNat_le
  have haccepts : (run answer (validateCreditCharge header payloadSize) s w).1 = .ok () ↔
      (header.creditCharge.toNat = 0 → payloadSize.toNat = 0) ∧
        (expectedCharge payloadSize).toNat ≤ header.creditCharge.toNat := by
    rw [validateCreditCharge_run]
    simp [creditChargeOk, hmulti, hcharge, hpayload, UInt16.le_iff_toNat_le, imp_iff_not_or]
  have hjudged : ((run answer (validateCreditCharge header payloadSize) s w).1 = .ok () ↔
      (1 ≤ header.creditCharge ∨ payloadSize = 0) ∧
        payloadSize.toNat ≤ header.creditCharge.toNat * 65536) ↔
      (payloadSize = 0 → header.creditCharge ≠ 0) ∧
        (header.creditCharge ≠ 0 → payloadSize ≤ 0xFFFF0000) := by
    rw [haccepts, hsmall, hpos, ne_eq, hcharge]
    by_cases hempty : payloadSize = 0
    · have hexpected : (expectedCharge payloadSize).toNat = 1 := by rw [hempty]; rfl
      rw [hpayload] at hempty ⊢
      rw [hexpected]
      omega
    · have hlt := payloadSize.toNat_lt
      have hlt' := header.creditCharge.toNat_lt
      rw [toNat_expectedCharge hempty]
      rw [hpayload] at hempty ⊢
      omega
  refine ⟨fun h => hjudged.1 h.iff, fun h => ⟨hjudged.2 h, fun hacpt m provided required => ?_⟩⟩
  exact validateCharge_ne ((hjudged.2 h).1 hacpt).2 provided required

/-- A handler that has negotiated SMB 3.0.2. -/
def multiCredit : ConnectionHandler :=
  { ConnectionHandler.new 1 ⟨[], {}⟩ ∅ "a" with
    connection := { Connection.new 1 with dialect := some .smb302 } }

/-- Two credits pay for 65537 bytes. -/
theorem validateCreditCharge_two : multiCredit.connection.supportsMultiCredit = true ∧
    ∀ (W : Type) (answer : (o : Smb.Op) → W → Smb.Res o × W) (w : W),
      JudgedRightly ((run answer (validateCreditCharge { command := .read, creditCharge := 2 }
        65537) multiCredit w).1 = .ok ()) 2 65537 :=
  ⟨rfl, fun _ answer w => (validateCreditCharge_iff answer w { command := .read, creditCharge := 2 }
    65537 rfl).2 (by decide)⟩

/-- One credit pays for four gigabytes. -/
theorem charge_truncated : multiCredit.connection.supportsMultiCredit = true ∧
    (∀ (W : Type) (answer : (o : Smb.Op) → W → Smb.Res o × W) (w : W),
      (run answer (validateCreditCharge { command := .read, creditCharge := 1 } 0xFFFF0001)
        multiCredit w).1 = .ok ()) ∧
    (CreditManager.withConfig {}).validateCharge 1 0xFFFF0001 65536 =
      .error (.insufficientCharge 1 0xFFFF) := by
  refine ⟨rfl, fun W answer w => ?_, by decide⟩
  rw [validateCreditCharge_run]
  rfl

end Charge

end Handler

/-- Does a handle belong to the session and the tree that a request names? -/
def validateHandleTreeId (header : Smb2Header) (handle : HandleState) :
    Except HandlerError Unit :=
  if handle.sessionId = 0 then .error (.status .fileClosed)
  else if handle.sessionId ≠ header.sessionId then .error (.status .fileClosed)
  else if header.treeId ≠ handle.treeId then .error (.status .invalidParameter)
  else .ok ()

/-- A handle that passes belongs to the request's tree and session, which is not the disconnected
one. -/
theorem validateHandleTreeId_eq_ok {header : Smb2Header} {handle : HandleState} :
    validateHandleTreeId header handle = .ok () ↔
      handle.sessionId ≠ 0 ∧ handle.sessionId = header.sessionId ∧
        handle.treeId = header.treeId := by
  unfold validateHandleTreeId
  split
  · simp_all
  split
  · simp_all
  split
  · next h => simp_all [eq_comm]
  · next h0 hs ht => simp_all

end RustSmb
