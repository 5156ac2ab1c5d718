import RustSmb.Server.Manager
import RustSmb.Server.Signing

/-!
# Establishing sessions

NEGOTIATE picks the dialect.  SESSION_SETUP runs the rounds of an authentication
exchange: each round feeds one token to the provider, and the last one creates a
session, or ends the reauthentication of one, and answers with its identifier.  A
SESSION_SETUP with the binding flag adds an existing session to the connection instead.

## Main definitions

* `Handler.handleNegotiate`
* `Handler.handleSessionSetup`, with `Handler.sessionSetupSuccess` and
  `Handler.sessionSetupContinue` for the two ways a round can go on.
* `Handler.handleSessionBinding`
* `Handler.handleLogoff`

Source: `rustsmb-server/src/handler.rs`, `rustsmb-protocol/src/commands/session_setup.rs`,
`rustsmb-protocol/src/commands/negotiate.rs`.
-/

namespace RustSmb

open Bytes Proc

variable [Externs]

/-! ### NEGOTIATE -/

/-- The dialects on offer, the best first. -/
def serverDialects : List (UInt16 × SmbDialect) :=
  [(0x0302, .smb302), (0x0300, .smb300), (0x0210, .smb210), (0x0202, .smb202)]

/-- The best dialect that both sides speak. -/
def selectDialect (clientDialects : List UInt16) : Option SmbDialect :=
  (serverDialects.find? fun d => clientDialects.contains d.1).map Prod.snd

/-- The dialects that a NEGOTIATE request lists, as far as its body has them. -/
def negotiateDialects (body : Bytes) : List UInt16 :=
  (List.range (body.u16 2).toNat).filterMap fun i =>
    if 36 + i * 2 + 2 ≤ body.length then some (body.u16 (36 + i * 2)) else none

/-- Large transfers, leases from 2.1 on, directory leases and encryption from 3.0 on. -/
def negotiateCapabilities : SmbDialect → UInt32
  | .smb202 => 0x04
  | .smb210 => 0x04 ||| 0x02
  | .smb300 | .smb302 | .smb311 => 0x04 ||| 0x02 ||| 0x40 ||| 0x20

namespace Handler

/-- The hash chain over the messages of a negotiation. -/
def updatePreauthHash (message : Bytes) : Handler Unit :=
  modify fun s => { s with preauthHash := Externs.sha512 (s.preauthHash ++ message) }

/-- Settles the dialect. -/
def handleNegotiate (header : Smb2Header) (body fullMessage : Bytes) : Handler Response := do
  require (36 ≤ body.length) .protocol
  let dialect ← getOrFail (selectDialect (negotiateDialects body)) .notSupported
  modifyConnection fun c => { c.negotiate dialect with clientGuid := body.slice 12 16 }
  when (dialect == .smb311) (updatePreauthHash fullMessage)
  let respHeader ← buildResponseHeader header .success
  let s ← get
  let systemTime ← currentFiletime
  let response : Response :=
    ⟨respHeader,
      ofU16 65 ++ ofU16 0x0001 ++ ofU16 dialect.revision ++ ofU16 0 ++
        s.config.serverGuid ++ ofU32 (negotiateCapabilities dialect) ++
        ofU32 s.connection.maxTransactSize ++ ofU32 s.connection.maxReadSize ++
        ofU32 s.connection.maxWriteSize ++ ofU64 systemTime ++ ofU64 0 ++
        ofU16 128 ++ ofU16 0 ++ ofU32 0⟩
  when (dialect == .smb311) (updatePreauthHash response.bytes)
  pure response

end Handler

/-! ### SESSION_SETUP -/

/-- The fixed part of a SESSION_SETUP request, as far as it is read. -/
structure SessionSetupRequest where
  flags : UInt8
  securityBufferOffset : UInt16
  securityBufferLength : UInt16
  previousSessionId : UInt64

namespace SessionSetupRequest

def read (body : Bytes) : Option SessionSetupRequest :=
  if body.length < 24 then none
  else some ⟨body.u8 2, body.u16 12, body.u16 14, body.u64 16⟩

def isBinding (r : SessionSetupRequest) : Bool := r.flags &&& 0x01 != 0

/-- The token; the first bytes of the body where its offset leads out of it. -/
def securityBuffer (r : SessionSetupRequest) (body : Bytes) : Bytes :=
  let secLen := r.securityBufferLength.toNat
  let bodyOffset := r.securityBufferOffset.toNat - SMB2_HEADER_SIZE
  if bodyOffset + secLen ≤ body.length then body.slice bodyOffset secLen
  else if secLen ≤ body.length then body.take secLen
  else []

end SessionSetupRequest

/-- The body of a response, with the token at offset 72. -/
def sessionSetupBody (sessionFlags : UInt16) (securityBuffer : Bytes) : Bytes :=
  ofU16 9 ++ ofU16 sessionFlags ++ ofU16 72 ++
    ofU16 (UInt16.ofNat securityBuffer.length) ++ securityBuffer

def sessionFlags (isGuest isAnonymous : Bool) : UInt16 :=
  (if isGuest then 0x0001 else 0) ||| (if isAnonymous then 0x0002 else 0)

/-- The key derivation of the dialect. -/
def deriveSigningKey (dialect : SmbDialect) (sessionKey preauthHash : Bytes) : Bytes :=
  match dialect with
  | .smb311 => deriveSmb311 sessionKey preauthHash
  | .smb302 | .smb300 => deriveSmb3 sessionKey
  | _ => sessionKey

namespace Handler

/-- The session to reauthenticate: the header names a bound session and no exchange is open. -/
def lookupReauthSession (header : Smb2Header) : Handler (Option SessionState) := do
  let s ← get
  if header.sessionId ≠ 0 ∧ s.connection.hasSession header.sessionId = true ∧
      s.authContext.sessionId.isNone = true then do
    match ← store (.getSession header.sessionId) with
    | .ok session => pure session
    | .error _ => pure none
  else pure none

/-- The identifier of the open exchange, or a fresh one of the store. -/
def exchangeSessionId : Handler UInt64 := do
  let s ← get
  match s.authContext.sessionId with
  | some id => pure id
  | none => storeOrInternal .nextSessionId

/-- The session that is kept: the one found at the start, or the one under the identifier of the
exchange. -/
def existingForReauth (existingSession : Option SessionState) (sessionId : UInt64) :
    Handler (Option SessionState) :=
  match existingSession with
  | some session => pure (some session)
  | none => do
      match ← store (.getSession sessionId) with
      | .ok session => pure session
      | .error _ => pure none

/-- The session as it is stored after a login. -/
def newSessionState (c : Connection) (sessionId : UInt64) (user : UserInfo)
    (sessionKey : Bytes) (dialect : SmbDialect) (now : UInt64) : SessionState where
  sessionId := sessionId
  userId := user.username
  domain := user.domain
  sessionKey := sessionKey
  dialect := dialect
  signingRequired := c.signingRequired
  encryptionRequired := c.encryptionRequired
  isGuest := user.isGuest
  isAnonymous := user.isAnonymous
  createdAt := now
  lastAccess := now
  expiresAt := now + 3600
  boundServerId := none

/-- Create a session and bind it to the connection.  Reaching the session limit is not
reported. -/
def createSession (sessionId : UInt64) (user : UserInfo) (sessionKey : Bytes)
    (dialect : SmbDialect) (now : UInt64) : Handler Unit := do
  let s ← get
  storeOrInternal
    (.createSession (newSessionState s.connection sessionId user sessionKey dialect now))
  modifyConnection fun c => (c.addSession sessionId).2

/-- Does the exchange take over a previous session? -/
def takesOver (request : SessionSetupRequest) (user : UserInfo) : Bool :=
  request.previousSessionId != 0 && !user.isGuest && !user.isAnonymous

/-- Guests and anonymous users have no signing key. -/
def shouldSign (user : UserInfo) : Bool := !user.isGuest && !user.isAnonymous

/-- The answer to the last round.  `retained` is the key of the session that is reauthenticated. -/
def sessionSetupResponse (header : Smb2Header) (sessionId : UInt64) (user : UserInfo)
    (retained : Option Bytes) (sessionKey : Bytes) (responseToken : Option Bytes)
    (dialect : SmbDialect) : Handler Response := do
  let respHeader ← buildResponseHeader header .success
  let flags :=
    if shouldSign user then Smb2Flags.SERVER_TO_REDIR ||| Smb2Flags.SIGNED
    else respHeader.flags
  let response : Response :=
    ⟨{ respHeader with sessionId := sessionId, flags := flags },
      sessionSetupBody (sessionFlags user.isGuest user.isAnonymous) (responseToken.getD [])⟩
  when (dialect == .smb311 && retained.isNone) (updatePreauthHash response.bytes)
  let s ← get
  let derived := deriveSigningKey dialect (retained.getD sessionKey) s.preauthHash
  let signingKey :=
    if retained.isSome then (s.signingKeys.lookup sessionId).getD derived else derived
  when (shouldSign user)
    (modify fun s => { s with signingKeys := s.signingKeys.insert sessionId signingKey })
  pure (if shouldSign user then response.sign signingKey else response)

/-- The last round of an exchange. -/
def sessionSetupSuccess (header : Smb2Header) (request : SessionSetupRequest)
    (fullMessage : Bytes) (existingSession : Option SessionState) (user : UserInfo)
    (sessionKey : Bytes) (responseToken : Option Bytes) : Handler Response := do
  let sessionId ← exchangeSessionId
  let existing ← existingForReauth existingSession sessionId
  let s ← get
  let dialect := s.connection.dialect.getD .smb202
  when (dialect == .smb311 && existing.isNone) (updatePreauthHash fullMessage)
  let now ← now
  when existing.isNone (createSession sessionId user sessionKey dialect now)
  when (takesOver request user)
    (attempt (SessionManager.deleteSession request.previousSessionId) >>= fun _ => pure ())
  sessionSetupResponse header sessionId user (existing.map SessionState.sessionKey) sessionKey
    responseToken dialect

/-- The identifier that the next round of a login will carry. -/
def interimSessionId (header : Smb2Header) (existingSession : Option SessionState) :
    Handler UInt64 :=
  if existingSession.isSome then do
    modifyAuthContext fun ctx => { ctx with sessionId := some header.sessionId }
    pure header.sessionId
  else do
    let id ← exchangeSessionId
    modifyAuthContext fun ctx => { ctx with sessionId := some id }
    pure id

/-- A round of an exchange after which more are needed. -/
def sessionSetupContinue (header : Smb2Header) (fullMessage : Bytes)
    (existingSession : Option SessionState) (responseToken : Bytes) : Handler Response := do
  let s ← get
  let dialect := s.connection.dialect.getD .smb202
  let sessionId ← interimSessionId header existingSession
  when (dialect == .smb311) (updatePreauthHash fullMessage)
  let respHeader ← buildResponseHeader header .moreProcessingRequired
  let response : Response :=
    ⟨{ respHeader with sessionId := sessionId }, sessionSetupBody 0 responseToken⟩
  when (dialect == .smb311) (updatePreauthHash response.bytes)
  pure response

/-- Feed a token to the provider.  What the provider writes to the context stays, also when it
reports an error. -/
def askProvider (token : Bytes) : Handler AuthResult := do
  let s ← get
  let (ctx, result) ← authenticate s.authContext token
  modifyAuthContext fun _ => ctx
  match result with
  | .ok r => pure r
  | .error .malformedToken => fail .invalidParameter
  | .error _ => throw .auth

/-- Feed the token of a request to the provider.  Identifier 0 starts a new exchange. -/
def authenticateToken (header : Smb2Header) (token : Bytes) : Handler AuthResult := do
  when (header.sessionId == 0) (modifyAuthContext fun _ => {})
  askProvider token

/-- The connection becomes one more channel of a session. -/
def handleSessionBinding (header : Smb2Header) (fullMessage : Bytes) : Handler Response := do
  let s ← get
  require s.connection.isMultiChannelCapable (.status .requestNotAccepted)
  let session ← expectSession header.sessionId
  require (s.connection.dialect.all fun d => d == session.dialect) (.status .invalidParameter)
  require (Smb2Flags.isSigned header.flags) (.status .invalidParameter)
  let now ← now
  require (!(now > session.expiresAt)) (.status .networkSessionExpired)
  require (!(session.isGuest || session.isAnonymous)) (.status .notSupported)
  require (!s.connection.hasSession header.sessionId) (.status .requestNotAccepted)
  when (!session.sessionKey.isEmpty)
    (ofExcept (verifyRequestSignature fullMessage session.sessionKey))
  modifyConnection fun c => (c.addSession header.sessionId).2
  when (!session.sessionKey.isEmpty)
    (modify fun s =>
      { s with signingKeys := s.signingKeys.insert header.sessionId session.sessionKey })
  let _ ← store (.refreshSession header.sessionId 3600)
  let respHeader ← buildResponseHeader header .success
  pure
    ⟨{ respHeader with sessionId := header.sessionId },
      sessionSetupBody (sessionFlags session.isGuest session.isAnonymous) []⟩

/-- One round of a login. -/
def handleSessionSetupRound (header : Smb2Header) (request : SessionSetupRequest)
    (body fullMessage : Bytes) : Handler Response := do
  let existingSession ← lookupReauthSession header
  let authResult ← authenticateToken header (request.securityBuffer body)
  match authResult with
  | .success user sessionKey responseToken =>
      sessionSetupSuccess header request fullMessage existingSession user sessionKey responseToken
  | .continue responseToken => sessionSetupContinue header fullMessage existingSession responseToken
  | .failure _ => fail .logonFailure

/-- Binds or runs a round of the login, by the flag. -/
def handleSessionSetup (header : Smb2Header) (body fullMessage : Bytes) : Handler Response := do
  let request ← parsed (SessionSetupRequest.read body)
  if request.isBinding then handleSessionBinding header fullMessage
  else handleSessionSetupRound header request body fullMessage

/-- The session and its key are forgotten here and in the store. -/
def handleLogoff (header : Smb2Header) : Handler Response := do
  let _ ← expectSession header.sessionId
  modifyConnection fun c => c.removeSession header.sessionId
  modify fun s => { s with signingKeys := s.signingKeys.erase header.sessionId }
  let _ ← attempt (SessionManager.deleteSession header.sessionId)
  respond header (ofU16 4 ++ ofU16 0)

end Handler

end RustSmb
