import RustSmb.System.Atomic
import RustSmb.System.Run

/-!
# Rounds of SESSION_SETUP

What one round of SESSION_SETUP does when no other connection works at the same time,
and when its answer can be relied on: a connection that is told SUCCESS with an
identifier expects the session to be bound to it, to be stored under the user that was
authenticated, and to be the one that it asked for.

## Main results

* `sessionSetupSuccess_run` — what the last round of an exchange does.
* `everyRound_answeredRightly_iff` — **every SUCCESS is right iff every round meets the condition.**
* `reauthentication_answered_wrongly` — a round that does not meet it.
-/

namespace RustSmb

open NtStatus World Handler Proc SessionSetupRequest

variable (header : Smb2Header)

section Round

variable {α β : Type}

/-- The context with which a round goes to the provider.  Identifier 0 starts a new exchange. -/
def roundContext (header : Smb2Header) (s : ConnectionHandler) : AuthContext :=
  if header.sessionId = 0 then {} else s.authContext

/-- The session that the round is to renew. -/
def reauthSession (header : Smb2Header) (s : ConnectionHandler) (w : World α β) :
    Option SessionState :=
  if header.sessionId ≠ 0 ∧ s.connection.hasSession header.sessionId = true ∧
      s.authContext.sessionId.isNone = true then w.store.sessions.lookup header.sessionId
  else none

variable [AuthProvider α]

/-- What the authenticator says. -/
def authOutcome (header : Smb2Header) (token : Bytes) (s : ConnectionHandler) (w : World α β) :
    AuthContext × Except AuthError AuthResult :=
  (AuthProvider.authenticate ⟨w.oracle.challenge, w.oracle.filetime⟩ (roundContext header s) token
    (w.providers s.serverId)).1

variable [StorageBackend β]

namespace Handler

variable {s : ConnectionHandler} {w : World α β}

theorem lookupReauthSession_run :
    run answer (lookupReauthSession header) s w = (.ok (reauthSession header s w), s, w) := by
  unfold lookupReauthSession reauthSession
  rw [run_bind_ok run_get]
  split <;> rfl

theorem exchangeSessionId_run :
    ∃ w', run answer exchangeSessionId s w =
        (.ok (s.authContext.sessionId.getD w.store.sessionCounter), s, w') ∧
      w'.store.sessions = w.store.sessions := by
  unfold exchangeSessionId
  rw [run_bind_ok run_get]
  cases hid : s.authContext.sessionId with
  | some id => exact ⟨w, rfl, rfl⟩
  | none => exact ⟨_, rfl, rfl⟩

theorem interimSessionId_run (existing : Option SessionState) :
    ∃ id s' w', run answer (interimSessionId header existing) s w = (.ok id, s', w') := by
  unfold interimSessionId
  split
  · exact ⟨_, _, _, rfl⟩
  · obtain ⟨w', hid, -⟩ := exchangeSessionId_run (w := w)
    rw [run_bind_ok hid]
    exact ⟨_, _, _, rfl⟩

theorem existingForReauth_run (existing : Option SessionState) (sid : UInt64) :
    run answer (existingForReauth existing sid) s w =
      (.ok (existing.or (w.store.sessions.lookup sid)), s, w) := by
  cases existing <;> rfl

/-- What becomes of the sessions of the connection and of the store when a session is created. -/
theorem createSession_run (c : Bool) (sid : UInt64) (user : UserInfo) (key : Bytes)
    (dialect : SmbDialect) (now : UInt64) :
    ∃ s' w', run answer (when c (createSession sid user key dialect now))
        s w = (.ok (), s', w') ∧ s'.signingKeys = s.signingKeys ∧
      s'.connection = (if c then (s.connection.addSession sid).2 else s.connection) ∧
      w'.store.sessions =
        (if c then w.store.sessions.insert sid
          (newSessionState s.connection sid user key dialect now) else w.store.sessions) := by
  cases c with
  | false => exact ⟨s, w, rfl, rfl, rfl, rfl⟩
  | true => exact ⟨_, _, rfl, rfl, rfl, rfl⟩

/-- What becomes of the sessions of the store when a previous session is taken over. -/
theorem takeOver_run (c : Bool) (previous : UInt64) :
    ∃ w', run answer (when c
        (attempt (SessionManager.deleteSession previous) >>=
          fun _ => (pure () : Handler Unit)))
          s w = (.ok (), s, w') ∧
      w'.store.sessions = (if c then w.store.sessions.erase previous else w.store.sessions) := by
  cases c with
  | false => exact ⟨w, rfl, rfl⟩
  | true =>
    obtain ⟨w', hrun, hsesss⟩ := SessionManager.deleteSession_run previous w
    refine ⟨w', ?_, hsesss⟩
    rw [run_when, if_pos rfl, run_bind_ok (run_attempt_of hrun), run_pure]

theorem newContext_run :
    run answer (when (header.sessionId == 0) (modifyAuthContext fun _ => {})) s w =
      (.ok (), { s with authContext := roundContext header s }, w) := by
  unfold roundContext
  by_cases h : header.sessionId = 0
  · rw [if_pos h, h]
    rfl
  · rw [if_neg h, beq_eq_false_iff_ne.2 h]
    rfl

theorem authenticateToken_run (token : Bytes) :
    ∃ r w', run answer (authenticateToken header token) s w =
        (r, { s with authContext := (authOutcome header token s w).1 }, w') ∧
      w'.store = w.store ∧
      ∀ result, r = .ok result ↔ (authOutcome header token s w).2 = .ok result := by
  unfold authenticateToken askProvider
  rw [run_bind_ok (newContext_run header), run_bind_ok run_get]
  have hauth : run answer (authenticate (roundContext header s) token)
      { s with authContext := roundContext header s } w =
        (.ok (authOutcome header token s w), { s with authContext := roundContext header s },
          (answer (.authenticate s.serverId (roundContext header s) token) w).2) := rfl
  rw [run_bind_ok hauth]
  obtain ⟨ctx, outcome⟩ := authOutcome header token s w
  cases outcome with
  | ok result => exact ⟨.ok result, _, rfl, rfl, by simp⟩
  | error e => cases e <;> exact ⟨.error _, _, rfl, rfl, by simp⟩

theorem buildResponseHeader_run (request : Smb2Header) (st : NtStatus) :
    ∃ header s', run answer (buildResponseHeader request st) s w = (.ok header, s', w) ∧
      header.status = st.code ∧ header.sessionId = request.sessionId ∧
      s'.connection.sessionIds = s.connection.sessionIds ∧ s'.signingKeys = s.signingKeys :=
  ⟨_, _, rfl, rfl, rfl, rfl, rfl⟩

/-- The sessions after the last round: a new one is entered, and one that is taken over is
removed. -/
def sessionsAfter (request : SessionSetupRequest) (user : UserInfo) (isNew : Bool) (sid : UInt64)
    (session : SessionState) (sessions : Table UInt64 SessionState) : Table UInt64 SessionState :=
  let sessions := if isNew then sessions.insert sid session else sessions
  if takesOver request user then sessions.erase request.previousSessionId else sessions

theorem lookup_sessionsAfter (request : SessionSetupRequest) (user : UserInfo) (isNew : Bool)
    (sid : UInt64) (session : SessionState) (sessions : Table UInt64 SessionState) :
    (sessionsAfter request user isNew sid session sessions).lookup sid =
      if takesOver request user = true ∧ request.previousSessionId = sid then none
      else if isNew then some session else sessions.lookup sid := by
  have hent : (if isNew then sessions.insert sid session else sessions).lookup sid =
      if isNew then some session else sessions.lookup sid := by
    cases isNew <;> simp
  unfold sessionsAfter
  cases htakes : takesOver request user with
  | false => simpa using hent
  | true =>
    simp only [if_true, true_and]
    rw [Table.lookup_erase_ite, hent]
    simp only [eq_comm]

variable [Externs]

theorem updatePreauthHash_run (c : Bool) (message : Bytes) :
    ∃ s', run answer (when c (updatePreauthHash message)) s w = (.ok (), s', w) ∧
      s'.connection = s.connection ∧ s'.signingKeys = s.signingKeys := by
  cases c <;> exact ⟨_, rfl, rfl, rfl⟩

/-- The answer to the last round names its session, and the key of a new session that is to be
signed is entered. -/
theorem sessionSetupResponse_run (sid : UInt64) (user : UserInfo) (retained : Option Bytes)
    (key : Bytes) (token : Option Bytes) (dialect : SmbDialect) :
    ∃ response s', run answer
        (sessionSetupResponse header sid user retained key token dialect) s w =
          (.ok response, s', w) ∧
      response.header.status = success.code ∧ response.header.sessionId = sid ∧
      s'.connection.sessionIds = s.connection.sessionIds ∧
      (retained = none → shouldSign user = true → s'.signingKeys =
        s.signingKeys.insert sid (deriveSigningKey dialect key s'.preauthHash)) := by
  obtain ⟨respHeader, s₁, hhead, hstat, -, h₁, hkeys₁⟩ :=
    buildResponseHeader_run (w := w) header .success
  unfold sessionSetupResponse
  rw [run_bind_ok hhead]
  obtain ⟨s₂, hhash, h₂, hkeys₂⟩ := updatePreauthHash_run (w := w)
    (dialect == .smb311 && retained.isNone)
    (Response.bytes ⟨{ respHeader with
        sessionId := sid
        flags := if shouldSign user then Smb2Flags.SERVER_TO_REDIR ||| Smb2Flags.SIGNED
          else respHeader.flags },
      sessionSetupBody (sessionFlags user.isGuest user.isAnonymous) (token.getD [])⟩)
  rw [run_bind_ok hhash, run_bind_ok run_get]
  have hids : s₂.connection.sessionIds = s.connection.sessionIds := by rw [h₂, h₁]
  have hkeys : s₂.signingKeys = s.signingKeys := hkeys₂.trans hkeys₁
  cases hsign : shouldSign user with
  | false => exact ⟨_, _, rfl, hstat, rfl, hids, fun _ h => by cases h⟩
  | true =>
    refine ⟨_, _, rfl, hstat, rfl, hids, fun hnew _ => ?_⟩
    rw [hnew, ← hkeys]
    rfl

/-- **What the last round of an exchange does.**  If no session is stored under its identifier
and none is reauthenticated, one is created and bound; otherwise nothing is. -/
theorem sessionSetupSuccess_run (request : SessionSetupRequest) (fullMessage : Bytes)
    (existing : Option SessionState) (user : UserInfo) (key : Bytes) (token : Option Bytes)
    {sid : UInt64} (hsid : s.authContext.sessionId.getD w.store.sessionCounter = sid) {isNew : Bool}
    (hnew : (existing.or (w.store.sessions.lookup sid)).isNone = isNew) :
    ∃ response s' w' c now, run answer
        (sessionSetupSuccess header request fullMessage existing user key token) s w =
          (.ok response, s', w') ∧
      response.header.status = success.code ∧ response.header.sessionId = sid ∧
      s'.connection.sessionIds = (if isNew then (s.connection.addSession sid).2
        else s.connection).sessionIds ∧
      (isNew = true → shouldSign user = true → s'.signingKeys = s.signingKeys.insert sid
        (deriveSigningKey (s.connection.dialect.getD .smb202) key s'.preauthHash)) ∧
      w'.store.sessions = sessionsAfter request user isNew sid
        (newSessionState c sid user key (s.connection.dialect.getD .smb202) now)
        w.store.sessions := by
  unfold sessionSetupSuccess
  obtain ⟨w₁, hid, hw₁⟩ := exchangeSessionId_run (w := w)
  rw [hsid] at hid
  rw [← hw₁] at hnew
  rw [run_bind_ok hid, run_bind_ok (existingForReauth_run existing sid), run_bind_ok run_get]
  simp only [hnew]
  obtain ⟨s₁, hhash, hs₁, hk₁⟩ := updatePreauthHash_run (w := w₁)
    (s.connection.dialect.getD .smb202 == .smb311 && isNew) fullMessage
  rw [run_bind_ok hhash, run_bind_ok run_now]
  obtain ⟨s₂, w₂, hcre, hk₂, hs₂, hw₂⟩ := createSession_run (w := w₁) isNew
    sid user key (s.connection.dialect.getD .smb202) w₁.oracle.now
  rw [run_bind_ok hcre]
  obtain ⟨w₃, htake, hw₃⟩ := takeOver_run (w := w₂) (takesOver request user)
    request.previousSessionId
  rw [run_bind_ok htake]
  obtain ⟨response, s₃, hresp, hstat, hrsid, hs₃, hk₃⟩ := sessionSetupResponse_run
    (w := w₃) header sid user
    ((existing.or (w₁.store.sessions.lookup sid)).map SessionState.sessionKey) key token
    (s.connection.dialect.getD .smb202)
  refine ⟨response, s₃, w₃, s₁.connection, w₁.oracle.now, hresp, hstat, hrsid, ?_, ?_, ?_⟩
  · rw [hs₃, hs₂, hs₁]
  · rintro rfl hsign
    rw [hk₃ (by rw [Option.isNone_iff_eq_none.1 hnew]; rfl) hsign, hk₂, hk₁]
  · rw [hw₃, hw₂, hw₁]
    rfl

theorem sessionSetupContinue_run (fullMessage : Bytes) (existing : Option SessionState)
    (token : Bytes) :
    ∃ response s' w', run answer
        (sessionSetupContinue header fullMessage existing token) s w = (.ok response, s', w') ∧
      response.header.status = moreProcessingRequired.code := by
  unfold sessionSetupContinue
  obtain ⟨id, s₁, w₁, hid⟩ := interimSessionId_run (w := w) header existing
  rw [run_bind_ok run_get, run_bind_ok hid]
  obtain ⟨s₂, hhash, -, -⟩ := updatePreauthHash_run (w := w₁)
    (s.connection.dialect.getD .smb202 == .smb311) fullMessage
  obtain ⟨respHeader, s₃, hhead, hstat, -⟩ :=
    buildResponseHeader_run (w := w₁) header .moreProcessingRequired
  rw [run_bind_ok hhash, run_bind_ok hhead]
  obtain ⟨s₄, hhash', -, -⟩ := updatePreauthHash_run (w := w₁)
    (s.connection.dialect.getD .smb202 == .smb311)
    (Response.bytes ⟨{ respHeader with sessionId := id }, sessionSetupBody 0 token⟩)
  rw [run_bind_ok hhash']
  exact ⟨_, _, _, rfl, hstat⟩

/-- The checks that a binding passes. -/
structure BindingAccepted (header : Smb2Header) (fullMessage : Bytes) (s : ConnectionHandler)
    (session : SessionState) (now : UInt64) : Prop where
  multiChannel : s.connection.isMultiChannelCapable = true
  dialect : (s.connection.dialect.all fun d => d == session.dialect) = true
  signed : Smb2Flags.isSigned header.flags = true
  notExpired : (!(decide (now > session.expiresAt))) = true
  named : (!(session.isGuest || session.isAnonymous)) = true
  unbound : (!s.connection.hasSession header.sessionId) = true
  verified : (!session.sessionKey.isEmpty) = true →
    verifyRequestSignature fullMessage session.sessionKey = .ok ()

/-- A binding that is accepted adds the session to the connection, below the limit. -/
theorem handleSessionBinding_run_accepted {header : Smb2Header} {fullMessage : Bytes}
    {session : SessionState} (hfound : w.store.sessions.lookup header.sessionId = some session)
    (h : BindingAccepted header fullMessage s session w.oracle.now) :
    ∃ response s' w', run answer (handleSessionBinding header fullMessage) s w =
        (.ok response, s', w') ∧
      response.header.status = success.code ∧
      response.header.sessionId = header.sessionId ∧
      s'.connection.sessionIds = (s.connection.addSession header.sessionId).2.sessionIds ∧
      s'.signingKeys = (if session.sessionKey = [] then s.signingKeys
        else s.signingKeys.insert header.sessionId session.sessionKey) ∧
      (w'.store.sessions.lookup header.sessionId).isSome = true := by
  unfold handleSessionBinding
  have hverify : run answer (when (!session.sessionKey.isEmpty)
      (ofExcept (verifyRequestSignature fullMessage session.sessionKey)) : Handler Unit) s w =
        (.ok (), s, w) := by
    rw [run_when, run_ofExcept]
    split
    · next hkey => rw [h.verified hkey]
    · rfl
  rw [run_bind_ok run_get, run_require_bind, if_pos h.multiChannel,
    run_bind_ok (expectSession_run hfound), run_require_bind, if_pos h.dialect,
    run_require_bind, if_pos h.signed, run_bind_ok run_now, run_require_bind,
    if_pos h.notExpired, run_require_bind, if_pos h.named, run_require_bind,
    if_pos h.unbound, run_bind_ok hverify, run_bind_ok rfl]
  have hrefresh : ((w.store.refreshSession header.sessionId 3600 w.oracle.now).sessions.lookup
      header.sessionId).isSome = true := by
    unfold MemoryStateStore.refreshSession
    rw [hfound]
    simp
  cases hkey : session.sessionKey with
  | nil | cons _ _ => exact ⟨_, _, _, rfl, rfl, rfl, rfl, rfl, hrefresh⟩

theorem handleSessionBinding_run_ok {header : Smb2Header} {fullMessage : Bytes}
    {response : Response}
    (hrun : (run answer (handleSessionBinding header fullMessage) s w).1 = .ok response) :
    ∃ session, w.store.sessions.lookup header.sessionId = some session ∧
      BindingAccepted header fullMessage s session w.oracle.now := by
  unfold handleSessionBinding at hrun
  obtain ⟨hmulti, hrun⟩ := run_require_ok hrun
  cases hfound : w.store.sessions.lookup header.sessionId with
  | none =>
    rw [run_bind_error (expectSession_run_none hfound)] at hrun
    cases hrun
  | some session =>
  rw [run_bind_ok (expectSession_run hfound)] at hrun
  obtain ⟨hdial, hrun⟩ := run_require_ok hrun
  obtain ⟨hsign, hrun⟩ := run_require_ok hrun
  obtain ⟨hexp, hrun⟩ := run_require_ok hrun
  obtain ⟨hnamed, hrun⟩ := run_require_ok hrun
  obtain ⟨hunbound, hrun⟩ := run_require_ok hrun
  refine ⟨session, rfl, hmulti, hdial, hsign, hexp, hnamed, hunbound, fun hkey => ?_⟩
  cases hverify : verifyRequestSignature fullMessage session.sessionKey with
  | ok _ => rfl
  | error e =>
    rw [hkey, hverify] at hrun
    cases hrun

end Handler

/-! ### Answers -/

variable [Externs]

/-- The identifier under which a round ends: that of the context, or a fresh one of the store. -/
def exchangeId (header : Smb2Header) (token : Bytes) (s : ConnectionHandler) (w : World α β) :
    UInt64 :=
  (authOutcome header token s w).1.sessionId.getD w.store.sessionCounter

/-- A request of SESSION_SETUP, and the world that it finds. -/
structure SetupRound (α β : Type) where
  world : World α β
  header : Smb2Header
  body : Bytes
  fullMessage : Bytes

namespace SetupRound

variable (r : SetupRound α β) (s : ConnectionHandler)

/-- The round with its outcome. -/
def run : Except HandlerError Response × ConnectionHandler × World α β :=
  Proc.run answer (handleSessionSetup r.header r.body r.fullMessage) s r.world

/-- Who has logged on in the round. -/
def user : Option UserInfo :=
  match read r.body with
  | none => none
  | some request =>
      if request.isBinding then none
      else
        match (authOutcome r.header (request.securityBuffer r.body) s r.world).2 with
        | .ok (.success user _ _) => some user
        | _ => none

/-- SUCCESS with an identifier: the session is bound to the connection, stored under the user
just authenticated, and the one asked for. -/
structure RightAnswer (sid : UInt64) : Prop where
  bound : sid ∈ (r.run s).2.1.connection.sessionIds
  stored : ∃ session, (r.run s).2.2.store.sessions.lookup sid = some session ∧
    ∀ user, r.user s = some user → session.userId = user.username
  asked : r.header.sessionId ≠ 0 → sid = r.header.sessionId

/-- A success names a session as it should. -/
def AnsweredRightly : Prop :=
  ∀ response, (r.run s).1 = .ok response → response.header.status = success.code →
    r.RightAnswer s response.header.sessionId

/-- The last round ends under the identifier that was asked for and does not take over that
session, and creates one that can be bound, or the one that is kept is bound and stored under the
same user. -/
structure EndsRightly (request : SessionSetupRequest) (user : UserInfo) (sid : UInt64) : Prop where
  asked : r.header.sessionId ≠ 0 → sid = r.header.sessionId
  kept : ¬ (takesOver request user = true ∧ request.previousSessionId = sid)
  created : (reauthSession r.header s r.world).or (r.world.store.sessions.lookup sid) = none →
    sid ∈ s.connection.sessionIds ∨ s.connection.sessionIds.length < s.connection.maxSessions
  reused : (reauthSession r.header s r.world).or (r.world.store.sessions.lookup sid) ≠ none →
    sid ∈ s.connection.sessionIds ∧ ∃ session, r.world.store.sessions.lookup sid = some session ∧
      session.userId = user.username

/-- The condition on a round and the state before it.  An accepted binding needs room for a
session. -/
def Meets : Prop :=
  ∀ request, read r.body = some request →
    (request.isBinding = true →
      (∃ session, r.world.store.sessions.lookup r.header.sessionId = some session ∧
        BindingAccepted r.header r.fullMessage s session r.world.oracle.now) →
      s.connection.sessionIds.length < s.connection.maxSessions) ∧
    (request.isBinding = false → ∀ user, r.user s = some user →
      r.EndsRightly s request user
        (exchangeId r.header (request.securityBuffer r.body) s r.world))

variable {r s}

variable {request : SessionSetupRequest} {user : UserInfo}

section Read

variable (hread : read r.body = some request)

include hread

theorem run_round (hbind : request.isBinding = false) :
    r.run s = Proc.run answer
      (handleSessionSetupRound r.header request r.body r.fullMessage) s r.world := by
  unfold run handleSessionSetup
  rw [hread, run_bind_ok rfl, hbind]
  rfl

theorem run_binding (hbind : request.isBinding = true) :
    r.run s = Proc.run answer (handleSessionBinding r.header r.fullMessage) s r.world := by
  unfold run handleSessionSetup
  rw [hread, run_bind_ok rfl, hbind]
  rfl

theorem run_success (hbind : request.isBinding = false) {key : Bytes} {token : Option Bytes}
    (hauth : (authOutcome r.header (request.securityBuffer r.body) s r.world).2 =
      .ok (.success user key token))
    {sid : UInt64} (hsid : exchangeId r.header (request.securityBuffer r.body) s r.world = sid)
    {isNew : Bool}
    (hnew : ((reauthSession r.header s r.world).or (r.world.store.sessions.lookup sid)).isNone =
      isNew) :
    ∃ response c now, (r.run s).1 = .ok response ∧
      response.header.status = success.code ∧ response.header.sessionId = sid ∧
      (r.run s).2.1.connection.sessionIds =
        (if isNew then (s.connection.addSession sid).2 else s.connection).sessionIds ∧
      (isNew = true → shouldSign user = true →
        (r.run s).2.1.signingKeys = s.signingKeys.insert sid
          (deriveSigningKey (s.connection.dialect.getD .smb202) key (r.run s).2.1.preauthHash)) ∧
      (r.run s).2.2.store.sessions =
        sessionsAfter request user isNew sid
          (newSessionState c sid user key (s.connection.dialect.getD .smb202) now)
          r.world.store.sessions := by
  rw [run_round hread hbind]
  unfold handleSessionSetupRound
  obtain ⟨result, w₁, hrun, hstore, hresult⟩ := authenticateToken_run
    (w := r.world) r.header (request.securityBuffer r.body)
  obtain rfl := (hresult _).2 hauth
  rw [run_bind_ok (lookupReauthSession_run r.header), run_bind_ok hrun]
  rw [← hstore] at hnew ⊢
  unfold exchangeId at hsid
  rw [← hstore] at hsid
  obtain ⟨response, s', w', c, now, hrun', hrest⟩ := sessionSetupSuccess_run
    (s := { s with authContext :=
      (authOutcome r.header (request.securityBuffer r.body) s r.world).1 })
    r.header request r.fullMessage (reauthSession r.header s r.world) user key token hsid hnew
  exact ⟨response, c, now, by rw [hrun'], by rw [hrun']; exact hrest⟩

/-- A round is answered with SUCCESS only if the provider authenticates a user. -/
theorem exists_user_of_success (hbind : request.isBinding = false) {response : Response}
    (hrun : (r.run s).1 = .ok response) (hstat : response.header.status = success.code) :
    ∃ user key token, (authOutcome r.header (request.securityBuffer r.body) s r.world).2 =
      .ok (.success user key token) := by
  rw [run_round hread hbind] at hrun
  unfold handleSessionSetupRound at hrun
  obtain ⟨result, w₁, hauth, -, hresult⟩ := authenticateToken_run
    (w := r.world) r.header (request.securityBuffer r.body)
  rw [run_bind_ok (lookupReauthSession_run r.header)] at hrun
  rcases result with e | (⟨user, key, token⟩ | token | e)
  · rw [run_bind_error hauth] at hrun
    cases hrun
  · exact ⟨user, key, token, (hresult _).1 rfl⟩
  · rw [run_bind_ok hauth] at hrun
    obtain ⟨response', s', w', hcontinue, hmore⟩ := sessionSetupContinue_run
      (s := { s with authContext :=
        (authOutcome r.header (request.securityBuffer r.body) s r.world).1 }) (w := w₁)
      r.header r.fullMessage (reauthSession r.header s r.world) token
    simp only [hcontinue] at hrun
    cases hrun
    rw [hmore] at hstat
    cases hstat
  · rw [run_bind_ok hauth] at hrun
    cases hrun

end Read

omit [StorageBackend β] [Externs] in
theorem user_eq_some_iff (hread : read r.body = some request)
    (hbind : request.isBinding = false) :
    r.user s = some user ↔ ∃ key token,
      (authOutcome r.header (request.securityBuffer r.body) s r.world).2 =
        .ok (.success user key token) := by
  unfold SetupRound.user
  simp only [hread, hbind]
  rcases (authOutcome r.header (request.securityBuffer r.body) s r.world).2 with
    e | (⟨u, key, token⟩ | token | e) <;> simp

/-- A binding is answered rightly iff there is room for the session or it is not accepted. -/
theorem answeredRightly_binding (hread : read r.body = some request)
    (hbind : request.isBinding = true) :
    r.AnsweredRightly s ↔
      ((∃ session, r.world.store.sessions.lookup r.header.sessionId = some session ∧
        BindingAccepted r.header r.fullMessage s session r.world.oracle.now) →
      s.connection.sessionIds.length < s.connection.maxSessions) := by
  have hnone : r.user s = none := by simp only [SetupRound.user, hread, hbind, if_true]
  constructor
  · rintro h ⟨session, hfound, hacpt⟩
    obtain ⟨response, s', w', hrun, hstat, hsid, hids, -, -⟩ :=
      handleSessionBinding_run_accepted hfound hacpt
    rw [← run_binding hread hbind] at hrun
    have hbound := (h response (by rw [hrun]) hstat).bound
    rw [hrun, hids, hsid, Connection.mem_addSession] at hbound
    rcases hbound with hbound | ⟨-, hroom⟩
    · have := hacpt.unbound
      simp [Connection.hasSession, hbound] at this
    · exact hroom
  · intro h response hrun hstat
    rw [run_binding hread hbind] at hrun
    obtain ⟨session, hfound, hacpt⟩ := handleSessionBinding_run_ok hrun
    have hroom := h ⟨session, hfound, hacpt⟩
    obtain ⟨response', s', w', hrun', -, hsid, hids, -, hstored⟩ :=
      handleSessionBinding_run_accepted hfound hacpt
    rw [hrun'] at hrun
    cases hrun
    rw [← run_binding hread hbind] at hrun'
    obtain ⟨session', hstored⟩ := Option.isSome_iff_exists.1 hstored
    refine ⟨?_, ⟨session', ?_, ?_⟩, fun _ => hsid⟩
    · rw [hrun', hids, hsid, Connection.mem_addSession]
      exact .inr ⟨rfl, hroom⟩
    · rw [hrun', hsid]
      exact hstored
    · intro user huser
      rw [hnone] at huser
      cases huser

theorem answeredRightly_success (hread : read r.body = some request)
    (hbind : request.isBinding = false) (huser : r.user s = some user) :
    r.AnsweredRightly s ↔ r.EndsRightly s request user
      (exchangeId r.header (request.securityBuffer r.body) s r.world) := by
  obtain ⟨key, token, hauth⟩ := (user_eq_some_iff hread hbind).1 huser
  generalize hsid : exchangeId r.header (request.securityBuffer r.body) s r.world = sid
  generalize hnew : ((reauthSession r.header s r.world).or
    (r.world.store.sessions.lookup sid)).isNone = isNew
  obtain ⟨response, c, now, hrun, hstat, hrsid, hids, -, hsesss⟩ :=
    run_success hread hbind hauth hsid hnew
  obtain ⟨session, hname, hsesss⟩ : ∃ session : SessionState, session.userId = user.username ∧
      (r.run s).2.2.store.sessions =
        sessionsAfter request user isNew sid session r.world.store.sessions :=
    ⟨_, rfl, hsesss⟩
  have hlook := lookup_sessionsAfter request user isNew sid session r.world.store.sessions
  rw [← hsesss] at hlook
  have hright : r.AnsweredRightly s ↔ r.RightAnswer s sid := by
    constructor
    · intro h
      rw [← hrsid]
      exact h response hrun hstat
    · intro h response' hrun' _
      obtain rfl : response = response' := by rw [hrun] at hrun'; exact Except.ok.inj hrun'
      rwa [hrsid]
  rw [hright]
  -- the takeover comes last, so it may delete the session just answered with
  have hkept : r.RightAnswer s sid →
      ¬ (takesOver request user = true ∧ request.previousSessionId = sid) := by
    rintro ⟨-, ⟨session', hstored, -⟩, -⟩ htaken
    rw [hlook, if_pos htaken] at hstored
    cases hstored
  -- is the session new, or one that is kept?
  cases isNew with
  | true =>
    have hnone := Option.isNone_iff_eq_none.1 hnew
    have hbound : sid ∈ (r.run s).2.1.connection.sessionIds ↔
        sid ∈ s.connection.sessionIds ∨
          s.connection.sessionIds.length < s.connection.maxSessions := by
      rw [hids, if_pos rfl, Connection.mem_addSession]
      simp
    constructor
    · intro h
      exact ⟨h.asked, hkept h, fun _ => hbound.1 h.bound, fun hsome => absurd hnone hsome⟩
    · intro h
      refine ⟨hbound.2 (h.created hnone), ⟨session, ?_, ?_⟩, h.asked⟩
      · rw [hlook, if_neg h.kept, if_pos rfl]
      · intro user' huser'
        rw [huser] at huser'
        cases huser'
        exact hname
  | false =>
    have hsome : (reauthSession r.header s r.world).or (r.world.store.sessions.lookup sid) ≠ none :=
      fun h => by rw [h] at hnew; cases hnew
    rw [if_neg Bool.false_ne_true] at hids hlook
    constructor
    · intro h
      refine ⟨h.asked, hkept h, fun hnone => absurd hnone hsome, fun _ => ⟨?_, ?_⟩⟩
      · rw [← hids]
        exact h.bound
      · obtain ⟨session', hstored, hname'⟩ := h.stored
        rw [hlook, if_neg (hkept h)] at hstored
        exact ⟨session', hstored, hname' user huser⟩
    · intro h
      obtain ⟨hbound, session', hstored, hname'⟩ := h.reused hsome
      refine ⟨by rwa [hids], ⟨session', ?_, ?_⟩, h.asked⟩
      · rwa [hlook, if_neg h.kept]
      · intro user' huser'
        rw [huser] at huser'
        cases huser'
        exact hname'

/-- **A round is answered rightly iff it meets the condition.** -/
theorem answeredRightly_iff : r.AnsweredRightly s ↔ r.Meets s := by
  cases hread : read r.body with
  | none =>
    have hrun : (r.run s).1 = .error .protocol := by
      unfold run handleSessionSetup
      rw [hread, run_bind_error rfl]
    refine ⟨fun _ request h => ?_, fun _ response h => ?_⟩
    · rw [hread] at h
      cases h
    · rw [hrun] at h
      cases h
  | some request =>
    cases hbind : request.isBinding with
    | true =>
      rw [answeredRightly_binding hread hbind]
      constructor
      · rintro h request' hread'
        rw [hread] at hread'
        cases hread'
        exact ⟨fun _ => h, fun hfalse => absurd (hbind.symm.trans hfalse) (by decide)⟩
      · exact fun h => (h request hread).1 hbind
    | false =>
      constructor
      · rintro h request' hread'
        rw [hread] at hread'
        cases hread'
        refine ⟨fun htrue => absurd (hbind.symm.trans htrue) (by decide), fun _ user huser => ?_⟩
        exact (answeredRightly_success hread hbind huser).1 h
      · intro h response hrun hstat
        obtain ⟨user, hauth⟩ := exists_user_of_success hread hbind hrun hstat
        have huser := (user_eq_some_iff hread hbind).2 hauth
        exact (answeredRightly_success hread hbind huser).2
          ((h request hread).2 hbind user huser)
          response hrun hstat

end SetupRound

/-! ### Sequences of rounds -/

/-- Every round on a connection satisfies `P`.  It finds the connection as the rounds before left
it, and the world as others may have. -/
def EveryRound (P : SetupRound α β → ConnectionHandler → Prop) :
    List (SetupRound α β) → ConnectionHandler → Prop
  | [], _ => True
  | r :: rounds, s => P r s ∧ EveryRound P rounds (r.run s).2.1

/-- **In a sequence of rounds, every SUCCESS is a right answer iff every round meets the
condition.** -/
theorem everyRound_answeredRightly_iff (rounds : List (SetupRound α β)) (s : ConnectionHandler) :
    EveryRound SetupRound.AnsweredRightly rounds s ↔ EveryRound SetupRound.Meets rounds s := by
  induction rounds generalizing s with
  | nil => exact Iff.rfl
  | cons r rounds ih => exact and_congr SetupRound.answeredRightly_iff (ih _)

end Round

section Sample

open Sample

def emptyRound (w : FilesWorld) (sid : UInt64) : SetupRound AnonymousAuthProvider Files :=
  let message := Client.sessionSetup sid []
  ⟨w, { command := .sessionSetup, sessionId := sid }, message.drop SMB2_HEADER_SIZE, message⟩

/-- **A reauthentication is answered with another session**: a second round that asks for session
1 is told SUCCESS with session 2. -/
theorem reauthentication_answered_wrongly :
    let first := emptyRound (world AnonymousAuthProvider.anonymousOnly) 0
    let second := emptyRound (first.run (handler "a")).2.2 1
    ((first.run (handler "a")).1.toOption.map fun r => (r.header.status, r.header.sessionId)) =
        some (NtStatus.success.code, 1) ∧
      ((second.run (first.run (handler "a")).2.1).1.toOption.map fun r =>
        (r.header.status, r.header.sessionId)) = some (NtStatus.success.code, 2) ∧
      ¬ EveryRound SetupRound.AnsweredRightly [first, second] (handler "a") := by
  intro first second
  have hsec : ((second.run (first.run (handler "a")).2.1).1.toOption.map fun r =>
      (r.header.status, r.header.sessionId)) = some (success.code, 2) := by
    decide +kernel
  refine ⟨by decide +kernel, hsec, ?_⟩
  rintro ⟨-, hright, -⟩
  obtain ⟨response, hresp, heq⟩ := Option.map_eq_some_iff.1 hsec
  obtain ⟨hstat, hsid⟩ := Prod.mk.inj heq
  have hrun : (second.run (first.run (handler "a")).2.1).1 = .ok response := by
    cases hr : (second.run (first.run (handler "a")).2.1).1 with
    | error e =>
      rw [hr] at hresp
      cases hresp
    | ok response' =>
      rw [hr] at hresp
      exact congrArg Except.ok (Option.some.inj hresp)
  have hasked := (hright response hrun hstat).asked (show (1 : UInt64) ≠ 0 by decide)
  rw [hsid] at hasked
  exact absurd hasked (show (2 : UInt64) ≠ 1 by decide)

end Sample

end RustSmb
