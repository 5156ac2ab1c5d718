import RustSmb.Server.Footprint
import RustSmb.System.Setup

/-!
# The signing key of a session on several connections

A session that is bound to a second connection should be signed there with the key that it has on
the first one.  SESSION_SETUP installs a key that is derived from the session key, as the dialect
prescribes.  Binding checks the request against the session key itself, and installs that.

## Main results

* `SetupRound.Establishes.key_eq` — the key that a round installs.
* `takesOnKey_iff` — **the second connection takes on the key iff deriving it changes
  nothing.**
* `Sample.binding_refused` — a binding that is signed with the right key is refused.
-/

namespace RustSmb

open Proc Handler

section Keys

/-- What is stored after the last round of an exchange is the new session or was stored before. -/
theorem lookup_sessionsAfter_cases {request : SessionSetupRequest} {user : UserInfo}
    {isNew : Bool} {sid k : UInt64} {new x : SessionState} {sessions : Table UInt64 SessionState}
    (h : (sessionsAfter request user isNew sid new sessions).lookup k = some x) :
    (isNew = true ∧ k = sid ∧ x = new) ∨ sessions.lookup k = some x := by
  unfold sessionsAfter at h
  have hent : (if isNew then sessions.insert sid new else sessions).lookup k = some x := by
    simp only at h
    split at h
    · exact Table.of_lookup_erase h
    · exact h
  cases isNew with
  | false => exact .inr hent
  | true => exact (Table.of_lookup_insert hent).imp_left fun h => ⟨rfl, h⟩

variable [Externs] {α β : Type} [AuthProvider α] [StorageBackend β]

namespace SetupRound

variable {r b : SetupRound α β} {s t : ConnectionHandler} {session : SessionState} {key : Bytes}

/-- A round establishes a session: it is new in the store, and the connection has a signing key
for it. -/
structure Establishes (r : SetupRound α β) (s : ConnectionHandler) (session : SessionState)
    (key : Bytes) : Prop where
  absent : r.world.store.sessions.lookup session.sessionId = none
  stored : (r.run s).2.2.store.sessions.lookup session.sessionId = some session
  installed : (r.run s).2.1.signingKeys.lookup session.sessionId = some key

/-- An honest request to bind a session to another connection, signed with a key: the session is
stored, has not expired and belongs to a user, and may be bound. -/
structure BindsHonestly (b : SetupRound α β) (t : ConnectionHandler) (session : SessionState)
    (key : Bytes) : Prop where
  request : ∃ request, SessionSetupRequest.read b.body = some request ∧ request.isBinding = true
  names : b.header.sessionId = session.sessionId
  stored : ∃ lastAccess expiresAt, b.world.store.sessions.lookup session.sessionId =
    some { session with lastAccess := lastAccess, expiresAt := expiresAt } ∧
      ¬ b.world.oracle.now > expiresAt
  ofUser : session.isGuest = false ∧ session.isAnonymous = false
  multiChannel : t.connection.isMultiChannelCapable = true
  dialect : t.connection.dialect = some session.dialect
  unbound : t.connection.hasSession session.sessionId = false
  signed : Smb2Flags.isSigned b.header.flags = true
  whole : SMB2_HEADER_SIZE ≤ b.fullMessage.length
  signature : b.fullMessage.slice 48 16 = computeSignature key (zeroSignature b.fullMessage)

/-- The request is accepted, and from then on the connection signs the responses of the session
with the key. -/
def TakesOnKey (b : SetupRound α β) (t : ConnectionHandler) (session : SessionState)
    (key : Bytes) : Prop :=
  (∃ response, (b.run t).1 = .ok response ∧
      response.header.status = NtStatus.success.code) ∧
    (b.run t).2.1.signingKeys.lookup session.sessionId = some key

/-! ### The key that a round installs -/

omit [Externs] in
theorem lookup_none_answer {sid : UInt64} {o : SmbOp} (ho : o.effect ≠ .createSession)
    {w : World α β} (h : w.store.sessions.lookup sid = none) :
    (World.answer o w).2.store.sessions.lookup sid = none := by
  cases o with
  | store so =>
    by_cases hsess : so.effect = .session
    · cases so with
      | deleteSession id =>
        show (w.store.sessions.erase id).lookup sid = none
        rw [Table.lookup_erase_ite, h, ite_self]
      | refreshSession id ttl =>
        show (w.store.refreshSession id ttl w.oracle.now).sessions.lookup sid = none
        unfold MemoryStateStore.refreshSession
        split
        · next found hfound =>
          have hne : sid ≠ id := by
            rintro rfl
            rw [h] at hfound
            cases hfound
          rwa [AList.lookup_insert_ne hne]
        · exact h
      | _ => cases hsess
    · show (MemoryStateStore.answer w.oracle.now so w.store).2.sessions.lookup sid = none
      rwa [MemoryStateStore.answer_sessions ho hsess]
  | _ => exact h

omit [Externs] in
theorem lookup_none_of_within (es : List Effect) (hes : Effect.createSession ∉ es) {γ : Type}
    {x : Handler γ} [Stays (fun _ => True) es x] {sid : UInt64} {w : World α β}
    (h : w.store.sessions.lookup sid = none) :
    (Proc.run World.answer x s w).2.2.store.sessions.lookup sid = none := by
  refine run_keeps (J := fun w : World α β => w.store.sessions.lookup sid = none) ?_
    ((walked : Keeping (fun _ => True) es x) s [] trivial) h
  rintro o (hnone | hmem) w hw
  · exact lookup_none_answer (by rw [hnone]; decide) hw
  · exact lookup_none_answer (fun heq => hes (heq ▸ hmem)) hw

/-- **The key that a round installs with a new session** of a user is derived from the session
key. -/
theorem Establishes.key_eq (h : r.Establishes s session key)
    (huser : session.isGuest = false ∧ session.isAnonymous = false) :
    key = deriveSigningKey session.dialect session.sessionKey (r.run s).2.1.preauthHash := by
  obtain ⟨habs, hstored, hinstalled⟩ := h
  -- a run that leaves the identifier unused does not establish the session
  have hunused : (r.run s).2.2.store.sessions.lookup session.sessionId ≠ none := by
    rw [hstored]
    exact fun h => by cases h
  cases hread : SessionSetupRequest.read r.body with
  | none =>
    refine absurd ?_ hunused
    unfold run handleSessionSetup
    rw [hread, run_bind_error rfl]
    exact habs
  | some request =>
  cases hbind : request.isBinding with
  | true =>
    refine absurd ?_ hunused
    rw [run_binding hread hbind]
    exact lookup_none_of_within [.session] (by decide) habs
  | false =>
  have hround := run_round (s := s) hread hbind
  unfold handleSessionSetupRound at hround
  obtain ⟨result, w₁, hauth, hstore, hresult⟩ := authenticateToken_run
    (w := r.world) r.header (request.securityBuffer r.body)
  rw [← hstore] at habs
  rw [run_bind_ok (lookupReauthSession_run r.header)] at hround
  rcases result with e | (⟨user, sessionKey, token⟩ | token | e)
  · rw [run_bind_error hauth] at hround
    rw [hround] at hunused
    exact absurd habs hunused
  · -- the exchange ends: the session can only be the one that it creates
    rw [hstore] at habs
    generalize hsid : exchangeId r.header (request.securityBuffer r.body) s r.world = sid
    generalize hnew : ((reauthSession r.header s r.world).or
      (r.world.store.sessions.lookup sid)).isNone = isNew
    obtain ⟨response, c, now, -, -, -, -, hkeys, hsesss⟩ :=
      run_success hread hbind ((hresult _).1 rfl) hsid hnew
    rw [hsesss] at hstored
    rcases lookup_sessionsAfter_cases hstored with ⟨rfl, heq, hsess⟩ | hold
    · have hsign : shouldSign user = true := by
        rw [hsess] at huser
        simp only [newSessionState] at huser
        unfold shouldSign
        rw [huser.1, huser.2]
        rfl
      rw [hkeys rfl hsign, heq, AList.lookup_insert] at hinstalled
      rw [hsess]
      exact (Option.some.inj hinstalled).symm
    · rw [habs] at hold
      cases hold
  · rw [run_bind_ok hauth] at hround
    rw [hround] at hunused
    exact absurd (lookup_none_of_within [.sessionCounter] (by decide) habs) hunused
  · rw [run_bind_ok hauth] at hround
    rw [hround] at hunused
    exact absurd habs hunused

/-! ### The key on the second connection -/

/-- Deriving the signing key changes nothing.  For an empty session key binding installs none, so
the connection must have the derived one. -/
def KeyUnchanged (session : SessionState) (preauthHash : Bytes) (t : ConnectionHandler) : Prop :=
  if session.sessionKey = [] then
    t.signingKeys.lookup session.sessionId =
      some (deriveSigningKey session.dialect session.sessionKey preauthHash)
  else deriveSigningKey session.dialect session.sessionKey preauthHash = session.sessionKey

theorem lookup_of_binding {stored : SessionState} (hb : b.BindsHonestly t session key)
    (hstored : b.world.store.sessions.lookup session.sessionId = some stored)
    (hkey : stored.sessionKey = session.sessionKey)
    (hacpt : BindingAccepted b.header b.fullMessage t stored b.world.oracle.now) :
    (∃ response, (b.run t).1 = .ok response ∧ response.header.status = NtStatus.success.code) ∧
      (b.run t).2.1.signingKeys.lookup session.sessionId =
        if session.sessionKey = [] then t.signingKeys.lookup session.sessionId
        else some session.sessionKey := by
  obtain ⟨request, hread, hbind⟩ := hb.request
  rw [← hb.names] at hstored
  obtain ⟨response, t', w', hrun, hstat, -, -, hkeys, -⟩ :=
    handleSessionBinding_run_accepted hstored hacpt
  rw [run_binding hread hbind, hrun]
  refine ⟨⟨response, rfl, hstat⟩, ?_⟩
  rw [hkeys, hkey]
  split
  · rfl
  · rw [hb.names, AList.lookup_insert]

omit [AuthProvider α] [StorageBackend β] in
theorem BindsHonestly.accepted (hb : b.BindsHonestly t session key)
    (hkey : session.sessionKey ≠ [] → key = session.sessionKey) (lastAccess : UInt64)
    {expiresAt : UInt64} (hexp : ¬ b.world.oracle.now > expiresAt) :
    BindingAccepted b.header b.fullMessage t
      { session with lastAccess := lastAccess, expiresAt := expiresAt } b.world.oracle.now := by
  refine ⟨hb.multiChannel, ?_, hb.signed, by simpa using hexp, ?_, ?_, fun hne => ?_⟩
  · rw [hb.dialect]
    simp
  · simp [hb.ofUser.1, hb.ofUser.2]
  · rw [hb.names, hb.unbound]
    rfl
  · have hne' : session.sessionKey ≠ [] := by simpa using hne
    refine verifyRequestSignature_eq_ok.2 ⟨hb.whole, ?_⟩
    rw [← hkey hne']
    exact hb.signature.symm

end SetupRound

open SetupRound

/-- **The second connection takes on the key of a session iff deriving it changes nothing**: an
honest client's request to bind the session, signed with the key of the first connection, is
accepted and the same key used there exactly if the derived key is the session key itself. -/
theorem takesOnKey_iff {r b : SetupRound α β} {s t : ConnectionHandler} {session : SessionState}
    {key : Bytes} (hr : r.Establishes s session key) (hb : b.BindsHonestly t session key) :
    b.TakesOnKey t session key ↔ KeyUnchanged session (r.run s).2.1.preauthHash t := by
  have hkey := hr.key_eq hb.ofUser
  obtain ⟨lastAccess, expiresAt, hstored, hexp⟩ := hb.stored
  unfold KeyUnchanged
  rw [← hkey]
  constructor
  · rintro ⟨⟨response, hok, -⟩, hlook⟩
    obtain ⟨request, hread, hbind⟩ := hb.request
    rw [run_binding hread hbind] at hok
    obtain ⟨stored, hfound, hacpt⟩ := handleSessionBinding_run_ok hok
    rw [hb.names, hstored] at hfound
    cases hfound
    rw [(lookup_of_binding hb hstored rfl hacpt).2] at hlook
    split at hlook
    · next hempty => rwa [if_pos hempty]
    · next hne =>
      rw [if_neg hne]
      exact (Option.some.inj hlook).symm
  · intro hsame
    have hacpt := hb.accepted (fun hne => by rwa [if_neg hne] at hsame) lastAccess hexp
    obtain ⟨hok, hlook⟩ := lookup_of_binding hb hstored rfl hacpt
    refine ⟨hok, hlook.trans ?_⟩
    split at hsame
    · next hempty => rwa [if_pos hempty]
    · next hne => rw [if_neg hne, hsame]

end Keys

/-! ### Two connections of one user -/

namespace Sample

/-- Deriving a key gives something else, and a signature is the key under which it was made. -/
abbrev keyedExterns : Externs :=
  { Sample.externs with
    hmacSha256 := fun _ _ => List.replicate 32 1
    aesCmac := fun key _ => key }

def negotiated : ConnectionHandler :=
  { handler "a" with connection := (handler "a").connection.negotiate .smb300 }

def tokenRound (w : World NtlmAuthProvider Files) (sid : UInt64) (token : Bytes) :
    SetupRound NtlmAuthProvider Files :=
  let message := Client.sessionSetup sid token
  ⟨w, { command := .sessionSetup, sessionId := sid }, message.drop SMB2_HEADER_SIZE, message⟩

def bindingRound (w : World NtlmAuthProvider Files) (signature : Bytes) :
    SetupRound NtlmAuthProvider Files :=
  let header : Smb2Header :=
    { command := .sessionSetup, sessionId := 1, flags := Smb2Flags.SIGNED, signature }
  let body := Bytes.ofU16 25 ++ [1, 0] ++ Bytes.zeros 20
  ⟨w, header, body, header.write ++ body⟩

def loggedOn : SessionState :=
  newSessionState negotiated.connection 1 (.authenticated "u" none) (Bytes.zeros 16)
    .smb300 0

section

variable [Externs]

def firstRound : SetupRound NtlmAuthProvider Files := tokenRound (world ntlm) 0 logonTokens.1

def lastRound : SetupRound NtlmAuthProvider Files :=
  tokenRound (firstRound.run negotiated).2.2 1 logonTokens.2

def betweenRounds : ConnectionHandler := (firstRound.run negotiated).2.1

/-- The request to bind the session, after the log-on. -/
def binding (signature : Bytes) : SetupRound NtlmAuthProvider Files :=
  bindingRound (lastRound.run betweenRounds).2.2 signature

end

/-- A session whose derived key is the session key: both are zero. -/
theorem takesOnKey_zero :
    ∃ (r b : SetupRound NtlmAuthProvider Files) (s t : ConnectionHandler)
      (session : SessionState) (key : Bytes),
      (r.Establishes s session key ∧ b.BindsHonestly t session key ∧
        SetupRound.KeyUnchanged session (r.run s).2.1.preauthHash t) ∧
      b.TakesOnKey t session key := by
  have hr : lastRound.Establishes betweenRounds loggedOn (Bytes.zeros 16) :=
    ⟨by decide +kernel, by decide +kernel, by decide +kernel⟩
  have hb : (binding (Bytes.zeros 16)).BindsHonestly negotiated loggedOn (Bytes.zeros 16) :=
    { request := ⟨_, rfl, by decide +kernel⟩
      names := rfl
      stored := ⟨0, 3600, by decide +kernel, by decide +kernel⟩
      ofUser := ⟨rfl, rfl⟩
      multiChannel := rfl
      dialect := rfl
      unbound := rfl
      signed := by decide +kernel
      whole := by decide +kernel
      signature := by decide +kernel }
  have hsame : SetupRound.KeyUnchanged loggedOn (lastRound.run betweenRounds).2.1.preauthHash
      negotiated := by
    unfold SetupRound.KeyUnchanged
    decide +kernel
  exact ⟨lastRound, binding (Bytes.zeros 16), betweenRounds, negotiated, loggedOn, Bytes.zeros 16,
    ⟨hr, hb, hsame⟩, (takesOnKey_iff hr hb).2 hsame⟩

section

attribute [local instance] Sample.keyedExterns

/-- **A binding that is signed with the right key is refused**: the installed key is derived from
the session key, but the server checks the signature under the session key. -/
theorem binding_refused :
    ∃ (r b : SetupRound NtlmAuthProvider Files) (s t : ConnectionHandler)
      (session : SessionState) (key : Bytes),
      r.Establishes s session key ∧ b.BindsHonestly t session key ∧
        (b.run t).1.toOption.isNone = true ∧ ¬ b.TakesOnKey t session key := by
  have hr : lastRound.Establishes betweenRounds loggedOn (List.replicate 16 1) :=
    ⟨by decide +kernel, by decide +kernel, by decide +kernel⟩
  have hb : (binding (List.replicate 16 1)).BindsHonestly negotiated loggedOn
      (List.replicate 16 1) :=
    { request := ⟨_, rfl, by decide +kernel⟩
      names := rfl
      stored := ⟨0, 3600, by decide +kernel, by decide +kernel⟩
      ofUser := ⟨rfl, rfl⟩
      multiChannel := rfl
      dialect := rfl
      unbound := rfl
      signed := by decide +kernel
      whole := by decide +kernel
      signature := by decide +kernel }
  have hrefused : ((binding (List.replicate 16 1)).run negotiated).1.toOption.isNone = true := by
    decide +kernel
  refine ⟨lastRound, binding (List.replicate 16 1), betweenRounds, negotiated, loggedOn,
    List.replicate 16 1, hr, hb, hrefused, ?_⟩
  rintro ⟨⟨response, hok, -⟩, -⟩
  rw [hok] at hrefused
  cases hrefused

end

end Sample

end RustSmb
