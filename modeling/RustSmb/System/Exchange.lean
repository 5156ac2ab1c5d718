import RustSmb.Server.Footprint
import RustSmb.System.Trace

/-!
# Authentication exchanges

An exchange of SESSION_SETUP takes several rounds, with other messages in between.  How
far a connection is with its exchange can be read off its history: which identifier the
context has, whether an exchange that began with identifier 0 is still open, and in
which stage the current round is.

## Main results

* `exchange_conduct` — **every connection conducts its exchanges in this way.**
-/

namespace RustSmb

/-- Where a login stands. -/
inductive Stage where
  /-- No round, or one that has failed. -/
  | outside
  /-- A round with the identifier `sid` in its header; a session to be reauthenticated may have
  been found. -/
  | asked (sid : UInt64) (found : Bool)
  /-- The provider wants another round. -/
  | interim
  /-- The provider has authenticated a user.  The exchange is fresh if it began with identifier 0
  and this is its first success; `sid` is its identifier once that is known, and `met` tells
  whether a stored session was met under it. -/
  | ending (fresh : Bool) (sid : Option UInt64) (met : Bool)
  /-- The session of the exchange has been created. -/
  | created (fresh : Bool) (sid : UInt64)
  deriving DecidableEq

/-- The login, as its calls tell it. -/
structure Exchange where
  stage : Stage
  /-- The identifier in the context. -/
  id : Option UInt64
  /-- An exchange began with identifier 0, has an identifier and has not ended. -/
  isOpen : Bool
  deriving DecidableEq

open Exchange

/-- Does a command run a round of an exchange?  A session binding does not. -/
def runsRound (cmd : Command) : Bool :=
  cmd.header.command == .sessionSetup &&
    (SessionSetupRequest.read cmd.body).any fun request => !request.isBinding

namespace Exchange

variable (x : Exchange)

/-- After the authenticator's answer. -/
def answer (sid : UInt64) (found : Bool) (ctx : AuthContext) :
    Except AuthError AuthResult → Exchange
  | .ok (.success _ _ _) =>
      ⟨.ending (sid == 0 || x.isOpen) ctx.sessionId found, ctx.sessionId, false⟩
  | .ok (.continue _) => ⟨.interim, if found then some sid else ctx.sessionId, sid == 0 || x.isOpen⟩
  | _ => ⟨.outside, ctx.sessionId, sid != 0 && x.isOpen⟩

/-- After a new identifier. -/
def draw : Except StateError UInt64 → Exchange
  | .ok id =>
      match x.stage with
      | .interim => { x with id := some id }
      | .ending fresh _ met => { x with stage := .ending fresh (some id) met }
      | _ => x
  | .error _ => { x with stage := .outside, isOpen := false }

/-- After a lookup of the session. -/
def look : Except StateError (Option SessionState) → Exchange
  | .ok (some _) =>
      match x.stage with
      | .asked sid _ => { x with stage := .asked sid true }
      | .ending fresh sid _ => { x with stage := .ending fresh sid true }
      | _ => x
  | _ => x

/-- After the session is stored. -/
def create (session : SessionState) : Except StateError Unit → Exchange
  | .ok _ =>
      match x.stage with
      | .ending fresh _ _ => { x with stage := .created fresh session.sessionId }
      | _ => x
  | .error _ => { x with stage := .outside }

/-- One call. -/
def call : (o : SmbOp) → o.Res → Exchange
  | .authenticate _ _ _, r =>
      match x.stage with
      | .asked sid found => x.answer sid found r.1 r.2
      | _ => x
  | .store .nextSessionId, r => x.draw r
  | .store (.getSession _), r => x.look r
  | .store (.createSession session), r => x.create session r
  | _, _ => x

/-- One call or mark. -/
def next : Event SmbT → Exchange
  | ⟨.inl o, r⟩ => x.call o r
  | ⟨.inr (.dispatched cmd), _⟩ =>
      { x with stage := if runsRound cmd then .asked cmd.header.sessionId false else .outside }
  | ⟨.inr .executing, _⟩ => x
  | ⟨.inr .disconnected, _⟩ => { x with stage := .outside }

/-- Which calls come in which stage. -/
def Allows : SmbOp → Prop
  | .authenticate _ ctx _ =>
      ∃ sid found, x.stage = .asked sid found ∧ ctx.sessionId = if sid = 0 then none else x.id
  | .store .nextSessionId =>
      (x.stage = .interim ∧ x.id = none) ∨ ∃ fresh met, x.stage = .ending fresh none met
  | .store (.getSession sid) =>
      (∀ sid' found, x.stage = .asked sid' found → sid' = sid ∧ sid ≠ 0 ∧ x.id = none) ∧
        ∀ fresh sid' met, x.stage = .ending fresh sid' met → sid' = some sid
  | .store (.createSession session) =>
      ∃ fresh, x.stage = .ending fresh (some session.sessionId) false
  | _ => True

/-- The round is over: an authenticated user has a session, and an interim answer an identifier. -/
structure Settled (x : Exchange) : Prop where
  ended : ∀ fresh sid, x.stage ≠ .ending fresh sid false
  named : x.stage = .interim → x.isOpen = true → x.id.isSome = true

end Exchange

/-- The login after a history. -/
def exchange (h : List (Event SmbT)) : Exchange :=
  h.foldr (fun ev x => x.next ev) ⟨.outside, none, false⟩

@[simp]
theorem exchange_cons (ev : Event SmbT) (h : List (Event SmbT)) :
    exchange (ev :: h) = (exchange h).next ev := rfl

/-- The login after some calls more. -/
def Exchange.after (x : Exchange) (e : List (Event Smb)) : Exchange :=
  e.foldr (fun ev x => x.call ev.1 ev.2) x

@[simp]
theorem Exchange.after_nil (x : Exchange) : x.after [] = x := rfl

@[simp]
theorem Exchange.after_cons (x : Exchange) (ev : Event Smb) (e : List (Event Smb)) :
    x.after (ev :: e) = (x.after e).call ev.1 ev.2 := rfl

theorem exchange_lift (h : List (Event SmbT)) (e : List (Event Smb)) :
    exchange (e.map Prog.liftEvent ++ h) = (exchange h).after e := by
  induction e with
  | nil => rfl
  | cons ev e ih =>
    rw [List.map_cons, List.cons_append, exchange_cons, ih]
    rfl

/-! ### Calls that say nothing about the exchange -/

/-- Calls that no stage is concerned with. -/
def isQuiet : SmbOp → Prop
  | .authenticate _ _ _ | .store .nextSessionId | .store (.getSession _)
  | .store (.createSession _) => False
  | _ => True

namespace Exchange

variable {x : Exchange} {o : SmbOp}

theorem allows_of_isQuiet (ho : isQuiet o) : x.Allows o := by
  cases o with
  | store o => cases o <;> first | exact ho.elim | trivial
  | authenticate _ _ _ => exact ho.elim
  | _ => trivial

theorem call_of_isQuiet (ho : isQuiet o) (r : o.Res) : x.call o r = x := by
  cases o with
  | store o => cases o <;> first | exact ho.elim | rfl
  | authenticate _ _ _ => exact ho.elim
  | _ => rfl

/-- The calls of commands other than SESSION_SETUP. -/
def isOther (o : SmbOp) : Prop :=
  o.effect ≠ .authenticate ∧ o.effect ≠ .sessionCounter ∧ o.effect ≠ .createSession

theorem allows_of_outside (hx : x.stage = .outside) (ho : isOther o) : x.Allows o := by
  cases o with
  | authenticate _ _ _ => exact absurd rfl ho.1
  | store o =>
    cases o with
    | nextSessionId => exact absurd rfl ho.2.1
    | createSession _ => exact absurd rfl ho.2.2
    | getSession _ =>
      refine ⟨fun sid' found h => ?_, fun fresh sid' met h => ?_⟩ <;> rw [hx] at h <;> cases h
    | _ => trivial
  | _ => trivial

theorem call_of_outside (hx : x.stage = .outside) (ho : isOther o) (r : o.Res) :
    x.call o r = x := by
  cases o with
  | authenticate _ _ _ => exact absurd rfl ho.1
  | store o =>
    cases o with
    | nextSessionId => exact absurd rfl ho.2.1
    | createSession _ => exact absurd rfl ho.2.2
    | getSession _ =>
      show x.look r = x
      unfold look
      split
      · rw [hx]
      · rfl
    | _ => rfl
  | _ => rfl

end Exchange

/-- The context is what the calls tell, and the round has been brought to an end. -/
def Exchange.Agrees (x : Exchange) (s : ConnectionHandler) : Prop :=
  s.authContext.sessionId = x.id ∧ x.Settled

theorem Exchange.settled_of_outside {x : Exchange} (hx : x.stage = .outside) : x.Settled := by
  refine ⟨fun _ _ h => ?_, fun h => ?_⟩ <;> rw [hx] at h <;> cases h

/-! ### The handler of a round -/

section Round

open Proc Handler

/-- A method makes quiet calls only and leaves the context `c` alone. -/
abbrev Quiet (c : AuthContext) {ε α : Type} (x : Proc Smb ConnectionHandler ε α) : Prop :=
  Keeps (fun s _ => s.authContext = c) (fun _ o => isQuiet o) x

variable {c : AuthContext}

theorem deleteLeaseOf_quiet (handle : HandleState) :
    Quiet c (SessionManager.deleteLeaseOf handle) := by
  unfold SessionManager.deleteLeaseOf
  split
  · exact keeps_bind (keeps_call fun _ => trivial) fun _ => keeps_pure
  · exact keeps_pure

theorem releaseHandle_quiet (handle : HandleState) :
    Quiet c (SessionManager.releaseHandle handle) := by
  unfold SessionManager.releaseHandle
  split
  · refine keeps_bind (keeps_call fun _ => trivial) fun _ => ?_
    exact keeps_bind (keeps_call fun _ => trivial) fun _ => keeps_pure
  · refine keeps_bind (deleteLeaseOf_quiet handle) fun _ => ?_
    exact keeps_bind (keeps_call fun _ => trivial) fun _ => keeps_ofExcept

theorem deleteSession_quiet (sid : UInt64) : Quiet c (SessionManager.deleteSession sid) := by
  have hstore : ∀ o, isQuiet (.store o) → Quiet c (SessionManager.store o) := fun o ho =>
    keeps_bind (keeps_call fun _ => ho) fun _ => keeps_ofExcept
  refine keeps_bind (hstore _ trivial) fun handles => ?_
  refine keeps_bind (keeps_forEach fun handle _ => releaseHandle_quiet handle) fun _ => ?_
  refine keeps_bind (hstore _ trivial) fun trees => ?_
  exact keeps_bind (keeps_forEach fun tree _ => hstore _ trivial) fun _ => hstore _ trivial

theorem closeSession_quiet (sid : UInt64) : Quiet c (closeSession sid) := by
  refine (closeSession_farewell sid).weaken fun _ o ho => ?_
  cases o with
  | store o => cases o <;> first | exact ho.elim | trivial
  | authenticate _ _ _ => exact ho.elim
  | _ => trivial

theorem Quiet.wp {x₀ x : Exchange} {α : Type} {m : Handler α} (hm : Quiet c m)
    {s : ConnectionHandler} {e : List (Event Smb)} (hs : s.authContext = c)
    (hx : x₀.after e = x) :
    wp (fun e o => (x₀.after e).Allows o) m
      (fun _ s e => s.authContext = c ∧ x₀.after e = x) s e := by
  refine wp_weaken (wp_carry (fun e => x₀.after e = x) ?_ (hm s e hs) hx) ?_
  · intro e o r ho he
    rw [after_cons, he]
    exact call_of_isQuiet ho r
  · exact fun e o ho => allows_of_isQuiet ho.1

variable [Externs]

theorem updatePreauthHash_quiet (b : Bool) (message : Bytes) :
    Quiet c (when b (updatePreauthHash message)) :=
  keeps_when fun _ => keeps_modify fun _ _ => id

theorem sessionSetupResponse_quiet (header : Smb2Header) (sid : UInt64) (user : UserInfo)
    (retained : Option Bytes) (key : Bytes) (token : Option Bytes) (dialect : SmbDialect) :
    Quiet c (sessionSetupResponse header sid user retained key token dialect) := by
  refine keeps_bind (keeps_buildResponseHeader fun _ _ _ => id) fun _ => ?_
  refine keeps_bind (updatePreauthHash_quiet _ _) fun _ => keeps_bind keeps_get fun _ => ?_
  exact keeps_bind (keeps_when fun _ => keeps_modify fun _ _ => id) fun _ => keeps_pure

section Parts

variable {x₀ : Exchange} {s : ConnectionHandler} {e : List (Event Smb)} {fresh isOpen : Bool}

omit [Externs] in
/-- The identifier of an exchange is that of the context or a new one, wherever the exchange `f`
has it. -/
theorem exchangeSessionId_wp {f : Option UInt64 → Exchange}
    (hallows : (f none).Allows (.store .nextSessionId))
    (hdraw : ∀ sid, (f none).draw (.ok sid) = f (some sid))
    (hid : c.sessionId = none → (f none).id = none) (hs : s.authContext = c)
    (hx : x₀.after e = f c.sessionId) :
    wp (fun e o => (x₀.after e).Allows o) exchangeSessionId
      (onOk (fun _ s e => (x₀.after e).Agrees s) fun sid s e => s.authContext = c ∧
        x₀.after e = f (some sid)) s e := by
  unfold exchangeSessionId
  rw [wp_bind, wp_get, onOk_ok, hs]
  cases hnone : c.sessionId with
  | some sid => exact wp_pure.2 ⟨hs, by rw [hx, hnone]⟩
  | none =>
    rw [hnone] at hx
    refine wp_storeOrInternal.2 ⟨?_, fun sid => ⟨hs, ?_⟩, fun err => ?_⟩
    · rw [hx]
      exact hallows
    · rw [after_cons, hx]
      exact hdraw sid
    · refine ⟨?_, settled_of_outside ?_⟩ <;> rw [after_cons, hx]
      · rw [hs, hnone]
        exact (hid hnone).symm
      · rfl

variable {sid : UInt64} {existing : Option SessionState} {header : Smb2Header}
  {fullMessage token : Bytes}

omit [Externs] in
theorem existingForReauth_wp {id : Option UInt64} (hs : s.authContext = c)
    (hx : x₀.after e = ⟨.ending fresh (some sid) existing.isSome, id, false⟩) :
    wp (fun e o => (x₀.after e).Allows o) (existingForReauth existing sid)
      (onOk (fun _ s e => (x₀.after e).Agrees s) fun existing s e => s.authContext = c ∧
        x₀.after e = ⟨.ending fresh (some sid) existing.isSome, id, false⟩) s e := by
  cases existing with
  | some session => exact wp_pure.2 ⟨hs, hx⟩
  | none =>
    unfold existingForReauth
    rw [wp_bind]
    refine wp_store.2 ⟨?_, fun r => ?_⟩
    · rw [hx]
      exact ⟨nofun, fun _ _ _ h => by cases h; rfl⟩
    · have hnext : x₀.after (⟨SmbOp.store (.getSession sid), r⟩ :: e) =
          (⟨.ending fresh (some sid) false, id, false⟩ : Exchange).look r := by
        rw [after_cons, hx]
        rfl
      rcases r with err | session | session <;> exact wp_pure.2 ⟨hs, hnext⟩

omit [Externs] in
theorem createSession_wp {user : UserInfo} {key : Bytes} {dialect : SmbDialect} {now : UInt64}
    {id : Option UInt64} (hs : s.authContext = c) (hid : c.sessionId = id)
    (hx : x₀.after e = ⟨.ending fresh (some sid) existing.isSome, id, false⟩) :
    wp (fun e o => (x₀.after e).Allows o)
      (when existing.isNone (createSession sid user key dialect now))
      (onOk (fun _ s e => (x₀.after e).Agrees s) fun _ s e => s.authContext = c ∧
        (x₀.after e).Agrees s) s e := by
  cases existing with
  | some session =>
    rw [Option.isNone_some, wp_when]
    refine ⟨nofun, fun _ => ⟨hs, ?_⟩⟩
    rw [hx]
    exact ⟨hs ▸ hid, nofun, nofun⟩
  | none =>
    unfold createSession
    rw [Option.isNone_none, wp_when]
    refine ⟨fun _ => ?_, nofun⟩
    rw [wp_bind, wp_get, onOk_ok, wp_bind]
    refine wp_storeOrInternal.2 ⟨?_, fun _ => ?_, fun _ => ?_⟩
    · rw [hx]
      exact ⟨fresh, rfl⟩
    · refine wp_modifyConnection.2 ⟨hs, ?_⟩
      rw [after_cons, hx]
      exact ⟨hs ▸ hid, nofun, nofun⟩
    · rw [onOk_error, onOk_error, after_cons, hx]
      exact ⟨hs ▸ hid, nofun, nofun⟩

theorem sessionSetupSuccess_wp {request : SessionSetupRequest} {user : UserInfo} {key : Bytes}
    {token : Option Bytes} (hs : s.authContext = c)
    (hx : x₀.after e = ⟨.ending fresh c.sessionId existing.isSome, c.sessionId, false⟩) :
    wp (fun e o => (x₀.after e).Allows o)
      (sessionSetupSuccess header request fullMessage existing user key token)
      (fun _ s e => (x₀.after e).Agrees s) s e := by
  unfold sessionSetupSuccess
  refine wp_seq (exchangeSessionId_wp (f := fun id =>
    ⟨.ending fresh id existing.isSome, c.sessionId, false⟩) (.inr ⟨fresh, _, rfl⟩) (fun _ => rfl)
    (fun h => h) hs hx) ?_
  rintro sid s e ⟨hs, hx⟩
  refine wp_seq (existingForReauth_wp hs hx) ?_
  rintro existing s e ⟨hs, hx⟩
  rw [wp_bind, wp_get, onOk_ok]
  refine wp_seq (P := fun _ s e' => s.authContext = c ∧ e' = e)
    (wp_when.2 ⟨fun _ => wp_modify.2 ⟨hs, rfl⟩, fun _ => ⟨hs, rfl⟩⟩) ?_
  rintro _ s _ ⟨hs, rfl⟩
  rw [wp_bind]
  refine (wp_perform).2 ⟨trivial, fun now => ?_⟩
  refine wp_seq (createSession_wp hs rfl hx) ?_
  rintro _ s e ⟨hs, hagr⟩
  -- nothing that follows concerns the exchange
  refine wp_mono (Quiet.wp (keeps_bind (keeps_when fun _ => keeps_bind (keeps_attempt
    (deleteSession_quiet _)) fun _ => keeps_pure) fun _ =>
    sessionSetupResponse_quiet _ _ _ _ _ _ _) hs rfl) ?_
  rintro _ s' e' ⟨hs', hx'⟩
  rw [hx']
  exact ⟨by rw [hs', ← hs, hagr.1], hagr.2⟩

omit [Externs] in
/-- An interim round leaves the identifier that it answers with in the context. -/
theorem interimSessionId_wp (hs : s.authContext = c)
    (hx : x₀.after e = ⟨.interim, if existing.isSome then some header.sessionId else c.sessionId,
      isOpen⟩) :
    wp (fun e o => (x₀.after e).Allows o) (interimSessionId header existing)
      (onOk (fun _ s e => (x₀.after e).Agrees s) fun _ s e => (x₀.after e).Agrees s) s e := by
  unfold interimSessionId
  cases existing with
  | some session =>
    simp only [Option.isSome_some, if_true] at hx ⊢
    rw [wp_bind]
    refine wp_modify.2 (wp_pure.2 ?_)
    rw [onOk_ok, hx]
    exact ⟨rfl, nofun, fun _ _ => rfl⟩
  | none =>
    refine wp_seq (exchangeSessionId_wp (f := fun id => ⟨.interim, id, isOpen⟩) (.inl ⟨rfl, rfl⟩)
      (fun _ => rfl) (fun _ => rfl) hs hx) ?_
    rintro id s e ⟨hs, hx⟩
    rw [wp_bind]
    refine wp_modify.2 (wp_pure.2 ?_)
    rw [onOk_ok, hx]
    exact ⟨rfl, nofun, fun _ _ => rfl⟩

theorem sessionSetupContinue_wp (hs : s.authContext = c)
    (hx : x₀.after e = ⟨.interim, if existing.isSome then some header.sessionId else c.sessionId,
      isOpen⟩) :
    wp (fun e o => (x₀.after e).Allows o)
      (sessionSetupContinue header fullMessage existing token)
      (fun _ s e => (x₀.after e).Agrees s) s e := by
  unfold sessionSetupContinue
  rw [wp_bind, wp_get, onOk_ok]
  refine wp_seq (interimSessionId_wp hs hx) ?_
  intro sid s e hagr
  refine wp_mono (Quiet.wp (keeps_bind (updatePreauthHash_quiet _ _) fun _ =>
    keeps_bind (keeps_buildResponseHeader fun _ _ _ => id) fun _ =>
      keeps_bind (updatePreauthHash_quiet _ _) fun _ => keeps_pure) rfl rfl) ?_
  rintro _ s' e' ⟨hs', hx'⟩
  rw [hx']
  exact ⟨by rw [hs', hagr.1], hagr.2⟩

omit [Externs] in
/-- A session is looked up for reauthentication only if no exchange is open. -/
theorem lookupReauthSession_wp {id : Option UInt64} (hs : s.authContext.sessionId = id)
    (hx : x₀.after e = ⟨.asked header.sessionId false, id, isOpen⟩) :
    wp (fun e o => (x₀.after e).Allows o) (lookupReauthSession header)
      (onOk (fun _ s e => (x₀.after e).Agrees s) fun existing s' e => s' = s ∧
        x₀.after e = ⟨.asked header.sessionId existing.isSome, id, isOpen⟩) s e := by
  unfold lookupReauthSession
  rw [wp_bind, wp_get, onOk_ok]
  split
  · next hreauth =>
    rw [wp_bind]
    refine wp_store.2 ⟨?_, fun r => ?_⟩
    · rw [hx]
      refine ⟨fun sid found h => ?_, nofun⟩
      cases h
      exact ⟨rfl, hreauth.1, hs ▸ Option.isNone_iff_eq_none.1 hreauth.2.2⟩
    · have hnext : x₀.after (⟨SmbOp.store (.getSession header.sessionId), r⟩ :: e) =
          (⟨.asked header.sessionId false, id, isOpen⟩ : Exchange).look r := by
        rw [after_cons, hx]
        rfl
      rcases r with err | session | session <;> exact wp_pure.2 ⟨rfl, hnext⟩
  · exact wp_pure.2 ⟨rfl, hx⟩

omit [Externs] in
theorem askProvider_wp {found : Bool} {id : Option UInt64}
    (hs : s.authContext.sessionId = if sid = 0 then none else id)
    (hx : x₀.after e = ⟨.asked sid found, id, isOpen⟩) :
    wp (fun e o => (x₀.after e).Allows o) (askProvider token)
      (onOk (fun _ s e => (x₀.after e).Agrees s) fun result s e => x₀.after e =
        (⟨.asked sid found, id, isOpen⟩ : Exchange).answer sid found s.authContext (.ok result))
      s e := by
  unfold askProvider authenticate
  rw [wp_bind, wp_get, onOk_ok, wp_bind, wp_bind, wp_get, onOk_ok]
  refine (wp_perform).2 ⟨?_, ?_⟩
  · rw [hx]
    exact ⟨sid, found, rfl, hs⟩
  rintro ⟨ctx, result⟩
  have hnext : x₀.after (⟨SmbOp.authenticate s.serverId s.authContext token, (ctx, result)⟩ :: e) =
      (⟨.asked sid found, id, isOpen⟩ : Exchange).answer sid found ctx result := by
    rw [after_cons, hx]
    rfl
  rw [onOk_ok]
  rw [wp_bind]
  refine wp_modify.2 ?_
  rw [onOk_ok]
  rcases result with err | result
  · have hagr : ((⟨.asked sid found, id, isOpen⟩ : Exchange).answer sid found ctx
        (.error err)).Agrees { s with authContext := ctx } :=
      ⟨rfl, settled_of_outside rfl⟩
    rw [← hnext] at hagr
    cases err <;> first | exact wp_fail.2 hagr | exact wp_throw.2 hagr
  · exact wp_pure.2 hnext

omit [Externs] in
theorem authenticateToken_wp {found : Bool} {id : Option UInt64} (hs : s.authContext.sessionId = id)
    (hx : x₀.after e = ⟨.asked header.sessionId found, id, isOpen⟩) :
    wp (fun e o => (x₀.after e).Allows o) (authenticateToken header token)
      (onOk (fun _ s e => (x₀.after e).Agrees s) fun result s e => x₀.after e =
        (⟨.asked header.sessionId found, id, isOpen⟩ : Exchange).answer header.sessionId found
          s.authContext (.ok result)) s e := by
  unfold authenticateToken
  rw [wp_bind, wp_when]
  refine ⟨fun h0 => wp_modify.2 (askProvider_wp ?_ hx), fun h0 => askProvider_wp ?_ hx⟩
  · rw [if_pos (beq_iff_eq.1 h0)]
  · rw [if_neg (beq_eq_false_iff_ne.1 h0), hs]

/-- **A round of an exchange.** -/
theorem handleSessionSetupRound_wp {request : SessionSetupRequest} {body : Bytes}
    {id : Option UInt64} (hs : s.authContext.sessionId = id)
    (hx : x₀.after e = ⟨.asked header.sessionId false, id, isOpen⟩) :
    wp (fun e o => (x₀.after e).Allows o)
      (handleSessionSetupRound header request body fullMessage)
      (fun _ s e => (x₀.after e).Agrees s) s e := by
  unfold handleSessionSetupRound
  refine wp_seq (lookupReauthSession_wp hs hx) ?_
  rintro existing s e ⟨rfl, hx⟩
  refine wp_seq (authenticateToken_wp hs hx) ?_
  intro result s e hx
  cases result with
  | success user key token => exact sessionSetupSuccess_wp rfl hx
  | «continue» token => exact sessionSetupContinue_wp rfl hx
  | failure err =>
    refine wp_fail.2 ?_
    rw [hx]
    exact ⟨rfl, settled_of_outside rfl⟩

end Parts

end Round

/-! ### Every command -/

/-- What a connection keeps: its context is what its history tells, and every round has been
brought to an end. -/
def KeepsExchange (s : ConnectionHandler) (h : List (Event SmbT)) : Prop := (exchange h).Agrees s

/-- The calls of a connection come in their stages, and a round is brought to an end before the
next command. -/
def InStage (h : List (Event SmbT)) : SmbOp ⊕ Mark → Prop
  | .inl o => (exchange h).Allows o
  | .inr .executing => True
  | .inr _ => (exchange h).Settled

section Commands

open Proc Handler

theorem command_of_runsRound (h : runsRound cmd = true) : cmd.header.command = .sessionSetup :=
  beq_iff_eq.1 (Bool.and_eq_true_iff.1 h).1

theorem keeps_lift_of_quiet {α : Type} {m : Handler α} (hm : ∀ c, Quiet c m) :
    Keeps KeepsExchange InStage (lift m : Traced α) := by
  intro s h hR
  refine wp_lift.2 (wp_mono (wp_weaken
    (Quiet.wp (hm s.authContext) rfl (after_nil (exchange h))) ?_) ?_)
  · intro e o ho
    rw [← exchange_lift] at ho
    exact ho
  · rintro _ s' e ⟨hs', hx⟩
    rw [← exchange_lift] at hx
    unfold KeepsExchange
    rw [hx]
    exact ⟨by rw [hs', hR.1], hR.2⟩

variable [Externs] {cmd : Command} {x₀ : Exchange}

variable {s : ConnectionHandler}

theorem handleCommand_round (hround : runsRound cmd = true) {id : Option UInt64} {isOpen : Bool}
    (hs : s.authContext.sessionId = id)
    (hx : x₀ = ⟨.asked cmd.header.sessionId false, id, isOpen⟩) :
    wp (fun e o => (x₀.after e).Allows o)
      (handleCommand cmd.header cmd.body cmd.fullMessage)
      (fun _ s e => (x₀.after e).Agrees s) s [] := by
  obtain ⟨request, hread, hbind⟩ := (Option.any_eq_true _ _).1 (Bool.and_eq_true_iff.1 hround).2
  have hsetup : handleSessionSetup cmd.header cmd.body cmd.fullMessage =
      handleSessionSetupRound cmd.header request cmd.body cmd.fullMessage := by
    unfold handleSessionSetup
    rw [hread, show parsed (some request) = pure request from rfl, pure_bind,
      if_neg (by simpa using hbind)]
  unfold handleCommand
  rw [command_of_runsRound hround]
  rw [hsetup]
  refine wp_seq (wp_mono (handleSessionSetupRound_wp hs hx) ?_) fun _ _ _ h => wp_pure.2 h
  rintro (_ | _) s e h
  · exact h
  · exact h

omit [Externs] in
theorem within_outside {α : Type} {m : Handler α} (es : List Effect)
    (hm : Within s.authContext es m) (ha : .authenticate ∉ es) (hn : .sessionCounter ∉ es)
    (hc : .createSession ∉ es) (hx : x₀.stage = .outside) :
    wp (fun e o => (x₀.after e).Allows o) m
      (fun _ s' e => s'.authContext = s.authContext ∧ x₀.after e = x₀) s [] := by
  have hoth : ∀ o : SmbOp, o.effect = .none ∨ o.effect ∈ es → isOther o := by
    intro o ho
    refine ⟨fun h => ?_, fun h => ?_, fun h => ?_⟩ <;> rw [h] at ho <;> simp_all
  have hwp := wp_carry (fun e => x₀.after e = x₀) (fun e o r ho he => ?_) (hm s [] (.inr rfl)) rfl
  · refine wp_mono (wp_weaken hwp fun e o ho => ?_) fun r s e h => ?_
    · rw [ho.2]
      exact allows_of_outside hx (hoth o ho.1)
    · exact ⟨h.1.resolve_left ha, h.2⟩
  · rw [after_cons, he]
    exact call_of_outside hx (hoth o ho) r

theorem handleCommand_other (hround : runsRound cmd = false) (hx : x₀.stage = .outside) :
    wp (fun e o => (x₀.after e).Allows o)
      (handleCommand cmd.header cmd.body cmd.fullMessage)
      (fun _ s' e => s'.authContext = s.authContext ∧ x₀.after e = x₀) s [] := by
  by_cases hcmd : cmd.header.command = .sessionSetup
  · -- a SESSION_SETUP that cannot be read, or a binding
    have hsetup : Within s.authContext [.session]
        (handleSessionSetup cmd.header cmd.body cmd.fullMessage) := by
      unfold handleSessionSetup
      cases hread : SessionSetupRequest.read cmd.body with
      | none => exact keeps_throw
      | some request =>
        have hbind : request.isBinding = true := by simpa [runsRound, hcmd, hread] using hround
        rw [show parsed (some request) = pure request from rfl, pure_bind, if_pos hbind]
        exact walked
    unfold handleCommand
    rw [hcmd]
    exact within_outside [.session] (keeps_map hsetup) (by decide) (by decide) (by decide) hx
  · refine within_outside _ (handleCommand_within _ _ _) ?_ ?_ ?_ hx <;>
      (revert hcmd; cases cmd.header.command <;> simp [footprint])

omit [Externs] in
theorem gate_other {header : Smb2Header}
    (hx : x₀.stage = .outside ∨ header.command = .sessionSetup) :
    wp (fun e o => (x₀.after e).Allows o) (gate header)
      (fun _ s' e => s'.authContext = s.authContext ∧ x₀.after e = x₀) s [] := by
  rcases hx with hx | hcmd
  · exact within_outside [] walked (by simp) (by simp) (by simp) hx
  · -- a SESSION_SETUP is not checked
    have hgate : gate header = pure () := by
      unfold gate sessionGate treeGate
      rw [hcmd]
      rfl
    rw [hgate]
    exact wp_pure.2 ⟨rfl, rfl⟩

theorem handleCommand_conduct (cmd : Command) (x₀ : Exchange) (hs : s.authContext.sessionId = x₀.id)
    (hx : x₀.stage = if runsRound cmd then .asked cmd.header.sessionId false else .outside) :
    wp (fun e o => (x₀.after e).Allows o)
      (handleCommand cmd.header cmd.body cmd.fullMessage)
      (fun _ s e => (x₀.after e).Agrees s) s [] := by
  cases hround : runsRound cmd with
  | true =>
    rw [hround, if_pos rfl] at hx
    obtain ⟨stage, id, isOpen⟩ := x₀
    obtain rfl : stage = .asked cmd.header.sessionId false := hx
    exact handleCommand_round hround hs rfl
  | false =>
    rw [hround, if_neg Bool.false_ne_true] at hx
    refine wp_mono (handleCommand_other hround hx) ?_
    rintro _ s' e ⟨hs', hx'⟩
    rw [hx']
    exact ⟨by rw [hs', hs], settled_of_outside hx⟩

theorem dispatchCommand_conduct (received : Bytes) (header : Smb2Header)
    (body fullMessage : Bytes) :
    Keeps KeepsExchange InStage (dispatchCommand received header body fullMessage) := by
  intro s h hR
  let cmd : Command := ⟨received, header, body, fullMessage, s⟩
  let x : Exchange := { exchange h with
    stage := if runsRound cmd then .asked header.sessionId false else .outside }
  have hx : exchange (⟨.inr (.dispatched cmd), ()⟩ :: h) = x := rfl
  have hsettled : x.Settled := by
    refine ⟨fun fresh sid hstage => ?_, fun hstage => ?_⟩ <;>
      (simp only [x] at hstage; split at hstage <;> cases hstage)
  have hgate : x.stage = .outside ∨ header.command = .sessionSetup := by
    cases hround : runsRound cmd with
    | true => exact .inr (command_of_runsRound hround)
    | false => exact .inl (by simp [x, hround])
  have hlift : ∀ e o, (x.after e).Allows o →
      InStage (e.map Prog.liftEvent ++ ⟨.inr (.dispatched cmd), ()⟩ :: h) (.inl o) := by
    intro e o ho
    rw [← hx, ← exchange_lift] at ho
    exact ho
  unfold dispatchCommand
  simp only [wp_bind, wp_get, wp_mark, wp_lift, onOk]
  refine ⟨hR.2, wp_mono (wp_weaken (gate_other hgate) hlift) ?_⟩
  rintro r s' g ⟨hs', hg⟩
  have hagr : x.Agrees s' := ⟨by rw [hs']; exact hR.1, hsettled⟩
  have hafter : exchange (g.map Prog.liftEvent ++ ⟨.inr (.dispatched cmd), ()⟩ :: h) = x := by
    rw [exchange_lift, hx, hg]
  cases r with
  | error err =>
    rw [← hafter] at hagr
    exact hagr
  | ok _ =>
    refine ⟨trivial, ?_⟩
    have hexec : exchange (⟨.inr .executing, ()⟩ ::
        (g.map Prog.liftEvent ++ ⟨.inr (.dispatched cmd), ()⟩ :: h)) = x := hafter
    refine wp_mono (wp_weaken (handleCommand_conduct cmd x hagr.1 rfl) ?_) ?_
    · intro e o ho
      rw [← hexec, ← exchange_lift] at ho
      exact ho
    · intro _ s e h
      rw [← hexec, ← exchange_lift] at h
      exact h

/-- **Every connection conducts its exchanges in stages.** -/
theorem exchange_conduct : Conduct KeepsExchange InStage where
  frame := by
    intro s s' h hs hR
    exact ⟨by rw [hs, hR.1], hR.2⟩
  dispatch := dispatchCommand_conduct
  close := by
    refine keeps_bind ?_ fun _ => keeps_bind keeps_get fun s => keeps_forEach fun sid _ => ?_
    · exact fun s h hR => wp_mark.2 ⟨hR.2, hR.1, settled_of_outside rfl⟩
    · exact keeps_lift_of_quiet fun c => closeSession_quiet sid

end Commands

end RustSmb
