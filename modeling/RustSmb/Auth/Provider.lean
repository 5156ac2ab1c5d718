import RustSmb.State.Types

/-!
# Authentication providers

A provider consumes the tokens of a SESSION_SETUP exchange.  It keeps a state of its own and writes
to the connection's `AuthContext`, which lives across the rounds.

## Main definitions

* `AuthContext`, `AuthResult`, `AuthError`, `UserInfo` — the trait's types.
* `AuthProvider` — the trait.
* `AnonymousAuthProvider` — the provider that knows only null and guest sessions.

Source: `rustsmb-auth/src/provider.rs`.
-/

namespace RustSmb

/-- The errors of a provider.  Their texts only reach the log. -/
inductive AuthError where
  | invalidCredentials
  | malformedToken
  | accountDisabled
  | accountLockedOut
  | passwordExpired
  | unsupportedMechanism
  | failed
  | kerberos
  | ntlm
  | spnego
  deriving DecidableEq, Repr

/-- How far a login has come. -/
inductive AuthState where
  | initial
  | challengeIssued
  | complete
  | guest
  | anonymous
  | failed
  deriving DecidableEq, Repr

/-- What a connection remembers of its current exchange. -/
structure AuthContext where
  sessionId : Option UInt64 := none
  state : AuthState := .initial
  challenge : Option Bytes := none
  deriving DecidableEq

/-- Who has logged on. -/
structure UserInfo where
  username : String
  domain : Option String
  isAdmin : Bool
  isGuest : Bool
  isAnonymous : Bool
  deriving DecidableEq

namespace UserInfo

def guest : UserInfo where
  username := "Guest"
  domain := none
  isAdmin := false
  isGuest := true
  isAnonymous := false

def anonymous : UserInfo where
  username := "ANONYMOUS LOGON"
  domain := none
  isAdmin := false
  isGuest := false
  isAnonymous := true

def authenticated (username : String) (domain : Option String) : UserInfo where
  username := username
  domain := domain
  isAdmin := false
  isGuest := false
  isAnonymous := false

end UserInfo

/-- The outcome of a round. -/
inductive AuthResult where
  | success (user : UserInfo) (sessionKey : Bytes) (responseToken : Option Bytes)
  | continue (responseToken : Bytes)
  | failure (reason : AuthError)
  deriving DecidableEq

/-- What a provider reads from its surroundings: eight random bytes and the time. -/
structure AuthEnv where
  challenge : Bytes
  filetime : UInt64

/-- A provider with state `α` maps the context and a token to the new context and the result. -/
class AuthProvider (α : Type) where
  /-- Process one token. -/
  authenticate : AuthEnv → AuthContext → Bytes → α →
    (AuthContext × Except AuthError AuthResult) × α

/-- A provider leaves the identifier of an exchange that has one alone. -/
class LawfulAuthProvider (α : Type) [AuthProvider α] : Prop where
  /-- The identifier is kept. -/
  keeps_sessionId : ∀ (env : AuthEnv) (ctx : AuthContext) (token : Bytes) (p : α) (id : UInt64),
    ctx.sessionId = some id → (AuthProvider.authenticate env ctx token p).1.1.sessionId = some id

/-! ### Null and guest sessions -/

/-- The provider that knows only null and guest sessions. -/
structure AnonymousAuthProvider where
  allowAnonymous : Bool
  allowGuest : Bool
  deriving DecidableEq

namespace AnonymousAuthProvider

def anonymousOnly : AnonymousAuthProvider := ⟨true, false⟩

/-- Process one token: every exchange ends in its first round. -/
def authenticate (p : AnonymousAuthProvider) (ctx : AuthContext) (token : Bytes) :
    AuthContext × Except AuthError AuthResult :=
  if token.isEmpty && p.allowAnonymous then
    ({ ctx with state := .anonymous }, .ok (.success .anonymous (Bytes.zeros 16) none))
  else if p.allowGuest then
    ({ ctx with state := .guest }, .ok (.success .guest (Bytes.zeros 16) none))
  else (ctx, .error .failed)

instance : AuthProvider AnonymousAuthProvider where
  authenticate _ ctx token p := (p.authenticate ctx token, p)

instance : LawfulAuthProvider AnonymousAuthProvider where
  keeps_sessionId := by
    intro _ ctx token p id hid
    unfold AuthProvider.authenticate instAuthProvider AnonymousAuthProvider.authenticate
    dsimp only
    split
    · exact hid
    split
    · exact hid
    · exact hid

end AnonymousAuthProvider

end RustSmb
