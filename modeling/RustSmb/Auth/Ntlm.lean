import RustSmb.Auth.Provider
import RustSmb.Externs
import RustSmb.Lib.Table

/-!
# The NTLM provider

NEGOTIATE gets a CHALLENGE back and opens an exchange; AUTHENTICATE ends it.  The identifier of the
exchange is the one in the context, or the next one of the provider's own counter, and becomes that
of the session.

## Main results

* `NtlmAuthProvider.authenticate_sessionId` — which identifier an exchange has.

Source: `rustsmb-auth/src/ntlm/`.
-/

namespace RustSmb

open Bytes

/-! ### Flags and messages -/

namespace NtlmFlags

def NEGOTIATE_56 : UInt32 := 0x80000000
def NEGOTIATE_KEY_EXCH : UInt32 := 0x40000000
def NEGOTIATE_128 : UInt32 := 0x20000000
def NEGOTIATE_VERSION : UInt32 := 0x02000000
def NEGOTIATE_TARGET_INFO : UInt32 := 0x00800000
def NEGOTIATE_EXTENDED_SESSION_SECURITY : UInt32 := 0x00080000
def TARGET_TYPE_SERVER : UInt32 := 0x00020000
def NEGOTIATE_ALWAYS_SIGN : UInt32 := 0x00008000
def NEGOTIATE_NTLM : UInt32 := 0x00000200
def NEGOTIATE_SEAL : UInt32 := 0x00000020
def NEGOTIATE_SIGN : UInt32 := 0x00000010
def REQUEST_TARGET : UInt32 := 0x00000004
def NEGOTIATE_UNICODE : UInt32 := 0x00000001

/-- Some bit of a flag is set. -/
def has (flags flag : UInt32) : Bool := flags &&& flag != 0

/-- The flags that the server offers. -/
def serverDefault : UInt32 :=
  NEGOTIATE_UNICODE ||| NEGOTIATE_NTLM ||| NEGOTIATE_EXTENDED_SESSION_SECURITY |||
    NEGOTIATE_TARGET_INFO ||| TARGET_TYPE_SERVER ||| NEGOTIATE_128 ||| NEGOTIATE_56 |||
    NEGOTIATE_KEY_EXCH ||| REQUEST_TARGET ||| NEGOTIATE_SIGN ||| NEGOTIATE_ALWAYS_SIGN |||
    NEGOTIATE_VERSION

/-- The flags that a challenge always has. -/
def mandatory : UInt32 :=
  NEGOTIATE_UNICODE ||| NEGOTIATE_NTLM ||| NEGOTIATE_EXTENDED_SESSION_SECURITY |||
    NEGOTIATE_TARGET_INFO ||| REQUEST_TARGET ||| TARGET_TYPE_SERVER

/-- The flags that a challenge has if the client offered them. -/
def optional : UInt32 :=
  NEGOTIATE_KEY_EXCH ||| NEGOTIATE_128 ||| NEGOTIATE_56 ||| NEGOTIATE_SIGN |||
    NEGOTIATE_SEAL ||| NEGOTIATE_VERSION ||| NEGOTIATE_ALWAYS_SIGN

end NtlmFlags

/-- The text NTLMSSP, ended by zero. -/
def NTLM_SIGNATURE : Bytes := [0x4E, 0x54, 0x4C, 0x4D, 0x53, 0x53, 0x50, 0]

/-- The text of a message field: UTF-16 or, without the Unicode flag, UTF-8. -/
def parseString (data : Bytes) (flags : UInt32) : Option String :=
  if NtlmFlags.has flags NtlmFlags.NEGOTIATE_UNICODE then
    if data.length % 2 ≠ 0 then none else Utf16.decode (Utf16.units data)
  else String.fromUTF8? ⟨data.toArray⟩

/-- A string in UTF-16 or as it is, as the flags say. -/
def encodeString (s : String) (flags : UInt32) : Bytes :=
  if NtlmFlags.has flags NtlmFlags.NEGOTIATE_UNICODE then Utf16.bytes s else s.toUTF8.data.toList

/-- The bytes that a security buffer at `off` addresses; empty if they do not exist. -/
def securityBuffer (data : Bytes) (off : ℕ) : Bytes :=
  let len := (data.u16 off).toNat
  let start := (data.u32 (off + 4)).toNat
  if len > 0 ∧ start + len ≤ data.length then data.slice start len else []

/-- The text of a security buffer at `off`; empty if its bytes are missing or no text. -/
def securityText (data : Bytes) (flags : UInt32) (off : ℕ) : String :=
  let b := securityBuffer data off
  if b.isEmpty then "" else (parseString b flags).getD ""

/-- NEGOTIATE.  Of its fields the provider uses the flags. -/
structure NegotiateMessage where
  flags : UInt32
  deriving DecidableEq

/-- Read the first message of a client. -/
def NegotiateMessage.parse (data : Bytes) : Except AuthError NegotiateMessage :=
  if data.length < 32 then .error .malformedToken
  else if data.take 8 ≠ NTLM_SIGNATURE then .error .malformedToken
  else if data.u32 8 ≠ 1 then .error .malformedToken
  else .ok { flags := data.u32 12 }

/-- AUTHENTICATE.  Of its fields the provider uses these. -/
structure AuthenticateMessage where
  lmResponse : Bytes
  ntResponse : Bytes
  domainName : String
  userName : String
  workstation : String
  encryptedSessionKey : Bytes
  flags : UInt32
  deriving DecidableEq

namespace AuthenticateMessage

/-- Read the last message of a client. -/
def parse (data : Bytes) : Except AuthError AuthenticateMessage :=
  if data.length < 64 then .error .malformedToken
  else if data.take 8 ≠ NTLM_SIGNATURE then .error .malformedToken
  else if data.u32 8 ≠ 3 then .error .malformedToken
  else
    let flags := data.u32 60
    .ok
      { lmResponse := securityBuffer data 12
        ntResponse := securityBuffer data 20
        domainName := securityText data flags 28
        userName := securityText data flags 36
        workstation := securityText data flags 44
        encryptedSessionKey := securityBuffer data 52
        flags := flags }

/-- Is this an attempt to log on without a name? -/
def isAnonymous (m : AuthenticateMessage) : Bool :=
  m.userName.isEmpty && m.lmResponse.isEmpty && m.ntResponse.isEmpty

end AuthenticateMessage

/-- One pair of the target information. -/
def avPair (id : UInt16) (value : Bytes) : Bytes :=
  ofU16 id ++ ofU16 (UInt16.ofNat value.length) ++ value

/-- The target information: names, time and an end mark. -/
def buildTargetInfo (nbDomain nbComputer dnsDomain dnsComputer : String) (timestamp : UInt64) :
    Bytes :=
  avPair 2 (Utf16.bytes nbDomain) ++ avPair 1 (Utf16.bytes nbComputer) ++
    avPair 4 (Utf16.bytes dnsDomain) ++ avPair 3 (Utf16.bytes dnsComputer) ++
    avPair 7 (ofU64 timestamp) ++ avPair 0 []

/-- The version of an implementation. -/
structure NtlmVersion where
  major : UInt8
  minor : UInt8
  build : UInt16
  ntlmRevision : UInt8
  deriving DecidableEq

namespace NtlmVersion

/-- The version that the server claims to be. -/
def current : NtlmVersion := ⟨10, 0, 19041, 15⟩

/-- Read a version of eight bytes. -/
def parse (data : Bytes) : Option NtlmVersion :=
  if data.length < 8 then none else some ⟨data.u8 0, data.u8 1, data.u16 2, data.u8 7⟩

/-- The eight bytes of a version. -/
def toBytes (v : NtlmVersion) : Bytes :=
  [v.major, v.minor] ++ ofU16 v.build ++ [0, 0, 0, v.ntlmRevision]

end NtlmVersion

/-- The message with which the server answers the first one. -/
structure ChallengeMessage where
  targetName : String
  flags : UInt32
  serverChallenge : Bytes
  targetInfo : Bytes
  version : Option NtlmVersion
  deriving DecidableEq

namespace ChallengeMessage

/-- A challenge with the version of the server. -/
def new (targetName : String) (serverChallenge targetInfo : Bytes) (flags : UInt32) :
    ChallengeMessage :=
  ⟨targetName, flags, serverChallenge, targetInfo, some .current⟩

/-- Read a challenge, as a client does. -/
def parse (data : Bytes) : Except AuthError ChallengeMessage :=
  if data.length < 56 then .error .malformedToken
  else if data.take 8 ≠ NTLM_SIGNATURE then .error .malformedToken
  else if data.u32 8 ≠ 2 then .error .malformedToken
  else
    let flags := data.u32 20
    .ok
      { targetName := securityText data flags 12
        flags := flags
        serverChallenge := data.slice 24 8
        targetInfo := securityBuffer data 40
        version :=
          if NtlmFlags.has flags NtlmFlags.NEGOTIATE_VERSION && 56 ≤ data.length then
            NtlmVersion.parse (data.slice 48 8)
          else none }

/-- The bytes of a challenge: a header, then the two buffers. -/
def build (m : ChallengeMessage) : Bytes :=
  let name := encodeString m.targetName m.flags
  let buffer := fun (b : Bytes) (off : ℕ) =>
    ofU16 (UInt16.ofNat b.length) ++ ofU16 (UInt16.ofNat b.length) ++
      ofU32 (UInt32.ofNat off)
  NTLM_SIGNATURE ++ ofU32 2 ++ buffer name 56 ++ ofU32 m.flags ++
    m.serverChallenge ++ zeros 8 ++ buffer m.targetInfo (56 + name.length) ++
    (m.version.map NtlmVersion.toBytes).getD (zeros 8) ++ name ++ m.targetInfo

end ChallengeMessage

/-! ### Checking a response -/

section Crypto

variable [Externs]

/-- The key that belongs to a user name, a domain and a password hash. -/
def ntowfV2 (ntHash : Bytes) (username domain : String) : Bytes :=
  Externs.hmacMd5 ntHash (Utf16.bytes (Externs.toUppercase username) ++ Utf16.bytes domain)

/-- Check the attribute list at the end of a response; `fuel` is the number of bytes. -/
def validateAvPairs (data : Bytes) : ℕ → ℕ → Except AuthError Unit
  | 0, _ => .ok ()
  | fuel + 1, offset =>
      if offset < data.length then
        if data.length - offset < 4 then .error .malformedToken
        else
          let avLen := (data.u16 (offset + 2)).toNat
          if data.length - offset - 4 < avLen then .error .malformedToken
          else if data.u16 offset = 0 then .ok ()
          else validateAvPairs data fuel (offset + 4 + avLen)
      else .ok ()

/-- Check an NTLMv2 response; the result is the session base key. -/
def verifyNtlmv2Response (ntowf serverChallenge ntResponse : Bytes) : Except AuthError Bytes :=
  if ntResponse.length < 16 + 28 then .error .malformedToken
  else
    let ntProofStr : Bytes := ntResponse.take 16
    let temp : Bytes := ntResponse.drop 16
    if temp.u8 0 ≠ 1 || temp.u8 1 ≠ 1 then .error .malformedToken
    else do
      if temp.length > 28 then
        validateAvPairs (temp.drop 28) ((temp.drop 28).length + 1) 0
      let computed := Externs.hmacMd5 ntowf (serverChallenge ++ temp)
      if ((ntProofStr.zip computed).all fun p => p.1 == p.2) then
        .ok (Externs.hmacMd5 ntowf computed)
      else .error .invalidCredentials

end Crypto

/-- The key schedule: the last rounds of 256. -/
def rc4Schedule (key : Bytes) : ℕ → Array UInt8 × ℕ → Array UInt8 × ℕ
  | 0, st => st
  | n + 1, (s, j) =>
      let i := 256 - (n + 1)
      let j := (j + (s.getD i 0).toNat + (key.getD (i % key.length) 0).toNat) % 256
      rc4Schedule key n ((s.set! i (s.getD j 0)).set! j (s.getD i 0), j)

/-- The output of RC4 from a permutation and its two indices on. -/
def rc4Stream : Bytes → Array UInt8 → ℕ → ℕ → Bytes
  | [], _, _, _ => []
  | byte :: data, s, i, j =>
      let i := (i + 1) % 256
      let j := (j + (s.getD i 0).toNat) % 256
      let s := (s.set! i (s.getD j 0)).set! j (s.getD i 0)
      let k := s.getD (((s.getD i 0).toNat + (s.getD j 0).toNat) % 256) 0
      (byte ^^^ k) :: rc4Stream data s i j

/-- RC4 encrypts and decrypts. -/
def rc4 (key data : Bytes) : Bytes :=
  let s := (List.range 256).map UInt8.ofNat
  rc4Stream data (rc4Schedule key 256 (s.toArray, 0)).1 0 0

/-- The session key that a client sent under the base key. -/
def decryptSessionKey (sessionBaseKey encryptedKey : Bytes) : Option Bytes :=
  if encryptedKey.length ≠ 16 then none else some (rc4 sessionBaseKey encryptedKey)

/-- RC4 undoes itself and keeps the length. -/
theorem rc4Stream_twice (data : Bytes) (s : Array UInt8) (i j : ℕ) :
    rc4Stream (rc4Stream data s i j) s i j = data ∧
      (rc4Stream data s i j).length = data.length := by
  induction data generalizing s i j with
  | nil => exact ⟨rfl, rfl⟩
  | cons byte data ih => simp [rc4Stream, ih, UInt8.xor_assoc]

/-- **A key is read from the message exactly if the client has encrypted it there.** -/
theorem decryptSessionKey_eq_some_iff {base encrypted key : Bytes} :
    decryptSessionKey base encrypted = some key ↔ key.length = 16 ∧ encrypted = rc4 base key := by
  unfold decryptSessionKey rc4
  constructor
  · intro h
    split at h
    · cases h
    · next hlen =>
      cases h
      rw [(rc4Stream_twice _ _ _ _).1, (rc4Stream_twice _ _ _ _).2]
      exact ⟨not_not.1 hlen, rfl⟩
  · rintro ⟨hlen, rfl⟩
    rw [(rc4Stream_twice _ _ _ _).2, if_neg (not_not.2 hlen), (rc4Stream_twice _ _ _ _).1]

/-! ### The provider -/

/-- Users with the hashes of their passwords, and the names of the server. -/
structure NtlmAuthProvider where
  users : Table String (Bytes × UserInfo)
  serverName : String
  domainName : String
  dnsServer : String
  dnsDomain : String
  allowAnonymous : Bool
  pendingChallenges : Table UInt64 Bytes
  nextSession : UInt64

namespace NtlmAuthProvider

variable [Externs]

/-- A provider without users. -/
def new (serverName domainName : String) : NtlmAuthProvider where
  users := ∅
  serverName := serverName
  domainName := domainName
  dnsServer := Externs.toLowercase serverName ++ ".local"
  dnsDomain := Externs.toLowercase domainName ++ ".local"
  allowAnonymous := false
  pendingChallenges := ∅
  nextSession := 1

/-- Open an exchange and answer with a challenge. -/
def processNegotiate (p : NtlmAuthProvider) (env : AuthEnv) (ctx : AuthContext)
    (msg : NegotiateMessage) : (AuthContext × Except AuthError AuthResult) × NtlmAuthProvider :=
  let targetInfo := buildTargetInfo p.domainName p.serverName p.dnsDomain p.dnsServer env.filetime
  let serverOptional := NtlmFlags.serverDefault &&& NtlmFlags.optional
  let flags := NtlmFlags.mandatory ||| (serverOptional &&& msg.flags)
  -- the identifier of the exchange: the context's, or the next of the provider's counter
  let sessionId := ctx.sessionId.getD p.nextSession
  let nextSession := if ctx.sessionId.isNone then p.nextSession + 1 else p.nextSession
  (({ ctx with
      sessionId := some sessionId
      challenge := some env.challenge
      state := .challengeIssued },
    .ok (.continue (ChallengeMessage.new p.serverName env.challenge targetInfo flags).build)),
    { p with
      pendingChallenges := p.pendingChallenges.insert sessionId env.challenge
      nextSession := nextSession })

/-- The key of the session: one that the client sent, or the base key. -/
def exchangedKey (msg : AuthenticateMessage) (sessionBaseKey : Bytes) : Except AuthError Bytes :=
  if NtlmFlags.has msg.flags NtlmFlags.NEGOTIATE_KEY_EXCH && !msg.encryptedSessionKey.isEmpty
  then
    match decryptSessionKey sessionBaseKey msg.encryptedSessionKey with
    | some key => .ok key
    | none => .error .failed
  else .ok sessionBaseKey

/-- Check the credentials of a named user against the pending challenge. -/
def checkUser (p : NtlmAuthProvider) (ctx : AuthContext) (msg : AuthenticateMessage) :
    Except AuthError (UInt64 × UserInfo × Bytes) := do
  let sessionId ← match ctx.sessionId with
    | some id => .ok id
    | none => .error .failed
  let serverChallenge ← match p.pendingChallenges.lookup sessionId with
    | some c => .ok c
    | none => .error .failed
  let (nt, userInfo) ← match p.users.lookup (Externs.toUppercase msg.userName) with
    | some u => .ok u
    | none => .error .invalidCredentials
  let ntowf := ntowfV2 nt msg.userName msg.domainName
  let sessionBaseKey ← verifyNtlmv2Response ntowf serverChallenge msg.ntResponse
  let sessionKey ← exchangedKey msg sessionBaseKey
  .ok (sessionId, userInfo, sessionKey)

/-- Check the proof of the last message against the challenge. -/
def processAuthenticate (p : NtlmAuthProvider) (ctx : AuthContext) (msg : AuthenticateMessage) :
    (AuthContext × Except AuthError AuthResult) × NtlmAuthProvider :=
  if msg.isAnonymous then
    if p.allowAnonymous then
      (({ ctx with state := .complete },
        .ok (.success
          { username := "anonymous", domain := none, isAdmin := false, isGuest := true,
            isAnonymous := false }
          (zeros 16) none)), p)
    else (({ ctx with state := .failed }, .error .invalidCredentials), p)
  else
    match p.checkUser ctx msg with
    | .error e => ((ctx, .error e), p)
    | .ok (sessionId, userInfo, sessionKey) =>
        (({ ctx with state := .complete }, .ok (.success userInfo sessionKey none)),
          { p with pendingChallenges := p.pendingChallenges.erase sessionId })

/-- Authenticate a token, wrapped or not. -/
def authenticate (p : NtlmAuthProvider) (env : AuthEnv) (ctx : AuthContext) (token : Bytes) :
    (AuthContext × Except AuthError AuthResult) × NtlmAuthProvider :=
  if token.isEmpty then
    if p.allowAnonymous then ((ctx, .ok (.success .anonymous [] none)), p)
    else ((ctx, .error .failed), p)
  else if token.length < 12 then ((ctx, .error .malformedToken), p)
  else if token.u32 8 = 1 then
    match NegotiateMessage.parse token with
    | .error e => ((ctx, .error e), p)
    | .ok msg => p.processNegotiate env ctx msg
  else if token.u32 8 = 3 then
    match AuthenticateMessage.parse token with
    | .error e => ((ctx, .error e), p)
    | .ok msg => p.processAuthenticate ctx msg
  else ((ctx, .error .malformedToken), p)

instance : AuthProvider NtlmAuthProvider where
  authenticate env ctx token p := p.authenticate env ctx token

/-- A token leaves the identifier and the counter alone, or opens an exchange under the context's
identifier or else the counter's next one. -/
theorem authenticate_sessionId (p : NtlmAuthProvider) (env : AuthEnv) (ctx : AuthContext)
    (token : Bytes) :
    let r := p.authenticate env ctx token
    (r.1.1.sessionId = ctx.sessionId ∧ r.2.nextSession = p.nextSession) ∨
      ctx.sessionId = none ∧ r.1.1.sessionId = some p.nextSession ∧
        r.2.nextSession = p.nextSession + 1 := by
  unfold authenticate
  split
  · split <;> exact Or.inl ⟨rfl, rfl⟩
  split
  · exact Or.inl ⟨rfl, rfl⟩
  split
  · split
    · exact Or.inl ⟨rfl, rfl⟩
    · -- NEGOTIATE is the only message that touches the identifier
      cases hid : ctx.sessionId with
      | none => exact Or.inr ⟨rfl, by simp [processNegotiate, hid], by simp [processNegotiate, hid]⟩
      | some id => exact Or.inl ⟨by simp [processNegotiate, hid], by simp [processNegotiate, hid]⟩
  split
  · split
    · exact Or.inl ⟨rfl, rfl⟩
    · unfold processAuthenticate
      split
      · split <;> exact Or.inl ⟨rfl, rfl⟩
      · split <;> exact Or.inl ⟨rfl, rfl⟩
  · exact Or.inl ⟨rfl, rfl⟩

instance : LawfulAuthProvider NtlmAuthProvider where
  keeps_sessionId := by
    intro env ctx token p id hid
    rcases p.authenticate_sessionId env ctx token with ⟨hkept, -⟩ | ⟨hnone, -⟩
    · exact hkept.trans hid
    · rw [hnone] at hid
      cases hid

end NtlmAuthProvider

end RustSmb
