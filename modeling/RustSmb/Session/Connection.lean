import RustSmb.State.Types

/-!
# Connections

What a server keeps for one TCP connection: the negotiated dialect, the sessions bound
to it and the credit balance.  The set of bound sessions is a list without repetitions;
a session is added only while the limit is not reached.

## Main results

* `Connection.mem_addSession` — which sessions are bound after `addSession`.

Source: `rustsmb-session/src/connection.rs`, `rustsmb-session/src/credits.rs`.
-/

namespace RustSmb

/-! ### Credits -/

/-- The limits of a connection's credits. -/
structure CreditConfig where
  initialCredits : UInt16 := 256
  maxCredits : UInt16 := 8192
  grantPerResponse : UInt16 := 1
  adaptiveGrants : Bool := true
  deriving DecidableEq

/-- A credit balance.  The calls of one connection follow each other, so retry loops succeed at
once. -/
structure CreditManager where
  available : UInt16
  granted : UInt64
  consumed : UInt64
  config : CreditConfig
  deriving DecidableEq

namespace CreditManager

/-- A new manager, with the initial credits at hand. -/
def withConfig (config : CreditConfig) : CreditManager where
  available := config.initialCredits
  granted := config.initialCredits.toUInt64
  consumed := 0
  config := config

def saturatingSub (a b : UInt16) : UInt16 := if a ≤ b then 0 else a - b

/-- The sum, at most the largest value of the type. -/
def saturatingAdd (a b : UInt16) : UInt16 :=
  if a.toNat + b.toNat < 2 ^ 16 then a + b else 0xFFFF

def saturatingMul (a b : UInt16) : UInt16 :=
  if a.toNat * b.toNat < 2 ^ 16 then a * b else 0xFFFF

variable (m : CreditManager)

/-- Takes the charge, at least one credit, if there is as much. -/
def consume (creditCharge : UInt16) : Option UInt16 × CreditManager :=
  let charge := max creditCharge 1
  if m.available < charge then (none, m)
  else
    (some charge,
      { m with available := m.available - charge, consumed := m.consumed + charge.toUInt64 })

/-- Adds credits, as many as the maximum leaves room for. -/
def grant (credits : UInt16) : UInt16 × CreditManager :=
  if credits = 0 then (0, m)
  else
    let actual := min credits (saturatingSub m.config.maxCredits m.available)
    if actual = 0 then (0, m)
    else
      (actual,
        { m with available := m.available + actual, granted := m.granted + actual.toUInt64 })

/-- The grant, within the headroom: a fixed one, or one that follows demand and supply. -/
def calculateGrant (requested : UInt16) (isAsync : Bool) : UInt16 :=
  let headroom := saturatingSub m.config.maxCredits m.available
  if headroom = 0 then 0
  else if !m.config.adaptiveGrants then min m.config.grantPerResponse headroom
  else
    let target := m.config.maxCredits / 2
    let base := max m.config.grantPerResponse 1
    let base :=
      if m.available < target then saturatingAdd base ((target - m.available) / 4) else base
    let base := if requested > 0 then max base requested else base
    let base := if isAsync then saturatingMul base 2 else base
    max (min base headroom) (min 1 headroom)

variable (a b : UInt16)

theorem toNat_saturatingSub : (saturatingSub a b).toNat = a.toNat - b.toNat := by
  unfold saturatingSub
  split
  · next h =>
    have := UInt16.le_iff_toNat_le.1 h
    simp only [UInt16.toNat_zero]
    omega
  · next h => exact UInt16.toNat_sub_of_le _ _ (UInt16.le_of_lt (UInt16.not_le.1 h))

theorem toNat_max : (max a b).toNat = max a.toNat b.toNat := by
  change (if a ≤ b then b else a).toNat = _
  simp only [UInt16.le_iff_toNat_le]
  split_ifs <;> omega

theorem toNat_min : (min a b).toNat = min a.toNat b.toNat := by
  change (if a ≤ b then a else b).toNat = _
  simp only [UInt16.le_iff_toNat_le]
  split_ifs <;> omega

theorem toNat_saturatingAdd : (saturatingAdd a b).toNat = min (a.toNat + b.toNat) (2 ^ 16 - 1) := by
  unfold saturatingAdd
  split
  · rw [UInt16.toNat_add]
    omega
  · simp
    omega

theorem toNat_saturatingMul : (saturatingMul a b).toNat = min (a.toNat * b.toNat) (2 ^ 16 - 1) := by
  unfold saturatingMul
  split
  · rw [UInt16.toNat_mul]
    omega
  · simp
    omega

/-! ### Charges -/

/-- Why a charge is refused. -/
inductive CreditError where
  | insufficientCharge (provided required : UInt16)
  | insufficientCredits (requested available : UInt16)
  deriving DecidableEq

/-- One credit for each started unit of payload. -/
def calculateCharge (payloadSize maxPayloadPerCredit : UInt32) : UInt16 :=
  if payloadSize = 0 then 1
  else (min ((payloadSize - 1) / max maxPayloadPerCredit 1 + 1) 0xFFFF).toUInt16

def canSatisfy (creditCharge : UInt16) : Bool :=
  m.available ≥ max creditCharge 1

/-- The charge if it covers the payload and can be paid. -/
def validateCharge (creditCharge : UInt16) (payloadSize maxPayloadPerCredit : UInt32) :
    Except CreditError UInt16 :=
  let required := calculateCharge payloadSize maxPayloadPerCredit
  let actual := max creditCharge 1
  if actual < required then .error (.insufficientCharge actual required)
  else if !m.canSatisfy actual then .error (.insufficientCredits actual m.available)
  else .ok actual

theorem calculateCharge_le {payloadSize : UInt32} {n : ℕ} (h : payloadSize.toNat ≤ n * 65536) :
    (calculateCharge payloadSize 65536).toNat ≤ max n 1 := by
  have hmin : ∀ a : UInt32, (min a 0xFFFF).toNat ≤ a.toNat := by
    intro a
    change (if a ≤ 0xFFFF then a else 0xFFFF).toNat ≤ a.toNat
    split
    · exact le_rfl
    · next hgt => exact UInt32.le_iff_toNat_le.1 (UInt32.le_of_lt (UInt32.not_le.1 hgt))
  unfold calculateCharge
  split
  · exact Nat.le_max_right ..
  · next hne =>
    have hpos : payloadSize.toNat ≠ 0 := fun h0 => hne (UInt32.toNat_inj.1 h0)
    have hone : 1 ≤ payloadSize := UInt32.le_iff_toNat_le.2 (Nat.one_le_iff_ne_zero.2 hpos)
    have hquot := (Nat.mod_le _ (2 ^ 16)).trans (hmin ((payloadSize - 1) / 65536 + 1))
    simp only [UInt32.toNat_add, UInt32.toNat_div, UInt32.toNat_sub_of_le _ _ hone] at hquot
    rw [show max (65536 : UInt32) 1 = 65536 by decide]
    simp at hquot ⊢
    omega

/-- A charge that covers the payload is not too small for the credit manager. -/
theorem validateCharge_ne {m : CreditManager} {charge : UInt16} {payloadSize : UInt32}
    (h : payloadSize.toNat ≤ charge.toNat * 65536) (provided required : UInt16) :
    m.validateCharge charge payloadSize 65536 ≠ .error (.insufficientCharge provided required) := by
  have hnot : ¬ max charge 1 < calculateCharge payloadSize 65536 := by
    rw [UInt16.not_lt, UInt16.le_iff_toNat_le, toNat_max]
    exact calculateCharge_le h
  unfold validateCharge
  simp only [hnot, if_false]
  split <;> simp

end CreditManager

/-! ### Connections -/

/-- How far a connection has come. -/
inductive ConnectionState where
  | awaitingNegotiate
  | negotiated
  | sessionActive
  | disconnecting
  deriving DecidableEq, Repr

/-- What the server knows of one TCP connection. -/
structure Connection where
  id : UInt64
  dialect : Option SmbDialect
  state : ConnectionState
  signingRequired : Bool
  encryptionRequired : Bool
  maxTransactSize : UInt32
  maxReadSize : UInt32
  maxWriteSize : UInt32
  clientGuid : Bytes
  credits : CreditManager
  sessionIds : List UInt64
  maxSessions : ℕ
  deriving DecidableEq

namespace Connection

def new (id : UInt64) : Connection where
  id := id
  dialect := none
  state := .awaitingNegotiate
  signingRequired := false
  encryptionRequired := false
  maxTransactSize := 8 * 1024 * 1024
  maxReadSize := 8 * 1024 * 1024
  maxWriteSize := 8 * 1024 * 1024
  clientGuid := Bytes.zeros 16
  credits := CreditManager.withConfig {}
  sessionIds := []
  maxSessions := 64

variable (c : Connection)

/-- The dialect is settled. -/
def negotiate (dialect : SmbDialect) : Connection :=
  { c with dialect := some dialect, state := .negotiated }

/-- Whether the dialect charges by payload. -/
def supportsMultiCredit : Bool :=
  match c.dialect with
  | some .smb210 | some .smb300 | some .smb302 | some .smb311 => true
  | _ => false

/-- Whether a session can have several channels: SMB 3 on. -/
def isMultiChannelCapable : Bool :=
  match c.dialect with
  | some .smb300 | some .smb302 | some .smb311 => true
  | _ => false

def hasSession (sessionId : UInt64) : Bool := c.sessionIds.contains sessionId

/-- Bind a session, unless the limit is reached. -/
def addSession (sessionId : UInt64) : Bool × Connection :=
  if c.sessionIds.length ≥ c.maxSessions then (false, c)
  else
    (true,
      { c with
        sessionIds := c.sessionIds.insert sessionId
        state := if c.state = .negotiated then .sessionActive else c.state })

/-- The session is forgotten; with the last one the connection falls back. -/
def removeSession (sessionId : UInt64) : Connection :=
  let sessionIds := c.sessionIds.filter (· != sessionId)
  { c with
    sessionIds := sessionIds
    state := if sessionIds.isEmpty && c.state == .sessionActive then .negotiated else c.state }

/-- `consume` on the connection's manager. -/
def consumeCredits (creditCharge : UInt16) : Option UInt16 × Connection :=
  let r := c.credits.consume creditCharge
  (r.1, { c with credits := r.2 })

/-- Grants what `calculateGrant` says. -/
def grantCredits (requested : UInt16) (isAsync : Bool) : UInt16 × Connection :=
  let r := c.credits.grant (c.credits.calculateGrant requested isAsync)
  (r.1, { c with credits := r.2 })

/-- After `addSession` the bound sessions are those of before and, below the limit, the new
one. -/
theorem mem_addSession {c : Connection} {s s' : UInt64} :
    s' ∈ (c.addSession s).2.sessionIds ↔
      s' ∈ c.sessionIds ∨ s' = s ∧ c.sessionIds.length < c.maxSessions := by
  unfold addSession
  split
  · next h =>
    constructor
    · exact Or.inl
    · rintro (h' | ⟨-, h'⟩)
      · exact h'
      · omega
  · next h =>
    simp only [List.mem_insert_iff]
    constructor
    · rintro (rfl | h')
      · exact Or.inr ⟨rfl, by omega⟩
      · exact Or.inl h'
    · rintro (h' | ⟨rfl, -⟩)
      · exact Or.inr h'
      · exact Or.inl rfl

end Connection

end RustSmb
