import RustSmb.Lib.Bytes

/-!
# The records of the state store

Sessions, tree connections, open handles, leases and byte-range locks, as the state
crate defines them.  The wall clock is an argument where the source reads it.

## Main definitions

* `SessionState`, `TreeState`, `HandleState` — what a server keeps between requests.
* `LeaseEntry`, `LeaseConflictResult` — leases and the outcome of asking for one.
* `DistributedLock` — byte-range locks, with `DistributedLock.conflictsWith`.

## Main results

* `DistributedLock.conflictsWith_iff_covers` — **when conflicts are overlaps.**

Source: `rustsmb-state/src/types.rs`, `rustsmb-state/src/coordination.rs`,
`rustsmb-core/src/types.rs`.
-/

namespace RustSmb

/-- A `u128`. -/
abbrev HandleId := BitVec 128

/-- The dialects, of which the server offers the first four. -/
inductive SmbDialect where
  | smb202
  | smb210
  | smb300
  | smb302
  | smb311
  deriving DecidableEq, Repr

def SmbDialect.revision : SmbDialect → UInt16
  | .smb202 => 0x0202
  | .smb210 => 0x0210
  | .smb300 => 0x0300
  | .smb302 => 0x0302
  | .smb311 => 0x0311

/-- The errors of a state store.  Their texts only reach the log. -/
inductive StateError where
  | connectionFailed
  | timeout
  | serialization
  | notFound
  | alreadyExists
  | conflict
  | internal
  deriving DecidableEq, Repr

/-- A session as the store keeps it. -/
structure SessionState where
  sessionId : UInt64
  userId : String
  domain : Option String
  sessionKey : Bytes
  dialect : SmbDialect
  signingRequired : Bool
  encryptionRequired : Bool
  isGuest : Bool
  isAnonymous : Bool
  createdAt : UInt64
  lastAccess : UInt64
  expiresAt : UInt64
  boundServerId : Option String
  deriving DecidableEq

/-- A tree connection: a session's connection to a share. -/
structure TreeState where
  treeId : UInt32
  sessionId : UInt64
  shareName : String
  sharePath : String
  accessFlags : UInt32
  isDfs : Bool
  createdAt : UInt64
  deriving DecidableEq

/-! ### Open handles -/

/-- An open file as the store keeps it. -/
structure HandleState where
  persistentId : HandleId
  volatileId : HandleId
  treeId : UInt32
  sessionId : UInt64
  path : String
  accessMask : UInt32
  shareAccess : UInt32
  createOptions : UInt32
  isDurable : Bool
  isPersistent : Bool
  createdAt : UInt64
  lastAccess : UInt64
  createGuid : Option String
  fileOffset : UInt64
  shareName : String
  createDisposition : UInt32
  fileAttributes : UInt32
  appInstanceId : Option String
  durableTimeout : UInt32
  reconnectDeadline : Option UInt64
  leaseKey : Option String
  oplockLevel : UInt8
  boundServerId : Option String
  deleteOnClose : Bool
  isDirectory : Bool
  backendInternalId : Option UInt64
  deriving DecidableEq

namespace HandleState

/-- `HandleState::default`, at a reading of the clock. -/
def default (now : UInt64) : HandleState where
  persistentId := 0
  volatileId := 0
  treeId := 0
  sessionId := 0
  path := ""
  accessMask := 0
  shareAccess := 0
  createOptions := 0
  isDurable := false
  isPersistent := false
  createdAt := now
  lastAccess := now
  createGuid := none
  fileOffset := 0
  shareName := ""
  createDisposition := 0
  fileAttributes := 0
  appInstanceId := none
  durableTimeout := 0
  reconnectDeadline := none
  leaseKey := none
  oplockLevel := 0
  boundServerId := none
  deleteOnClose := false
  isDirectory := false
  backendInternalId := none

variable (h : HandleState)

/-- A durable or persistent handle, up to its deadline. -/
def canReconnect (now : UInt64) : Bool :=
  if !h.isDurable && !h.isPersistent then false
  else
    match h.reconnectDeadline with
    | some deadline => !(now > deadline)
    | none => true

/-- The deadline in seconds, from a timeout in milliseconds. -/
def setDurableTimeout (timeoutMs : UInt32) (now : UInt64) : HandleState :=
  { h with
    durableTimeout := timeoutMs
    reconnectDeadline := some (now + timeoutMs.toUInt64 / 1000) }

/-- Is the handle kept when its connection goes away? -/
def shouldPreserveForReconnect : Bool := h.isPersistent || h.isDurable

/-- Takes the handle off its session and sets a deadline if it has none. -/
def prepareForReconnect (defaultTimeoutMs : UInt32) (now : UInt64) : HandleState :=
  let h := { h with sessionId := 0, treeId := 0 }
  if h.reconnectDeadline.isNone then
    h.setDurableTimeout (if h.durableTimeout > 0 then h.durableTimeout else defaultTimeoutMs) now
  else h

@[simp] theorem prepareForReconnect_sessionId (ms : UInt32) (now : UInt64) :
    (h.prepareForReconnect ms now).sessionId = 0 := by
  unfold prepareForReconnect; dsimp only; split <;> rfl

end HandleState

/-! ### Leases -/

/-- A lease: the caching that the holder of a key may do on a file. -/
structure LeaseEntry where
  leaseKey : String
  clientGuid : String
  sessionId : UInt64
  serverId : String
  filePath : String
  leaseState : UInt32
  epoch : UInt16
  createdAt : UInt64
  breaking : Bool
  breakToState : UInt32
  breakStartedAt : Option UInt64
  isV2 : Bool
  deriving DecidableEq

namespace LeaseEntry

/-- The bit of the right to cache writes. -/
def WRITE_CACHING : UInt32 := 0x02

/-- A lease as it is first stored. -/
def new (leaseKey : Bytes) (clientGuid : String) (sessionId : UInt64) (serverId : String)
    (filePath : String) (leaseState : UInt32) (isV2 : Bool) (now : UInt64) : LeaseEntry where
  leaseKey := leaseKey.hex
  clientGuid := clientGuid
  sessionId := sessionId
  serverId := serverId
  filePath := filePath
  leaseState := leaseState
  epoch := 1
  createdAt := now
  breaking := false
  breakToState := 0
  breakStartedAt := none
  isV2 := isV2

end LeaseEntry

/-- The verdict on a lease request. -/
structure LeaseConflictResult where
  canGrant : Bool
  conflicts : List LeaseEntry
  grantedState : UInt32
  deriving DecidableEq

namespace LeaseConflictResult

/-- No lease is in the way. -/
def granted (requestedState : UInt32) : LeaseConflictResult where
  canGrant := true
  conflicts := []
  grantedState := requestedState

/-- What is in the way, and what could be granted all the same. -/
def conflict (conflicts : List LeaseEntry) (reducedState : UInt32) : LeaseConflictResult where
  canGrant := false
  conflicts := conflicts
  grantedState := reducedState

end LeaseConflictResult

/-! ### Byte-range locks -/

/-- A byte range lock as the stores keep it. -/
structure DistributedLock where
  lockId : UInt64
  handleId : HandleId
  sessionId : UInt64
  serverId : String
  filePath : String
  offset : UInt64
  length : UInt64
  exclusive : Bool
  createdAt : UInt64
  deriving DecidableEq

namespace DistributedLock

/-- The sum, at most the largest value of the type. -/
def saturatingAdd (a b : UInt64) : UInt64 :=
  if a.toNat + b.toNat < 2 ^ 64 then a + b else 0xFFFFFFFFFFFFFFFF

/-- The end of the locked range; length zero reaches to the end of the file. -/
def rangeEnd (l : DistributedLock) : UInt64 :=
  if l.length = 0 then 0xFFFFFFFFFFFFFFFF else saturatingAdd l.offset l.length

variable (l other : DistributedLock)

/-- Same file, other handle, common bytes, and one of the two exclusive. -/
def conflictsWith : Bool :=
  if l.filePath ≠ other.filePath then false
  else if l.handleId = other.handleId then false
  else if !(l.offset < other.rangeEnd && other.offset < l.rangeEnd) then false
  else l.exclusive || other.exclusive

theorem conflictsWith_comm (l l' : DistributedLock) : l.conflictsWith l' = l'.conflictsWith l := by
  unfold conflictsWith
  simp only [ne_comm, eq_comm, Bool.and_comm (l.offset < _), Bool.or_comm l.exclusive]

theorem conflictsWith_self (l : DistributedLock) : l.conflictsWith l = false := by
  simp [conflictsWith]

theorem conflictsWith_of_ne {l l' : DistributedLock} (h : l'.filePath ≠ l.filePath) :
    l.conflictsWith l' = false := by
  simp [conflictsWith, h.symm]

/-- Where the locked range ends, as a number; a file has positions below `2 ^ 64`. -/
def reach (l : DistributedLock) : ℕ :=
  if l.length = 0 then 2 ^ 64 else min (l.offset.toNat + l.length.toNat) (2 ^ 64)

/-- The byte is one of those locked. -/
def Covers (l : DistributedLock) (position : ℕ) : Prop :=
  l.offset.toNat ≤ position ∧ position < l.reach

/-- Two locks on one file, of different handles and not both shared. -/
def Rivals : Prop :=
  l.filePath = other.filePath ∧ l.handleId ≠ other.handleId ∧
    (l.exclusive = true ∨ other.exclusive = true)

/-- Both ranges have the last position that a file can have, and one of them starts there. -/
def MeetAtLast : Prop :=
  l.reach = 2 ^ 64 ∧ other.reach = 2 ^ 64 ∧
    (l.offset.toNat = 2 ^ 64 - 1 ∨ other.offset.toNat = 2 ^ 64 - 1)

theorem toNat_rangeEnd (l : DistributedLock) : l.rangeEnd.toNat = min l.reach (2 ^ 64 - 1) := by
  unfold rangeEnd reach saturatingAdd
  split_ifs with hzero hfits
  · rfl
  · rw [UInt64.toNat_add]
    omega
  · have hmax : (0xFFFFFFFFFFFFFFFF : UInt64).toNat = 2 ^ 64 - 1 := rfl
    omega

theorem offset_lt_reach (l : DistributedLock) : l.offset.toNat < l.reach := by
  have hlt := l.offset.toNat_lt
  unfold reach
  split_ifs with hzero
  · exact hlt
  · have hpos : l.length.toNat ≠ 0 := fun h => hzero (UInt64.toNat_inj.1 h)
    omega

theorem exists_covers_iff :
    (∃ position, l.Covers position ∧ other.Covers position) ↔
      l.offset.toNat < other.reach ∧ other.offset.toNat < l.reach := by
  have hl := l.offset_lt_reach
  have hoth := other.offset_lt_reach
  unfold Covers
  constructor
  · rintro ⟨position, hcovers⟩
    omega
  · intro hlt
    exact ⟨max l.offset.toNat other.offset.toNat, by omega⟩

theorem conflictsWith_eq_true :
    l.conflictsWith other = true ↔
      l.Rivals other ∧ l.offset < other.rangeEnd ∧ other.offset < l.rangeEnd := by
  unfold conflictsWith Rivals
  split_ifs with hpath hhdl hoverlap
  · simp [hpath]
  · simp [hhdl]
  · simp only [Bool.not_eq_true', Bool.and_eq_false_iff, decide_eq_false_iff_not] at hoverlap
    simp only [false_iff]
    tauto
  · simp only [Bool.not_eq_true', Bool.not_eq_false, Bool.and_eq_true, decide_eq_true_eq]
      at hoverlap
    simp_all

/-- **Locks conflict exactly if they are rivals with a position in common**, unless the last one is
all that they share. -/
theorem conflictsWith_iff_covers (l other : DistributedLock) :
    (l.conflictsWith other = true ↔
      l.Rivals other ∧ ∃ position, l.Covers position ∧ other.Covers position) ↔
      ¬ (l.Rivals other ∧ l.MeetAtLast other) := by
  have hl := l.offset_lt_reach
  have hoth := other.offset_lt_reach
  rw [conflictsWith_eq_true, exists_covers_iff, UInt64.lt_iff_toNat_lt, UInt64.lt_iff_toNat_lt,
    toNat_rangeEnd, toNat_rangeEnd, MeetAtLast]
  by_cases hrivals : l.Rivals other
  · simp only [hrivals, true_and]
    have hreach : l.reach ≤ 2 ^ 64 ∧ other.reach ≤ 2 ^ 64 := by
      unfold reach
      constructor <;> split_ifs <;> omega
    omega
  · simp [hrivals]

/-- **Two exclusive locks on the last byte**: they do not conflict. -/
theorem last_byte_locked_twice :
    ∃ l other : DistributedLock, l.conflictsWith other = false ∧
      l.Rivals other ∧ ∃ position, l.Covers position ∧ other.Covers position := by
  refine ⟨⟨1, 1, 1, "a", "f", 0xFFFFFFFFFFFFFFFF, 1, true, 0⟩,
    ⟨2, 2, 2, "a", "f", 0xFFFFFFFFFFFFFFFF, 1, true, 0⟩, by decide, ⟨rfl, by decide, .inl rfl⟩,
    2 ^ 64 - 1, ?_, ?_⟩ <;> exact ⟨by decide, by decide⟩

end DistributedLock

end RustSmb
