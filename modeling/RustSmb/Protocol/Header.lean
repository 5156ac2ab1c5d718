import RustSmb.Lib.Bytes

/-!
# The SMB2 packet header

The fixed 64-byte header that starts every message, the command codes, the header
flags and the status codes that the server answers with.

## Main results

* `Smb2Header.read_eq_some_iff` — the messages that are read as a given header.

Source: `rustsmb-protocol/src/header.rs`, `rustsmb-core/src/status.rs`.
-/

namespace RustSmb

open List Bytes

variable {h : Smb2Header}

/-- The status codes that the server sends. -/
inductive NtStatus where
  | success
  | moreProcessingRequired
  | infoLengthMismatch
  | invalidParameter
  | invalidHandle
  | invalidDeviceRequest
  | endOfFile
  | accessDenied
  | bufferTooSmall
  | objectNameNotFound
  | objectNameCollision
  | objectPathSyntaxBad
  | sharingViolation
  | fileLockConflict
  | lockNotGranted
  | invalidLockRange
  | diskFull
  | notSupported
  | badNetworkName
  | requestNotAccepted
  | internalError
  | userSessionDeleted
  | networkSessionExpired
  | fileIsADirectory
  | directoryNotEmpty
  | notADirectory
  | fileTooLarge
  | notSameDevice
  | mediaWriteProtected
  | nameTooLong
  | fileClosed
  | networkNameDeleted
  | logonFailure
  | badImpersonationLevel
  deriving DecidableEq, Repr

def NtStatus.code : NtStatus → UInt32
  | success => 0x00000000
  | moreProcessingRequired => 0xC0000016
  | infoLengthMismatch => 0xC0000004
  | invalidParameter => 0xC000000D
  | invalidHandle => 0xC0000008
  | invalidDeviceRequest => 0xC0000010
  | endOfFile => 0xC0000011
  | accessDenied => 0xC0000022
  | bufferTooSmall => 0xC0000023
  | objectNameNotFound => 0xC0000034
  | objectNameCollision => 0xC0000035
  | objectPathSyntaxBad => 0xC000003B
  | sharingViolation => 0xC0000043
  | fileLockConflict => 0xC0000054
  | lockNotGranted => 0xC0000055
  | invalidLockRange => 0xC00001A1
  | diskFull => 0xC000007F
  | notSupported => 0xC00000BB
  | badNetworkName => 0xC00000CC
  | requestNotAccepted => 0xC00000D0
  | internalError => 0xC00000E5
  | userSessionDeleted => 0xC0000203
  | networkSessionExpired => 0xC000035C
  | fileIsADirectory => 0xC00000BA
  | directoryNotEmpty => 0xC0000101
  | notADirectory => 0xC0000103
  | fileTooLarge => 0xC0000904
  | notSameDevice => 0xC00000D4
  | mediaWriteProtected => 0xC00000A2
  | nameTooLong => 0xC0000106
  | fileClosed => 0xC0000128
  | networkNameDeleted => 0xC00000C9
  | logonFailure => 0xC000006D
  | badImpersonationLevel => 0xC00000A5

/-! ### Commands -/

/-- The nineteen commands. -/
inductive Smb2Command where
  | negotiate
  | sessionSetup
  | logoff
  | treeConnect
  | treeDisconnect
  | create
  | close
  | flush
  | read
  | write
  | lock
  | ioctl
  | cancel
  | echo
  | queryDirectory
  | changeNotify
  | queryInfo
  | setInfo
  | oplockBreak
  deriving DecidableEq, Repr

namespace Smb2Command

/-- The code on the wire. -/
def code : Smb2Command → UInt16
  | negotiate => 0x0000
  | sessionSetup => 0x0001
  | logoff => 0x0002
  | treeConnect => 0x0003
  | treeDisconnect => 0x0004
  | create => 0x0005
  | close => 0x0006
  | flush => 0x0007
  | read => 0x0008
  | write => 0x0009
  | lock => 0x000A
  | ioctl => 0x000B
  | cancel => 0x000C
  | echo => 0x000D
  | queryDirectory => 0x000E
  | changeNotify => 0x000F
  | queryInfo => 0x0010
  | setInfo => 0x0011
  | oplockBreak => 0x0012

def all : List Smb2Command :=
  [negotiate, sessionSetup, logoff, treeConnect, treeDisconnect, create, close, flush, read,
    write, lock, ioctl, cancel, echo, queryDirectory, changeNotify, queryInfo, setInfo,
    oplockBreak]

/-- Commands are told apart by their codes. -/
def ofCode (c : UInt16) : Option Smb2Command := all.find? fun cmd => cmd.code == c

theorem ofCode_code (cmd : Smb2Command) : ofCode cmd.code = some cmd := by
  cases cmd <;> rfl

end Smb2Command

/-! ### Header flags -/

namespace Smb2Flags

/-- The message is a response. -/
def SERVER_TO_REDIR : UInt32 := 0x00000001

/-- The message is related to the one before it in a compound. -/
def RELATED_OPERATIONS : UInt32 := 0x00000004

def SIGNED : UInt32 := 0x00000008

def isResponse (flags : UInt32) : Bool := flags &&& SERVER_TO_REDIR != 0

def isRelated (flags : UInt32) : Bool := flags &&& RELATED_OPERATIONS != 0

def isSigned (flags : UInt32) : Bool := flags &&& SIGNED != 0

theorem mask_or {flags mask : UInt32} (added : UInt32) (h : (flags &&& mask != 0) = true) :
    ((flags ||| added) &&& mask != 0) = true := by
  rw [bne_iff_ne] at h ⊢
  intro hzero
  apply h
  rw [← UInt32.toBitVec_inj] at hzero ⊢
  ext i hi
  have hbit := congrArg (fun v => v[i]) hzero
  simp at hbit ⊢
  grind

theorem isResponse_serverToRedir : isResponse SERVER_TO_REDIR = true := by decide

theorem isSigned_serverToRedir : isSigned SERVER_TO_REDIR = false := by decide

end Smb2Flags

/-! ### The header -/

def SMB2_MAGIC : Bytes := [0xFE, 0x53, 0x4D, 0x42]

def SMB2_HEADER_SIZE : ℕ := 64

/-- The header, always in its synchronous form. -/
structure Smb2Header where
  structureSize : UInt16 := 64
  creditCharge : UInt16 := 0
  status : UInt32 := 0
  command : Smb2Command
  credits : UInt16 := 0
  flags : UInt32 := 0
  nextCommand : UInt32 := 0
  messageId : UInt64 := 0
  asyncId : UInt32 := 0
  treeId : UInt32 := 0
  sessionId : UInt64 := 0
  signature : Bytes := zeros 16
  deriving DecidableEq

namespace Smb2Header

/-- The header of a message: 64 bytes, of which the first four are fixed. -/
def read (m : Bytes) : Option Smb2Header :=
  if m.length < SMB2_HEADER_SIZE then none
  else if m.take 4 ≠ SMB2_MAGIC then none
  else
    (Smb2Command.ofCode (m.u16 12)).map fun command =>
      { structureSize := m.u16 4
        creditCharge := m.u16 6
        status := m.u32 8
        command := command
        credits := m.u16 14
        flags := m.u32 16
        nextCommand := m.u32 20
        messageId := m.u64 24
        asyncId := m.u32 32
        treeId := m.u32 36
        sessionId := m.u64 40
        signature := m.slice 48 16 }

/-- The 64 bytes of a header. -/
def write (h : Smb2Header) : Bytes :=
  SMB2_MAGIC ++ ofU16 h.structureSize ++ ofU16 h.creditCharge ++
    ofU32 h.status ++ ofU16 h.command.code ++ ofU16 h.credits ++
    ofU32 h.flags ++ ofU32 h.nextCommand ++ ofU64 h.messageId ++
    ofU32 h.asyncId ++ ofU32 h.treeId ++ ofU64 h.sessionId ++ h.signature

theorem fields_of_read {m : Bytes} (hr : read m = some h) :
    m.u32 20 = h.nextCommand ∧ m.u64 24 = h.messageId := by
  unfold read at hr
  split at hr
  · cases hr
  split at hr
  · cases hr
  · obtain ⟨command, -, rfl⟩ := Option.map_eq_some_iff.1 hr
    exact ⟨rfl, rfl⟩

theorem messageId_of_read {m : Bytes} (hr : read m = some h) : m.u64 24 = h.messageId :=
  (fields_of_read hr).2

theorem write_append (h : Smb2Header) (body : Bytes) :
    h.write ++ body = SMB2_MAGIC ++ (ofU16 h.structureSize ++ (ofU16 h.creditCharge ++
      (ofU32 h.status ++ (ofU16 h.command.code ++ (ofU16 h.credits ++
      (ofU32 h.flags ++ (ofU32 h.nextCommand ++ (ofU64 h.messageId ++
      (ofU32 h.asyncId ++ (ofU32 h.treeId ++ (ofU64 h.sessionId ++
      (h.signature ++ body)))))))))))) := by
  simp only [write, append_assoc]

theorem length_write (hs : h.signature.length = 16) : h.write.length = 64 := by
  simp [write, SMB2_MAGIC, hs]

theorem slice_signature (hs : h.signature.length = 16) (body : Bytes) :
    (h.write ++ body).slice 48 16 = h.signature := by
  unfold write slice
  rw [append_assoc, drop_left' (by simp [SMB2_MAGIC]), take_left' hs]

theorem length_signature_of_read {m : Bytes} (hread : read m = some h) :
    h.signature.length = 16 := by
  unfold read at hread
  split at hread
  · cases hread
  split at hread
  · cases hread
  · next hlen _ =>
    obtain ⟨command, -, rfl⟩ := Option.map_eq_some_iff.1 hread
    simp only [SMB2_HEADER_SIZE] at hlen
    simp only [slice, length_take, length_drop]
    omega

theorem read_write (hs : h.signature.length = 16) (body : Bytes) :
    read (h.write ++ body) = some h := by
  have hlen : ¬ (h.write ++ body).length < SMB2_HEADER_SIZE := by
    rw [length_append, length_write hs, SMB2_HEADER_SIZE]
    omega
  have hmagic : SMB2_MAGIC.length = 4 := rfl
  unfold read
  rw [if_neg hlen, write_append, take_left' hmagic, if_neg (not_not.2 rfl)]
  simp only [u16_append_of_le, u32_append_of_le, u64_append_of_le, hmagic,
    length_ofU16, length_ofU32, length_ofU64, Nat.reduceLeDiff, Nat.reduceSub,
    Nat.le_refl, Nat.sub_self, u16_ofU16_append, u32_ofU32_append,
    u64_ofU64_append]
  rw [Smb2Command.ofCode_code, Option.map_some, ← write_append, slice_signature hs]

/-- **A message is read as a header exactly if it starts with the header's encoding.** -/
theorem read_eq_some_iff {m : Bytes} :
    read m = some h ↔ h.signature.length = 16 ∧ ∃ body, m = h.write ++ body := by
  constructor
  · intro hread
    refine ⟨length_signature_of_read hread, m.drop 64, ?_⟩
    unfold read at hread
    split at hread
    · cases hread
    split at hread
    · cases hread
    · next hlen hmagic =>
      obtain ⟨command, hcode, rfl⟩ := Option.map_eq_some_iff.1 hread
      have hcommand : command.code = m.u16 12 := by simpa using find?_some hcode
      have hjoin : ∀ o n, m.slice o n ++ m.drop (o + n) = m.drop o := fun o n => by
        rw [slice, ← drop_drop, take_append_drop]
      rw [SMB2_HEADER_SIZE] at hlen
      rw [write_append, hcommand, ← not_not.1 hmagic]
      -- from the last field on, each gives back the bytes that it was read from
      simp (disch := omega) only [ofU16_u16, ofU32_u32, ofU64_u64]
      rw [hjoin 48, hjoin 40, hjoin 36, hjoin 32, hjoin 24, hjoin 20, hjoin 16, hjoin 14,
        hjoin 12, hjoin 8, hjoin 6, hjoin 4, take_append_drop]
  · rintro ⟨hsig, body, rfl⟩
    exact read_write hsig body

theorem read_isSome_length {m : Bytes} (hr : read m = some h) :
    SMB2_HEADER_SIZE ≤ m.length := by
  unfold read at hr
  split at hr
  · cases hr
  · next hlt => exact Nat.le_of_not_lt hlt

end Smb2Header

end RustSmb
