import RustSmb.Protocol.Header

/-!
# Compound requests

A message may hold several commands, each naming the distance to the next.  In a related
compound, later commands take the session, the tree and the file from earlier ones.

## Main definitions

* `parseCompoundOffsets`, `compoundCommands` — the commands of a message.
* `CompoundContext` — what later commands of a compound inherit.
* `fileidBodyOffset`, `substituteFileId` — the file identifier of a related command.

Source: `rustsmb-session/src/compound.rs`, `rustsmb-protocol/src/commands/mod.rs`,
`rustsmb-server/src/handler.rs`.
-/

namespace RustSmb

/-! ### Splitting a message -/

/-- The offsets of the commands from `current` on, in at most as many steps as there are bytes:
each moves on. -/
def compoundOffsetsFrom (data : Bytes) : ℕ → ℕ → List ℕ
  | 0, _ => []
  | fuel + 1, current =>
      if current < data.length then
        if current + 64 > data.length then [current]
        else
          let next := (data.u32 (current + 20)).toNat
          if next = 0 then [current]
          else current :: compoundOffsetsFrom data fuel (current + next)
      else []

/-- Every link leads on, so the length is fuel enough. -/
def parseCompoundOffsets (data : Bytes) : List ℕ :=
  compoundOffsetsFrom data (data.length + 1) 0

/-- The bytes of the commands at the given offsets: each reaches to the next offset. -/
def compoundCommands (data : Bytes) : List ℕ → List Bytes
  | [] => []
  | [offset] => [data.drop offset]
  | offset :: next :: rest =>
      data.slice offset (next - offset) :: compoundCommands data (next :: rest)

/-- To the next multiple of eight. -/
def compoundPadding (offset : ℕ) : ℕ := (8 - offset % 8) % 8

/-! ### Inheritance -/

/-- The identifiers that related commands inherit. -/
structure CompoundContext where
  related : Bool
  sessionId : Option UInt64 := none
  treeId : Option UInt32 := none
  fileId : Option (UInt64 × UInt64) := none
  currentIndex : ℕ := 0

namespace CompoundContext

variable (ctx : CompoundContext)

def isFirst : Bool := ctx.currentIndex == 0

def resolveSessionId (requested : UInt64) : Option UInt64 :=
  if !ctx.related || ctx.isFirst then some requested
  else if requested = 0xFFFFFFFFFFFFFFFF then ctx.sessionId
  else some requested

def resolveTreeId (requested : UInt32) : Option UInt32 :=
  if !ctx.related || ctx.isFirst then some requested
  else if requested = 0xFFFFFFFF then ctx.treeId
  else some requested

/-- Go on to the next command, with the file that the last one opened, if any. -/
def advance (fileId : Option (UInt64 × UInt64)) : CompoundContext :=
  { ctx with fileId := fileId.or ctx.fileId, currentIndex := ctx.currentIndex + 1 }

/-- Related commands but the first work on the file opened before. -/
def fileIdOverride : Option (UInt64 × UInt64) :=
  if ctx.related && !ctx.isFirst then ctx.fileId else none

end CompoundContext

/-- Where the identifier of a file lies; commands not listed have none that is known. -/
def fileidBodyOffset : Smb2Command → Option ℕ
  | .close | .flush | .lock | .queryDirectory => some 8
  | .read | .write | .setInfo => some 16
  | .queryInfo => some 24
  | _ => none

/-- Each half of a file identifier that is all ones or differs from the inherited one gives way
to it. -/
def substituteFileId (command : Smb2Command) (override : Option (UInt64 × UInt64))
    (fullMessage : Bytes) : Bytes :=
  match override, fileidBodyOffset command with
  | some (persistent, volatile), some offset =>
      if fullMessage.length ≥ SMB2_HEADER_SIZE + offset + 16 then
        let reqPersistent := fullMessage.u64 (SMB2_HEADER_SIZE + offset)
        let reqVolatile := fullMessage.u64 (SMB2_HEADER_SIZE + offset + 8)
        let useP := reqPersistent == 0xFFFFFFFFFFFFFFFF || reqPersistent != persistent
        let useV := reqVolatile == 0xFFFFFFFFFFFFFFFF || reqVolatile != volatile
        if useP || useV then
          fullMessage.splice (SMB2_HEADER_SIZE + offset)
            (Bytes.ofU64 (if useP then persistent else reqPersistent) ++
              Bytes.ofU64 (if useV then volatile else reqVolatile))
        else fullMessage
      else fullMessage
  | _, _ => fullMessage

end RustSmb
