import RustSmb.Lib.Prog
import RustSmb.Protocol.Header
import RustSmb.State.Types

/-!
# Storage backends

`BackendOp` lists the methods of the `StorageBackend` trait that the server calls and
`BackendOp.Value` what each returns.  A backend is anything that answers them
(`StorageBackend`).

## Main definitions

* `VfsError`, `VfsError.toStatus` — errors and the status they are reported as.
* `FileHandle`, `CreateParams`, `Metadata`, `FileLock`, `FsStats` — the trait's types.
* `BackendOp`, `StorageBackend` — the trait.

Source: `rustsmb-vfs/src/traits.rs`, `rustsmb-vfs/src/types.rs`, `rustsmb-core/src/error.rs`.
-/

namespace RustSmb

/-- The errors of a backend.  Their texts only reach the log. -/
inductive VfsError where
  | notFound
  | accessDenied
  | alreadyExists
  | notADirectory
  | isADirectory
  | directoryNotEmpty
  | invalidPath
  | diskFull
  | fileTooLarge
  | sharingViolation
  | lockConflict
  | invalidHandle
  | backend
  | io
  | notSupported
  | readOnly
  | crossDevice
  | nameTooLong
  deriving DecidableEq, Repr

/-- The status that a client sees. -/
def VfsError.toStatus : VfsError → NtStatus
  | notFound => .objectNameNotFound
  | accessDenied => .accessDenied
  | alreadyExists => .objectNameCollision
  | notADirectory => .notADirectory
  | isADirectory => .fileIsADirectory
  | directoryNotEmpty => .directoryNotEmpty
  | invalidPath => .objectPathSyntaxBad
  | diskFull => .diskFull
  | fileTooLarge => .fileTooLarge
  | sharingViolation => .sharingViolation
  | lockConflict => .fileLockConflict
  | invalidHandle => .invalidHandle
  | notSupported => .notSupported
  | readOnly => .mediaWriteProtected
  | crossDevice => .notSameDevice
  | nameTooLong => .nameTooLong
  | backend | io => .internalError

/-- A backend's handle. -/
structure FileHandle where
  persistentId : HandleId
  volatileId : HandleId
  backendInternalId : Option UInt64
  deriving DecidableEq

/-- What an open asks a backend for. -/
structure CreateParams where
  desiredAccess : UInt32
  shareAccess : UInt32
  createDisposition : UInt32
  createOptions : UInt32
  fileAttributes : UInt32
  deriving DecidableEq

inductive FileType where
  | regular
  | directory
  | symlink
  | blockDevice
  | charDevice
  | fifo
  | socket
  deriving DecidableEq, Repr

/-- What a backend knows about a file.  Times are nanoseconds since 1970. -/
structure Metadata where
  fileType : FileType
  size : UInt64
  blocks : UInt64
  mode : UInt32
  ino : UInt64
  atime : ℕ
  mtime : ℕ
  deriving DecidableEq

/-- One entry of a listing. -/
structure DirEntry where
  name : String
  metadata : Metadata
  deriving DecidableEq

/-- A range to lock or unlock. -/
structure FileLock where
  exclusive : Bool
  start : UInt64
  length : UInt64
  pid : UInt32
  deriving DecidableEq

/-- The sizes of a file system. -/
structure FsStats where
  blocks : UInt64
  blocksFree : UInt64
  blocksAvailable : UInt64
  blockSize : UInt32
  fsid : UInt64
  deriving DecidableEq

/-- The calls on a backend. -/
inductive BackendOp where
  | open (path : String) (params : CreateParams)
  | read (handle : FileHandle) (offset : UInt64) (length : UInt32)
  | write (handle : FileHandle) (offset : UInt64) (data : Bytes)
  | close (handle : FileHandle)
  | stat (path : String)
  | chmod (path : String) (mode : UInt32)
  | truncate (path : String) (size : UInt64)
  | utimes (path : String) (atime mtime : ℕ)
  | readdir (path : String)
  | unlink (path : String)
  | rename (oldPath newPath : String)
  | lock (handle : FileHandle) (lock : FileLock)
  | unlock (handle : FileHandle) (lock : FileLock)
  | statfs

namespace BackendOp

/-- What a call returns if it succeeds. -/
abbrev Value : BackendOp → Type
  | .open _ _ => FileHandle
  | read _ _ _ => Bytes
  | write _ _ _ => UInt32
  | stat _ => Metadata
  | readdir _ => List DirEntry
  | statfs => FsStats
  | _ => Unit

abbrev Res (o : BackendOp) : Type := Except VfsError o.Value

end BackendOp

/-- An implementation of the backend methods on a state `β`. -/
class StorageBackend (β : Type) where
  /-- Answer one call. -/
  answer : (o : BackendOp) → β → o.Res × β

end RustSmb
