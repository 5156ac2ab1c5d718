import RustSmb.Server.FileIo
import RustSmb.Vfs.Paths

/-!
# QUERY_DIRECTORY, QUERY_INFO and SET_INFO

The information that the server reports about files and file systems is built from the
backend's metadata; what a client sets is passed to the backend or recorded on the
handle.

## Main definitions

* `buildDirectoryInfo`, `buildFileInfo`, `buildFsInfo`, `buildSecurityInfo` — the reported
  bytes, `fileInfoMinSize` and `fsInfoMinSize` — the smallest buffers accepted for them.
* `Handler.handleQueryDirectory`, `Handler.handleQueryInfo`, `Handler.handleSetInfo`.
* `Visits` — following a listing from record to record.

## Main results

* `buildDirectoryInfo_visits` — a listing is read as it was built.

Source: `rustsmb-server/src/handler.rs`, `rustsmb-server/src/helpers/info_builders.rs`,
`rustsmb-server/src/helpers/time.rs`, `rustsmb-server/src/helpers/strings.rs`.
-/

namespace RustSmb

open Proc List Bytes

/-! ### Reported information -/

/-- The smallest buffer for a file information class; zero for classes without one. -/
def fileInfoMinSize (infoClass : UInt8) : UInt32 :=
  match infoClass.toNat with
  | 4 => 40
  | 5 => 24
  | 6 => 8
  | 7 => 4
  | 8 => 4
  | 14 => 8
  | 16 => 4
  | 17 => 4
  | 18 => 96
  | 34 => 56
  | _ => 0

/-- The smallest buffer for a file system information class. -/
def fsInfoMinSize (infoClass : UInt8) : UInt32 :=
  match infoClass.toNat with
  | 1 => 18
  | 3 => 24
  | 4 => 8
  | 5 => 12
  | 7 => 32
  | _ => 0

/-- The attributes of a file. -/
def fileAttributesFromMetadata (m : Metadata) : UInt32 :=
  (if m.fileType == .directory then 0x10 else 0x20) ||| (if m.mode &&& 0o222 = 0 then 0x01 else 0)

/-- The bytes of one directory entry.  All but the last are padded to a multiple of eight. -/
def directoryEntry (time : UInt64) (isLast : Bool) (entry : DirEntry) : Bytes :=
  let name := Utf16.bytes entry.name
  let entrySize := 94 + name.length
  let nextOffset := if isLast then 0 else (entrySize + 7) / 8 * 8
  ofU32 (UInt32.ofNat nextOffset) ++ ofU32 0 ++ ofU64 time ++
    ofU64 time ++ ofU64 time ++ ofU64 time ++
    ofU64 entry.metadata.size ++ ofU64 entry.metadata.size ++
    ofU32 (fileAttributesFromMetadata entry.metadata) ++
    ofU32 (UInt32.ofNat name.length) ++ ofU32 0 ++ [0, 0] ++ zeros 24 ++ name ++
    zeros (nextOffset - entrySize)

/-- A chain of directory entries. -/
def buildDirectoryInfo (time : UInt64) : List DirEntry → Bytes
  | [] => []
  | [entry] => directoryEntry time true entry
  | entry :: next :: rest =>
      directoryEntry time false entry ++ buildDirectoryInfo time (next :: rest)

/-- The times and attributes of a file. -/
def fileBasicInfo (time : UInt64) (m : Metadata) : Bytes :=
  ofU64 time ++ ofU64 time ++ ofU64 time ++ ofU64 time ++
    ofU32 (fileAttributesFromMetadata m) ++ ofU32 0

/-- The sizes of a file. -/
def fileStandardInfo (m : Metadata) : Bytes :=
  ofU64 m.size ++ ofU64 m.size ++ ofU32 1 ++
    [0, if m.fileType == .directory then 1 else 0] ++ zeros 2

/-- The information about a file in some class. -/
def buildFileInfo (time : UInt64) (m : Metadata) (infoClass : UInt8) (position : UInt64)
    (accessMask : UInt32) : Bytes :=
  match infoClass.toNat with
  | 4 => fileBasicInfo time m
  | 5 => fileStandardInfo m
  | 18 =>
      fileBasicInfo time m ++ fileStandardInfo m ++ ofU64 0 ++ ofU32 0 ++
        ofU32 0 ++ ofU64 position ++ ofU32 0 ++ ofU32 0 ++ ofU32 0
  | 8 => ofU32 accessMask
  | 14 => ofU64 position
  | _ => zeros 8

/-- The information about a file system in some class. -/
def buildFsInfo (time : UInt64) (fs : FsStats) (infoClass : UInt8) : Bytes :=
  match infoClass.toNat with
  | 1 =>
      ofU64 time ++ (ofU64 fs.fsid).take 4 ++ ofU32 14 ++ [0, 0] ++
        Utf16.bytes "RustSMB"
  | 3 =>
      ofU64 fs.blocks ++ ofU64 fs.blocksAvailable ++ ofU32 1 ++
        ofU32 fs.blockSize
  | 4 => ofU32 0x00000007 ++ ofU32 0x00000020
  | 5 => ofU32 0x00000003 ++ ofU32 255 ++ ofU32 8 ++ Utf16.bytes "NTFS"
  | 7 =>
      ofU64 fs.blocks ++ ofU64 fs.blocksAvailable ++ ofU64 fs.blocksFree ++
        ofU32 1 ++ ofU32 fs.blockSize
  | _ => zeros 8

/-- The bytes of a security descriptor: an empty access list if one is asked for. -/
def buildSecurityInfo (additionalInfo : UInt32) : Bytes :=
  [1, 0] ++ ofU16 0x8004 ++ zeros 12 ++
    (if additionalInfo &&& 0x04 ≠ 0 then
      ofU32 20 ++ [2, 0] ++ ofU16 8 ++ ofU16 0 ++ ofU16 0
    else ofU32 0)

/-- What a request for information is about. -/
inductive InfoType where
  | file
  | fileSystem
  | security
  | quota
  deriving DecidableEq, Repr

/-- The type with a code. -/
def InfoType.ofCode (code : UInt8) : Option InfoType :=
  match code.toNat with
  | 1 => some file
  | 2 => some fileSystem
  | 3 => some security
  | 4 => some quota
  | _ => none

/-- The smallest buffer for a request. -/
def queryInfoMinSize (infoType : InfoType) (infoClass : UInt8) : UInt32 :=
  match infoType with
  | .file => fileInfoMinSize infoClass
  | .fileSystem => fsInfoMinSize infoClass
  | .security => 20
  | .quota => 0

/-- The classes in which a directory can be listed. -/
def directoryInfoClasses : List UInt8 := [1, 2, 3, 12, 37, 38, 60]

/-- Seconds since 1970 of a FILETIME. -/
def filetimeToUnix (filetime : UInt64) : ℕ := filetime.toNat / 10000000 - 11644473600

/-- The text up to a zero unit. -/
def parseUtf16String (b : Bytes) : String :=
  Utf16.decodeLossy ((Utf16.units b).takeWhile (· != 0))

/-! ### Reading a listing -/

section Listing

open Bytes

/-- The entry of a file stands at an offset. -/
structure HoldsEntry (b : Bytes) (off : ℕ) (entry : DirEntry) : Prop where
  aligned : off % 8 = 0
  endOfFile : b.u64 (off + 40) = entry.metadata.size
  allocationSize : b.u64 (off + 48) = entry.metadata.size
  nameLength : (b.u32 (off + 60)).toNat = (Utf16.bytes entry.name).length
  name : Utf16.decode (Utf16.units (b.slice (off + 94) (b.u32 (off + 60)).toNat)) =
    some entry.name

/-- Following NextEntryOffset from an offset on visits one record for each entry; it is 0 in the
last one only. -/
def Visits (b : Bytes) (off : ℕ) : List DirEntry → Prop
  | [] => off = b.length
  | [entry] => HoldsEntry b off entry ∧ b.u32 off = 0 ∧
      off + 94 + (b.u32 (off + 60)).toNat = b.length
  | entry :: rest => HoldsEntry b off entry ∧ b.u32 off ≠ 0 ∧
      Visits b (off + (b.u32 off).toNat) rest

variable (time : UInt64) {entry : DirEntry} {before name : Bytes}

theorem directoryEntry_spec (isLast : Bool) (after : Bytes)
    (hname : name = Utf16.bytes entry.name) (hprev : before.length % 8 = 0)
    (hsize : name.length < UInt32.size) :
    HoldsEntry (before ++ (directoryEntry time isLast entry ++ after)) before.length entry ∧
      (before ++ (directoryEntry time isLast entry ++ after)).u32 before.length =
        UInt32.ofNat (if isLast then 0 else (94 + name.length + 7) / 8 * 8) := by
  subst hname
  have hlength : ((before ++ (directoryEntry time isLast entry ++ after)).u32
      (before.length + 60)).toNat = (Utf16.bytes entry.name).length := by
    rw [← UInt32.toNat_ofNat_of_lt' hsize]
    simp [directoryEntry, u32_append_of_le, u32_ofU32_append]
  refine ⟨⟨hprev, ?_, ?_, hlength, ?_⟩, ?_⟩
  · simp [directoryEntry, u64_append_of_le, u64_ofU64_append]
  · simp [directoryEntry, u64_append_of_le, u64_ofU64_append]
  · rw [hlength, ← Utf16.decode_units_bytes entry.name]
    simp [directoryEntry, slice, drop_append, drop_of_length_le]
  · simp [directoryEntry, u32_append_of_le, u32_ofU32_append]

theorem visits_append {entries : List DirEntry} (hprev : before.length % 8 = 0)
    (hsize : (before ++ buildDirectoryInfo time entries).length < UInt32.size) :
    Visits (before ++ buildDirectoryInfo time entries) before.length entries := by
  induction entries generalizing before with
  | nil => simp [Visits, buildDirectoryInfo]
  | cons entry rest ih =>
    generalize hname : Utf16.bytes entry.name = name
    cases rest with
    | nil =>
      have hlen : (directoryEntry time true entry).length = 94 + name.length := by
        simp [directoryEntry, hname]
        omega
      rw [buildDirectoryInfo] at hsize ⊢
      rw [length_append, hlen] at hsize
      obtain ⟨hholds, hnext⟩ := directoryEntry_spec time true [] hname.symm hprev (by omega)
      rw [append_nil] at hholds hnext
      refine ⟨hholds, hnext, ?_⟩
      rw [hholds.nameLength, length_append, hlen, hname, Nat.add_assoc]
    | cons next rest =>
      have hlen : (directoryEntry time false entry).length = (94 + name.length + 7) / 8 * 8 := by
        simp [directoryEntry, hname]
        omega
      rw [buildDirectoryInfo] at hsize ⊢
      have hbound := hsize
      rw [length_append, length_append, hlen] at hbound
      obtain ⟨hholds, hnext⟩ := directoryEntry_spec time false
        (buildDirectoryInfo time (next :: rest)) hname.symm hprev (by omega)
      have hdist := congrArg UInt32.toNat hnext
      rw [if_neg Bool.false_ne_true, UInt32.toNat_ofNat_of_lt' (by omega), ← hlen] at hdist
      refine ⟨hholds, fun hzero => ?_, ?_⟩
      · rw [hzero, hlen] at hdist
        exact absurd hdist (by simp; omega)
      · rw [hdist, ← append_assoc, ← length_append]
        rw [← append_assoc] at hsize
        exact ih (by rw [length_append, hlen]; omega) hsize

/-- **A listing is read as it was built**: following NextEntryOffset visits one aligned record
for each entry, in order, with its name and its size. -/
theorem buildDirectoryInfo_visits (entries : List DirEntry)
    (hsize : (buildDirectoryInfo time entries).length < UInt32.size) :
    Visits (buildDirectoryInfo time entries) 0 entries :=
  @visits_append time [] entries rfl hsize

/-- A file and a directory. -/
theorem buildDirectoryInfo_visits_two :
    Visits (buildDirectoryInfo 0
      [⟨"a", ⟨.regular, 5, 1, 0, 7, 0, 0⟩⟩, ⟨"bc", ⟨.directory, 0, 1, 0, 8, 0, 0⟩⟩]) 0
      [⟨"a", ⟨.regular, 5, 1, 0, 7, 0, 0⟩⟩, ⟨"bc", ⟨.directory, 0, 1, 0, 8, 0, 0⟩⟩] :=
  buildDirectoryInfo_visits 0 _ (by decide +kernel)

end Listing

namespace Handler

variable [Externs]

/-! ### QUERY_DIRECTORY -/

/-- List the directory of a handle that was found. -/
def queryDirectoryHandle (header : Smb2Header) (handle : HandleState) : Handler Response := do
  let share ← treeBackend header.sessionId header.treeId .invalidParameter
  let entries : List DirEntry ← backend share (.readdir handle.path) >>= orVfs
  let time ← currentFiletime
  let output := buildDirectoryInfo time entries
  respond header
    (ofU16 9 ++ ofU16 72 ++ ofU32 (UInt32.ofNat output.length) ++ output)

/-- QUERY_DIRECTORY. -/
def handleQueryDirectory (header : Smb2Header) (body : Bytes) : Handler Response := do
  require (32 ≤ body.length && directoryInfoClasses.contains (body.u8 2)) .protocol
  validateCreditCharge header (body.u32 28)
  let handle ← ownedHandle header (fileIdAt body 8) .invalidHandle
  queryDirectoryHandle header handle

/-! ### QUERY_INFO -/

/-- The information that is asked for. -/
def queryInfoOutput (share : String) (infoType : InfoType) (body : Bytes) (handle : HandleState) :
    Handler Bytes :=
  match infoType with
  | .file => do
      let metadata : Metadata ← backend share (.stat handle.path) >>= orVfs
      let time ← currentFiletime
      pure (buildFileInfo time metadata (body.u8 3) handle.fileOffset handle.accessMask)
  | .fileSystem => do
      let fsStats : FsStats ← backend share .statfs >>= orVfs
      let time ← currentFiletime
      pure (buildFsInfo time fsStats (body.u8 3))
  | .security => pure (buildSecurityInfo (body.u32 16))
  | .quota => fail .notSupported

/-- Information about a handle that was found. -/
def queryInfoHandle (header : Smb2Header) (body : Bytes) (infoType : InfoType)
    (handle : HandleState) : Handler Response := do
  let share ← treeBackend header.sessionId header.treeId .invalidParameter
  let output ← queryInfoOutput share infoType body handle
  require (!(UInt32.ofNat output.length > body.u32 4)) (.status .bufferTooSmall)
  respond header
    (ofU16 9 ++ ofU16 72 ++ ofU32 (UInt32.ofNat output.length) ++ output)

/-- QUERY_INFO. -/
def handleQueryInfo (header : Smb2Header) (body : Bytes) : Handler Response := do
  require (40 ≤ body.length) .protocol
  let infoType ← parsed (InfoType.ofCode (body.u8 2))
  validateCreditCharge header (body.u32 4)
  let minSize := queryInfoMinSize infoType (body.u8 3)
  require (!(minSize > 0 && body.u32 4 < minSize)) (.status .infoLengthMismatch)
  let handle ← ownedHandle header (fileIdAt body 24) .invalidHandle
  queryInfoHandle header body infoType handle

/-! ### SET_INFO -/

/-- Set the times of a file; zero and all ones leave a time as it is. -/
def setTimes (share path : String) (accessTime writeTime : UInt64) : Handler Unit :=
  let given (t : UInt64) : Bool := t != 0 && t != 0xFFFFFFFFFFFFFFFF
  when (given accessTime || given writeTime) (do
    let m : Metadata ← backend share (.stat path) >>= orVfs
    let atime := if given accessTime then filetimeToUnix accessTime * 1000000000 else m.atime
    let mtime := if given writeTime then filetimeToUnix writeTime * 1000000000 else m.mtime
    backend share (.utimes path atime mtime) >>= orVfs)

/-- Set times and the read-only attribute. -/
def setBasicInfo (share : String) (handle : HandleState) (buffer : Bytes) : Handler Unit := do
  require (40 ≤ buffer.length) (.status .invalidParameter)
  setTimes share handle.path (buffer.u64 8) (buffer.u64 16)
  when (buffer.u32 32 != 0)
    (applyReadonlyAttribute share handle.path (buffer.u32 32 &&& 0x01 != 0))

/-- The path that a rename leads to: a relative name stays in the directory. -/
def renameTarget (path newName : String) : String :=
  let newPath := normalizeSlashes newName
  if ['/'].isPrefixOf newPath.toList then newPath
  else
    match pathParent path with
    | some parent => parent ++ "/" ++ newPath
    | none => "/" ++ newPath

/-- A rename that must not replace anything stops if the target exists. -/
def checkRenameTarget (share newPath : String) (replaceIfExists : Bool) : Handler Unit :=
  if replaceIfExists then pure ()
  else do
    match ← backend share (.stat newPath) with
    | .ok _ => fail .objectNameCollision
    | .error .notFound | .error .invalidPath => pure ()
    | .error _ => throw .vfs

/-- Rename a file. -/
def setRenameInfo (share : String) (handle : HandleState) (buffer : Bytes) : Handler Unit := do
  require (20 ≤ buffer.length) (.status .invalidParameter)
  let nameLength := (buffer.u32 16).toNat
  require (20 + nameLength ≤ buffer.length) (.status .invalidParameter)
  let newPath := renameTarget handle.path (parseUtf16String (buffer.slice 20 nameLength))
  checkRenameTarget share newPath (buffer.u8 0 != 0)
  backend share (.rename handle.path newPath) >>= orVfs
  storeOrInternal (.updateHandle { handle with path := newPath })

/-- Set information about a file. -/
def handleSetFileInfo (share : String) (handle : HandleState) (infoClass : UInt8)
    (buffer : Bytes) : Handler Unit :=
  match infoClass.toNat with
  | 4 => setBasicInfo share handle buffer
  | 13 => do
      require (!buffer.isEmpty) (.status .invalidParameter)
      when (buffer.u8 0 != 0)
        (storeOrInternal (.updateHandle { handle with deleteOnClose := true }))
  | 10 => setRenameInfo share handle buffer
  | 20 | 19 => do
      require (8 ≤ buffer.length) (.status .invalidParameter)
      backend share (.truncate handle.path (buffer.u64 0)) >>= orVfs
  | 14 =>
      when (8 ≤ buffer.length)
        (storeOrInternal (.updateHandle { handle with fileOffset := buffer.u64 0 }))
  | 16 => pure ()
  | _ => fail .notSupported

/-- Set information of some type. -/
def applySetInfo (share : String) (infoType : InfoType) (handle : HandleState)
    (infoClass : UInt8) (buffer : Bytes) : Handler Unit :=
  match infoType with
  | .file => handleSetFileInfo share handle infoClass buffer
  | .fileSystem => fail .notSupported
  | .security => pure ()
  | .quota => fail .notSupported

/-- Set information about a handle that was found. -/
def setInfoHandle (header : Smb2Header) (body : Bytes) (infoType : InfoType)
    (handle : HandleState) : Handler Response := do
  let share ← treeBackend header.sessionId header.treeId .invalidParameter
  let start := if body.u16 8 > 64 then (body.u16 8).toNat - 64 else 33
  let length := (body.u32 4).toNat
  require (start + length ≤ body.length) (.status .invalidParameter)
  applySetInfo share infoType handle (body.u8 3) (body.slice start length)
  respond header (ofU16 2)

/-- SET_INFO. -/
def handleSetInfo (header : Smb2Header) (body : Bytes) : Handler Response := do
  require (32 ≤ body.length) .protocol
  let infoType ← parsed (InfoType.ofCode (body.u8 2))
  require (body.u32 4 != 0) (.status .invalidParameter)
  let handle ← ownedHandle header (fileIdAt body 16) .invalidHandle
  setInfoHandle header body infoType handle

end Handler

end RustSmb
