import RustSmb.Cached.Cache

/-!
# The store with a cache

A store with a cache passes its methods on to another store.  It caches what it writes there,
removes what it deletes there, and caches what it had to read there.  Nothing ties the two parts
together: other operations may come in between.

## Main definitions

* `Method`, `Bulk`, `Bulk.answer` — all methods of a store, and the store in memory.
* `CacheCall`, `World`, `World.answer` — the calls that the store with a cache makes, and their
  answers.
* `putRecord`, `writeThrough`, `removeThrough`, `readThrough`, `program` — the methods of the store
  with a cache.

Source: `rustsmb-state-cached/src/lib.rs`, `rustsmb-state-memory/src/lib.rs`.
-/

namespace RustSmb.Cached

/-! ### All methods of a store -/

/-- A byte-range lock as the slower store keeps it. -/
structure LockState where
  lockId : UInt64
  persistentId : HandleId
  offset : UInt64
  length : UInt64
  exclusive : Bool
  flags : UInt32
  createdAt : UInt64
  deriving DecidableEq

/-- The methods of a store: those that the server uses, and the others. -/
inductive Method where
  | store (o : StoreOp)
  | updateSession (session : SessionState)
  | listSessions (userId : Option String)
  | createLock (lock : LockState)
  | getLocks (persistentId : HandleId)
  | deleteLock (lockId : UInt64)
  | acquireDistributedLock (key : String)
  | releaseDistributedLock (key token : String)
  | extendDistributedLock (key token : String)
  | createLease (lease : LeaseEntry)
  | releaseFileLocksForSession (sessionId : UInt64)

namespace Method

/-- What a method returns. -/
abbrev Value : Method → Type
  | store o => o.Value
  | listSessions _ => List SessionState
  | getLocks _ => List LockState
  | acquireDistributedLock _ => Option String
  | extendDistributedLock _ _ => Bool
  | _ => Unit

/-- What a method returns, or an error. -/
abbrev Res (m : Method) : Type := Except StateError m.Value

end Method

/-- A reading of the clock. -/
structure Reading where
  secs : UInt64
  nanos : ℕ
  deriving DecidableEq

/-- A number in hexadecimal with 32 digits. -/
def uuidV4 (t : Reading) : String :=
  let digits := Nat.toDigits 16 t.nanos
  String.ofList (List.replicate (32 - digits.length) '0' ++ digits)

/-- The store in memory, with all that it keeps. -/
structure Bulk where
  store : MemoryStateStore
  locks : Table UInt64 LockState
  distributedLocks : Table String String

namespace Bulk

/-- A store without records. -/
def new : Bulk := ⟨.new, ∅, ∅⟩

/-- What the store answers at some time. -/
def answer (t : Reading) : (m : Method) → Bulk → m.Res × Bulk
  | .store o, b =>
      ((MemoryStateStore.answer t.secs o b.store).1,
        { b with store := (MemoryStateStore.answer t.secs o b.store).2 })
  | .updateSession session, b =>
      (.ok (), { b with store :=
        { b.store with sessions := b.store.sessions.insert session.sessionId session } })
  | .listSessions userId, b =>
      (.ok (b.store.sessions.values.filter fun s => userId.all fun u => s.userId == u), b)
  | .createLock lock, b => (.ok (), { b with locks := b.locks.insert lock.lockId lock })
  | .getLocks id, b => (.ok (b.locks.values.filter fun l => l.persistentId == id), b)
  | .deleteLock id, b => (.ok (), { b with locks := b.locks.erase id })
  | .acquireDistributedLock key, b =>
      if (b.distributedLocks.lookup key).isSome then (.ok none, b)
      else (.ok (some (uuidV4 t)),
        { b with distributedLocks := b.distributedLocks.insert key (uuidV4 t) })
  | .releaseDistributedLock key token, b =>
      if b.distributedLocks.lookup key = some token then
        (.ok (), { b with distributedLocks := b.distributedLocks.erase key })
      else (.ok (), b)
  | .extendDistributedLock key token, b =>
      (.ok (decide (b.distributedLocks.lookup key = some token)), b)
  | .createLease lease, b =>
      if (b.store.leases.lookup lease.leaseKey).isSome then (.error .alreadyExists, b)
      else (.ok (), { b with store :=
        { b.store with leases := b.store.leases.insert lease.leaseKey lease } })
  | .releaseFileLocksForSession id, b =>
      (.ok (), { b with store :=
        { b.store with fileLocks := b.store.fileLocks.retain fun _ l => l.sessionId != id } })

/-- The record under a key. -/
def record (b : Bulk) : RecordKey → Option Record
  | .session id => (b.store.sessions.lookup id).map .session
  | .handle id => (b.store.handles.lookup id).map .handle
  | .tree sid tid => (b.store.trees.lookup (sid, tid)).map .tree

end Bulk

/-! ### What the methods of the store in memory change -/

/-- The record that a method writes. -/
def Method.writes : Method → Option RecordKey
  | store (.createSession s) | updateSession s => some (.session s.sessionId)
  | store (.deleteSession id) | store (.refreshSession id _) => some (.session id)
  | store (.createTree t) => some (.tree t.sessionId t.treeId)
  | store (.deleteTree sid tid) => some (.tree sid tid)
  | store (.createHandle h) | store (.updateHandle h) => some (.handle h.persistentId)
  | store (.deleteHandle id) => some (.handle id)
  | _ => none

namespace Bulk

/-- Sessions, trees and handles are filed under their own keys. -/
structure Named (b : Bulk) : Prop where
  sessions : b.store.sessions.KeyedBy SessionState.sessionId
  trees : b.store.trees.KeyedBy fun t => (t.sessionId, t.treeId)
  handles : b.store.handles.KeyedBy HandleState.persistentId

theorem named_new : Named .new := ⟨.empty, .empty, .empty⟩

theorem Named.key_eq {b : Bulk} (h : b.Named) {key : RecordKey} {r : Record}
    (hr : b.record key = some r) : r.key = key := by
  cases key with
  | session id =>
    obtain ⟨s, hs, rfl⟩ := Option.map_eq_some_iff.1 hr
    exact congrArg RecordKey.session (h.sessions _ _ hs)
  | handle id =>
    obtain ⟨s, hs, rfl⟩ := Option.map_eq_some_iff.1 hr
    exact congrArg RecordKey.handle (h.handles _ _ hs)
  | tree sid tid =>
    obtain ⟨s, hs, rfl⟩ := Option.map_eq_some_iff.1 hr
    have heq := h.trees _ _ hs
    rw [Prod.mk.injEq] at heq
    exact congrArg₂ RecordKey.tree heq.1 heq.2

theorem tables_answer {m : Method} (hm : m.writes = none) (t : Reading) (b : Bulk) :
    (b.answer t m).2.store.sessions = b.store.sessions ∧
      (b.answer t m).2.store.trees = b.store.trees ∧
      (b.answer t m).2.store.handles = b.store.handles := by
  cases m with
  | store o =>
    cases o with
    | createSession | deleteSession | refreshSession | createTree | deleteTree | createHandle
    | updateHandle | deleteHandle => cases hm
    | acquireFileLock lock =>
      dsimp only [answer, MemoryStateStore.answer, MemoryStateStore.acquireFileLock]
      split <;> exact ⟨rfl, rfl, rfl⟩
    | _ => exact ⟨rfl, rfl, rfl⟩
  | updateSession => cases hm
  | acquireDistributedLock _ | releaseDistributedLock _ _ =>
    dsimp only [answer]
    split <;> exact ⟨rfl, rfl, rfl⟩
  | createLease lease =>
    dsimp only [answer]
    split <;> exact ⟨rfl, rfl, rfl⟩
  | _ => exact ⟨rfl, rfl, rfl⟩

theorem Named.answer {b : Bulk} (h : b.Named) (t : Reading) (m : Method) :
    (b.answer t m).2.Named := by
  cases hm : m.writes with
  | none =>
    obtain ⟨hs, ht, hh⟩ := tables_answer hm t b
    exact ⟨hs ▸ h.sessions, ht ▸ h.trees, hh ▸ h.handles⟩
  | some key =>
    cases m with
    | updateSession s => exact ⟨h.sessions.insert s, h.trees, h.handles⟩
    | store o =>
      cases o with
      | createSession s => exact ⟨h.sessions.insert s, h.trees, h.handles⟩
      | deleteSession id => exact ⟨h.sessions.erase id, h.trees, h.handles⟩
      | refreshSession id ttl =>
        dsimp only [Bulk.answer, MemoryStateStore.answer, MemoryStateStore.refreshSession]
        split
        · next s hs =>
          -- the refreshed session is still the one with this identifier
          have hid : s.sessionId = id := h.sessions _ _ hs
          subst hid
          exact ⟨h.sessions.insert { s with lastAccess := t.secs, expiresAt := t.secs + ttl },
            h.trees, h.handles⟩
        · exact h
      | createTree tree => exact ⟨h.sessions, h.trees.insert tree, h.handles⟩
      | deleteTree sid tid => exact ⟨h.sessions, h.trees.erase (sid, tid), h.handles⟩
      | createHandle handle | updateHandle handle =>
        exact ⟨h.sessions, h.trees, h.handles.insert handle⟩
      | deleteHandle id => exact ⟨h.sessions, h.trees, h.handles.erase id⟩
      | _ => cases hm
    | _ => cases hm

section Lookup

variable {κ ν : Type} [DecidableEq κ] {l : Table κ ν} {k k' : κ} {v : ν} {wrap : ν → Record}

theorem lookupMap_insert : ((AList.insert k v l).lookup k).map wrap = some (wrap v) := by
  rw [AList.lookup_insert]
  rfl

theorem lookupMap_insert_ne (h : k' ≠ k) :
    ((AList.insert k v l).lookup k').map wrap = (l.lookup k').map wrap := by
  rw [AList.lookup_insert_ne h]

theorem lookupMap_erase_ne (h : k' ≠ k) :
    ((AList.erase k l).lookup k').map wrap = (l.lookup k').map wrap := by
  rw [AList.lookup_erase_ne h]

end Lookup

/-- **A method changes only the record under its key.** -/
theorem record_answer {m : Method} {key : RecordKey} (hm : m.writes ≠ some key) (t : Reading)
    (b : Bulk) : (b.answer t m).2.record key = b.record key := by
  cases hwrites : m.writes with
  | none =>
    obtain ⟨hs, ht, hh⟩ := tables_answer hwrites t b
    cases key with
    | session id => exact congrArg (fun l => (l.lookup id).map Record.session) hs
    | handle id => exact congrArg (fun l => (l.lookup id).map Record.handle) hh
    | tree sid tid => exact congrArg (fun l => (l.lookup (sid, tid)).map Record.tree) ht
  | some key' =>
    cases m with
    | updateSession s =>
      cases key with
      | session id => exact lookupMap_insert_ne fun heq => hm (by cases heq; rfl)
      | _ => rfl
    | store o =>
      cases o with
      | createSession s =>
        cases key with
        | session id => exact lookupMap_insert_ne fun heq => hm (by cases heq; rfl)
        | _ => rfl
      | deleteSession id' =>
        cases key with
        | session id => exact lookupMap_erase_ne fun heq => hm (by cases heq; rfl)
        | _ => rfl
      | refreshSession id' ttl =>
        dsimp only [Bulk.answer, MemoryStateStore.answer, MemoryStateStore.refreshSession]
        split
        · cases key with
          | session id => exact lookupMap_insert_ne fun heq => hm (by cases heq; rfl)
          | _ => rfl
        · rfl
      | createTree tree =>
        cases key with
        | tree sid tid => exact lookupMap_insert_ne fun heq => hm (by cases heq; rfl)
        | _ => rfl
      | deleteTree sid' tid' =>
        cases key with
        | tree sid tid => exact lookupMap_erase_ne fun heq => hm (by cases heq; rfl)
        | _ => rfl
      | createHandle handle | updateHandle handle =>
        cases key with
        | handle id => exact lookupMap_insert_ne fun heq => hm (by cases heq; rfl)
        | _ => rfl
      | deleteHandle id' =>
        cases key with
        | handle id => exact lookupMap_erase_ne fun heq => hm (by cases heq; rfl)
        | _ => rfl
      | _ => cases hwrites
    | _ => cases hwrites

end Bulk

/-! ### Calls -/

/-- The calls of a method: to the slower store and to the cache. -/
inductive CacheCall where
  | bulk (m : Method) (t : Reading)
  | get (key : RecordKey)
  | loadEpoch
  | instantNow
  | put (data : Record) (epoch : UInt64) (cachedAt : ℕ)
  | remove (key : RecordKey)
  | setEpoch (epoch : UInt64)
  | invalidateAll

/-- What a call returns. -/
abbrev CacheCall.Res : CacheCall → Type
  | bulk m _ => m.Res
  | get _ => Option Record
  | loadEpoch => UInt64
  | instantNow => ℕ
  | _ => Unit

/-- The calls as a signature. -/
abbrev CacheSig : Signature := ⟨CacheCall, CacheCall.Res⟩

/-- The cache, the store behind it and the time. -/
structure World where
  cache : LocalCache
  bulk : Bulk
  instant : ℕ

/-- What a call returns, and the world after it. -/
def World.answer : (o : CacheCall) → World → o.Res × World
  | .bulk m t, w => ((w.bulk.answer t m).1, { w with bulk := (w.bulk.answer t m).2 })
  | .get key, w => ((w.cache.get key w.instant).1,
      { w with cache := (w.cache.get key w.instant).2 })
  | .loadEpoch, w => (w.cache.currentEpoch, w)
  | .instantNow, w => (w.instant, w)
  | .put data epoch cachedAt, w =>
      ((), { w with cache := w.cache.put ⟨data, epoch, cachedAt, w.cache.config.defaultTtl⟩ })
  | .remove key, w => ((), { w with cache := w.cache.remove key })
  | .setEpoch epoch, w => ((), { w with cache := w.cache.setEpoch epoch })
  | .invalidateAll, w => ((), { w with cache := w.cache.invalidateAll })

/-- A call is answered by the world. -/
def World.Step (w : World) (o : CacheCall) (r : o.Res) (w' : World) : Prop := w.answer o = (r, w')

theorem World.Step.world_eq {w w' : World} {o : CacheCall} {r : o.Res} (h : World.Step w o r w') :
    w' = (w.answer o).2 := (congrArg Prod.snd h).symm

theorem World.Step.res_eq {w w' : World} {o : CacheCall} {r : o.Res} (h : World.Step w o r w') :
    r = (w.answer o).1 := (congrArg Prod.fst h).symm

theorem World.Step.entry {w w' : World} {o : CacheCall} {r : o.Res} {key : RecordKey}
    {e : CacheEntry} (h : World.Step w o r w') (he : w'.cache.entry key = some e) :
    w.cache.entry key = some e ∨
      ∃ cachedAt, o = .put e.data e.epoch cachedAt ∧ e.data.key = key := by
  obtain rfl := h.world_eq
  cases o with
  | get key' => exact .inl (LocalCache.entry_get he)
  | put data epoch cachedAt =>
    rcases LocalCache.entry_put he with ⟨rfl, rfl⟩ | ⟨-, hold⟩
    · exact .inr ⟨cachedAt, rfl, rfl⟩
    · exact .inl hold
  | remove key' =>
    have he : (w.cache.remove key').entry key = some e := he
    rw [LocalCache.entry_remove] at he
    split at he
    · cases he
    · exact .inl he
  | _ => exact .inl he

/-! ### Methods -/

/-- A method of the store with a cache. -/
abbrev CachedProc (α : Type) : Type := Proc CacheSig Unit StateError α

open Proc

/-- A method of the slower store. -/
def bulk (m : Method) (t : Reading) : CachedProc m.Value := do
  let r ← perform (S := CacheSig) (.bulk m t)
  ofExcept r

/-- Cache a record.  The epoch is read first, then the time; the entry is put only then. -/
def putRecord (data : Record) : CachedProc Unit := do
  let epoch ← perform (S := CacheSig) .loadEpoch
  let cachedAt ← perform (S := CacheSig) .instantNow
  perform (S := CacheSig) (.put data epoch cachedAt)

section Program

variable (hasCache : Bool)

/-- Write a record, then put it into the cache. -/
def writeThrough (m : Method) (t : Reading) (data : Record) : CachedProc m.Value := do
  let r ← bulk m t
  when hasCache (putRecord data)
  pure r

/-- Remove a record, then drop it from the cache. -/
def removeThrough (m : Method) (t : Reading) (key : RecordKey) : CachedProc m.Value := do
  let r ← bulk m t
  when hasCache (perform (S := CacheSig) (.remove key))
  pure r

/-- Look a record up in the cache, if there is one. -/
def lookUp {α : Type} (key : RecordKey) (unwrap : Record → Option α) : CachedProc (Option α) :=
  if hasCache then do
    let found ← perform (S := CacheSig) (.get key)
    pure (found.bind unwrap)
  else pure none

/-- Look a record up in the cache; if it is not there, read it from the other store and cache it. -/
def readThrough {α : Type} (key : RecordKey) (wrap : α → Record) (unwrap : Record → Option α)
    (read : CachedProc (Option α)) : CachedProc (Option α) := do
  match ← lookUp hasCache key unwrap with
  | some a => pure (some a)
  | none => do
      match ← read with
      | some a => do
          when hasCache (putRecord (wrap a))
          pure (some a)
      | none => pure none

end Program

/-- The session that a record is. -/
def Record.session? : Record → Option SessionState
  | session s => some s
  | _ => none

/-- The handle that a record is. -/
def Record.handle? : Record → Option HandleState
  | handle h => some h
  | _ => none

/-- The tree that a record is. -/
def Record.tree? : Record → Option TreeState
  | tree t => some t
  | _ => none

/-- The methods: those on records go through the cache. -/
def program (hasCache : Bool) : (m : Method) → Reading → CachedProc m.Value
  | .store (.createSession s), t => writeThrough hasCache (.store (.createSession s)) t (.session s)
  | .store (.getSession id), t =>
      readThrough hasCache (.session id) .session Record.session? (bulk (.store (.getSession id)) t)
  | .updateSession s, t => writeThrough hasCache (.updateSession s) t (.session s)
  | .store (.deleteSession id), t =>
      removeThrough hasCache (.store (.deleteSession id)) t (.session id)
  | .store (.refreshSession id ttl), t =>
      removeThrough hasCache (.store (.refreshSession id ttl)) t (.session id)
  | .store (.createTree tree), t => writeThrough hasCache (.store (.createTree tree)) t (.tree tree)
  | .store (.getTree sid tid), t =>
      readThrough hasCache (.tree sid tid) .tree Record.tree? (bulk (.store (.getTree sid tid)) t)
  | .store (.deleteTree sid tid), t =>
      removeThrough hasCache (.store (.deleteTree sid tid)) t (.tree sid tid)
  | .store (.createHandle h), t => writeThrough hasCache (.store (.createHandle h)) t (.handle h)
  | .store (.getHandle id), t =>
      readThrough hasCache (.handle id) .handle Record.handle? (bulk (.store (.getHandle id)) t)
  | .store (.updateHandle h), t => writeThrough hasCache (.store (.updateHandle h)) t (.handle h)
  | .store (.deleteHandle id), t =>
      removeThrough hasCache (.store (.deleteHandle id)) t (.handle id)
  -- lists, locks, leases and identifiers are not cached
  | m, t => bulk m t

namespace Sample

def handle (fileAttributes : UInt32) : HandleState :=
  { HandleState.default 0 with persistentId := 1, fileAttributes := fileAttributes }

def noon : Reading := ⟨43200, 43200000000000⟩

def create : Method := .store (.createHandle (handle 0))

def update : Method := .store (.updateHandle (handle 1))

def read : Method := .store (.getHandle 1)

end Sample

end RustSmb.Cached
