import RustSmb.Lib.Lru
import RustSmb.State.Store

/-!
# The local cache

A server keeps sessions, handles and trees in three caches that evict what was least recently used.
An entry is found only in the epoch that it was made in, until its time to live has passed.

## Main results

* `LocalCache.get_eq_some` — what is found is kept, and of the present epoch.
* `LocalCache.entry_get`, `LocalCache.entry_put`, `LocalCache.entry_remove` — what is kept after an
  operation was kept before, or has just been put.

Source: `rustsmb-state-cached/src/cache.rs`.
-/

namespace RustSmb.Cached

/-! ### Records -/

/-- The three caches. -/
inductive RecordKind where
  | sessions
  | handles
  | trees
  deriving DecidableEq

/-- What a cached record is looked up by. -/
inductive RecordKey where
  | session (sessionId : UInt64)
  | handle (persistentId : HandleId)
  | tree (sessionId : UInt64) (treeId : UInt32)
  deriving DecidableEq

def RecordKey.kind : RecordKey → RecordKind
  | session _ => .sessions
  | handle _ => .handles
  | tree _ _ => .trees

/-- What is cached. -/
inductive Record where
  | session (session : SessionState)
  | handle (handle : HandleState)
  | tree (tree : TreeState)
  deriving DecidableEq

/-- A record names its own key. -/
def Record.key : Record → RecordKey
  | session s => .session s.sessionId
  | handle h => .handle h.persistentId
  | tree t => .tree t.sessionId t.treeId

/-! ### Entries -/

/-- The configuration of the cache.  Times are in nanoseconds. -/
structure CacheConfig where
  maxSessions : ℕ
  maxHandles : ℕ
  maxTrees : ℕ
  defaultTtl : ℕ

def CacheConfig.capacity (config : CacheConfig) : RecordKind → ℕ
  | .sessions => config.maxSessions
  | .handles => config.maxHandles
  | .trees => config.maxTrees

/-- A record with the epoch and the instant of its caching. -/
structure CacheEntry where
  data : Record
  epoch : UInt64
  cachedAt : ℕ
  ttl : ℕ
  deriving DecidableEq

namespace CacheEntry

/-- It has outlived its time. -/
def isExpired (entry : CacheEntry) (now : ℕ) : Bool := decide (now - entry.cachedAt > entry.ttl)

/-- It is of another epoch. -/
def isStale (entry : CacheEntry) (currentEpoch : UInt64) : Bool := entry.epoch != currentEpoch

def isValid (entry : CacheEntry) (currentEpoch : UInt64) (now : ℕ) : Bool :=
  !entry.isExpired now && !entry.isStale currentEpoch

theorem epoch_of_isValid {entry : CacheEntry} {currentEpoch : UInt64} {now : ℕ}
    (h : entry.isValid currentEpoch now = true) : entry.epoch = currentEpoch := by
  unfold isValid isStale at h
  have hne := (Bool.and_eq_true_iff.1 h).2
  simpa using hne

end CacheEntry

/-! ### The caches -/

/-- The caches of one server and the epoch they go by. -/
structure LocalCache where
  slots : RecordKind → Lru RecordKey CacheEntry
  currentEpoch : UInt64
  config : CacheConfig

namespace LocalCache

def new (config : CacheConfig) : LocalCache where
  slots kind := .new (config.capacity kind)
  currentEpoch := 1
  config := config

/-- What lies under the key, valid or not. -/
def entry (c : LocalCache) (key : RecordKey) : Option CacheEntry := (c.slots key.kind).peek key

/-- A change of the cache that the key belongs to. -/
def onSlot (c : LocalCache) (key : RecordKey)
    (f : Lru RecordKey CacheEntry → Lru RecordKey CacheEntry) : LocalCache :=
  { c with slots := Function.update c.slots key.kind (f (c.slots key.kind)) }

def remove (c : LocalCache) (key : RecordKey) : LocalCache := c.onSlot key fun slot => slot.pop key

/-- Look a record up.  An entry that is not valid any more is forgotten. -/
def get (c : LocalCache) (key : RecordKey) (now : ℕ) : Option Record × LocalCache :=
  match c.entry key with
  | none => (none, c)
  | some entry =>
      if entry.isValid c.currentEpoch now then
        (some entry.data, c.onSlot key fun slot => slot.touch key)
      else (none, c.remove key)

def put (c : LocalCache) (entry : CacheEntry) : LocalCache :=
  c.onSlot entry.data.key fun slot => slot.put entry.data.key entry

def setEpoch (c : LocalCache) (epoch : UInt64) : LocalCache := { c with currentEpoch := epoch }

/-- No entry is dropped; all of them turn stale. -/
def invalidateAll (c : LocalCache) : LocalCache := { c with currentEpoch := c.currentEpoch + 1 }

variable {c : LocalCache} {key key' : RecordKey} {e e' : CacheEntry} {now : ℕ}

@[simp]
theorem entry_new (config : CacheConfig) : (new config).entry key = none := rfl

theorem currentEpoch_get : (c.get key now).2.currentEpoch = c.currentEpoch := by
  unfold get
  split
  · rfl
  · split <;> rfl

theorem entry_onSlot {f : Lru RecordKey CacheEntry → Lru RecordKey CacheEntry} :
    (c.onSlot key f).entry key' =
      if key'.kind = key.kind then (f (c.slots key.kind)).peek key' else c.entry key' := by
  unfold onSlot entry
  dsimp only
  by_cases hkind : key'.kind = key.kind
  · rw [if_pos hkind, hkind, Function.update_self]
  · rw [if_neg hkind, Function.update_of_ne hkind]

theorem entry_remove : (c.remove key).entry key' = if key' = key then none else c.entry key' := by
  unfold remove
  rw [entry_onSlot, Lru.peek_pop]
  unfold entry
  by_cases hkey : key' = key
  · subst hkey
    rw [if_pos rfl, if_pos rfl]
  · rw [if_neg hkey, if_neg hkey]
    split
    · next hkind => rw [hkind]
    · rfl

@[simp]
theorem entry_put_self : (c.put e).entry e.data.key = some e := by
  unfold put
  rw [entry_onSlot, if_pos rfl, Lru.peek_put_self]

theorem entry_of_put (hkey : key ≠ e.data.key) (h : (c.put e).entry key = some e') :
    c.entry key = some e' := by
  unfold put at h
  rw [entry_onSlot] at h
  split at h
  · next hkind =>
    unfold entry
    rw [hkind]
    exact Lru.peek_of_put hkey h
  · exact h

/-- What is kept after an entry is put: that one, or one that was kept before. -/
theorem entry_put (h : (c.put e).entry key = some e') :
    key = e.data.key ∧ e' = e ∨ key ≠ e.data.key ∧ c.entry key = some e' := by
  by_cases hkey : key = e.data.key
  · subst hkey
    rw [entry_put_self] at h
    exact .inl ⟨rfl, (Option.some.inj h).symm⟩
  · exact .inr ⟨hkey, entry_of_put hkey h⟩

theorem entry_get (h : (c.get key now).2.entry key' = some e) : c.entry key' = some e := by
  unfold get at h
  split at h
  · exact h
  · split at h
    · rw [entry_onSlot, Lru.peek_touch] at h
      split at h
      · next hkind =>
        unfold entry
        rw [hkind]
        exact h
      · exact h
    · rw [entry_remove] at h
      split at h
      · cases h
      · exact h

theorem get_eq_some {r : Record} (h : (c.get key now).1 = some r) :
    ∃ e, c.entry key = some e ∧ e.data = r ∧ e.epoch = c.currentEpoch := by
  unfold get at h
  split at h
  · cases h
  · next e he =>
    split at h
    · next hvalid => exact ⟨e, he, Option.some.inj h, CacheEntry.epoch_of_isValid hvalid⟩
    · cases h

end LocalCache

end RustSmb.Cached
