import RustSmb.Redis.Locks

/-!
# Locks in Redis and in memory

Both stores grant a lock unless it conflicts with one that is held.  In memory a lock never
conflicts with one of the same handle, a length of zero reaches to the end of the file, and the end
of a range saturates.  In Redis the handle is not looked at, a length of zero is an empty range, and
the end of a range overflows.

## Main results

* `locksConflict_eq` — comparable locks conflict in Redis iff they do in memory.
* `grants_agree` — **if locks are comparable, Redis grants a lock exactly when the memory does.**
* `Sample.grants_disagree` — two locks of one handle, and the end of the `u64` range.
-/

namespace RustSmb.Redis

open LockOp KeyValue Proc

variable {lock : DistributedLock}

/-! ### In memory -/

def LockOp.inMemory (st : MemoryStateStore) : LockOp → LockAnswer × MemoryStateStore
  | .acquireFileLock lock => (.granted (st.acquireFileLock lock).1, (st.acquireFileLock lock).2)
  | .releaseFileLock id => (.done, { st with fileLocks := st.fileLocks.erase id })
  | .getFileLocks path =>
      (.locks (st.fileLocks.values.filter fun lock => lock.filePath == path), st)
  | .releaseFileLocksForSession id =>
      (.done, { st with fileLocks := st.fileLocks.retain fun _ lock => lock.sessionId != id })
  | .releaseFileLocksForHandle id =>
      (.done, { st with fileLocks := st.fileLocks.retain fun _ lock => lock.handleId != id })
  | .releaseFileLocksForServer id =>
      (.done, { st with fileLocks := st.fileLocks.retain fun _ lock => lock.serverId != id })

/-- The stores after the same sequential runs whose operations meet a condition. -/
abbrev BothRun (ok : MemoryStateStore → LockOp → Prop) : LockServer → MemoryStateStore → Prop :=
  SideBySide (fun e op => op.after e) (fun op st => (op.inMemory st).2) ok Server.empty .new

/-! ### Comparable locks -/

/-- The range of a lock is not empty and ends within `u64`. -/
def plainRange (lock : DistributedLock) : Bool :=
  lock.length != 0 && decide (lock.offset.toNat + lock.length.toNat < UInt64.size)

/-- Do the ranges of two locks meet, and is one of the locks exclusive? -/
def excludes (a b : DistributedLock) : Bool :=
  decide (a.offset < b.rangeEnd) && decide (b.offset < a.rangeEnd) && (a.exclusive || b.exclusive)

/-- Two locks are on different files; or both ranges are plain, and locks of one handle do not
exclude each other. -/
def comparable (existing new : DistributedLock) : Bool :=
  existing.filePath != new.filePath ||
    (plainRange existing && plainRange new &&
      (existing.handleId != new.handleId || !excludes existing new))

/-- A lock that is acquired has a fresh identifier and is comparable with those that are held. -/
def LockOp.Comparable (st : MemoryStateStore) : LockOp → Prop
  | .acquireFileLock lock => st.fileLocks.lookup lock.lockId = none ∧
      ∀ existing ∈ st.fileLocks.values, comparable existing lock = true
  | _ => True

theorem checkedAdd_of_plain (h : plainRange lock = true) :
    checkedAdd lock.offset lock.length = some lock.rangeEnd := by
  obtain ⟨hlength, hfits⟩ := Bool.and_eq_true_iff.1 h
  have hfits := of_decide_eq_true hfits
  have hsize : UInt64.size = 2 ^ 64 := rfl
  unfold checkedAdd DistributedLock.rangeEnd DistributedLock.saturatingAdd
  rw [if_pos hfits, if_neg (bne_iff_ne.1 hlength), if_pos (by rw [← hsize]; exact hfits)]

/-- **Comparable locks conflict in Redis iff they do in memory.** -/
theorem locksConflict_eq {existing new : DistributedLock}
    (h : comparable existing new = true) :
    locksConflict existing new = some (new.conflictsWith existing) := by
  unfold locksConflict DistributedLock.conflictsWith
  by_cases hfile : existing.filePath = new.filePath
  · have hne : (existing.filePath != new.filePath) = false := by rw [hfile, bne_self_eq_false]
    unfold comparable at h
    rw [hne, Bool.false_or] at h
    obtain ⟨hplain, hhdl⟩ := Bool.and_eq_true_iff.1 h
    obtain ⟨hexist, hnew⟩ := Bool.and_eq_true_iff.1 hplain
    rw [hne, if_neg Bool.false_ne_true, checkedAdd_of_plain hexist, checkedAdd_of_plain hnew,
      if_neg (not_not_intro hfile.symm)]
    unfold excludes at hhdl
    by_cases hsame : new.handleId = existing.handleId
    · -- one handle: the locks do not exclude each other
      by_cases h₁ : new.offset < existing.rangeEnd <;>
        by_cases h₂ : existing.offset < new.rangeEnd <;>
          simp_all [UInt64.not_lt]
    · rw [if_neg hsame]
      by_cases h₁ : new.offset < existing.rangeEnd <;>
        by_cases h₂ : existing.offset < new.rangeEnd <;>
          simp_all [UInt64.not_lt, Bool.or_comm]
  · have hne : (existing.filePath != new.filePath) = true := bne_iff_ne.2 hfile
    rw [hne, if_pos rfl, if_pos fun heq => hfile heq.symm]

/-! ### The same locks -/

/-- The same locks are held in both stores. -/
structure SameLocks (s : LockServer) (st : MemoryStateStore) : Prop where
  indexed : lockLayout.Exact s
  records : ∀ id, lockLayout.get s id = st.fileLocks.lookup id

/-- If each comparison is made, the search finds a conflict iff there is one. -/
theorem searchConflict_eq {records : UInt64 → Option DistributedLock} {p : DistributedLock → Bool}
    {ids : List UInt64}
    (h : ∀ id ∈ ids, ∀ existing, records id = some existing →
      locksConflict existing lock = some (p existing)) :
    searchConflict records lock ids = some (ids.any fun id => (records id).any p) := by
  induction ids with
  | nil => rfl
  | cons id ids ih =>
    obtain ⟨hfirst, hrest⟩ := List.forall_mem_cons.1 h
    rw [searchConflict, List.any_cons, ih hrest]
    cases hrec : records id with
    | none => rfl
    | some existing =>
      dsimp only
      rw [hfirst existing hrec, Option.any_some]
      cases hp : p existing <;> simp

variable {s : LockServer} {st : MemoryStateStore}

theorem SameLocks.search (h : SameLocks s st) (e : Enumeration)
    (hcomp : ∀ existing ∈ st.fileLocks.values, comparable existing lock = true) :
    searchConflict (lockLayout.get s) lock
        (e.list UInt64 (s.members (LockKey.file lock.filePath).name)) =
      some (st.fileLocks.values.any fun existing => lock.conflictsWith existing) := by
  have hvalue : ∀ {id existing}, lockLayout.get s id = some existing →
      existing ∈ st.fileLocks.values := by
    intro id existing hrec
    rw [h.records id] at hrec
    exact Table.mem_values.2 ⟨id, hrec⟩
  rw [searchConflict_eq]
  · congr 1
    rw [Bool.eq_iff_iff, List.any_eq_true, List.any_eq_true]
    constructor
    · rintro ⟨id, -, hany⟩
      obtain ⟨existing, hrec, hconf⟩ := (Option.any_eq_true _ _).1 hany
      exact ⟨existing, hvalue hrec, hconf⟩
    · rintro ⟨existing, hmem, hconf⟩
      obtain ⟨id, hlook⟩ := Table.mem_values.1 hmem
      rw [← h.records id] at hlook
      -- a lock in conflict is on the same file, so it is in the index
      have hfile : existing.filePath = lock.filePath := by
        unfold DistributedLock.conflictsWith at hconf
        split at hconf
        · cases hconf
        · next heq => exact (not_not.1 heq).symm
      have hidx := (h.indexed.exact (.file lock.filePath) rfl id).2
        ⟨existing, hlook, file_mem_lockIndices.2 hfile⟩
      refine ⟨id, e.mem_list.2 hidx, ?_⟩
      rw [hlook, Option.any_some]
      exact hconf
  · intro id _ existing hrec
    exact locksConflict_eq (hcomp existing (hvalue hrec))

theorem SameLocks.acquire (h : SameLocks s st) (e : Enumeration)
    (hok : (LockOp.acquireFileLock lock).Comparable st) :
    (LockOp.acquireFileLock lock).outcome e s = .ok ((LockOp.acquireFileLock lock).inMemory st).1 ∧
      SameLocks ((LockOp.acquireFileLock lock).after e s)
        ((LockOp.acquireFileLock lock).inMemory st).2 := by
  obtain ⟨hfresh, hcomp⟩ := hok
  have hrun := acquireFileLock_run e h.indexed.typed lock
  rw [h.search e hcomp] at hrun
  unfold outcome after inMemory
  dsimp only
  cases hany : st.fileLocks.values.any fun existing => lock.conflictsWith existing with
  | true =>
    have hmemory : st.acquireFileLock lock = (false, st) := by
      unfold MemoryStateStore.acquireFileLock
      rw [hany, if_pos rfl]
    rw [hany] at hrun
    rw [hrun, hmemory]
    exact ⟨rfl, h⟩
  | false =>
    have hmemory : st.acquireFileLock lock =
        (true, { st with fileLocks := st.fileLocks.insert lock.lockId lock }) := by
      unfold MemoryStateStore.acquireFileLock
      rw [hany, if_neg Bool.false_ne_true]
    have hput : lockLayout.Exact (lockLayout.put s lock) :=
      h.indexed.put_new trivial ((h.records _).trans hfresh)
    rw [hany] at hrun
    rw [hrun, hmemory]
    dsimp only
    refine ⟨rfl, ⟨hput, fun id => ?_⟩⟩
    rw [Layout.get_put, h.records id]
    exact (Table.lookup_insert_ite lock.lockId id lock).symm

theorem SameLocks.release (h : SameLocks s st) (e : Enumeration) {op : LockOp}
    (hop : ∀ lock, op ≠ .acquireFileLock lock) : SameLocks (op.after e s) (op.inMemory st).2 := by
  obtain ⟨-, hindexed, hrec⟩ := op.release_spec e h.indexed hop
  refine ⟨hindexed, fun id => ?_⟩
  rw [hrec id, h.records id]
  cases op with
  | acquireFileLock lock => exact absurd rfl (hop lock)
  | releaseFileLock lockId =>
    unfold inMemory
    rw [Table.lookup_erase_ite]
    cases hlock : st.fileLocks.lookup id with
    | none => simp
    | some lock =>
      have hid : lock.lockId = id := h.indexed.named id lock ((h.records id).trans hlock)
      by_cases hx : id = lockId
      · simp [hx, keeps, hid, Option.filter]
      · simp [hx, keeps, hid, Option.filter]
  | getFileLocks path =>
    unfold inMemory
    cases st.fileLocks.lookup id <;> rfl
  | releaseFileLocksForSession x | releaseFileLocksForHandle x | releaseFileLocksForServer x =>
    unfold inMemory
    rw [Table.lookup_retain]
    rfl

theorem sameLocks (hrun : BothRun (fun st op => op.Comparable st) s st) :
    SameLocks s st := by
  induction hrun with
  | start => exact ⟨Layout.exact_empty, fun id => rfl⟩
  | step _ e op hok ih =>
    cases op with
    | acquireFileLock lock => exact (ih.acquire e hok).2
    | _ => exact ih.release e nofun

/-- **If locks are comparable, Redis grants a lock exactly when the memory does**, and does not
panic. -/
theorem grants_agree (hrun : BothRun (fun st op => op.Comparable st) s st) (e : Enumeration)
    (lock : DistributedLock) (hok : (LockOp.acquireFileLock lock).Comparable st) :
    (LockOp.acquireFileLock lock).outcome e s =
      .ok (.granted (st.acquireFileLock lock).1) :=
  ((sameLocks hrun).acquire e hok).1

namespace Sample

def oneLockInMemory : MemoryStateStore :=
  ((LockOp.acquireFileLock (fileLock 1 7 3)).inMemory .new).2

theorem bothRun_oneLock {ok : MemoryStateStore → LockOp → Prop}
    (hok : ok .new (.acquireFileLock (fileLock 1 7 3))) : BothRun ok oneLock oneLockInMemory :=
  .step .start .plain _ hok

/-- Another handle is refused in both stores. -/
theorem grants_agree_other :
    (BothRun (fun st op => op.Comparable st) oneLock oneLockInMemory ∧
      (LockOp.acquireFileLock (fileLock 2 8 3)).Comparable oneLockInMemory) ∧
    (LockOp.acquireFileLock (fileLock 2 8 3)).outcome .plain oneLock =
      .ok (.granted (oneLockInMemory.acquireFileLock (fileLock 2 8 3)).1) ∧
    (oneLockInMemory.acquireFileLock (fileLock 2 8 3)).1 = false := by
  have hrun : BothRun (fun st op => op.Comparable st) oneLock oneLockInMemory :=
    bothRun_oneLock ⟨rfl, nofun⟩
  have hok : (LockOp.acquireFileLock (fileLock 2 8 3)).Comparable oneLockInMemory := by
    have hchk : oneLockInMemory.fileLocks.lookup 2 = none ∧
      ∀ existing ∈ oneLockInMemory.fileLocks.values,
        comparable existing (fileLock 2 8 3) = true := by decide +kernel
    exact hchk
  exact ⟨⟨hrun, hok⟩, grants_agree hrun .plain _ hok, by decide +kernel⟩

/-- **Redis and the memory do not grant the same locks.**  A second lock of the same handle on
the same range is granted in memory and refused by Redis; one at the end of the `u64` range is
granted in memory while Redis panics. -/
theorem grants_disagree :
    BothRun (fun _ _ => True) oneLock oneLockInMemory ∧
    ((LockOp.acquireFileLock (fileLock 2 7 3)).outcome .plain oneLock = .ok (.granted false) ∧
      ((LockOp.acquireFileLock (fileLock 2 7 3)).inMemory oneLockInMemory).1 = .granted true) ∧
    (LockOp.acquireFileLock { fileLock 2 8 3 with offset := 0xFFFFFFFFFFFFFFFF }).outcome .plain
        oneLock = .error .panicked ∧
      ((LockOp.acquireFileLock { fileLock 2 8 3 with offset := 0xFFFFFFFFFFFFFFFF }).inMemory
        oneLockInMemory).1 = .granted true := by
  refine ⟨bothRun_oneLock trivial, ?_⟩
  decide +kernel

end Sample

end RustSmb.Redis
