import RustSmb.Redis.Records

/-!
# File locks in Redis

A lock is a record under its identifier, named by four indices: by file, session, handle and
server.  To acquire a lock, the locks of the file are compared one by one; then the record and the
four index entries are written, each by a command of its own.  To release locks in bulk, an index is
read and each lock in it is taken out of the others.

## Main results

* `LockKey.name_injective` — different keys have different names.
* `indexed_run` — **with fresh identifiers the indices are exact, and a release in bulk removes
  exactly the locks that it is meant for.**

Source: `rustsmb-state-redis/src/lib.rs`.
-/

namespace RustSmb.Redis

open KeyValue Proc

variable {lock : DistributedLock}

/-! ### Keys -/

def FILE_LOCK : String := "smb:filelock:"
def FILE_LOCK_FILE_INDEX : String := "smb:filelock:file:"
def FILE_LOCK_SESSION_INDEX : String := "smb:filelock:session:"
def FILE_LOCK_HANDLE_INDEX : String := "smb:filelock:handle:"
def FILE_LOCK_SERVER_INDEX : String := "smb:filelock:server:"

/-- The keys of the lock space: a record, or an index of lock identifiers. -/
inductive LockKey where
  | record (lockId : UInt64)
  | file (filePath : String)
  | session (sessionId : UInt64)
  | handle (handleId : HandleId)
  | server (serverId : String)
  deriving DecidableEq

open LockKey

namespace LockKey

/-- The name of a key.  Numbers are written in decimal. -/
def name : LockKey → String
  | record id => FILE_LOCK ++ id.toNat.repr
  | file path => FILE_LOCK_FILE_INDEX ++ path
  | session id => FILE_LOCK_SESSION_INDEX ++ id.toNat.repr
  | handle id => FILE_LOCK_HANDLE_INDEX ++ id.toNat.repr
  | server id => FILE_LOCK_SERVER_INDEX ++ id

def isIndex : LockKey → Bool
  | record _ => false
  | _ => true

end LockKey

theorem LockKey.name_injective : Function.Injective name := by
  intro a b h
  have hlist := congrArg String.toList h
  cases a <;> cases b <;>
    simp [name, FILE_LOCK, FILE_LOCK_FILE_INDEX, FILE_LOCK_SESSION_INDEX, FILE_LOCK_HANDLE_INDEX,
      FILE_LOCK_SERVER_INDEX] at hlist
  case record.record => exact congrArg record (UInt64.toNat_inj.1 (toDigits_injective hlist))
  case file.file => exact congrArg file (String.toList_inj.1 hlist)
  case session.session => exact congrArg session (UInt64.toNat_inj.1 (toDigits_injective hlist))
  case handle.handle => exact congrArg handle (BitVec.eq_of_toNat_eq (toDigits_injective hlist))
  case server.server => exact congrArg server (String.toList_inj.1 hlist)
  -- a number is not a word
  case record.file | record.session | record.handle | record.server =>
    exact absurd hlist (toDigits_ne_cons _ rfl)
  case file.record | session.record | handle.record | server.record =>
    exact absurd hlist.symm (toDigits_ne_cons _ rfl)

/-! ### Records -/

/-- The four sets that list a lock. -/
def lockIndices (lock : DistributedLock) : List LockKey :=
  [.file lock.filePath, .session lock.sessionId, .handle lock.handleId, .server lock.serverId]

@[simp] theorem session_mem_lockIndices {id : UInt64} :
    session id ∈ lockIndices lock ↔ lock.sessionId = id := by
  simp [lockIndices, eq_comm]

@[simp] theorem handle_mem_lockIndices {id : HandleId} :
    handle id ∈ lockIndices lock ↔ lock.handleId = id := by
  simp [lockIndices, eq_comm]

@[simp] theorem server_mem_lockIndices {id : String} :
    server id ∈ lockIndices lock ↔ lock.serverId = id := by
  simp [lockIndices, eq_comm]

@[simp] theorem file_mem_lockIndices {path : String} :
    file path ∈ lockIndices lock ↔ lock.filePath = path := by
  simp [lockIndices, eq_comm]

theorem index_of_mem_lockIndices {key : LockKey} (hkey : key ∈ lockIndices lock) :
    key.isIndex = true := by
  simp only [lockIndices, List.mem_cons, List.not_mem_nil, or_false] at hkey
  rcases hkey with rfl | rfl | rfl | rfl <;> rfl

/-- Locks as records under their identifiers. -/
def lockLayout : Layout DistributedLock UInt64 LockKey where
  name := name
  record := .record
  isIndex := isIndex
  ident := DistributedLock.lockId
  indices := lockIndices
  valid _ := True
  index_of_mem := index_of_mem_lockIndices
  record_injective h := record.inj (name_injective h)
  index_injective _ _ h := name_injective h
  record_ne _ hkey heq := by
    rw [name_injective heq] at hkey
    cases hkey

theorem index_name {key : LockKey} (hkey : key.isIndex = true) : lockLayout.index key.name :=
  Layout.index_name (L := lockLayout) hkey

theorem not_index_record (id : UInt64) : ¬ lockLayout.index (record id).name :=
  Layout.not_index_record (L := lockLayout) trivial

/-! ### Operations -/

abbrev LockProc (β : Type) : Type := RedisProc DistributedLock UInt64 β

/-- The server, as far as file locks are concerned. -/
abbrev LockServer : Type := Server DistributedLock UInt64

/-- `u64` addition, which panics when it overflows. -/
def checkedAdd (a b : UInt64) : Option UInt64 :=
  if a.toNat + b.toNat < UInt64.size then some (a + b) else none

/-- Do two locks conflict?  `none` is a panic. -/
def locksConflict (existing new : DistributedLock) : Option Bool :=
  if existing.filePath != new.filePath then some false
  else
    (checkedAdd existing.offset existing.length).bind fun existingEnd =>
    (checkedAdd new.offset new.length).bind fun newEnd =>
      if new.offset ≥ existingEnd || existing.offset ≥ newEnd then some false
      else some (existing.exclusive || new.exclusive)

/-- Is one of the locks of the file in conflict with a new one?  The first one decides. -/
def findConflict (lock : DistributedLock) : List UInt64 → LockProc Bool
  | [] => pure false
  | id :: ids => do
      match ← get (record id).name with
      | some existing =>
          let conflict ← orPanic (locksConflict existing lock)
          if conflict then pure true else findConflict lock ids
      | none => findConflict lock ids

/-- Reads the file's locks and writes only if none conflicts; in between others can act. -/
def acquireFileLock (lock : DistributedLock) : LockProc Bool := do
  let lockIds ← smembers (file lock.filePath).name
  let conflict ← findConflict lock lockIds
  if conflict then pure false
  else do
    putRecord lockLayout lock
    pure true

/-- Release a lock: it leaves the indices, then its record is deleted. -/
def releaseFileLock (lockId : UInt64) : LockProc Unit :=
  dropRecord lockLayout lockIndices lockId

/-- The locks that the file's index lists. -/
def getFileLocks (filePath : String) : LockProc (List DistributedLock) := do
  let lockIds ← smembers (file filePath).name
  readRecords (fun id => (record id).name) lockIds

/-- Release a lock that was found in an index: it leaves the other indices. -/
def releaseIndexed (others : DistributedLock → List LockKey) (lockId : UInt64) : LockProc Unit := do
  match ← get (record lockId).name with
  | some lock => forEach (fun key => tryWrite (.srem key.name lockId)) (others lock)
  | none => pure ()
  write (.del (record lockId).name)

/-- Releases what one index lists. -/
def releaseFileLocksFor (index : LockKey) (others : DistributedLock → List LockKey) :
    LockProc Unit := do
  let lockIds ← smembers index.name
  forEach (releaseIndexed others) lockIds
  write (.del index.name)

def releaseFileLocksForSession (sessionId : UInt64) : LockProc Unit :=
  releaseFileLocksFor (.session sessionId) fun lock =>
    [.file lock.filePath, .handle lock.handleId, .server lock.serverId]

def releaseFileLocksForHandle (handleId : HandleId) : LockProc Unit :=
  releaseFileLocksFor (.handle handleId) fun lock =>
    [.file lock.filePath, .session lock.sessionId, .server lock.serverId]

def releaseFileLocksForServer (serverId : String) : LockProc Unit :=
  releaseFileLocksFor (.server serverId) fun lock =>
    [.file lock.filePath, .session lock.sessionId, .handle lock.handleId]

/-! ### What the operations do -/

/-- Compare a lock with some records.  The first conflict decides; `none` is a panic. -/
def searchConflict (records : UInt64 → Option DistributedLock) (lock : DistributedLock) :
    List UInt64 → Option Bool
  | [] => some false
  | id :: ids =>
      match records id with
      | some existing =>
          (locksConflict existing lock).bind fun conflict =>
            if conflict then some true else searchConflict records lock ids
      | none => searchConflict records lock ids

section Typed

variable {s : LockServer} (e : Enumeration) (h : s.Typed lockLayout.index)

include h

theorem run_getLock (id : UInt64) :
    run (answer e) (get (record id).name) () s = (.ok (lockLayout.get s id), (), s) :=
  run_getRecord (L := lockLayout) e h trivial

theorem run_findConflict (lock : DistributedLock) (ids : List UInt64) :
    run (answer e) (findConflict lock ids) () s =
      ((searchConflict (lockLayout.get s) lock ids).elim (.error .panicked) .ok, (), s) := by
  induction ids with
  | nil => rfl
  | cons id ids ih =>
    rw [findConflict, run_bind_ok (run_getLock e h id)]
    unfold searchConflict
    cases lockLayout.get s id with
    | none => exact ih
    | some existing =>
      dsimp only
      cases locksConflict existing lock with
      | none => rfl
      | some conflict =>
        cases conflict with
        | false => exact ih
        | true => rfl

theorem run_acquireFileLock (lock : DistributedLock) :
    run (answer e) (acquireFileLock lock) () s =
      match searchConflict (lockLayout.get s) lock
          (e.list UInt64 (s.members (file lock.filePath).name)) with
      | none => (.error .panicked, (), s)
      | some true => (.ok false, (), s)
      | some false => (.ok true, (), lockLayout.put s lock) := by
  rw [acquireFileLock, run_bind_ok (run_smembers e h (index_name rfl)), run_bind,
    run_findConflict e h]
  cases searchConflict (lockLayout.get s) lock
      (e.list UInt64 (s.members (file lock.filePath).name)) with
  | none => rfl
  | some conflict =>
    cases conflict with
    | true => rfl
    | false => exact (run_bind_ok (run_putRecord e h trivial)).trans run_pure

variable {others : DistributedLock → List LockKey}

theorem run_releaseIndexed (hoths : ∀ lock, ∀ key ∈ others lock, key.isIndex = true) (id : UInt64) :
    run (answer e) (releaseIndexed others id) () s = (.ok (), (), lockLayout.drop others s id) := by
  rw [releaseIndexed, run_bind_ok (run_getLock e h id)]
  unfold Layout.drop
  cases lockLayout.get s id with
  | none => exact run_write e h trivial
  | some lock =>
    have htyped := h.sremAll (m := id) fun key hkey => index_name (hoths lock key hkey)
    exact (run_bind_ok (run_trySremAll e)).trans (run_write e htyped trivial)

theorem run_releaseFileLocksFor {index : LockKey} {others : DistributedLock → List LockKey}
    (hidx : index.isIndex = true) (hoths : ∀ lock, ∀ key ∈ others lock, key.isIndex = true) :
    run (answer e) (releaseFileLocksFor index others) () s =
      (.ok (), (), lockLayout.dropIndex index others s (e.list UInt64 (s.members index.name))) := by
  have hloop : ∀ ids, ∀ s : LockServer, s.Typed lockLayout.index →
      run (answer e) (forEach (releaseIndexed others) ids) () s =
        (.ok (), (), ids.foldl (lockLayout.drop others) s) := by
    intro ids
    induction ids with
    | nil => exact fun s hs => rfl
    | cons id ids ih =>
      exact fun s hs => (run_bind_ok (run_releaseIndexed e hs hoths id)).trans
        (ih _ (Layout.typed_drop hs hoths))
  rw [releaseFileLocksFor, run_bind_ok (run_smembers e h (index_name hidx)),
    run_bind_ok (hloop _ s h)]
  exact run_write e (Layout.typed_drops h hoths _) trivial

end Typed

/-! ### Runs -/

/-- The methods of the store on locks. -/
inductive LockOp where
  | acquireFileLock (lock : DistributedLock)
  | releaseFileLock (lockId : UInt64)
  | getFileLocks (filePath : String)
  | releaseFileLocksForSession (sessionId : UInt64)
  | releaseFileLocksForHandle (handleId : HandleId)
  | releaseFileLocksForServer (serverId : String)

/-- What they return. -/
inductive LockAnswer where
  | granted (b : Bool)
  | locks (locks : List DistributedLock)
  | done
  deriving DecidableEq

namespace LockOp

/-- The method as a program of Redis commands. -/
def program : LockOp → LockProc LockAnswer
  | .acquireFileLock lock => do
      let b ← Redis.acquireFileLock lock
      pure (.granted b)
  | .releaseFileLock id => do
      Redis.releaseFileLock id
      pure .done
  | .getFileLocks path => do
      let locks ← Redis.getFileLocks path
      pure (.locks locks)
  | .releaseFileLocksForSession id => do
      Redis.releaseFileLocksForSession id
      pure .done
  | .releaseFileLocksForHandle id => do
      Redis.releaseFileLocksForHandle id
      pure .done
  | .releaseFileLocksForServer id => do
      Redis.releaseFileLocksForServer id
      pure .done

/-- The result of a method that runs alone. -/
def outcome (e : Enumeration) (op : LockOp) (s : LockServer) :
    Except (Fault StateError) LockAnswer :=
  (run (answer e) op.program () s).1

/-- The server after a method that runs alone. -/
def after (e : Enumeration) (op : LockOp) (s : LockServer) : LockServer :=
  (run (answer e) op.program () s).2.2

/-- A lock that is acquired has an identifier that is not in use. -/
def Fresh (s : LockServer) : LockOp → Prop
  | .acquireFileLock lock => lockLayout.get s lock.lockId = none
  | _ => True

end LockOp

/-- The servers after sequential runs whose operations meet a condition. -/
inductive LockRun (ok : LockServer → LockOp → Prop) : LockServer → Prop where
  | start : LockRun ok Server.empty
  | step {s : LockServer} (hs : LockRun ok s) (e : Enumeration) (op : LockOp) (hok : ok s op) :
      LockRun ok (op.after e s)

namespace LockOp

variable {s : LockServer} (e : Enumeration)

theorem acquireFileLock_run (h : s.Typed lockLayout.index) (lock : DistributedLock) :
    run (answer e) (LockOp.acquireFileLock lock).program () s =
      match searchConflict (lockLayout.get s) lock
          (e.list UInt64 (s.members (file lock.filePath).name)) with
      | none => (.error .panicked, (), s)
      | some true => (.ok (.granted false), (), s)
      | some false => (.ok (.granted true), (), lockLayout.put s lock) := by
  unfold program
  rw [run_bind, run_acquireFileLock e h]
  cases searchConflict (lockLayout.get s) lock
      (e.list UInt64 (s.members (file lock.filePath).name)) with
  | none => rfl
  | some conflict =>
    cases conflict with
    | false | true => exact run_pure

/-- What each operation that does not acquire does to the records. -/
def keeps : LockOp → DistributedLock → Bool
  | .releaseFileLock id, lock => lock.lockId != id
  | .releaseFileLocksForSession id, lock => lock.sessionId != id
  | .releaseFileLocksForHandle id, lock => lock.handleId != id
  | .releaseFileLocksForServer id, lock => lock.serverId != id
  | _, _ => true

theorem outcome_of_run (op : LockOp) {s' : LockServer} {a : LockAnswer}
    (hrun : run (answer e) op.program () s = (.ok a, (), s')) :
    op.outcome e s = .ok a ∧ op.after e s = s' := by
  unfold outcome after
  rw [hrun]
  exact ⟨rfl, rfl⟩

/-- To release locks in bulk succeeds, keeps the indices exact and removes the locks of an index. -/
theorem release_bulk (h : lockLayout.Exact s) {op : LockOp} {index : LockKey}
    {others : DistributedLock → List LockKey}
    (hop : op.program = do releaseFileLocksFor index others; pure LockAnswer.done)
    (hidx : index.isIndex = true) (hoths : ∀ lock, others lock ⊆ lockIndices lock)
    (hcover : ∀ lock, index ∈ lockIndices lock → lockIndices lock ⊆ index :: others lock)
    (hkeeps : ∀ lock, op.keeps lock = true ↔ index ∉ lockIndices lock) :
    (∃ answer, op.outcome e s = .ok answer) ∧ lockLayout.Exact (op.after e s) ∧
      ∀ x, lockLayout.get (op.after e s) x = (lockLayout.get s x).filter op.keeps := by
  have hrun := run_releaseFileLocksFor e h.typed hidx
    fun lock key hkey => index_of_mem_lockIndices (hoths lock hkey)
  obtain ⟨hout, hafter⟩ := outcome_of_run e op (by
    rw [hop]
    exact (run_bind_ok hrun).trans run_pure)
  have hids : ∀ x, x ∈ e.list UInt64 (s.members index.name) ↔ x ∈ s.members index.name :=
    fun x => e.mem_list
  have hexact := h.dropIndex hidx (fun lock _ hkey => hoths lock hkey)
    (fun lock hin key hkey hne => (List.mem_cons.1 (hcover lock hin hkey)).resolve_left hne) hids
  have hfilter : op.keeps = fun lock => decide (index ∉ lockIndices lock) :=
    funext fun lock => Bool.eq_iff_iff.2 (by simp only [hkeeps, decide_eq_true_eq])
  rw [hout, hafter, hfilter]
  exact ⟨⟨_, rfl⟩, hexact, h.get_dropIndex_eq hidx hids⟩

/-- **A release removes exactly the locks that it is meant for**, succeeds and keeps the indices
exact. -/
theorem release_spec (h : lockLayout.Exact s) (op : LockOp)
    (hop : ∀ lock, op ≠ .acquireFileLock lock) :
    (∃ answer, op.outcome e s = .ok answer) ∧ lockLayout.Exact (op.after e s) ∧
      ∀ x, lockLayout.get (op.after e s) x = (lockLayout.get s x).filter op.keeps := by
  cases op with
  | acquireFileLock lock => exact absurd rfl (hop lock)
  | releaseFileLock id =>
    have hdrop : run (answer e) (Redis.releaseFileLock id) () s =
        (.ok (), (), lockLayout.drop lockIndices s id) :=
      run_dropRecord e h.typed (fun _ _ => index_of_mem_lockIndices) trivial
    have hrun := (run_bind_ok (f := fun _ => pure LockAnswer.done) hdrop).trans run_pure
    obtain ⟨hout, hafter⟩ := outcome_of_run e (.releaseFileLock id) hrun
    rw [hout, hafter]
    refine ⟨⟨_, rfl⟩, h.drop trivial, fun x => ?_⟩
    rw [Layout.get_drop]
    cases hlock : lockLayout.get s x with
    | none => simp
    | some lock =>
      have hid : lock.lockId = x := h.named x lock hlock
      by_cases hx : x = id
      · simp [hx, keeps, hid, Option.filter]
      · simp [hx, keeps, hid, Option.filter]
  | getFileLocks path =>
    have hindex : lockLayout.isIndex (.file path) = true := rfl
    have hrun := (run_bind_ok (f := fun locks => pure (LockAnswer.locks locks))
      (run_readIndex e h hindex)).trans run_pure
    obtain ⟨hout, hafter⟩ := outcome_of_run e (.getFileLocks path) hrun
    rw [hout, hafter]
    refine ⟨⟨_, rfl⟩, h, fun x => ?_⟩
    cases lockLayout.get s x <;> rfl
  | releaseFileLocksForSession id =>
    refine release_bulk e h rfl rfl (by simp [lockIndices]) (fun lock hin => ?_) (by simp [keeps])
    obtain rfl := session_mem_lockIndices.1 hin
    simp [lockIndices]
  | releaseFileLocksForHandle id =>
    refine release_bulk e h rfl rfl (by simp [lockIndices]) (fun lock hin => ?_) (by simp [keeps])
    obtain rfl := handle_mem_lockIndices.1 hin
    simp [lockIndices]
  | releaseFileLocksForServer id =>
    refine release_bulk e h rfl rfl (by simp [lockIndices]) (fun lock hin => ?_) (by simp [keeps])
    obtain rfl := server_mem_lockIndices.1 hin
    simp [lockIndices]

/-- An operation keeps the indices exact if the identifier of a lock that it acquires is fresh. -/
theorem indexed_after (h : lockLayout.Exact s) {op : LockOp} (hfresh : op.Fresh s) :
    lockLayout.Exact (op.after e s) := by
  cases op with
  | acquireFileLock lock =>
    have hrun := acquireFileLock_run e h.typed lock
    unfold after
    cases hsearch : searchConflict (lockLayout.get s) lock
        (e.list UInt64 (s.members (file lock.filePath).name)) with
    | none =>
      rw [hsearch] at hrun
      rw [hrun]
      exact h
    | some conflict =>
      rw [hsearch] at hrun
      cases conflict with
      | true =>
        rw [hrun]
        exact h
      | false =>
        have hput : lockLayout.Exact (lockLayout.put s lock) := h.put_new trivial hfresh
        rw [hrun]
        exact hput
  | _ => exact (release_spec e h _ fun lock heq => by cases heq).2.1

end LockOp

theorem LockRun.indexed {s : LockServer} (hrun : LockRun (fun s op => op.Fresh s) s) :
    lockLayout.Exact s := by
  induction hrun with
  | start => exact Layout.exact_empty
  | step _ e op hfresh ih => exact op.indexed_after e ih hfresh

/-- **The indices are exact, and releases remove what they should**: after every run with fresh
identifiers, a lock is in an index exactly when its record exists and names it, and a release,
alone or in bulk, removes exactly the locks it is meant for. -/
theorem indexed_run {s : LockServer} (hrun : LockRun (fun s op => op.Fresh s) s) :
    (∀ key : LockKey, key.isIndex = true → ∀ id, id ∈ s.members key.name ↔
      ∃ lock, lockLayout.get s id = some lock ∧ lock.lockId = id ∧ key ∈ lockIndices lock) ∧
    ∀ e op, (∀ lock, op ≠ LockOp.acquireFileLock lock) →
      (∃ answer, op.outcome e s = .ok answer) ∧
        ∀ x, lockLayout.get (op.after e s) x = (lockLayout.get s x).filter op.keeps := by
  have h := hrun.indexed
  refine ⟨fun key hkey id => ?_, fun e op hop => ?_⟩
  · refine (h.exact key hkey id).trans ⟨?_, ?_⟩
    · rintro ⟨lock, hlock, hin⟩
      exact ⟨lock, hlock, h.named id lock hlock, hin⟩
    · rintro ⟨lock, hlock, -, hin⟩
      exact ⟨lock, hlock, hin⟩
  · obtain ⟨hout, -, hrec⟩ := op.release_spec e h hop
    exact ⟨hout, hrec⟩

namespace Sample

/-- A lock on the first ten bytes of a file. -/
def fileLock (lockId : UInt64) (handleId : HandleId) (sessionId : UInt64) : DistributedLock :=
  ⟨lockId, handleId, sessionId, "server1", "file", 0, 10, true, 0⟩

/-- A lock on the ten bytes after them. -/
def nextLock (lockId : UInt64) (handleId : HandleId) (sessionId : UInt64) : DistributedLock :=
  { fileLock lockId handleId sessionId with offset := 10 }

/-- A session holds a lock. -/
def oneLock : LockServer :=
  (LockOp.acquireFileLock (fileLock 1 7 3)).after .plain Server.empty

/-- Two sessions hold locks on one file. -/
def twoLocks : LockServer := (LockOp.acquireFileLock (nextLock 2 8 4)).after .plain oneLock

/-- Both locks are in the index of the file, and a release for one session leaves the lock of the
other. -/
theorem twoLocks_indexed :
    LockRun (fun s op => op.Fresh s) twoLocks ∧
      (1 ∈ twoLocks.members (file "file").name ∧ 2 ∈ twoLocks.members (file "file").name) ∧
      lockLayout.get ((LockOp.releaseFileLocksForSession 3).after .plain twoLocks) 1 = none ∧
      lockLayout.get ((LockOp.releaseFileLocksForSession 3).after .plain twoLocks) 2 =
        some (nextLock 2 8 4) := by
  have hrun : LockRun (fun s op => op.Fresh s) twoLocks :=
    .step (.step .start .plain _ rfl) .plain _
      (by change lockLayout.get _ 2 = none; decide +kernel)
  have hfirst : lockLayout.get twoLocks 1 = some (fileLock 1 7 3) := by decide +kernel
  have hsecond : lockLayout.get twoLocks 2 = some (nextLock 2 8 4) := by decide +kernel
  obtain ⟨hexact, hrel⟩ := indexed_run hrun
  have hleft := (hrel .plain (.releaseFileLocksForSession 3) nofun).2
  refine ⟨hrun, ⟨?_, ?_⟩, ?_, ?_⟩
  · exact (hexact (file "file") rfl 1).2 ⟨_, hfirst, rfl, by decide⟩
  · exact (hexact (file "file") rfl 2).2 ⟨_, hsecond, rfl, by decide⟩
  · rw [hleft, hfirst]
    rfl
  · rw [hleft, hsecond]
    rfl

end Sample

end RustSmb.Redis
