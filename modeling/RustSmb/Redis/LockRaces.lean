import RustSmb.Lib.Operations
import RustSmb.Redis.Locks

/-!
# Races for file locks

Servers acquire and release locks at the same time.  To acquire a lock takes several commands: the
index of the file is read, then the locks in it, and only then is the new lock written and entered
in the index.  What another server enters in between is not seen.

## Main results

* `held_apart` — **in orderly runs, locks that are held do not conflict.**
* `Sample.both_held` — two callers that read the index at the same time.

Source: `rustsmb-state-redis/src/lib.rs`.
-/

namespace RustSmb.Redis

open List LockKey Operations KeyValue Proc

variable {lock : DistributedLock}

/-! ### The system -/

abbrev LockSig : Signature := Sig DistributedLock UInt64

abbrev LockOutcome : Type := Except (Fault StateError) LockAnswer

/-- A command is answered in one step; sets are listed in any order. -/
def lockExec (s : LockServer) (o : LockSig.Op) (r : LockSig.Res o) (s' : LockServer) : Prop :=
  ∃ e : Enumeration, answer e o s = (r, s')

/-- Any number of store methods, interleaved command by command. -/
abbrev lockMachine : Machine (Sig LockSig LockOp LockOutcome) :=
  machine LockOp.program LockServer lockExec fun _ _ => False

abbrev LockTrace : Type := Trace LockOp.program LockServer lockExec fun _ _ => False

/-- A run from an empty server. -/
abbrev LockRaceRun : lockMachine.Config → LockTrace → Prop :=
  Run fun s => s = Server.empty

/-! ### Locks that are held -/

/-- The locks whose records have been written and not been touched by a release since. -/
def written : LockTrace → List DistributedLock
  | [] => []
  | (_, x) :: tr =>
      match x.event.1 with
      | .inl (.write (.set _ lock)) => lock :: written tr
      | .inl (.write (.srem _ id)) => (written tr).filter fun lock => lock.lockId != id
      | .inl (.write (.del k)) => (written tr).filter fun lock => (record lock.lockId).name != k
      | _ => written tr

/-- The operation is the return of a granted acquire. -/
def isGrant (lock : DistributedLock) (o : LockSig.Op ⊕ Mark LockOp LockOutcome) : Bool :=
  match o with
  | .inr (.finish (.acquireFileLock lock') (.ok (.granted true))) => decide (lock' = lock)
  | _ => false

/-- An operation to acquire the lock has returned that it is granted. -/
def Granted (lock : DistributedLock) (tr : LockTrace) : Prop :=
  ∃ y ∈ tr, isGrant lock y.2.event.1 = true

/-- A lock has been granted, and since it was written no command has deleted it or taken it out
of an index. -/
def Held (lock : DistributedLock) (tr : LockTrace) : Prop :=
  lock ∈ written tr ∧ Granted lock tr

instance (lock : DistributedLock) (tr : LockTrace) : Decidable (Granted lock tr) :=
  inferInstanceAs (Decidable (∃ y ∈ tr, isGrant lock y.2.event.1 = true))

instance (lock : DistributedLock) (tr : LockTrace) : Decidable (Held lock tr) :=
  inferInstanceAs (Decidable (lock ∈ written tr ∧ Granted lock tr))

theorem isGrant_iff {o : LockSig.Op ⊕ Mark LockOp LockOutcome} : isGrant lock o = true ↔
      o = .inr (.finish (.acquireFileLock lock) (.ok (.granted true))) := by
  unfold isGrant
  constructor
  · intro hgrant
    split at hgrant
    · rw [of_decide_eq_true hgrant]
    · cases hgrant
  · rintro rfl
    exact decide_eq_true rfl

/-! ### The condition -/

def isSmembers (e : Event LockSig) : Bool :=
  match e.1 with
  | .smembers _ => true
  | _ => false

/-- Is it the command to enter something in an index? -/
def isSadd (e : Event LockSig) : Bool :=
  match e.1 with
  | .write (.sadd _ _) => true
  | _ => false

/-- The lock that a caller is about to enter in the index of its file, after it has read it. -/
def acquiring (h : List (Event (Sig LockSig LockOp LockOutcome))) :
    Option DistributedLock :=
  match current h with
  | some (.acquireFileLock lock, h') =>
      if h'.any isSmembers && !h'.any isSadd then some lock else none
  | _ => none

/-- Is it the command to write the record under a key? -/
def isSetOf (k : String) (o : LockSig.Op ⊕ Mark LockOp LockOutcome) : Bool :=
  match o with
  | .inl (.write (.set k' _)) => k' == k
  | _ => false

/-- A caller begins to read the index of a file only if no other caller is about to enter a lock
there; and a record is written only once. -/
def orderly (tr : LockTrace) (i : ℕ) (x : lockMachine.Stamped) : Bool :=
  match x.event.1 with
  | .inl (.smembers _) =>
      match current (eventsOf i tr) with
      | some (.acquireFileLock lock, _) =>
          tr.all fun y => y.1 == i || (acquiring (eventsOf y.1 tr)).all fun other =>
            other.filePath != lock.filePath
      | _ => true
  | .inl (.write (.set k _)) => tr.all fun y => !isSetOf k y.2.event.1
  | _ => true

/-! ### What an operation does -/

/-- One of the locks that were listed has been read, and does not conflict. -/
def Cleared (lock : DistributedLock) (h : List (Event LockSig)) (id : UInt64) : Prop :=
  ∃ r : Option DistributedLock, (⟨.get (record id).name, .ok r⟩ : Event LockSig) ∈ h ∧
    ∀ existing, r = some existing → locksConflict existing lock = some false

/-- The index of the file has been read, and the locks in it but for some. -/
def Reading (lock : DistributedLock) (rest : List UInt64) (h : List (Event LockSig)) : Prop :=
  ∃ ids : List UInt64,
    (⟨.smembers (file lock.filePath).name, .ok ids⟩ : Event LockSig) ∈ h ∧
      h.any isSadd = false ∧ ∀ id ∈ ids, id ∈ rest ∨ Cleared lock h id

/-- What is known at each command when a lock is acquired, from the commands before it. -/
def AcquireSteps (lock : DistributedLock) (h : List (Event LockSig)) : LockSig.Op → Prop
  | .smembers k => h = [] ∧ k = (file lock.filePath).name
  | .get k => ∃ id, k = (record id).name
  | .write (.set k a) => k = (record lock.lockId).name ∧ a = lock ∧ Reading lock [] h
  | .write (.sadd k id) =>
      id = lock.lockId ∧
      (∃ r, (⟨.write (.set (record lock.lockId).name lock), r⟩ : Event LockSig) ∈ h) ∧
      (k = (file lock.filePath).name ∧ Reading lock [] h ∨
        ∃ key : LockKey, key.isIndex = true ∧ k = key.name ∧ ∀ path, key ≠ .file path)
  | _ => False

/-- The commands that a release uses. -/
def ReleaseSteps : LockSig.Op → Prop
  | .smembers k => ∃ key : LockKey, key.isIndex = true ∧ k = key.name
  | .get k => ∃ id, k = (record id).name
  | .write (.srem k _) => ∃ key : LockKey, key.isIndex = true ∧ k = key.name
  | .write (.del k) => ∃ key : LockKey, (∀ path, key ≠ .file path) ∧ k = key.name
  | _ => False

/-- What is known at each command of an operation. -/
def LockSteps : LockOp → List (Event LockSig) → LockSig.Op → Prop
  | .acquireFileLock lock, h, o => AcquireSteps lock h o
  | _, _, o => ReleaseSteps o

/-- What is known when an operation ends: a lock that is granted is in the index of its file. -/
def LockDone : LockOp → LockOutcome → List (Event LockSig) → Prop
  | .acquireFileLock lock, .ok (.granted true), h =>
      ∃ r, (⟨.write (.sadd (file lock.filePath).name lock.lockId), r⟩ : Event LockSig) ∈ h
  | _, _, _ => True

section Reading

variable {lock : DistributedLock} {id : UInt64} {rest : List UInt64} {h : List (Event LockSig)}

theorem Cleared.cons (hclear : Cleared lock h id) (e : Event LockSig) :
    Cleared lock (e :: h) id := by
  obtain ⟨r, hmem, hr⟩ := hclear
  exact ⟨r, mem_cons_of_mem _ hmem, hr⟩

theorem Reading.cons (hread : Reading lock rest h) {e : Event LockSig} (he : isSadd e = false) :
    Reading lock rest (e :: h) := by
  obtain ⟨ids, hmem, hsadd, hids⟩ := hread
  refine ⟨ids, mem_cons_of_mem _ hmem, ?_, fun id hid => ?_⟩
  · rw [any_cons, he, hsadd, Bool.false_or]
  · exact (hids id hid).imp_right fun hclear => hclear.cons e

theorem Reading.next (hread : Reading lock (id :: rest) h) {r : Option DistributedLock}
    (hr : ∀ existing, r = some existing → locksConflict existing lock = some false) :
    Reading lock rest (⟨.get (record id).name, .ok r⟩ :: h) := by
  obtain ⟨ids, hmem, hsadd, hids⟩ := hread.cons (e := ⟨.get (record id).name, .ok r⟩) rfl
  refine ⟨ids, hmem, hsadd, fun x hx => ?_⟩
  rcases hids x hx with hin | hclear
  · rcases mem_cons.1 hin with rfl | hin
    · exact .inr ⟨r, mem_cons_self, hr⟩
    · exact .inl hin
  · exact .inr hclear

theorem findConflict_steps (hread : Reading lock rest h) :
    wp (AcquireSteps lock) (findConflict lock rest)
      (fun r _ h => r = .ok false → Reading lock [] h) () h := by
  induction rest generalizing h with
  | nil =>
    unfold findConflict
    exact wp_pure.2 fun _ => hread
  | cons id rest ih =>
    unfold findConflict
    rw [wp_bind, wp_get]
    refine ⟨⟨id, rfl⟩, fun r => ?_⟩
    cases r with
    | error => exact fun heq => by cases heq
    | ok found =>
      cases found with
      | none => exact ih (hread.next fun existing heq => by cases heq)
      | some existing =>
        dsimp only [Except.mapError]
        rw [onOk_ok, wp_bind]
        cases hconf : locksConflict existing lock with
        | none => exact wp_throw.2 (onOk_error.2 fun heq => by cases heq)
        | some conflict =>
          rw [orPanic_some, wp_pure, onOk_ok]
          cases conflict with
          | true => exact wp_pure.2 fun heq => by cases heq
          | false =>
            refine ih (hread.next fun existing' heq => ?_)
            cases heq
            exact hconf

/-- The lock has been written and entered in the index of its file. -/
def Entered (lock : DistributedLock) (h : List (Event LockSig)) : Prop :=
  (∃ r, (⟨.write (.set (record lock.lockId).name lock), r⟩ : Event LockSig) ∈ h) ∧
    ∃ r, (⟨.write (.sadd (file lock.filePath).name lock.lockId), r⟩ : Event LockSig) ∈ h

theorem Entered.cons (hent : Entered lock h) (e : Event LockSig) : Entered lock (e :: h) := by
  obtain ⟨⟨r, hset⟩, ⟨r', hsadd⟩⟩ := hent
  exact ⟨⟨r, mem_cons_of_mem _ hset⟩, ⟨r', mem_cons_of_mem _ hsadd⟩⟩

theorem acquireFileLock_steps (lock : DistributedLock) :
    wp (LockSteps (.acquireFileLock lock)) (LockOp.acquireFileLock lock).program
      (fun r _ h => LockDone (.acquireFileLock lock) r h) () [] := by
  unfold LockOp.program acquireFileLock
  rw [wp_bind, wp_bind, wp_smembers]
  refine ⟨⟨rfl, rfl⟩, fun r => ?_⟩
  cases r with
  | error => exact trivial
  | ok ids =>
    have hread : Reading lock ids [⟨.smembers (file lock.filePath).name, .ok ids⟩] :=
      ⟨ids, mem_cons_self, rfl, fun id hid => .inl hid⟩
    dsimp only [Except.mapError]
    rw [onOk_ok, wp_bind]
    refine wp_mono (findConflict_steps hread) ?_
    rintro (e | conflict) _ h hconf
    · exact trivial
    cases conflict with
    | true =>
      rw [onOk_ok, if_pos rfl, wp_pure, onOk_ok, wp_pure]
      exact trivial
    | false =>
      have hread := hconf rfl
      rw [onOk_ok, if_neg Bool.false_ne_true, wp_bind]
      unfold putRecord
      rw [wp_bind, wp_write]
      refine ⟨⟨rfl, rfl, hread⟩, fun r => ?_⟩
      cases r with
      | error => exact trivial
      | ok =>
        -- the record is written; now the index entries, that of the file first
        have hread := hread.cons (e := ⟨.write (.set (record lock.lockId).name lock), .ok ()⟩) rfl
        dsimp only [Except.mapError, lockLayout, lockIndices]
        rw [onOk_ok, forEach, wp_bind, wp_write]
        refine ⟨⟨rfl, ⟨_, mem_cons_self⟩, .inl ⟨rfl, hread⟩⟩, fun r => ?_⟩
        cases r with
        | error => exact trivial
        | ok =>
          dsimp only [Except.mapError]
          rw [onOk_ok]
          refine wp_mono (wp_forEach (E := fun _ _ _ => True)
            (fun key hkey _ h (hent : Entered lock h) => ?_) ?_) ?_
          · rw [wp_write]
            refine ⟨⟨rfl, hent.1, .inr ⟨key, ?_⟩⟩, fun r => ?_⟩
            · simp only [mem_cons, not_mem_nil, or_false] at hkey
              rcases hkey with rfl | rfl | rfl <;> exact ⟨rfl, rfl, fun _ heq => by cases heq⟩
            · cases r with
              | error => exact trivial
              | ok => exact hent.cons _
          · exact ⟨⟨_, mem_cons_of_mem _ mem_cons_self⟩, ⟨_, mem_cons_self⟩⟩
          · rintro (e | _) _ h hent
            · exact trivial
            · rw [onOk_ok, wp_pure, onOk_ok, wp_pure]
              exact hent.2

end Reading

section Release

variable {id : UInt64} {key : LockKey}

theorem uses_command {β : Type} (o : LockSig.Op) (ho : ReleaseSteps o)
    {f : LockSig.Res o → LockProc β} (hf : ∀ r, Uses ReleaseSteps (f r)) :
    Uses ReleaseSteps (perform o >>= f) :=
  keeps_bind (keeps_call fun _ => ho) hf

theorem uses_getRecord : Uses ReleaseSteps (get (record id).name : LockProc _) :=
  uses_command (.get (record id).name) ⟨id, rfl⟩ fun _ => keeps_ofExcept

theorem uses_smembers (hkey : key.isIndex = true) :
    Uses ReleaseSteps (smembers key.name : LockProc _) :=
  uses_command (.smembers key.name) ⟨key, hkey, rfl⟩ fun _ => keeps_ofExcept

theorem uses_srem (hkey : key.isIndex = true) :
    Uses ReleaseSteps (write (.srem key.name id) : LockProc _) :=
  uses_command (.write (.srem key.name id)) ⟨key, hkey, rfl⟩ fun _ => keeps_ofExcept

theorem uses_del (hkey : ∀ path, key ≠ .file path) :
    Uses ReleaseSteps (write (.del key.name) : LockProc _) :=
  uses_command (.write (.del key.name)) ⟨key, hkey, rfl⟩ fun _ => keeps_ofExcept

theorem releaseFileLock_uses (id : UInt64) : Uses ReleaseSteps (releaseFileLock id) := by
  have hrecord : ∀ path, record id ≠ .file path := nofun
  unfold releaseFileLock dropRecord lockLayout
  refine keeps_bind uses_getRecord fun found => ?_
  cases found with
  | none => exact uses_del hrecord
  | some lock =>
    refine keeps_bind (keeps_forEach fun key hkey => ?_) fun _ => uses_del hrecord
    exact uses_srem (index_of_mem_lockIndices hkey)

theorem readRecords_uses (ids : List UInt64) :
    Uses ReleaseSteps (readRecords (fun id => (record id).name) ids : LockProc _) := by
  induction ids with
  | nil => exact keeps_pure
  | cons id ids ih => exact keeps_bind uses_getRecord fun _ => keeps_bind ih fun _ => keeps_pure

theorem releaseFileLocksFor_uses {others : DistributedLock → List LockKey}
    (hidx : key.isIndex = true) (hfile : ∀ path, key ≠ .file path)
    (hoths : ∀ lock, ∀ key ∈ others lock, key.isIndex = true) :
    Uses ReleaseSteps (releaseFileLocksFor key others) := by
  unfold releaseFileLocksFor
  refine keeps_bind (uses_smembers hidx) fun ids => keeps_bind ?_ fun _ => uses_del hfile
  refine keeps_forEach fun id _ => ?_
  unfold releaseIndexed
  refine keeps_bind uses_getRecord fun found => ?_
  cases found with
  | none => exact uses_del nofun
  | some lock =>
    refine keeps_bind (keeps_forEach fun key hkey => ?_) fun _ => uses_del nofun
    exact uses_command (.write (.srem key.name id)) ⟨key, hoths lock key hkey, rfl⟩
      fun _ => keeps_pure

theorem release_uses (op : LockOp) (hop : ∀ lock, op ≠ .acquireFileLock lock) :
    Uses ReleaseSteps op.program := by
  have hoths : ∀ a b c : LockKey, a.isIndex = true → b.isIndex = true → c.isIndex = true →
      ∀ key ∈ [a, b, c], key.isIndex = true := by
    intro a b c ha hb hc
    simp [ha, hb, hc]
  cases op with
  | acquireFileLock lock => exact absurd rfl (hop lock)
  | releaseFileLock id => exact keeps_bind (releaseFileLock_uses id) fun _ => keeps_pure
  | getFileLocks path =>
    have hidx : (file path).isIndex = true := rfl
    exact keeps_bind (keeps_bind (uses_smembers hidx) readRecords_uses) fun _ => keeps_pure
  | releaseFileLocksForSession id | releaseFileLocksForHandle id | releaseFileLocksForServer id =>
    refine keeps_bind (releaseFileLocksFor_uses rfl (fun path heq => ?_) fun lock => ?_)
      fun _ => keeps_pure
    · cases heq
    · exact hoths _ _ _ rfl rfl rfl

end Release

/-- **What the commands of each operation are.** -/
theorem lock_steps (op : LockOp) :
    wp (LockSteps op) op.program (fun r _ h => LockDone op r h) () [] := by
  have hrel : (∀ lock, op ≠ .acquireFileLock lock) →
      wp (fun _ => ReleaseSteps) op.program (fun _ _ _ => True) () [] :=
    fun hop => (release_uses op hop).wp () []
  cases op with
  | acquireFileLock lock => exact acquireFileLock_steps lock
  | _ => exact hrel nofun

/-! ### The locks in the index -/

/-- The locks that were written and entered in the index of their file, and not touched by a
release since. -/
def standing : LockTrace → List DistributedLock
  | [] => []
  | (_, x) :: tr =>
      match x.event.1 with
      | .inl (.write (.sadd k id)) =>
          ((written tr).filter fun lock =>
            lock.lockId == id && (file lock.filePath).name == k) ++ standing tr
      | .inl (.write (.srem _ id)) => (standing tr).filter fun lock => lock.lockId != id
      | .inl (.write (.del k)) => (standing tr).filter fun lock => (record lock.lockId).name != k
      | _ => standing tr

/-- The record of the lock has been written. -/
def HasSet (k : String) (lock : DistributedLock) (tr : LockTrace) : Prop :=
  ∃ y ∈ tr, y.2.event.1 = .inl (.write (.set k lock))

/-- The identifier has been put into the index. -/
def HasSadd (k : String) (id : UInt64) (tr : LockTrace) : Prop :=
  ∃ y ∈ tr, y.2.event.1 = .inl (.write (.sadd k id))

/-- What the server keeps of the locks that were written and entered; those entered do not
conflict. -/
structure Filed (s : LockServer) (tr : LockTrace) : Prop where
  typed : s.Typed lockLayout.index
  /-- A record is written once. -/
  once : ∀ k a b, HasSet k a tr → HasSet k b tr → a = b
  /-- Only a lock that has been written is entered. -/
  sadded : ∀ k id, HasSadd k id tr → ∃ lock, HasSet (record id).name lock tr
  wrote : ∀ lock ∈ written tr, HasSet (record lock.lockId).name lock tr
  stored : ∀ lock ∈ written tr, lockLayout.get s lock.lockId = some lock
  sub : ∀ lock ∈ standing tr, lock ∈ written tr
  filed : ∀ lock ∈ standing tr, lock.lockId ∈ s.members (file lock.filePath).name
  entered : ∀ lock ∈ written tr, HasSadd (file lock.filePath).name lock.lockId tr →
    lock ∈ standing tr
  apart : ∀ a ∈ standing tr, ∀ b ∈ standing tr, a ≠ b → locksConflict a b ≠ some true

/-- Nobody else is about to enter a lock for the same file, and who is has seen the locks that are
in the index. -/
structure Watched (tr : LockTrace) : Prop where
  alone : ∀ i j a b, acquiring (eventsOf i tr) = some a →
    acquiring (eventsOf j tr) = some b → a.filePath = b.filePath → i = j
  seen : ∀ i lock h, current (eventsOf i tr) =
      some (.acquireFileLock lock, h) → h.any isSadd = false →
    ∀ ids, (⟨.smembers (file lock.filePath).name, .ok ids⟩ : Event LockSig) ∈ h →
    ∀ other ∈ standing tr, other.filePath = lock.filePath → other.lockId ∈ ids ∧
      ∀ r, (⟨.get (record other.lockId).name, .ok r⟩ : Event LockSig) ∈ h → r = some other

section Lists

variable {i : ℕ} {x : lockMachine.Stamped} {tr : LockTrace} {k : String} {lock : DistributedLock}
  {id : UInt64}

theorem hasSet_cons : HasSet k lock ((i, x) :: tr) ↔
    x.event.1 = .inl (.write (.set k lock)) ∨ HasSet k lock tr :=
  exists_mem_cons_iff _ _ _

theorem hasSadd_cons : HasSadd k id ((i, x) :: tr) ↔
    x.event.1 = .inl (.write (.sadd k id)) ∨ HasSadd k id tr :=
  exists_mem_cons_iff _ _ _

end Lists

theorem locksConflict_comm (a b : DistributedLock) : locksConflict a b = locksConflict b a := by
  unfold locksConflict
  by_cases hfile : a.filePath = b.filePath
  · rw [hfile, bne_self_eq_false, if_neg Bool.false_ne_true, if_neg Bool.false_ne_true]
    cases checkedAdd a.offset a.length <;> cases checkedAdd b.offset b.length <;>
      simp [Bool.or_comm, or_comm]
  · rw [bne_iff_ne.2 hfile, bne_iff_ne.2 fun heq => hfile heq.symm, if_pos rfl, if_pos rfl]

namespace Filed

variable {s s' : LockServer} {i : ℕ} {x : lockMachine.Stamped} {tr : LockTrace}

theorem new : Filed Server.empty [] := by
  have hset : ∀ {k lock}, ¬ HasSet k lock [] := fun ⟨y, hy, _⟩ => by cases hy
  have hsadd : ∀ {k id}, ¬ HasSadd k id [] := fun ⟨y, hy, _⟩ => by cases hy
  refine ⟨Server.typed_empty, fun k a b ha => absurd ha hset, fun k id h => absurd h hsadd, ?_, ?_,
    ?_, ?_, ?_, ?_⟩ <;> exact nofun

/-- A command that writes or enters nothing, and takes away locks that are not in `P`. -/
theorem fewer (h : Filed s tr) {P : DistributedLock → Prop} (htyped : s'.Typed lockLayout.index)
    (hset : ∀ k a, x.event.1 ≠ .inl (.write (.set k a)))
    (hsadd : ∀ k id, x.event.1 ≠ .inl (.write (.sadd k id)))
    (hwritten : ∀ lock, lock ∈ written ((i, x) :: tr) ↔ lock ∈ written tr ∧ P lock)
    (hstand : ∀ lock, lock ∈ standing ((i, x) :: tr) ↔ lock ∈ standing tr ∧ P lock)
    (hrec : ∀ lock, P lock → lockLayout.get s' lock.lockId = lockLayout.get s lock.lockId)
    (hmembers : ∀ lock : DistributedLock, P lock →
      lock.lockId ∈ s.members (file lock.filePath).name →
        lock.lockId ∈ s'.members (file lock.filePath).name) :
    Filed s' ((i, x) :: tr) := by
  have hset' : ∀ {k a}, HasSet k a ((i, x) :: tr) ↔ HasSet k a tr :=
    fun {k a} => hasSet_cons.trans (or_iff_right (hset k a))
  have hsadd' : ∀ {k id}, HasSadd k id ((i, x) :: tr) ↔ HasSadd k id tr :=
    fun {k id} => hasSadd_cons.trans (or_iff_right (hsadd k id))
  refine ⟨htyped, fun k a b ha hb => ?_, fun k id hid => ?_, fun lock hlock => ?_,
    fun lock hlock => ?_, fun lock hlock => ?_, fun lock hlock => ?_, fun lock hlock hin => ?_,
    fun a ha b hb hne => ?_⟩
  · exact h.once k a b (hset'.1 ha) (hset'.1 hb)
  · obtain ⟨lock, hlock⟩ := h.sadded k id (hsadd'.1 hid)
    exact ⟨lock, hset'.2 hlock⟩
  · exact hset'.2 (h.wrote lock ((hwritten lock).1 hlock).1)
  · obtain ⟨hmem, hP⟩ := (hwritten lock).1 hlock
    rw [hrec lock hP]
    exact h.stored lock hmem
  · obtain ⟨hmem, hP⟩ := (hstand lock).1 hlock
    exact (hwritten lock).2 ⟨h.sub lock hmem, hP⟩
  · obtain ⟨hmem, hP⟩ := (hstand lock).1 hlock
    exact hmembers lock hP (h.filed lock hmem)
  · obtain ⟨hmem, hP⟩ := (hwritten lock).1 hlock
    exact (hstand lock).2 ⟨h.entered lock hmem (hsadd'.1 hin), hP⟩
  · exact h.apart a ((hstand a).1 ha).1 b ((hstand b).1 hb).1 hne

theorem quiet (h : Filed s tr) {o : LockSig.Op ⊕ Mark LockOp LockOutcome}
    {r : (Sig LockSig LockOp LockOutcome).Res o} (ho : ∀ w, o ≠ .inl (.write w)) :
    Filed s ((i, ⟨s, o, r⟩) :: tr) := by
  have hlists : written ((i, ⟨s, o, r⟩) :: tr) = written tr ∧
      standing ((i, ⟨s, o, r⟩) :: tr) = standing tr := by
    rcases o with (_ | _ | _ | w | _ | _) | m
    case inl.write => exact absurd rfl (ho w)
    all_goals exact ⟨rfl, rfl⟩
  refine h.fewer (P := fun _ => True) h.typed (fun k a => ho _) (fun k id => ho _) (fun lock => ?_)
    (fun lock => ?_) (fun _ _ => rfl) fun _ _ hmem => hmem
  · rw [hlists.1, and_true]
  · rw [hlists.2, and_true]

variable {key : LockKey} {r : Except WrongType Unit}

theorem srem (h : Filed s tr) (hkey : key.isIndex = true) {id : UInt64} :
    Filed (s.apply (.srem key.name id)) ((i, ⟨s, .inl (.write (.srem key.name id)), r⟩) :: tr) := by
  refine h.fewer (P := fun lock => lock.lockId ≠ id)
    (h.typed.write (index_name hkey)) nofun
    nofun (fun lock => ?_) (fun lock => ?_) (fun lock _ => ?_)
    fun lock hlock hmem => ?_
  · exact mem_filter.trans (and_congr_right fun _ => bne_iff_ne)
  · exact mem_filter.trans (and_congr_right fun _ => bne_iff_ne)
  · exact Server.doc_srem id
  · exact Server.mem_members_srem.2 ⟨hmem, fun heq => hlock heq.2⟩

theorem del (h : Filed s tr) (hkey : ∀ path, key ≠ .file path) :
    Filed (s.apply (.del key.name)) ((i, ⟨s, .inl (.write (.del key.name)), r⟩) :: tr) := by
  refine h.fewer (P := fun lock => (record lock.lockId).name ≠ key.name)
    (h.typed.write trivial) nofun
    nofun (fun lock => ?_) (fun lock => ?_) (fun lock hlock => ?_)
    fun lock hlock hmem => ?_
  · exact mem_filter.trans (and_congr_right fun _ => bne_iff_ne)
  · exact mem_filter.trans (and_congr_right fun _ => bne_iff_ne)
  · exact Server.doc_del.trans (if_neg hlock)
  · exact Server.mem_members_del.2 ⟨hmem, fun heq => hkey lock.filePath (name_injective heq).symm⟩

theorem set (h : Filed s tr) (hfresh : ∀ a, ¬ HasSet (record lock.lockId).name a tr) :
    Filed (s.apply (.set (record lock.lockId).name lock))
      ((i, ⟨s, .inl (.write (.set (record lock.lockId).name lock)), r⟩) :: tr) := by
  have hcases : ∀ {k a}, HasSet k a ((i, ⟨s, .inl (.write (.set
      (record lock.lockId).name lock)), r⟩) :: tr) →
      k = (record lock.lockId).name ∧ a = lock ∨ HasSet k a tr := by
    intro k a ha
    simpa [eq_comm] using hasSet_cons.1 ha
  have hoth : ∀ a ∈ written tr, a.lockId ≠ lock.lockId := by
    intro a ha heq
    have hset := h.wrote a ha
    rw [heq] at hset
    exact hfresh a hset
  have hrec : ∀ x, lockLayout.get (s.apply (.set (record lock.lockId).name lock)) x =
      if x = lock.lockId then some lock else lockLayout.get s x :=
    fun x => Layout.get_set (L := lockLayout)
  refine ⟨Layout.typed_set (L := lockLayout) h.typed trivial lock, fun k a b ha hb => ?_,
    fun k id hid => ?_, fun a ha => ?_, fun a ha => ?_, fun a ha => ?_, fun a ha => ?_,
    fun a ha hin => ?_, h.apart⟩
  · rcases hcases ha with ⟨rfl, rfl⟩ | ha
    · rcases hcases hb with ⟨-, rfl⟩ | hb
      · rfl
      · exact absurd hb (hfresh b)
    · rcases hcases hb with ⟨rfl, rfl⟩ | hb
      · exact absurd ha (hfresh a)
      · exact h.once k a b ha hb
  · rcases hasSadd_cons.1 hid with heq | hold
    · cases heq
    · obtain ⟨a, ha⟩ := h.sadded k id hold
      exact ⟨a, hasSet_cons.2 (.inr ha)⟩
  · rcases mem_cons.1 ha with rfl | ha
    · exact hasSet_cons.2 (.inl rfl)
    · exact hasSet_cons.2 (.inr (h.wrote a ha))
  · rcases mem_cons.1 ha with rfl | ha
    · rw [hrec, if_pos rfl]
    · rw [hrec, if_neg (hoth a ha)]
      exact h.stored a ha
  · exact mem_cons_of_mem _ (h.sub a ha)
  · have hidx : lockLayout.isIndex (.file a.filePath) = true := rfl
    exact (Layout.mem_members_set trivial hidx).2 (h.filed a ha)
  · have hold : HasSadd (file a.filePath).name a.lockId tr := by
      rcases hasSadd_cons.1 hin with heq | hold
      · cases heq
      · exact hold
    rcases mem_cons.1 ha with rfl | ha
    · -- nothing is entered under an identifier before it is written
      obtain ⟨b, hb⟩ := h.sadded _ _ hold
      exact absurd hb (hfresh b)
    · exact h.entered a ha hold

/-- A lock is entered in an index.  If it is its file's, it does not conflict with those entered
there. -/
theorem sadd (h : Filed s tr) (hkey : key.isIndex = true)
    (hset : HasSet (record lock.lockId).name lock tr)
    (hclear : key = .file lock.filePath → ∀ other ∈ standing tr, other ≠ lock →
      other.filePath = lock.filePath → locksConflict other lock = some false) :
    Filed (s.apply (.sadd key.name lock.lockId))
      ((i, ⟨s, .inl (.write (.sadd key.name lock.lockId)), r⟩) :: tr) := by
  have hset' : ∀ {k a}, HasSet k a ((i, ⟨s, .inl (.write (.sadd key.name lock.lockId)), r⟩) :: tr) ↔
      HasSet k a tr := hasSet_cons.trans (or_iff_right nofun)
  have hsadd' : ∀ {k id}, HasSadd k id ((i, ⟨s, .inl (.write (.sadd key.name lock.lockId)), r⟩) ::
      tr) ↔ key.name = k ∧ lock.lockId = id ∨ HasSadd k id tr :=
    hasSadd_cons.trans (or_congr_left (by simp))
  -- which locks are new in the index of their file
  have hnew : ∀ a, a ∈ standing ((i, ⟨s, .inl (.write (.sadd key.name lock.lockId)), r⟩) :: tr) →
      a = lock ∧ key = .file lock.filePath ∧ a ∈ written tr ∨ a ∈ standing tr := by
    intro a ha
    rcases mem_append.1 ha with ha | ha
    · obtain ⟨hmem, hboth⟩ := mem_filter.1 ha
      obtain ⟨hid, hfile⟩ := Bool.and_eq_true_iff.1 hboth
      have hwrote := h.wrote a hmem
      rw [eq_of_beq hid] at hwrote
      obtain rfl := h.once _ _ _ hwrote hset
      exact .inl ⟨rfl, (name_injective (eq_of_beq hfile)).symm, hmem⟩
    · exact .inr ha
  have hmembers : ∀ {x : UInt64} {k : String},
      x ∈ (s.apply (.sadd key.name lock.lockId)).members k ↔
        x ∈ s.members k ∨ k = key.name ∧ x = lock.lockId :=
    Server.mem_members_sadd (h.typed.not_doc _ (index_name hkey))
  have hpair : ∀ a b, a = lock ∧ key = .file lock.filePath ∧ a ∈ written tr →
      b ∈ standing tr → a ≠ b → locksConflict a b ≠ some true := by
    rintro a b ⟨rfl, hfile, -⟩ hb hne
    by_cases hpath : b.filePath = a.filePath
    · rw [locksConflict_comm, hclear hfile b hb (Ne.symm hne) hpath]
      exact nofun
    · rw [locksConflict_comm, locksConflict, bne_iff_ne.2 hpath, if_pos rfl]
      exact nofun
  refine ⟨h.typed.write (index_name hkey),
    fun k a b ha hb => h.once k a b (hset'.1 ha) (hset'.1 hb), fun k id hid => ?_,
    fun a ha => hset'.2 (h.wrote a ha), fun a ha => ?_, fun a ha => ?_, fun a ha => ?_,
    fun a ha hin => ?_, fun a ha b hb hne => ?_⟩
  · rcases hsadd'.1 hid with ⟨rfl, rfl⟩ | hold
    · exact ⟨lock, hset'.2 hset⟩
    · obtain ⟨a, ha⟩ := h.sadded k id hold
      exact ⟨a, hset'.2 ha⟩
  · exact (Server.doc_sadd lock.lockId).trans (h.stored a ha)
  · rcases hnew a ha with ⟨-, -, hmem⟩ | hold
    · exact hmem
    · exact h.sub a hold
  · rcases hnew a ha with ⟨rfl, hfile, -⟩ | hold
    · exact hmembers.2 (.inr ⟨by rw [hfile], rfl⟩)
    · exact hmembers.2 (.inl (h.filed a hold))
  · rcases hsadd'.1 hin with ⟨hk, hid⟩ | hold
    · refine mem_append_left _ (mem_filter.2 ⟨ha, ?_⟩)
      rw [hid, hk, beq_self_eq_true, beq_self_eq_true, Bool.and_true]
    · exact mem_append_right _ (h.entered a ha hold)
  · rcases hnew a ha with hanew | hold
    · rcases hnew b hb with hbnew | hbold
      · exact absurd (hanew.1.trans hbnew.1.symm) hne
      · exact hpair a b hanew hbold hne
    · rcases hnew b hb with hbnew | hbold
      · rw [locksConflict_comm]
        exact hpair b a hbnew hold (Ne.symm hne)
      · exact h.apart a hold b hbold hne

end Filed

/-! ### Who is about to enter a lock -/

section Acquiring

variable {h : List (Event (Sig LockSig LockOp LockOutcome))} {lock : DistributedLock}

theorem acquiring_eq_some : acquiring h = some lock ↔ ∃ h', current h =
    some (.acquireFileLock lock, h') ∧ h'.any isSmembers = true ∧ h'.any isSadd = false := by
  unfold acquiring
  constructor
  · intro hsome
    split at hsome
    · next lock' h' hcur =>
      split at hsome
      · next hcond =>
        cases hsome
        obtain ⟨hsmem, hsadd⟩ := Bool.and_eq_true_iff.1 hcond
        exact ⟨h', hcur, hsmem, by simpa using hsadd⟩
      · cases hsome
    · cases hsome
  · rintro ⟨h', hcur, hsmem, hsadd⟩
    rw [hcur]
    dsimp only
    rw [hsmem, hsadd, Bool.not_false, Bool.and_true, if_pos rfl]

/-- A caller that is about to enter a lock was so before, or has just read the index. -/
theorem acquiring_of_cons {e : Event (Sig LockSig LockOp LockOutcome)}
    (hsome : acquiring (e :: h) = some lock) :
    acquiring h = some lock ∨ (∃ k, e.1 = .inl (.smembers k)) ∧
      ∃ h', current h = some (.acquireFileLock lock, h') := by
  obtain ⟨h', hcur, hsmem, hsadd⟩ := acquiring_eq_some.1 hsome
  obtain ⟨o | m, r⟩ := e
  · obtain ⟨h'', hold, rfl⟩ := current_call_eq_some.1 hcur
    have hrest : h''.any isSadd = false := (Bool.or_eq_false_iff.1 hsadd).2
    cases o with
    | smembers k => exact .inr ⟨⟨k, rfl⟩, h'', hold⟩
    | _ => exact .inl (acquiring_eq_some.2 ⟨h'', hold, hsmem, hrest⟩)
  · cases m with
    | begin op =>
      cases hcur
      cases hsmem
    | finish op r => cases hcur

end Acquiring

section Watch

variable {s s' : LockServer} {i : ℕ} {tr : LockTrace}
  {o : LockSig.Op ⊕ Mark LockOp LockOutcome}
  {r : (Sig LockSig LockOp LockOutcome).Res o}

variable {other : DistributedLock} {h' : List (Event LockSig)}

theorem mem_standing_cons (hoth : other ∈ standing ((i, ⟨s, o, r⟩) :: tr)) : other ∈ standing tr ∨
      o = .inl (.write (.sadd (file other.filePath).name other.lockId)) := by
  rcases o with (_ | _ | _ | (_ | _ | ⟨k, id⟩ | _) | _ | _) | m
  case inl.write.sadd =>
    rcases mem_append.1 hoth with hnew | hold
    · obtain ⟨hid, hfile⟩ := Bool.and_eq_true_iff.1 (mem_filter.1 hnew).2
      rw [eq_of_beq hid, eq_of_beq hfile]
      exact .inr rfl
    · exact .inl hold
  case inl.write.del => exact .inl (mem_filter.1 hoth).1
  case inl.write.srem => exact .inl (mem_filter.1 hoth).1
  all_goals exact .inl hoth

/-- A caller reads the index only if nobody else is about to enter a lock for the file. -/
theorem orderly_smembers {k : String} {r : Except WrongType (List UInt64)}
    (horder : orderly tr i ⟨s, .inl (.smembers k), r⟩ = true)
    (hcur : current (eventsOf i tr) = some (.acquireFileLock lock, h'))
    {j : ℕ} (hoth : acquiring (eventsOf j tr) = some other)
    (hfile : lock.filePath = other.filePath) : i = j := by
  unfold orderly at horder
  rw [hcur] at horder
  by_contra hne
  obtain ⟨y, hy, hyj⟩ : ∃ y ∈ tr, y.1 = j := by
    cases hevs : eventsOf j tr with
    | nil =>
      rw [hevs] at hoth
      cases hoth
    | cons e h =>
      have hmem : e ∈ eventsOf j tr := by
        rw [hevs]
        exact mem_cons_self
      obtain ⟨x, hx, -⟩ := exists_of_mem_eventsOf hmem
      exact ⟨(j, x), hx, rfl⟩
  have hall := all_eq_true.1 horder y hy
  rw [hyj, hoth, Option.all_some, hfile, bne_self_eq_false, Bool.or_false] at hall
  exact hne (eq_of_beq hall).symm

/-- **One command** keeps apart those who are about to enter locks, and what they have seen. -/
theorem Watched.step (h : Watched tr) (hfiled : Filed s tr)
    (horder : orderly tr i ⟨s, o, r⟩ = true)
    (hcond : Conducted LockSteps LockDone (eventsOf i tr) o)
    (hexec : execMarks lockExec s o r s') : Watched ((i, ⟨s, o, r⟩) :: tr) := by
  -- who is about to enter a lock now was so before, or has just read the index
  have hsame : ∀ {j a}, acquiring (eventsOf j ((i, ⟨s, o, r⟩) :: tr)) = some a →
      acquiring (eventsOf j tr) = some a ∨ j = i ∧ (∃ k, o = .inl (.smembers k)) ∧
        ∃ h', current (eventsOf i tr) = some (.acquireFileLock a, h') := by
    intro j a ha
    by_cases hj : j = i
    · subst hj
      rw [eventsOf_cons_self] at ha
      exact (acquiring_of_cons ha).imp_right fun hread => ⟨rfl, hread⟩
    · rw [eventsOf_cons_ne hj] at ha
      exact .inl ha
  refine ⟨fun j j' a b ha hb hfile => ?_, fun j lock hj hcur hsadd ids hids other hoth hfile => ?_⟩
  · rcases hsame ha with haold | ⟨rfl, ⟨k, rfl⟩, h', hcur⟩
    · rcases hsame hb with hbold | ⟨rfl, ⟨k, rfl⟩, h', hcur⟩
      · exact h.alone j j' a b haold hbold hfile
      · exact (orderly_smembers horder hcur haold hfile.symm).symm
    · rcases hsame hb with hbold | ⟨rfl, -⟩
      · exact orderly_smembers horder hcur hbold hfile
      · rfl
  · by_cases hji : j = i
    · subst hji
      rw [eventsOf_cons_self] at hcur
      rcases o with o | m
      · obtain ⟨h'', hold, rfl⟩ := current_call_eq_some.1 hcur
        obtain ⟨hnot, hsadd⟩ := Bool.or_eq_false_iff.1 hsadd
        rcases mem_cons.1 hids with heq | hids
        · -- the index has just been read, and nothing else
          obtain ⟨op, h₃, hcur₃, hstep⟩ := hcond
          rw [hold] at hcur₃
          cases hcur₃
          cases heq
          obtain ⟨rfl, -⟩ := hstep
          obtain ⟨e, hans⟩ := hexec
          rw [answer_smembers e hfiled.typed (index_name rfl)] at hans
          cases congrArg Prod.fst hans
          refine ⟨e.mem_list.2 ?_, fun found hfound => ?_⟩
          · rw [← hfile]
            exact hfiled.filed other hoth
          · cases mem_singleton.1 hfound
        · have hoth : other ∈ standing tr := by
            refine (mem_standing_cons hoth).resolve_right fun heq => ?_
            cases heq
            cases hnot
          obtain ⟨hid, hget⟩ := h.seen j lock h'' hold hsadd ids hids other hoth hfile
          refine ⟨hid, fun found hfound => ?_⟩
          rcases mem_cons.1 hfound with heq | hfound
          · -- the record is read while the lock is in the index
            obtain ⟨e, hans⟩ := hexec
            cases heq
            rw [answer_get e hfiled.typed (not_index_record _)] at hans
            have hstored := hfiled.stored other (hfiled.sub other hoth)
            have hfound : Except.ok (s.doc (record other.lockId).name) = .ok found :=
              congrArg Prod.fst hans
            cases hfound
            exact hstored
          · exact hget found hfound
      · cases m with
        | begin op =>
          cases hcur
          cases hids
        | finish op r => cases hcur
    · rw [eventsOf_cons_ne hji] at hcur
      rcases mem_standing_cons hoth with hoth | rfl
      · exact h.seen j lock hj hcur hsadd ids hids other hoth hfile
      · -- somebody else enters a lock for the same file
        obtain ⟨op, h', hcur', hstep⟩ := hcond
        have hreader : acquiring (eventsOf j tr) = some lock :=
          acquiring_eq_some.2 ⟨hj, hcur, any_eq_true.2 ⟨_, hids, rfl⟩, hsadd⟩
        cases op with
        | acquireFileLock lock' =>
          obtain ⟨-, -, ⟨hname, ids', hids', hsadd', -⟩ | ⟨key, -, hname, hnot⟩⟩ := hstep
          · have hwriter : acquiring (eventsOf i tr) = some lock' :=
              acquiring_eq_some.2 ⟨h', hcur', any_eq_true.2 ⟨_, hids', rfl⟩, hsadd'⟩
            have hpath : other.filePath = lock'.filePath := file.inj (name_injective hname)
            exact absurd (h.alone j i lock lock' hreader hwriter (hfile.symm.trans hpath)) hji
          · exact absurd (name_injective hname).symm (hnot _)
        | _ => exact hstep.elim

theorem LockSteps.cases {op : LockOp} {o : LockSig.Op} (hstep : LockSteps op h' o) :
    (∃ lock, op = .acquireFileLock lock ∧ AcquireSteps lock h' o) ∨ ReleaseSteps o := by
  cases op with
  | acquireFileLock lock => exact .inl ⟨lock, rfl, hstep⟩
  | _ => exact .inr hstep

theorem exists_of_mem_current {op : LockOp}
    (hcur : current (eventsOf i tr) = some (op, h')) {e : Event LockSig}
    (he : e ∈ h') : ∃ y ∈ tr, y.2.event.1 = .inl e.1 := by
  have hmem := mem_of_mem_current hcur he
  obtain ⟨x, hx, hev⟩ := exists_of_mem_eventsOf hmem
  refine ⟨(i, x), hx, ?_⟩
  rw [hev]
  rfl

/-- Who is about to enter a lock has seen that it does not conflict with those in the index. -/
theorem Watched.clear (h : Watched tr)
    (hcur : current (eventsOf i tr) = some (.acquireFileLock lock, h'))
    (hread : Reading lock [] h') (hoth : other ∈ standing tr)
    (hfile : other.filePath = lock.filePath) : locksConflict other lock = some false := by
  obtain ⟨ids, hids, hsadd, hclear⟩ := hread
  obtain ⟨hid, hget⟩ := h.seen i lock h' hcur hsadd ids hids other hoth hfile
  rcases hclear other.lockId hid with hnil | ⟨found, hfound, hconf⟩
  · cases hnil
  · exact hconf other (hget found hfound)

/-- **One command** keeps the locks in the index apart. -/
theorem Filed.step (h : Filed s tr) (hwatch : Watched tr)
    (horder : orderly tr i ⟨s, o, r⟩ = true)
    (hcond : Conducted LockSteps LockDone (eventsOf i tr) o)
    (hexec : execMarks lockExec s o r s') : Filed s' ((i, ⟨s, o, r⟩) :: tr) := by
  rcases o with o | m
  · obtain ⟨op, h', hcur, hstep⟩ := hcond
    obtain ⟨e, hans⟩ := hexec
    have hs' : (answer e o s).2 = s' := congrArg Prod.snd hans
    cases o with
    | write w =>
      rw [← hs']
      rcases hstep.cases with ⟨lock, rfl, hacq⟩ | hrel
      · cases w with
        | set k a =>
          obtain ⟨rfl, rfl, -⟩ := hacq
          refine h.set fun b hb => ?_
          obtain ⟨y, hy, hset⟩ := hb
          -- the record is written for the first time
          have hall := all_eq_true.1 horder y hy
          rw [hset] at hall
          unfold isSetOf at hall
          simp at hall
        | sadd k m =>
          obtain ⟨rfl, ⟨r', hset⟩, hkey⟩ := hacq
          have hwrote : HasSet (record lock.lockId).name lock tr := exists_of_mem_current hcur hset
          rcases hkey with ⟨rfl, hread⟩ | ⟨key, hidx, rfl, hnot⟩
          · exact h.sadd rfl hwrote fun _ other hoth _ hfile => hwatch.clear hcur hread hoth hfile
          · exact h.sadd hidx hwrote fun heq => absurd heq (hnot _)
        | del k | srem k m => exact hacq.elim
      · cases w with
        | set k a | sadd k m => exact hrel.elim
        | del k =>
          obtain ⟨key, hnot, rfl⟩ := hrel
          exact h.del hnot
        | srem k m =>
          obtain ⟨key, hidx, rfl⟩ := hrel
          exact h.srem hidx
    | exec k version writes => rcases hstep.cases with ⟨lock, rfl, hno⟩ | hno <;> exact hno.elim
    | get k | smembers k | keys start | watch k =>
      rw [answer_snd_of_read e (fun w heq => by cases heq) fun k v ws heq => by cases heq] at hs'
      exact hs' ▸ h.quiet nofun
  · have hs' : s' = s := hexec
    rw [hs']
    exact h.quiet nofun

end Watch

/-! ### Runs -/

section Runs

variable {c : lockMachine.Config} {tr : LockTrace}

theorem LockRaceRun.filed (hrun : LockRaceRun c tr)
    (hsteps : Machine.EachCall (M := lockMachine) (fun tr i x => orderly tr i x = true) tr) :
    Filed c.world tr ∧ Watched tr := by
  have hinv := Run.induction hrun lock_steps (fun s tr =>
    Machine.EachCall (fun tr i x => orderly tr i x = true) tr → Filed s tr ∧ Watched tr)
  refine hinv ?_ ?_ ?_ hsteps
  · rintro s rfl -
    refine ⟨.new, fun i j a b ha => ?_, fun i lock h hcur => ?_⟩
    · cases ha
    · cases hcur
  · exact fun s s' tr henv => henv.elim
  · rintro i tr o r s s' hcond hexec ih ⟨horder, hsteps⟩
    obtain ⟨hfiled, hwatch⟩ := ih hsteps
    exact ⟨hfiled.step hwatch horder hcond hexec, hwatch.step hfiled horder hcond hexec⟩

/-- A lock that has been granted has been entered in the index of its file. -/
theorem LockRaceRun.granted (hrun : LockRaceRun c tr) :
    ∀ lock, Granted lock tr → HasSadd (file lock.filePath).name lock.lockId tr := by
  apply Run.induction hrun lock_steps fun _ tr => ∀ lock, Granted lock tr →
    HasSadd (file lock.filePath).name lock.lockId tr
  · rintro s - lock ⟨y, hy, -⟩
    cases hy
  · exact fun s s' tr henv => henv.elim
  · rintro i tr o r s s' hcond - ih lock ⟨y, hy, hgrant⟩
    rcases mem_cons.1 hy with rfl | hy
    · cases isGrant_iff.1 hgrant
      obtain ⟨h', hcur, r', hsadd⟩ := hcond
      exact hasSadd_cons.2 (.inr (exists_of_mem_current hcur hsadd))
    · exact hasSadd_cons.2 (.inr (ih lock ⟨y, hy, hgrant⟩))

/-- **Locks that are held do not conflict** in orderly runs. -/
theorem held_apart (hrun : LockRaceRun c tr)
    (hsteps : Machine.EachCall (M := lockMachine) (fun tr i x => orderly tr i x = true) tr)
    {a b : DistributedLock} (ha : Held a tr) (hb : Held b tr) (hne : a ≠ b) :
    locksConflict a b ≠ some true := by
  obtain ⟨hfiled, -⟩ := hrun.filed hsteps
  have hstand : ∀ {lock}, Held lock tr → lock ∈ standing tr :=
    fun {lock} hheld => hfiled.entered lock hheld.1 (hrun.granted lock hheld.2)
  exact hfiled.apart a (hstand ha) b (hstand hb) hne

end Runs

namespace Sample

/-- Runs schedules. -/
def lockPlayer : Machine.Player lockMachine :=
  player (answer .plain) (fun _ _ => ⟨.plain, rfl⟩) (fun (e : Empty) _ => e.elim)
    fun e _ => e.elim

def lockStart : lockMachine.Config := ⟨Server.empty, fun _ => .idle ()⟩

/-- A caller acquires a lock, with so many commands. -/
def acquireAlone (i : ℕ) (lock : DistributedLock) (commands : ℕ) : List lockPlayer.Move :=
  Machine.Player.work (P := lockPlayer) i (LockOp.acquireFileLock lock) commands

/-- Two callers read the index of the file before one of them enters its lock. -/
def acquireTogether (a b : DistributedLock) : List lockPlayer.Move :=
  [.start (0 : ℕ) (LockOp.acquireFileLock a), .start (1 : ℕ) (LockOp.acquireFileLock b),
    .call (0 : ℕ), .call (0 : ℕ), .call (1 : ℕ), .call (1 : ℕ)] ++
    (replicate 6 (.call (0 : ℕ)) ++ replicate 6 (.call (1 : ℕ)))

/-- One lock after the other on a file: the second caller reads the record of the first lock. -/
theorem held_apart_next :
    ∃ c tr, LockRaceRun c tr ∧ Held (fileLock 1 7 3) tr ∧ Held (nextLock 2 8 4) tr ∧
      locksConflict (fileLock 1 7 3) (nextLock 2 8 4) ≠ some true := by
  obtain ⟨⟨c, tr⟩, hz, hsteps, ha, hb⟩ : ∃ z,
      Machine.Player.playAll (lockStart, []) (acquireAlone 0 (fileLock 1 7 3) 8 ++
        acquireAlone 1 (nextLock 2 8 4) 9) = some z ∧
      Machine.EachCall (fun tr i x => orderly tr i x = true) z.2 ∧
      Held (fileLock 1 7 3) z.2 ∧ Held (nextLock 2 8 4) z.2 :=
    exists_of_any (by decide +kernel)
  have hstart : LockRaceRun lockStart [] := .init ⟨fun _ => rfl, rfl⟩
  have hrun : LockRaceRun c tr := hstart.playAll hz
  exact ⟨c, tr, hrun, ha, hb, held_apart hrun hsteps ha hb (by decide)⟩

/-- **Two callers that read the index at the same time** are both granted locks that conflict. -/
theorem both_held :
    ∃ c tr, LockRaceRun c tr ∧ Held (fileLock 1 7 3) tr ∧ Held (fileLock 2 8 4) tr ∧
      locksConflict (fileLock 1 7 3) (fileLock 2 8 4) = some true := by
  obtain ⟨⟨c, tr⟩, hz, ha, hb⟩ : ∃ z, Machine.Player.playAll (lockStart, [])
      (acquireTogether (fileLock 1 7 3) (fileLock 2 8 4)) = some z ∧
      Held (fileLock 1 7 3) z.2 ∧ Held (fileLock 2 8 4) z.2 := exists_of_any (by decide +kernel)
  have hstart : LockRaceRun lockStart [] := .init ⟨fun _ => rfl, rfl⟩
  exact ⟨c, tr, hstart.playAll hz, ha, hb, by decide +kernel⟩

end Sample

end RustSmb.Redis
