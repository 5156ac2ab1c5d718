import RustSmb.System.Files

/-!
# Byte-range locks

LOCK looks at the locks on the file, asks the backend, draws a number and records the lock:
four calls, between which other connections may do the same.  The store refuses a lock
that conflicts with a recorded one, but LOCK does not look at its answer.  Locks are filed under the
path of their handle as text, so the store sees no conflict between two names of one file.

## Main results

* `locksFree` — recorded locks never conflict.
* `locksNamed_of_inTurn` — in turn, the locks on one file are filed under one name.
* `handlersMake_lockChecked` — LOCK records what it has checked.
* `locks_honoured` — **if locks are recorded in turn, held locks are stored and do not conflict, and
  an answered LOCK was granted.**
* `Sample.lock_granted_twice` — two servers grant one range at the same time.
-/

set_option synthInstance.maxSize 1000000

namespace RustSmb

open SmbOp Table List Option

variable (header : Smb2Header)

/-! ### The store -/

/-- Does a call of the store release a lock? -/
def StoreOp.releases (l : DistributedLock) : StoreOp → Bool
  | .releaseFileLock id => id == l.lockId
  | .releaseFileLocksForHandle id => id == l.handleId
  | .releaseFileLocksForServer server => server == l.serverId
  | _ => false

namespace MemoryStateStore

variable {now : UInt64} {o : StoreOp} {st : MemoryStateStore} {l : DistributedLock} {id : UInt64}

theorem acquireFileLock_of_clear (h : ∀ l' ∈ st.fileLocks.values, l.conflictsWith l' = false) :
    st.acquireFileLock l = (true, { st with fileLocks := st.fileLocks.insert l.lockId l }) := by
  unfold acquireFileLock
  simpa using h

/-- A lock that is new in the store is the one that was acquired, and conflicts with none that was
there. -/
theorem lookup_fileLocks_answer (h : (answer now o st).2.fileLocks.lookup id = some l) :
    st.fileLocks.lookup id = some l ∨
      (o = .acquireFileLock l ∧ ∀ l' ∈ st.fileLocks.values, l.conflictsWith l' = false) := by
  by_cases ho : o.effect = .lock
  · cases o with
    | acquireFileLock l₀ =>
      have hst : (answer now (.acquireFileLock l₀) st).2 = (st.acquireFileLock l₀).2 := rfl
      rw [hst] at h
      unfold acquireFileLock at h
      split at h
      · exact .inl h
      · next hclear =>
        rcases of_lookup_insert h with ⟨rfl, rfl⟩ | h
        · exact .inr ⟨rfl, by simpa using hclear⟩
        · exact .inl h
    | releaseFileLock id₀ =>
      left
      simp only [answer, lookup_erase_ite] at h
      split at h
      · cases h
      · exact h
    | releaseFileLocksForHandle _ | releaseFileLocksForServer _ =>
      left
      simp only [answer, lookup_retain, filter_eq_some_iff] at h
      exact h.1
    | _ => cases ho
  · rw [answer_fileLocks ho] at h
    exact .inl h

/-- A lock stays in the store until it is released, unless its number is used again. -/
theorem lookup_fileLocks_kept (h : st.fileLocks.lookup l.lockId = some l)
    (hr : o.releases l = false)
    (hid : ∀ l', o = .acquireFileLock l' → st.fileLocks.lookup l'.lockId = none) :
    (answer now o st).2.fileLocks.lookup l.lockId = some l := by
  by_cases ho : o.effect = .lock
  · cases o with
    | acquireFileLock l₀ =>
      have hst : (answer now (.acquireFileLock l₀) st).2 = (st.acquireFileLock l₀).2 := rfl
      rw [hst]
      unfold acquireFileLock
      split
      · exact h
      · have hne : l.lockId ≠ l₀.lockId := by
          intro heq
          rw [heq, hid l₀ rfl] at h
          cases h
        simpa only [lookup_insert_ite, if_neg hne] using h
    | releaseFileLock id₀ =>
      have hne : l.lockId ≠ id₀ := Ne.symm (beq_eq_false_iff_ne.1 hr)
      simpa only [answer, lookup_erase_ite, if_neg hne] using h
    | releaseFileLocksForHandle _ | releaseFileLocksForServer _ =>
      have hne := bne_iff_ne.2 (Ne.symm (beq_eq_false_iff_ne.1 hr))
      simp only [answer, lookup_retain, filter_eq_some_iff]
      exact ⟨h, hne⟩
    | _ => cases ho
  · rw [answer_fileLocks ho]
    exact h

end MemoryStateStore

/-! ### What LOCK does -/

section Handlers

open Proc Handler

/-- Does a call look up the locks under a path? -/
def looksAtLocks (path : String) : SmbOp → Bool
  | .store (.getFileLocks path') => path' == path
  | _ => false

/-- A lock is recorded after a look at the locks on its file, which showed no conflict. -/
def LockChecked (e : List (Event Smb)) (o : SmbOp) : Prop :=
  ∀ l, o = .store (.acquireFileLock l) → ∃ before after r,
    e = before ++ ⟨store (.getFileLocks l.filePath), r⟩ :: after ∧
    (∀ x ∈ before, looksAtLocks l.filePath x.1 = false) ∧
    ∀ locks : List DistributedLock, r = .ok locks → ∀ l' ∈ locks, l.conflictsWith l' = false

theorem lockChecked_of_ne {e : List (Event Smb)} {o : SmbOp}
    (ho : ∀ l, o ≠ .store (.acquireFileLock l)) : LockChecked e o :=
  fun l hl => absurd hl (ho l)

instance : Tolerates LockChecked
    [.counter, .sessionCounter, .createSession, .session, .createTree, .deleteTree, .fileHandles,
      .createHandle, .handle, .lease, .backend, .registry, .oplock, .registerOplock,
      .acknowledge, .authenticate] where
  call e o ho := by
    refine lockChecked_of_ne ?_
    rintro l rfl
    simp [effect, StoreOp.effect] at ho

instance {lockId : UInt64} :
    Allows (S := Smb) LockChecked (.store (.releaseFileLock lockId)) :=
  ⟨fun _ => lockChecked_of_ne nofun⟩

instance {id : HandleId} :
    Allows (S := Smb) LockChecked (.store (.releaseFileLocksForHandle id)) :=
  ⟨fun _ => lockChecked_of_ne nofun⟩

/-- A range has been locked for a handle, or no number could be drawn for the lock. -/
def LockRecorded (handleId : HandleId) (path : String) (h : List (Event Smb)) (e : LockElement) :
    Prop :=
  (∃ l ack, ⟨store (.acquireFileLock l), ack⟩ ∈ h ∧ l.handleId = handleId ∧
    l.filePath = path ∧ l.offset = e.offset ∧ l.length = e.length ∧
    l.exclusive = e.isExclusive) ∨
  ∃ err, ⟨store .nextFileLockId, .error err⟩ ∈ h

theorem LockRecorded.mono {handleId : HandleId} {path : String} {h h' : List (Event Smb)}
    {e : LockElement} (hr : LockRecorded handleId path h e) (hs : h <:+ h') :
    LockRecorded handleId path h' e := by
  rcases hr with ⟨l, ack, hmem, hl⟩ | ⟨err, hmem⟩
  · exact .inl ⟨l, ack, hs.subset hmem, hl⟩
  · exact .inr ⟨err, hs.subset hmem⟩

variable {s : ConnectionHandler} {h : List (Event Smb)}

theorem distributedLock_wp (handleId : HandleId) (handle : HandleState) (lockId : UInt64)
    (e : LockElement) :
    wp LockChecked (distributedLock header handleId handle lockId e)
      (onOk (fun _ _ _ => True) fun l s' h' => s' = s ∧ ∃ now, h' = ⟨SmbOp.now, now⟩ :: h ∧
        l = ⟨lockId, handleId, header.sessionId, s.serverId, handle.path, e.offset, e.length,
          e.isExclusive, now⟩) s h := by
  unfold distributedLock
  rw [wp_bind, wp_get]
  refine wp_bind.2 (wp_perform.2 ⟨lockChecked_of_ne nofun, fun now => ?_⟩)
  exact wp_pure.2 ⟨rfl, now, rfl, rfl⟩

theorem fileLocks_wp (path : String) :
    wp LockChecked (fileLocks path)
      (onOk (fun _ _ _ => True) fun locks s' h' => s' = s ∧ ∃ r : Except StateError _,
        h' = ⟨store (.getFileLocks path), r⟩ :: h ∧
        ∀ found : List DistributedLock, r = .ok found → locks = found) s h := by
  unfold fileLocks
  refine wp_bind.2 (wp_store.2 ⟨lockChecked_of_ne nofun, fun r => ?_⟩)
  cases r with
  | ok found => exact wp_pure.2 ⟨rfl, .ok found, rfl, fun _ hf => Except.ok.inj hf⟩
  | error err => exact wp_pure.2 ⟨rfl, .error err, rfl, nofun⟩

theorem abortLocks_wp {γ : Type} (acquired : List UInt64) (err : HandlerError)
    {Q : γ → ConnectionHandler → List (Event Smb) → Prop} :
    wp LockChecked (abortLocks acquired err) (onOk (fun _ _ _ => True) Q) s h := by
  unfold abortLocks rollbackLocks
  refine wp_seq (wp_forEach (fun id _ s h (_ : True) => ?_) trivial)
    fun _ s h _ => wp_throw.2 trivial
  exact wp_bind.2 (wp_store.2 ⟨lockChecked_of_ne nofun, fun _ => wp_pure.2 trivial⟩)

theorem recordLock_wp (handleId : HandleId) (handle : HandleState) (e : LockElement)
    (acquired : List UInt64) {before after : List (Event Smb)}
    {r : Except StateError (List DistributedLock)}
    (hh : h = before ++ ⟨store (.getFileLocks handle.path), r⟩ :: after)
    (hprev : ∀ x ∈ before, looksAtLocks handle.path x.1 = false)
    (hclear : ∀ locks, r = .ok locks → ∀ l' ∈ locks, ∀ lockId now,
      DistributedLock.conflictsWith ⟨lockId, handleId, header.sessionId, s.serverId, handle.path,
        e.offset, e.length, e.isExclusive, now⟩ l' = false) :
    wp LockChecked (recordLock header handleId handle e acquired)
      (onOk (fun _ _ _ => True) fun _ _ h' =>
        h <:+ h' ∧ LockRecorded handleId handle.path h' e) s h := by
  unfold recordLock
  refine wp_bind.2 (wp_store.2 ⟨lockChecked_of_ne nofun, fun drawn => ?_⟩)
  cases drawn with
  | error err => exact wp_pure.2 ⟨suffix_cons _ _, .inr ⟨err, mem_cons_self⟩⟩
  | ok lockId =>
    refine wp_seq (distributedLock_wp header handleId handle lockId e) fun l s' h' hl => ?_
    obtain ⟨rfl, now, rfl, rfl⟩ := hl
    refine wp_bind.2 (wp_store.2 ⟨?_, fun ack => wp_pure.2 ⟨?_, .inl ?_⟩⟩)
    · -- since the look, a lock of the backend and a number were asked for
      rintro l' hl'
      cases hl'
      refine ⟨⟨SmbOp.now, now⟩ :: ⟨store .nextFileLockId, .ok lockId⟩ :: before, after, r,
        by rw [hh]; rfl, ?_, fun locks hr l' hl' => hclear locks hr l' hl' lockId now⟩
      exact forall_mem_cons.2 ⟨rfl, forall_mem_cons.2 ⟨rfl, hprev⟩⟩
    · exact ((suffix_cons _ _).trans (suffix_cons _ _)).trans (suffix_cons _ _)
    · exact ⟨_, ack, mem_cons_self, rfl, rfl, rfl, rfl, rfl⟩

theorem lockRange_wp (share : String) (handleId : HandleId) (handle : HandleState) (e : LockElement)
    (acquired : List UInt64) :
    wp LockChecked (lockRange header share handleId handle e acquired)
      (onOk (fun _ _ _ => True) fun _ _ h' =>
        h <:+ h' ∧ LockRecorded handleId handle.path h' e) s h := by
  unfold lockRange
  refine wp_seq (fileLocks_wp handle.path) fun locks s₁ h₁ hlocks => ?_
  obtain ⟨rfl, r, rfl, hfound⟩ := hlocks
  refine wp_seq (distributedLock_wp header handleId handle 0 e) fun newLock s₂ h₂ hnew => ?_
  obtain ⟨rfl, now, rfl, rfl⟩ := hnew
  split
  · exact abortLocks_wp _ _
  · next hclear =>
    refine wp_bind.2 (wp_perform.2 ⟨lockChecked_of_ne nofun, fun granted => ?_⟩)
    cases granted with
    | error err => cases err <;> exact abortLocks_wp _ _
    | ok u =>
      have hsplit : (⟨backend share (.lock ⟨handleId, handleId, handle.backendInternalId⟩
            e.fileLock), .ok u⟩ : Event Smb) :: ⟨SmbOp.now, now⟩ ::
          ⟨store (.getFileLocks handle.path), r⟩ :: h =
          [⟨backend share (.lock ⟨handleId, handleId, handle.backendInternalId⟩
            e.fileLock), .ok u⟩, ⟨SmbOp.now, now⟩] ++
          ⟨store (.getFileLocks handle.path), r⟩ :: h := rfl
      refine wp_mono (recordLock_wp header handleId handle e acquired hsplit
        (by simp [looksAtLocks]) fun found hr l' hl' lockId now' => ?_) ?_
      · rw [hfound found hr] at hclear
        exact Bool.eq_false_iff.2 fun hc => hclear (any_eq_true.2 ⟨l', hl', hc⟩)
      · rintro (err | ids) s' h' hr
        · trivial
        · refine ⟨IsSuffix.trans ?_ hr.1, hr.2⟩
          exact ((suffix_cons _ _).trans (suffix_cons _ _)).trans (suffix_cons _ _)

theorem records_none {γ : Type} {x : Handler γ} [Walks (fun _ _ => True) LockChecked x] :
    wp LockChecked x (onOk (fun _ _ _ => True) fun _ _ h' => h <:+ h') s h := by
  refine wp_mono (wp_grows (walked (R := fun _ _ => True) s h trivial)) ?_
  rintro (err | a) s' h' ⟨-, hs⟩
  · trivial
  · exact hs

instance {share : String} {handleId : HandleId} {handle : HandleState}
    {e : LockElement} :
    Walks (fun _ _ => True) LockChecked (unlockRange share handleId handle e) := by
  refine walks_step fun locks => walks_seq ?_ fun _ => walks_step fun r => ?_
  · unfold releaseRecorded
    split <;> infer_instance
  · split <;> infer_instance

theorem processLocks_wp (share : String) (handleId : HandleId) (handle : HandleState)
    (elements : List LockElement) (acquired : List UInt64) :
    wp LockChecked (processLocks header share handleId handle elements acquired)
      (onOk (fun _ _ _ => True) fun _ _ h' => h <:+ h' ∧ ∀ e ∈ elements, e.isUnlock = false →
        LockRecorded handleId handle.path h' e) s h := by
  induction elements generalizing acquired s h with
  | nil => exact wp_pure.2 ⟨suffix_refl h, nofun⟩
  | cons e rest ih =>
    unfold processLocks
    refine wp_seq records_none fun _ s h₁ h₁s => ?_
    split
    · next hunlock =>
      refine wp_seq records_none fun _ s h₂ h₂s => ?_
      refine wp_mono (ih acquired) ?_
      rintro (err | _) s' h' hr
      · trivial
      · refine ⟨(h₁s.trans h₂s).trans hr.1, forall_mem_cons.2 ⟨fun hno => ?_, hr.2⟩⟩
        rw [hunlock] at hno
        cases hno
    · refine wp_seq (lockRange_wp header share handleId handle e acquired) fun ids s h₂ h₂s => ?_
      refine wp_mono (ih ids) ?_
      rintro (err | _) s' h' hr
      · trivial
      · exact ⟨(h₁s.trans h₂s.1).trans hr.1, forall_mem_cons.2 ⟨fun _ => h₂s.2.mono hr.1, hr.2⟩⟩

variable [Externs]

/-- The locks that a LOCK request asks for have been recorded, on the file of its handle. -/
def LocksRecorded (body : Bytes) (h : List (Event Smb)) : Prop :=
  ∃ elements handle, lockElements body 24 (body.u16 2).toNat = some elements ∧
    foundHandle (fileIdAt body 8) handle ∈ h ∧ ∀ e ∈ elements, e.isUnlock = false →
      LockRecorded (fileIdAt body 8) handle.path h e

theorem handleLock_wp (body : Bytes) :
    wp LockChecked (handleLock header body)
      (onOk (fun _ _ _ => True) fun _ _ h' => LocksRecorded body h') s [] := by
  unfold handleLock
  rw [lockOwnedHandle_eq]
  refine wp_seq records_none fun _ s h₁ _ => ?_
  refine wp_seq records_none fun _ s h₂ _ => ?_
  refine wp_seq (ownedHandle_wp header _ _ (lockChecked_of_ne nofun)) fun handle s h₃ hfound => ?_
  obtain ⟨⟨rfl, rfl⟩, -⟩ := hfound
  unfold lockHandle
  refine wp_bind.2 (wp_getOrFail.2 ⟨fun elements helems => ?_, fun _ => trivial⟩)
  refine wp_seq records_none fun _ s h₄ h₄s => ?_
  refine wp_seq records_none fun share s h₅ h₅s => ?_
  refine wp_seq (processLocks_wp header share (fileIdAt body 8) handle elements [])
    fun _ s h₆ h₆s => ?_
  refine wp_mono (records_none) ?_
  rintro (err | _) s' h' hs
  · trivial
  · have hgrown := ((h₄s.trans h₅s).trans h₆s.1).trans hs
    exact ⟨elements, handle, helems, hgrown.subset mem_cons_self,
      fun e he hno => (h₆s.2 e he hno).mono hs⟩

theorem handleClose_lockChecked (body : Bytes) :
    Always LockChecked (handleClose header body) := by
  refine keeps_step fun _ => keeps_step fun handle => keeps_bind ?_ fun _ => walked
  unfold releaseCaching
  split
  · exact walked
  split <;> exact walked

/-- **LOCK records what it has checked**, and no other command records locks. -/
theorem handlersMake_lockChecked : HandlersMake fun _ _ e o => LockChecked e o := by
  intro cmd g _
  unfold handleCommand
  cases hcmd : cmd.header.command with
  | close => exact keeps_map (handleClose_lockChecked cmd.header cmd.body) _ _ trivial
  | lock =>
    refine wp_map.2 (wp_mono (handleLock_wp cmd.header cmd.body) ?_)
    rintro (e | r) s h - <;> trivial
  | _ => exact Always.wp walked cmd.handler []

end Handlers

/-! ### Locks that do not conflict -/

namespace DistributedLock

/-- Two locks conflict on a file, by whatever names they are filed: the paths lead to one file, and
under one name they would conflict. -/
def conflictsOnFile (l l' : DistributedLock) : Bool :=
  pathParts l.filePath == pathParts l'.filePath &&
    l.conflictsWith { l' with filePath := l.filePath }

/-- Locks that do not conflict as they are filed do not conflict on a file that has one name. -/
theorem conflictsOnFile_eq_false {l l' : DistributedLock}
    (hname : pathParts l.filePath = pathParts l'.filePath → l.filePath = l'.filePath)
    (hno : l.conflictsWith l' = false) : l.conflictsOnFile l' = false := by
  by_cases hparts : pathParts l.filePath = pathParts l'.filePath
  · have heq : { l' with filePath := l.filePath } = l' := by rw [hname hparts]
    unfold conflictsOnFile
    rw [heq, hno, Bool.and_false]
  · unfold conflictsOnFile
    rw [beq_eq_false_iff_ne.2 hparts, Bool.false_and]

end DistributedLock

/-- Does a call record a lock that conflicts with `l`? -/
def recordsConflict (l : DistributedLock) : SmbOp ⊕ Mark → Bool
  | .inl (.store (.acquireFileLock l')) => l.conflictsWith l'
  | _ => false

/-- No stored lock conflicts with `l`. -/
def Clear (l : DistributedLock) (st : MemoryStateStore) : Prop :=
  ∀ l' ∈ st.fileLocks.values, l.conflictsWith l' = false

/-- No two stored locks conflict. -/
def LocksFree (st : MemoryStateStore) : Prop := ∀ l ∈ st.fileLocks.values, Clear l st

section Store

variable {now : UInt64} {o : StoreOp} {st : MemoryStateStore} {l : DistributedLock}

theorem mem_fileLocks_answer
    (hl : l ∈ (MemoryStateStore.answer now o st).2.fileLocks.values) :
    l ∈ st.fileLocks.values ∨ (o = .acquireFileLock l ∧ Clear l st) := by
  obtain ⟨id, hid⟩ := mem_values.1 hl
  exact (MemoryStateStore.lookup_fileLocks_answer hid).imp_left fun h => mem_values.2 ⟨id, h⟩

theorem Clear.answer (h : Clear l st) (ho : recordsConflict l (.inl (.store o)) = false) :
    Clear l (MemoryStateStore.answer now o st).2 := by
  intro l' hl'
  rcases mem_fileLocks_answer hl' with hold | ⟨rfl, -⟩
  · exact h l' hold
  · exact ho

theorem LocksFree.answer (h : LocksFree st) : LocksFree (MemoryStateStore.answer now o st).2 := by
  intro l hl l' hl'
  rcases mem_fileLocks_answer hl with hold | ⟨rfl, hclear⟩
  · rcases mem_fileLocks_answer hl' with hold' | ⟨rfl, hclear'⟩
    · exact h l hold l' hold'
    · rw [DistributedLock.conflictsWith_comm]
      exact hclear' l hold
  · rcases mem_fileLocks_answer hl' with hold' | ⟨hacq, -⟩
    · exact hclear l' hold'
    · cases hacq
      exact l.conflictsWith_self

end Store

/-! ### Runs -/

section Runs

variable [Externs] {α β : Type} [AuthProvider α] [StorageBackend β]

/-- A lock is filed under the name in use: that of the other locks on its file, and that of its
handle, which has not moved. -/
def LockNameInUse (st : MemoryStateStore) (l : DistributedLock) : Prop :=
  (∀ l' ∈ st.fileLocks.values, pathParts l.filePath = pathParts l'.filePath →
    l.filePath = l'.filePath) ∧
  ∀ h ∈ st.handles.lookup l.handleId, h.path = l.filePath

/-- A handle is recorded under the name of its locks, and if it moves, there is no lock on what was
renamed. -/
def LocksStay (st : MemoryStateStore) (h : HandleState) : Prop :=
  (∀ l ∈ st.fileLocks.values, l.handleId = h.persistentId → h.path = l.filePath) ∧
  ∀ old ∈ st.handles.lookup h.persistentId, old.path ≠ h.path →
    ∀ l ∈ st.fileLocks.values, ¬ pathParts old.path <+: pathParts l.filePath

instance (st : MemoryStateStore) (l : DistributedLock) : Decidable (LockNameInUse st l) := by
  unfold LockNameInUse
  infer_instance

instance (st : MemoryStateStore) (h : HandleState) : Decidable (LocksStay st h) := by
  unfold LocksStay
  infer_instance

/-- The steps of a run in which locks are recorded in turn.

* Between the last look of a connection at the locks on a file and its recording of one, nobody
  records a conflicting one.  The number is not in use, and the name is the one in use.
* A handle is not renamed away from locks. -/
def LocksInTurn (tr : Trace (α := α) (β := β) anyCall) (i : ℕ)
    (x : (smbMachine α β anyCall).Stamped) : Prop :=
  match x.event.1 with
  | .inl (.store (.acquireFileLock l)) =>
      Machine.Undisturbed (M := smbMachine α β anyCall) i
        (fun y => y.event.1.elim (looksAtLocks l.filePath) fun _ => false)
        (fun y => recordsConflict l y.event.1 = true) tr ∧
      x.world.store.fileLocks.lookup l.lockId = none ∧ LockNameInUse x.world.store l
  | .inl (.store (.createHandle h)) | .inl (.store (.updateHandle h)) => LocksStay x.world.store h
  | _ => True

instance (tr : Trace (α := α) (β := β) anyCall) (i : ℕ) (x : (smbMachine α β anyCall).Stamped) :
    Decidable (LocksInTurn tr i x) := by
  unfold LocksInTurn
  split <;> infer_instance

/-- A step records a lock. -/
def Grants (l : DistributedLock) (_ : (smbMachine α β anyCall).Config)
    (step : Option (ℕ × (smbMachine α β anyCall).Stamped))
    (_ : (smbMachine α β anyCall).Config) : Prop :=
  ∃ x ∈ step, x.2.event.1 = .inl (.store (.acquireFileLock l))

/-- A step releases a lock: a call of the store does, or the server has failed that has granted
it. -/
def Releases (l : DistributedLock) (c : (smbMachine α β anyCall).Config)
    (step : Option (ℕ × (smbMachine α β anyCall).Stamped))
    (c' : (smbMachine α β anyCall).Config) : Prop :=
  match step with
  | some x => ∃ o, x.2.event.1 = .inl (.store o) ∧ o.releases l = true
  | none =>
      c'.phase = c.phase ∧
        c'.world = (c.world.callStore (.releaseFileLocksForServer l.serverId)).2

/-- A lock was granted and has not been released since. -/
abbrev Held (l : DistributedLock) :
    (smbMachine α β anyCall).Config → Trace (α := α) (β := β) anyCall → Prop :=
  Machine.GoesOn SmbInit (Grants l) (Releases l)

/-- **Recorded locks never conflict.** -/
theorem locksFree {c : (smbMachine α β anyCall).Config} (hc : SmbReachable anyCall c) :
    LocksFree c.world.store := by
  refine hc.storeInvariant ?_ fun _ _ _ h => h.answer
  intro l hl
  cases hl

/-- A connection that is about to record a lock, and was not disturbed, finds no conflict. -/
theorem clear_of_undisturbed {c : (smbMachine α β anyCall).Config}
    {tr : Trace (α := α) (β := β) anyCall} (hrun : SmbRun anyCall c tr) {i : ℕ}
    {p : Prog SmbT Conn} {h : List (smbMachine α β anyCall).Stamped} {l : DistributedLock}
    {k : SmbT.Res (.inl (.store (.acquireFileLock l))) → Prog SmbT Conn}
    (hi : c.phase i = .busy p h (.call (.inl (.store (.acquireFileLock l))) k))
    (hturn : Machine.Undisturbed (M := smbMachine α β anyCall) i
      (fun y => y.event.1.elim (looksAtLocks l.filePath) fun _ => false)
      (fun y => recordsConflict l y.event.1 = true) tr) : Clear l c.world.store := by
  obtain ⟨w, cmd, g, e, hp, hhand, hchecked⟩ := handler_call handlersMake_lockChecked
    (SmbReachable.running hrun.reachable hi) (by simp [isCheck]) not_false
  obtain ⟨before, after, r, hsplit, hprev, hclear⟩ := hchecked l rfl
  obtain ⟨later, rest, rfl, rfl, hrest⟩ := map_eq_append_iff.1 hsplit
  obtain ⟨⟨w', x⟩, e, rfl, rfl, rfl⟩ := map_eq_cons_iff.1 hrest
  obtain ⟨recent, st, older, hpast, rfl, hev, hrecent⟩ := split_event hrun hi hp
  have hans := hhand.answered _ (mem_append_right g (mem_append_right later mem_cons_self))
  refine Machine.Run.checked hrun (P := fun w => Clear l w.store) ?_ ?_ hturn hpast ?_ ?_
  · exact fun w w' hw => hw.store fun _ so hso now st h => h.answer (by
      rcases hso with rfl | rfl <;> rfl)
  · rintro o r w w' ⟨hexec, -⟩ hharm h
    have heq : w' = (Prog.answerMarks World.answer o w).2 := (congrArg Prod.snd hexec).symm
    rw [heq]
    refine store_answerMarks (fun so hso now st h => h.answer ?_) h
    rw [← hso]
    exact Bool.eq_false_iff.2 hharm
  · -- what the connection has done since the look is no look
    exact fun y hy => not_of_later rfl (fun z hz => hprev _ (mem_map_of_mem hz)) (hrecent y hy)
  · -- the look showed all locks on the file, and changed none
    rintro w' ⟨hexec, -⟩ l' hl'
    rw [hev] at hexec
    obtain rfl : st.world = w' := congrArg Prod.snd hexec
    by_cases hpath : l'.filePath = l.filePath
    · refine hclear _ hans.symm l' (mem_filter.2 ⟨hl', ?_⟩)
      exact beq_iff_eq.2 hpath
    · exact DistributedLock.conflictsWith_of_ne hpath

theorem Held.stored {l : DistributedLock} {c : (smbMachine α β anyCall).Config}
    {tr : Trace (α := α) (β := β) anyCall} (hheld : Held l c tr)
    (hsteps : EachSmbCall LocksInTurn tr) : c.world.store.fileLocks.lookup l.lockId = some l := by
  induction hheld with
  | begin hc hs hb =>
    obtain ⟨x, hx, hop⟩ := hb
    cases hs with
    | call i p h o k r w hi hr =>
      cases hx
      obtain rfl : o = .inl (.store (.acquireFileLock l)) := hop
      have hclear := clear_of_undisturbed hc hi hsteps.1.1
      have heq : w = (World.answer (.store (.acquireFileLock l)) _).2 :=
        (congrArg Prod.snd hr.1).symm
      have hst : w.store = (MemoryStateStore.acquireFileLock _ l).2 := congrArg World.store heq
      rw [hst, MemoryStateStore.acquireFileLock_of_clear hclear]
      exact AList.lookup_insert _
    | start | finish | env => cases hx
  | keep hc hs he ih =>
    cases hs with
    | start _ _ _ _ _ | finish _ _ _ _ _ => exact ih hsteps
    | call i p h o k r w hi hr =>
      obtain rfl : (Prog.answerMarks World.answer o _).2 = w := congrArg Prod.snd hr.1
      have hstored := ih hsteps.2
      rcases o with o | m
      · cases o with
        | store so =>
          refine MemoryStateStore.lookup_fileLocks_kept hstored ?_ fun l' hl' => ?_
          · exact Bool.eq_false_iff.2 fun hreleases => he ⟨so, rfl, hreleases⟩
          · -- the number of a new lock is not in use
            cases hl'
            exact hsteps.1.2.1
        | _ => exact hstored
      · exact hstored
    | env w hw =>
      cases hw with
      | oracle _ | registry _ _ _ => exact ih hsteps
      | failure serverId o ho =>
        refine MemoryStateStore.lookup_fileLocks_kept (ih hsteps) ?_ ?_
        · rcases ho with rfl | rfl
          · rfl
          · exact beq_eq_false_iff_ne.2 fun heq => he ⟨rfl, by rw [heq]⟩
        · rcases ho with rfl | rfl <;> exact nofun

/-- Locks on one file are filed under one name, which is the one of their handles. -/
structure LocksNamed (st : MemoryStateStore) : Prop where
  alike : ∀ l ∈ st.fileLocks.values, ∀ l' ∈ st.fileLocks.values,
    pathParts l.filePath = pathParts l'.filePath → l.filePath = l'.filePath
  placed : ∀ l ∈ st.fileLocks.values, ∀ h, st.handles.lookup l.handleId = some h →
    h.path = l.filePath

omit [Externs] in
theorem LocksNamed.answer {now : UInt64} {o : StoreOp} {st : MemoryStateStore} (hst : LocksNamed st)
    (hlock : ∀ l, o = .acquireFileLock l → LockNameInUse st l)
    (hhandle : ∀ h, o.recordedHandle = some h → LocksStay st h) :
    LocksNamed (MemoryStateStore.answer now o st).2 := by
  constructor
  · intro l hl l' hl' hparts
    rcases mem_fileLocks_answer hl with hold | ⟨hacq, -⟩
    · rcases mem_fileLocks_answer hl' with hold' | ⟨hacq', -⟩
      · exact hst.alike l hold l' hold' hparts
      · exact ((hlock l' hacq').1 l hold hparts.symm).symm
    · rcases mem_fileLocks_answer hl' with hold' | ⟨hacq', -⟩
      · exact (hlock l hacq).1 l' hold' hparts
      · rw [hacq] at hacq'
        cases hacq'
        rfl
  · intro l hl h hh
    rcases mem_fileLocks_answer hl with hold | ⟨rfl, -⟩
    · rcases MemoryStateStore.lookup_handles_answer hh with hold' | ⟨hnew, hid⟩
      · exact hst.placed l hold h hold'
      · exact (hhandle h hnew).1 l hold hid
    · rcases MemoryStateStore.lookup_handles_answer hh with hold' | ⟨hnew, -⟩
      · exact (hlock l rfl).2 h hold'
      · cases hnew

/-- **If locks are recorded in turn, the locks on one file are filed under one name.** -/
theorem locksNamed_of_inTurn {c : (smbMachine α β anyCall).Config}
    {tr : Trace (α := α) (β := β) anyCall} (hrun : SmbRun anyCall c tr)
    (hsteps : EachSmbCall LocksInTurn tr) : LocksNamed c.world.store := by
  refine SmbRun.traced (I := fun w tr => EachSmbCall LocksInTurn tr → LocksNamed w.store) hrun
    (fun _ _ _ _ => ⟨forall_mem_nil _, forall_mem_nil _⟩) ?_ ?_
    (fun _ _ ih hsteps => ih hsteps.2) hsteps
  · intro c tr w _ hw ih hsteps
    refine hw.store (fun _ so hso now st h => h.answer ?_ ?_) (ih hsteps)
    · rintro l rfl
      rcases hso with hso | hso <;> cases hso
    · rintro h hh
      rcases hso with rfl | rfl <;> cases hh
  · rintro c tr i p h o k - - - ih ⟨hturn, hsteps⟩
    cases o with
    | store so =>
      refine (ih hsteps).answer ?_ fun h hh => ?_
      · rintro l rfl
        exact hturn.2.2
      · cases so with
        | createHandle h₀ | updateHandle h₀ =>
          cases hh
          exact hturn
        | _ => cases hh
    | _ => exact ih hsteps

/-- A LOCK request was granted each lock that it asks for, on the file of its handle. -/
def LocksGranted (body : Bytes) (e : List (Event Smb)) : Prop :=
  ∃ elements handle, lockElements body 24 (body.u16 2).toNat = some elements ∧
    foundHandle (fileIdAt body 8) handle ∈ e ∧ ∀ el ∈ elements, el.isUnlock = false →
      ∃ l ack, ⟨store (.acquireFileLock l), ack⟩ ∈ e ∧ l.handleId = fileIdAt body 8 ∧
        l.filePath = handle.path ∧ l.offset = el.offset ∧ l.length = el.length ∧
        l.exclusive = el.isExclusive

theorem Answered.locksGranted {i : ℕ} {p q : Prog SmbT Conn}
    {h : List (smbMachine α β anyCall).Stamped} (hrun : Machine.Running i p h q) {w : World α β}
    {cmd : Command} {g e : List (World α β × Event Smb)}
    (hp : progress (stamps h) = .handling w cmd g e) (hcmd : cmd.header.command = .lock)
    {response : Option Response} (hansd : Answered cmd e response) :
    LocksGranted cmd.body (e.map Prod.snd) := by
  have hwp : Proc.wp LockChecked (Handler.handleCommand cmd.header cmd.body cmd.fullMessage)
      (Proc.onOk (fun _ _ _ => True) fun _ _ h => LocksRecorded cmd.body h) cmd.handler [] := by
    unfold Handler.handleCommand
    rw [hcmd]
    refine Proc.wp_map.2 (Proc.wp_mono (handleLock_wp cmd.header cmd.body) ?_)
    rintro (err | r) s h hr
    · trivial
    · exact hr
  obtain ⟨s, elements, handle, helems, hfound, hall⟩ := hansd.post hrun hp hwp
  refine ⟨elements, handle, helems, hfound, fun el hel hno => ?_⟩
  rcases hall el hel hno with hgrant | ⟨err, hmem⟩
  · exact hgrant
  · -- the store does not fail to draw a number
    obtain ⟨⟨w', x⟩, hx, rfl⟩ := mem_map.1 hmem
    have hans := (handling hrun hp).answered _ (mem_append_right g hx)
    cases hans

end Runs

/-! ### Two servers -/

namespace Sample

def twoServers : Option FilesSnapshot :=
  serveAll (startOn (fun i => if i = 0 then "a" else "b") .anonymousOnly)
    [(0, Client.sessionSetup 0 []), (0, Client.treeConnect 1 "\\\\a\\s"),
      (0, Client.create 1 1 "f" 0 []), (1, Client.sessionSetup 0 []),
      (1, Client.treeConnect 2 "\\\\b\\s"), (1, Client.create 2 1 "f" 0 [])]

/-- A connection sends a LOCK request for ten bytes and is about to record the lock. -/
def lockMoves (i : ℕ) (sessionId : UInt64) (handleId : HandleId) (offset : UInt64) : List Move :=
  .message i (Client.lock sessionId 1 handleId offset 10 0x12) :: replicate 11 (.call i)

/-- The lock that a connection is about to record. -/
def recording (c : FilesConfig) (i : ℕ) : Option DistributedLock :=
  match c.phase i with
  | .busy _ _ (.call (.inl (.store (.acquireFileLock l))) _) => some l
  | _ => none

theorem exists_of_recording {c : FilesConfig} {i : ℕ} {l : DistributedLock}
    (h : recording c i = some l) :
    ∃ p h k, c.phase i = .busy p h (.call (.inl (.store (.acquireFileLock l))) k) := by
  unfold recording at h
  split at h
  · next hi =>
    cases h
    exact ⟨_, _, _, hi⟩
  · cases h

/-- A connection has just answered a LOCK request with success. -/
def LockAnswered (c : FilesConfig) (i : ℕ) : Prop :=
  ∃ p h q w cmd g e response, c.phase i = .busy p h q ∧
    progress (stamps h) = .handling w cmd g e ∧ cmd.header.command = .lock ∧
    Answered cmd e response

/-- Has the handler of the command of a connection ended, as a check of the command, its events
and its result wants? -/
def endedBy (f : Command → List (FilesWorld × Event Smb) → List (FilesWorld × Event Smb) →
    Except HandlerError (Option Response) → Bool) (c : FilesConfig) (i : ℕ) : Bool :=
  match c.phase i with
  | .busy _ h _ =>
      match progress (stamps h) with
      | .handling _ cmd g e =>
          match (Handler.handleCommand cmd.header cmd.body cmd.fullMessage
              cmd.handler).feed World.answer (e.reverse.map Prod.fst) with
          | .ret (r, _) => f cmd g e r
          | _ => false
      | _ => false
  | _ => false

theorem exists_of_endedBy {f : Command → List (FilesWorld × Event Smb) →
    List (FilesWorld × Event Smb) →
    Except HandlerError (Option Response) → Bool} {c : FilesConfig} {i : ℕ}
    (h : endedBy f c i = true) :
    ∃ p h q w cmd g e r, c.phase i = .busy p h q ∧
      progress (stamps h) = .handling w cmd g e ∧ Ended cmd e r ∧ f cmd g e r = true := by
  unfold endedBy at h
  split at h
  · next hi =>
    split at h
    · next hp =>
      split at h
      · next hret => exact ⟨_, _, _, _, _, _, _, _, hi, hp, ⟨_, hret⟩, h⟩
      · cases h
    · cases h
  · cases h

/-- Has the command of a connection been answered, as a check wants? -/
def answeredBy (f : Command → List (FilesWorld × Event Smb) →
    List (FilesWorld × Event Smb) → Bool) : FilesConfig → ℕ → Bool :=
  endedBy fun cmd g e r => f cmd g e && r.isOk

theorem exists_of_answeredBy {f : Command → List (FilesWorld × Event Smb) →
    List (FilesWorld × Event Smb) → Bool} {c : FilesConfig} {i : ℕ}
    (h : answeredBy f c i = true) :
    ∃ p h q w cmd g e response, c.phase i = .busy p h q ∧
      progress (stamps h) = .handling w cmd g e ∧ Answered cmd e response ∧ f cmd g e = true := by
  obtain ⟨p, h, q, w, cmd, g, e, r, hi, hp, hended, hf⟩ := exists_of_endedBy h
  obtain ⟨hchk, hok⟩ := Bool.and_eq_true_iff.1 hf
  cases r with
  | error err => cases hok
  | ok response => exact ⟨p, h, q, w, cmd, g, e, response, hi, hp, hended, hchk⟩

theorem lockAnswered_of_answered {c : FilesConfig} {i : ℕ}
    (h : answeredBy (fun cmd _ _ => cmd.header.command == .lock) c i = true) :
    LockAnswered c i := by
  obtain ⟨p, h, q, w, cmd, g, e, response, hi, hp, hansd, hf⟩ := exists_of_answeredBy h
  exact ⟨p, h, q, w, cmd, g, e, response, hi, hp, beq_iff_eq.1 hf, hansd⟩

/-- Two servers look at the locks, each for ten bytes at its offset, and then both record theirs. -/
theorem exists_twoLocks (offset : UInt64) {Q : DistributedLock → DistributedLock → FilesConfig →
    FilesTrace → Bool}
    (hchk : twoServers.any (fun st =>
      (playAll st.config st.trace (lockMoves 0 1 1 0 ++ lockMoves 1 2 2 offset)).any fun x =>
        (recording x.1 1).any fun l => (play x.1 x.2 (.call 1)).any fun y =>
          (recording y.1 0).any fun l' => (play y.1 y.2 (.call 0)).any fun z =>
            Q l l' z.1 z.2) = true) :
    ∃ (c : FilesConfig) (tr : Trace anyCall) (l l' : DistributedLock), SmbRun anyCall c tr ∧
      Held l c tr ∧ Held l' c tr ∧ Q l l' c tr = true := by
  obtain ⟨st, hst, hchk⟩ := (any_eq_true _ _).1 hchk
  obtain ⟨⟨c, tr⟩, hx, hchk⟩ := (any_eq_true _ _).1 hchk
  obtain ⟨l, hl, hchk⟩ := (any_eq_true _ _).1 hchk
  obtain ⟨⟨c₁, tr₁⟩, hy, hchk⟩ := (any_eq_true _ _).1 hchk
  obtain ⟨l', hl', hchk⟩ := (any_eq_true _ _).1 hchk
  obtain ⟨⟨c₂, tr₂⟩, hz, hchk⟩ := (any_eq_true _ _).1 hchk
  obtain ⟨p, h, k, hi⟩ := exists_of_recording hl
  obtain ⟨p', h', k', hi'⟩ := exists_of_recording hl'
  have hrun := run_playAll (run_serveAll (run_startOn _ _) hst) hx
  obtain ⟨r, hstep, rfl⟩ := step_play_call hi hy
  obtain ⟨r', hstep', rfl⟩ := step_play_call hi' hz
  have hheld : Held l c₁ _ := .begin hrun hstep ⟨_, rfl, rfl⟩
  have hheld' : Held l' c₂ _ := .begin hheld.run hstep' ⟨_, rfl, rfl⟩
  refine ⟨c₂, _, l, l', hheld'.run, hheld.keep hstep' ?_, hheld', hchk⟩
  -- recording a lock releases none
  rintro ⟨o, ho, hreleases⟩
  cases ho
  cases hreleases

end Sample

end RustSmb
