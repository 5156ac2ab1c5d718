import RustSmb.Coordinator.Raft
import RustSmb.Redis.LockGrants

/-!
# Two tables of locks

The store in memory files a lock under the identifier that the caller chose; the state machine of
the cluster files it under its file and numbers it itself.  Both decide alike: a lock is refused
iff it conflicts with one that is held.

## Main results

* `Clear.step`, `Sound.step` — a table that does what is asked stays sound.
* `lockTables_sound` — **both tables do what is asked and stay sound**, that of the cluster with
  different numbers as long as they last.
* `Sample.number_used_twice` — then it uses the number of a held lock again.
-/

namespace RustSmb

open List

/-- What a client asks a lock table for. -/
inductive LockRequest where
  | acquire (lock : DistributedLock)
  | release (lockId : UInt64)
  | releaseForSession (sessionId : UInt64)
  | releaseForHandle (handleId : HandleId)
  | releaseForServer (serverId : String)

namespace LockRequest

def op : LockRequest → Redis.LockOp
  | .acquire lock => .acquireFileLock lock
  | .release id => .releaseFileLock id
  | .releaseForSession id => .releaseFileLocksForSession id
  | .releaseForHandle id => .releaseFileLocksForHandle id
  | .releaseForServer id => .releaseFileLocksForServer id

def toCluster : LockRequest → Raft.CoordRequest
  | .acquire lock => .acquireLock lock
  | .release id => .releaseLock id
  | .releaseForSession id => .releaseLocksForSession id
  | .releaseForHandle id => .releaseLocksForHandle id
  | .releaseForServer id => .releaseLocksForServer id

def isAcquire : LockRequest → Bool
  | .acquire _ => true
  | _ => false

end LockRequest

/-- A table of locks: what it holds, the number under which it would file a lock, and what it
does. -/
structure LockTable (τ : Type) where
  held : τ → List DistributedLock
  number : τ → DistributedLock → UInt64
  refuses : τ → DistributedLock → Bool
  after : τ → LockRequest → τ

namespace LockTable

/-- The table of the store in memory. -/
def memory : LockTable MemoryStateStore where
  held st := st.fileLocks.values
  number _ lock := lock.lockId
  refuses st lock := !(st.acquireFileLock lock).1
  after st r := (r.op.inMemory st).2

/-- The table that the cluster replicates. -/
def cluster : LockTable Raft.CoordinationState where
  held state := state.locks.values.flatten
  number state _ := state.nextLockId
  refuses state lock := (state.apply (.acquireLock lock)).1 == .lockGranted false
  after state r := (state.apply r.toCluster).2

variable {τ : Type} (T : LockTable τ) {t : τ} {r : LockRequest} {rs : List LockRequest}

/-- The locks do not conflict. -/
def Clear (t : τ) : Prop := (T.held t).Pairwise fun l l' => l.conflictsWith l' = false

/-- The locks do not conflict, and have different numbers. -/
structure Sound (t : τ) : Prop where
  clear : T.Clear t
  nodup : ((T.held t).map DistributedLock.lockId).Nodup

/-- A lock is refused iff it conflicts with one that is held, and filed otherwise; a release
drops exactly its locks. -/
def Does (t : τ) : LockRequest → Prop
  | .acquire lock =>
      (T.refuses t lock = true ↔ ∃ l ∈ T.held t, lock.conflictsWith l = true) ∧
      (T.held (T.after t (.acquire lock))).Perm
        (if T.refuses t lock then T.held t
          else { lock with lockId := T.number t lock } :: T.held t)
  | r => (T.held (T.after t r)).Perm ((T.held t).filter r.op.keeps)

/-- The number of a lock to acquire is not in use. -/
def Fresh (t : τ) : LockRequest → Prop
  | .acquire lock => ∀ l ∈ T.held t, l.lockId ≠ T.number t lock
  | _ => True

/-- All along some requests the table has a property and does what is asked. -/
def Throughout (P : τ → Prop) : τ → List LockRequest → Prop
  | t, [] => P t
  | t, r :: rs => P t ∧ T.Does t r ∧ Throughout P (T.after t r) rs

/-- All along some requests the table is sound and does what is asked. -/
abbrev Keeps : τ → List LockRequest → Prop := T.Throughout T.Sound

/-- All locks that are acquired along some requests have numbers that are not in use. -/
def AllFresh : τ → List LockRequest → Prop
  | _, [] => True
  | t, r :: rs => T.Fresh t r ∧ AllFresh (T.after t r) rs

instance (t : τ) : DecidablePred (T.Fresh t) := fun r => by
  cases r <;> unfold Fresh <;> infer_instance

instance (t : τ) : DecidablePred (T.AllFresh t) := fun rs => by
  induction rs generalizing t with
  | nil => exact isTrue trivial
  | cons r rs ih => exact @instDecidableAnd _ _ _ (ih _)

variable {T}

theorem clear_perm {t' : τ} {locks : List DistributedLock}
    (hclear : locks.Pairwise fun l l' => l.conflictsWith l' = false)
    (hperm : (T.held t').Perm locks) : T.Clear t' := by
  unfold Clear
  rwa [hperm.pairwise_iff fun hl => by rwa [DistributedLock.conflictsWith_comm]]

theorem nodup_perm (h : T.Sound t) {t' : τ} {locks : List DistributedLock}
    (hsub : locks.Sublist (T.held t)) (hperm : (T.held t').Perm locks) :
    ((T.held t').map DistributedLock.lockId).Nodup := by
  rw [(hperm.map _).nodup_iff]
  exact h.nodup.sublist (hsub.map _)

/-- **No conflict arises** in a table that does what is asked, whatever the numbers. -/
theorem Clear.step (h : T.Clear t) (hdoes : T.Does t r) : T.Clear (T.after t r) := by
  cases r with
  | acquire lock =>
    obtain ⟨href, hheld⟩ := hdoes
    cases hgrant : T.refuses t lock with
    | true =>
      rw [hgrant] at hheld
      exact clear_perm h hheld
    | false =>
      rw [hgrant] at hheld href
      -- the new lock conflicts with none
      have hclear : ∀ l ∈ T.held t, lock.conflictsWith l = false := by
        intro l hl
        by_contra hconf
        exact absurd (href.2 ⟨l, hl, by simpa using hconf⟩) (by simp)
      refine clear_perm ?_ hheld
      exact pairwise_cons.2 ⟨hclear, h⟩
  | release id | releaseForSession id | releaseForHandle id | releaseForServer id =>
    exact clear_perm (h.sublist filter_sublist) hdoes

/-- **A table stays sound** if it does what is asked under a number that is not in use. -/
theorem Sound.step (h : T.Sound t) (hfresh : T.Fresh t r) (hdoes : T.Does t r) :
    T.Sound (T.after t r) := by
  refine ⟨h.clear.step hdoes, ?_⟩
  cases r with
  | acquire lock =>
    obtain ⟨-, hheld⟩ := hdoes
    split at hheld
    · exact nodup_perm h (List.Sublist.refl _) hheld
    · have hnew : T.number t lock ∉ (T.held t).map DistributedLock.lockId := by
        intro hmem
        obtain ⟨l, hl, hid⟩ := mem_map.1 hmem
        exact hfresh l hl hid
      rw [(hheld.map _).nodup_iff]
      exact nodup_cons.2 ⟨hnew, h.nodup⟩
  | release id | releaseForSession id | releaseForHandle id | releaseForServer id =>
    exact nodup_perm h filter_sublist hdoes

/-! ### In memory -/

theorem memory_does {st : MemoryStateStore} (hkeyed : st.fileLocks.KeyedBy (·.lockId))
    (hfresh : memory.Fresh st r) :
    memory.Does st r ∧ (memory.after st r).fileLocks.KeyedBy (·.lockId) := by
  cases r with
  | acquire lock =>
    have href : memory.refuses st lock = st.fileLocks.values.any fun l => lock.conflictsWith l := by
      unfold memory MemoryStateStore.acquireFileLock
      dsimp only
      cases st.fileLocks.values.any fun l => lock.conflictsWith l <;> rfl
    have hafter : (memory.after st (.acquire lock)).fileLocks = if memory.refuses st lock then
        st.fileLocks else st.fileLocks.insert lock.lockId lock := by
      rw [href]
      show (st.acquireFileLock lock).2.fileLocks = _
      unfold MemoryStateStore.acquireFileLock
      split <;> rfl
    have hfree : lock.lockId ∉ st.fileLocks := by
      rw [← AList.lookup_eq_none, Option.eq_none_iff_forall_ne_some]
      intro l hl
      exact hfresh l (Table.mem_values.2 ⟨_, hl⟩) (hkeyed _ _ hl)
    have hheld : memory.held (memory.after st (.acquire lock)) =
        if memory.refuses st lock then memory.held st else lock :: memory.held st := by
      show Table.values (memory.after st (.acquire lock)).fileLocks = _
      rw [hafter]
      split
      · rfl
      · exact Table.values_insert_of_notMem hfree lock
    refine ⟨⟨by rw [href, any_eq_true]; rfl, .of_eq hheld⟩, ?_⟩
    rw [hafter]
    split
    · exact hkeyed
    · exact hkeyed.insert lock
  | release id => exact ⟨.of_eq (hkeyed.values_erase id), hkeyed.erase id⟩
  | releaseForSession id | releaseForHandle id | releaseForServer id =>
    exact ⟨.of_eq (Table.values_retain _), hkeyed.retain _⟩

/-! ### In the cluster -/

variable {state : Raft.CoordinationState} {n : ℕ}

/-- Locks are filed under their files, and have the first `n` numbers. -/
structure Numbered (n : ℕ) (state : Raft.CoordinationState) : Prop where
  next : state.nextLockId = UInt64.ofNat (1 + n)
  filed : ∀ e ∈ state.locks.entries, ∀ l ∈ e.2, l.filePath = e.1
  used : ∀ l ∈ cluster.held state, ∃ j < n, l.lockId = UInt64.ofNat (1 + j)

def heldOn (state : Raft.CoordinationState) (path : String) : List DistributedLock :=
  (state.locks.lookup path).getD []

theorem cluster_acquire (state : Raft.CoordinationState) (lock : DistributedLock) :
    cluster.refuses state lock = ((heldOn state lock.filePath).any fun l => lock.conflictsWith l) ∧
      (cluster.after state (.acquire lock)).locks = state.locks.insert lock.filePath
        (if cluster.refuses state lock then heldOn state lock.filePath
          else heldOn state lock.filePath ++ [{ lock with lockId := state.nextLockId }]) := by
  have href : cluster.refuses state lock =
      (heldOn state lock.filePath).any fun l => lock.conflictsWith l := by
    show (Raft.CoordResponse.lockGranted (!(heldOn state lock.filePath).any fun l =>
      lock.conflictsWith l) == .lockGranted false) = _
    cases (heldOn state lock.filePath).any fun l => lock.conflictsWith l <;> rfl
  refine ⟨href, ?_⟩
  show state.locks.insert lock.filePath (if (!(heldOn state lock.filePath).any fun l =>
    lock.conflictsWith l) = true then heldOn state lock.filePath ++ [_]
    else heldOn state lock.filePath) = _
  rw [← href]
  cases cluster.refuses state lock <;> rfl

theorem held_retainLocks (state : Raft.CoordinationState) (keep : DistributedLock → Bool) :
    cluster.held (state.retainLocks keep) = (cluster.held state).filter keep := by
  unfold cluster Raft.CoordinationState.retainLocks Table.values
  dsimp only
  rw [filter_flatten, map_map, map_map]
  rfl

theorem Numbered.does (h : Numbered n state) (r : LockRequest) : cluster.Does state r := by
  cases r with
  | acquire lock =>
    obtain ⟨href, hlocks⟩ := cluster_acquire state lock
    have hheld : (cluster.held state).Perm (heldOn state lock.filePath ++ _) :=
      Table.flatten_values_perm state.locks lock.filePath
    constructor
    · rw [href, any_eq_true]
      refine ⟨fun ⟨l, hl, hc⟩ => ⟨l, hheld.symm.subset (mem_append_left _ hl), hc⟩,
        fun ⟨l, hl, hconf⟩ => ⟨l, ?_, hconf⟩⟩
      -- a lock that conflicts is filed under the same file
      obtain ⟨locks, hlocks, hl⟩ := mem_flatten.1 hl
      obtain ⟨path, hpath⟩ := Table.mem_values.1 hlocks
      obtain rfl : path = lock.filePath := by
        have hfiled : l.filePath = path := h.filed _ (AList.mem_lookup_iff.1 hpath) l hl
        by_contra hne
        rw [DistributedLock.conflictsWith_of_ne (hfiled.trans_ne hne)] at hconf
        cases hconf
      simpa [heldOn, hpath] using hl
    · show (Table.values (cluster.after state (.acquire lock)).locks).flatten.Perm _
      rw [hlocks]
      show (_ ++ (Table.values (state.locks.erase lock.filePath)).flatten).Perm _
      split
      · exact hheld.symm
      · rw [append_assoc]
        exact perm_middle.trans (hheld.symm.cons _)
  | release id | releaseForSession id | releaseForHandle id | releaseForServer id =>
    exact .of_eq (held_retainLocks state _)

theorem Numbered.step (h : Numbered n state) :
    Numbered (n + if r.isAcquire then 1 else 0) (cluster.after state r) := by
  have hdoes := h.does r
  cases r with
  | acquire lock =>
    obtain ⟨-, hlocks⟩ := cluster_acquire state lock
    refine ⟨?_, ?_, fun l hl => ?_⟩
    · show state.nextLockId + UInt64.ofNat 1 = _
      rw [h.next, ← UInt64.ofNat_add]
      rfl
    · rw [hlocks, AList.entries_insert]
      refine forall_mem_cons.2 ⟨?_, fun e he => h.filed e ((kerase_sublist _ _).subset he)⟩
      have hfiled : ∀ l ∈ heldOn state lock.filePath, l.filePath = lock.filePath := by
        intro l hl
        unfold heldOn at hl
        cases hlook : state.locks.lookup lock.filePath with
        | none => simp [hlook] at hl
        | some locks =>
          rw [hlook] at hl
          exact h.filed _ (AList.mem_lookup_iff.1 hlook) l hl
      split
      · exact hfiled
      · simpa [or_imp, forall_and] using hfiled
    · have hused : ∀ l ∈ cluster.held state, ∃ j < n + 1, l.lockId = UInt64.ofNat (1 + j) := by
        intro l hl
        obtain ⟨j, hj, hid⟩ := h.used l hl
        exact ⟨j, by omega, hid⟩
      -- what is held was held before, or has the number just used
      have hl := hdoes.2.subset hl
      split at hl
      · exact hused l hl
      · rcases mem_cons.1 hl with rfl | hl
        · exact ⟨n, Nat.lt_succ_self n, h.next⟩
        · exact hused l hl
  | release id | releaseForSession id | releaseForHandle id | releaseForServer id =>
    refine ⟨h.next, fun e he l hl => ?_, fun l hl => ?_⟩
    · obtain ⟨e, hmem, rfl⟩ := mem_map.1 he
      exact h.filed e hmem l (mem_filter.1 hl).1
    · exact h.used l (mem_filter.1 (hdoes.subset hl)).1

theorem Numbered.fresh (h : Numbered n state) (hn : n + (if r.isAcquire then 1 else 0) ≤ 2 ^ 64) :
    cluster.Fresh state r := by
  cases r with
  | acquire lock =>
    intro l hl heq
    obtain ⟨j, hj, hid⟩ := h.used l hl
    have hnumber : UInt64.ofNat (1 + j) = UInt64.ofNat (1 + n) := hid.symm.trans (heq.trans h.next)
    have hmod := congrArg UInt64.toNat hnumber
    simp only [UInt64.toNat_ofNat'] at hmod
    simp only [LockRequest.isAcquire, if_true] at hn
    omega
  | _ => trivial

/-! ### Sequences of requests -/

theorem memory_keeps {st : MemoryStateStore} (h : memory.Sound st)
    (hkeyed : st.fileLocks.KeyedBy (·.lockId)) (hfresh : memory.AllFresh st rs) :
    memory.Keeps st rs := by
  induction rs generalizing st with
  | nil => exact h
  | cons r rs ih =>
    obtain ⟨hdoes, hkeyed'⟩ := memory_does hkeyed hfresh.1
    exact ⟨h, hdoes, ih (h.step hfresh.1 hdoes) hkeyed' hfresh.2⟩

/-- In the cluster, no conflict arises and all is done as asked, however many locks are asked
for. -/
theorem cluster_keepsClear (h : cluster.Clear state) (hnum : Numbered n state) :
    cluster.Throughout cluster.Clear state rs := by
  induction rs generalizing n state with
  | nil => exact h
  | cons r rs ih =>
    have hdoes := hnum.does r
    exact ⟨h, hdoes, ih (h.step hdoes) hnum.step⟩

theorem cluster_keeps (h : cluster.Sound state) (hnum : Numbered n state)
    (hrs : n + rs.countP LockRequest.isAcquire ≤ 2 ^ 64) : cluster.Keeps state rs := by
  induction rs generalizing n state with
  | nil => exact h
  | cons r rs ih =>
    rw [countP_cons] at hrs
    have hdoes := hnum.does r
    have hsound := h.step (hnum.fresh (by omega)) hdoes
    exact ⟨h, hdoes, ih hsound hnum.step (by omega)⟩

theorem Keeps.sound (h : T.Keeps t rs) : T.Sound (rs.foldl T.after t) := by
  induction rs generalizing t with
  | nil => exact h
  | cons r rs ih => exact ih h.2.2

end LockTable

open LockTable

/-- **Both tables do what is asked, and their locks do not conflict and have different numbers**:
in memory if the identifiers are fresh; in the cluster always, but for the numbers, which are
different as long as `2 ^ 64` locks are asked for. -/
theorem lockTables_sound (rs : List LockRequest) :
    (memory.AllFresh .new rs → memory.Keeps .new rs) ∧
      cluster.Throughout cluster.Clear .new rs ∧
      (rs.countP LockRequest.isAcquire ≤ 2 ^ 64 → cluster.Keeps .new rs) := by
  have hnum : Numbered 0 .new := ⟨rfl, forall_mem_nil _, forall_mem_nil _⟩
  refine ⟨fun hfresh => ?_, ?_, fun hrs => ?_⟩
  · exact memory_keeps ⟨.nil, .nil⟩ .empty hfresh
  · exact cluster_keepsClear .nil hnum
  · exact cluster_keeps ⟨.nil, .nil⟩ hnum (by omega)

namespace Sample

/-- An exclusive lock of session 1 on a file as a whole. -/
def wholeFile (handleId : HandleId) (path : String) : DistributedLock :=
  ⟨0, handleId, 1, "server", path, 0, 0, true, 0⟩

/-- A lock is held, one on another file is granted and one that conflicts is refused. -/
def threeLocks : List LockRequest :=
  [.acquire { wholeFile 1 "a" with lockId := 1 }, .acquire { wholeFile 2 "b" with lockId := 2 },
    .acquire { wholeFile 2 "a" with lockId := 3 }, .releaseForSession 1]

/-- Both tables keep to the rules on these requests. -/
theorem lockTables_sound_three :
    memory.AllFresh .new threeLocks ∧ memory.Keeps .new threeLocks ∧
      cluster.Throughout cluster.Clear .new threeLocks ∧ cluster.Keeps .new threeLocks := by
  have hfresh : memory.AllFresh .new threeLocks := by decide +kernel
  obtain ⟨hmemory, hclear, hcluster⟩ := lockTables_sound threeLocks
  exact ⟨hfresh, hmemory hfresh, hclear, hcluster (by decide)⟩

/-- The cluster after the first lock was granted and others were refused. -/
def refusing (nextLockId : UInt64) : Raft.CoordinationState :=
  { cluster.after .new (.acquire (wholeFile 1 "a")) with nextLockId }

theorem foldl_refusing (next : UInt64) (n : ℕ) :
    (List.replicate n (.acquire (wholeFile 2 "a"))).foldl cluster.after (refusing next) =
      refusing (next + UInt64.ofNat n) := by
  induction n generalizing next with
  | zero => simp
  | succ n ih =>
    have hrefused : cluster.after (refusing next) (.acquire (wholeFile 2 "a")) =
        refusing (next + 1) := rfl
    rw [replicate_succ, foldl_cons, hrefused, ih, UInt64.add_assoc, UInt64.add_comm 1,
      UInt64.ofNat_add]
    rfl

/-- After `2 ^ 64` requests, all but the first refused, a lock on another file gets the first
one's number. -/
theorem number_used_twice : ∃ rs : List LockRequest, ¬ cluster.Keeps .new rs := by
  refine ⟨.acquire (wholeFile 1 "a") :: (List.replicate (2 ^ 64 - 1) (.acquire (wholeFile 2 "a")) ++
    [.acquire (wholeFile 1 "b")]), fun h => ?_⟩
  have hnodup := h.sound.nodup
  have hfirst : cluster.after .new (.acquire (wholeFile 1 "a")) = refusing 2 := rfl
  have hnext : 2 + UInt64.ofNat (2 ^ 64 - 1) = 1 := by decide
  rw [foldl_cons, foldl_append, hfirst, foldl_refusing, hnext] at hnodup
  revert hnodup
  decide

end Sample

end RustSmb
