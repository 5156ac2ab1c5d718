import RustSmb.Redis.Records

/-!
# Leases in Redis and in memory

A lease is a record under its key, named by two indices: by file and by server.  A request is
compared with the leases of the file; the lease is then written in a transaction, which is tried
again if the index of the file has changed in the meantime.

The store in memory leaves the lease under the same key out of the comparison, always writes what is
left of the request, and refuses to grant on a conflict.  Redis compares with the same key too,
writes nothing if nothing is left, and grants a reduced request.  Where a key comes back for another
file, Redis leaves it in the index of the first.

## Main results

* `leases_agree` — **without conflicts, if a key stays with its file and its server, both stores
  answer alike and keep the same leases.**
* `Sample.same_key_conflicts` — the same request twice.

Source: `rustsmb-state-redis/src/lib.rs`, `rustsmb-state-memory/src/lib.rs`.
-/

namespace RustSmb.Redis

open List KeyValue Proc

variable {requested : UInt32} {lease : LeaseEntry}

/-! ### Keys -/

def LEASE : String := "smb:lease:"
def LEASE_FILE_INDEX : String := "smb:lease:file:"
def LEASE_SERVER_INDEX : String := "smb:lease:server:"

/-- The keys of leases: their records and two indices. -/
inductive LeaseKey where
  | record (leaseKey : String)
  | file (filePath : String)
  | server (serverId : String)
  deriving DecidableEq

open LeaseKey

namespace LeaseKey

/-- The text of a key. -/
def name : LeaseKey → String
  | record key => LEASE ++ key
  | file path => LEASE_FILE_INDEX ++ path
  | server id => LEASE_SERVER_INDEX ++ id

/-- The key is that of a set. -/
def isIndex : LeaseKey → Bool
  | record _ => false
  | _ => true

end LeaseKey

/-- A lease key that does not make the record look like an index.  Clients' keys are in
hexadecimal, so plain. -/
def plainKey (key : String) : Bool :=
  !"file:".toList.isPrefixOf key.toList && !"server:".toList.isPrefixOf key.toList

/-- The indices in which a lease stands. -/
def leaseIndices (lease : LeaseEntry) : List LeaseKey :=
  [.file lease.filePath, .server lease.serverId]

theorem LeaseKey.name_inj_of_index {a b : LeaseKey} (ha : a.isIndex = true) (hb : b.isIndex = true)
    (h : a.name = b.name) : a = b := by
  have hlist := congrArg String.toList h
  cases a <;> cases b <;>
    simp [name, isIndex, LEASE_FILE_INDEX, LEASE_SERVER_INDEX] at ha hb hlist
  case file.file => exact congrArg file (String.toList_inj.1 hlist)
  case server.server => exact congrArg server (String.toList_inj.1 hlist)

theorem LeaseKey.name_ne_record {key : String} (hkey : plainKey key = true) {a : LeaseKey}
    (ha : a.isIndex = true) : a.name ≠ (record key).name := by
  intro h
  have hlist := congrArg String.toList h
  unfold plainKey at hkey
  cases a <;> simp [name, isIndex, LEASE, LEASE_FILE_INDEX, LEASE_SERVER_INDEX] at ha hlist
  case file path => simp [← hlist] at hkey
  case server id => simp [← hlist] at hkey

/-- How leases are stored. -/
def leaseLayout : Layout LeaseEntry String LeaseKey where
  name := name
  record := .record
  isIndex := isIndex
  ident := LeaseEntry.leaseKey
  indices := leaseIndices
  valid key := plainKey key = true
  index_of_mem {lease key} hkey := by
    simp only [leaseIndices, mem_cons, not_mem_nil, or_false] at hkey
    rcases hkey with rfl | rfl <;> rfl
  record_injective {x y} h := by
    have hlist := congrArg String.toList h
    simp only [name, String.toList_append, append_cancel_left_eq] at hlist
    exact String.toList_inj.1 hlist
  index_injective := name_inj_of_index
  record_ne hid hkey := name_ne_record hid hkey

/-! ### Operations -/

/-- A method on leases. -/
abbrev LeaseProc (β : Type) : Type := RedisProc LeaseEntry String β

/-- A server that stores leases. -/
abbrev LeaseServer : Type := Server LeaseEntry String

/-- The leases in the way of a request, and the state that can be granted. -/
def checkLeaseConflicts (existingLeases : List LeaseEntry) (requestedState : UInt32) :
    List LeaseEntry × UInt32 :=
  let compare := fun (acc : List LeaseEntry × UInt32) (existing : LeaseEntry) =>
    let existingHasWrite := existing.leaseState &&& LeaseEntry.WRITE_CACHING != 0
    let requestedHasWrite := requestedState &&& LeaseEntry.WRITE_CACHING != 0
    if existingHasWrite && requestedState != 0 then (acc.1 ++ [existing], 0)
    else if requestedHasWrite && existing.leaseState != 0 then
      (acc.1 ++ [existing], acc.2 &&& ~~~LeaseEntry.WRITE_CACHING)
    else acc
  let acc := existingLeases.foldl compare ([], requestedState)
  let anyWrite := existingLeases.any fun l => l.leaseState &&& LeaseEntry.WRITE_CACHING != 0
  (acc.1, if anyWrite then 0 else acc.2)

/-- Store a lease under a new key. -/
def createLease (lease : LeaseEntry) : LeaseProc Unit := do
  match ← get (record lease.leaseKey).name with
  | some _ => throw (.failed .alreadyExists)
  | none => putRecord leaseLayout lease

/-- The lease under a key. -/
def getLease (leaseKey : String) : LeaseProc (Option LeaseEntry) :=
  get (record leaseKey).name

/-- Write a lease; the indices are left alone. -/
def updateLease (lease : LeaseEntry) : LeaseProc Unit :=
  write (.set (record lease.leaseKey).name lease)

/-- Delete a lease and its index entries. -/
def deleteLease (leaseKey : String) : LeaseProc Unit :=
  dropRecord leaseLayout leaseIndices leaseKey

/-- The leases on a file. -/
def getLeasesForFile (filePath : String) : LeaseProc (List LeaseEntry) := do
  let leaseKeys ← smembers (file filePath).name
  readRecords (fun key => (record key).name) leaseKeys

/-- Ask for a lease on a file, with a number of attempts. -/
def tryCreateLease (filePath : String) (lease : LeaseEntry) (requestedState : UInt32) :
    ℕ → LeaseProc LeaseConflictResult
  | 0 => throw (.failed .conflict)
  | attempts + 1 => do
      let fileIndexKey := (file filePath).name
      let version ← perform (S := Sig LeaseEntry String) (.watch fileIndexKey)
      let leaseKeys ← smembers fileIndexKey
      let existingLeases ← readRecords (fun key => (record key).name) leaseKeys
      let conflicts := (checkLeaseConflicts existingLeases requestedState).1
      let grantedState := (checkLeaseConflicts existingLeases requestedState).2
      -- nothing is left of the request: nothing is written
      if !conflicts.isEmpty && grantedState == 0 then pure ⟨false, conflicts, 0⟩
      else do
        let newLease := { lease with leaseState := grantedState }
        let result ← perform (S := Sig LeaseEntry String) (.exec fileIndexKey version
          [.set (record newLease.leaseKey).name newLease,
            .sadd fileIndexKey newLease.leaseKey,
            .sadd (server newLease.serverId).name newLease.leaseKey])
        match result with
        | some _ => pure ⟨true, conflicts, grantedState⟩
        | none => tryCreateLease filePath lease requestedState attempts

/-- Check for conflicts and store a lease, in at most three attempts. -/
def checkAndCreateLease (filePath : String) (lease : LeaseEntry) (requestedState : UInt32) :
    LeaseProc LeaseConflictResult :=
  tryCreateLease filePath lease requestedState 3

/-- Delete the leases of a server. -/
def deleteLeasesForServer (serverId : String) : LeaseProc Unit := do
  let leaseKeys ← smembers (server serverId).name
  forEach (dropRecord leaseLayout fun lease => [.file lease.filePath]) leaseKeys
  write (.del (server serverId).name)

/-- The operations on leases. -/
inductive LeaseOp where
  | createLease (lease : LeaseEntry)
  | getLease (leaseKey : String)
  | updateLease (lease : LeaseEntry)
  | deleteLease (leaseKey : String)
  | getLeasesForFile (filePath : String)
  | checkAndCreateLease (filePath : String) (lease : LeaseEntry) (requestedState : UInt32)
  | deleteLeasesForServer (serverId : String)

/-- What an operation returns. -/
inductive LeaseAnswer where
  | done
  | lease (lease : Option LeaseEntry)
  | leases (leases : List LeaseEntry)
  | checked (result : LeaseConflictResult)
  deriving DecidableEq

namespace LeaseOp

/-- The methods that perform the operations. -/
def program : LeaseOp → LeaseProc LeaseAnswer
  | .createLease lease => (fun _ => .done) <$> Redis.createLease lease
  | .getLease key => .lease <$> Redis.getLease key
  | .updateLease lease => (fun _ => .done) <$> Redis.updateLease lease
  | .deleteLease key => (fun _ => .done) <$> Redis.deleteLease key
  | .getLeasesForFile path => .leases <$> Redis.getLeasesForFile path
  | .checkAndCreateLease path lease requested =>
      .checked <$> Redis.checkAndCreateLease path lease requested
  | .deleteLeasesForServer id => (fun _ => .done) <$> Redis.deleteLeasesForServer id

/-- What an operation returns on a server. -/
def outcome (e : Enumeration) (op : LeaseOp) (s : LeaseServer) :
    Except (Fault StateError) LeaseAnswer :=
  (run (answer e) op.program () s).1

/-- The server after an operation. -/
def after (e : Enumeration) (op : LeaseOp) (s : LeaseServer) : LeaseServer :=
  (run (answer e) op.program () s).2.2

/-! ### In memory -/

/-- The same operation on the store in memory. -/
def inMemory (st : MemoryStateStore) : LeaseOp → Except StateError LeaseAnswer × MemoryStateStore
  | .createLease lease =>
      if (st.leases.lookup lease.leaseKey).isSome then (.error .alreadyExists, st)
      else (.ok .done, { st with leases := st.leases.insert lease.leaseKey lease })
  | .getLease key => (.ok (.lease (st.leases.lookup key)), st)
  | .updateLease lease => (.ok .done, { st with leases := st.leases.insert lease.leaseKey lease })
  | .deleteLease key => (.ok .done, { st with leases := st.leases.erase key })
  | .getLeasesForFile path =>
      (.ok (.leases (st.leases.values.filter fun l => l.filePath == path)), st)
  | .checkAndCreateLease path lease requested =>
      (.ok (.checked (RustSmb.checkAndCreateLease st.leases path lease requested).1),
        { st with leases := (RustSmb.checkAndCreateLease st.leases path lease requested).2 })
  | .deleteLeasesForServer id =>
      (.ok .done, { st with leases := st.leases.retain fun _ l => l.serverId != id })

/-- The condition on the steps of a run: keys are plain and stay with their file and server, a
lease is updated only if it is there, and no lease on the file, not even under the same key,
conflicts with a request. -/
def Plain (st : MemoryStateStore) : LeaseOp → Prop
  | .createLease lease => plainKey lease.leaseKey = true
  | .updateLease lease => ∃ old, st.leases.lookup lease.leaseKey = some old ∧
      old.filePath = lease.filePath ∧ old.serverId = lease.serverId
  | .deleteLease key => plainKey key = true
  | .checkAndCreateLease path lease requested =>
      plainKey lease.leaseKey = true ∧ lease.filePath = path ∧
      (∀ old, st.leases.lookup lease.leaseKey = some old →
        old.filePath = path ∧ old.serverId = lease.serverId) ∧
      ∀ l ∈ st.leases.values, l.filePath = path → leasesConflict l.leaseState requested = false
  | _ => True

end LeaseOp

/-- The stores after the same sequential runs whose operations meet a condition. -/
abbrev LeaseRun (ok : MemoryStateStore → LeaseOp → Prop) : LeaseServer → MemoryStateStore → Prop :=
  SideBySide LeaseOp.after (fun op st => (op.inMemory st).2) ok Server.empty .new

/-! ### The same leases -/

/-- The record of a lease. -/
def leaseRecord (s : LeaseServer) (key : String) : Option LeaseEntry :=
  s.doc (record key).name

/-- The same leases are kept in both stores, and the indices are exact. -/
structure SameLeases (s : LeaseServer) (st : MemoryStateStore) : Prop where
  exact : leaseLayout.Exact s
  records : ∀ key, leaseLayout.get s key = st.leases.lookup key

/-! ### What the operations do -/

theorem checkLeaseConflicts_of_none {existing : List LeaseEntry}
    (h : ∀ l ∈ existing, leasesConflict l.leaseState requested = false) :
    checkLeaseConflicts existing requested = ([], requested) := by
  have hwrite : ∀ l ∈ existing,
      (l.leaseState &&& LeaseEntry.WRITE_CACHING != 0 && requested != 0) = false := by
    intro l hl
    have hl := h l hl
    unfold leasesConflict at hl
    dsimp only at hl
    split at hl
    · cases hl
    · next hne => exact Bool.eq_false_iff.2 hne
  have hread : ∀ l ∈ existing,
      (requested &&& LeaseEntry.WRITE_CACHING != 0 && l.leaseState != 0) = false := by
    intro l hl
    have hconf := h l hl
    unfold leasesConflict at hconf
    dsimp only at hconf
    rw [hwrite l hl, if_neg Bool.false_ne_true] at hconf
    split at hconf
    · cases hconf
    · next hne => exact Bool.eq_false_iff.2 hne
  unfold checkLeaseConflicts
  dsimp only
  have hfold : ∀ (existing' : List LeaseEntry) (acc : List LeaseEntry × UInt32),
      (∀ l ∈ existing', l ∈ existing) →
      existing'.foldl (fun (acc : List LeaseEntry × UInt32) (existing : LeaseEntry) =>
        if existing.leaseState &&& LeaseEntry.WRITE_CACHING != 0 && requested != 0 then
          (acc.1 ++ [existing], 0)
        else if requested &&& LeaseEntry.WRITE_CACHING != 0 && existing.leaseState != 0 then
          (acc.1 ++ [existing], acc.2 &&& ~~~LeaseEntry.WRITE_CACHING)
        else acc) acc = acc := by
    intro existing' acc hsub
    induction existing' with
    | nil => rfl
    | cons l ls ih =>
      obtain ⟨hl, hls⟩ := forall_mem_cons.1 hsub
      rw [foldl_cons, hwrite l hl, hread l hl, if_neg Bool.false_ne_true, if_neg Bool.false_ne_true]
      exact ih hls
  rw [hfold existing _ fun _ hl => hl]
  -- a lease with write caching conflicts with every request but that for nothing
  by_cases hzero : requested = 0
  · rw [hzero, ite_self]
  · have hany : (existing.any fun l => l.leaseState &&& LeaseEntry.WRITE_CACHING != 0) = false := by
      rw [any_eq_false]
      intro l hl hbit
      have hl := hwrite l hl
      rw [hbit, bne_iff_ne.2 hzero] at hl
      cases hl
    rw [hany, if_neg Bool.false_ne_true]

@[simp] theorem file_mem_leaseIndices {path : String} :
    file path ∈ leaseIndices lease ↔ lease.filePath = path := by
  simp [leaseIndices, eq_comm]

@[simp] theorem server_mem_leaseIndices {id : String} :
    server id ∈ leaseIndices lease ↔ lease.serverId = id := by
  simp [leaseIndices, eq_comm]

section Run

variable {s : LeaseServer} (e : Enumeration)

section

variable (h : leaseLayout.Exact s)

include h

theorem run_createLease (hkey : plainKey lease.leaseKey = true) :
    run (answer e) (createLease lease) () s =
      if (leaseLayout.get s lease.leaseKey).isSome then (.error (.failed .alreadyExists), (), s)
      else (.ok (), (), leaseLayout.put s lease) := by
  have hget : run (answer e) (get (record lease.leaseKey).name) () s =
      (.ok (leaseLayout.get s lease.leaseKey), (), s) := run_getRecord e h.typed hkey
  rw [createLease, run_bind_ok hget]
  cases leaseLayout.get s lease.leaseKey with
  | none => exact run_putRecord e h.typed hkey
  | some old => rfl

theorem run_deleteLease {key : String} (hkey : plainKey key = true) :
    run (answer e) (deleteLease key) () s = (.ok (), (), leaseLayout.drop leaseIndices s key) :=
  run_dropRecord e h.typed (fun _ _ hin => leaseLayout.index_of_mem hin) hkey

theorem run_deleteLeasesForServer (serverId : String) :
    run (answer e) (deleteLeasesForServer serverId) () s =
      (.ok (), (), leaseLayout.dropIndex (.server serverId) (fun lease => [.file lease.filePath]) s
        (e.list String (s.members (server serverId).name))) := by
  have hidx : leaseLayout.isIndex (.server serverId) = true := rfl
  have hoths : ∀ lease : LeaseEntry, ∀ key ∈ [file lease.filePath],
      leaseLayout.isIndex key = true := by
    intro lease key hkey
    rw [mem_singleton.1 hkey]
    rfl
  have hvalid : ∀ key ∈ e.list String (s.members (server serverId).name), leaseLayout.valid key :=
    fun key hkey => h.valid_of_mem hidx (e.mem_list.1 hkey)
  have hsmem : run (answer e) (smembers (server serverId).name) () s =
      (.ok (e.list String (s.members (server serverId).name)), (), s) :=
    run_smembers e h.typed (Layout.index_name hidx)
  have hdrops := run_dropRecords e h.typed hoths hvalid
  have htyped := Layout.typed_drops h.typed hoths (e.list String (s.members (server serverId).name))
  unfold deleteLeasesForServer
  rw [run_bind_ok hsmem, run_bind_ok hdrops]
  exact run_write e htyped trivial

/-- A request without conflicts is granted and written at the first attempt. -/
theorem run_checkAndCreateLease (hkey : plainKey lease.leaseKey = true)
    (hnone : ∀ key l, leaseLayout.get s key = some l → l.filePath = lease.filePath →
      leasesConflict l.leaseState requested = false) :
    run (answer e) (checkAndCreateLease lease.filePath lease requested) () s =
      (.ok (.granted requested), (), leaseLayout.put s { lease with leaseState := requested }) := by
  have hidx : leaseLayout.isIndex (.file lease.filePath) = true := rfl
  have hsrv : leaseLayout.isIndex (.server lease.serverId) = true := rfl
  have hvalid : ∀ key ∈ e.list String (s.members (file lease.filePath).name),
      ¬ leaseLayout.index (record key).name := by
    intro key hkey
    exact Layout.not_index_record (h.valid_of_mem hidx (e.mem_list.1 hkey))
  have hwatch : run (answer e) (perform (S := Sig LeaseEntry String)
      (.watch (file lease.filePath).name) : LeaseProc ℕ) () s =
      (.ok (s.versions (file lease.filePath).name), (), s) := run_perform
  have hsmem : run (answer e) (smembers (file lease.filePath).name) () s =
      (.ok (e.list String (s.members (file lease.filePath).name)), (), s) :=
    run_smembers e h.typed (Layout.index_name hidx)
  have hread := run_readRecords e h.typed hvalid
  have hchk : checkLeaseConflicts
      ((e.list String (s.members (file lease.filePath).name)).filterMap fun key =>
        s.doc (record key).name) requested = ([], requested) := by
    refine checkLeaseConflicts_of_none fun l hl => ?_
    obtain ⟨hget, hin⟩ := (mem_readIndex e h hidx).1 hl
    exact hnone _ l hget (file_mem_leaseIndices.1 hin)
  have hexec : answer e (.exec (file lease.filePath).name
      (s.versions (file lease.filePath).name)
      [.set (record lease.leaseKey).name { lease with leaseState := requested },
        .sadd (file lease.filePath).name lease.leaseKey,
        .sadd (server lease.serverId).name lease.leaseKey]) s =
      (some (), leaseLayout.put s { lease with leaseState := requested }) := by
    refine answer_exec e h.typed fun w hw => ?_
    simp only [mem_cons, not_mem_nil, or_false] at hw
    rcases hw with rfl | rfl | rfl
    · exact Layout.not_index_record hkey
    · exact Layout.index_name hidx
    · exact Layout.index_name hsrv
  unfold checkAndCreateLease tryCreateLease
  rw [run_bind_ok hwatch, run_bind_ok hsmem, run_bind_ok hread, hchk]
  dsimp only
  rw [isEmpty_nil, Bool.not_true, Bool.false_and, if_neg Bool.false_ne_true,
    run_bind_ok run_perform, hexec]
  exact run_pure

end

end Run

theorem checkAndCreateLease_of_none {leases : Table String LeaseEntry} {path : String}
    (h : ∀ l ∈ leases.values, l.filePath = path → leasesConflict l.leaseState requested = false) :
    RustSmb.checkAndCreateLease leases path lease requested =
      (.granted requested,
        leases.insert lease.leaseKey { lease with leaseState := requested }) := by
  have hconfs : (otherLeases leases path lease.leaseKey).filter
      (fun l => leasesConflict l.leaseState requested) = [] := by
    rw [filter_eq_nil_iff]
    intro l hl
    obtain ⟨hmem, hoth⟩ := mem_filter.1 hl
    have hpath : l.filePath = path := eq_of_beq (Bool.and_eq_true_iff.1 hoth).1
    rw [h l hmem hpath]
    exact Bool.false_ne_true
  unfold RustSmb.checkAndCreateLease
  dsimp only
  rw [hconfs]
  split <;> rfl

namespace SameLeases

variable {s : LeaseServer} {st : MemoryStateStore} (e : Enumeration)

theorem new : SameLeases Server.empty .new := ⟨Layout.exact_empty, fun _ => rfl⟩

theorem put (h : SameLeases s st) (hkey : plainKey lease.leaseKey = true)
    (hold : ∀ old, st.leases.lookup lease.leaseKey = some old → old.filePath = lease.filePath ∧
      old.serverId = lease.serverId) :
    SameLeases (leaseLayout.put s lease)
      { st with leases := st.leases.insert lease.leaseKey lease } := by
  have hinds : ∀ old, leaseLayout.get s (leaseLayout.ident lease) = some old →
      ∀ key ∈ leaseLayout.indices old, key ∈ leaseLayout.indices lease := by
    intro old hget key hin
    rw [h.records] at hget
    obtain ⟨hfile, hsrv⟩ := hold old hget
    have hsame : leaseIndices old = leaseIndices lease := by
      unfold leaseIndices
      rw [hfile, hsrv]
    have hin' : key ∈ leaseIndices old := hin
    rw [hsame] at hin'
    exact hin'
  refine ⟨h.exact.put hkey hinds, fun key => ?_⟩
  rw [Layout.get_put, Table.lookup_insert_ite, h.records]
  rfl

theorem check (h : SameLeases s st) {path : String}
    (hok : (LeaseOp.checkAndCreateLease path lease requested).Plain st) :
    run (answer e) (LeaseOp.checkAndCreateLease path lease requested).program () s =
      (.ok (.checked (.granted requested)), (),
        leaseLayout.put s { lease with leaseState := requested }) ∧
    (LeaseOp.checkAndCreateLease path lease requested).inMemory st =
      (.ok (.checked (.granted requested)), { st with
        leases := st.leases.insert lease.leaseKey { lease with leaseState := requested } }) := by
  obtain ⟨hkey, rfl, -, hnone⟩ := hok
  have hnone' : ∀ key l, leaseLayout.get s key = some l → l.filePath = lease.filePath →
      leasesConflict l.leaseState requested = false := by
    intro key l hget hfile
    rw [h.records] at hget
    exact hnone l (Table.mem_values.2 ⟨key, hget⟩) hfile
  constructor
  · unfold LeaseOp.program
    rw [run_map, run_checkAndCreateLease e h.exact hkey hnone']
    rfl
  · unfold LeaseOp.inMemory
    dsimp only
    rw [checkAndCreateLease_of_none hnone]

/-- **One operation** that meets the condition leaves the same leases in both stores. -/
theorem step (h : SameLeases s st) {op : LeaseOp} (hok : op.Plain st) :
    SameLeases (op.after e s) (op.inMemory st).2 := by
  unfold LeaseOp.after
  cases op with
  | createLease lease =>
    have hrun := run_createLease e h.exact hok
    rw [h.records] at hrun
    unfold LeaseOp.program LeaseOp.inMemory
    dsimp only
    rw [run_map, hrun]
    cases hlook : st.leases.lookup lease.leaseKey with
    | some old => exact h
    | none => exact h.put hok fun old hold => by rw [hlook] at hold; cases hold
  | getLease key =>
    unfold LeaseOp.program
    rw [run_map, getLease, run_get_eq]
    exact h
  | updateLease lease =>
    obtain ⟨old, hold, hfile, hsrv⟩ := hok
    have hget : leaseLayout.get s lease.leaseKey = some old := (h.records _).trans hold
    have hkey : plainKey lease.leaseKey = true := h.exact.valid _ old hget
    -- the record is overwritten and its index entries stay right
    have hsame : leaseIndices old = leaseIndices lease := by
      unfold leaseIndices
      rw [hfile, hsrv]
    have hrun : run (answer e) (updateLease lease) () s =
        (.ok (), (), s.apply (.set (record lease.leaseKey).name lease)) :=
      run_write e h.exact.typed (Layout.not_index_record hkey)
    unfold LeaseOp.program
    dsimp only
    rw [run_map, hrun]
    refine ⟨h.exact.replace hget hsame, fun key => ?_⟩
    have hset : leaseLayout.get (s.apply (.set (record lease.leaseKey).name lease)) key =
        if key = lease.leaseKey then some lease else leaseLayout.get s key := Layout.get_set
    dsimp only
    rw [hset, h.records]
    exact (Table.lookup_insert_ite _ _ _).symm
  | deleteLease key =>
    unfold LeaseOp.program
    dsimp only
    rw [run_map, run_deleteLease e h.exact hok]
    refine ⟨h.exact.drop hok, fun key' => ?_⟩
    dsimp only
    rw [Layout.get_drop, h.records]
    exact (Table.lookup_erase_ite _ _).symm
  | getLeasesForFile path =>
    have hidx : leaseLayout.isIndex (.file path) = true := rfl
    have hrun : run (answer e) (getLeasesForFile path) () s = _ := run_readIndex e h.exact hidx
    unfold LeaseOp.program
    dsimp only
    rw [run_map, hrun]
    exact h
  | checkAndCreateLease path lease requested =>
    obtain ⟨hrun, hmemory⟩ := h.check e hok
    obtain ⟨hkey, rfl, hold, -⟩ := hok
    rw [hrun, hmemory]
    exact h.put hkey hold
  | deleteLeasesForServer id =>
    -- all index entries of a lease are removed: its file is the only other one
    have hcover : ∀ lease, server id ∈ leaseIndices lease → ∀ key ∈ leaseIndices lease,
        key ≠ .server id → key ∈ [file lease.filePath] := by
      intro lease hin key hkey hne
      obtain rfl := server_mem_leaseIndices.1 hin
      simp only [leaseIndices, mem_cons, not_mem_nil, or_false] at hkey ⊢
      tauto
    have hids : ∀ key, key ∈ e.list String (s.members (server id).name) ↔
        key ∈ s.members (leaseLayout.name (.server id)) := fun key => e.mem_list
    unfold LeaseOp.program
    dsimp only
    rw [run_map, run_deleteLeasesForServer e h.exact]
    refine ⟨h.exact.dropIndex rfl (by simp [leaseLayout, leaseIndices]) hcover hids, fun key => ?_⟩
    have hidx : leaseLayout.isIndex (.server id) = true := rfl
    dsimp only
    rw [h.exact.get_dropIndex_eq hidx hids, h.records]
    refine Eq.trans ?_ (Table.lookup_retain _ _).symm
    congr 1
    funext lease
    simp [leaseLayout, bne, Bool.beq_eq_decide_eq]

end SameLeases

/-- **Requests are answered alike and the same leases are kept** in runs whose operations meet the
condition. -/
theorem leases_agree {s : LeaseServer} {st : MemoryStateStore}
    (hrun : LeaseRun (fun st op => op.Plain st) s st) :
    (∀ key, leaseRecord s key = st.leases.lookup key) ∧
      ∀ e path lease requested, (LeaseOp.checkAndCreateLease path lease requested).Plain st →
        (LeaseOp.checkAndCreateLease path lease requested).outcome e s =
          ((LeaseOp.checkAndCreateLease path lease requested).inMemory st).1.mapError .failed := by
  have hsame : SameLeases s st := by
    induction hrun with
    | start => exact .new
    | step _ e op hok ih => exact ih.step e hok
  refine ⟨hsame.records, fun e path lease requested hok => ?_⟩
  obtain ⟨hredis, hmemory⟩ := hsame.check e hok
  unfold LeaseOp.outcome
  rw [hredis, hmemory]
  rfl

namespace Sample

/-- A lease on a file. -/
def leaseOn (leaseKey filePath : String) : LeaseEntry :=
  ⟨leaseKey, "client", 1, "server1", filePath, 0, 1, 0, false, 0, none, true⟩

/-- Both stores after some operations. -/
def afterRequests (ops : List LeaseOp) : LeaseServer × MemoryStateStore :=
  ops.foldl (fun p op => (op.after .plain p.1, (op.inMemory p.2).2)) (Server.empty, .new)

/-- Two keys ask for read caching. -/
theorem readers_agree :
    (LeaseOp.checkAndCreateLease "file" (leaseOn "b" "file") 1).outcome .plain
        (afterRequests [.checkAndCreateLease "file" (leaseOn "a" "file") 1]).1 =
      .ok (.checked (.granted 1)) := by
  have hfirst : (LeaseOp.checkAndCreateLease "file" (leaseOn "a" "file") 1).Plain .new :=
    ⟨by decide, rfl, fun old hold => (by cases hold), fun l hl => (by cases hl)⟩
  have hrun : LeaseRun (fun st op => op.Plain st)
      (afterRequests [.checkAndCreateLease "file" (leaseOn "a" "file") 1]).1
      (afterRequests [.checkAndCreateLease "file" (leaseOn "a" "file") 1]).2 :=
    .step .start .plain _ hfirst
  refine ((leases_agree hrun).2 .plain "file" (leaseOn "b" "file") 1 ?_).trans (by decide +kernel)
  refine ⟨by decide, rfl, fun old hold => (by cases hold), ?_⟩
  decide +kernel

/-- The requests that part the stores.  The same request twice: Redis finds a conflict with the
lease itself.  A key for another file: Redis still finds it on the first.  A complete conflict:
only the memory keeps a lease. -/
theorem same_key_conflicts :
    ((LeaseOp.checkAndCreateLease "file" (leaseOn "a" "file") 3).outcome .plain
        (afterRequests [.checkAndCreateLease "file" (leaseOn "a" "file") 3]).1 =
        .ok (.checked ⟨false, [{ leaseOn "a" "file" with leaseState := 3 }], 0⟩) ∧
      ((LeaseOp.checkAndCreateLease "file" (leaseOn "a" "file") 3).inMemory
        (afterRequests [.checkAndCreateLease "file" (leaseOn "a" "file") 3]).2).1 =
        .ok (.checked (.granted 3))) ∧
    ((LeaseOp.checkAndCreateLease "file" (leaseOn "b" "file") 3).outcome .plain
        (afterRequests [.checkAndCreateLease "file" (leaseOn "a" "file") 1,
          .checkAndCreateLease "other" (leaseOn "a" "other") 1]).1 =
        .ok (.checked ⟨true, [{ leaseOn "a" "other" with leaseState := 1 }], 1⟩) ∧
      ((LeaseOp.checkAndCreateLease "file" (leaseOn "b" "file") 3).inMemory
        (afterRequests [.checkAndCreateLease "file" (leaseOn "a" "file") 1,
          .checkAndCreateLease "other" (leaseOn "a" "other") 1]).2).1 =
        .ok (.checked (.granted 3))) ∧
    (leaseRecord (afterRequests [.checkAndCreateLease "file" (leaseOn "a" "file") 3,
        .checkAndCreateLease "file" (leaseOn "b" "file") 1]).1 "b" = none ∧
      (afterRequests [.checkAndCreateLease "file" (leaseOn "a" "file") 3,
        .checkAndCreateLease "file" (leaseOn "b" "file") 1]).2.leases.lookup "b" =
        some (leaseOn "b" "file")) := by
  decide +kernel

end Sample

end RustSmb.Redis
