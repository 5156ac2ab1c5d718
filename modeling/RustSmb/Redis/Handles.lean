import RustSmb.Redis.Records

/-!
# Handles in Redis and in memory

A handle is a record under its identifier, and the index of its session names it.  A write adds the
handle to the index of the session that it names now; if it was in that of another session, it stays
there.

To find the handles of a file, all keys that start like that of a handle are read.  The keys of the
indices start like that too, but hold sets, so the first of them ends the query with an error.

## Main results

* `handles_agree` — **if handles stay with their sessions, both stores find the same for a session;
  for a file exactly if there is no handle at all.**
* `Sample.handles_disagree` — one handle, and a handle that moves to another session.

Source: `rustsmb-state-redis/src/lib.rs`, `rustsmb-state-memory/src/lib.rs`.
-/

namespace RustSmb.Redis

open Table List KeyValue Proc

/-! ### Keys -/

def HANDLE : String := "smb:handle:"
def HANDLE_SESSION_INDEX : String := "smb:handle:session:"

/-- The keys of the handle space: a record, or a session's index. -/
inductive HandleKey where
  | record (persistentId : HandleId)
  | session (sessionId : UInt64)
  deriving DecidableEq

open HandleKey

namespace HandleKey

/-- The name of a key.  Numbers are written in decimal. -/
def name : HandleKey → String
  | record id => HANDLE ++ id.toNat.repr
  | session id => HANDLE_SESSION_INDEX ++ id.toNat.repr

def isIndex : HandleKey → Bool
  | record _ => false
  | session _ => true

theorem name_injective : Function.Injective name := by
  intro a b h
  have hlist := congrArg String.toList h
  cases a <;> cases b <;> simp [name, HANDLE, HANDLE_SESSION_INDEX] at hlist
  case record.record => exact congrArg record (BitVec.eq_of_toNat_eq (toDigits_injective hlist))
  case session.session => exact congrArg session (UInt64.toNat_inj.1 (toDigits_injective hlist))
  case record.session => exact absurd hlist (toDigits_ne_cons _ rfl)
  case session.record => exact absurd hlist.symm (toDigits_ne_cons _ rfl)

theorem startsWith_name (key : HandleKey) : key.name.startsWith HANDLE = true := by
  rw [String.startsWith_string_iff]
  cases key <;> simp [name, HANDLE, HANDLE_SESSION_INDEX]

end HandleKey

/-- Where a handle and its index entry lie. -/
def handleLayout : Layout HandleState HandleId HandleKey where
  name := name
  record := .record
  isIndex := isIndex
  ident := HandleState.persistentId
  indices handle := [.session handle.sessionId]
  valid _ := True
  index_of_mem hkey := by
    rw [List.mem_singleton.1 hkey]
    rfl
  record_injective h := record.inj (name_injective h)
  index_injective _ _ h := name_injective h
  record_ne _ hkey heq := by
    rw [name_injective heq] at hkey
    cases hkey

/-! ### Operations -/

/-- An operation on handles.  An index has identifiers in decimal, which are read back as
written. -/
abbrev HandleProc (β : Type) : Type := RedisProc HandleState HandleId β

abbrev HandleServer : Type := Server HandleState HandleId

/-- The record, then its index entry. -/
def createHandle (handle : HandleState) : HandleProc Unit := putRecord handleLayout handle

def getHandle (persistentId : HandleId) : HandleProc (Option HandleState) :=
  get (record persistentId).name

/-- The source calls `create_handle` here too. -/
def updateHandle (handle : HandleState) : HandleProc Unit := createHandle handle

/-- The handles that the session's index lists. -/
def getHandlesBySession (sessionId : UInt64) : HandleProc (List HandleState) := do
  let handleIds ← smembers (session sessionId).name
  readRecords (fun id => (record id).name) handleIds

/-- The handles under the keys that are of the file. -/
def readHandles (shareName filePath : String) : List String → HandleProc (List HandleState)
  | [] => pure []
  | key :: keys => do
      let handle ← get key
      let handles ← readHandles shareName filePath keys
      pure (handle.toList.filter (fun h => h.shareName == shareName && h.path == filePath) ++
        handles)

/-- Read everything under a key that starts like that of a handle. -/
def getHandlesForFile (shareName filePath : String) : HandleProc (List HandleState) := do
  let found ← keys HANDLE
  readHandles shareName filePath found

/-- The record and its index entry. -/
def deleteHandle (persistentId : HandleId) : HandleProc Unit :=
  dropRecord handleLayout handleLayout.indices persistentId

/-- The methods of the store on handles. -/
inductive HandleOp where
  | createHandle (handle : HandleState)
  | getHandle (persistentId : HandleId)
  | updateHandle (handle : HandleState)
  | getHandlesBySession (sessionId : UInt64)
  | getHandlesForFile (shareName filePath : String)
  | deleteHandle (persistentId : HandleId)

/-- What they return. -/
inductive HandleAnswer where
  | done
  | handle (handle : Option HandleState)
  | handles (handles : List HandleState)
  deriving DecidableEq

namespace HandleOp

/-- The method as a program of Redis commands. -/
def program : HandleOp → HandleProc HandleAnswer
  | .createHandle handle => (fun _ => .done) <$> Redis.createHandle handle
  | .getHandle id => .handle <$> Redis.getHandle id
  | .updateHandle handle => (fun _ => .done) <$> Redis.updateHandle handle
  | .getHandlesBySession id => .handles <$> Redis.getHandlesBySession id
  | .getHandlesForFile share path => .handles <$> Redis.getHandlesForFile share path
  | .deleteHandle id => (fun _ => .done) <$> Redis.deleteHandle id

/-- The result of a method that runs alone. -/
def outcome (e : Enumeration) (op : HandleOp) (s : HandleServer) :
    Except (Fault StateError) HandleAnswer :=
  (run (answer e) op.program () s).1

/-- The server after a method that runs alone. -/
def after (e : Enumeration) (op : HandleOp) (s : HandleServer) : HandleServer :=
  (run (answer e) op.program () s).2.2

/-! ### In memory -/

/-- The same method on the store in memory. -/
def inMemory (st : MemoryStateStore) : HandleOp → HandleAnswer × MemoryStateStore
  | .createHandle handle | .updateHandle handle =>
      (.done, { st with handles := st.handles.insert handle.persistentId handle })
  | .getHandle id => (.handle (st.handles.lookup id), st)
  | .getHandlesBySession id => (.handles (st.handles.values.filter fun h => h.sessionId == id), st)
  | .getHandlesForFile share path =>
      (.handles (st.handles.values.filter fun h => h.shareName == share && h.path == path), st)
  | .deleteHandle id => (.done, { st with handles := st.handles.erase id })

/-- The condition on the steps of a run: a handle that is written again keeps its session. -/
def Kept (st : MemoryStateStore) : HandleOp → Prop
  | .createHandle handle | .updateHandle handle =>
      ∀ old, st.handles.lookup handle.persistentId = some old → old.sessionId = handle.sessionId
  | _ => True

end HandleOp

/-- The stores after the same sequential runs whose operations meet a condition. -/
abbrev HandleRun (ok : MemoryStateStore → HandleOp → Prop) :
    HandleServer → MemoryStateStore → Prop :=
  SideBySide HandleOp.after (fun op st => (op.inMemory st).2) ok Server.empty .new

/-- A query succeeds, and its answer has the same handles as another, in any order. -/
def Agrees (outcome : Except (Fault StateError) HandleAnswer) (answer : HandleAnswer) : Prop :=
  ∃ hs hs', outcome = .ok (.handles hs) ∧ answer = .handles hs' ∧ ∀ h, h ∈ hs ↔ h ∈ hs'

/-! ### The same handles -/

/-- The same handles are kept in both stores, the indices are exact, and there is nothing else. -/
structure SameHandles (s : HandleServer) (st : MemoryStateStore) : Prop where
  exact : handleLayout.Exact s
  records : ∀ id, handleLayout.get s id = st.handles.lookup id
  known : ∀ k a, s.doc k = some a → ∃ id, k = (record id).name

theorem session_mem_indices {handle : HandleState} {id : UInt64} :
    session id ∈ handleLayout.indices handle ↔ handle.sessionId = id := by
  have hinds : handleLayout.indices handle = [.session handle.sessionId] := rfl
  rw [hinds, mem_singleton]
  constructor
  · intro heq
    cases heq
    rfl
  · rintro rfl
    rfl

section Run

variable {s : HandleServer} (e : Enumeration)

theorem run_readHandles_of_set {share path : String} {keys : List String} {k : String}
    (hk : k ∈ keys) (hset : s.IsSet k) :
    run (answer e) (readHandles share path keys) () s = (.error (.failed .internal), (), s) := by
  induction keys with
  | nil => cases hk
  | cons key keys ih =>
    unfold readHandles
    have hget : run (answer e) (get key : HandleProc _) () s = _ := run_get_eq e
    by_cases hcase : s.IsSet key
    · obtain ⟨ms, hms⟩ := hcase
      have hans : answer e (.get key) s = (.error .wrongType, s) := by
        unfold answer
        dsimp only
        rw [hms]
      rw [hans] at hget
      exact run_bind_error hget
    · have hans : answer e (.get key) s = (.ok (s.doc key), s) := by
        unfold answer
        dsimp only
        split
        · next ms hms => exact absurd ⟨ms, hms⟩ hcase
        · rfl
      have hrest : k ∈ keys := by
        rcases mem_cons.1 hk with rfl | hrest
        · exact absurd hset hcase
        · exact hrest
      rw [hans] at hget
      rw [run_bind_ok hget]
      exact run_bind_error (ih hrest)

theorem after_readHandles (share path : String) (keys : List String) :
    (run (answer e) (readHandles share path keys) () s).2.2 = s := by
  induction keys with
  | nil => rfl
  | cons key keys ih =>
    unfold readHandles
    rw [run_bind, run_get_eq]
    cases (answer e (.get key) s).1 with
    | error => rfl
    | ok handle =>
      dsimp only [Except.mapError]
      rw [run_bind]
      cases hrest : run (answer e) (readHandles share path keys) () s with
      | mk r w =>
        rw [hrest] at ih
        cases r with
        | error | ok _ => exact ih

theorem run_getHandlesForFile {share path : String} :
    run (answer e) (getHandlesForFile share path) () s =
      run (answer e) (readHandles share path (e.list String
        (s.values.keys.filter fun k => k.startsWith HANDLE))) () s :=
  run_bind_ok run_perform

theorem run_getHandle (h : handleLayout.Exact s) (id : HandleId) :
    run (answer e) (getHandle id) () s = (.ok (handleLayout.get s id), (), s) :=
  run_getRecord e h.typed trivial

end Run

namespace SameHandles

variable {s : HandleServer} {st : MemoryStateStore} (e : Enumeration)

theorem new : SameHandles Server.empty .new :=
  ⟨Layout.exact_empty, fun _ => rfl, fun _ _ h => by cases h⟩

section Same

variable (h : SameHandles s st)

include h

theorem put {handle : HandleState}
    (hold : ∀ old, st.handles.lookup handle.persistentId = some old →
      old.sessionId = handle.sessionId) :
    SameHandles (handleLayout.put s handle)
      { st with handles := st.handles.insert handle.persistentId handle } := by
  have hinds : ∀ old, handleLayout.get s (handleLayout.ident handle) = some old →
      ∀ key ∈ handleLayout.indices old, key ∈ handleLayout.indices handle := by
    intro old hget key hin
    rw [h.records] at hget
    have hkey : key = .session old.sessionId := mem_singleton.1 hin
    rw [hkey, hold old hget]
    exact session_mem_indices.2 rfl
  refine ⟨h.exact.put trivial hinds, fun id => ?_, fun k a ha => ?_⟩
  · rw [Layout.get_put, lookup_insert_ite, h.records]
    rfl
  · unfold Layout.put at ha
    rw [Server.doc_saddAll, Server.doc_set] at ha
    split at ha
    · next hk => exact ⟨_, hk⟩
    · exact h.known k a ha

theorem drop (id : HandleId) :
    SameHandles (handleLayout.drop handleLayout.indices s id)
      { st with handles := st.handles.erase id } := by
  refine ⟨h.exact.drop trivial, fun x => ?_, fun k a ha => ?_⟩
  · rw [Layout.get_drop, lookup_erase_ite, h.records]
  · unfold Layout.drop at ha
    rw [Server.doc_del, Server.doc_sremAll] at ha
    split at ha
    · cases ha
    · exact h.known k a ha

/-- What can be under a key: a handle, or the index of the session of some handle. -/
theorem key_cases {k : String} (hk : k ∈ s.values.keys) :
    ∃ id handle, st.handles.lookup id = some handle := by
  have hmem : k ∈ s.values := AList.mem_keys.2 hk
  obtain ⟨v, hv⟩ := Option.isSome_iff_exists.1 (AList.lookup_isSome.2 hmem)
  cases v with
  | document a =>
    have hdoc : s.doc k = some a := Server.doc_of_lookup hv
    obtain ⟨id, rfl⟩ := h.known k a hdoc
    exact ⟨id, a, (h.records id).symm.trans hdoc⟩
  | set ms =>
    -- a set is not empty, and it is an index
    have hms : s.members k = ms := Server.members_of_lookup hv
    obtain ⟨id, hid⟩ : ∃ id, id ∈ ms := by
      apply exists_mem_of_ne_nil
      rintro rfl
      exact h.exact.typed.not_empty k hv
    have hidx : handleLayout.index k := by
      by_contra hnot
      exact h.exact.typed.not_set k hnot ⟨ms, hv⟩
    obtain ⟨key, hkey, rfl⟩ := hidx
    rw [← hms] at hid
    obtain ⟨handle, hget, -⟩ := (h.exact.exact key hkey id).1 hid
    exact ⟨id, handle, (h.records id).symm.trans hget⟩

theorem bySession (sessionId : UInt64) :
    Agrees ((HandleOp.getHandlesBySession sessionId).outcome e s)
      ((HandleOp.getHandlesBySession sessionId).inMemory st).1 := by
  have hidx : handleLayout.isIndex (.session sessionId) = true := rfl
  have hrun : run (answer e) (getHandlesBySession sessionId) () s = _ :=
    run_readIndex e h.exact hidx
  refine ⟨(e.list HandleId (s.members (session sessionId).name)).filterMap
    (handleLayout.get s), _, ?_, rfl, fun handle => ?_⟩
  · unfold HandleOp.outcome HandleOp.program
    rw [run_map, hrun]
    rfl
  · rw [mem_filter, beq_iff_eq]
    refine (mem_readIndex e h.exact hidx).trans ?_
    rw [session_mem_indices, h.records]
    refine and_congr_left fun _ => ?_
    constructor
    · exact fun hlook => mem_values.2 ⟨_, hlook⟩
    · intro hmem
      obtain ⟨id, hlook⟩ := mem_values.1 hmem
      have hget : handleLayout.get s id = some handle := (h.records id).trans hlook
      have hid : handle.persistentId = id := h.exact.named id handle hget
      have hident : handleLayout.ident handle = id := hid
      rw [hident]
      exact hlook

theorem forFile (share path : String) :
    Agrees ((HandleOp.getHandlesForFile share path).outcome e s)
      ((HandleOp.getHandlesForFile share path).inMemory st).1 ↔ st.handles.values = [] := by
  have hprogram : (HandleOp.getHandlesForFile share path).outcome e s =
      ((run (answer e) (getHandlesForFile share path) () s).1.map .handles) := by
    unfold HandleOp.outcome HandleOp.program
    rw [run_map]
  rw [hprogram, run_getHandlesForFile]
  constructor
  · intro hagr
    by_contra hne
    -- the index of the session of some handle is among the keys
    obtain ⟨handle, hmem⟩ := exists_mem_of_ne_nil _ hne
    obtain ⟨id, hlook⟩ := mem_values.1 hmem
    have hget : handleLayout.get s id = some handle := (h.records id).trans hlook
    have hmember : id ∈ s.members (session handle.sessionId).name :=
      (h.exact.exact (.session handle.sessionId) rfl id).2 ⟨handle, hget, session_mem_indices.2 rfl⟩
    have hset : s.IsSet (session handle.sessionId).name := by
      unfold Server.members at hmember
      split at hmember
      · next ms hms => exact ⟨ms, hms⟩
      · cases hmember
    have hkeys : (session handle.sessionId).name ∈ s.values.keys := by
      obtain ⟨ms, hms⟩ := hset
      rw [← AList.mem_keys, ← AList.lookup_isSome, hms]
      rfl
    have hlisted : (session handle.sessionId).name ∈ e.list String
        (s.values.keys.filter fun k => k.startsWith HANDLE) :=
      e.mem_list.2 (mem_filter.2 ⟨hkeys, startsWith_name _⟩)
    rw [run_readHandles_of_set e hlisted hset] at hagr
    obtain ⟨hs, hs', herror, -⟩ := hagr
    cases herror
  · intro hnil
    have hlist : e.list String (s.values.keys.filter fun k => k.startsWith HANDLE) = [] := by
      rw [eq_nil_iff_forall_not_mem]
      intro k hk
      have hkey : k ∈ s.values.keys := (mem_filter.1 (e.mem_list.1 hk)).1
      obtain ⟨id, handle, hlook⟩ := h.key_cases hkey
      have hmem : handle ∈ st.handles.values := mem_values.2 ⟨id, hlook⟩
      rw [hnil] at hmem
      cases hmem
    refine ⟨[], [], ?_, ?_, fun _ => Iff.rfl⟩
    · rw [hlist]
      rfl
    · unfold HandleOp.inMemory
      dsimp only
      rw [hnil]
      rfl

/-- **One operation** that meets the condition leaves the same handles in both stores. -/
theorem step {op : HandleOp} (hok : op.Kept st) :
    SameHandles (op.after e s) (op.inMemory st).2 := by
  unfold HandleOp.after
  cases op with
  | createHandle handle | updateHandle handle =>
    have hrun : run (answer e) (createHandle handle) () s =
        (.ok (), (), handleLayout.put s handle) := run_putRecord e h.exact.typed trivial
    unfold HandleOp.program
    dsimp only [updateHandle]
    rw [run_map, hrun]
    exact h.put hok
  | getHandle id =>
    unfold HandleOp.program
    rw [run_map, run_getHandle e h.exact]
    exact h
  | getHandlesBySession id =>
    have hidx : handleLayout.isIndex (.session id) = true := rfl
    have hrun : run (answer e) (getHandlesBySession id) () s = _ := run_readIndex e h.exact hidx
    unfold HandleOp.program
    rw [run_map, hrun]
    exact h
  | getHandlesForFile share path =>
    unfold HandleOp.program
    dsimp only
    rw [run_map, run_getHandlesForFile, after_readHandles]
    exact h
  | deleteHandle id =>
    have hrun : run (answer e) (deleteHandle id) () s =
        (.ok (), (), handleLayout.drop handleLayout.indices s id) :=
      run_dropRecord e h.exact.typed (fun _ _ hin => handleLayout.index_of_mem hin) trivial
    unfold HandleOp.program
    dsimp only
    rw [run_map, hrun]
    exact h.drop id

end Same

end SameHandles

/-- **The queries agree**: after every run in which handles keep their sessions, those of a
session are the same in both stores, and those of a file exactly if there is none. -/
theorem handles_agree {s : HandleServer} {st : MemoryStateStore}
    (hrun : HandleRun (fun st op => op.Kept st) s st) (e : Enumeration) :
    (∀ sessionId, Agrees ((HandleOp.getHandlesBySession sessionId).outcome e s)
      ((HandleOp.getHandlesBySession sessionId).inMemory st).1) ∧
    ∀ share path, Agrees ((HandleOp.getHandlesForFile share path).outcome e s)
      ((HandleOp.getHandlesForFile share path).inMemory st).1 ↔ st.handles.values = [] := by
  have hsame : SameHandles s st := by
    induction hrun with
    | start => exact .new
    | step _ e op hok ih => exact ih.step e hok
  exact ⟨hsame.bySession e, hsame.forFile e⟩

namespace Sample

/-- A handle on a file. -/
def fileHandle (persistentId : HandleId) (sessionId : UInt64) : HandleState :=
  { HandleState.default 0 with
    persistentId := persistentId
    sessionId := sessionId
    shareName := "share"
    path := "file" }

/-- Both stores after some operations. -/
def afterHandles (ops : List HandleOp) : HandleServer × MemoryStateStore :=
  ops.foldl (fun p op => (op.after .plain p.1, (op.inMemory p.2).2)) (Server.empty, .new)

/-- Two handles of session 3 and one of session 4, which is deleted again. -/
def sharedFile : HandleServer × MemoryStateStore :=
  afterHandles [.createHandle (fileHandle 1 3), .createHandle (fileHandle 2 3),
    .createHandle (fileHandle 3 4), .deleteHandle 3]

/-- Both stores find the two handles of session 3, but not for their file. -/
theorem handles_agree_two :
    HandleRun (fun st op => op.Kept st) sharedFile.1 sharedFile.2 ∧
      Agrees ((HandleOp.getHandlesBySession 3).outcome .plain sharedFile.1)
        (.handles [fileHandle 2 3, fileHandle 1 3]) ∧
      ¬ Agrees ((HandleOp.getHandlesForFile "share" "file").outcome .plain sharedFile.1)
        (.handles [fileHandle 2 3, fileHandle 1 3]) := by
  have hrun : HandleRun (fun st op => op.Kept st) sharedFile.1 sharedFile.2 := by
    refine .step (.step (.step (.step .start .plain (HandleOp.createHandle (fileHandle 1 3)) ?_)
      .plain (HandleOp.createHandle (fileHandle 2 3)) ?_)
      .plain (HandleOp.createHandle (fileHandle 3 4)) ?_) .plain (HandleOp.deleteHandle 3) trivial
    all_goals exact fun _ h => by cases h
  obtain ⟨hsess, hfile⟩ := handles_agree hrun .plain
  exact ⟨hrun, hsess 3, fun h => absurd ((hfile "share" "file").1 h) (by decide +kernel)⟩

/-- The query for the file of a handle fails.  A handle that moves to session 4 is still found
for session 3. -/
theorem handles_disagree :
    (HandleOp.getHandlesForFile "share" "file").outcome .plain
        (afterHandles [.createHandle (fileHandle 1 3)]).1 = .error (.failed .internal) ∧
      (HandleOp.getHandlesBySession 3).outcome .plain
        (afterHandles [.createHandle (fileHandle 1 3), .updateHandle (fileHandle 1 4)]).1 =
          .ok (.handles [fileHandle 1 4]) ∧
      ((HandleOp.getHandlesBySession 3).inMemory
        (afterHandles [.createHandle (fileHandle 1 3), .updateHandle (fileHandle 1 4)]).2).1 =
          .handles [] := by
  decide +kernel

end Sample

end RustSmb.Redis
