import RustSmb.Server.Manager
import RustSmb.System.World

/-!
# Methods without interruption

What a method of a connection handler does when no other connection works at the same
time.  `Proc.run World.answer` runs it, and the rules here say what the calls of
`Handler` do in such a run.

## Main results

* `Handler.run_storeOrInternal` — the store of the model never fails.
* `SessionManager.deleteSession_run` — what the deletion of a session does to the sessions.
-/

namespace RustSmb

namespace Handler

open World Proc

variable {sid : UInt64}

variable {α β : Type} [AuthProvider α] [StorageBackend β] {s : ConnectionHandler}
  {w : World α β} {γ : Type}

theorem run_store {o : StoreOp} :
    run answer (store o) s w =
      (.ok (MemoryStateStore.answer w.oracle.now o w.store).1, s,
        { w with store := (MemoryStateStore.answer w.oracle.now o w.store).2 }) := rfl

theorem run_storeOrInternal {o : StoreOp} {v : o.Value}
    (hv : (MemoryStateStore.answer w.oracle.now o w.store).1 = .ok v) :
    run answer (storeOrInternal o) s w =
      (.ok v, s, { w with store := (MemoryStateStore.answer w.oracle.now o w.store).2 }) := by
  unfold storeOrInternal
  rw [run_bind, run_store]
  simp only [hv]
  rfl

theorem run_getSession :
    run answer (storeOrInternal (.getSession sid)) s w =
      (.ok (w.store.sessions.lookup sid), s, w) := rfl

theorem run_getTree {tid : UInt32} :
    run answer (storeOrInternal (.getTree sid tid)) s w =
      (.ok (w.store.trees.lookup (sid, tid)), s, w) := rfl

theorem run_registry {o : RegistryOp} :
    run answer (registry o) s w =
      (.ok (w.callRegistry s.serverId o).1, s, (w.callRegistry s.serverId o).2) := rfl

@[simp]
theorem run_now : run answer now s w = (.ok w.oracle.now, s, w) := rfl

section Bind

variable {δ : Type} {x : Option γ} {st : NtStatus} {f : γ → Handler δ} {b : δ}
  {s' : ConnectionHandler} {w' : World α β}

theorem run_getOrFail_bind_eq_ok (h : run answer (getOrFail x st >>= f) s w = (.ok b, s', w')) :
    ∃ a, x = some a ∧ run answer (f a) s w = (.ok b, s', w') := by
  cases x with
  | none => cases h
  | some a => exact ⟨a, rfl, h⟩

theorem run_parsed_bind_eq_ok (h : run answer (parsed x >>= f) s w = (.ok b, s', w')) :
    ∃ a, x = some a ∧ run answer (f a) s w = (.ok b, s', w') := by
  cases x with
  | none => cases h
  | some a => exact ⟨a, rfl, h⟩

end Bind

theorem expectSession_run {session : SessionState}
    (h : w.store.sessions.lookup sid = some session) :
    run answer (expectSession sid) s w = (.ok session, s, w) := by
  unfold expectSession
  rw [run_bind_ok run_getSession, h]
  rfl

theorem expectSession_run_none (h : w.store.sessions.lookup sid = none) :
    run answer (expectSession sid) s w = (.error (.status .userSessionDeleted), s, w) := by
  unfold expectSession
  rw [run_bind_ok run_getSession, h]
  rfl

end Handler

/-! ### The session manager -/

namespace SessionManager

variable {α β : Type} [AuthProvider α] [StorageBackend β] {s : ConnectionHandler}
  {w : World α β}

theorem run_store {o : StoreOp} {v : o.Value}
    (hv : (MemoryStateStore.answer w.oracle.now o w.store).1 = .ok v) :
    Proc.run World.answer (store o) s w =
      (.ok v, s, { w with store := (MemoryStateStore.answer w.oracle.now o w.store).2 }) := by
  unfold store
  rw [Proc.run_bind, Proc.run_perform]
  simp only [World.answer_store, hv, Proc.run_ofExcept]

theorem releaseHandle_run (handle : HandleState) (w : World α β) :
    ∃ w', Proc.run World.answer (releaseHandle handle) s w = (.ok (), s, w') ∧
      w'.store.sessions = w.store.sessions := by
  unfold releaseHandle deleteLeaseOf
  split
  · exact ⟨_, rfl, rfl⟩
  · split <;> exact ⟨_, rfl, rfl⟩

theorem releaseHandles_run (handles : List HandleState) (w : World α β) :
    ∃ w', Proc.run World.answer (Proc.forEach releaseHandle handles) s w = (.ok (), s, w') ∧
      w'.store.sessions = w.store.sessions :=
  Proc.run_forEach (fun w : World α β => w.store.sessions) releaseHandle_run handles

theorem run_getHandlesBySession :
    Proc.run World.answer (store (.getHandlesBySession sid)) s w =
      (.ok (w.store.handles.values.filter fun h => h.sessionId == sid), s, w) := run_store rfl

theorem run_getTreesBySession :
    Proc.run World.answer (store (.getTreesBySession sid)) s w =
      (.ok ((w.store.trees.entries.filter fun e => e.1.1 == sid).map Sigma.snd), s, w) :=
  run_store rfl

theorem deleteTrees_run (sid : UInt64) (trees : List TreeState) (w : World α β) :
    ∃ w', Proc.run World.answer
        (Proc.forEach (fun tree => store (.deleteTree sid tree.treeId)) trees) s w =
          (.ok (), s, w') ∧ w'.store.sessions = w.store.sessions := by
  refine Proc.run_forEach (fun w : World α β => w.store.sessions) (fun tree w => ?_) trees
  exact ⟨{ w with store := { w.store with trees := w.store.trees.erase (sid, tree.treeId) } },
    run_store rfl, rfl⟩

/-- **Deleting a session removes it and no other.** -/
theorem deleteSession_run (sid : UInt64) (w : World α β) :
    ∃ w', Proc.run World.answer (deleteSession sid) s w = (.ok (), s, w') ∧
      w'.store.sessions = w.store.sessions.erase sid := by
  obtain ⟨w₁, hhandles, h₁⟩ := releaseHandles_run
    (w.store.handles.values.filter fun h => h.sessionId == sid) w
  obtain ⟨w₂, htrees, h₂⟩ := deleteTrees_run sid
    ((w₁.store.trees.entries.filter fun e => e.1.1 == sid).map Sigma.snd) w₁
  refine ⟨{ w₂ with store := { w₂.store with sessions := w₂.store.sessions.erase sid } }, ?_,
    congrArg (AList.erase sid) (h₂.trans h₁)⟩
  unfold deleteSession
  rw [Proc.run_bind_ok run_getHandlesBySession, Proc.run_bind_ok hhandles,
    Proc.run_bind_ok run_getTreesBySession, Proc.run_bind_ok htrees]
  exact run_store rfl

end SessionManager

end RustSmb
