import RustSmb.System.Openings
import RustSmb.System.Setup

/-!
# How long a durable handle can be reconnected

A durable handle is granted a timeout: after its connection is lost, its client has that long to
come back.  The deadline is recorded when the handle is opened, and the teardown of a connection
sets it only if there is none.  So the time runs from the opening of the handle.

## Main results

* `durableReconnect_succeeds_iff` — when a reconnect succeeds.
* `reconnectWindow_iff` — **a durable handle keeps its timeout exactly if its connection is lost at
  once.**
* `Sample.reconnect_refused` — a client comes back after one second and finds its handle gone.
-/

namespace RustSmb

open World Proc Handler

variable {handle : HandleState}

/-! ### Time -/

theorem forall_le_iff {m d n : ℕ} (hd : d < m) :
    (∀ u < m, u ≤ d ↔ u ≤ n) ↔ d = min n (m - 1) := by
  constructor
  · intro h
    have hself := (h d hd).1 (Nat.le_refl d)
    have hmin := (h (min n (m - 1)) (by omega)).2 (Nat.min_le_left _ _)
    omega
  · rintro rfl u hu
    omega

/-- The connection is lost in the second of the opening; or the clock is about to overflow. -/
def lostAtOpening (handle : HandleState) (lost : UInt64) : Prop :=
  (handle.createdAt = lost ∧
    lost.toNat + handle.durableTimeout.toNat / 1000 < UInt64.size) ∨
  (UInt64.size ≤ lost.toNat + handle.durableTimeout.toNat / 1000 ∧
    handle.createdAt.toNat + handle.durableTimeout.toNat / 1000 + 1 = UInt64.size)

instance (handle : HandleState) (lost : UInt64) : Decidable (lostAtOpening handle lost) :=
  inferInstanceAs (Decidable (_ ∨ _))

theorem deadline_eq_iff (handle : HandleState) (lost : UInt64) :
    (∀ u : UInt64, u ≤ handle.createdAt + handle.durableTimeout.toUInt64 / 1000 ↔
      1000 * u.toNat ≤ 1000 * lost.toNat + handle.durableTimeout.toNat) ↔
      lostAtOpening handle lost := by
  have hcre := handle.createdAt.toNat_lt_size
  have htime := handle.durableTimeout.toNat_lt_size
  have hsum : (handle.createdAt + handle.durableTimeout.toUInt64 / 1000).toNat =
      (handle.createdAt.toNat + handle.durableTimeout.toNat / 1000) % UInt64.size := by
    rfl
  have hdead := (handle.createdAt + handle.durableTimeout.toUInt64 / 1000).toNat_lt_size
  have hclock : (∀ u : UInt64, u ≤ handle.createdAt + handle.durableTimeout.toUInt64 / 1000 ↔
      1000 * u.toNat ≤ 1000 * lost.toNat + handle.durableTimeout.toNat) ↔
      ∀ u < UInt64.size, u ≤ (handle.createdAt + handle.durableTimeout.toUInt64 / 1000).toNat ↔
        u ≤ lost.toNat + handle.durableTimeout.toNat / 1000 := by
    constructor
    · intro h u hu
      have hu' := h (UInt64.ofNat u)
      rw [UInt64.le_iff_toNat_le, UInt64.toNat_ofNat_of_lt' hu] at hu'
      omega
    · intro h u
      have hu' := h u.toNat u.toNat_lt_size
      rw [UInt64.le_iff_toNat_le]
      omega
  rw [hclock, forall_le_iff hdead, hsum, lostAtOpening, ← UInt64.toNat_inj]
  simp only [UInt64.size, UInt32.size] at *
  omega

/-! ### When a reconnect succeeds -/

section Reconnect

variable [Externs] {α β : Type} [AuthProvider α] [StorageBackend β] {s : ConnectionHandler}
  {w : World α β} {header : Smb2Header} {persistentId : UInt64} {createGuid : Option Bytes}
  {filename : String}

/-- The file of a handle is still there, and is the one that was opened. -/
def fileStands (handle : HandleState) (b : β) : Bool :=
  match (StorageBackend.answer (.stat handle.path) b).1 with
  | .ok metadata => handle.backendInternalId.all fun ino => metadata.ino == ino
  | .error _ => false

omit [Externs] in
theorem succeeds_getOrFail_bind {γ δ : Type} {x : Option γ} {st : NtStatus} {f : γ → Handler δ} :
    Succeeds answer (getOrFail x st >>= f) s w ↔ ∃ a ∈ x, Succeeds answer (f a) s w := by
  cases x with
  | none => exact ⟨nofun, nofun⟩
  | some a => exact ⟨fun h => ⟨a, rfl, h⟩, by rintro ⟨_, ⟨⟩, h⟩; exact h⟩

omit [Externs] in
theorem findDurableHandle_succeeds_iff {γ : Type} {f : HandleState → Handler γ} :
    Succeeds answer (findDurableHandle persistentId createGuid filename >>= f) s w ↔
      ∃ handle ∈ w.store.handles.lookup (BitVec.ofNat 128 persistentId.toNat),
        Reconnectable createGuid filename w.oracle.now handle ∧ Succeeds answer (f handle) s w := by
  have hget : run answer
      (storeOrInternal (.getHandle (BitVec.ofNat 128 persistentId.toNat))) s w =
      (.ok (w.store.handles.lookup (BitVec.ofNat 128 persistentId.toNat)), s, w) := rfl
  unfold findDurableHandle
  simp only [bind_assoc]
  rw [succeeds_bind_of hget, succeeds_getOrFail_bind]
  refine exists_congr fun handle => and_congr_right fun _ => ?_
  rw [succeeds_require_bind, succeeds_require_bind, succeeds_bind_of run_now]
  by_cases htime : handle.canReconnect w.oracle.now = true
  · rw [if_pos htime]
    simp only [bind_assoc, pure_bind]
    rw [succeeds_require_bind, succeeds_require_bind]
    constructor
    · rintro ⟨hdur, hsess, hguid, hname, hf⟩
      exact ⟨⟨hdur, by simpa using hsess, htime, by simpa using hguid, hname⟩, hf⟩
    · rintro ⟨⟨hdur, hsess, -, hguid, hname⟩, hf⟩
      exact ⟨hdur, by simpa using hsess, by simpa using hguid, hname, hf⟩
  · rw [if_neg htime]
    constructor
    · rintro ⟨-, -, hf⟩
      rw [bind_assoc, succeeds_bind_of rfl] at hf
      obtain ⟨a, ha⟩ := hf
      cases ha
    · rintro ⟨hr, -⟩
      exact absurd hr.inTime htime

omit [Externs] in
theorem registerHandleLease_succeeds {γ : Type} {f : Unit → Handler γ}
    (hf : ∀ w : World α β, Succeeds answer (f ()) s w) :
    Succeeds answer (registerHandleLease header handle >>= f) s w := by
  unfold registerHandleLease
  cases handle.leaseKey with
  | none => exact hf w
  | some leaseKey => exact hf _

omit [Externs] in
theorem reconnectLeaseContext_succeeds {γ : Type} {f : List ResponseContext → Handler γ}
    (hf : ∀ contexts, Succeeds answer (f contexts) s w) :
    Succeeds answer (reconnectLeaseContext handle >>= f) s w := by
  unfold reconnectLeaseContext
  split
  · exact hf []
  · next leaseKey _ =>
    split
    · exact hf []
    · rw [bind_assoc]
      have hget : run answer (store (.getLease leaseKey)) s w =
          (.ok (.ok (w.store.leases.lookup leaseKey)), s, w) := rfl
      rw [succeeds_bind_of hget]
      cases w.store.leases.lookup leaseKey with
      | none | some _ => exact hf _

/-- **When a reconnect succeeds.** -/
theorem durableReconnect_succeeds_iff :
    Succeeds answer (durableReconnect header persistentId createGuid filename) s w ↔
      ∃ handle ∈ w.store.handles.lookup (BitVec.ofNat 128 persistentId.toNat),
        Reconnectable createGuid filename w.oracle.now handle ∧
        ∃ tree ∈ w.store.trees.lookup (header.sessionId, header.treeId),
          ∃ share ∈ lookupShare s tree.shareName, fileStands handle (w.backends share) = true := by
  unfold durableReconnect
  rw [findDurableHandle_succeeds_iff]
  refine exists_congr fun handle => and_congr_right fun _ => and_congr_right fun _ => ?_
  rw [succeeds_bind_of run_getTree, succeeds_getOrFail_bind]
  refine exists_congr fun tree => and_congr_right fun _ => ?_
  unfold getShare
  rw [bind_assoc, succeeds_bind_of run_get, succeeds_getOrFail_bind]
  refine exists_congr fun share => and_congr_right fun _ => ?_
  obtain ⟨stat, hstat⟩ : ∃ stat : Except VfsError Metadata,
      (StorageBackend.answer (.stat handle.path) (w.backends share)).1 = stat := ⟨_, rfl⟩
  have hrun : run answer (backend share (.stat handle.path)) s w =
      (.ok stat, s, (answer (.backend share (.stat handle.path)) w).2) := by
    rw [← hstat]
    rfl
  refine (succeeds_bind_of hrun).trans (succeeds_getOrFail_bind.trans ?_)
  unfold fileStands
  rw [hstat]
  cases stat with
  | error e => exact ⟨nofun, nofun⟩
  | ok metadata =>
    refine ⟨fun ⟨a, ha, hend⟩ => ?_, fun hino => ⟨metadata, rfl, ?_⟩⟩
    · cases ha
      exact (succeeds_require_bind.1 hend).1
    · -- the file is there: nothing can fail any more
      refine succeeds_require_bind.2 ⟨hino, ?_⟩
      refine (succeeds_bind_of run_now).2 ((succeeds_bind_of (run_storeOrInternal rfl)).2 ?_)
      refine registerHandleLease_succeeds fun w => ?_
      obtain ⟨respHeader, s', hhead, -⟩ := buildResponseHeader_run (w := w) header .success
      refine (succeeds_bind_of hhead).2 ?_
      exact reconnectLeaseContext_succeeds fun contexts => ⟨_, rfl⟩

/-- A request for a disconnected handle, by its name, that is in order but for the time at which it
is made. -/
structure OwnersRequest (s : ConnectionHandler) (w : World α β) (header : Smb2Header)
    (persistentId : UInt64) (createGuid : Option Bytes) (handle : HandleState) : Prop where
  stored : handle ∈ w.store.handles.lookup (BitVec.ofNat 128 persistentId.toNat)
  guid : guidMismatch handle createGuid = false
  file : ∃ tree ∈ w.store.trees.lookup (header.sessionId, header.treeId),
    ∃ share ∈ lookupShare s tree.shareName, fileStands handle (w.backends share) = true

/-- A lost handle can be reconnected until the timeout has passed, and no longer.  The timeout is
in milliseconds, the clock in seconds. -/
def ReconnectWindow (s : ConnectionHandler) (w : World α β) (header : Smb2Header)
    (persistentId : UInt64) (createGuid : Option Bytes) (handle : HandleState) (lost : UInt64)
    (timeout : UInt32) : Prop :=
  ∀ now, Succeeds World.answer (durableReconnect header persistentId createGuid handle.path) s
    (w.atTime now) ↔ 1000 * now.toNat ≤ 1000 * lost.toNat + timeout.toNat

theorem OwnersRequest.succeeds_iff (hreq : OwnersRequest s w header persistentId createGuid handle)
    (hdur : handle.isDurable = true) (hdisc : handle.sessionId = 0) (now : UInt64) :
    Succeeds answer (durableReconnect header persistentId createGuid handle.path) s
      (w.atTime now) ↔ handle.canReconnect now = true := by
  rw [durableReconnect_succeeds_iff]
  constructor
  · rintro ⟨found, hfound, hr, -⟩
    obtain rfl : handle = found := Option.mem_unique hreq.stored hfound
    exact hr.inTime
  · intro htime
    refine ⟨handle, hreq.stored, ⟨?_, hdisc, htime, hreq.guid, ?_⟩, hreq.file⟩
    · rw [hdur]
      rfl
    · simp [reconnectNameOk]

end Reconnect

/-! ### Runs -/

section Runs

variable [Externs] {α β : Type} [AuthProvider α] [StorageBackend β]
  {ok : World α β → SmbOp ⊕ Mark → Prop} {c : (smbMachine α β ok).Config} {tr : Trace ok}

/-- **The timeout of a durable handle runs from its opening**: in every run, whenever its
connection is lost, it can be reconnected until the granted timeout has passed since then, and no
longer, exactly if that is the second in which it was opened. -/
theorem reconnectWindow_iff (hrun : SmbRun ok c tr) {handle : HandleState}
    (hstored : handle ∈ c.world.store.handles.values) (hdurable : handle.isDurable = true)
    (ms : UInt32) (lost : UInt64) {s : ConnectionHandler} {w : World α β} {header : Smb2Header}
    {persistentId : UInt64} {createGuid : Option Bytes}
    (hreq : OwnersRequest s w header persistentId createGuid
      (handle.prepareForReconnect ms lost)) :
    ReconnectWindow s w header persistentId createGuid (handle.prepareForReconnect ms lost) lost
      handle.durableTimeout ↔ lostAtOpening handle lost := by
  have hcont := Continues.prepareForReconnect handle ms lost
  have hgrant := ((stored_opened hrun).1 handle hstored).granted hdurable
  have hdur' : (handle.prepareForReconnect ms lost).isDurable = true :=
    hcont.isDurable.trans hdurable
  -- losing the connection leaves the deadline as it is
  have hdead : (handle.prepareForReconnect ms lost).reconnectDeadline =
      some (handle.createdAt + handle.durableTimeout.toUInt64 / 1000) := by
    rw [(hcont.deadline (by rw [hgrant]; rfl)).1, hgrant]
  rw [← deadline_eq_iff]
  refine forall_congr' fun now => ?_
  rw [hreq.succeeds_iff hdur' (by simp), HandleState.canReconnect, hdur', hdead]
  simp [UInt64.not_lt]

end Runs

/-! ### A client that comes back -/

namespace Sample

/-- The check that a request is in order but for its time. -/
def ownersRequest (s : ConnectionHandler) (w : FilesWorld)
    (header : Smb2Header) (persistentId : UInt64) (createGuid : Option Bytes)
    (handle : HandleState) : Bool :=
  decide (w.store.handles.lookup (BitVec.ofNat 128 persistentId.toNat) = some handle) &&
    !guidMismatch handle createGuid &&
    (w.store.trees.lookup (header.sessionId, header.treeId)).any fun tree =>
      (lookupShare s tree.shareName).any fun share => fileStands handle (w.backends share)

theorem ownersRequest_of_check {s : ConnectionHandler} {w : FilesWorld}
    {header : Smb2Header} {persistentId : UInt64} {createGuid : Option Bytes}
    (h : ownersRequest s w header persistentId createGuid handle = true) :
    OwnersRequest s w header persistentId createGuid handle := by
  unfold ownersRequest at h
  simp only [Bool.and_eq_true, decide_eq_true_eq, Bool.not_eq_true', Option.any_eq_true] at h
  obtain ⟨⟨hstored, hguid⟩, tree, htree, share, hshare, hfile⟩ := h
  exact ⟨hstored, hguid, tree, htree, share, hshare, hfile⟩

/-- A client opens a durable handle at time 0. -/
def durableOpen : Option FilesSnapshot :=
  takeTurns (start AnonymousAuthProvider.anonymousOnly)
    [.serve 0 (Client.sessionSetup 0 []), .serve 0 (Client.treeConnect 1 "\\\\a\\s"),
      .serve 0 (Client.createDurable 1 1 "f")]

/-- Its connection is lost, and the client makes another one. -/
def comesBack (lost : UInt64) (st : FilesSnapshot) : Option FilesSnapshot :=
  takeTurns st
    [.wait lost, .leave 0, .serve 1 (Client.sessionSetup 0 []),
      .serve 1 (Client.treeConnect 2 "\\\\a\\s")]

/-- The request by which it asks for its handle. -/
def reconnectHeader : Smb2Header := { command := .create, sessionId := 2, treeId := 1 }

/-- A durable handle is open, its connection is lost, and a request for it would be in order. -/
def durableLost (lost : UInt64) (f : HandleState → Bool) : Bool :=
  durableOpen.any fun st =>
    (st.world.store.handles.lookup 1).any fun handle =>
      handle.isDurable && f handle && (comesBack lost st).any fun st' =>
        (st'.conn 1).any fun s =>
          ownersRequest s st'.world reconnectHeader 1 none (handle.prepareForReconnect 60000 lost)

theorem exists_of_durableLost {lost : UInt64} {f : HandleState → Bool}
    (h : durableLost lost f = true) :
    ∃ (c : FilesConfig) (tr : Trace anyCall)
      (handle : HandleState) (s : ConnectionHandler) (w : FilesWorld),
      SmbRun anyCall c tr ∧ handle ∈ c.world.store.handles.values ∧ handle.isDurable = true ∧
      f handle = true ∧ OwnersRequest s w reconnectHeader 1 none
        (handle.prepareForReconnect 60000 lost) := by
  obtain ⟨st, hst, h⟩ := (Option.any_eq_true _ _).1 h
  obtain ⟨handle, hhdl, h⟩ := (Option.any_eq_true _ _).1 h
  obtain ⟨hdf, h⟩ := Bool.and_eq_true_iff.1 h
  obtain ⟨hdur, hf⟩ := Bool.and_eq_true_iff.1 hdf
  obtain ⟨st', -, h⟩ := (Option.any_eq_true _ _).1 h
  obtain ⟨s, -, h⟩ := Conn.exists_of_any h
  exact ⟨st.config, st.trace, handle, s, st'.world, run_takeTurns (run_start _) hst,
    Table.mem_values.2 ⟨1, hhdl⟩, hdur, hf, ownersRequest_of_check h⟩

/-- A connection that is lost at once. -/
theorem reconnectWindow_atOnce :
    ∃ (c : FilesConfig) (tr : Trace anyCall)
      (handle : HandleState) (s : ConnectionHandler) (w : FilesWorld),
      SmbRun anyCall c tr ∧ handle ∈ c.world.store.handles.values ∧ handle.isDurable = true ∧
      OwnersRequest s w reconnectHeader 1 none (handle.prepareForReconnect 60000 0) ∧
      ReconnectWindow s w reconnectHeader 1 none (handle.prepareForReconnect 60000 0) 0
        handle.durableTimeout := by
  have hchk : durableLost 0 (fun handle => decide (lostAtOpening handle 0)) = true := by
    decide +kernel
  obtain ⟨c, tr, handle, s, w, hrun, hstored, hdur, hlost, hreq⟩ := exists_of_durableLost hchk
  exact ⟨c, tr, handle, s, w, hrun, hstored, hdur, hreq,
    (reconnectWindow_iff hrun hstored hdur 60000 0 hreq).2 (of_decide_eq_true hlost)⟩

/-- **A client comes back after one second and finds its handle gone**: the connection is lost
1000 seconds after the opening, with a timeout of one minute. -/
theorem reconnect_refused :
    ∃ (c : FilesConfig) (tr : Trace anyCall)
      (handle : HandleState) (s : ConnectionHandler) (w : FilesWorld),
      SmbRun anyCall c tr ∧ handle ∈ c.world.store.handles.values ∧ handle.isDurable = true ∧
      OwnersRequest s w reconnectHeader 1 none (handle.prepareForReconnect 60000 1000) ∧
      ¬ ReconnectWindow s w reconnectHeader 1 none (handle.prepareForReconnect 60000 1000) 1000
        handle.durableTimeout := by
  have hchk : durableLost 1000 (fun handle => decide (handle.durableTimeout = 60000) &&
      !(handle.prepareForReconnect 60000 1000).canReconnect 1001) = true := by
    decide +kernel
  obtain ⟨c, tr, handle, s, w, hrun, hstored, hdur, hlost, hreq⟩ := exists_of_durableLost hchk
  obtain ⟨htime, hlate⟩ := Bool.and_eq_true_iff.1 hlost
  refine ⟨c, tr, handle, s, w, hrun, hstored, hdur, hreq, fun hwin => ?_⟩
  have hcont := Continues.prepareForReconnect handle 60000 1000
  have hrecon := (hreq.succeeds_iff (hcont.isDurable.trans hdur) (by simp) 1001).1
    ((hwin 1001).2 (by rw [of_decide_eq_true htime]; decide))
  simp [hrecon] at hlate

end Sample

end RustSmb
