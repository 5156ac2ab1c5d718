import Mathlib.Data.List.Infix
import RustSmb.State.LeaseTable
import RustSmb.System.Acknowledgment
import RustSmb.System.ShareModes

/-!
# How caching is lost

A caching bit that the store has for a lease key goes when the lease is broken, when the last handle
with the key is closed, or when the session or the server that owns it goes.  Two more ways take it:
a CREATE that asks for a key again records what this request gets in place of what was there, and
the lease is deleted with any handle that carries its key.

## Main results

* `handlersMake_releaseCall` — every handler keeps to `ReleaseCall`.
* `lease_bits_kept` — **in turn, bits go only for these reasons.**
* `Sample.caching_lost_unbroken` — a CREATE and a CLOSE that take bits without any.
-/

set_option synthInstance.maxSize 1000000

namespace RustSmb

open Client SmbOp List MemoryStateStore

variable {key : String}

/-! ### What a handler has done before it takes caching away -/

section Handlers

open Proc Handler

/-- A break of a lease is over: its holder was notified, and awaited if need be; or an
acknowledgment took a pending break. -/
def LeaseBroken (key : String) (e : List (Event Smb)) : Prop :=
  (∃ serverId tx ev, ⟨registry serverId (.sendLeaseBreak tx ev), true⟩ ∈ e ∧
    ev.leaseKey = key ∧ (ev.ackRequired = true →
      ∃ outcome, ⟨registry serverId (.awaitCompletion ev.breakId), outcome⟩ ∈ e)) ∨
  ∃ serverId b pending, ⟨registry serverId (.findPendingBreak key), some b⟩ ∈ e ∧
    ⟨registry serverId (.removePendingBreak b), some pending⟩ ∈ e

/-- The handles that a call has found, by identifier, on a file or of a session. -/
def foundHandles : Event Smb → List HandleState
  | ⟨.store (.getHandle _), .ok found⟩ => found.toList
  | ⟨.store (.getHandlesForFile _ _), .ok handles⟩
  | ⟨.store (.getHandlesBySession _), .ok handles⟩ => handles
  | _ => []

/-- A handle with this lease key was found. -/
def FoundLeased (key : String) (e : List (Event Smb)) : Prop :=
  ∃ ev ∈ e, ∃ handle ∈ foundHandles ev, handle.leaseKey = some key

/-- A lease is lowered at the end of its break, and deleted for a handle that was found. -/
def ReleaseCall (e : List (Event Smb)) : SmbOp → Prop
  | .store (.updateLease lease) =>
      LeaseBroken lease.leaseKey e ∨ ∃ key found, LeaseBroken key e ∧
        ⟨store (.getLease key), .ok (some found)⟩ ∈ e ∧ found.leaseKey = lease.leaseKey
  | .store (.deleteLease key) => FoundLeased key e
  | .store (.deleteLeasesForServer _) => False
  | _ => True

variable {s : ConnectionHandler} {h : List (Event Smb)}

theorem FoundLeased.mono {h' : List (Event Smb)} (hf : FoundLeased key h) (hs : h ⊆ h') :
    FoundLeased key h' := by
  obtain ⟨ev, hev, hfound⟩ := hf
  exact ⟨ev, hs hev, hfound⟩

theorem LeaseBroken.mono {h' : List (Event Smb)} (hb : LeaseBroken key h) (hs : h ⊆ h') :
    LeaseBroken key h' := by
  refine hb.imp ?_ ?_
  · rintro ⟨serverId, tx, ev, hsent, hkey, hwait⟩
    refine ⟨serverId, tx, ev, hs hsent, hkey, fun hack => ?_⟩
    obtain ⟨outcome, hmem⟩ := hwait hack
    exact ⟨outcome, hs hmem⟩
  · rintro ⟨serverId, b, pending, hfind, hrem⟩
    exact ⟨serverId, b, pending, hs hfind, hs hrem⟩

/-- Only calls with an effect on leases lower or delete leases. -/
instance : Tolerates ReleaseCall
    [.counter, .sessionCounter, .createSession, .session, .createTree, .deleteTree, .fileHandles,
      .createHandle, .handle, .lock, .backend, .registry, .oplock, .registerOplock, .acknowledge,
      .authenticate] where
  call e o ho := by
    cases o with
    | store so =>
      cases so with
      | updateLease _ | deleteLease _ | deleteLeasesForServer _ =>
        simp [effect, StoreOp.effect] at ho
      | _ => trivial
    | _ => trivial

instance {path : String} {lease : LeaseEntry} {requested : UInt32} :
    Allows (S := Smb) ReleaseCall (.store (.checkAndCreateLease path lease requested)) :=
  ⟨fun _ => trivial⟩

def Leased (handle : HandleState) (e : List (Event Smb)) : Prop :=
  ∀ key, handle.leaseKey = some key → FoundLeased key e

instance lasts_leased {handle : HandleState} :
    Lasts (σ := ConnectionHandler) (S := Smb) fun _ e => Leased handle e :=
  ⟨fun _ _ _ hl key hkey => (hl key hkey).mono (subset_cons_self _ _)⟩

theorem keeps_deleteLease {ε : Type} {handle : HandleState} (hkey : handle.leaseKey = some key) :
    Keeps (fun _ e => Leased handle e) ReleaseCall
      (Proc.perform (S := Smb) (.store (.deleteLease key)) : Proc Smb ConnectionHandler ε _) :=
  keeps_perform (fun _ _ hl => hl key hkey) fun s e _ hl => lasts_leased.cons s _ e hl

/-! ### Sessions -/

theorem releaseHandle_releaseCall (handle : HandleState) :
    Keeps (fun _ e => Leased handle e) ReleaseCall (SessionManager.releaseHandle handle) := by
  unfold SessionManager.releaseHandle SessionManager.deleteLeaseOf
  split
  · exact walked
  · refine keeps_bind ?_ fun _ => walked
    split
    · next key hkey => exact keeps_bind (keeps_deleteLease hkey) fun _ => walked
    · exact walked

instance {sessionId : UInt64} :
    Walks (fun _ _ => True) ReleaseCall (SessionManager.deleteSession sessionId) := by
  refine Keeps.walks (deleteSession_shown (fun sessionId handles _ handle hmem key hkey => ?_)
    releaseHandle_releaseCall)
  exact ⟨_, mem_cons_self, handle, hmem, hkey⟩

/-! ### CREATE -/

theorem checkShareMode_releaseCall (r : CreateRequest) (existing : HandleState) :
    Keeps (fun _ e => Leased existing e) ReleaseCall (checkShareMode r existing) := by
  unfold checkShareMode purgeHandle deleteLeaseOf
  split
  · refine keeps_step fun caching => ?_
    split
    · refine keeps_bind ?_ fun _ => walked
      split
      · next key hkey => exact keeps_bind (keeps_deleteLease hkey) fun _ => walked
      · exact walked
    · exact walked
  · exact walked

instance {header : Smb2Header} {r : CreateRequest}
    {shareName filename : String} :
    Walks (fun _ _ => True) ReleaseCall (checkShareModes header r shareName filename) := by
  -- a handle of an answer was found
  have hfound : ∀ (existing : List HandleState) (h : List (Event Smb)), ∀ x ∈ existing, Leased x
      (⟨store (.getHandlesForFile shareName filename), .ok existing⟩ :: h) :=
    fun existing h x hx key hkey => ⟨_, mem_cons_self, x, hx, hkey⟩
  refine Keeps.walks fun s h _ => ?_
  unfold checkShareModes
  refine wp_bind.2 (wp_storeOrInternal.2 ⟨trivial, fun existing => ?_, fun _ => trivial⟩)
  let R := fun (_ : ConnectionHandler) (e : List (Event Smb)) => ∀ x ∈ existing, Leased x e
  have : Lasts R := ⟨fun s ev e hall x hx => lasts_leased.cons s ev e (hall x hx)⟩
  refine wp_step (R := R) (hfound existing h) fun oplocks s h₁ hall => ?_
  refine wp_step hall fun broken s h₂ hall => ?_
  refine wp_seq ?_ fun existing s h₃ hall => wp_forEach_shown (checkShareMode_releaseCall r) hall
  unfold handlesAfterBreak
  split
  · exact wp_storeOrInternal.2 ⟨trivial, fun again => hfound again _, fun _ => trivial⟩
  · exact wp_pure.2 hall

/-- A lease that was broken: its holder was notified, and the break waited for. -/
theorem breakLease_releaseCall (key : String) (currentState newState : UInt32) (epoch : UInt16)
    (filePath : String) :
    wp ReleaseCall (breakLease key currentState newState epoch filePath)
      (onOk (fun _ _ _ => True) fun r _ h' => r.isOk = true → LeaseBroken key h') s h := by
  unfold breakLease
  refine wp_bind.2 (wp_registry.2 ⟨trivial, fun found => ?_⟩)
  cases found with
  | none => exact wp_pure.2 nofun
  | some entry =>
    refine wp_bind.2 (wp_registry.2 ⟨trivial, fun breakId => ?_⟩)
    refine wp_bind.2 (wp_registry.2 ⟨trivial, fun sent => ?_⟩)
    cases sent with
    | false => exact wp_pure.2 nofun
    | true =>
      split
      · next hack =>
        refine wp_pure.2 fun _ => .inl ⟨_, _, _, mem_cons_self, rfl, fun hreq => ?_⟩
        rw [show (currentState != 0x01) = true from hreq] at hack
        cases hack
      · unfold awaitLeaseBreak
        refine wp_bind.2 (wp_bind.2 (wp_registry.2 ⟨trivial, fun _ => ?_⟩))
        refine wp_bind.2 (wp_registry.2 ⟨trivial, fun outcome => ?_⟩)
        refine wp_bind.2 (wp_registry.2 ⟨trivial, fun _ => ?_⟩)
        refine wp_pure.2 (wp_pure.2 fun _ => .inl ⟨_, _, _, mem_cons_of_mem _
          (mem_cons_of_mem _ (mem_cons_of_mem _ mem_cons_self)), rfl, fun _ => ?_⟩)
        exact ⟨outcome, mem_cons_of_mem _ mem_cons_self⟩

instance {leaseState : UInt32} {filePath : String}
    {conflict : LeaseEntry} :
    Walks (fun _ _ => True) ReleaseCall (breakConflict leaseState filePath conflict) := by
  refine Keeps.walks fun s h _ => ?_
  unfold breakConflict
  dsimp only
  split
  · exact wp_pure.2 trivial
  · refine wp_seq (breakLease_releaseCall _ _ _ _ _) fun r s h' hr => ?_
    cases r with
    | error err => exact wp_pure.2 trivial
    | ok result => exact wp_bind.2 (wp_store.2 ⟨.inl (hr rfl), fun _ => wp_pure.2 trivial⟩)

instance [Externs] {header : Smb2Header} {o : OpenOptions}
    {shareName filename : String} :
    Walks (fun _ _ => True) ReleaseCall (openLease header o shareName filename) := by
  unfold openLease
  split
  · refine walks_step fun s => walks_step fun now => walks_step fun r => ?_
    cases r <;> unfold reportedLeaseState <;> infer_instance
  · infer_instance

/-! ### CLOSE and acknowledgments -/

theorem handleClose_releaseCall [Externs] (header : Smb2Header) (body : Bytes) :
    Always ReleaseCall (handleClose header body) := by
  unfold handleClose
  refine keeps_step fun _ => ?_
  intro s h _
  refine wp_seq (ownedHandle_wp header _ _ trivial) fun handle s h' hfound => ?_
  obtain ⟨⟨-, rfl⟩, -⟩ := hfound
  unfold closeHandle releaseCaching
  refine wp_seq (P := fun _ _ _ => True) ?_ fun _ s h' _ => Always.wp walked s h'
  split
  · next key hkey =>
    refine wp_bind.2 (wp_registry.2 ⟨trivial, fun _ => ?_⟩)
    exact wp_bind.2 (wp_store.2 ⟨⟨_, mem_cons_of_mem _ mem_cons_self, handle, mem_singleton_self _,
      hkey⟩, fun _ => wp_pure.2 trivial⟩)
  split
  · exact wp_bind.2 (wp_registry.2 ⟨trivial, fun _ => wp_pure.2 trivial⟩)
  · exact wp_pure.2 trivial

theorem handleAcknowledgment_releaseCall (key : Bytes) (state : UInt32) :
    wp ReleaseCall (handleAcknowledgment key state)
      (onOk (fun _ _ _ => True) fun r _ h' => r.isOk = true → LeaseBroken key.hex h') s h := by
  unfold handleAcknowledgment
  refine wp_bind.2 (wp_registry.2 ⟨trivial, fun found => ?_⟩)
  cases found with
  | none => exact wp_pure.2 fun hok => by cases hok
  | some b =>
    refine wp_bind.2 (wp_registry.2 ⟨trivial, fun pending => ?_⟩)
    cases pending with
    | none => exact wp_pure.2 fun hok => by cases hok
    | some pending =>
      simp only [onOk]
      split
      · exact wp_bind.2 (wp_registry.2 ⟨trivial, fun _ => wp_pure.2 fun hok => by cases hok⟩)
      · refine wp_bind.2 (wp_registry.2 ⟨trivial, fun _ => wp_pure.2 fun _ => .inr ?_⟩)
        exact ⟨_, b, pending, mem_cons_of_mem _ (mem_cons_of_mem _ mem_cons_self),
          mem_cons_of_mem _ mem_cons_self⟩

theorem handleLeaseBreakAck_releaseCall (header : Smb2Header) (body : Bytes) :
    Always ReleaseCall (handleLeaseBreakAck header body) := by
  unfold handleLeaseBreakAck
  refine keeps_bind keeps_require fun _ => ?_
  intro s h _
  refine wp_seq (handleAcknowledgment_releaseCall _ _) fun r s h' hbroken => ?_
  split
  · exact keeps_fail s h' trivial
  · exact keeps_fail s h' trivial
  · unfold recordAcknowledged
    refine wp_seq (P := fun _ _ _ => True) ?_ fun _ s h _ => ?_
    · refine wp_bind.2 (wp_store.2 ⟨trivial, fun reply => ?_⟩)
      rcases reply with _ | (_ | lease)
      · exact wp_pure.2 trivial
      · exact wp_pure.2 trivial
      · exact wp_bind.2 (wp_store.2 ⟨.inr ⟨_, lease, (hbroken rfl).mono (subset_cons_self _ _),
          mem_cons_self, rfl⟩, fun _ => wp_pure.2 trivial⟩)
    · exact Always.wp walked s h

/-! ### All handlers -/

variable [Externs]

instance {header : Smb2Header} {request : SessionSetupRequest}
    {fullMessage : Bytes} {existingSession : Option SessionState} {user : UserInfo}
    {sessionKey : Bytes} {responseToken : Option Bytes} :
    Walks (fun _ _ => True) ReleaseCall (sessionSetupSuccess header request fullMessage
      existingSession user sessionKey responseToken) := by
  unfold sessionSetupSuccess createSession
  infer_instance

theorem handleSessionSetup_releaseCall (header : Smb2Header) (body fullMessage : Bytes) :
    Always ReleaseCall (handleSessionSetup header body fullMessage) := by
  unfold handleSessionSetup
  refine keeps_step fun request => ?_
  split
  · exact walked
  refine keeps_step fun existing => keeps_step fun result => ?_
  cases result <;> exact walked

/-- **What a handler has done before it lowers or deletes a lease.** -/
theorem handlersMake_releaseCall : HandlersMake fun _ _ e o => ReleaseCall e o := by
  intro cmd g _
  refine Always.wp ?_ cmd.handler []
  unfold handleCommand
  cases hcmd : cmd.header.command with
  | sessionSetup => exact keeps_map (handleSessionSetup_releaseCall _ _ _)
  | logoff =>
    unfold handleLogoff
    exact walked
  | close => exact keeps_map (handleClose_releaseCall _ _)
  | create =>
    refine keeps_map (keeps_bind (keeps_step fun r => keeps_step fun _ => ?_) fun _ => walked)
    dsimp only
    split
    · exact walked
    · unfold openFile
      exact walked
  | oplockBreak =>
    refine keeps_map (keeps_step fun _ => ?_)
    split
    · unfold handleOplockBreakAck
      exact walked
    split
    · exact handleLeaseBreakAck_releaseCall _ _
    · exact walked
  | _ => exact walked

end Handlers

/-! ### In every run -/

section Runs

variable {α β : Type} (st : MemoryStateStore)

/-- The caching bits that the store has for a key. -/
def leaseBits (key : String) : UInt32 :=
  ((st.leases.lookup key).map LeaseEntry.leaseState).getD 0

/-- A key has a caching bit in one store that it does not have in the next. -/
def LosesCaching (st st' : MemoryStateStore) (key : String) : Prop :=
  leaseBits st key &&& ~~~leaseBits st' key ≠ 0

instance (st st' : MemoryStateStore) (key : String) : Decidable (LosesCaching st st' key) :=
  inferInstanceAs (Decidable (_ ≠ _))

/-- The handle that a command has found and closes is the only one that carries the key: the
command has found no other, and none is stored. -/
def LastHandle (key : String) (e : List (Event Smb)) : Prop :=
  ∃ closed ∈ e.flatMap foundHandles, closed.leaseKey = some key ∧
    ∀ h ∈ e.flatMap foundHandles ++ st.handles.values,
      h.leaseKey = some key → h.persistentId = closed.persistentId

instance (st : MemoryStateStore) (key : String) (e : List (Event Smb)) :
    Decidable (LastHandle st key e) :=
  inferInstanceAs (Decidable (∃ closed ∈ _, _ ∧ ∀ h ∈ _, _ → _))

def asksHandlesOf (sessionId : UInt64) : SmbOp → Bool
  | .store (.getHandlesBySession id) => id == sessionId
  | _ => false

/-- The session that owns a lease is being removed: the command has asked for its handles. -/
def OwnerLeaves (key : String) (e : List (Event Smb)) : Prop :=
  ∃ lease ∈ st.leases.lookup key, ∃ ev ∈ e, asksHandlesOf lease.sessionId ev.1 = true

instance (st : MemoryStateStore) (key : String) (e : List (Event Smb)) :
    Decidable (OwnerLeaves st key e) :=
  inferInstanceAs (Decidable (∃ lease ∈ _, ∃ ev ∈ e, _))

/-- Why a call may take caching bits of a key: a break, the close of its last handle, or the
removal of the owner. -/
def MayLose (key : String) (e : List (Event Smb)) : SmbOp ⊕ Mark → Prop
  | .inl (.store (.updateLease lease)) => lease.leaseKey = key ∧ LeaseBroken key e
  | .inl (.store (.deleteLease key')) =>
      key' = key ∧ FoundLeased key e ∧ (LastHandle st key e ∨ OwnerLeaves st key e)
  | _ => False

/-- A request asks for all the bits that its key has, and gets them: no lease in the way has
WRITE caching, and none is in the way of it. -/
def AsksForAll (path : String) (lease : LeaseEntry) (requested : UInt32) : Prop :=
  leaseBits st lease.leaseKey = 0 ∨
    leaseBits st lease.leaseKey &&& ~~~requested = 0 ∧
      ∀ l ∈ conflictingLeases st.leases path lease requested,
        ¬ hasWrite l.leaseState ∧ ¬ hasWrite (leaseBits st lease.leaseKey)

instance (st : MemoryStateStore) (path : String) (lease : LeaseEntry) (requested : UInt32) :
    Decidable (AsksForAll st path lease requested) :=
  inferInstanceAs (Decidable (_ ∨ _ ∧ _))

/-! ### What the store keeps -/

theorem losesCaching_of_lookup_eq {st st' : MemoryStateStore}
    (h : st'.leases.lookup key = st.leases.lookup key) : ¬ LosesCaching st st' key := by
  unfold LosesCaching leaseBits
  rw [h]
  exact fun hloses => hloses UInt32.and_not_self

theorem and_not_clear {b r w : UInt32} (hr : b &&& ~~~r = 0) (hw : b &&& w = 0) :
    b &&& ~~~(r &&& ~~~w) = 0 := by
  rw [← UInt32.toBitVec_inj] at hr hw ⊢
  ext i hi
  have hr' := congrArg (fun v => v[i]) hr
  have hw' := congrArg (fun v => v[i]) hw
  simp at hr' hw' ⊢
  grind

theorem AsksForAll.granted {st : MemoryStateStore} {path : String} {lease : LeaseEntry}
    {r : UInt32} (h : AsksForAll st path lease r) :
    leaseBits st lease.leaseKey &&& ~~~grantedState st.leases path lease r = 0 := by
  rcases h with hzero | ⟨hasked, hfree⟩
  · rw [hzero, UInt32.zero_and]
  unfold grantedState
  split
  · exact hasked
  · next hconf =>
    obtain ⟨l, ls, hl⟩ := exists_cons_of_ne_nil (mt isEmpty_iff.2 hconf)
    have hbits : ¬ hasWrite (leaseBits st lease.leaseKey) :=
      (hfree l (by rw [hl]; exact mem_cons_self)).2
    unfold reduceLeaseState
    dsimp only
    split
    · next hany =>
      obtain ⟨l, hl, hw⟩ := any_eq_true.1 hany
      exact absurd (bne_iff_ne.1 hw) (hfree l hl).1
    split
    · exact and_not_clear hasked (not_ne_iff.1 hbits)
    · exact hasked

/-- A call of the store takes bits of a key only by lowering or deleting its lease. -/
theorem eq_of_losesCaching {st : MemoryStateStore} {now : UInt64} {o : StoreOp}
    (hloses : LosesCaching st (answer now o st).2 key) :
    (∃ lease, o = .updateLease lease ∧ lease.leaseKey = key) ∨ o = .deleteLease key ∨
      (∃ path lease r, o = .checkAndCreateLease path lease r ∧ ¬ AsksForAll st path lease r) ∨
      ∃ lease ∈ st.leases.lookup key, o = .deleteLeasesForServer lease.serverId := by
  cases o with
  | updateLease lease =>
    refine .inl ⟨lease, rfl, ?_⟩
    by_contra hne
    refine losesCaching_of_lookup_eq ?_ hloses
    exact (Table.lookup_insert_ite ..).trans (if_neg (Ne.symm hne))
  | deleteLease key' =>
    refine .inr (.inl ?_)
    by_contra hne
    refine losesCaching_of_lookup_eq ?_ hloses
    exact (Table.lookup_erase_ite ..).trans (if_neg fun heq => hne (by rw [heq]))
  | checkAndCreateLease path lease r =>
    refine .inr (.inr (.inl ⟨path, lease, r, rfl, fun hall => ?_⟩))
    have hlook : (answer now (.checkAndCreateLease path lease r)
        st).2.leases.lookup key = if key = lease.leaseKey then
          some { lease with leaseState := grantedState st.leases path lease r }
        else st.leases.lookup key := by
      simp only [answer, checkAndCreateLease_eq, Table.lookup_insert_ite]
    -- only the entry under the lease's own key changes
    by_cases hkey : key = lease.leaseKey
    · rw [if_pos hkey] at hlook
      unfold LosesCaching at hloses
      rw [show leaseBits (answer now _ st).2 key = _ from
        congrArg (fun l => (Option.map LeaseEntry.leaseState l).getD 0) hlook, hkey] at hloses
      exact hloses hall.granted
    · rw [if_neg hkey] at hlook
      exact losesCaching_of_lookup_eq hlook hloses
  | deleteLeasesForServer sv =>
    refine .inr (.inr (.inr ?_))
    have hlook : (answer now (.deleteLeasesForServer sv)
        st).2.leases.lookup key = (st.leases.lookup key).filter fun l => l.serverId != sv :=
      Table.lookup_retain ..
    cases hlease : st.leases.lookup key with
    | none =>
      rw [hlease] at hlook
      exact (losesCaching_of_lookup_eq (hlook.trans hlease.symm) hloses).elim
    | some lease =>
      refine ⟨lease, rfl, congrArg StoreOp.deleteLeasesForServer (Eq.symm ?_)⟩
      by_contra hne
      rw [hlease, Option.filter_some, if_pos (bne_iff_ne.2 hne)] at hlook
      exact losesCaching_of_lookup_eq (hlook.trans hlease.symm) hloses
  | refreshSession sessionId ttl =>
    refine (losesCaching_of_lookup_eq ?_ hloses).elim
    simp only [answer, refreshSession]
    split <;> rfl
  | acquireFileLock lock =>
    refine (losesCaching_of_lookup_eq ?_ hloses).elim
    simp only [answer, acquireFileLock]
    split <;> rfl
  | _ => exact (losesCaching_of_lookup_eq rfl hloses).elim

/-! ### In every run -/

variable [Externs] [AuthProvider α] [StorageBackend β] {ok : World α β → SmbOp ⊕ Mark → Prop}
  {tr : Trace ok} {c : (smbMachine α β ok).Config}

/-- A call takes caching bits of a key only for a reason. -/
def BitsKept (tr : Trace ok) (i : ℕ) (x : (smbMachine α β ok).Stamped) : Prop :=
  ∀ key, LosesCaching x.world.store (Prog.answerMarks World.answer x.event.1 x.world).2.store key →
    MayLose x.world.store key ((progress (stamps (pastOf i tr))).since.map Prod.snd) x.event.1

/-- A CREATE asks for at least the caching of its key, and gets it; a lease is deleted for the
last handle that carries its key, or with the session that owns it. -/
def LeasesInTurn (tr : Trace ok) (i : ℕ) (x : (smbMachine α β ok).Stamped) :
    Prop :=
  match x.event.1 with
  | .inl (.store (.checkAndCreateLease path lease r)) => AsksForAll x.world.store path lease r
  | .inl (.store (.deleteLease key)) =>
      LastHandle x.world.store key ((progress (stamps (pastOf i tr))).since.map Prod.snd) ∨
        OwnerLeaves x.world.store key ((progress (stamps (pastOf i tr))).since.map Prod.snd)
  | _ => True

instance (tr : Trace ok) (i : ℕ) (x : (smbMachine α β ok).Stamped) :
    Decidable (LeasesInTurn tr i x) := by
  unfold LeasesInTurn
  split <;> infer_instance

/-- An answer that the running handler has got was given by a world of the run. -/
theorem exists_found (hrun : SmbRun ok c tr) {i : ℕ} {p : Prog SmbT Conn}
    {h : List (smbMachine α β ok).Stamped} {q : Prog SmbT Conn} (hi : c.phase i = .busy p h q)
    {w : World α β} {cmd : Command} {g e : List (World α β × Event Smb)}
    (hp : progress (stamps h) = .handling w cmd g e) (hhand : Handling ok w cmd g e)
    {ev : Event Smb} (hmem : ev ∈ e.map Prod.snd) :
    ∃ tr' c', SmbRun ok c' tr' ∧ (World.answer ev.1 c'.world).1 = ev.2 := by
  obtain ⟨⟨w₁, ev⟩, hmem', rfl⟩ := mem_map.1 hmem
  have hans := hhand.answered _ (mem_append_right g hmem')
  obtain ⟨later, earlier, rfl⟩ := append_of_mem hmem'
  obtain ⟨st, tr', hs, hworld, -, -⟩ := exists_event hrun hi hp (suffix_append later (_ :: earlier))
  obtain ⟨c', -, -, -, hrun', hworld', -⟩ := hrun.exists_before hs
  refine ⟨tr', c', hrun', ?_⟩
  rw [hworld', hworld]
  exact hans

/-- The lease that an acknowledgment lowers is the one whose break was pending. -/
theorem leaseBroken_of_releaseCall (hrun : SmbRun ok c tr) {i : ℕ} {p : Prog SmbT Conn}
    {h : List (smbMachine α β ok).Stamped} {q : Prog SmbT Conn} (hi : c.phase i = .busy p h q)
    {w : World α β} {cmd : Command} {g e : List (World α β × Event Smb)}
    (hp : progress (stamps h) = .handling w cmd g e) (hhand : Handling ok w cmd g e)
    {lease : LeaseEntry} (hcall : ReleaseCall (e.map Prod.snd) (.store (.updateLease lease))) :
    LeaseBroken lease.leaseKey (e.map Prod.snd) := by
  rcases hcall with hbroken | ⟨key, found, hbroken, hfound, hkey⟩
  · exact hbroken
  obtain ⟨tr', c', hrun', hans⟩ := exists_found hrun hi hp hhand hfound
  have hlook : c'.world.store.leases.lookup key = some found := Except.ok.inj hans
  have hfiled : found.leaseKey = key := (keyed hrun'.reachable).leases _ _ hlook
  rwa [← hkey, hfiled]

omit [Externs] in
theorem effect_ne_lease_of_farewell {o : SmbOp} (ho : isFarewell o) : o.effect ≠ .lease := by
  intro heq
  cases o with
  | store so =>
    cases so with
    | updateLease _ | deleteLease _ | checkAndCreateLease _ _ _ | deleteLeasesForServer _ =>
      exact ho.elim
    | _ => cases heq
  | registry sv ro => cases ro <;> cases heq
  | _ => cases heq

theorem handling_of_leaseCall (hrun : SmbRun ok c tr) {i : ℕ} {p : Prog SmbT Conn}
    {h : List (smbMachine α β ok).Stamped} {o : SmbOp} {k : SmbT.Res (.inl o) → Prog SmbT Conn}
    (hi : c.phase i = .busy p h (.call (.inl o) k)) (ho : o.effect = .lease) :
    ∃ w cmd g e, progress (stamps h) = .handling w cmd g e ∧ Handling ok w cmd g e ∧
      ReleaseCall (e.map Prod.snd) o := by
  rcases call_cases handlersMake_releaseCall (SmbReachable.running hrun.reachable hi) with
    ⟨_, _, _, -, hchk⟩ | hhand | ⟨-, hfare⟩
  · rcases hchk with rfl | rfl <;> cases ho
  · exact hhand
  · exact (effect_ne_lease_of_farewell hfare ho).elim

theorem bitsKept_of_inTurn (hrun : SmbRun ok c tr) {i : ℕ} {p : Prog SmbT Conn}
    {h : List (smbMachine α β ok).Stamped} {o : SmbT.Op} {k : SmbT.Res o → Prog SmbT Conn}
    (hi : c.phase i = .busy p h (.call o k)) {r : SmbT.Res o}
    (hturn : LeasesInTurn tr i ⟨c.world, o, r⟩) : BitsKept tr i ⟨c.world, o, r⟩ := by
  intro key hloses
  obtain ⟨so, rfl⟩ : ∃ so, o = .inl (.store so) := by
    by_contra hno
    refine losesCaching_of_lookup_eq ?_ hloses
    refine congrArg (fun st => st.leases.lookup key) (store_answerMarks
      (P := fun st => st = c.world.store) (fun so heq => (hno ⟨so, heq⟩).elim) rfl)
  rcases eq_of_losesCaching hloses with
    ⟨lease, rfl, rfl⟩ | rfl | ⟨path, lease, requested, rfl, hnot⟩ | ⟨lease, hlease, rfl⟩
  · obtain ⟨w, cmd, g, e, hp, hhand, hcall⟩ := handling_of_leaseCall hrun hi rfl
    refine ⟨rfl, (leaseBroken_of_releaseCall hrun hi hp hhand hcall).mono ?_⟩
    rw [progress_past hrun hi hp nofun]
    exact map_subset _ (subset_append_left e g)
  · obtain ⟨w, cmd, g, e, hp, -, hcall⟩ := handling_of_leaseCall hrun hi rfl
    refine ⟨rfl, FoundLeased.mono hcall ?_, hturn⟩
    rw [progress_past hrun hi hp nofun]
    exact map_subset _ (subset_append_left e g)
  · exact (hnot hturn).elim
  · obtain ⟨w, cmd, g, e, -, -, hcall⟩ := handling_of_leaseCall hrun hi rfl
    exact hcall.elim

omit [Externs] [AuthProvider α] [StorageBackend β] in
/-- What happens besides takes caching bits only of a lease whose server has failed. -/
theorem server_of_losesCaching {w w' : World α β} (hw : EnvStep w w')
    (hloses : LosesCaching w.store w'.store key) :
    ∃ lease ∈ w.store.leases.lookup key,
      w' = (w.callStore (.deleteLeasesForServer lease.serverId)).2 := by
  cases hw with
  | oracle _ | registry _ _ _ => exact (losesCaching_of_lookup_eq rfl hloses).elim
  | failure serverId o ho =>
    rcases ho with rfl | rfl
    · rcases eq_of_losesCaching hloses with
        ⟨lease, heq, -⟩ | heq | ⟨path, lease, requested, heq, -⟩ | ⟨lease, hlease, heq⟩
      · cases heq
      · cases heq
      · cases heq
      · exact ⟨lease, hlease, by rw [heq]⟩
    · exact (losesCaching_of_lookup_eq rfl hloses).elim

/-- **In turn, caching is lost only for a reason**: in every run with `LeasesInTurn`, a call
takes a caching bit only at the end of a break, for the last handle of the key or with the
session that owns the lease; otherwise bits go only when the owning server has failed. -/
theorem lease_bits_kept (hrun : SmbRun ok c tr) (hsteps : EachSmbCall LeasesInTurn tr) :
    EachSmbCall BitsKept tr ∧ ∀ w key, EnvStep c.world w →
      LosesCaching c.world.store w.store key → ∃ lease ∈ c.world.store.leases.lookup key,
        w = (c.world.callStore (.deleteLeasesForServer lease.serverId)).2 := by
  refine ⟨?_, fun w key hw hloses => server_of_losesCaching hw hloses⟩
  refine Machine.Run.traced (I := fun _ (tr : Trace ok) => EachSmbCall LeasesInTurn tr →
    EachSmbCall BitsKept tr) hrun (fun _ _ _ => trivial) (fun _ _ ih => ih) ?_ hsteps
  exact fun hrun hi _ ih hsteps => ⟨bitsKept_of_inTurn hrun hi hsteps.1, ih hsteps.2⟩

end Runs

/-! ### An example -/

namespace Sample

def sharedKey : Bytes := Bytes.ofU64 7 ++ Bytes.zeros 8

/-- A client opens a file under a lease key with READ and HANDLE caching and does further
requests. -/
def leaseOpened (requests : List (ℕ × Bytes)) : Option FilesSnapshot :=
  serveAll (start .anonymousOnly)
    ([(0, sessionSetup 0 []), (0, treeConnect 1 "\\\\a\\s"),
      (0, create 1 1 "f" 0xFF (leaseContext sharedKey 0x05))] ++ requests)

/-- The lease goes with the only handle that carries its key. -/
theorem lease_bits_kept_closed :
    ∃ (c : FilesConfig) (tr : Trace anyCall), SmbRun anyCall c tr ∧ EachSmbCall LeasesInTurn tr ∧
      (∃ x ∈ tr, leaseBits x.2.world.store sharedKey.hex = 0x05) ∧
      leaseBits c.world.store sharedKey.hex = 0 ∧ EachSmbCall BitsKept tr := by
  obtain ⟨st, hst, hsteps, hhad, hlost⟩ : ∃ st, leaseOpened [(0, close 1 1 1)] = some st ∧
      EachSmbCall LeasesInTurn st.trace ∧
      (∃ x ∈ st.trace, leaseBits x.2.world.store sharedKey.hex = 0x05) ∧
      leaseBits st.world.store sharedKey.hex = 0 := exists_of_any (by decide +kernel)
  have hrun := run_serveAll (run_start _) hst
  exact ⟨st.config, st.trace, hrun, hsteps, hhad, hlost, (lease_bits_kept hrun hsteps).1⟩

/-- The newest call of a trace is a request that takes bits of the shared key. -/
def asksForLess : FilesTrace → Bool
  | (_, ⟨w, ⟨.inl (.store (.checkAndCreateLease path lease r)), _⟩⟩) :: _ =>
      decide (LosesCaching w.store
        (w.callStore (.checkAndCreateLease path lease r)).2.store sharedKey.hex)
  | _ => false

theorem exists_of_asksForLess {t : FilesTrace} (h : asksForLess t = true) :
    ∃ i x tr path lease r, t = (i, x) :: tr ∧
      x.event.1 = .inl (.store (.checkAndCreateLease path lease r)) ∧
      LosesCaching x.world.store (Prog.answerMarks World.answer x.event.1 x.world).2.store
        sharedKey.hex := by
  unfold asksForLess at h
  split at h
  · exact ⟨_, _, _, _, _, _, rfl, rfl, of_decide_eq_true h⟩
  · cases h

/-- The newest call deletes the lease of the shared key although two handles carry it and its
owner stays. -/
def closesOneOfTwo : FilesTrace → Bool
  | (i, ⟨w, ⟨.inl (.store (.deleteLease key)), _⟩⟩) :: tr =>
      decide (key = sharedKey.hex ∧ ¬ LastHandle w.store sharedKey.hex
          ((progress (stamps (pastOf i tr))).since.map Prod.snd) ∧
        ¬ OwnerLeaves w.store sharedKey.hex
          ((progress (stamps (pastOf i tr))).since.map Prod.snd) ∧
        2 ≤ (w.store.handles.values.filter fun h => h.leaseKey = some sharedKey.hex).length ∧
        LosesCaching w.store (w.callStore (.deleteLease key)).2.store sharedKey.hex)
  | _ => false

theorem exists_of_closesOneOfTwo {t : FilesTrace} (h : closesOneOfTwo t = true) :
    ∃ i x tr, t = (i, x) :: tr ∧ x.event.1 = .inl (.store (.deleteLease sharedKey.hex)) ∧
      ¬ LastHandle x.world.store sharedKey.hex
        ((progress (stamps (pastOf i tr))).since.map Prod.snd) ∧
      ¬ OwnerLeaves x.world.store sharedKey.hex
        ((progress (stamps (pastOf i tr))).since.map Prod.snd) ∧
      2 ≤ (x.world.store.handles.values.filter fun h => h.leaseKey = some sharedKey.hex).length ∧
      LosesCaching x.world.store (Prog.answerMarks World.answer x.event.1 x.world).2.store
        sharedKey.hex := by
  unfold closesOneOfTwo at h
  split at h
  · obtain ⟨rfl, hrest⟩ := of_decide_eq_true h
    exact ⟨_, _, _, rfl, rfl, hrest⟩
  · cases h

/-- **Caching is lost without a break**: a client with READ and HANDLE caching opens the file
again and asks for READ only, which takes HANDLE; then it closes one of two handles, which takes
READ. -/
theorem caching_lost_unbroken :
    ∃ (c : FilesConfig) (tr : Trace anyCall), SmbRun anyCall c tr ∧
      (∃ i x tr' path lease r, (i, x) :: tr' <:+ tr ∧
        x.event.1 = .inl (.store (.checkAndCreateLease path lease r)) ∧
        LosesCaching x.world.store (Prog.answerMarks World.answer x.event.1 x.world).2.store
          sharedKey.hex) ∧
      (∃ i x tr', (i, x) :: tr' <:+ tr ∧
        x.event.1 = .inl (.store (.deleteLease sharedKey.hex)) ∧
        2 ≤ (x.world.store.handles.values.filter fun h => h.leaseKey = some sharedKey.hex).length ∧
        LosesCaching x.world.store (Prog.answerMarks World.answer x.event.1 x.world).2.store
          sharedKey.hex ∧ ¬ BitsKept tr' i x) ∧
      ¬ EachSmbCall BitsKept tr := by
  obtain ⟨st, hst, ⟨t, ht, hasks⟩, t', ht', hcloses⟩ : ∃ st, leaseOpened
      [(0, create 1 1 "f" 0xFF (leaseContext sharedKey 0x01)),
        (0, close 1 1 1)] = some st ∧
      (∃ t ∈ st.trace.tails, asksForLess t = true) ∧
      ∃ t ∈ st.trace.tails, closesOneOfTwo t = true := exists_of_any (by decide +kernel)
  obtain ⟨i, x, tr, path, lease, r, rfl, hx, hloses⟩ := exists_of_asksForLess hasks
  obtain ⟨j, y, tr', rfl, hy, hlast, howner, htwo, hloses'⟩ := exists_of_closesOneOfTwo hcloses
  have hs := (mem_tails _ _).1 ht
  refine ⟨st.config, st.trace, run_serveAll (run_start _) hst,
    ⟨i, x, tr, path, lease, r, hs, hx, hloses⟩,
    ⟨j, y, tr', (mem_tails _ _).1 ht', hy, htwo, hloses', fun hkept => ?_⟩, fun hkept => ?_⟩
  · have hreason := hkept sharedKey.hex hloses'
    rw [hy] at hreason
    exact hreason.2.2.elim hlast howner
  · have hreason := hkept.of_suffix hs sharedKey.hex hloses
    rw [hx] at hreason
    exact hreason

end Sample

end RustSmb
