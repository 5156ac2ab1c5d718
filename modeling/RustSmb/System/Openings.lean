import RustSmb.System.ShareModes

/-!
# Where open handles come from

A handle is recorded by the CREATE that opens it.  Every other call stores a later state of a handle
that the store has handed out: when and on which share it was opened, its identifier and what it was
granted stay as they were.

## Main results

* `handleCommand_records`, `closeConnection_records` — all programs store handles in this way.
* `stored_opened` — **every stored handle is a later state of one that a CREATE has opened.**
-/

set_option synthInstance.maxSize 1000000

namespace RustSmb

open SessionManager List

variable (header : Smb2Header) (body : Bytes)

variable {handle : HandleState}

/-! ### Handles and their later states -/

/-- A later state of a handle. -/
structure Continues (h h' : HandleState) : Prop where
  persistentId : h'.persistentId = h.persistentId
  isDurable : h'.isDurable = h.isDurable
  isPersistent : h'.isPersistent = h.isPersistent
  createdAt : h'.createdAt = h.createdAt
  createGuid : h'.createGuid = h.createGuid
  shareName : h'.shareName = h.shareName
  leaseKey : h'.leaseKey = h.leaseKey
  /-- A deadline that is set stays. -/
  deadline : h.reconnectDeadline.isSome = true →
    h'.reconnectDeadline = h.reconnectDeadline ∧ h'.durableTimeout = h.durableTimeout

namespace Continues

variable {h h' h'' : HandleState}

theorem refl (h : HandleState) : Continues h h :=
  ⟨rfl, rfl, rfl, rfl, rfl, rfl, rfl, fun _ => ⟨rfl, rfl⟩⟩

theorem trans (hc : Continues h h') (hc' : Continues h' h'') : Continues h h'' where
  persistentId := hc'.persistentId.trans hc.persistentId
  isDurable := hc'.isDurable.trans hc.isDurable
  isPersistent := hc'.isPersistent.trans hc.isPersistent
  createdAt := hc'.createdAt.trans hc.createdAt
  createGuid := hc'.createGuid.trans hc.createGuid
  shareName := hc'.shareName.trans hc.shareName
  leaseKey := hc'.leaseKey.trans hc.leaseKey
  deadline hd := by
    obtain ⟨hdead, htime⟩ := hc.deadline hd
    obtain ⟨hdead', htime'⟩ := hc'.deadline (by rw [hdead]; exact hd)
    exact ⟨hdead'.trans hdead, htime'.trans htime⟩

theorem update (h : HandleState) (volatileId : HandleId) (treeId : UInt32) (sessionId : UInt64)
    (path : String) (lastAccess fileOffset : UInt64) (oplockLevel : UInt8)
    (deleteOnClose : Bool) :
    Continues h
      { h with
        volatileId := volatileId
        treeId := treeId
        sessionId := sessionId
        path := path
        lastAccess := lastAccess
        fileOffset := fileOffset
        oplockLevel := oplockLevel
        deleteOnClose := deleteOnClose } :=
  ⟨rfl, rfl, rfl, rfl, rfl, rfl, rfl, fun _ => ⟨rfl, rfl⟩⟩

theorem prepareForReconnect (h : HandleState) (ms : UInt32) (now : UInt64) :
    Continues h (h.prepareForReconnect ms now) := by
  unfold HandleState.prepareForReconnect
  dsimp only
  split
  · next hnone =>
    refine ⟨rfl, rfl, rfl, rfl, rfl, rfl, rfl, fun hsome => ?_⟩
    rw [Option.isNone_iff_eq_none.1 hnone] at hsome
    cases hsome
  · exact ⟨rfl, rfl, rfl, rfl, rfl, rfl, rfl, fun _ => ⟨rfl, rfl⟩⟩

end Continues

/-- The deadline of a durable handle follows from its time of opening and its timeout. -/
def Granted (h : HandleState) : Prop :=
  h.isDurable = true →
    h.reconnectDeadline = some (h.createdAt + h.durableTimeout.toUInt64 / 1000)

theorem Granted.continues {h h' : HandleState} (hg : Granted h) (hc : Continues h h') :
    Granted h' := by
  intro hdur
  have hdead := hg (hc.isDurable ▸ hdur)
  obtain ⟨heq, htime⟩ := hc.deadline (by rw [hdead]; rfl)
  rw [heq, hdead, hc.createdAt, htime]

theorem newHandle_granted (r : CreateRequest) (o : OpenOptions) (handleId : HandleId)
    (shareName filename : String) (fileHandle : FileHandle) (isDirectory : Bool) (guid : Bytes)
    (now : UInt64) :
    let handle := newHandle header r o handleId shareName filename fileHandle isDirectory guid now
    handle.createdAt = now ∧ Granted handle := by
  unfold newHandle
  split
  · exact ⟨rfl, fun _ => rfl⟩
  · next hnot => exact ⟨rfl, fun hdur => absurd hdur hnot⟩

/-! ### The calls that store handles -/

/-- The handles that a call returns. -/
def handedOut : Event Smb → List HandleState
  | ⟨.store (.getHandle _), .ok (some handle)⟩ => [handle]
  | ⟨.store (.getHandlesBySession _), .ok handles⟩ => handles
  | _ => []

def Handed (e : List (Event Smb)) (handle : HandleState) : Prop := ∃ ev ∈ e, handle ∈ handedOut ev

theorem Handed.mono {e e' : List (Event Smb)} (hs : e <:+ e') (hh : Handed e handle) :
    Handed e' handle := by
  obtain ⟨ev, hev, hmem⟩ := hh
  exact ⟨ev, hs.subset hev, hmem⟩

/-- A stored handle is new, granted at a time that was read, or a later state of one that was
handed out. -/
def Records (e : List (Event Smb)) : SmbOp → Prop
  | .store (.createHandle h) => (⟨SmbOp.now, h.createdAt⟩ : Event Smb) ∈ e ∧ Granted h
  | .store (.updateHandle h') => ∃ h, Handed e h ∧ Continues h h'
  | _ => True

section Handlers

open Proc Handler

variable {ε γ : Type} {e : List (Event Smb)} {handle handle' : HandleState} {s : ConnectionHandler}

/-- Only calls with an effect on handles store handles. -/
instance : Tolerates Records
    [.counter, .sessionCounter, .createSession, .session, .createTree, .deleteTree, .fileHandles,
      .lease, .lock, .backend, .registry, .oplock, .registerOplock, .acknowledge,
      .authenticate] where
  call e o ho := by
    cases o with
    | store so =>
      cases so with
      | createHandle _ | updateHandle _ => simp [SmbOp.effect, StoreOp.effect] at ho
      | _ => trivial
    | _ => trivial

instance {id : HandleId} :
    Allows (S := Smb) Records (.store (.deleteHandle id)) := ⟨fun _ => trivial⟩

instance : Lasts (σ := ConnectionHandler) (S := Smb) fun _ e => Handed e handle :=
  ⟨fun _ _ _ hh => hh.mono (suffix_cons _ _)⟩

theorem keeps_update (hc : Continues handle handle') :
    Keeps (fun _ e => Handed e handle) Records
      (Proc.perform (S := Smb) (.store (.updateHandle handle')) :
        Proc Smb ConnectionHandler ε _) :=
  keeps_perform (fun _ _ hh => ⟨handle, hh, hc⟩) fun _ _ _ hh => hh.mono (suffix_cons _ _)

theorem keeps_updateOrInternal (hc : Continues handle handle') :
    Keeps (fun _ e => Handed e handle) Records (storeOrInternal (.updateHandle handle')) :=
  keeps_bind (keeps_update hc) fun _ => walked

theorem always_ownedHandle {header : Smb2Header} {id : HandleId} {missing : NtStatus}
    {f : HandleState → Handler γ}
    (hf : ∀ handle, Keeps (fun _ e => Handed e handle) Records (f handle)) :
    Always Records (ownedHandle header id missing >>= f) := by
  intro s e _
  refine wp_seq (wp_mono
    (ownedHandle_wp header id missing trivial) ?_) fun handle s e hh =>
      wp_mono (hf handle s e hh) fun _ _ _ _ => trivial
  rintro (err | handle) s' e' hr
  · trivial
  · obtain ⟨⟨-, rfl⟩, -⟩ := hr
    exact ⟨_, mem_cons_self, mem_singleton.2 rfl⟩

/-! ### Leaving -/

theorem preserveHandle_records (handle : HandleState) :
    Keeps (fun _ e => Handed e handle) Records (preserveHandle handle) :=
  keeps_when fun _ => keeps_step fun now =>
    keeps_bind (keeps_update (Continues.prepareForReconnect handle 60000 now)) fun _ => walked

theorem handed_bySession {sessionId : UInt64} {handles : List HandleState} :
    ∀ handle ∈ handles,
      Handed (⟨SmbOp.store (.getHandlesBySession sessionId), .ok handles⟩ :: e) handle :=
  fun _ hmem => ⟨_, mem_cons_self, hmem⟩

theorem closeSession_records (sessionId : UInt64) :
    Always Records (closeSession sessionId) := by
  refine keeps_step fun s => keeps_step fun _ => keeps_step fun _ => ?_
  intro s e _
  rw [wp_bind]
  refine wp_store.2 ⟨trivial, fun r => ?_⟩
  cases r with
  | error err => exact wp_pure.2 trivial
  | ok handles => exact wp_forEach_shown preserveHandle_records handed_bySession

theorem releaseHandle_records (handle : HandleState) :
    Keeps (fun _ e => Handed e handle) Records (releaseHandle handle) := by
  unfold releaseHandle
  split
  · refine keeps_step fun now => ?_
    exact keeps_bind (keeps_update (Continues.prepareForReconnect handle _ now)) fun _ => walked
  · refine keeps_bind ?_ fun _ => walked
    unfold SessionManager.deleteLeaseOf
    split <;> exact walked

instance {sessionId : UInt64} :
    Walks (fun _ _ => True) Records (deleteSession sessionId) :=
  Keeps.walks (deleteSession_shown (fun _ _ _ => handed_bySession) releaseHandle_records)

/-! ### Commands -/

instance {sessionId : UInt64} {treeId : UInt32} :
    Walks (fun _ _ => True) Records (deleteTree sessionId treeId) := by
  unfold deleteTree
  infer_instance

instance {header : Smb2Header} {r : CreateRequest}
    {shareName filename : String} :
    Walks (fun _ _ => True) Records (checkShareModes header r shareName filename) := by
  unfold checkShareModes handlesAfterBreak checkShareMode purgeHandle
  infer_instance

theorem handleOplockBreakAck_records :
    Always Records (handleOplockBreakAck header body) := by
  refine keeps_step fun _ => ?_
  intro s e _
  refine wp_bind.2 (wp_storeOrInternal.2 ⟨trivial, fun found => ?_, fun _ => trivial⟩)
  refine wp_bind.2 (wp_getOrFail.2 ⟨fun handle hfound => ?_, fun _ => trivial⟩)
  subst hfound
  refine wp_mono ((?_ : Keeps (fun _ e => Handed e handle) Records _) s _ ?_) fun _ _ _ _ => trivial
  · refine keeps_step fun _ => keeps_step fun _ => ?_
    exact keeps_bind (keeps_update (Continues.update ..)) fun _ => walked
  · exact ⟨_, mem_cons_self, mem_singleton.2 rfl⟩

theorem handleOplockBreak_records :
    Always Records (handleOplockBreak header body) := by
  refine keeps_step fun _ => ?_
  split
  · exact handleOplockBreakAck_records header body
  split
  · refine keeps_step fun _ => keeps_step fun r => ?_
    split <;> exact walked
  · exact walked

variable [Externs]

theorem handleClose_records :
    Always Records (handleClose header body) := by
  refine keeps_step fun _ => keeps_step fun handle => keeps_bind ?_ fun _ => walked
  unfold releaseCaching
  split
  · exact walked
  split <;> exact walked

theorem handleRead_records :
    Always Records (handleRead header body) := by
  refine keeps_step fun _ => keeps_step fun _ => always_ownedHandle fun handle => ?_
  refine keeps_step fun _ => keeps_step fun _ => keeps_step fun share => ?_
  refine keeps_step fun data => keeps_step fun _ => keeps_step fun _ => keeps_step fun now => ?_
  exact keeps_bind (keeps_updateOrInternal (Continues.update ..)) fun _ => walked

theorem handleWrite_records :
    Always Records (handleWrite header body) := by
  refine keeps_step fun _ => keeps_step fun _ => always_ownedHandle fun handle => ?_
  refine keeps_step fun share => keeps_step fun written => ?_
  refine keeps_bind (keeps_when fun _ => keeps_step fun now => ?_) fun _ => walked
  exact keeps_bind (keeps_update (Continues.update ..)) fun _ => walked

omit [Externs] in
theorem handleSetFileInfo_records (share : String) (handle : HandleState) (infoClass : UInt8)
    (buffer : Bytes) :
    Keeps (fun _ e => Handed e handle) Records
      (handleSetFileInfo share handle infoClass buffer) := by
  unfold handleSetFileInfo
  split
  · unfold setBasicInfo
    exact walked
  · exact keeps_step fun _ => keeps_when fun _ => keeps_updateOrInternal (Continues.update ..)
  · refine keeps_step fun _ => keeps_step fun _ => keeps_step fun _ => keeps_step fun _ => ?_
    exact keeps_updateOrInternal (Continues.update ..)
  · exact walked
  · exact walked
  · exact keeps_when fun _ => keeps_updateOrInternal (Continues.update ..)
  · exact walked
  · exact walked

theorem handleSetInfo_records :
    Always Records (handleSetInfo header body) := by
  refine keeps_step fun _ => keeps_step fun infoType => keeps_step fun _ => ?_
  refine always_ownedHandle fun handle => keeps_step fun share => keeps_step fun _ => ?_
  refine keeps_bind ?_ fun _ => walked
  cases infoType with
  | file => exact handleSetFileInfo_records share handle _ _
  | _ =>
    unfold applySetInfo
    exact walked

/-- The handle that a reconnect finds. -/
structure Reconnectable (createGuid : Option Bytes) (filename : String) (now : UInt64)
    (handle : HandleState) : Prop where
  durable : (handle.isDurable || handle.isPersistent) = true
  disconnected : handle.sessionId = 0
  inTime : handle.canReconnect now = true
  guid : guidMismatch handle createGuid = false
  name : reconnectNameOk handle filename = true

omit [Externs] in
theorem findDurableHandle_wp {I : List (Event Smb) → SmbOp → Prop} (persistentId : UInt64)
    (createGuid : Option Bytes) (filename : String)
    (hget : ∀ e, I e (.store (.getHandle (BitVec.ofNat 128 persistentId.toNat))))
    (hnow : ∀ e, I e .now)
    (hdelete : ∀ e, I e (.store (.deleteHandle (BitVec.ofNat 128 persistentId.toNat)))) :
    wp I (findDurableHandle persistentId createGuid filename)
      (onOk (fun _ _ _ => True) fun handle s' e' => ∃ now, s' = s ∧
        e' = ⟨SmbOp.now, now⟩ :: ⟨SmbOp.store (.getHandle (BitVec.ofNat 128 persistentId.toNat)),
          .ok (some handle)⟩ :: e ∧ Reconnectable createGuid filename now handle) s e := by
  unfold findDurableHandle
  refine wp_bind.2 (wp_storeOrInternal.2 ⟨hget e, fun found => ?_, fun _ => trivial⟩)
  refine wp_bind.2 (wp_getOrFail.2 ⟨fun handle hfound => ?_, fun _ => trivial⟩)
  subst hfound
  refine wp_bind.2 (wp_require.2 ⟨fun hdur => ?_, fun _ => trivial⟩)
  refine wp_bind.2 (wp_require.2 ⟨fun hdisc => ?_, fun _ => trivial⟩)
  refine wp_bind.2 (wp_perform.2 ⟨hnow _, fun now => ?_⟩)
  rw [onOk_ok]
  split
  · next htime =>
    refine wp_bind.2 (wp_require.2 ⟨fun hguid => ?_, fun _ => trivial⟩)
    refine wp_bind.2 (wp_require.2 ⟨fun hname => ?_, fun _ => trivial⟩)
    refine wp_pure.2 ⟨now, rfl, rfl, hdur, by simpa using hdisc, htime, ?_, hname⟩
    simpa using hguid
  · exact wp_bind.2 (wp_store.2 ⟨hdelete _, fun _ => wp_fail.2 trivial⟩)

theorem durableReconnect_records (persistentId : UInt64) (createGuid : Option Bytes)
    (filename : String) :
    Always Records (durableReconnect header persistentId createGuid filename) := by
  intro s e _
  refine wp_seq (P := fun handle _ e => Handed e handle) (wp_mono (findDurableHandle_wp _ _ _
    (fun _ => trivial) (fun _ => trivial) fun _ => trivial) ?_) fun handle s e hh => ?_
  · rintro (err | handle) s' e' hr
    · trivial
    · obtain ⟨now, -, rfl, -⟩ := hr
      exact ⟨_, mem_cons_of_mem _ mem_cons_self, mem_singleton.2 rfl⟩
  refine wp_mono ((?_ : Keeps (fun _ e => Handed e handle) Records _) s e hh) fun _ _ _ _ => trivial
  refine keeps_step fun found => keeps_step fun tree => keeps_step fun share => ?_
  refine keeps_step fun stat => keeps_step fun metadata => keeps_step fun _ => ?_
  refine keeps_step fun now => ?_
  exact keeps_bind (keeps_updateOrInternal (Continues.update ..)) fun _ => walked

theorem openFile_records (r : CreateRequest) (contexts : List CreateContext) (filename : String) :
    Always Records (openFile header r contexts filename) := by
  refine keeps_step fun found => keeps_step fun tree => keeps_step fun share => ?_
  refine keeps_step fun _ => keeps_step fun opened => keeps_step fun handleId => ?_
  refine keeps_step fun s => keeps_step fun guid => ?_
  intro s₁ e _
  refine wp_bind.2 (wp_perform.2 ⟨trivial, fun now => ?_⟩)
  -- the clock was read, and stays read
  let T := fun e : List (Event Smb) => (⟨SmbOp.now, now⟩ : Event Smb) ∈ e
  have : Lasts (σ := ConnectionHandler) fun _ e => T e := ⟨fun _ _ _ => mem_cons_of_mem _⟩
  refine wp_mono ((?_ : Keeps (fun _ e => T e) Records _) s₁ _ mem_cons_self) fun _ _ _ _ => trivial
  refine keeps_step fun lease => keeps_step fun oplock => keeps_bind ?_ fun _ => walked
  refine keeps_bind (keeps_perform (fun _ e hmem => ?_) fun _ _ _ => mem_cons_of_mem _)
    fun r => walked
  obtain ⟨hcre, hgrant⟩ := newHandle_granted header r
    (OpenOptions.ofRequest s.connection.dialect r contexts) handleId tree.shareName filename
    opened.1 opened.2.1 guid now
  refine ⟨?_, hgrant⟩
  rw [hcre]
  exact hmem

theorem handleCreate_records :
    Always Records (handleCreate header body) := by
  refine keeps_bind (keeps_step fun r => keeps_step fun _ => ?_) fun _ => walked
  simp only
  split
  · exact durableReconnect_records header _ _ _
  · exact openFile_records header r _ _

instance {header : Smb2Header} {request : SessionSetupRequest}
    {fullMessage : Bytes} {existingSession : Option SessionState} {user : UserInfo}
    {sessionKey : Bytes} {responseToken : Option Bytes} :
    Walks (fun _ _ => True) Records (sessionSetupSuccess header request fullMessage
      existingSession user sessionKey responseToken) := by
  unfold sessionSetupSuccess createSession
  infer_instance

theorem handleSessionSetup_records (body fullMessage : Bytes) :
    Always Records (handleSessionSetup header body fullMessage) := by
  refine keeps_step fun request => ?_
  split
  · exact walked
  refine keeps_step fun existing => keeps_step fun result => ?_
  cases result <;> exact walked

/-- **Handlers store handles that they open, and later states of handles that they were handed.** -/
theorem handleCommand_records (body fullMessage : Bytes) :
    Always Records (handleCommand header body fullMessage) := by
  unfold handleCommand
  cases hcmd : header.command with
  | sessionSetup => exact keeps_map (handleSessionSetup_records header body fullMessage)
  | create => exact keeps_map (handleCreate_records header body)
  | close => exact keeps_map (handleClose_records header body)
  | read => exact keeps_map (handleRead_records header body)
  | write => exact keeps_map (handleWrite_records header body)
  | setInfo => exact keeps_map (handleSetInfo_records header body)
  | oplockBreak => exact keeps_map (handleOplockBreak_records header body)
  | logoff =>
    unfold handleLogoff
    exact walked
  | treeDisconnect =>
    unfold handleTreeDisconnect
    exact walked
  | _ => exact walked

/-! ### Messages -/

/-- What a connection has been handed since it was made. -/
def HandedT (h : List (Event SmbT)) (handle : HandleState) : Prop :=
  ∃ ev : Event Smb, Prog.liftEvent ev ∈ h ∧ handle ∈ handedOut ev

/-- The calls that store handles, over the whole history of a connection. -/
def RecordsT (h : List (Event SmbT)) : SmbOp ⊕ Mark → Prop
  | .inl (.store (.createHandle handle)) => Granted handle
  | .inl (.store (.updateHandle handle')) => ∃ handle, HandedT h handle ∧ Continues handle handle'
  | _ => True

omit [Externs] in
theorem recordsT_of_records (e : List (Event Smb)) (h : List (Event SmbT)) (o : SmbOp)
    (ho : Records e o) : RecordsT (e.map Prog.liftEvent ++ h) (.inl o) := by
  cases o with
  | store so =>
    cases so with
    | createHandle handle => exact ho.2
    | updateHandle handle =>
      obtain ⟨handle₀, ⟨ev, hev, hmem⟩, hc⟩ := ho
      exact ⟨handle₀, ⟨ev, mem_append_left _ (mem_map_of_mem hev), hmem⟩, hc⟩
    | _ => trivial
  | _ => trivial

theorem upkeep_records : Upkeep (fun _ _ => True) RecordsT where
  consume header := keeps_when fun _ => keeps_modify fun _ _ => id
  dispatch received header body fullMessage := by
    refine keeps_bind keeps_get fun s => ?_
    refine keeps_bind (keeps_perform (fun _ _ _ => trivial) fun _ _ _ => id) fun _ => ?_
    refine keeps_bind (always_lift walked recordsT_of_records) fun _ => ?_
    refine keeps_bind (keeps_perform (fun _ _ _ => trivial) fun _ _ _ => id) fun _ => ?_
    exact always_lift (handleCommand_records header body fullMessage) recordsT_of_records
  close := by
    refine keeps_bind (keeps_perform (fun _ _ _ => trivial) fun _ _ _ => id) fun _ => ?_
    refine keeps_bind keeps_get fun s => keeps_forEach fun sessionId _ => ?_
    exact always_lift (closeSession_records sessionId) recordsT_of_records

end Handlers

/-! ### Runs -/

section Runs

variable [Externs] {α β : Type} [AuthProvider α] [StorageBackend β]
  {ok : World α β → SmbOp ⊕ Mark → Prop} {c : (smbMachine α β ok).Config} {tr : Trace ok}

/-- The handle is one that a create has stored, as it has become. -/
def Opened (tr : Trace ok) (handle : HandleState) : Prop :=
  ∃ x ∈ tr, ∃ opened, x.2.event.1 = .inl (.store (.createHandle opened)) ∧ Granted opened ∧
    Continues opened handle

theorem Opened.cons (ho : Opened tr handle) (x : ℕ × (smbMachine α β ok).Stamped) :
    Opened (x :: tr) handle := by
  obtain ⟨y, hy, opened⟩ := ho
  exact ⟨y, mem_cons_of_mem x hy, opened⟩

theorem Opened.granted (ho : Opened tr handle) : Granted handle := by
  obtain ⟨-, -, opened, -, hgrant, hcont⟩ := ho
  exact hgrant.continues hcont

omit [Externs] in
theorem mem_of_handedOut {o : SmbOp} {w : World α β}
    (hh : handle ∈ handedOut ⟨o, (World.answer o w).1⟩) : handle ∈ w.store.handles.values := by
  cases o with
  | store so =>
    cases so with
    | getHandle id =>
      simp only [World.answer_store, MemoryStateStore.answer] at hh
      cases hlook : w.store.handles.lookup id with
      | none =>
        rw [hlook] at hh
        cases hh
      | some handle₀ =>
        rw [hlook] at hh
        obtain rfl := mem_singleton.1 hh
        exact Table.mem_values.2 ⟨id, hlook⟩
    | getHandlesBySession sessionId => exact (mem_filter.1 hh).1
    | _ => cases hh
  | _ => cases hh

/-- **In every run, every stored handle is a later state of one that a CREATE has opened**, as is
every one handed out. -/
theorem stored_opened (hrun : SmbRun ok c tr) :
    (∀ handle ∈ c.world.store.handles.values, Opened tr handle) ∧
      ∀ x ∈ tr, ∀ ev : Event Smb, x.2.event = Prog.liftEvent ev → ∀ handle ∈ handedOut ev,
        Opened tr handle := by
  refine Machine.Run.invariant hrun ?_
    (fun _ _ _ _ hp hs => upkeep_records.connStart hp hs)
    (fun w tr => (∀ handle ∈ w.store.handles.values, Opened tr handle) ∧
      ∀ x ∈ tr, ∀ ev : Event Smb, x.2.event = Prog.liftEvent ev → ∀ handle ∈ handedOut ev,
        Opened tr handle) ?_ ?_ ?_
  · intro c hc i
    obtain ⟨s, hs⟩ := hc.idle i
    exact ⟨s, hs, by cases s <;> trivial⟩
  · intro c hc
    obtain ⟨providers, backends, oracle, heq⟩ := hc.empty
    rw [heq]
    exact ⟨forall_mem_nil _, forall_mem_nil _⟩
  · rintro w w' tr hw ⟨hstored, hhanded⟩
    refine ⟨hw.store (P := fun st => ∀ handle ∈ st.handles.values, Opened tr handle)
      (fun _ so hso now st h handle hmem => ?_) hstored, hhanded⟩
    rcases MemoryStateStore.mem_handles_answer hmem with hold | hnew
    · exact h handle hold
    · rcases hso with rfl | rfl <;> cases hnew
  · rintro i tr o r w w' hrecords ⟨hexec, -⟩ ⟨hstored, hhanded⟩
    obtain rfl : (Prog.answerMarks World.answer o w).1 = r := congrArg Prod.fst hexec
    obtain rfl : (Prog.answerMarks World.answer o w).2 = w' := congrArg Prod.snd hexec
    refine ⟨fun handle hmem => ?_, fun x hx ev hev handle hmem => ?_⟩
    · rcases o with o | m
      · cases o with
        | store so =>
          rcases MemoryStateStore.mem_handles_answer hmem with hold | hnew
          · exact (hstored handle hold).cons _
          · cases so with
            | createHandle opened =>
              obtain rfl : opened = handle := Option.some.inj hnew
              exact ⟨_, mem_cons_self, opened, rfl, hrecords, Continues.refl opened⟩
            | updateHandle handle' =>
              -- the handle stored is one that was handed out before, and that was opened
              obtain rfl : handle' = handle := Option.some.inj hnew
              obtain ⟨handle₀, ⟨ev, hev, hmem⟩, hcont⟩ := hrecords
              obtain ⟨st, hst, heq⟩ := mem_map.1 hev
              obtain ⟨y, hy, opened, hop, hgrant, hc⟩ :=
                hhanded (i, st) (Machine.mem_of_mem_past hst) ev heq handle₀ hmem
              exact ⟨y, mem_cons_of_mem _ hy, opened, hop, hgrant, hc.trans hcont⟩
            | _ => cases hnew
        | _ => exact (hstored handle hmem).cons _
      · exact (hstored handle hmem).cons _
    · rcases mem_cons.1 hx with rfl | hx
      · obtain ⟨o', r'⟩ := ev
        obtain rfl : o = .inl o' := congrArg Sigma.fst hev
        obtain rfl : (World.answer o' w).1 = r' := eq_of_heq (Sigma.mk.inj hev).2
        exact (hstored handle (mem_of_handedOut hmem)).cons _
      · exact (hhanded x hx ev hev handle hmem).cons _

end Runs

end RustSmb
