import RustSmb.System.Isolation

/-!
# Who changes the data of a file

The data of a file change through calls to a backend: a write, a truncation, or an open that
overwrites.  WRITE, the server-side copy and SET_INFO for the end of file and the allocation size
make such calls for an open handle, and CREATE for the handle that it opens.  Only the server-side
copy looks at the access of its handle first.

## Main results

* `handlersMake_dataGuard` — what each handler has established before it changes data.
* `data_changed_with_access` — **if no unchecked command lacks the access, data change only
  with access.**
* `Sample.written_without_access` — a WRITE on a handle that was opened for reading.
-/

set_option synthInstance.maxSize 1000000

namespace RustSmb

/-! ### Data and access -/

def overwrites (disposition : UInt32) : Bool :=
  disposition == 0 || disposition == 4 || disposition == 5

/-- The call can change what a file holds. -/
@[reducible]
def changesData : SmbOp → Bool
  | .backend _ (.write _ _ _) | .backend _ (.truncate _ _) => true
  | .backend _ (.open _ params) => overwrites params.createDisposition
  | _ => false

/-- Access that includes FILE_WRITE_DATA, FILE_APPEND_DATA, GENERIC_WRITE or GENERIC_ALL. -/
def Writable (access : UInt32) : Prop := access &&& 0x50000006 ≠ 0

instance (access : UInt32) : Decidable (Writable access) := inferInstanceAs (Decidable (_ ≠ _))

/-- Does a command set the end of file or the allocation size? -/
def setsSize (cmd : Command) : Bool :=
  cmd.header.command == .setInfo && InfoType.ofCode (cmd.body.u8 2) == some .file &&
    (cmd.body.u8 3 == 19 || cmd.body.u8 3 == 20)

/-- The command truncates what it opens. -/
def overwritesFile (cmd : Command) : Bool :=
  cmd.header.command == .create &&
    (CreateRequest.read cmd.body).any fun r => overwrites r.createDisposition

/-- The commands that change data without a check. -/
def Unchecked (cmd : Command) : Prop :=
  cmd.header.command = .write ∨ setsSize cmd = true ∨ overwritesFile cmd = true

/-- The access with which a command works, given the events of its handler. -/
inductive AccessOf (cmd : Command) (e : List (Event Smb)) : UInt32 → Prop where
  /-- The access of the handle that it has found. -/
  | found (id : HandleId) (handle : HandleState) (hid : namedHandle cmd = some id)
      (hmem : foundHandle id handle ∈ e) : AccessOf cmd e handle.accessMask
  /-- The access that the handle gets which it opens. -/
  | opened (r : CreateRequest) (hcmd : cmd.header.command = .create)
      (hread : CreateRequest.read cmd.body = some r) : AccessOf cmd e r.desiredAccess

/-- Data is changed under a handle with write access, or by one of the commands that do not look. -/
def DataGuard (cmd : Command) (_ e : List (Event Smb)) (o : SmbOp) : Prop :=
  changesData o = true → ∃ access, AccessOf cmd e access ∧ (Unchecked cmd ∨ Writable access)

/-- No call changes data. -/
abbrev Harmless {ε α : Type} (x : Proc Smb ConnectionHandler ε α) : Prop :=
  Proc.Always (fun _ o => changesData o = false) x

/-! ### Harmless commands -/

section Harmless

open Proc Handler

theorem Harmless.dataGuard {cmd : Command} {g : List (Event Smb)} {α : Type} {x : Handler α}
    (hx : Harmless x) : Always (DataGuard cmd g) x :=
  hx.weaken fun _ _ hno hyes => absurd (hno.symm.trans hyes) Bool.false_ne_true

/-- A method that reaches no backend is harmless. -/
instance : Tolerates (fun _ o => changesData o = false)
    [.counter, .sessionCounter, .createSession, .session, .createTree, .deleteTree, .fileHandles,
      .createHandle, .handle, .lease, .lock, .registry, .oplock, .registerOplock, .acknowledge,
      .authenticate] where
  call _ o ho := by
    cases o with
    | backend share o => simp [SmbOp.effect] at ho
    | _ => rfl

instance {share : String} {handleId : HandleId} {handle : HandleState}
    {e : LockElement} :
    Walks (fun _ _ => True) (fun _ o => changesData o = false)
      (unlockRange share handleId handle e) := by
  refine walks_step fun locks => walks_seq ?_ fun _ => walks_step fun r => ?_
  · unfold releaseRecorded
    split <;> infer_instance
  · split <;> infer_instance

instance {header : Smb2Header} {share : String} {handleId : HandleId}
    {handle : HandleState} {e : LockElement} {acquired : List UInt64} :
    Walks (fun _ _ => True) (fun _ o => changesData o = false)
      (lockRange header share handleId handle e acquired) := by
  refine walks_step fun locks => walks_step fun newLock => ?_
  split
  · infer_instance
  refine walks_step fun r => ?_
  split
  · refine walks_step fun r => ?_
    cases r <;> infer_instance
  · infer_instance
  · infer_instance

instance {header : Smb2Header} {share : String} {handleId : HandleId}
    {handle : HandleState} {elements : List LockElement} {acquired : List UInt64} :
    Walks (fun _ _ => True) (fun _ o => changesData o = false)
      (processLocks header share handleId handle elements acquired) := by
  induction elements generalizing acquired with
  | nil => exact walks_pure
  | cons e rest ih =>
    unfold processLocks
    infer_instance

variable [Externs]

section Requests

variable (header : Smb2Header) (body : Bytes)

include header body

theorem handleRead_harmless :
    Harmless (handleRead header body) := by
  unfold handleRead readHandle
  exact walked

theorem handleClose_harmless :
    Harmless (handleClose header body) := by
  refine keeps_step fun _ => keeps_step fun handle => keeps_bind ?_ fun _ => keeps_step fun _ => ?_
  · unfold releaseCaching
    split
    · exact walked
    split <;> exact walked
  -- deleting the file is not changing its data
  refine keeps_bind (keeps_when fun _ => keeps_step fun r => ?_) fun _ => walked
  split
  · refine keeps_step fun s => ?_
    split <;> exact walked
  · exact walked

theorem handleLock_harmless :
    Harmless (handleLock header body) := by
  unfold handleLock
  rw [lockOwnedHandle_eq]
  unfold lockHandle
  exact walked

theorem handleQueryDirectory_harmless :
    Harmless (handleQueryDirectory header body) := by
  unfold handleQueryDirectory queryDirectoryHandle
  exact walked

theorem handleQueryInfo_harmless :
    Harmless (handleQueryInfo header body) := by
  refine keeps_step fun _ => keeps_step fun infoType => keeps_step fun _ => keeps_step fun _ => ?_
  refine keeps_step fun handle => keeps_step fun share => keeps_bind ?_ fun _ => walked
  cases infoType <;> unfold queryInfoOutput <;> exact walked

end Requests

end Harmless

/-! ### Commands that change data -/

section Changing

open Proc Handler

theorem ownedHandle_dataGuard {α : Type} {id : HandleId} (hid : namedHandle cmd = some id)
    (hunch : Unchecked cmd) (missing : NtStatus) (f : HandleState → Handler α) :
    Always (DataGuard cmd g) (ownedHandle cmd.header id missing >>= f) := by
  refine ownedHandle_always (fun _ _ => nofun) (fun handle e hmem _ o _ => ?_) missing f
  exact ⟨_, .found id handle hid hmem, .inl hunch⟩

theorem writable_of_writeData {access : UInt32} (h : access &&& 0x02 ≠ 0) : Writable access := by
  intro hzero
  have hmask : access &&& 0x02 = access &&& 0x50000006 &&& 0x02 := by
    rw [UInt32.and_assoc]
    rfl
  exact h (by rw [hmask, hzero]; rfl)

variable [Externs] {cmd : Command} {g : List (Event Smb)}

theorem handleWrite_dataGuard (hcmd : cmd.header.command = .write) :
    Always (DataGuard cmd g) (handleWrite cmd.header cmd.body) :=
  keeps_bind keeps_require fun _ => keeps_bind keeps_validateCreditCharge fun _ =>
    ownedHandle_dataGuard (by simp [namedHandle, hcmd]) (.inl hcmd) _ _

omit [Externs] in
theorem handleSetFileInfo_harmless (share : String) (handle : HandleState) (infoClass : UInt8)
    (buffer : Bytes) (hclass : infoClass ≠ 19 ∧ infoClass ≠ 20) :
    Harmless (handleSetFileInfo share handle infoClass buffer) := by
  have hcode : infoClass.toNat ≠ 19 ∧ infoClass.toNat ≠ 20 :=
    ⟨fun h => hclass.1 (UInt8.toNat.inj h), fun h => hclass.2 (UInt8.toNat.inj h)⟩
  unfold handleSetFileInfo
  split
  · unfold setBasicInfo setTimes applyReadonlyAttribute
    exact walked
  · exact walked
  · refine keeps_step fun _ => keeps_step fun _ => keeps_bind ?_ fun _ => walked
    unfold checkRenameTarget
    split
    · exact walked
    · refine keeps_step fun r => ?_
      split <;> exact walked
  · next h => exact absurd h hcode.2
  · next h => exact absurd h hcode.1
  · exact walked
  · exact walked
  · exact walked

theorem handleSetInfo_dataGuard (hcmd : cmd.header.command = .setInfo) :
    Always (DataGuard cmd g) (handleSetInfo cmd.header cmd.body) := by
  refine keeps_bind keeps_require fun _ => ?_
  cases htype : InfoType.ofCode (cmd.body.u8 2) with
  | none => exact keeps_throw
  | some infoType =>
    rw [show parsed (some infoType) = pure infoType from rfl, pure_bind]
    refine keeps_bind keeps_require fun _ => ?_
    by_cases hsize : setsSize cmd = true
    · exact ownedHandle_dataGuard (by simp [namedHandle, hcmd]) (.inr (.inl hsize)) _ _
    refine Harmless.dataGuard (keeps_step fun handle => keeps_step fun share => ?_)
    refine keeps_step fun _ => keeps_bind ?_ fun _ => walked
    cases infoType with
    | file =>
      refine handleSetFileInfo_harmless share handle _ _ ⟨fun h => hsize ?_, fun h => hsize ?_⟩
      · simp [setsSize, hcmd, htype, h]
      · simp [setsSize, hcmd, htype, h]
    | _ =>
      unfold applySetInfo
      exact walked

theorem handleIoctl_dataGuard (hcmd : cmd.header.command = .ioctl) :
    Always (DataGuard cmd g) (handleIoctl cmd.header cmd.body) := by
  refine handleIoctl_always (fun _ _ => nofun) (fun _ => Harmless.dataGuard ?_)
    fun hcode copy source target e _ h o _ => ?_
  · unfold handleRequestResumeKey ioctlRespond
    exact walked
  · have hid : namedHandle cmd = some (fileIdAt cmd.body 8) := by
      unfold namedHandle isCopychunk
      rcases hcode with hcode | hcode <;> simp [hcmd, hcode]
    exact ⟨_, .found _ target hid h.targetFound, .inr (writable_of_writeData h.access)⟩

theorem openFile_harmless (header : Smb2Header) (r : CreateRequest)
    (contexts : List CreateContext) (filename : String)
    (h : overwrites r.createDisposition = false) :
    Harmless (openFile header r contexts filename) := by
  have : Off (overwrites r.createDisposition) := ⟨h⟩
  refine keeps_step fun found => keeps_step fun tree => keeps_step fun share => ?_
  refine keeps_step fun _ => keeps_bind ?_ fun opened => ?_
  · unfold openOnBackend applyReadonlyAttribute
    exact walked
  · unfold openResponse
    exact walked

theorem handleCreate_dataGuard (hcmd : cmd.header.command = .create) :
    Always (DataGuard cmd g) (handleCreate cmd.header cmd.body) := by
  unfold handleCreate createResponse
  cases hread : CreateRequest.read cmd.body with
  | none => exact keeps_throw
  | some r =>
    rw [show parsed (some r) = pure r from rfl, pure_bind]
    by_cases hover : overwrites r.createDisposition = true
    · -- an overwriting open is not checked
      have hunch : Unchecked cmd := .inr (.inr (by simp [overwritesFile, hcmd, hread, hover]))
      intro s e _
      refine wp_of_forall (fun e' _ _ _ => ?_) fun _ _ _ _ => trivial
      exact ⟨r.desiredAccess, .opened r hcmd hread, .inl hunch⟩
    · refine Harmless.dataGuard (keeps_bind (keeps_bind keeps_ofExcept fun _ => ?_) fun _ =>
        keeps_pure)
      simp only
      split
      · unfold durableReconnect
        exact walked
      · exact openFile_harmless _ r _ _ (by simpa using hover)

theorem handlersMake_dataGuard : HandlersMake DataGuard := by
  intro cmd g _
  have hmap : ∀ {x : Handler Response}, Always (DataGuard cmd g) x →
      Proc.wp (DataGuard cmd g) (some <$> x) (fun _ _ _ => True) cmd.handler [] :=
    fun hx => keeps_map hx _ _ trivial
  by_cases hes : Effect.backend ∈ footprint cmd.header.command
  · unfold handleCommand
    cases hcmd : cmd.header.command with
    | create => exact hmap (handleCreate_dataGuard hcmd)
    | close => exact hmap (handleClose_harmless cmd.header cmd.body).dataGuard
    | read => exact hmap (handleRead_harmless cmd.header cmd.body).dataGuard
    | write => exact hmap (handleWrite_dataGuard hcmd)
    | lock => exact hmap (handleLock_harmless cmd.header cmd.body).dataGuard
    | ioctl => exact hmap (handleIoctl_dataGuard hcmd)
    | queryDirectory => exact hmap (handleQueryDirectory_harmless cmd.header cmd.body).dataGuard
    | queryInfo => exact hmap (handleQueryInfo_harmless cmd.header cmd.body).dataGuard
    | setInfo => exact hmap (handleSetInfo_dataGuard hcmd)
    | _ =>
      rw [hcmd] at hes
      exact absurd hes (by decide)
  · refine wp_mono (wp_weaken (handleCommand_effects _ _ _ cmd.handler []) fun _ o ho hdata => ?_)
      fun _ _ _ _ => trivial
    cases o with
    | backend share o => exact absurd (ho.resolve_left nofun) hes
    | _ => cases hdata

end Changing

/-! ### Runs -/

section Runs

variable {α β : Type} [AuthProvider α] [StorageBackend β] [Externs]

/-- No unchecked command lacks the access: a CREATE that overwrites its file asks for it, and the
handle of a WRITE or a change of size has it. -/
def AsksForAccess (tr : Trace (α := α) (β := β) anyCall) (i : ℕ)
    (x : (smbMachine α β anyCall).Stamped) : Prop :=
  match x.event with
  | ⟨.inr (.dispatched cmd), _⟩ =>
      overwritesFile cmd = true → ∀ r ∈ CreateRequest.read cmd.body, Writable r.desiredAccess
  | ⟨.inl (.store (.getHandle id)), .ok (some handle)⟩ =>
      match progress (stamps (pastOf i tr)) with
      | .handling _ cmd _ _ =>
          cmd.header.command = .write ∨ setsSize cmd = true → namedHandle cmd = some id →
            Writable handle.accessMask
      | _ => True
  | _ => True

instance (tr : Trace (α := α) (β := β) anyCall) (i : ℕ) (x : (smbMachine α β anyCall).Stamped) :
    Decidable (AsksForAccess tr i x) := by
  unfold AsksForAccess
  split
  · infer_instance
  · split <;> infer_instance
  · infer_instance

/-- **If no unchecked command lacks the access, data change only with access**: in every such run
a call that changes data is made for a handle with write or append access. -/
theorem data_changed_with_access {c : (smbMachine α β anyCall).Config}
    {tr : Trace (α := α) (β := β) anyCall} (hrun : SmbRun anyCall c tr)
    (hsteps : EachSmbCall AsksForAccess tr) {i : ℕ} {p : Prog SmbT Conn}
    {h : List (smbMachine α β anyCall).Stamped} {o : SmbOp}
    {k : SmbT.Res (.inl o) → Prog SmbT Conn} (hi : c.phase i = .busy p h (.call (.inl o) k))
    (ho : changesData o = true) :
    ∃ w cmd g e access, progress (stamps h) = .handling w cmd g e ∧
      AccessOf cmd (e.map Prod.snd) access ∧ Writable access := by
  rcases call_cases handlersMake_dataGuard (SmbReachable.running hrun.reachable hi) with
    ⟨w, cmd, g, -, hchk⟩ | ⟨w, cmd, g, e, hp, -, hguard⟩ | ⟨-, hfare⟩
  · -- the checks of the dispatcher change no data
    rcases hchk with rfl | rfl <;> cases ho
  · obtain ⟨access, hacc, hchecked⟩ := hguard ho
    refine ⟨w, cmd, g, e, access, hp, hacc, ?_⟩
    rcases hchecked with hunch | hwritable
    · cases hacc with
      | found id handle hid hmem =>
        obtain ⟨x, hx, hev⟩ := List.mem_map.1 hmem
        obtain ⟨before, after, rfl⟩ := List.append_of_mem hx
        obtain ⟨st, tr', hsuf, -, hst, hprog⟩ := exists_event hrun hi hp ⟨before, rfl⟩
        have hmet := hsteps.of_suffix hsuf
        rw [hev] at hst
        unfold AsksForAccess at hmet
        rw [hst, hprog] at hmet
        refine hmet ?_ hid
        rcases hunch with hwrite | hsize | hover
        · exact .inl hwrite
        · exact .inr hsize
        · -- a CREATE names no handle
          simp only [overwritesFile, Bool.and_eq_true, beq_iff_eq] at hover
          simp [namedHandle, hover.1] at hid
      | opened r hcmd hread =>
        obtain ⟨st, tr', hsuf, -, hst⟩ := exists_dispatch hrun hi hp
        have hmet := hsteps.of_suffix hsuf
        unfold AsksForAccess at hmet
        rw [hst] at hmet
        refine hmet ?_ r hread
        rcases hunch with hwrite | hsize | hover
        · rw [hcmd] at hwrite
          cases hwrite
        · simp [setsSize, hcmd] at hsize
        · exact hover
    · exact hwritable
  · -- nor does leaving
    cases o with
    | backend share o => exact hfare.elim
    | _ => cases ho

end Runs

/-! ### A WRITE -/

namespace Sample

/-- A session opens a file with an access and is about to write to it. -/
def aboutToWrite (access : UInt32) :
    Option (Point (α := AnonymousAuthProvider) (β := Files) anyCall) :=
  pointOf (start .anonymousOnly)
    [(0, Client.sessionSetup 0 []), (0, Client.treeConnect 1 "\\\\a\\s"),
      (0, Client.createFor 1 1 "f" 0 [] access 7)] (0, Client.write 1 1 1 0 [7]) 6

/-- A WRITE on a handle that was opened for writing changes data with access. -/
theorem data_changed_with_access_write :
    ∃ (c : FilesConfig) (tr : Trace anyCall)
      (p : Prog SmbT Conn) (h : List FilesStamped)
      (o : SmbOp) (k : SmbT.Res (.inl o) → Prog SmbT Conn),
      (SmbRun anyCall c tr ∧ EachSmbCall AsksForAccess tr ∧
        c.phase 0 = .busy p h (.call (.inl o) k) ∧ changesData o = true) ∧
      ∃ w cmd g e access, progress (stamps h) = .handling w cmd g e ∧
        AccessOf cmd (e.map Prod.snd) access ∧ Writable access := by
  obtain ⟨x, hpoint, ho, hsteps⟩ : ∃ x, aboutToWrite 3 = some x ∧ changesData x.op = true ∧
      EachSmbCall AsksForAccess x.trace := exists_of_any (by decide +kernel)
  obtain ⟨c, p, k, hrun, -, hi⟩ := exists_point (run_start _) hpoint
  exact ⟨c, x.trace, p, x.history, x.op, k, ⟨hrun, hsteps, hi, ho⟩,
    data_changed_with_access hrun hsteps hi ho⟩

/-- The access of a handle that was found includes no writing. -/
def foundReadOnly : Event Smb → Bool
  | ⟨.store (.getHandle _), .ok (some handle)⟩ => decide ¬ Writable handle.accessMask
  | _ => true

/-- **A WRITE on a handle that was opened for reading**: data are about to change without access. -/
theorem written_without_access :
    ∃ (c : FilesConfig) (p : Prog SmbT Conn)
      (h : List FilesStamped) (o : SmbOp)
      (k : SmbT.Res (.inl o) → Prog SmbT Conn),
      SmbReachable anyCall c ∧ c.phase 0 = .busy p h (.call (.inl o) k) ∧ changesData o = true ∧
      ¬ ∃ w cmd g e access, progress (stamps h) = .handling w cmd g e ∧
        AccessOf cmd (e.map Prod.snd) access ∧ Writable access := by
  obtain ⟨x, hpoint, ho, hchk⟩ : ∃ x, aboutToWrite 1 = some x ∧ changesData x.op = true ∧
      ((progress (stamps x.history)).any fun _ cmd _ e => cmd.header.command == .write &&
        e.all fun y => foundReadOnly y.2) = true := exists_of_any (by decide +kernel)
  obtain ⟨c, p, k, hrun, -, hi⟩ := exists_point (run_start _) hpoint
  refine ⟨c, p, x.history, x.op, k, hrun.reachable, hi, ho, ?_⟩
  rintro ⟨w, cmd, g, e, access, hp, hacc, hwritable⟩
  rw [hp] at hchk
  obtain ⟨hwrite, hall⟩ := Bool.and_eq_true_iff.1 hchk
  cases hacc with
  | found id handle hid hmem =>
    obtain ⟨y, hy, hev⟩ := List.mem_map.1 hmem
    have hread := List.all_eq_true.1 hall y hy
    rw [hev] at hread
    exact of_decide_eq_true hread hwritable
  | opened r hcmd hread =>
    rw [hcmd] at hwrite
    cases hwrite

end Sample

end RustSmb
