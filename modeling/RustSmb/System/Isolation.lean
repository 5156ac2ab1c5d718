import RustSmb.Server.Footprint
import RustSmb.System.Run

/-!
# Handles are isolated

A command that names an open handle reaches a backend or changes the store only after the handle was
found with the session and the tree of the command's header, on a connection that the session is
bound to.  A server-side copy finds its source with the same session first.  But the look-up and
what follows are separate calls: a SESSION_SETUP on another connection can take the session over in
between, and the command goes on with a handle that is disconnected by then.

## Main results

* `handlersMake_handleGuard` — what each handler has established before it reaches anything.
* `reaches_only_owned` — **if nobody takes its handles away meanwhile, a command reaches only what
  its session owns.**
* `written_disconnected` — a WRITE reaches a backend through a disconnected handle.
-/

namespace RustSmb

variable {cmd : Command} {header : Smb2Header}

/-- Does a call reach a backend or change the store? -/
def reaches : SmbOp → Bool
  | .backend _ _ => true
  | o => World.writesStore o

/-! ### What a command names -/

/-- Does a command ask for a server-side copy? -/
def isCopychunk (cmd : Command) : Bool :=
  cmd.header.command == .ioctl && (cmd.body.u32 4 == 0x001440F2 || cmd.body.u32 4 == 0x001480F2)

/-- The handle that a command names. -/
def namedHandle (cmd : Command) : Option HandleId :=
  match cmd.header.command with
  | .close | .lock | .queryDirectory => some (fileIdAt cmd.body 8)
  | .read | .write | .setInfo => some (fileIdAt cmd.body 16)
  | .queryInfo => some (fileIdAt cmd.body 24)
  | .ioctl =>
      -- a resume key is asked for, or a copy
      if cmd.body.u32 4 == 0x00140078 || isCopychunk cmd then some (fileIdAt cmd.body 8) else none
  | _ => none

theorem requiresSession_of_namedHandle {id : HandleId} (hid : namedHandle cmd = some id) :
    requiresSession cmd.header.command = true := by
  unfold namedHandle at hid
  cases hcmd : cmd.header.command <;> simp_all [requiresSession]

/-- The source of a server-side copy, as its resume key names it. -/
def copySource (cmd : Command) : Option HandleId :=
  ((ioctlInput cmd.body).bind CopychunkRequest.parse).map CopychunkRequest.sourceId

/-- The handle was found in the store with the session and the tree of the header. -/
def Owns (header : Smb2Header) (id : HandleId) (e : List (Event Smb)) : Prop :=
  ∃ handle : HandleState, ⟨SmbOp.store (.getHandle id), .ok (some handle)⟩ ∈ e ∧
    handle.sessionId ≠ 0 ∧ handle.sessionId = header.sessionId ∧ handle.treeId = header.treeId

/-- The handle was found in the store with the session of the header. -/
def OwnsSource (header : Smb2Header) (id : HandleId) (e : List (Event Smb)) : Prop :=
  ∃ handle : HandleState, ⟨SmbOp.store (.getHandle id), .ok (some handle)⟩ ∈ e ∧
    handle.sessionId = header.sessionId

/-- The answer of the store to a look-up of a handle. -/
def foundHandle (id : HandleId) (handle : HandleState) : Event Smb :=
  ⟨SmbOp.store (.getHandle id), .ok (some handle)⟩

/-- The source of a copy was found with the session of the header, the target with its session
and tree and write access. -/
structure CopyHandles (header : Smb2Header) (id : HandleId) (copy : CopychunkRequest)
    (source target : HandleState) (e : List (Event Smb)) : Prop where
  sourceFound : foundHandle copy.sourceId source ∈ e
  session : source.sessionId = header.sessionId
  targetFound : foundHandle id target ∈ e
  owned : target.sessionId ≠ 0 ∧ target.sessionId = header.sessionId ∧
    target.treeId = header.treeId
  access : target.accessMask &&& 0x02 ≠ 0

/-! ### What is found before anything else happens -/

section Finding

open Proc Handler

variable {I : List (Event Smb) → SmbOp → Prop} (hget : ∀ id e, I e (.store (.getHandle id)))

include hget

/-- Once the handle is found to be owned, anything may follow that may follow then. -/
theorem ownedHandle_always {α : Type} {id : HandleId}
    (hthen : ∀ handle e, foundHandle id handle ∈ e → handle.sessionId ≠ 0 ∧
      handle.sessionId = header.sessionId ∧ handle.treeId = header.treeId → ∀ o, I e o)
    (missing : NtStatus) (f : HandleState → Handler α) :
    Always I (ownedHandle header id missing >>= f) := by
  intro s e _
  refine wp_seq (ownedHandle_wp header id missing (hget id e)) ?_
  rintro handle _ _ ⟨⟨rfl, rfl⟩, hvalid⟩
  refine wp_of_forall (fun e' he => ?_) fun _ _ _ _ => trivial
  exact hthen handle e' (he.subset List.mem_cons_self) hvalid

theorem copychunkHandles_wp (header : Smb2Header) (id : HandleId) (copy : CopychunkRequest)
    (isWrite : Bool) (s : ConnectionHandler) (e : List (Event Smb)) :
    Proc.wp I (copychunkHandles header id copy isWrite)
      (onOk (fun _ _ _ => True) fun r _ e' => CopyHandles header id copy r.1 r.2 e') s e := by
  unfold copychunkHandles
  rw [wp_bind, wp_require]
  refine ⟨fun _ => ?_, fun _ => trivial⟩
  simp only [onOk]
  rw [wp_bind, wp_storeOrInternal]
  refine ⟨hget _ _, fun found => ?_, fun _ => trivial⟩
  cases found with
  | none => simp
  | some source =>
    simp only [onOk_ok, getOrFail_some, pure_bind]
    rw [wp_bind, wp_require]
    refine ⟨fun hs => ?_, fun _ => trivial⟩
    -- the source is found; the target is checked next, and the accesses last
    refine wp_seq (ownedHandle_wp header id .fileClosed (hget _ _)) ?_
    rintro target _ _ ⟨⟨rfl, rfl⟩, hvalid⟩
    simp only [wp_bind, wp_require, wp_pure, onOk]
    refine ⟨fun _ => ⟨fun hacc => ⟨fun _ => ?_, fun _ => trivial⟩, fun _ => trivial⟩,
      fun _ => trivial⟩
    exact ⟨List.mem_cons_of_mem _ List.mem_cons_self, beq_iff_eq.1 hs, List.mem_cons_self, hvalid,
      bne_iff_ne.1 hacc⟩

variable [Externs] {body : Bytes}

theorem handleCopychunk_always (hthen : ∀ copy source target e,
      (ioctlInput body).bind CopychunkRequest.parse = some copy →
      CopyHandles header (fileIdAt body 8) copy source target e → ∀ o, I e o) (isWrite : Bool) :
    Always I (handleCopychunk header body isWrite) := by
  unfold handleCopychunk
  cases hinput : ioctlInput body with
  | none => exact keeps_throw
  | some input =>
    rw [getOrFail_some, pure_bind]
    cases hparse : CopychunkRequest.parse input with
    | none => exact keeps_throw
    | some copy =>
      rw [getOrFail_some, pure_bind]
      refine keeps_bind keeps_get fun s => keeps_bind keeps_require fun _ => ?_
      split
      · intro s e _
        refine wp_seq (copychunkHandles_wp hget header _ copy isWrite s e) ?_
        rintro ⟨source, target⟩ s e' h
        refine wp_of_forall (fun e he => ?_) fun _ _ _ _ => trivial
        refine hthen copy source target e (by rw [hinput]; exact hparse) ?_
        exact ⟨he.subset h.sourceFound, h.session, he.subset h.targetFound, h.owned, h.access⟩
      · exact keeps_bind always_buildResponseHeader fun _ => keeps_pure

omit hget [Externs] in
theorem handleValidateNegotiateInfo_always :
    Always I (handleValidateNegotiateInfo header body) := by
  refine keeps_bind keeps_getOrFail fun input => keeps_bind keeps_require fun _ => ?_
  refine keeps_bind keeps_get fun s => keeps_bind keeps_require fun _ => ?_
  refine keeps_bind keeps_getOrFail fun dialect => keeps_bind keeps_require fun _ => ?_
  exact keeps_bind always_buildResponseHeader fun _ => keeps_pure

theorem handleIoctl_always
    (hkey : body.u32 4 = 0x00140078 → Always I (handleRequestResumeKey header body))
    (hcopy : body.u32 4 = 0x001440F2 ∨ body.u32 4 = 0x001480F2 → ∀ copy source target e,
      (ioctlInput body).bind CopychunkRequest.parse = some copy →
      CopyHandles header (fileIdAt body 8) copy source target e → ∀ o, I e o) :
    Always I (handleIoctl header body) := by
  refine keeps_bind keeps_require fun _ => keeps_bind keeps_validateCreditCharge fun _ => ?_
  simp only
  split
  · exact handleValidateNegotiateInfo_always
  split
  · next hcode => exact hkey hcode
  split
  · next hcode => exact handleCopychunk_always hget (hcopy (.inl hcode)) false
  split
  · next hcode => exact handleCopychunk_always hget (hcopy (.inr hcode)) true
  · exact keeps_fail

end Finding

/-! ### Every command -/

/-- What a command that names a handle has established before it reaches anything. -/
def HandleGuard (cmd : Command) (_ e : List (Event Smb)) (o : SmbOp) : Prop :=
  reaches o = true → ∀ id, namedHandle cmd = some id →
    Owns cmd.header id e ∧
      (isCopychunk cmd = true → ∃ src, copySource cmd = some src ∧ OwnsSource cmd.header src e)

section Commands

open Proc Handler

variable {g : List (Event Smb)}

theorem ownedHandle_handleGuard {id : HandleId} {α : Type}
    (hid : namedHandle cmd = some id ∧ isCopychunk cmd = false) (missing : NtStatus)
    (f : HandleState → Handler α) :
    Always (HandleGuard cmd g) (ownedHandle cmd.header id missing >>= f) := by
  refine ownedHandle_always (fun _ _ => nofun) (fun handle e hmem hvalid o _ id' hid' => ?_) _ _
  obtain rfl : id = id' := Option.some.inj (hid.1.symm.trans hid')
  exact ⟨⟨handle, hmem, hvalid⟩, fun h => absurd (hid.2.symm.trans h) Bool.false_ne_true⟩

variable [Externs]

theorem handleIoctl_guard (hcmd : cmd.header.command = .ioctl) :
    Always (HandleGuard cmd g) (handleIoctl cmd.header cmd.body) := by
  refine handleIoctl_always (fun _ _ => nofun) (fun hcode => ?_)
    fun hcode copy source target e hparse h o _ id hid => ?_
  · refine keeps_bind keeps_require fun _ => ownedHandle_handleGuard ?_ _ _
    unfold namedHandle isCopychunk
    rw [hcmd, hcode]
    exact ⟨rfl, rfl⟩
  · have hnamed : namedHandle cmd = some (fileIdAt cmd.body 8) := by
      unfold namedHandle isCopychunk
      rcases hcode with hcode | hcode <;> rw [hcmd, hcode] <;> rfl
    obtain rfl := Option.some.inj (hnamed.symm.trans hid)
    refine ⟨⟨target, h.targetFound, h.owned⟩,
      fun _ => ⟨copy.sourceId, ?_, source, h.sourceFound, h.session⟩⟩
    unfold copySource
    rw [hparse]
    rfl

theorem handlersMake_handleGuard : HandlersMake HandleGuard := by
  intro cmd g _
  have hmap : ∀ {x : Handler Response}, Always (HandleGuard cmd g) x →
      Proc.wp (HandleGuard cmd g) (some <$> x) (fun _ _ _ => True) cmd.handler [] :=
    fun hx => keeps_map hx _ _ trivial
  unfold handleCommand
  cases hcmd : cmd.header.command with
  | close =>
    refine hmap (keeps_bind keeps_require fun _ => ownedHandle_handleGuard ?_ _ _)
    simp [namedHandle, isCopychunk, hcmd]
  | read | write | queryDirectory =>
    refine hmap (keeps_bind keeps_require fun _ =>
      keeps_bind keeps_validateCreditCharge fun _ => ownedHandle_handleGuard ?_ _ _)
    simp [namedHandle, isCopychunk, hcmd]
  | lock =>
    unfold handleLock
    rw [lockOwnedHandle_eq]
    refine hmap (keeps_bind keeps_require fun _ =>
      keeps_bind keeps_require fun _ => ownedHandle_handleGuard ?_ _ _)
    simp [namedHandle, isCopychunk, hcmd]
  | ioctl => exact hmap (handleIoctl_guard hcmd)
  | queryInfo =>
    refine hmap (keeps_bind keeps_require fun _ => keeps_bind keeps_parsed fun _ =>
      keeps_bind keeps_validateCreditCharge fun _ =>
        keeps_bind keeps_require fun _ => ownedHandle_handleGuard ?_ _ _)
    simp [namedHandle, isCopychunk, hcmd]
  | setInfo =>
    refine hmap (keeps_bind keeps_require fun _ => keeps_bind keeps_parsed fun _ =>
      keeps_bind keeps_require fun _ => ownedHandle_handleGuard ?_ _ _)
    simp [namedHandle, isCopychunk, hcmd]
  -- the other commands name no handle
  | negotiate | sessionSetup | logoff | treeConnect | treeDisconnect | create | flush | cancel
  | echo | changeNotify | oplockBreak =>
    exact wp_of_forall (fun _ _ _ _ id hid => by simp [namedHandle, hcmd] at hid)
      fun _ _ _ _ => trivial

end Commands

/-! ### Runs -/

section Runs

variable {α β : Type} [AuthProvider α] [StorageBackend β]

/-- The handle belongs to the session and the tree of a header; it is not disconnected. -/
def ownedBy (header : Smb2Header) (handle : HandleState) : Bool :=
  handle.sessionId != 0 && handle.sessionId == header.sessionId && handle.treeId == header.treeId

/-- The handle belongs to the session of a header. -/
def sourceOwnedBy (header : Smb2Header) (handle : HandleState) : Bool :=
  handle.sessionId == header.sessionId

/-- Does a call take a handle away: is it deleted, or recorded for somebody else? -/
def disowns (owned : HandleState → Bool) (id : HandleId) : SmbOp ⊕ Mark → Bool
  | .inl (.store (.deleteHandle id')) => id' == id
  | .inl (.store (.createHandle h)) | .inl (.store (.updateHandle h)) =>
      h.persistentId == id && !owned h
  | _ => false

variable {owned : HandleState → Bool} {id : HandleId}

/-- The store has a handle with an owner. -/
def StoredFor (owned : HandleState → Bool) (id : HandleId) (st : MemoryStateStore) : Prop :=
  ∃ handle, st.handles.lookup id = some handle ∧ owned handle = true

theorem StoredFor.answer {st : MemoryStateStore} (hst : StoredFor owned id st) {so : StoreOp}
    (hso : disowns owned id (.inl (.store so)) = false) (now : UInt64) :
    StoredFor owned id (MemoryStateStore.answer now so st).2 := by
  obtain ⟨handle, hlook, howned⟩ := hst
  by_cases heff : so.effect = .createHandle ∨ so.effect = .handle
  · cases so with
    | createHandle h | updateHandle h =>
      by_cases hid : id = h.persistentId
      · subst hid
        exact ⟨h, AList.lookup_insert _, by simpa [disowns] using hso⟩
      · exact ⟨handle, (AList.lookup_insert_ne hid).trans hlook, howned⟩
    | deleteHandle id' =>
      have hid : id ≠ id' := Ne.symm (beq_eq_false_iff_ne.1 hso)
      exact ⟨handle, (AList.lookup_erase_ne hid).trans hlook, howned⟩
    | _ => rcases heff with heff | heff <;> cases heff
  · obtain ⟨hc, hh⟩ := not_or.1 heff
    refine ⟨handle, ?_, howned⟩
    rwa [MemoryStateStore.answer_handles hc hh]

variable [Externs]

/-- Nobody has taken a handle away since a connection took up its command. -/
abbrev Undisowned (owned : HandleState → Bool) (id : HandleId) (i : ℕ)
    (tr : Trace (α := α) (β := β) anyCall) : Prop :=
  Machine.Undisturbed (M := smbMachine α β anyCall) i (fun y => isDispatch y.event.1)
    (fun y => disowns owned id y.event.1 = true) tr

section Stays

variable {c : (smbMachine α β anyCall).Config} {tr : Trace (α := α) (β := β) anyCall} {i : ℕ}
  {p q : Prog SmbT Conn} {h : List (smbMachine α β anyCall).Stamped} {w : World α β} {cmd : Command}
  {g e : List (World α β × Event Smb)}

/-- A handle that a handler has found with an owner is still stored so, if nobody has taken it
away. -/
theorem storedFor_of_undisowned (hrun : SmbRun anyCall c tr) (hi : c.phase i = .busy p h q)
    (hp : progress (stamps h) = .handling w cmd g e) {handle : HandleState}
    (hmem : foundHandle id handle ∈ e.map Prod.snd) (howned : owned handle = true)
    (hturn : Undisowned owned id i tr) : StoredFor owned id c.world.store := by
  obtain ⟨⟨w', ev⟩, hx, rfl⟩ := List.mem_map.1 hmem
  have hans := (handling (SmbReachable.running hrun.reachable hi) hp).answered _
    (List.mem_append_right g hx)
  obtain ⟨later, earlier, rfl⟩ := List.append_of_mem hx
  obtain ⟨recent, st, older, hpast, hworld, hev, hrecent⟩ := split_event hrun hi hp
  refine Machine.Run.checked hrun (P := fun w => StoredFor owned id w.store) ?_ ?_ hturn hpast
    (fun y hy => not_of_later rfl (fun _ _ => rfl) (hrecent y hy)) ?_
  · refine fun w w' hw => hw.store fun _ so hso now st h => h.answer ?_ now
    rcases hso with rfl | rfl <;> rfl
  · rintro o r w w' ⟨hexec, -⟩ hharm hw
    obtain rfl : (Prog.answerMarks World.answer o w).2 = w' := congrArg Prod.snd hexec
    refine store_answerMarks (fun so hso now st h => h.answer ?_ now) hw
    exact hso ▸ Bool.eq_false_iff.2 hharm
  · -- the look-up has shown the handle and changed nothing
    rintro w' ⟨hexec, -⟩
    rw [hev, hworld] at hexec
    obtain rfl : _ = w' := congrArg Prod.snd hexec
    exact ⟨handle, Except.ok.inj hans, howned⟩

end Stays

/-- **If nobody takes its handles away meanwhile, a command reaches only what its session owns**: in
every run, a backend call or a store write for a command with a handle is made only if its session
is bound to the connection and the handle is stored, at that moment, with that session, not 0, and
the tree of the header; a copy's source is stored with that session too. -/
theorem reaches_only_owned {c : (smbMachine α β anyCall).Config}
    {tr : Trace (α := α) (β := β) anyCall} (hrun : SmbRun anyCall c tr)
    {i : ℕ} {p : Prog SmbT Conn} {h : List (smbMachine α β anyCall).Stamped} {o : SmbOp}
    {k : SmbT.Res (.inl o) → Prog SmbT Conn} (hi : c.phase i = .busy p h (.call (.inl o) k))
    (hr : reaches o = true) {cmd : Command} (hcmd : (progress (stamps h)).command = some cmd)
    {id : HandleId} (hid : namedHandle cmd = some id)
    (hturn : Undisowned (ownedBy cmd.header) id i tr)
    (hsource : ∀ src, isCopychunk cmd = true → copySource cmd = some src →
      Undisowned (sourceOwnedBy cmd.header) src i tr) :
    cmd.header.sessionId ∈ cmd.handler.connection.sessionIds ∧
    StoredFor (ownedBy cmd.header) id c.world.store ∧
    (isCopychunk cmd = true → ∃ src, copySource cmd = some src ∧
      StoredFor (sourceOwnedBy cmd.header) src c.world.store) := by
  rcases call_cases handlersMake_handleGuard (SmbReachable.running hrun.reachable hi) with
    ⟨w, cmd', g, hp, hchk⟩ | ⟨w, cmd', g, e, hp, hhand, hallowed⟩ | ⟨hp, -⟩
  · -- the checks of the dispatcher reach nothing
    rcases hchk with rfl | rfl <;> cases hr
  · rw [hp] at hcmd
    obtain rfl : cmd' = cmd := Option.some.inj hcmd
    obtain ⟨⟨handle, hmem, h0, hsess, htree⟩, hcopy⟩ := hallowed hr id hid
    refine ⟨?_, ?_, fun hc => ?_⟩
    · have hreq : requiresSession cmd'.header.command = true := requiresSession_of_namedHandle hid
      exact List.contains_iff_mem.1 (hhand.passed.bound hreq (hsess ▸ h0))
    · refine storedFor_of_undisowned hrun hi hp hmem ?_ hturn
      simp [ownedBy, hsess, htree, hsess ▸ h0]
    · obtain ⟨src, hsrc, source, hmem, hs⟩ := hcopy hc
      exact ⟨src, hsrc, storedFor_of_undisowned hrun hi hp hmem (beq_iff_eq.2 hs)
        (hsource src hc hsrc)⟩
  · rw [hp] at hcmd
    cases hcmd

end Runs

/-! ### A session that is taken over -/

section Sample

open Sample

/-- A CLOSE of a handle that the session opened reaches the store. -/
theorem reaches_only_owned_close :
    ∃ (c : FilesConfig) (tr : Trace anyCall)
      (p : Prog SmbT Conn) (h : List FilesStamped)
      (o : SmbOp) (k : SmbT.Res (.inl o) → Prog SmbT Conn) (cmd : Command) (id : HandleId),
      (SmbRun anyCall c tr ∧ c.phase 0 = .busy p h (.call (.inl o) k) ∧ reaches o = true ∧
        (progress (stamps h)).command = some cmd ∧ namedHandle cmd = some id ∧
        isCopychunk cmd = false ∧ Undisowned (ownedBy cmd.header) id 0 tr) ∧
      cmd.header.sessionId ∈ cmd.handler.connection.sessionIds ∧
      StoredFor (ownedBy cmd.header) id c.world.store := by
  obtain ⟨x, hpoint, hr, hcmd⟩ : ∃ x, pointOf
      (start AnonymousAuthProvider.anonymousOnly : Snapshot anyCall)
      [(0, Client.sessionSetup 0 []), (0, Client.treeConnect 1 "\\\\a\\s"),
        (0, Client.create 1 1 "f" 0 [])] (0, Client.close 1 1 1) 5 = some x ∧
      reaches x.op = true ∧ ((progress (stamps x.history)).command.any fun cmd =>
        (namedHandle cmd).any fun id => decide (isCopychunk cmd = false ∧
          Undisowned (ownedBy cmd.header) id 0 x.trace)) = true :=
    exists_of_any (by decide +kernel)
  obtain ⟨cmd, hcmd, hchk⟩ := (Option.any_eq_true _ _).1 hcmd
  obtain ⟨id, hid, hchk⟩ := (Option.any_eq_true _ _).1 hchk
  obtain ⟨hcopy, hturn⟩ := of_decide_eq_true hchk
  obtain ⟨c, p, k, hrun, -, hi⟩ := exists_point (run_start _) hpoint
  obtain ⟨hbound, hstored, -⟩ := reaches_only_owned hrun hi hr hcmd hid hturn
    fun _ hcopy' => absurd (hcopy.symm.trans hcopy') nofun
  exact ⟨c, x.trace, p, x.history, x.op, k, cmd, id, ⟨hrun, hi, hr, hcmd, hid, hcopy, hturn⟩,
    hbound, hstored⟩

/-- A user opens a durable handle on connection 0 and sends a WRITE, which finds the handle.  Before
it reaches the backend, a log-on on connection 1 takes over the session. -/
def takenOver : Option ((smbMachine NtlmAuthProvider Files anyCall).Config ×
    Trace (α := NtlmAuthProvider) (β := Files) anyCall) :=
  (serveAll (start ntlm)
    [(0, Client.sessionSetup 0 logonTokens.1), (0, Client.sessionSetup 1 logonTokens.2),
      (0, Client.treeConnect 1 "\\\\a\\s"), (0, Client.createDurable 1 1 "f"),
      (1, Client.sessionSetup 0 logonTokens.1)]).bind fun st =>
    playAll st.config st.trace
      (.message 0 (Client.write 1 1 1 0 [7]) :: List.replicate 6 (.call 0) ++
        .message 1 (Client.sessionSetupAfter 2 1 logonTokens.2) :: List.replicate 12 (.call 1))

/-- The call that a connection is about to make, with what it has done for its message. -/
def nextCall (c : (smbMachine NtlmAuthProvider Files anyCall).Config) (i : ℕ) :
    Option (SmbOp × List (smbMachine NtlmAuthProvider Files anyCall).Stamped) :=
  match c.phase i with
  | .busy _ h (.call (.inl o) _) => some (o, h)
  | _ => none

theorem exists_of_nextCall {c : (smbMachine NtlmAuthProvider Files anyCall).Config} {i : ℕ}
    {x : SmbOp × List (smbMachine NtlmAuthProvider Files anyCall).Stamped}
    (h : nextCall c i = some x) :
    ∃ p k, c.phase i = .busy p x.2 (.call (.inl x.1) k) := by
  unfold nextCall at h
  split at h
  · next hi =>
    cases h
    exact ⟨_, _, hi⟩
  · cases h

/-- **A WRITE reaches a backend through a disconnected handle**: it has found the handle with its
session, which is then taken over. -/
theorem written_disconnected :
    ∃ (c : (smbMachine NtlmAuthProvider Files anyCall).Config) (tr : Trace anyCall)
      (p : Prog SmbT Conn) (h : List (smbMachine NtlmAuthProvider Files anyCall).Stamped)
      (o : SmbOp) (k : SmbT.Res (.inl o) → Prog SmbT Conn) (cmd : Command) (id : HandleId)
      (handle : HandleState),
      SmbRun anyCall c tr ∧ c.phase 0 = .busy p h (.call (.inl o) k) ∧ reaches o = true ∧
      (progress (stamps h)).command = some cmd ∧ cmd.header.command = .write ∧
      namedHandle cmd = some id ∧ c.world.store.handles.lookup id = some handle ∧
      handle.sessionId = 0 := by
  obtain ⟨⟨c, tr⟩, hx, hchk⟩ := (Option.any_eq_true _ _).1 (show takenOver.any (fun x =>
    (nextCall x.1 0).any fun y => reaches y.1 && (progress (stamps y.2)).command.any fun cmd =>
      (namedHandle cmd).any fun id => (x.1.world.store.handles.lookup id).any fun handle =>
        decide (cmd.header.command = .write ∧ handle.sessionId = 0)) = true by decide +kernel)
  obtain ⟨⟨o, h⟩, hnext, hchk⟩ := (Option.any_eq_true _ _).1 hchk
  obtain ⟨hr, hchk⟩ := Bool.and_eq_true_iff.1 hchk
  obtain ⟨cmd, hcmd, hchk⟩ := (Option.any_eq_true _ _).1 hchk
  obtain ⟨id, hid, hchk⟩ := (Option.any_eq_true _ _).1 hchk
  obtain ⟨handle, hlook, hchk⟩ := (Option.any_eq_true _ _).1 hchk
  obtain ⟨hwrite, hzero⟩ := of_decide_eq_true hchk
  obtain ⟨p, k, hi⟩ := exists_of_nextCall hnext
  obtain ⟨st, hst, hplay⟩ := Option.bind_eq_some_iff.1 hx
  exact ⟨c, tr, p, h, o, k, cmd, id, handle, run_playAll (run_serveAll (run_start _) hst) hplay, hi,
    hr, hcmd, hwrite, hid, hlook, hzero⟩

end Sample

end RustSmb
