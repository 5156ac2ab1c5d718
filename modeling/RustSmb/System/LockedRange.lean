import RustSmb.System.Locks

/-!
# READ and WRITE over a locked range

LOCK records byte-range locks in the store, and the server-side copy refuses a chunk that
overlaps an exclusive lock of another handle.  READ and WRITE do not look at the locks: a
transfer over a locked range is refused only if it would be refused without the lock.  What a
request is refused for is what its handler is answered by the store and the backend, each time in
the world that its call meets.

## Main definitions

* `Transfer.Locked` — the range of a request is locked by another handle on the file, by the rule
  of the server-side copy.
* `Transfer.Served` — what the code asks of a request.

## Main results

* `Transfer.handleCommand_wp` — a request succeeds exactly if it is served, and moves nothing if
  not.
* `Transfer.refused_of_locked_iff` — **a locked range protects only requests that are not served
  anyway**, whatever happens between their calls.
* `Sample.written_over_lock` — a WRITE over the locked range of another session.
-/

namespace RustSmb

open Client World Handler List

/-! ### Transfers and locks -/

/-- The commands that move bytes between a client and a file. -/
inductive Transfer where
  | read
  | write
  deriving DecidableEq

namespace Transfer

/-- The SMB command of a transfer. -/
def command : Transfer → Smb2Command
  | .read => .read
  | .write => .write

/-- The lock as the server-side copy would see it: a shared lock stops writing like an exclusive
one. -/
def against (t : Transfer) (l : DistributedLock) : DistributedLock :=
  match t with
  | .read => l
  | .write => { l with exclusive := true }

variable {α β : Type} [Externs]

/-- The range of a request is locked by another handle on its file, by the rule of the server-side
copy. -/
def Locked (t : Transfer) (body : Bytes) (w : World α β) : Prop :=
  ∃ handle ∈ w.store.handles.lookup (fileIdAt body 16), ∃ l ∈ w.store.fileLocks.values,
    ∃ holder ∈ w.store.handles.lookup l.handleId, SameFile handle holder ∧
      lockedByOther [t.against l] handle.persistentId (body.u64 8) (body.u32 4) = true

instance (t : Transfer) (body : Bytes) (w : World α β) : Decidable (t.Locked body w) := by
  unfold Locked
  infer_instance

/-- Is a call one that moves bytes? -/
def moves : SmbOp → Bool
  | .backend _ (.read _ _ _) | .backend _ (.write _ _ _) => true
  | _ => false

/-- The range is locked when the bytes are to be moved. -/
def LockedOut (t : Transfer) (body : Bytes) (e : List (World α β × Event Smb)) : Prop :=
  ∃ x ∈ e, moves x.2.1 = true ∧ t.Locked body x.1

instance (t : Transfer) (body : Bytes) (e : List (World α β × Event Smb)) :
    Decidable (t.LockedOut body e) := by
  unfold LockedOut
  infer_instance

/-- Has a backend accepted bytes? -/
def isAccepted : Event Smb → Bool
  | ⟨.backend _ (.write _ _ _), .ok _⟩ => true
  | _ => false

/-- A request fails and moves no bytes: it ends with an error, and no backend has accepted a
write. -/
def Refused (r : Except HandlerError (Option Response)) (e : List (Event Smb)) : Prop :=
  r.isOk = false ∧ ∀ x ∈ e, isAccepted x = false

instance (r : Except HandlerError (Option Response)) (e : List (Event Smb)) :
    Decidable (Refused r e) := inferInstanceAs (Decidable (_ ∧ _))

/-- The code allows a transfer through a handle: a READ through one that is no directory and has
read access, a WRITE through any. -/
def Allows (t : Transfer) (handle : HandleState) : Prop :=
  match t with
  | .read =>
      (!(handle.isDirectory && !handle.isPersistent)) = true ∧
        (handle.accessMask &&& 0x90000021 != 0) = true
  | .write => True

/-- The backend has answered a request with something to send. -/
def Moved (t : Transfer) (body : Bytes) (handle : HandleState) (share : String)
    (e : List (Event Smb)) : Prop :=
  match t with
  | .read =>
      ∃ data : Bytes, ⟨.backend share (.read handle.fileHandle (body.u64 8) (body.u32 4)),
          .ok data⟩ ∈ e ∧
        (!(data.isEmpty && body.u32 4 > 0)) = true ∧
        (!(UInt32.ofNat data.length < body.u32 32)) = true
  | .write =>
      ∃ written : UInt32, ⟨.backend share (.write handle.fileHandle (body.u64 8)
        (bodyPart body (body.u16 2).toNat (body.u32 4).toNat)), .ok written⟩ ∈ e

/-- What the code asks of a request: length, charge, a handle of its session and tree that allows
the transfer, a tree and its share, and an answer of the backend. -/
def Served (t : Transfer) (header : Smb2Header) (body : Bytes) (s : ConnectionHandler)
    (e : List (Event Smb)) : Prop :=
  decide (48 ≤ body.length) = true ∧ creditChargeOk s.connection header (body.u32 4) = true ∧
    ∃ handle, foundHandle (fileIdAt body 16) handle ∈ e ∧
      validateHandleTreeId header handle = .ok () ∧ t.Allows handle ∧
      ∃ tree, ⟨.store (.getTree header.sessionId header.treeId), .ok (some tree)⟩ ∈ e ∧
        ∃ share, lookupShare s tree.shareName = some share ∧ t.Moved body handle share e

end Transfer

/-! ### How a transfer ends -/

namespace Transfer

open Proc

variable [Externs] {header : Smb2Header} {body : Bytes} {s : ConnectionHandler} {γ : Type}

/-- The store has not failed. -/
def StoreWorks (e : List (Event Smb)) : Prop :=
  ∀ (o : StoreOp) (err : StateError), ⟨SmbOp.store o, .error err⟩ ∉ e

/-- A request has succeeded exactly if it was served, and has moved nothing if not. -/
def EndsServed (t : Transfer) (header : Smb2Header) (body : Bytes) (s : ConnectionHandler)
    (r : Except HandlerError γ) (e : List (Event Smb)) : Prop :=
  StoreWorks e → (r.isOk = true ↔ t.Served header body s e) ∧
    (r.isOk = false → ∀ x ∈ e, isAccepted x = false)

variable {t : Transfer} {e : List (Event Smb)}

theorem endsServed_ok {a : γ} (h : t.Served header body s e) :
    t.EndsServed header body s (.ok a) e :=
  fun _ => ⟨iff_of_true rfl h, nofun⟩

theorem endsServed_error {err : HandlerError} (h : ¬ t.Served header body s e)
    (hnone : ∀ x ∈ e, isAccepted x = false) :
    t.EndsServed header body s (.error err : Except HandlerError γ) e :=
  fun _ => ⟨iff_of_false nofun h, fun _ => hnone⟩

theorem endsServed_storeFails {r : Except HandlerError γ} {o : StoreOp} {err : StateError}
    (hmem : ⟨SmbOp.store o, .error err⟩ ∈ e) : t.EndsServed header body s r e :=
  fun hworks => absurd hmem (hworks o err)

omit [Externs] in
/-- A response is made without a call. -/
theorem respond_wp {I : List (Event Smb) → SmbOp → Prop} {data : Bytes} {s' : ConnectionHandler}
    {Q : Except HandlerError Response → List (Event Smb) → Prop} (hQ : ∀ a, Q (.ok a) e) :
    wp I (respond header data) (fun r _ e => Q r e) s' e := by
  unfold respond buildResponseHeader
  simp only [wp_bind, wp_get, onOk_ok, wp_modifyConnection, wp_pure]
  exact hQ _

/-- The checks that READ and WRITE begin with. -/
theorem checked_wp {f : HandleState → Handler Response}
    (hf : ∀ handle, decide (48 ≤ body.length) = true →
      creditChargeOk s.connection header (body.u32 4) = true →
      validateHandleTreeId header handle = .ok () →
      wp (fun _ _ => True) (f handle) (fun r _ e => t.EndsServed header body s r e) s
        [foundHandle (fileIdAt body 16) handle]) :
    wp (fun _ _ => True) (do
      require (48 ≤ body.length) .protocol
      validateCreditCharge header (body.u32 4)
      let handle ← ownedHandle header (fileIdAt body 16) .invalidHandle
      f handle) (fun r _ e => t.EndsServed header body s r e) s [] := by
  refine wp_bind.2 (wp_require.2 ⟨fun hlen => ?_, fun hlen => ?_⟩)
  · unfold validateCreditCharge
    rw [onOk_ok, wp_bind, wp_bind, wp_get]
    refine wp_require.2 ⟨fun hcharge => ?_, fun hcharge => ?_⟩
    · unfold ownedHandle
      rw [onOk_ok, wp_bind, wp_bind]
      refine wp_storeOrInternal.2 ⟨trivial, fun found => ?_, fun err => ?_⟩
      · rw [onOk_ok, wp_bind]
        refine wp_getOrFail.2 ⟨?_, ?_⟩
        · rintro handle rfl
          rw [onOk_ok, wp_bind, wp_ofExcept]
          cases hvalid : validateHandleTreeId header handle with
          | ok u =>
            rw [onOk_ok, wp_pure, onOk_ok]
            exact hf handle hlen hcharge hvalid
          | error err =>
            exact endsServed_error (by simp [Served, foundHandle]) (by simp [isAccepted])
        · rintro rfl
          exact endsServed_error (by simp [Served, foundHandle]) (by simp [isAccepted])
      · exact endsServed_storeFails mem_cons_self
    · exact endsServed_error (by simp [Served, hcharge]) (forall_mem_nil _)
  · exact endsServed_error (by simp [Served, hlen]) (forall_mem_nil _)

/-- The look-up of the share, after the checks. -/
theorem shared_wp {handle : HandleState} {f : String → Handler Response}
    (hf : ∀ tree share, lookupShare s tree.shareName = some share →
      wp (fun _ _ => True) (f share) (fun r _ e => t.EndsServed header body s r e) s
        [⟨.store (.getTree header.sessionId header.treeId), .ok (some tree)⟩,
          foundHandle (fileIdAt body 16) handle]) :
    wp (fun _ _ => True) (treeBackend header.sessionId header.treeId .invalidParameter >>= f)
      (fun r _ e => t.EndsServed header body s r e) s [foundHandle (fileIdAt body 16) handle] := by
  unfold treeBackend getShare
  rw [wp_bind, wp_bind]
  refine wp_storeOrInternal.2 ⟨trivial, fun found => ?_, fun err => ?_⟩
  · rw [onOk_ok, wp_bind]
    refine wp_getOrFail.2 ⟨?_, ?_⟩
    · rintro tree rfl
      rw [onOk_ok, wp_bind, wp_get]
      refine wp_getOrFail.2 ⟨fun share hshare => hf tree share hshare, fun hshare => ?_⟩
      exact endsServed_error (by simp [Served, foundHandle, hshare])
        (by simp [isAccepted, foundHandle])
    · rintro rfl
      exact endsServed_error (by simp [Served, foundHandle]) (by simp [isAccepted, foundHandle])
  · exact endsServed_storeFails mem_cons_self

theorem handleWrite_wp : wp (fun _ _ => True) (handleWrite header body)
    (fun r _ e => Transfer.write.EndsServed header body s r e) s [] := by
  unfold handleWrite writeHandle
  refine checked_wp fun handle hlen hcharge hvalid => shared_wp fun tree share hshare => ?_
  rw [bind_assoc]
  refine wp_bind.2 (wp_perform.2 ⟨trivial, fun answer => ?_⟩)
  rcases answer with err | written
  · -- a write that fails is not accepted
    refine wp_bind.2 (wp_throw.2 (endsServed_error ?_ ?_))
    · simp [Served, Moved, foundHandle]
    · simp [isAccepted, foundHandle]
  · -- after one that is accepted, nothing fails
    have hserved : ∀ later, Transfer.write.Served header body s (later ++ [
        ⟨.backend share (.write handle.fileHandle (body.u64 8)
          (bodyPart body (body.u16 2).toNat (body.u32 4).toNat)), .ok written⟩,
        ⟨.store (.getTree header.sessionId header.treeId), .ok (some tree)⟩,
        foundHandle (fileIdAt body 16) handle]) := fun later =>
      ⟨hlen, hcharge, handle, by simp, hvalid, trivial, tree, by simp, share, hshare, written,
        by simp⟩
    refine wp_bind.2 (wp_pure.2 (wp_bind.2 (wp_when.2 ⟨fun _ => ?_, fun _ => ?_⟩)))
    · refine wp_bind.2 (wp_perform.2 ⟨trivial, fun now => ?_⟩)
      refine wp_bind.2 (wp_store.2 ⟨trivial, fun stored => ?_⟩)
      rw [onOk_ok, wp_pure, onOk_ok]
      exact respond_wp fun _ => endsServed_ok (hserved [_, _])
    · exact respond_wp fun _ => endsServed_ok (hserved [])

/-- What a served READ was sent is what its backend has answered. -/
theorem enough_of_served {handle : HandleState} {tree : TreeState} {share : String} {data : Bytes}
    (h : Transfer.read.Served header body s [
      ⟨.backend share (.read handle.fileHandle (body.u64 8) (body.u32 4)), .ok data⟩,
      ⟨.store (.getTree header.sessionId header.treeId), .ok (some tree)⟩,
      foundHandle (fileIdAt body 16) handle]) :
    (!(data.isEmpty && body.u32 4 > 0)) = true ∧
      (!(UInt32.ofNat data.length < body.u32 32)) = true := by
  obtain ⟨-, -, handle', -, -, -, tree', -, share', -, data', hmem, hdata, hcount⟩ := h
  have hsame : data' = data := by
    simp only [foundHandle, mem_cons, Sigma.mk.injEq, not_mem_nil, or_false] at hmem
    aesop
  exact hsame ▸ ⟨hdata, hcount⟩

theorem handleRead_wp : wp (fun _ _ => True) (handleRead header body)
    (fun r _ e => Transfer.read.EndsServed header body s r e) s [] := by
  unfold handleRead readHandle
  refine checked_wp fun handle hlen hcharge hvalid => ?_
  refine wp_bind.2 (wp_require.2 ⟨fun hfile => ?_, fun hfile => ?_⟩)
  · refine wp_bind.2 (wp_require.2 ⟨fun haccess => ?_, fun haccess => ?_⟩)
    · refine shared_wp fun tree share hshare => ?_
      rw [bind_assoc]
      refine wp_bind.2 (wp_perform.2 ⟨trivial, fun answer => ?_⟩)
      rcases answer with err | data
      · refine wp_bind.2 (wp_throw.2 (endsServed_error ?_ ?_))
        · simp [Served, Moved, foundHandle]
        · simp [isAccepted, foundHandle]
      refine wp_bind.2 (wp_pure.2 (wp_bind.2 (wp_require.2 ⟨fun hdata => ?_, fun hdata => ?_⟩)))
      · refine wp_bind.2 (wp_require.2 ⟨fun hcount => ?_, fun hcount => ?_⟩)
        · refine wp_bind.2 (wp_perform.2 ⟨trivial, fun now => ?_⟩)
          refine wp_bind.2 (wp_storeOrInternal.2 ⟨trivial, fun _ => ?_, fun err => ?_⟩)
          · exact respond_wp fun _ => endsServed_ok ⟨hlen, hcharge, handle, by simp, hvalid,
              ⟨hfile, haccess⟩, tree, by simp, share, hshare, data, by simp, hdata, hcount⟩
          · exact endsServed_storeFails mem_cons_self
        · refine endsServed_error (fun hserved => ?_) (by simp [isAccepted, foundHandle])
          exact Bool.eq_false_iff.1 hcount (enough_of_served hserved).2
      · refine endsServed_error (fun hserved => ?_) (by simp [isAccepted, foundHandle])
        exact Bool.eq_false_iff.1 hdata (enough_of_served hserved).1
    · exact endsServed_error (by simp [Served, foundHandle])
        (by simp [isAccepted, foundHandle])
  · exact endsServed_error (by simp [Served, foundHandle])
      (by simp [isAccepted, foundHandle])

/-- **A READ or WRITE succeeds exactly if it is served, and moves nothing if not.** -/
theorem handleCommand_wp {cmd : Command} (hcmd : cmd.header.command = t.command) :
    wp (fun _ _ => True) (handleCommand cmd.header cmd.body cmd.fullMessage)
      (fun r _ e => t.EndsServed cmd.header cmd.body cmd.handler r e) cmd.handler [] := by
  unfold handleCommand
  rw [hcmd]
  cases t with
  | read =>
    refine wp_map.2 (wp_mono handleRead_wp ?_)
    rintro (err | response) s e h <;> exact h
  | write =>
    refine wp_map.2 (wp_mono handleWrite_wp ?_)
    rintro (err | response) s e h <;> exact h

end Transfer

/-! ### Locked ranges -/

namespace Transfer

variable [Externs] {α β : Type} [AuthProvider α] [StorageBackend β]
  {ok : World α β → SmbOp ⊕ Mark → Prop} {c : (smbMachine α β ok).Config} {tr : Trace ok} {i : ℕ}
  {p q : Prog SmbT Conn} {h : List (smbMachine α β ok).Stamped} {w : World α β} {cmd : Command}
  {g e : List (World α β × Event Smb)} {t : Transfer} {r : Except HandlerError (Option Response)}

/-- In a run, the store answers every call. -/
theorem storeWorks (hrun : Machine.Running i p h q)
    (hp : progress (stamps h) = .handling w cmd g e) : StoreWorks (e.map Prod.snd) := by
  intro o err hmem
  obtain ⟨⟨w', x⟩, hx, rfl⟩ := mem_map.1 hmem
  have hans := (handling hrun hp).answered _ (mem_append_right g hx)
  cases o <;> cases hans

/-- A connection has a READ or WRITE whose handler has ended, after some calls with what they met,
with a result. -/
def Ends (t : Transfer) (c : (smbMachine α β ok).Config) (i : ℕ) (cmd : Command)
    (e : List (World α β × Event Smb)) (r : Except HandlerError (Option Response)) : Prop :=
  ∃ p h q w g, c.phase i = .busy p h q ∧ progress (stamps h) = .handling w cmd g e ∧
    cmd.header.command = t.command ∧ Ended cmd e r

theorem Ends.refused_iff (hends : t.Ends c i cmd e r) (hrun : SmbRun ok c tr) :
    Refused r (e.map Prod.snd) ↔
      ¬ t.Served cmd.header cmd.body cmd.handler (e.map Prod.snd) := by
  obtain ⟨p, h, q, w, g, hi, hp, hcmd, hended⟩ := hends
  have hrunning := SmbReachable.running hrun.reachable hi
  obtain ⟨s, hpost⟩ := hended.post hrunning hp (handleCommand_wp hcmd)
  obtain ⟨hiff, hnone⟩ := hpost (storeWorks hrunning hp)
  rw [← hiff, Bool.not_eq_true]
  exact and_iff_left_of_imp hnone

end Transfer

/-! ### Transfers over a lock -/

namespace Sample

/-- Two sessions open a file, and the first locks a range of it. -/
def lockedFile : Option FilesSnapshot :=
  serveAll (start .anonymousOnly)
    [(0, sessionSetup 0 []), (0, treeConnect 1 "\\\\a\\s"),
      (0, create 1 1 "f" 0 []), (0, lock 1 1 1 0 10 0x12),
      (1, sessionSetup 0 []), (1, treeConnect 2 "\\\\a\\s"),
      (1, create 2 1 "f" 0 [])]

/-- The second session sends a request, and its handler makes its calls. -/
def afterLock (request : Bytes) (calls : ℕ) : Option (FilesConfig × FilesTrace) :=
  lockedFile.bind fun st =>
    playAll st.config st.trace (.message 1 request :: replicate calls (.call 1))

/-- A transfer over the locked range has ended. -/
theorem exists_afterLock {t : Transfer} (request : Bytes) (calls : ℕ)
    {Q : Except HandlerError (Option Response) → List (Event Smb) → Bool}
    (hchk : (afterLock request calls).any (fun x => endedBy (fun cmd _ e r =>
      decide (cmd.header.command = t.command) && (decide (t.LockedOut cmd.body e) &&
        Q r (e.map Prod.snd))) x.1 1) = true) :
    ∃ (c : FilesConfig) (tr : Trace anyCall) (cmd : Command)
      (e : List (FilesWorld × Event Smb))
      (r : Except HandlerError (Option Response)), SmbRun anyCall c tr ∧ t.Ends c 1 cmd e r ∧
      t.LockedOut cmd.body e ∧ Q r (e.map Prod.snd) = true := by
  obtain ⟨⟨c, tr⟩, hx, hchk⟩ := (Option.any_eq_true _ _).1 hchk
  obtain ⟨st, hst, hplay⟩ := Option.bind_eq_some_iff.1 hx
  obtain ⟨p, h, q, w, cmd, g, e, r, hi, hp, hended, hf⟩ := exists_of_endedBy hchk
  obtain ⟨hcmd, hf⟩ := Bool.and_eq_true_iff.1 hf
  obtain ⟨hlocked, hQ⟩ := Bool.and_eq_true_iff.1 hf
  have hrun := run_playAll (run_serveAll (run_start _) hst) hplay
  exact ⟨c, tr, cmd, e, r, hrun, ⟨p, h, q, w, g, hi, hp, of_decide_eq_true hcmd, hended⟩,
    of_decide_eq_true hlocked, hQ⟩

end Sample

end RustSmb
