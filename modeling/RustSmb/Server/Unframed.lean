import RustSmb.Server.Dispatch

/-!
# What a handler reads of a message

A handler gets the header of a command, its body and the bytes of the whole message.  The flags, the
distance to the next command and the bytes of the message matter to SESSION_SETUP only: for the
signature of a binding request, and for the preauthentication hash of dialect 3.1.1.  So a command
does the same wherever it stands in a compound.

## Main results

* `handleCommand_unframed` — **handlers do not read the framing.**
-/

namespace RustSmb

open Handler Proc

def unframed (header : Smb2Header) (flags nextCommand : UInt32) : Smb2Header :=
  { header with flags := flags, nextCommand := nextCommand }

/-- The requests whose handler reads the message as a whole. -/
def ReadsMessage (s : ConnectionHandler) (command : Smb2Command) (body : Bytes) : Prop :=
  command = .sessionSetup ∧
    (s.connection.dialect = some .smb311 ∨
      (SessionSetupRequest.read body).any SessionSetupRequest.isBinding = true)

instance (s : ConnectionHandler) (command : Smb2Command) (body : Bytes) :
    Decidable (ReadsMessage s command body) := inferInstanceAs (Decidable (_ ∧ _))

theorem processLocks_unframed (share : String) (handleId : HandleId) (handle : HandleState)
    (elements : List LockElement) (acquired : List UInt64) :
    processLocks (unframed header flags nextCommand) share handleId handle elements acquired =
      processLocks header share handleId handle elements acquired := by
  induction elements generalizing acquired with
  | nil => rfl
  | cons e elements ih =>
    unfold processLocks
    simp only [ih]
    rfl

theorem selectDialect_ne_smb311 {dialects : List UInt16} {dialect : SmbDialect}
    (h : selectDialect dialects = some dialect) : dialect ≠ .smb311 := by
  obtain ⟨d, hd, rfl⟩ := Option.map_eq_some_iff.1 h
  have hmem := List.mem_of_find?_eq_some hd
  simp only [serverDialects, List.mem_cons, List.not_mem_nil, or_false] at hmem
  rcases hmem with rfl | rfl | rfl | rfl <;> decide

theorem exchangeSessionId_keeps {P : ConnectionHandler → Prop} :
    Keeps (fun s _ => P s) (fun _ _ => True) exchangeSessionId := by
  refine keeps_bind keeps_get fun s => ?_
  split
  · exact keeps_pure
  · exact keeps_storeOrInternal fun _ => trivial

theorem lookupReauthSession_unframed :
    lookupReauthSession (unframed header flags nextCommand) = lookupReauthSession header := by
  refine congrArg (Proc.get >>= ·) (funext fun s => ite_congr rfl (fun _ => ?_) fun _ => rfl)
  refine congrArg (store (.getSession header.sessionId) >>= ·) (funext fun r => ?_)
  cases r <;> rfl

variable [Externs] (header : Smb2Header) (flags nextCommand : UInt32)

/-! ### CLOSE and LOCK -/

theorem deleteFileOf_unframed (handle : HandleState) :
    deleteFileOf (unframed header flags nextCommand) handle = deleteFileOf header handle := by
  refine congrArg (store (.getTree header.sessionId header.treeId) >>= ·) (funext fun r => ?_)
  rcases r with _ | _ | _ <;> rfl

theorem handleClose_unframed (body : Bytes) :
    handleClose (unframed header flags nextCommand) body = handleClose header body := by
  unfold handleClose closeHandle
  simp only [deleteFileOf_unframed]
  rfl

theorem handleLock_unframed (body : Bytes) :
    handleLock (unframed header flags nextCommand) body = handleLock header body := by
  unfold handleLock lockHandle
  simp only [processLocks_unframed]
  rfl

/-! ### NEGOTIATE and SESSION_SETUP -/

theorem handleNegotiate_unframed (body message message' : Bytes) :
    handleNegotiate (unframed header flags nextCommand) body message =
      handleNegotiate header body message' := by
  unfold handleNegotiate
  cases hsel : selectDialect (negotiateDialects body) with
  | none => rfl
  | some dialect =>
    have hne : (dialect == .smb311) = false := by simpa using selectDialect_ne_smb311 hsel
    simp only [getOrFail, Proc.pure_bind, hne]
    rfl

/-- Only SMB 3.1.1 hashes what it receives. -/
abbrev HashesNothing (s : ConnectionHandler) : Prop := s.connection.dialect ≠ some .smb311

omit [Externs] in
theorem HashesNothing.beq {s : ConnectionHandler} (h : HashesNothing s) :
    (s.connection.dialect.getD .smb202 == .smb311) = false := by
  cases hd : s.connection.dialect with
  | none => rfl
  | some d =>
    have : d ≠ .smb311 := fun hd' => h (hd.trans (congrArg some hd'))
    simpa using this

section SessionSetup

variable {s : ConnectionHandler} (request : SessionSetupRequest) (message message' : Bytes)
  (existingSession : Option SessionState)

omit [Externs] in
theorem existingForReauth_keeps {P : ConnectionHandler → Prop} (sessionId : UInt64) :
    Keeps (fun s _ => P s) (fun _ _ => True) (existingForReauth existingSession sessionId) := by
  unfold existingForReauth
  split
  · exact keeps_pure
  · refine keeps_bind (keeps_store fun _ => trivial) fun r => ?_
    cases r <;> exact keeps_pure

omit [Externs] in
theorem lookupReauthSession_keeps {P : ConnectionHandler → Prop} :
    Keeps (fun s _ => P s) (fun _ _ => True) (lookupReauthSession header) := by
  refine keeps_bind keeps_get fun s => ?_
  split
  · refine keeps_bind (keeps_store fun _ => trivial) fun r => ?_
    cases r <;> exact keeps_pure
  · exact keeps_pure

omit [Externs] in
theorem authenticateToken_keeps (token : Bytes) :
    Keeps (fun s _ => HashesNothing s) (fun _ _ => True) (authenticateToken header token) := by
  refine keeps_bind (keeps_when fun _ => keeps_modify fun _ _ hs => hs) fun _ => ?_
  refine keeps_bind keeps_get fun s => ?_
  refine keeps_bind (keeps_bind keeps_get fun _ => keeps_call fun _ => trivial) fun r => ?_
  refine keeps_bind (keeps_modify fun _ _ hs => hs) fun _ => ?_
  split
  · exact keeps_pure
  · exact keeps_fail
  · exact keeps_throw

theorem sessionSetupSuccess_unframed (user : UserInfo) (sessionKey : Bytes)
    (responseToken : Option Bytes) (hs : HashesNothing s) :
    sessionSetupSuccess (unframed header flags nextCommand) request message existingSession user
        sessionKey responseToken s =
      sessionSetupSuccess header request message' existingSession user sessionKey responseToken
        s := by
  refine exchangeSessionId_keeps.bind_congr (fun sessionId s hs => ?_) hs
  refine (existingForReauth_keeps existingSession sessionId).bind_congr (fun existing s hs => ?_) hs
  simp only [bind_apply, Proc.get, Prog.ret_bind, HashesNothing.beq hs, Bool.false_and]
  rfl

theorem handleSessionSetupRound_unframed (body : Bytes) (hs : HashesNothing s) :
    handleSessionSetupRound (unframed header flags nextCommand) request body message s =
      handleSessionSetupRound header request body message' s := by
  unfold handleSessionSetupRound
  rw [lookupReauthSession_unframed]
  refine (lookupReauthSession_keeps header).bind_congr (fun existing s hs => ?_) hs
  refine (authenticateToken_keeps header _).bind_congr (fun result s hs => ?_) hs
  cases result with
  | success user sessionKey responseToken =>
    exact sessionSetupSuccess_unframed header flags nextCommand request message message'
      existing user sessionKey responseToken hs
  | «continue» responseToken =>
    simp only [sessionSetupContinue, bind_apply, Proc.get, Prog.ret_bind, HashesNothing.beq hs]
    rfl
  | failure reason => rfl

theorem handleSessionSetup_unframed (body : Bytes)
    (hreads : ¬ ReadsMessage s .sessionSetup body) :
    handleSessionSetup (unframed header flags nextCommand) body message s =
      handleSessionSetup header body message' s := by
  have hs : HashesNothing s := fun h => hreads ⟨rfl, .inl h⟩
  unfold handleSessionSetup
  cases hread : SessionSetupRequest.read body with
  | none => rfl
  | some request =>
    have hbind : request.isBinding = false := by
      cases h : request.isBinding with
      | false => rfl
      | true => exact absurd ⟨rfl, .inr (by rw [hread]; exact h)⟩ hreads
    simp only [parsed, Proc.pure_bind, hbind, Bool.false_eq_true, if_false]
    exact handleSessionSetupRound_unframed header flags nextCommand request message message' body hs

end SessionSetup

/-! ### All commands -/

/-- **Handlers do not read the framing** of a command. -/
theorem handleCommand_unframed (body message message' : Bytes) {s : ConnectionHandler}
    (hreads : ¬ ReadsMessage s header.command body) :
    handleCommand (unframed header flags nextCommand) body message s =
      handleCommand header body message' s := by
  obtain ⟨structureSize, creditCharge, status, command, _⟩ := header
  cases command with
  | negotiate =>
    exact congrFun (congrArg (some <$> ·)
      (handleNegotiate_unframed _ flags nextCommand body message message')) s
  | sessionSetup =>
    exact congrArg (Prog.bind · _)
      (handleSessionSetup_unframed _ flags nextCommand message message' body hreads)
  | close =>
    exact congrFun (congrArg (some <$> ·) (handleClose_unframed _ flags nextCommand body)) s
  | lock => exact congrFun (congrArg (some <$> ·) (handleLock_unframed _ flags nextCommand body)) s
  | _ => rfl

end RustSmb
