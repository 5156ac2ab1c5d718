import RustSmb.Server.Dispatch

/-!
# What handlers answer

A handler that succeeds answers the command it was given: the header of the response has
the message identifier and the command of the request.  Only CANCEL has no response, and only
SESSION_SETUP signs its response itself.

## Main results

* `Handler.handleCommand_makes` — **what a handler returns answers its command.**
-/

namespace RustSmb

open Response

/-- A response has the message identifier and the command of a request. -/
structure Response.Answers (request : Smb2Header) (r : Response) : Prop where
  messageId : r.header.messageId = request.messageId
  command : r.header.command = request.command
  signature : r.header.signature.length = 16

/-- A response repeats the charge of the request, is marked as a response and stands alone. -/
structure Response.Echoes (request : Smb2Header) (r : Response) : Prop
    extends Answers request r where
  creditCharge : r.header.creditCharge = request.creditCharge
  flags : Smb2Flags.isResponse r.header.flags = true
  nextCommand : r.header.nextCommand = 0

/-- A response as a handler makes it: it is not signed, except by SESSION_SETUP. -/
structure Response.Made (request : Smb2Header) (r : Response) : Prop extends Echoes request r where
  unsigned : request.command ≠ .sessionSetup → Smb2Flags.isSigned r.header.flags = false

namespace Handler

open Proc

variable [Externs] {header : Smb2Header} {body fullMessage : Bytes}

/-- A header makes a response of any body. -/
def HeaderFor (request respHeader : Smb2Header) : Prop :=
  ∀ body, Made request ⟨respHeader, body⟩

omit [Externs] in
theorem buildResponseHeader_answers {status : NtStatus} :
    Returns (HeaderFor header) (buildResponseHeader header status) :=
  returns_tail fun _ => returns_tail fun _ => returns_pure fun _ =>
    ⟨⟨⟨rfl, rfl, rfl⟩, rfl, Smb2Flags.isResponse_serverToRedir, rfl⟩,
      fun _ => Smb2Flags.isSigned_serverToRedir⟩

omit [Externs] in
/-- The header may name another session and another tree. -/
theorem HeaderFor.made {respHeader : Smb2Header} (h : HeaderFor header respHeader)
    (sessionId : UInt64) (treeId : UInt32) (body : Bytes) :
    Made header ⟨{ respHeader with sessionId := sessionId, treeId := treeId }, body⟩ := by
  obtain ⟨⟨⟨hid, hcom, hsig⟩, hcharge, hflags, hnext⟩, hunsign⟩ := h body
  exact ⟨⟨⟨hid, hcom, hsig⟩, hcharge, hflags, hnext⟩, hunsign⟩

omit [Externs] in
theorem respond_answers : Returns (Made header) (respond header body) :=
  returns_bind buildResponseHeader_answers fun _ h => returns_pure (h body)

/-! ### Sessions and trees -/

theorem handleNegotiate_answers :
    Returns (Made header) (handleNegotiate header body fullMessage) := by
  iterate 4 refine returns_tail fun _ => ?_
  refine returns_bind buildResponseHeader_answers fun _ h => ?_
  exact returns_tail fun _ => returns_tail fun _ => returns_tail fun _ => returns_pure (h _)

theorem sessionSetupResponse_answers (hcom : header.command = .sessionSetup) {sessionId : UInt64}
    {user : UserInfo} {retained : Option Bytes} {sessionKey : Bytes} {responseToken : Option Bytes}
    {dialect : SmbDialect} :
    Returns (Made header) (sessionSetupResponse header sessionId user retained
      sessionKey responseToken dialect) := by
  refine returns_bind buildResponseHeader_answers fun respHeader h => ?_
  refine returns_tail fun _ => returns_tail fun _ => returns_tail fun _ => returns_pure ?_
  obtain ⟨⟨⟨hid, hsame, hsig⟩, hcharge, hflags, hnext⟩, hunsign⟩ := h []
  split
  · exact ⟨⟨⟨hid, hsame, length_computeSignature _ _⟩, hcharge,
      Smb2Flags.mask_or _ Smb2Flags.isResponse_serverToRedir, hnext⟩, absurd hcom⟩
  · exact ⟨⟨⟨hid, hsame, hsig⟩, hcharge, hflags, hnext⟩, hunsign⟩

theorem sessionSetupContinue_answers {existing : Option SessionState} {responseToken : Bytes} :
    Returns (Made header) (sessionSetupContinue header fullMessage existing responseToken) := by
  iterate 3 refine returns_tail fun _ => ?_
  refine returns_bind buildResponseHeader_answers fun _ h => ?_
  exact returns_tail fun _ => returns_pure (h.made _ _ _)

theorem handleSessionBinding_answers :
    Returns (Made header) (handleSessionBinding header fullMessage) := by
  iterate 12 refine returns_tail fun _ => ?_
  refine returns_tail fun _ => returns_bind buildResponseHeader_answers fun _ h => ?_
  exact returns_pure (h.made _ _ _)

theorem handleSessionSetup_answers (hcom : header.command = .sessionSetup) :
    Returns (Made header) (handleSessionSetup header body fullMessage) := by
  refine returns_tail fun request => ?_
  split
  · exact handleSessionBinding_answers
  · refine returns_tail fun _ => returns_tail fun result => ?_
    split
    · iterate 7 refine returns_tail fun _ => ?_
      exact sessionSetupResponse_answers hcom
    · exact sessionSetupContinue_answers
    · exact returns_throw

omit [Externs] in
theorem handleLogoff_answers : Returns (Made header) (handleLogoff header) :=
  returns_tail fun _ => returns_tail fun _ => returns_tail fun _ => returns_tail fun _ =>
    respond_answers

theorem handleTreeConnect_answers :
    Returns (Made header) (handleTreeConnect header body) := by
  iterate 6 refine returns_tail fun _ => ?_
  refine returns_bind buildResponseHeader_answers fun _ h => ?_
  exact returns_pure (h.made _ _ _)

omit [Externs] in
theorem handleTreeDisconnect_answers :
    Returns (Made header) (handleTreeDisconnect header) :=
  returns_tail fun _ => returns_tail fun _ => returns_tail fun _ => respond_answers

/-! ### Files -/

theorem createResponse_answers :
    Returns (fun r => HeaderFor header r.1) (createResponse header body) := by
  iterate 2 refine returns_tail fun _ => ?_
  dsimp only
  split
  · unfold durableReconnect
    iterate 10 refine returns_tail fun _ => ?_
    refine returns_bind buildResponseHeader_answers fun _ h => ?_
    exact returns_tail fun _ => returns_tail fun _ => returns_pure h
  · unfold openFile
    iterate 13 refine returns_tail fun _ => ?_
    refine returns_bind buildResponseHeader_answers fun _ h => ?_
    exact returns_tail fun _ => returns_tail fun _ => returns_pure h

theorem handleCreate_answers : Returns (Made header) (handleCreate header body) :=
  returns_bind createResponse_answers fun _ h => returns_pure (h _)

theorem handleClose_answers : Returns (Made header) (handleClose header body) := by
  iterate 6 refine returns_tail fun _ => ?_
  exact respond_answers

theorem handleRead_answers : Returns (Made header) (handleRead header body) := by
  iterate 3 refine returns_tail fun _ => ?_
  unfold readHandle
  iterate 8 refine returns_tail fun _ => ?_
  exact respond_answers

theorem handleWrite_answers : Returns (Made header) (handleWrite header body) := by
  iterate 3 refine returns_tail fun _ => ?_
  unfold writeHandle
  iterate 3 refine returns_tail fun _ => ?_
  exact respond_answers

theorem handleLock_answers : Returns (Made header) (handleLock header body) := by
  iterate 3 refine returns_tail fun _ => ?_
  unfold lockHandle
  iterate 4 refine returns_tail fun _ => ?_
  exact respond_answers

omit [Externs] in
theorem ioctlRespond_answers {status : NtStatus} {output : Bytes} :
    Returns (Made header) (ioctlRespond header body status output) :=
  returns_bind buildResponseHeader_answers fun _ h => returns_pure (h _)

theorem performCopy_answers {copy : CopychunkRequest} {source target : HandleState} :
    Returns (Made header) (performCopy header body copy source target) := by
  unfold performCopy
  iterate 3 refine returns_tail fun _ => ?_
  dsimp only
  split
  · exact ioctlRespond_answers
  · exact returns_tail fun _ => ioctlRespond_answers

theorem handleCopychunk_answers {isWriteVariant : Bool} :
    Returns (Made header) (handleCopychunk header body isWriteVariant) := by
  unfold handleCopychunk
  iterate 4 refine returns_tail fun _ => ?_
  split
  · generalize copychunkHandles header _ _ isWriteVariant = handles
    exact returns_tail fun _ => performCopy_answers
  · exact ioctlRespond_answers

theorem handleIoctl_answers : Returns (Made header) (handleIoctl header body) := by
  iterate 2 refine returns_tail fun _ => ?_
  dsimp only
  split
  · unfold handleValidateNegotiateInfo
    iterate 6 refine returns_tail fun _ => ?_
    exact ioctlRespond_answers
  split
  · exact returns_tail fun _ => returns_tail fun _ => ioctlRespond_answers
  split
  · exact handleCopychunk_answers
  split
  · exact handleCopychunk_answers
  · exact returns_throw

theorem handleQueryDirectory_answers :
    Returns (Made header) (handleQueryDirectory header body) := by
  iterate 3 refine returns_tail fun _ => ?_
  unfold queryDirectoryHandle
  iterate 3 refine returns_tail fun _ => ?_
  exact respond_answers

theorem handleQueryInfo_answers :
    Returns (Made header) (handleQueryInfo header body) := by
  iterate 5 refine returns_tail fun _ => ?_
  unfold queryInfoHandle
  iterate 3 refine returns_tail fun _ => ?_
  exact respond_answers

theorem handleSetInfo_answers : Returns (Made header) (handleSetInfo header body) := by
  iterate 4 refine returns_tail fun _ => ?_
  unfold setInfoHandle
  iterate 3 refine returns_tail fun _ => ?_
  exact respond_answers

omit [Externs] in
theorem handleOplockBreak_answers :
    Returns (Made header) (handleOplockBreak header body) := by
  refine returns_tail fun _ => ?_
  split
  · unfold handleOplockBreakAck
    iterate 6 refine returns_tail fun _ => ?_
    exact respond_answers
  split
  · unfold handleLeaseBreakAck
    refine returns_tail fun _ => returns_tail fun result => ?_
    split
    · exact returns_throw
    · exact returns_throw
    · exact returns_tail fun _ => respond_answers
  · exact returns_throw

/-! ### All commands -/

/-- An outcome answers a command: with a response, unless the command is CANCEL. -/
def OutcomeFor (request : Smb2Header) : Option Response → Prop
  | some r => r.Answers request ∧ request.command ≠ .cancel
  | none => request.command = .cancel

/-- An outcome answers a command with a response that repeats its charge. -/
def EchoFor (request : Smb2Header) : Option Response → Prop
  | some r => r.Echoes request ∧ request.command ≠ .cancel
  | none => request.command = .cancel

/-- An outcome answers a command with a response as a handler makes it. -/
def MadeFor (request : Smb2Header) : Option Response → Prop
  | some r => r.Made request ∧ request.command ≠ .cancel
  | none => request.command = .cancel

omit [Externs] in
theorem some_madeFor {x : Handler Response} {c : Smb2Command} (hcom : header.command = c)
    (hx : Returns (Made header) x) (hc : c ≠ .cancel := by decide) :
    Returns (MadeFor header) (some <$> x) :=
  returns_map (hx.mono fun _ h => ⟨h, hcom.trans_ne hc⟩)

/-- **What a handler returns answers its command.** -/
theorem handleCommand_makes :
    Returns (MadeFor header) (handleCommand header body fullMessage) := by
  unfold handleCommand
  split
  case h_1 h => exact some_madeFor h handleNegotiate_answers
  case h_2 h => exact some_madeFor h (handleSessionSetup_answers h)
  case h_3 h => exact some_madeFor h handleLogoff_answers
  case h_4 h => exact some_madeFor h handleTreeConnect_answers
  case h_5 h => exact some_madeFor h handleTreeDisconnect_answers
  case h_6 h => exact some_madeFor h handleCreate_answers
  case h_7 h => exact some_madeFor h handleClose_answers
  case h_8 h => exact some_madeFor h respond_answers
  case h_9 h => exact some_madeFor h handleRead_answers
  case h_10 h => exact some_madeFor h handleWrite_answers
  case h_11 h => exact some_madeFor h handleLock_answers
  case h_12 h => exact some_madeFor h handleIoctl_answers
  case h_13 h => exact returns_pure h
  case h_14 h => exact some_madeFor h respond_answers
  case h_15 h => exact some_madeFor h handleQueryDirectory_answers
  case h_16 h => exact returns_throw
  case h_17 h => exact some_madeFor h handleQueryInfo_answers
  case h_18 h => exact some_madeFor h handleSetInfo_answers
  case h_19 h => exact some_madeFor h handleOplockBreak_answers

theorem dispatchCommand_makes {received : Bytes} :
    Returns (MadeFor header) (dispatchCommand received header body fullMessage) := by
  unfold dispatchCommand
  iterate 4 refine returns_tail fun _ => ?_
  exact returns_lift handleCommand_makes

theorem dispatchCommand_echoes {received : Bytes} :
    Returns (EchoFor header) (dispatchCommand received header body fullMessage) :=
  dispatchCommand_makes.mono fun outcome h => by
    cases outcome with
    | none => exact h
    | some r => exact ⟨h.1.toEchoes, h.2⟩

theorem dispatchCommand_answers {received : Bytes} :
    Returns (OutcomeFor header) (dispatchCommand received header body fullMessage) :=
  dispatchCommand_echoes.mono fun outcome h => by
    cases outcome with
    | none => exact h
    | some r => exact ⟨h.1.toAnswers, h.2⟩

end Handler

end RustSmb
