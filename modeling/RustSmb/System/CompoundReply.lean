import RustSmb.Server.Answers
import RustSmb.Server.Combined
import RustSmb.System.Run

/-!
# The reply to a compound

The commands of a compound are processed in turn, and the responses are combined into one reply.
Two things go wrong in a related compound after a failure.  If the first command fails, no session
and no tree are recorded, so that a later command that inherits them ends the loop: all is answered
by a single error.  And a CANCEL is answered with the error of the command before it.

Calls may be answered by anything here, so that the results hold in every environment.

## Main results

* `compound_answered_iff` — **exactly when a reply answers all commands in turn.**
* `reply_of_responses` — the reply is made of the responses.
* `lost_response` — a compound whose CREATE fails.
-/

namespace RustSmb

open List Option Smb2Header Handler Proc

variable {st : CompoundState} {response : Bytes}

/-! ### Commands and responses -/

def isCancel (cmd : Bytes) : Bool := (Smb2Header.read cmd).any fun h => h.command == .cancel

/-- The commands that are owed a response. -/
def toAnswer (cmds : List Bytes) : List Bytes := cmds.filter fun cmd => !isCancel cmd

/-- Only responses with a whole header are placed. -/
def completeOnes (responses : List Bytes) : List Bytes :=
  responses.filter fun r => SMB2_HEADER_SIZE ≤ r.length

/-- A response answers a command: it is complete and has its message identifier. -/
structure AnswersTo (cmd response : Bytes) : Prop where
  complete : SMB2_HEADER_SIZE ≤ response.length
  messageId : ∀ header, Smb2Header.read cmd = some header → response.u64 24 = header.messageId

/-- The header, the kind and the commands of a compound that the server accepts. -/
def compoundParts (message : Bytes) : Option (Smb2Header × Bool × List Bytes) :=
  match Smb2Header.read message with
  | none => none
  | some header =>
      if header.nextCommand = 0 then none
      else
        match parseCompoundOffsets message with
        | _ :: second :: rest =>
            (Smb2Header.read (message.drop second)).map fun secondHeader =>
              (header, Smb2Flags.isRelated secondHeader.flags,
                compoundCommands message (0 :: second :: rest))
        | _ => none

/-- A command inherits a session or a tree that is not recorded. -/
def Unresolved (st : CompoundState) (cmd : Bytes) : Prop :=
  ∃ header, Smb2Header.read cmd = some header ∧
    (st.ctx.resolveSessionId header.sessionId = none ∨ st.ctx.resolveTreeId header.treeId = none)

instance (st : CompoundState) (cmd : Bytes) : Decidable (Unresolved st cmd) :=
  Option.decidableExistsMem (Smb2Header.read cmd)

/-- A cancel that inherits an error gets a response. -/
def CancelAfterError (st : CompoundState) (cmd : Bytes) : Prop :=
  isCancel cmd = true ∧ (inheritedError st).isSome = true

/-- Everything that a command can inherit is recorded. -/
structure Recorded (st : CompoundState) : Prop where
  session : st.ctx.sessionId.isSome = true
  tree : st.ctx.treeId.isSome = true

theorem Recorded.not_unresolved (h : Recorded st) (cmd : Bytes) :
    ¬ Unresolved st cmd := by
  rintro ⟨header, -, hnone | hnone⟩
  · unfold CompoundContext.resolveSessionId at hnone
    split at hnone
    · cases hnone
    split at hnone
    · have hsess := h.session
      rw [hnone] at hsess
      cases hsess
    · cases hnone
  · unfold CompoundContext.resolveTreeId at hnone
    split at hnone
    · cases hnone
    split at hnone
    · have htree := h.tree
      rw [hnone] at htree
      cases htree
    · cases hnone

section Environment

theorem answersTo_bytes {r : Response} (hsig : r.header.signature.length = 16)
    (hid : ∀ header, read cmd = some header → r.header.messageId = header.messageId) :
    AnswersTo cmd r.bytes := by
  refine ⟨?_, fun header hread => ?_⟩
  · rw [Response.bytes, length_append, length_write hsig, SMB2_HEADER_SIZE]
    omega
  · rw [Response.bytes, messageId_of_read (read_write hsig r.body)]
    exact hid header hread

theorem answersTo_errorResponse {status : NtStatus} {sessionId : UInt64} {treeId : UInt32}
    (hid : ∀ h, read cmd = some h → header.messageId = h.messageId) :
    AnswersTo cmd (errorResponse header status sessionId treeId).bytes :=
  answersTo_bytes rfl hid

theorem compoundParts_first (hparts : compoundParts message = some (header, isRelated, cmds)) :
    ∃ first second rest tail, cmds = first :: second :: rest ∧ message = first ++ tail ∧
      read message = some header := by
  unfold compoundParts at hparts
  split at hparts
  · cases hparts
  · next header' hread =>
    split at hparts
    · cases hparts
    split at hparts
    · next _ second rest _ =>
      obtain ⟨secondHeader, -, heq⟩ := map_eq_some_iff.1 hparts
      cases heq
      have hcmds : ∃ cmd' cmds', compoundCommands message (second :: rest) = cmd' :: cmds' := by
        cases rest with
        | nil | cons _ _ => exact ⟨_, _, rfl⟩
      obtain ⟨cmd', cmds', hcmds⟩ := hcmds
      refine ⟨message.slice 0 (second - 0), cmd', cmds', message.drop second, ?_, ?_, hread⟩
      · rw [compoundCommands, hcmds]
      · simp [Bytes.slice]
    · cases hparts

theorem answersTo_first {first tail : Bytes} (hmsg : message = first ++ tail)
    (hread : read message = some header) (e : HandlerError) :
    AnswersTo first (errorResponse header e.toStatus header.sessionId header.treeId).bytes := by
  refine answersTo_errorResponse fun h hh => ?_
  have hlen : 64 ≤ first.length := read_isSome_length hh
  rw [← messageId_of_read hread, ← messageId_of_read hh, hmsg,
    Bytes.u64_append_left tail (by omega)]

variable [Externs] {W : Type}

section Steps

variable (answer : (o : SmbT.Op) → W → SmbT.Res o × W)

/-- Something holds before some step of the loop over the commands. -/
def SomeStep (Q : CompoundState → Bytes → Prop) :
    List Bytes → CompoundState → ConnectionHandler → W → Prop
  | [], _, _, _ => False
  | cmd :: rest, st, s, w => Q st cmd ∨
      match Proc.run answer (processCompoundCommand st cmd) s w with
      | (.ok (_, st'), s', w') => SomeStep Q rest st' s' w'
      | (.error _, _, _) => False

instance {Q : CompoundState → Bytes → Prop} [∀ st cmd, Decidable (Q st cmd)] (cmds : List Bytes)
    (st : CompoundState) (s : ConnectionHandler) (w : W) :
    Decidable (SomeStep answer Q cmds st s w) := by
  induction cmds generalizing st s w with
  | nil => exact isFalse id
  | cons cmd rest ih =>
    refine @instDecidableOr _ _ _ ?_
    split <;> infer_instance

/-- The responses that go into the reply: those that are complete, or one error. -/
def compoundResponses (header : Smb2Header) (isRelated : Bool) (cmds : List Bytes)
    (s : ConnectionHandler) (w : W) : List Bytes :=
  match (Proc.run answer
      (processCompoundCommands cmds ⟨{ related := isRelated }, none⟩) s w).1 with
  | .ok responses => completeOnes responses
  | .error e => [(errorResponse header e.toStatus header.sessionId header.treeId).bytes]

end Steps

/-! ### One step -/

section Step

variable (answer : (o : SmbT.Op) → W → SmbT.Res o × W) (s : ConnectionHandler) (w : W)
  {header : Smb2Header} {cmd : Bytes}

theorem AnswersTo.sign (h : AnswersTo cmd response) (signingKeys : Table UInt64 Bytes) :
    AnswersTo cmd (maybeSignResponse signingKeys response) := by
  obtain ⟨hlen, hbytes⟩ := maybeSignResponse_keeps signingKeys response
  refine ⟨hlen ▸ h.complete, fun header hread => ?_⟩
  rw [Bytes.u64_congr fun i hi => hbytes (24 + i) (by omega)]
  exact h.messageId header hread

/-- What a step leaves: a response, unless the command is a CANCEL that inherits no error. -/
structure StepResult (st : CompoundState) (cmd response : Bytes) (st' : CompoundState) : Prop where
  answers : ¬ (isCancel cmd = true ∧ inheritedError st = none) → AnswersTo cmd response
  silent : isCancel cmd = true → inheritedError st = none → response = []
  recorded : Recorded st → Recorded st'
  first : isCancel cmd = true → st.ctx.isFirst = true → Recorded st'

theorem compoundError_run (st : CompoundState) (status : NtStatus)
    (hid : ∀ h, read cmd = some h → header.messageId = h.messageId)
    (hcanc : ¬ (isCancel cmd = true ∧ inheritedError st = none)) :
    ∃ response st', run answer (compoundError st header status) s w =
      (.ok (response, st'), s, w) ∧ StepResult st cmd response st' := by
  refine ⟨_, _, rfl, fun _ => (answersTo_errorResponse hid).sign _, fun hc hi => ?_, ?_, ?_⟩
  · exact absurd ⟨hc, hi⟩ hcanc
  · exact fun h => ⟨h.session, h.tree⟩
  · intro hc hfirst
    refine absurd ⟨hc, ?_⟩ hcanc
    unfold inheritedError
    rw [hfirst]
    simp

theorem dispatchCommandCompound_cancel (hcom : header.command = .cancel)
    (fullMessage : Bytes) (ctx : CompoundContext) :
    ∃ w', run answer (dispatchCommandCompound header fullMessage ctx) s w =
      (.ok ([], none), s, w') := by
  have hgate : gate header = pure () := by
    unfold gate sessionGate treeGate
    rw [hcom]
    rfl
  have hhdl : ∀ body full, handleCommand header body full = pure none := by
    intro body full
    unfold handleCommand
    rw [hcom]
  have hcre : ∀ bytes, createdFileId header.command bytes = none := by
    intro bytes
    rw [hcom]
    rfl
  unfold dispatchCommandCompound dispatchCommand
  simp only [hgate, hhdl, hcre]
  exact ⟨_, rfl⟩

omit [Externs] in
/-- Taking the charge succeeds and changes nothing but the credits. -/
theorem consumeCredits_run (header : Smb2Header) :
    ∃ s', run answer (consumeCredits header) s w = (.ok (), s', w) ∧
      ∃ credits, s' = { s with connection := { s.connection with credits } } := by
  unfold consumeCredits
  rw [run_when]
  split
  · exact ⟨_, rfl, _, rfl⟩
  · exact ⟨_, rfl, _, rfl⟩

theorem executeCompoundCommand_run (st : CompoundState) {parsedHeader : Smb2Header}
    (hread : read cmd = some parsedHeader)
    (hid : header.messageId = parsedHeader.messageId)
    (hcom : header.command = parsedHeader.command) (hinh : inheritedError st = none) :
    ∃ response st' s' w', run answer (executeCompoundCommand st header cmd) s w =
      (.ok (response, st'), s', w') ∧ StepResult st cmd response st' := by
  have hid' : ∀ h, read cmd = some h → header.messageId = h.messageId := by
    intro h hh
    rw [hread] at hh
    cases hh
    exact hid
  have hiff : isCancel cmd = true ↔ header.command = .cancel := by
    unfold isCancel
    rw [hread, any_some, beq_iff_eq, hcom]
  unfold executeCompoundCommand
  obtain ⟨s₁, hcredits, -⟩ := consumeCredits_run answer s w header
  rw [run_bind_ok hcredits]
  obtain ⟨outcome, s₂, w₂, hrun⟩ : ∃ outcome s₂ w₂,
      run answer (dispatchCommandCompound header cmd st.ctx) s₁ w = (outcome, s₂, w₂) :=
    ⟨_, _, _, rfl⟩
  rw [run_bind_ok (run_attempt_of hrun)]
  cases outcome with
  | error e =>
    -- a cancel that runs never fails
    have hcanc : ¬ (isCancel cmd = true ∧ inheritedError st = none) := by
      rintro ⟨hc, -⟩
      obtain ⟨w', hok⟩ := dispatchCommandCompound_cancel answer s₁ w (hiff.1 hc) cmd st.ctx
      rw [hok] at hrun
      cases hrun
    obtain ⟨response, st', hrun', hstep⟩ := compoundError_run answer s₂ w₂ st e.toStatus hid' hcanc
    exact ⟨response, st', s₂, w₂, hrun', hstep⟩
  | ok r =>
    have hret : Returns (fun r => ∃ o, OutcomeFor header o ∧ r.1 = responseBytes o)
        (dispatchCommandCompound header cmd st.ctx) :=
      returns_bind dispatchCommand_answers fun outcome h => returns_pure ⟨outcome, h, rfl⟩
    obtain ⟨o, hout, hbytes⟩ := hret.run hrun
    obtain ⟨response, fileId⟩ := r
    subst hbytes
    refine ⟨_, _, s₂, w₂, rfl, fun hcanc => ?_, fun hcanc _ => ?_, fun hrecd => ?_,
      fun _ hfirst => ?_⟩
    · cases o with
      | none => exact absurd ⟨hiff.2 hout, hinh⟩ hcanc
      | some r =>
        refine (answersTo_bytes hout.1.signature fun h hh => ?_).sign _
        rw [hout.1.messageId, hid' h hh]
    · cases o with
      | none => rfl
      | some r => exact absurd (hiff.1 hcanc) hout.2
    · dsimp only
      split
      · exact ⟨rfl, rfl⟩
      · exact ⟨hrecd.session, hrecd.tree⟩
    · dsimp only
      rw [if_pos hfirst]
      exact ⟨rfl, rfl⟩

omit [Externs] in
/-- The header that a command is processed with, unless it inherits what is not recorded. -/
theorem effectiveHeader_run (st : CompoundState) (header : Smb2Header) :
    ((st.ctx.resolveSessionId header.sessionId = none ∨ st.ctx.resolveTreeId header.treeId = none) ∧
      run answer (effectiveHeader st header) s w = (.error (.status .invalidParameter), s, w)) ∨
    (¬ (st.ctx.resolveSessionId header.sessionId = none ∨
        st.ctx.resolveTreeId header.treeId = none) ∧
      ∃ h', run answer (effectiveHeader st header) s w = (.ok h', s, w) ∧
        h'.messageId = header.messageId ∧ h'.command = header.command) := by
  unfold effectiveHeader
  split
  · unfold resolveRelatedHeader
    cases hsess : st.ctx.resolveSessionId header.sessionId with
    | none => exact .inl ⟨.inl rfl, rfl⟩
    | some sessionId =>
      cases htree : st.ctx.resolveTreeId header.treeId with
      | none => exact .inl ⟨.inr rfl, rfl⟩
      | some treeId => exact .inr ⟨by simp, _, rfl, rfl, rfl⟩
  · next hrelated =>
    refine .inr ⟨?_, header, rfl, rfl, rfl⟩
    have hplain : (!st.ctx.related || st.ctx.isFirst) = true := by
      cases hr : st.ctx.related <;> cases hf : st.ctx.isFirst <;> simp_all
    unfold CompoundContext.resolveSessionId CompoundContext.resolveTreeId
    rw [if_pos hplain, if_pos hplain]
    exact nofun

/-- **One step**: it ends the loop just if it inherits what is not recorded. -/
theorem processCompoundCommand_run (st : CompoundState) (cmd : Bytes) :
    (Unresolved st cmd ∧ ∃ e s' w',
      run answer (processCompoundCommand st cmd) s w = (.error e, s', w')) ∨
    (¬ Unresolved st cmd ∧ ∃ response st' s' w',
      run answer (processCompoundCommand st cmd) s w = (.ok (response, st'), s', w') ∧
        StepResult st cmd response st') := by
  unfold processCompoundCommand
  cases hread : read cmd with
  | none =>
    refine .inr ⟨?_, ?_⟩
    · rintro ⟨header, hhead, -⟩
      rw [hread] at hhead
      cases hhead
    · dsimp only
      generalize (mk _ _ _ .negotiate _ _ _ _ _ _ _ _) = placeholder
      have hid : ∀ h, read cmd = some h → placeholder.messageId = h.messageId := by
        rw [hread]
        exact nofun
      have hcanc : ¬ (isCancel cmd = true ∧ inheritedError st = none) := by
        unfold isCancel
        rw [hread]
        exact nofun
      obtain ⟨response, st', hrun, hstep⟩ :=
        compoundError_run answer s w st .invalidParameter hid hcanc
      exact ⟨response, st', s, w, hrun, hstep⟩
  | some header =>
    rcases effectiveHeader_run answer s w st header with
      ⟨hnone, hrun⟩ | ⟨hsome, h', hrun, hid, hcmd⟩
    · refine .inl ⟨⟨header, hread, hnone⟩, _, _, _, run_bind_error hrun⟩
    · refine .inr ⟨?_, ?_⟩
      · rintro ⟨h, hh, hnone⟩
        rw [hread] at hh
        cases hh
        exact hsome hnone
      · dsimp only
        rw [run_bind_ok hrun]
        cases hinh : inheritedError st with
        | none => exact executeCompoundCommand_run answer s w st hread hid hcmd hinh
        | some status =>
          have hid' : ∀ h, read cmd = some h → h'.messageId = h.messageId := by
            intro h hh
            rw [hread] at hh
            cases hh
            exact hid
          obtain ⟨response, st', hrun', hstep⟩ := compoundError_run answer s w st status hid'
            (by rw [hinh]; exact nofun)
          exact ⟨response, st', s, w, hrun', hstep⟩

/-! ### The loop -/

theorem someStep_cons {Q : CompoundState → Bytes → Prop} {s s' : ConnectionHandler} {w w' : W}
    {rest : List Bytes} {st' : CompoundState}
    (hrun : run answer (processCompoundCommand st cmd) s w = (.ok (response, st'), s', w')) :
    SomeStep answer Q (cmd :: rest) st s w ↔ Q st cmd ∨ SomeStep answer Q rest st' s' w' := by
  rw [SomeStep, hrun]

omit [Externs] in
theorem StepResult.extend {st' : CompoundState} (hstep : StepResult st cmd response st')
    {rest responses : List Bytes} {later : Prop}
    (hlen : (toAnswer rest).length ≤ (completeOnes responses).length)
    (hiff : List.Forall₂ AnswersTo (toAnswer rest) (completeOnes responses) ↔ ¬ later) :
    (toAnswer (cmd :: rest)).length ≤ (completeOnes (response :: responses)).length ∧
      (List.Forall₂ AnswersTo (toAnswer (cmd :: rest)) (completeOnes (response :: responses)) ↔
        ¬ (CancelAfterError st cmd ∨ later)) := by
  by_cases hsilent : isCancel cmd = true ∧ inheritedError st = none
  · -- a CANCEL without a response
    obtain ⟨hcanc, hnone⟩ := hsilent
    have hcmds : toAnswer (cmd :: rest) = toAnswer rest := by simp [toAnswer, hcanc]
    have hresps : completeOnes (response :: responses) = completeOnes responses := by
      rw [hstep.silent hcanc hnone]
      rfl
    have hno : ¬ CancelAfterError st cmd := fun h => by
      rw [CancelAfterError, hnone] at h
      exact absurd h.2 (by decide)
    rw [hcmds, hresps, or_iff_right hno]
    exact ⟨hlen, hiff⟩
  · have hanswers := hstep.answers hsilent
    have hresps : completeOnes (response :: responses) = response :: completeOnes responses :=
      filter_cons_of_pos (by simpa using hanswers.complete)
    rw [hresps]
    by_cases hcanc : isCancel cmd = true
    · -- a CANCEL with a response: there are too many of them
      have hcmds : toAnswer (cmd :: rest) = toAnswer rest := by simp [toAnswer, hcanc]
      have herror : CancelAfterError st cmd := by
        refine ⟨hcanc, isSome_iff_ne_none.2 fun hnone => hsilent ⟨hcanc, hnone⟩⟩
      rw [hcmds]
      refine ⟨Nat.le_succ_of_le hlen, iff_of_false (fun h => ?_) fun h => h (.inl herror)⟩
      have := h.length_eq
      rw [length_cons] at this
      omega
    · have hcmds : toAnswer (cmd :: rest) = cmd :: toAnswer rest :=
        filter_cons_of_pos (by simpa using hcanc)
      have hno : ¬ CancelAfterError st cmd := fun h => hcanc h.1
      rw [hcmds, forall₂_cons, or_iff_right hno, length_cons, length_cons]
      exact ⟨Nat.succ_le_succ hlen, (and_iff_right hanswers).trans hiff⟩

/-- **The loop** ends early just if a step inherits what is not recorded, and else answers all
commands in turn just if no CANCEL inherits an error. -/
theorem processCompoundCommands_run (cmds : List Bytes) (st : CompoundState) :
    (SomeStep answer Unresolved cmds st s w ∧ ∃ e s' w',
      run answer (processCompoundCommands cmds st) s w = (.error e, s', w')) ∨
    (¬ SomeStep answer Unresolved cmds st s w ∧ ∃ responses s' w',
      run answer (processCompoundCommands cmds st) s w = (.ok responses, s', w') ∧
      (toAnswer cmds).length ≤ (completeOnes responses).length ∧
      (List.Forall₂ AnswersTo (toAnswer cmds) (completeOnes responses) ↔
        ¬ SomeStep answer CancelAfterError cmds st s w)) := by
  induction cmds generalizing st s w with
  | nil => exact .inr ⟨id, [], s, w, rfl, Nat.le_refl _, iff_of_true .nil id⟩
  | cons cmd rest ih =>
    rw [processCompoundCommands]
    rcases processCompoundCommand_run answer s w st cmd with
      ⟨hnone, e, s', w', hrun⟩ | ⟨hsome, response, st', s₁, w₁, hrun, hstep⟩
    · exact .inl ⟨.inl hnone, e, s', w', run_bind_error hrun⟩
    · rw [run_bind_ok hrun, someStep_cons answer hrun, someStep_cons answer hrun]
      rcases ih s₁ w₁ st' with
        ⟨hstop, e, s', w', hrest⟩ | ⟨hgo, responses, s', w', hrest, hlen, hiff⟩
      · exact .inl ⟨.inr hstop, e, s', w', run_bind_error hrest⟩
      · refine .inr ⟨not_or.2 ⟨hsome, hgo⟩, response :: responses, s', w', ?_, ?_⟩
        · rw [run_bind_ok hrest]
          rfl
        · exact hstep.extend hlen hiff

theorem Recorded.not_someStep (h : Recorded st) (cmds : List Bytes) :
    ¬ SomeStep answer Unresolved cmds st s w := by
  induction cmds generalizing st s w with
  | nil => exact id
  | cons cmd rest ih =>
    rcases processCompoundCommand_run answer s w st cmd with
      ⟨hnone, -⟩ | ⟨hsome, response, st', s₁, w₁, hrun, hstep⟩
    · exact absurd hnone (h.not_unresolved cmd)
    · rw [someStep_cons answer hrun]
      exact not_or.2 ⟨hsome, ih s₁ w₁ (hstep.recorded h)⟩

theorem not_someStep_of_isCancel {isRelated : Bool} {rest : List Bytes}
    (hcanc : isCancel cmd = true) :
    ¬ SomeStep answer Unresolved (cmd :: rest) ⟨{ related := isRelated }, none⟩ s w := by
  rcases processCompoundCommand_run answer s w ⟨{ related := isRelated }, none⟩ cmd with
    ⟨⟨header, -, hnone⟩, -⟩ | ⟨hsome, response, st', s₁, w₁, hrun, hstep⟩
  · cases isRelated <;> rcases hnone with h | h <;> cases h
  · rw [someStep_cons answer hrun]
    exact not_or.2 ⟨hsome, (hstep.first hcanc rfl).not_someStep answer s₁ w₁ rest⟩

end Step

/-! ### Pieces of a reply -/

/-- A piece of a reply is a response up to its flags, its distance to the next, its signature and
bytes after it. -/
def Reframed (response piece : Bytes) : Prop :=
  response.length ≤ piece.length ∧ ∀ i < response.length,
    i < 16 ∨ (24 ≤ i ∧ i < 48) ∨ 64 ≤ i → piece.getD i 0 = response.getD i 0

variable (signingKeys : Table UInt64 Bytes)

theorem placeResponse_piece (isRelated isLast : Bool) (response : Bytes) :
    ∃ pieces, placeResponse signingKeys isRelated isLast response = pieces.flatten ∧
      List.Forall₂ Reframed (completeOnes [response]) pieces := by
  by_cases h : SMB2_HEADER_SIZE ≤ response.length
  · refine ⟨[placeResponse signingKeys isRelated isLast response], by simp, ?_⟩
    rw [completeOnes, filter_cons_of_pos (by simpa using h)]
    have hframed := framed_placeResponse signingKeys isRelated isLast h
    obtain ⟨n, -, hlen, -⟩ := hframed.padded
    exact .cons ⟨by omega, hframed.bytes⟩ .nil
  · refine ⟨[], if_pos (Nat.lt_of_not_le h), ?_⟩
    rw [completeOnes, filter_cons_of_neg (by simpa using h)]
    exact .nil

theorem joinResponses_pieces (isRelated : Bool) (responses : List Bytes) :
    ∃ pieces, joinResponses signingKeys isRelated responses = pieces.flatten ∧
      List.Forall₂ Reframed (completeOnes responses) pieces := by
  fun_induction joinResponses signingKeys isRelated responses with
  | case1 => exact ⟨[], rfl, .nil⟩
  | case2 response => exact placeResponse_piece signingKeys isRelated true response
  | case3 response next rest ih =>
    obtain ⟨first, hfirst, hfirstAll⟩ := placeResponse_piece signingKeys isRelated false response
    obtain ⟨later, hlater, hlaterAll⟩ := ih
    refine ⟨first ++ later, by rw [hfirst, hlater, flatten_append], ?_⟩
    have hsplit : completeOnes (response :: next :: rest) =
        completeOnes [response] ++ completeOnes (next :: rest) := by
      rw [completeOnes, completeOnes, completeOnes, ← filter_append]
      rfl
    rw [hsplit]
    exact rel_append hfirstAll hlaterAll

theorem maybeSignResponse_pieces {responses pieces : List Bytes}
    (hcompl : ∀ r ∈ responses, SMB2_HEADER_SIZE ≤ r.length)
    (h : List.Forall₂ Reframed responses pieces) :
    ∃ pieces', maybeSignResponse signingKeys pieces.flatten = pieces'.flatten ∧
      List.Forall₂ Reframed responses pieces' := by
  cases h with
  | nil => exact ⟨[], rfl, .nil⟩
  | @cons response piece responses pieces hfirst hrest =>
    obtain ⟨hlen, hbytes⟩ := maybeSignResponse_keeps signingKeys (piece :: pieces).flatten
    have hpiece : 64 ≤ piece.length := Nat.le_trans (hcompl response mem_cons_self) hfirst.1
    generalize maybeSignResponse signingKeys (piece :: pieces).flatten = signed at hlen hbytes
    rw [flatten_cons] at hlen hbytes
    rw [length_append] at hlen
    refine ⟨signed.take piece.length :: pieces, ?_, .cons ⟨?_, fun i hi hfree => ?_⟩ hrest⟩
    · have hdrop : signed.drop piece.length = pieces.flatten := by
        refine Bytes.ext_getD (by rw [length_drop]; omega) fun i _ => ?_
        rw [Bytes.getD_drop, hbytes _ (by omega), getD_append_right _ _ _ _ (by omega)]
        congr 1
        omega
      rw [flatten_cons, ← hdrop, take_append_drop]
    · rw [length_take_of_le (by omega)]
      exact hfirst.1
    · have hi' : i < piece.length := Nat.lt_of_lt_of_le hi hfirst.1
      have htake : (signed.take piece.length).getD i 0 = signed.getD i 0 := by
        simp [getD_eq_getElem?_getD, hi']
      rw [htake, hbytes i (by omega), getD_append _ _ _ _ hi']
      exact hfirst.2 i hi hfree

/-! ### Accepted compounds -/

section Accepted

variable {message : Bytes} {header : Smb2Header} {isRelated : Bool} {cmds : List Bytes}

theorem processMessage_of_compoundParts
    (hparts : compoundParts message = some (header, isRelated, cmds)) :
    processMessage message = (processCompoundCommands cmds ⟨{ related := isRelated }, none⟩ >>=
      fun responses => get >>= fun s =>
        ofExcept (combineCompoundResponses s.signingKeys isRelated responses)) := by
  unfold compoundParts at hparts
  split at hparts
  · cases hparts
  · next header' hread =>
    split at hparts
    · cases hparts
    · next hnext =>
      split at hparts
      · next hoffsets =>
        obtain ⟨secondHeader, hsec, heq⟩ := map_eq_some_iff.1 hparts
        cases heq
        unfold processMessage processCompoundRequest
        rw [hread]
        show (if header.nextCommand ≠ 0 then _ else _) = _
        rw [if_pos hnext, hoffsets]
        dsimp only
        rw [hsec]
        rfl
      · cases hparts

theorem processCompoundCommands_length (cmds : List Bytes) (st : CompoundState) :
    Returns (fun responses => responses.length = cmds.length)
      (processCompoundCommands cmds st) := by
  induction cmds generalizing st with
  | nil => exact returns_pure rfl
  | cons cmd rest ih =>
    refine returns_tail fun r => returns_bind (ih r.2) fun responses h => returns_pure ?_
    rw [length_cons, length_cons, h]

variable (answer : (o : SmbT.Op) → W → SmbT.Res o × W) (s : ConnectionHandler) (w : W)

theorem signedReply_run (response : Bytes) :
    ∃ reply, run answer (if response.isEmpty then pure none else do
        let signed ← signResponse response
        pure (some signed)) s w = (.ok reply, s, w) ∧
      reply.getD [] = maybeSignResponse s.signingKeys response := by
  cases response with
  | nil => exact ⟨none, rfl, rfl⟩
  | cons b rest => exact ⟨_, rfl, rfl⟩

theorem compoundResponses_complete :
    ∀ r ∈ compoundResponses answer header isRelated cmds s w, SMB2_HEADER_SIZE ≤ r.length := by
  unfold compoundResponses
  split
  · exact fun r hr => by simpa using (mem_filter.1 hr).2
  · intro r hr
    rw [mem_singleton.1 hr, Response.bytes, length_append, length_write rfl]
    exact Nat.le_add_right 64 _

/-- The reply to a compound before it is signed: the responses of the loop, joined, or one error. -/
def compoundReplyBytes (signingKeys : Table UInt64 Bytes) (header : Smb2Header) (isRelated : Bool) :
    Except HandlerError (List Bytes) → Bytes
  | .ok responses => joinResponses signingKeys isRelated responses
  | .error e => (errorResponse header e.toStatus header.sessionId header.treeId).bytes

variable {answer s w} in
/-- The reply to a compound, from what the loop over its commands ends with. -/
theorem processAndRespond_compound
    (hparts : compoundParts message = some (header, isRelated, cmds))
    {outcome : Except HandlerError (List Bytes)} {s₁ : ConnectionHandler} {w₁ : W}
    (hloop : run answer (processCompoundCommands cmds ⟨{ related := isRelated }, none⟩) s w =
      (outcome, s₁, w₁)) :
    ∃ reply, run answer (processAndRespond message) s w = (.ok reply, s₁, w₁) ∧
      reply.getD [] = maybeSignResponse s₁.signingKeys
        (compoundReplyBytes s₁.signingKeys header isRelated outcome) := by
  obtain ⟨first, second, rest, tail, hcmds, -, hread⟩ := compoundParts_first hparts
  obtain ⟨reply, hreply, hsign⟩ := signedReply_run answer s₁ w₁
    (compoundReplyBytes s₁.signingKeys header isRelated outcome)
  refine ⟨reply, ?_, hsign⟩
  unfold processAndRespond
  rw [processMessage_of_compoundParts hparts]
  cases outcome with
  | error e =>
    have herror : run answer (orErrorResponse message (.error e)) s₁ w₁ =
        (.ok (errorResponse header e.toStatus header.sessionId header.treeId).bytes, s₁, w₁) := by
      unfold orErrorResponse
      rw [hread]
      rfl
    rw [run_bind_ok (run_attempt_of (run_bind_error hloop)), run_bind_ok herror]
    exact hreply
  | ok responses =>
    -- there are at least two responses, so they are joined
    have hcombine : combineCompoundResponses s₁.signingKeys isRelated responses =
        .ok (joinResponses s₁.signingKeys isRelated responses) := by
      have hlength := (processCompoundCommands_length cmds _).run hloop
      rw [hcmds, length_cons, length_cons] at hlength
      rcases responses with - | ⟨response, - | ⟨next, rest⟩⟩
      · rw [length_nil] at hlength
        omega
      · rw [length_singleton] at hlength
        omega
      · rfl
    have hproc : run answer (processCompoundCommands cmds ⟨{ related := isRelated }, none⟩
        >>= fun responses => get >>= fun s =>
          ofExcept (combineCompoundResponses s.signingKeys isRelated responses)) s w =
        (.ok (joinResponses s₁.signingKeys isRelated responses), s₁, w₁) := by
      rw [run_bind_ok hloop, run_bind_ok run_get, hcombine, run_ofExcept]
    rw [run_bind_ok (run_attempt_of hproc)]
    exact hreply

/-- **The reply is made of the responses**, in any environment. -/
theorem reply_of_responses (hparts : compoundParts message = some (header, isRelated, cmds)) :
    ∃ reply s' w' pieces, run answer (processAndRespond message) s w = (.ok reply, s', w') ∧
      (run answer
        (processCompoundCommands cmds ⟨{ related := isRelated }, none⟩) s w).2 = (s', w') ∧
      reply.getD [] = pieces.flatten ∧
      List.Forall₂ Reframed (compoundResponses answer header isRelated cmds s w) pieces := by
  have hcompl : ∀ r ∈ compoundResponses answer header isRelated cmds s w,
      SMB2_HEADER_SIZE ≤ r.length := compoundResponses_complete answer s w
  obtain ⟨outcome, s₁, w₁, hloop⟩ : ∃ outcome s₁ w₁, run answer
      (processCompoundCommands cmds ⟨{ related := isRelated }, none⟩) s w = (outcome, s₁, w₁) :=
    ⟨_, _, _, rfl⟩
  obtain ⟨reply, hrun, hreply⟩ := processAndRespond_compound hparts hloop
  obtain ⟨placed, hplaced, hframed⟩ : ∃ placed,
      compoundReplyBytes s₁.signingKeys header isRelated outcome = placed.flatten ∧
        List.Forall₂ Reframed (compoundResponses answer header isRelated cmds s w) placed := by
    unfold compoundResponses
    rw [hloop]
    cases outcome with
    | error e =>
      have hsame : Reframed (errorResponse header e.toStatus header.sessionId header.treeId).bytes
          (errorResponse header e.toStatus header.sessionId header.treeId).bytes :=
        ⟨Nat.le_refl _, fun _ _ _ => rfl⟩
      exact ⟨[_], flatten_singleton.symm, .cons hsame .nil⟩
    | ok responses => exact joinResponses_pieces s₁.signingKeys isRelated responses
  obtain ⟨pieces, hpieces, hall⟩ := maybeSignResponse_pieces s₁.signingKeys hcompl hframed
  exact ⟨reply, s₁, w₁, pieces, hrun, by rw [hloop], by rw [hreply, hplaced, hpieces], hall⟩

/-- The loop does not end early, unless only CANCELs follow the first command, and no CANCEL
inherits an error. -/
def AnswersInTurn (isRelated : Bool) (cmds : List Bytes) : Prop :=
  (SomeStep answer Unresolved cmds ⟨{ related := isRelated }, none⟩ s w →
    ∀ cmd ∈ cmds.tail, isCancel cmd = true) ∧
  (¬ SomeStep answer Unresolved cmds ⟨{ related := isRelated }, none⟩ s w →
    ¬ SomeStep answer CancelAfterError cmds ⟨{ related := isRelated }, none⟩ s w)

theorem responses_answer_iff (hparts : compoundParts message = some (header, isRelated, cmds)) :
    List.Forall₂ AnswersTo (toAnswer cmds) (compoundResponses answer header isRelated cmds s w) ↔
      AnswersInTurn answer s w isRelated cmds := by
  obtain ⟨first, second, rest, tail, rfl, hmsg, hread⟩ := compoundParts_first hparts
  unfold compoundResponses AnswersInTurn
  rcases processCompoundCommands_run answer s w (first :: second :: rest)
      ⟨{ related := isRelated }, none⟩ with
    ⟨hstop, e, s', w', hrun⟩ | ⟨hgo, responses, s', w', hrun, -, hiff⟩
  · -- one error for all commands
    have hfirst : isCancel first ≠ true := fun hcanc =>
      not_someStep_of_isCancel answer s w hcanc hstop
    have hcmds : toAnswer (first :: second :: rest) = first :: toAnswer (second :: rest) :=
      filter_cons_of_pos (by simpa using hfirst)
    rw [hrun, hcmds, forall₂_cons, forall₂_nil_right_iff]
    refine ⟨fun h => ⟨fun _ cmd hcmd => ?_, fun h => absurd hstop h⟩, fun h => ?_⟩
    · have := filter_eq_nil_iff.1 h.2 cmd hcmd
      simpa using this
    · refine ⟨answersTo_first hmsg hread e, filter_eq_nil_iff.2 fun cmd hcmd => ?_⟩
      simpa using h.1 hstop cmd hcmd
  · rw [hrun]
    exact hiff.trans ⟨fun h => ⟨fun hstop => absurd hstop hgo, fun _ => h⟩, fun h => h.2 hgo⟩

omit [Externs] in
theorem forall₂_answersTo_pieces {cmds responses pieces : List Bytes}
    (hcompl : ∀ r ∈ responses, SMB2_HEADER_SIZE ≤ r.length)
    (h : List.Forall₂ Reframed responses pieces) :
    List.Forall₂ AnswersTo cmds pieces ↔ List.Forall₂ AnswersTo cmds responses := by
  induction h generalizing cmds with
  | nil => rfl
  | @cons response piece responses pieces hfirst hrest ih =>
    have hlen : 64 ≤ response.length := hcompl response mem_cons_self
    have hid : piece.u64 24 = response.u64 24 :=
      Bytes.u64_congr fun i hi => hfirst.2 (24 + i) (by omega) (by omega)
    have hsame : ∀ cmd, AnswersTo cmd piece ↔ AnswersTo cmd response := by
      intro cmd
      constructor
      · exact fun h => ⟨hlen, fun header hread => hid ▸ h.messageId header hread⟩
      · exact fun h => ⟨Nat.le_trans hlen hfirst.1, fun header hread =>
          hid.trans (h.messageId header hread)⟩
    cases cmds with
    | nil => exact iff_of_false nofun nofun
    | cons cmd cmds =>
      rw [forall₂_cons, forall₂_cons, hsame, ih fun r hr => hcompl r (mem_cons_of_mem _ hr)]

/-- **Exactly when a reply answers all commands in turn**, in any environment: it is made of one
piece for each response, and they answer the commands but CANCEL one by one just if the loop
does. -/
theorem compound_answered_iff (hparts : compoundParts message = some (header, isRelated, cmds)) :
    ∃ reply s' w' pieces, Proc.run answer (processAndRespond message) s w = (.ok reply, s', w') ∧
      reply.getD [] = pieces.flatten ∧
      List.Forall₂ Reframed (compoundResponses answer header isRelated cmds s w) pieces ∧
      (List.Forall₂ AnswersTo (toAnswer cmds) pieces ↔
        AnswersInTurn answer s w isRelated cmds) := by
  obtain ⟨reply, s', w', pieces, hrun, -, hreply, hpieces⟩ := reply_of_responses answer s w hparts
  refine ⟨reply, s', w', pieces, hrun, hreply, hpieces, ?_⟩
  rw [forall₂_answersTo_pieces (compoundResponses_complete answer s w) hpieces]
  exact responses_answer_iff answer s w hparts

end Accepted

end Environment

/-! ### A failing CREATE -/

namespace Sample

open Client

def inheritedFile : HandleId := 0xFFFFFFFFFFFFFFFFFFFFFFFFFFFFFFFF

def createAndClose (treeId : UInt32) : Bytes :=
  compound [create 1 treeId "f" 0 [], relatedClose 1 inheritedFile]

/-- A connection after some messages, and the world around it. -/
def servedFor {α : Type} [Externs] [AuthProvider α] (provider : α) (messages : List Bytes) :
    Option (ConnectionHandler × World α Files) :=
  let st : Snapshot anyCall := start provider
  (serveAll st (messages.map (Prod.mk 0))).bind fun st =>
    match st.conn 0 with
    | .open s => some (s, st.world)
    | _ => none

/-- A logged-on client, connected to its first tree. -/
def connected : Option (ConnectionHandler × FilesWorld) :=
  servedFor AnonymousAuthProvider.anonymousOnly [sessionSetup 0 [], treeConnect 1 "\\\\a\\s"]

theorem connected_isSome : connected.isSome = true := by decide +kernel

def connectedHandler : ConnectionHandler := (connected.get connected_isSome).1

def connectedWorld : FilesWorld := (connected.get connected_isSome).2

def createAndCloseReply (treeId : UInt32) : Bytes :=
  match Proc.run (Prog.answerMarks World.answer) (processAndRespond (createAndClose treeId))
      connectedHandler connectedWorld with
  | (.ok reply, _, _) => reply.getD []
  | _ => []

/-- A CREATE and a CLOSE on the tree of the client. -/
theorem compound_answered_iff_createAndClose :
    ∃ header isRelated cmds reply s' w' pieces,
      compoundParts (createAndClose 1) = some (header, isRelated, cmds) ∧
      Proc.run (Prog.answerMarks World.answer) (processAndRespond (createAndClose 1))
        connectedHandler connectedWorld = (.ok reply, s', w') ∧
      reply.getD [] = pieces.flatten ∧
      (List.Forall₂ AnswersTo (toAnswer cmds) pieces ↔
        AnswersInTurn (Prog.answerMarks World.answer) connectedHandler connectedWorld isRelated
          cmds) := by
  have hsome : (compoundParts (createAndClose 1)).isSome = true := by decide +kernel
  obtain ⟨⟨header, isRelated, cmds⟩, hparts⟩ := isSome_iff_exists.1 hsome
  obtain ⟨reply, s', w', pieces, hrun, hreply, -, hiff⟩ :=
    compound_answered_iff (Prog.answerMarks World.answer) connectedHandler connectedWorld hparts
  exact ⟨header, isRelated, cmds, reply, s', w', pieces, hparts, hrun, hreply, hiff⟩

/-- **A compound whose CREATE fails**, since its tree is not connected.  The CLOSE after it
inherits the session and the tree and gets no response. -/
theorem lost_response :
    ∃ header cmds, compoundParts (createAndClose 9) = some (header, true, cmds) ∧
      (toAnswer cmds).length = 2 ∧
      ¬ ∃ pieces : List Bytes, createAndCloseReply 9 = pieces.flatten ∧
        List.Forall₂ AnswersTo (toAnswer cmds) pieces := by
  have hparts : ((compoundParts (createAndClose 9)).any fun parts =>
      parts.2.1 && (toAnswer parts.2.2).length == 2) = true := by decide +kernel
  have hreply : (createAndCloseReply 9).length = 73 := by decide +kernel
  obtain ⟨⟨header, isRelated, cmds⟩, hsome, hboth⟩ := (any_eq_true _ _).1 hparts
  rw [Bool.and_eq_true, beq_iff_eq] at hboth
  obtain ⟨rfl, hlen⟩ : isRelated = true ∧ (toAnswer cmds).length = 2 := hboth
  refine ⟨header, cmds, hsome, hlen, ?_⟩
  rintro ⟨pieces, hflat, hans⟩
  -- two responses do not fit
  obtain ⟨first, second, rfl⟩ := length_eq_two.1 (hans.length_eq.symm.trans hlen)
  obtain ⟨_, _, hfirst, hrest, -⟩ := forall₂_cons_right_iff.1 hans
  obtain ⟨_, _, hsec, -, -⟩ := forall₂_cons_right_iff.1 hrest
  have h₁ : 64 ≤ first.length := hfirst.complete
  have h₂ : 64 ≤ second.length := hsec.complete
  rw [hflat] at hreply
  simp only [flatten_cons, flatten_nil, length_append, length_nil] at hreply
  omega

end Sample

end RustSmb
