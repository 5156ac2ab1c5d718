import RustSmb.Server.Answers
import RustSmb.Server.Message

/-!
# The reply to a message

A message with one command has one reply: the response of its handler, or an error response that is
built from its header.  Both repeat the message identifier, the command and the charge.  CANCEL has
no reply.

## Main results

* `maybeSignResponse_echoes` — signing keeps what a response repeats.
* `processAndRespond_replies` — **processing one command gives the reply to it.**
-/

namespace RustSmb

open Response Smb2Header

/-- The header of a reply: it repeats the request, is marked as a response and stands alone. -/
structure Smb2Header.RepliesTo (request h : Smb2Header) : Prop where
  messageId : h.messageId = request.messageId
  command : h.command = request.command
  creditCharge : h.creditCharge = request.creditCharge
  flags : Smb2Flags.isResponse h.flags = true
  nextCommand : h.nextCommand = 0

/-- The reply to a request: one message, unless the request is CANCEL. -/
def ReplyFor (request : Smb2Header) : Option Bytes → Prop
  | none => request.command = .cancel
  | some reply => request.command ≠ .cancel ∧
      ∃ h, Smb2Header.read reply = some h ∧ request.RepliesTo h

section Signed

variable [Externs] {request : Smb2Header} {r : Response}

omit [Externs] in
theorem Response.Echoes.read (h : r.Echoes request) :
    ∃ h, read r.bytes = some h ∧ request.RepliesTo h := by
  refine ⟨r.header, read_write h.signature r.body, ?_⟩
  exact ⟨h.messageId, h.command, h.creditCharge, h.flags, h.nextCommand⟩

omit [Externs] in
theorem u32_flags (h : r.header.signature.length = 16) :
    r.bytes.u32 16 = r.header.flags := by
  have hlen : 64 ≤ r.bytes.length := by
    rw [bytes, List.length_append, length_write h]
    omega
  have hself : r.bytes.splice 16 (Bytes.ofU32 r.header.flags) = r.bytes :=
    splice_flags r r.header.flags
  have hfield : (r.bytes.splice 16 (Bytes.ofU32 r.header.flags)).u32 16 = r.header.flags :=
    Bytes.u32_splice_self (by omega) _
  rwa [hself] at hfield

/-- **Signing keeps what a response repeats.** -/
theorem maybeSignResponse_echoes (signingKeys : Table UInt64 Bytes) (h : r.Echoes request) :
    ∃ r' : Response, maybeSignResponse signingKeys r.bytes = r'.bytes ∧ r'.Echoes request := by
  unfold maybeSignResponse
  split
  · exact ⟨r, rfl, h⟩
  cases signingKeys.lookup (r.bytes.u64 40) with
  | none => exact ⟨r, rfl, h⟩
  | some key =>
    dsimp only
    split
    · exact ⟨r, rfl, h⟩
    · -- the flag is set, then the signature is put into the last field of the header
      have hflags : Smb2Flags.isResponse (r.header.flags ||| Smb2Flags.SIGNED) = true :=
        Smb2Flags.mask_or _ h.flags
      rw [u32_flags h.signature, splice_flags]
      unfold zeroSignature
      rw [Response.splice_signature (r := ⟨{ r.header with
          flags := r.header.flags ||| Smb2Flags.SIGNED }, r.body⟩) h.signature
          (Bytes.length_zeros 16),
        Response.splice_signature (Bytes.length_zeros 16) (length_computeSignature _ _)]
      exact ⟨_, rfl, ⟨h.messageId, h.command, length_computeSignature _ _⟩, h.creditCharge, hflags,
        h.nextCommand⟩

end Signed

namespace Handler

open Proc

variable [Externs] {header : Smb2Header} {message : Bytes}

theorem processMessage_eq_single (hread : read message = some header)
    (hsing : header.nextCommand = 0) :
    processMessage message = processSingleMessage header message := by
  unfold processMessage
  rw [hread]
  change (if header.nextCommand ≠ 0 then processCompoundRequest header message
    else processSingleMessage header message) = _
  rw [if_neg (not_not.2 hsing)]

omit [Externs] in
theorem consumeCredits_yields : Yields (fun _ => True) (consumeCredits header) := by
  unfold consumeCredits Proc.when
  split
  · exact yields_modify
  · exact yields_pure trivial

theorem dispatchCommand_cancel (hcom : header.command = .cancel) {received body : Bytes} :
    Yields (· = none) (dispatchCommand received header body message) := by
  have hgate : gate header = pure () := by
    unfold gate sessionGate treeGate
    rw [hcom]
    rfl
  have hhdl : handleCommand header body message = pure none := by
    unfold handleCommand
    rw [hcom]
  unfold dispatchCommand
  rw [hgate, hhdl]
  refine yields_bind yields_get fun _ _ => yields_bind yields_mark fun _ _ => ?_
  refine yields_bind (yields_lift (yields_pure (P := fun _ => True) trivial)) fun _ _ => ?_
  exact yields_bind yields_mark fun _ _ => yields_lift (yields_pure rfl)

theorem processSingleMessage_cancel (hcom : header.command = .cancel) :
    Yields (· = []) (processSingleMessage header message) := by
  refine yields_bind consumeCredits_yields fun _ _ => ?_
  refine yields_bind (dispatchCommand_cancel hcom) fun outcome hout => ?_
  rw [hout]
  exact yields_pure rfl

theorem processSingleMessage_returns :
    Returns (fun bytes => ∃ outcome, EchoFor header outcome ∧ bytes = responseBytes outcome)
      (processSingleMessage header message) := by
  refine returns_tail fun _ => returns_bind dispatchCommand_echoes fun outcome h => ?_
  exact returns_pure ⟨outcome, h, rfl⟩

theorem sendResponse_yields {r : Response} (h : r.Echoes header)
    (hcom : header.command ≠ .cancel) :
    Yields (ReplyFor header)
      (if r.bytes.isEmpty then pure none
      else do
        let signed ← signResponse r.bytes
        pure (some signed) : Traced (Option Bytes)) := by
  unfold signResponse
  rw [Proc.bind_assoc]
  refine yields_bind yields_get fun s _ => ?_
  obtain ⟨r', hbytes, hechoes⟩ := maybeSignResponse_echoes s.signingKeys h
  rw [Proc.pure_bind, hbytes]
  exact yields_pure ⟨hcom, hechoes.read⟩

/-- **The reply to a message.**  Processing a message with one command does not fail, whatever
the connection's state and the calls return: it gives one reply, perhaps an error, or none for
CANCEL. -/
theorem processAndRespond_replies (hread : Smb2Header.read message = some header)
    (hsingle : header.nextCommand = 0) :
    Yields (ReplyFor header) (processAndRespond message) := by
  have hproc := processMessage_eq_single hread hsingle
  unfold processAndRespond
  rw [hproc]
  by_cases hcom : header.command = .cancel
  · refine yields_bind (yields_attempt_of_yields (processSingleMessage_cancel hcom)) ?_
    rintro _ ⟨_, rfl, rfl⟩
    exact yields_bind (yields_pure (P := (· = [])) rfl) fun bytes hbytes => by
      rw [hbytes]
      exact yields_pure hcom
  · refine yields_bind (yields_attempt processSingleMessage_returns) ?_
    rintro (e | bytes) hout
    · -- the command failed: the error is built from the header of the message
      have herror : orErrorResponse message (.error e) =
          pure (errorResponse header e.toStatus header.sessionId header.treeId).bytes := by
        unfold orErrorResponse
        rw [hread]
        rfl
      rw [herror, Proc.pure_bind]
      exact sendResponse_yields ⟨⟨rfl, rfl, rfl⟩, rfl, Smb2Flags.isResponse_serverToRedir, rfl⟩
        hcom
    · obtain ⟨outcome, hechoes, rfl⟩ := hout bytes rfl
      cases outcome with
      | none => exact absurd hechoes hcom
      | some r =>
        have hok : orErrorResponse message (.ok (responseBytes (some r))) = pure r.bytes := rfl
        rw [hok, Proc.pure_bind]
        exact sendResponse_yields hechoes.1 hcom

end Handler

namespace Sample

/-- A CREATE without a session, which fails. -/
def loneCreate : Smb2Header := { command := .create, messageId := 7, creditCharge := 2 }

/-- The CREATE gets its reply all the same. -/
theorem loneCreate_replies :
    Proc.Yields (ReplyFor loneCreate)
      (Handler.processAndRespond (loneCreate.write ++ Bytes.ofU16 57)) := by
  have hread : read (loneCreate.write ++ Bytes.ofU16 57) = some loneCreate :=
    read_write (Bytes.length_zeros 16) _
  exact Handler.processAndRespond_replies hread rfl

end Sample

end RustSmb
