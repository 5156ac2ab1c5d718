import RustSmb.Server.Handler

/-!
# Message signatures

Signatures are the AES-CMAC of a whole message with the signature field zeroed, for
every dialect.  Responses are signed when the connection has a key for their session;
requests are checked by `verifyRequestSignature`, which the session binding calls.

## Main results

* `verifyRequestSignature_eq_ok` — when the check passes.

Source: `rustsmb-server/src/handler.rs`, `rustsmb-protocol/src/crypto/signing.rs`.
-/

namespace RustSmb

open Bytes

theorem Response.splice_signature {r : Response} (h : r.header.signature.length = 16) {s : Bytes}
    (hs : s.length = 16) :
    r.bytes.splice 48 s = (⟨{ r.header with signature := s }, r.body⟩ : Response).bytes := by
  obtain ⟨header, body⟩ := r
  have hfront : ∀ front : Bytes, front.length = 48 → ∀ old : Bytes, old.length = 16 →
      (front ++ old ++ body).splice 48 s = front ++ s ++ body := by
    intro front hfront old hold
    rw [List.append_assoc, splice, ← hfront, List.take_left, hs, List.drop_append]
    simp [hold]
  exact hfront _ (by simp [SMB2_MAGIC]) _ h

theorem Response.splice_flags (r : Response) (flags : UInt32) :
    r.bytes.splice 16 (ofU32 flags) =
      (⟨{ r.header with flags := flags }, r.body⟩ : Response).bytes := by
  obtain ⟨header, body⟩ := r
  have happ : ∀ f : UInt32, (⟨{ header with flags := f }, body⟩ : Response).bytes =
      (SMB2_MAGIC ++ ofU16 header.structureSize ++ ofU16 header.creditCharge ++
        ofU32 header.status ++ ofU16 header.command.code ++
        ofU16 header.credits) ++ (ofU32 f ++ (ofU32 header.nextCommand ++
        ofU64 header.messageId ++ ofU32 header.asyncId ++ ofU32 header.treeId ++
        ofU64 header.sessionId ++ header.signature ++ body)) := by
    intro f
    simp only [Response.bytes, Smb2Header.write, List.append_assoc]
  exact congrArg (splice · 16 _) (happ header.flags)

variable [Externs]

/-- The first 16 bytes, padded with zeros. -/
def fit16 (b : Bytes) : Bytes := (b ++ zeros 16).take 16

def zeroSignature (message : Bytes) : Bytes := message.splice 48 (zeros 16)

/-- The signature of a message whose signature field is zero. -/
def computeSignature (signingKey message : Bytes) : Bytes :=
  fit16 (Externs.aesCmac (fit16 signingKey) message)

/-- The signature is of the message with zeros in its place. -/
def verifyRequestSignature (message signingKey : Bytes) : Except HandlerError Unit :=
  if message.length < SMB2_HEADER_SIZE then .error .protocol
  else if computeSignature signingKey (zeroSignature message) = message.slice 48 16 then .ok ()
  else .error (.status .accessDenied)

def Response.sign (r : Response) (signingKey : Bytes) : Response :=
  let r := { r with header := { r.header with signature := zeros 16 } }
  { r with header := { r.header with signature := computeSignature signingKey r.bytes } }

/-- Sign the bytes of a response under the key of its session, unless it is signed
already. -/
def maybeSignResponse (signingKeys : Table UInt64 Bytes) (response : Bytes) : Bytes :=
  if response.length < SMB2_HEADER_SIZE then response
  else
    match signingKeys.lookup (response.u64 40) with
    | none => response
    | some key =>
        let flags := response.u32 16
        if Smb2Flags.isSigned flags then response
        else
          let response := response.splice 16 (ofU32 (flags ||| Smb2Flags.SIGNED))
          let response := zeroSignature response
          response.splice 48 (computeSignature key response)

/-- Signs again what was signed, under the key of its session. -/
def reSignResponse (signingKeys : Table UInt64 Bytes) (response : Bytes) : Bytes :=
  if response.length < SMB2_HEADER_SIZE then response
  else
    match signingKeys.lookup (response.u64 40) with
    | none => response
    | some key =>
        if Smb2Flags.isSigned (response.u32 16) then
          let response := zeroSignature response
          response.splice 48 (computeSignature key response)
        else response

omit [Externs] in
@[simp]
theorem length_fit16 (b : Bytes) : (fit16 b).length = 16 := by
  simp [fit16]

@[simp]
theorem length_computeSignature (key message : Bytes) :
    (computeSignature key message).length = 16 := length_fit16 _

theorem verifyRequestSignature_eq_ok {message key : Bytes} :
    verifyRequestSignature message key = .ok () ↔
      SMB2_HEADER_SIZE ≤ message.length ∧
        computeSignature key (zeroSignature message) = message.slice 48 16 := by
  unfold verifyRequestSignature
  split
  · next h => simp [Nat.not_le.2 h]
  split
  · next h hs => simp [hs, Nat.le_of_not_lt h]
  · next h hs => simp [hs]

end RustSmb
