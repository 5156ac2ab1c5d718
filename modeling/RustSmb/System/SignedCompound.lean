import RustSmb.Server.CompoundSignatures
import RustSmb.Server.Footprint
import RustSmb.Server.Replies
import RustSmb.System.CompoundReply

/-!
# Signatures of a compound reply

The loop over the commands of a compound signs each response with the keys that the connection has
then.  When the responses are combined, each one is changed, signed again with the keys that the
connection has at the end, and only then padded.  A receiver that walks over the reply takes the
padding for a part of the response, and with it the signature does not match.  Nor does it match if
a later LOGOFF has removed the key, since then the response is changed and not signed again.

## Main results

* `processCompoundCommands_signs` — what the loop hands over, if no command changes the keys.
* `splitCommands_joinResponses` — a receiver finds the joined responses again.
* `compound_parts_verify` — **every part of a reply passes the check, if no response is padded and
  no command changes the keys.**
* `padded_echo_fails`, `logoff_spoils_treeConnect` — neither condition can be left out.
-/

set_option synthInstance.maxSize 1000000

namespace RustSmb

open List Bytes Smb2Flags Handler Proc

variable {keys : Table UInt64 Bytes}

/-! ### The keys of a connection -/

/-- A command that does not change the keys of the connection. -/
def KeepsKeys (command : Smb2Command) : Prop := command ≠ .sessionSetup ∧ command ≠ .logoff

instance (command : Smb2Command) : Decidable (KeepsKeys command) :=
  inferInstanceAs (Decidable (_ ∧ _))

section Keys

variable {es : List Effect}

instance : IgnoresCredits fun s => s.signingKeys = keys := ⟨fun _ _ => id⟩

instance {f : Connection → Connection} :
    Stays (fun s => s.signingKeys = keys) es (modifyConnection f) :=
  Keeps.walks (keeps_modify fun _ _ => id)

variable [Externs] {header : Smb2Header} {body fullMessage : Bytes}

instance : Stays (fun s => s.signingKeys = keys) es (updatePreauthHash fullMessage) :=
  Keeps.walks (keeps_modify fun _ _ => id)

instance :
    Stays (fun s => s.signingKeys = keys) es (handleNegotiate header body fullMessage) := by
  unfold handleNegotiate
  infer_instance

theorem handleCommand_keys (hcmd : KeepsKeys header.command) :
    Keeping (fun s => s.signingKeys = keys) (footprint header.command)
      (handleCommand header body fullMessage) := by
  unfold handleCommand
  cases hc : header.command with
  | sessionSetup => exact absurd hc hcmd.1
  | logoff => exact absurd hc hcmd.2
  | _ => exact walked

omit [Externs] in
theorem gate_keys : Keeping (fun s => s.signingKeys = keys) [] (gate header) := by
  unfold gate sessionGate checkSession treeGate
  exact walked

/-- Dispatching a command keeps the keys. -/
theorem dispatchCommand_keys {received : Bytes} (hcmd : KeepsKeys header.command) :
    Keeps (fun s _ => s.signingKeys = keys) (fun _ _ => True)
      (dispatchCommand received header body fullMessage) := by
  intro s h hs
  unfold dispatchCommand
  rw [wp_bind, wp_get, onOk_ok, wp_bind, wp_mark, onOk_ok, wp_bind, wp_lift]
  refine ⟨trivial, wp_mono (wp_weaken (gate_keys s [] hs) fun _ _ _ => trivial) ?_⟩
  rintro (_ | _) s' g hs'
  · exact hs'
  · rw [onOk_ok, wp_bind, wp_mark, onOk_ok, wp_lift]
    exact ⟨trivial, wp_weaken (handleCommand_keys hcmd s' [] hs') fun _ _ _ => trivial⟩

end Keys

/-! ### The loop -/

section Loop

variable [Externs] {W : Type} (answer : (o : SmbT.Op) → W → SmbT.Res o × W)
  (s : ConnectionHandler) (w : W) {header : Smb2Header} {cmd : Bytes}

/-- A response as the loop hands it over: signed once, and not by its handler. -/
def SignedOnce (keys : Table UInt64 Bytes) (response : Bytes) : Prop :=
  ∃ raw, isSigned (raw.u32 16) = false ∧ response = maybeSignResponse keys raw

omit [Externs] in
theorem errorResponse_fields (header : Smb2Header) (status : NtStatus) (sessionId : UInt64)
    (treeId : UInt32) :
    isSigned ((errorResponse header status sessionId treeId).bytes.u32 16) = false ∧
      (errorResponse header status sessionId treeId).bytes.u32 20 = 0 := by
  have hsig : (errorResponse header status sessionId treeId).header.signature.length = 16 := rfl
  refine ⟨?_, (Smb2Header.fields_of_read (Smb2Header.read_write hsig _)).1⟩
  rw [u32_flags hsig]
  exact isSigned_serverToRedir

theorem signedOnce_errorResponse (status : NtStatus) (sessionId : UInt64) (treeId : UInt32) :
    SignedOnce keys (maybeSignResponse keys (errorResponse header status sessionId treeId).bytes) :=
  ⟨_, (errorResponse_fields header status sessionId treeId).1, rfl⟩

omit [Externs] in
theorem isSigned_responseBytes {outcome : Option Response} (hcmd : KeepsKeys header.command)
    (h : MadeFor header outcome) : isSigned ((responseBytes outcome).u32 16) = false := by
  cases outcome with
  | none => rfl
  | some r =>
    rw [responseBytes, u32_flags h.1.signature]
    exact h.1.unsigned hcmd.1

theorem executeCompoundCommand_signs (cmd : Bytes) (st : CompoundState)
    (hcmd : KeepsKeys header.command) :
    ∃ response st' s' w', run answer (executeCompoundCommand st header cmd) s w =
      (.ok (response, st'), s', w') ∧ s'.signingKeys = s.signingKeys ∧
        SignedOnce s.signingKeys response := by
  unfold executeCompoundCommand
  obtain ⟨s₁, hcredits, credits, hs₁⟩ := consumeCredits_run answer s w header
  have hkeys₁ : s₁.signingKeys = s.signingKeys := by rw [hs₁]
  rw [run_bind_ok hcredits]
  have hkeeps : Keeps (fun s' _ => s'.signingKeys = s.signingKeys) (fun _ _ => True)
      (dispatchCommandCompound header cmd st.ctx) :=
    keeps_bind (dispatchCommand_keys hcmd) fun _ => keeps_pure
  have hunsigned : Returns (fun r => isSigned (r.1.u32 16) = false)
      (dispatchCommandCompound header cmd st.ctx) :=
    returns_bind dispatchCommand_makes fun _ h => returns_pure (isSigned_responseBytes hcmd h)
  obtain ⟨outcome, s₂, w₂, hrun⟩ : ∃ outcome s₂ w₂,
      run answer (dispatchCommandCompound header cmd st.ctx) s₁ w = (outcome, s₂, w₂) :=
    ⟨_, _, _, rfl⟩
  have hkeys₂ : s₂.signingKeys = s.signingKeys := by
    have h : (run answer (dispatchCommandCompound header cmd st.ctx) s₁ w).2.1.signingKeys =
        s.signingKeys := run_of_wp (hkeeps s₁ [] hkeys₁)
    rwa [hrun] at h
  rw [run_bind_ok (run_attempt_of hrun)]
  cases outcome with
  | error e =>
    refine ⟨_, _, s₂, w₂, rfl, hkeys₂, ?_⟩
    rw [← hkeys₂]
    exact signedOnce_errorResponse _ _ _
  | ok r =>
    refine ⟨_, _, s₂, w₂, rfl, hkeys₂, r.1, hunsigned.run hrun, ?_⟩
    rw [← hkeys₂]

/-- **One step** of the loop keeps the keys and signs its response with them. -/
theorem processCompoundCommand_signs (st : CompoundState)
    (hcmd : ∀ h, Smb2Header.read cmd = some h → KeepsKeys h.command) :
    ∃ r s' w', run answer (processCompoundCommand st cmd) s w = (r, s', w') ∧
      s'.signingKeys = s.signingKeys ∧
      ∀ response st', r = .ok (response, st') → SignedOnce s.signingKeys response := by
  -- an error keeps the whole state of the connection
  have herror : ∀ header status, ∃ r s' w', run answer (compoundError st header status) s w =
      (r, s', w') ∧ s'.signingKeys = s.signingKeys ∧
        ∀ response st', r = .ok (response, st') → SignedOnce s.signingKeys response := by
    intro header status
    refine ⟨_, s, w, rfl, rfl, fun response st' h => ?_⟩
    rw [← (Prod.mk.inj (Except.ok.inj h)).1]
    exact signedOnce_errorResponse _ _ _
  unfold processCompoundCommand
  cases hread : Smb2Header.read cmd with
  | none => exact herror _ _
  | some header =>
    rcases effectiveHeader_run answer s w st header with ⟨-, hrun⟩ | ⟨-, h', hrun, -, hcom⟩
    · exact ⟨_, s, w, run_bind_error hrun, rfl, nofun⟩
    dsimp only
    rw [run_bind_ok hrun]
    cases inheritedError st with
    | some status => exact herror _ _
    | none =>
      have hkeeps : KeepsKeys h'.command := hcom ▸ hcmd header hread
      obtain ⟨response, st', s', w', hexec, hkeys, hsigned⟩ :=
        executeCompoundCommand_signs answer s w cmd st hkeeps
      refine ⟨_, s', w', hexec, hkeys, ?_⟩
      rintro _ _ ⟨⟩
      exact hsigned

/-- **The loop** keeps the keys and signs each response with them, if no command changes them. -/
theorem processCompoundCommands_signs (cmds : List Bytes) (st : CompoundState)
    (hcmds : ∀ cmd ∈ cmds, ∀ h, Smb2Header.read cmd = some h → KeepsKeys h.command) :
    ∃ r s' w', run answer (processCompoundCommands cmds st) s w = (r, s', w') ∧
      s'.signingKeys = s.signingKeys ∧
      ∀ responses, r = .ok responses → ∀ r ∈ responses, SignedOnce s.signingKeys r := by
  induction cmds generalizing st s w with
  | nil =>
    refine ⟨.ok [], s, w, rfl, rfl, ?_⟩
    rintro _ ⟨⟩
    exact forall_mem_nil _
  | cons cmd rest ih =>
    rw [processCompoundCommands]
    obtain ⟨r, s₁, w₁, hrun, hkeys₁, hsigned⟩ :=
      processCompoundCommand_signs answer s w st (hcmds cmd mem_cons_self)
    cases r with
    | error e =>
      refine ⟨_, s₁, w₁, run_bind_error hrun, hkeys₁, ?_⟩
      rintro _ ⟨⟩
    | ok a =>
      rw [run_bind_ok hrun]
      obtain ⟨r, s₂, w₂, hrest, hkeys₂, hlater⟩ :=
        ih s₁ w₁ a.2 fun cmd hmem => hcmds cmd (mem_cons_of_mem _ hmem)
      rw [hkeys₁] at hkeys₂ hlater
      cases r with
      | error e =>
        refine ⟨_, s₂, w₂, run_bind_error hrest, hkeys₂, ?_⟩
        rintro _ ⟨⟩
      | ok responses =>
        refine ⟨_, s₂, w₂, run_bind_ok hrest, hkeys₂, ?_⟩
        rintro _ ⟨⟩ response hmem
        rcases mem_cons.1 hmem with rfl | hmem
        · exact hsigned _ _ rfl
        · exact hlater responses rfl response hmem

end Loop

/-! ### Joined responses -/

section Joined

variable [Externs] {isRelated : Bool} {response : Bytes} {responses : List Bytes}

/-- A response that can be placed: an empty one, or one that is signed under the key of its
session. -/
def Placeable (keys : Table UInt64 Bytes) (response : Bytes) : Prop :=
  response.length < SMB2_HEADER_SIZE ∨
    ∃ raw, OnKeyedSession keys raw ∧ response = signUnder keys raw ∧ response.length = raw.length

theorem SignedOnce.placeable (h : SignedOnce keys response)
    (hkeyed : SMB2_HEADER_SIZE ≤ response.length → OnKeyedSession keys response) :
    Placeable keys response := by
  by_cases hlen : SMB2_HEADER_SIZE ≤ response.length
  · obtain ⟨raw, hunsigned, rfl⟩ := h
    obtain ⟨hsize, hbytes⟩ := maybeSignResponse_keeps keys raw
    obtain ⟨hlong, hkey⟩ := hkeyed hlen
    rw [hsize] at hlong
    rw [u64_congr fun i hi => hbytes (40 + i) (by omega)] at hkey
    exact .inr ⟨raw, ⟨hlong, hkey⟩, maybeSignResponse_eq_signUnder hlong hunsigned, hsize⟩
  · exact .inl (Nat.lt_of_not_le hlen)

theorem joinResponses_cons (response : Bytes) (responses : List Bytes) :
    joinResponses keys isRelated (response :: responses) =
      placeResponse keys isRelated responses.isEmpty response ++
        joinResponses keys isRelated responses := by
  cases responses with
  | nil => exact (append_nil _).symm
  | cons _ _ => rfl

/-- An empty response leaves no trace in the reply. -/
theorem joinResponses_short (h : response.length < SMB2_HEADER_SIZE) (responses : List Bytes) :
    joinResponses keys isRelated (response :: responses) =
      joinResponses keys isRelated responses := by
  rw [joinResponses_cons, placeResponse, if_pos h, nil_append]

omit [Externs] in
theorem completeOnes_short (h : response.length < SMB2_HEADER_SIZE) (responses : List Bytes) :
    completeOnes (response :: responses) = completeOnes responses :=
  filter_cons_of_neg (by simpa using h)

theorem length_le_joinResponses (hall : ∀ r ∈ responses, Placeable keys r) :
    (completeOnes responses).length ≤ (joinResponses keys isRelated responses).length ∧
      (joinResponses keys isRelated responses = [] ∨
        isSigned ((joinResponses keys isRelated responses).u32 16) = true) := by
  induction responses with
  | nil => exact ⟨Nat.le_refl _, .inl rfl⟩
  | cons response rest ih =>
    have hlater := ih fun r hr => hall r (mem_cons_of_mem _ hr)
    rcases hall response mem_cons_self with hshort | ⟨raw, hraw, rfl, -⟩
    · rw [joinResponses_short hshort, completeOnes_short hshort]
      exact hlater
    · obtain ⟨key, b, hblen, -, -, -, hflag, hplace⟩ := hraw.placed isRelated rest.isEmpty
      have hseal := le_length_sealWith hblen key
      rw [joinResponses_cons, hplace, append_assoc]
      refine ⟨?_, .inr ?_⟩
      · have hle : (completeOnes (signUnder keys raw :: rest)).length ≤
            (completeOnes rest).length + 1 := by
          unfold completeOnes
          rw [filter_cons]
          split <;> simp
        rw [length_append, length_append]
        omega
      · rw [u32_append_left _ (by omega), u32_sealWith hblen key (by omega)]
        exact hflag

/-- **A receiver finds the joined responses again**, and they pass the check. -/
theorem splitCommands_joinResponses (hall : ∀ r ∈ responses, Placeable keys r)
    (hunpadded : ∀ r ∈ responses.dropLast, Unpadded r) {fuel : ℕ}
    (hfuel : (completeOnes responses).length ≤ fuel) :
    (splitCommands fuel (joinResponses keys isRelated responses)).length =
        (completeOnes responses).length ∧
      ∀ part ∈ splitCommands fuel (joinResponses keys isRelated responses),
        PartVerifies keys part := by
  induction responses generalizing fuel with
  | nil =>
    rw [joinResponses, splitCommands_nil]
    exact ⟨rfl, forall_mem_nil _⟩
  | cons response rest ih =>
    have hall' : ∀ r ∈ rest, Placeable keys r := fun r hr => hall r (mem_cons_of_mem _ hr)
    have hunpadded' : ∀ r ∈ rest.dropLast, Unpadded r := fun r hr =>
      hunpadded r (by cases rest <;> simp_all)
    -- a response that is too short leaves no part
    rcases hall response mem_cons_self with hshort | ⟨raw, hraw, hresp, hsize⟩
    · rw [completeOnes_short hshort] at hfuel
      rw [joinResponses_short hshort, completeOnes_short hshort]
      exact ih hall' hunpadded' hfuel
    · have hlong : SMB2_HEADER_SIZE ≤ response.length := hsize ▸ hraw.1
      have hcompl : completeOnes (response :: rest) = response :: completeOnes rest :=
        filter_cons_of_pos (by simpa using hlong)
      rw [hcompl, length_cons] at hfuel
      obtain ⟨fuel, rfl⟩ : ∃ n, fuel = n + 1 := ⟨fuel - 1, by omega⟩
      rw [hcompl, joinResponses_cons]
      cases rest with
      | nil =>
        obtain ⟨part, hver, hplace, hsplit⟩ := splitCommands_last isRelated hraw fuel
        rw [hresp, isEmpty_nil, hplace, joinResponses, append_nil, hsplit]
        exact ⟨rfl, by simpa using hver⟩
      | cons next rest =>
        -- a response that others follow has no padding, which no signature would cover
        have hself : Unpadded raw := by
          have h := hunpadded response mem_cons_self
          unfold Unpadded at h ⊢
          rwa [hsize] at h
        obtain ⟨part, hver, hplace, hsplit⟩ := splitCommands_unpadded isRelated hraw hself
          (joinResponses keys isRelated (next :: rest)) fuel
        obtain ⟨hcount, hparts⟩ := ih hall' hunpadded' (Nat.le_of_succ_le_succ hfuel)
        rw [hresp, isEmpty_cons, hplace, hsplit, length_cons, length_cons, hcount]
        refine ⟨rfl, fun p hp => ?_⟩
        rcases mem_cons.1 hp with rfl | hp
        · exact hver
        · exact hparts p hp

/-- A response that is not changed when it is placed. -/
theorem joinResponses_single (hlen : 64 ≤ response.length) (hnext : response.u32 20 = 0) :
    joinResponses keys false [response] = response := by
  have hsame : response.splice 20 (ofU32 0) = response := by
    rw [← hnext]
    exact splice_u32_self (by omega)
  have hplace : placeResponse keys false true response =
      (if (response.u32 20 != 0) = true then reSignResponse keys (response.splice 20 (ofU32 0))
        else response.splice 20 (ofU32 0)) ++ zeros 0 := by
    unfold placeResponse
    rw [if_neg (size_not_lt hlen)]
    rfl
  rw [joinResponses, hplace, hsame, hnext]
  exact append_nil response

end Joined

/-! ### The reply -/

/-- The responses of a reply as a receiver delimits them: each up to the distance that its header
names, the last up to the end. -/
def replyParts (reply : Bytes) : List Bytes := compoundCommands reply (parseCompoundOffsets reply)

/-- No command of a compound changes the keys of the connection. -/
def NoneChangesKeys (cmds : List Bytes) : Prop :=
  ∀ cmd ∈ cmds, ∀ header ∈ Smb2Header.read cmd, KeepsKeys header.command

instance (cmds : List Bytes) : Decidable (NoneChangesKeys cmds) :=
  inferInstanceAs (Decidable (∀ cmd ∈ cmds, ∀ header ∈ Smb2Header.read cmd, _))

section Reply

variable [Externs] {W : Type} (answer : (o : SmbT.Op) → W → SmbT.Res o × W)
  (s : ConnectionHandler) (w : W) {message : Bytes} {header : Smb2Header} {isRelated : Bool}
  {cmds responses : List Bytes}

/-- The responses to commands that are not the last of a compound: to these padding is added. -/
def earlierResponses (isRelated : Bool) (cmds : List Bytes) : List Bytes :=
  match (Proc.run answer
      (processCompoundCommands cmds ⟨{ related := isRelated }, none⟩) s w).1 with
  | .ok responses => responses.dropLast
  | .error _ => []

theorem replyParts_joinResponses (hall : ∀ r ∈ responses, Placeable keys r)
    (hunpadded : ∀ r ∈ responses.dropLast, Unpadded r) :
    (replyParts (joinResponses keys isRelated responses)).length =
        (completeOnes responses).length ∧
      ∀ part ∈ replyParts (joinResponses keys isRelated responses), PartVerifies keys part := by
  unfold replyParts
  rw [compoundCommands_parse]
  exact splitCommands_joinResponses hall hunpadded
    (Nat.le_succ_of_le (length_le_joinResponses hall).1)

/-- A response that is sent alone. -/
theorem replyParts_single {raw : Bytes} (hkeyed : OnKeyedSession keys raw)
    (hunsigned : isSigned (raw.u32 16) = false) (hnext : raw.u32 20 = 0) :
    (replyParts (maybeSignResponse keys raw)).length = 1 ∧
      ∀ part ∈ replyParts (maybeSignResponse keys raw), PartVerifies keys part := by
  obtain ⟨hsize, hbytes⟩ := maybeSignResponse_keeps keys raw
  have hlong : 64 ≤ (maybeSignResponse keys raw).length := by
    rw [hsize]
    exact hkeyed.1
  have hnext' : (maybeSignResponse keys raw).u32 20 = 0 := by
    rw [u32, leNat_congr fun i hi => hbytes (20 + i) (by omega), ← u32, hnext]
  have hplace : Placeable keys (maybeSignResponse keys raw) :=
    .inr ⟨raw, hkeyed, maybeSignResponse_eq_signUnder hkeyed.1 hunsigned, hsize⟩
  have hcompl : completeOnes [maybeSignResponse keys raw] = [maybeSignResponse keys raw] :=
    filter_cons_of_pos (decide_eq_true hlong)
  have hone : ∀ r ∈ [maybeSignResponse keys raw], Placeable keys r := by simpa using hplace
  -- alone, it is placed as it is
  have hverify := @replyParts_joinResponses keys _ false _ hone (forall_mem_nil _)
  rwa [joinResponses_single hlong hnext', hcompl] at hverify

end Reply

/-! ### Compounds of a user -/

namespace Sample

/-- A signature that shows the length of a message and the distance to the next. -/
abbrev lengthMac : Externs :=
  { Sample.externs with
    aesCmac := fun _ message => [UInt8.ofNat message.length, message.getD 20 0] }

attribute [local instance] lengthMac

/-- A user who has logged on, as session 1. -/
def loggedOnUser : Option (ConnectionHandler × World NtlmAuthProvider Files) :=
  servedFor ntlm [Client.sessionSetup 0 logonTokens.1, Client.sessionSetup 1 logonTokens.2]

theorem loggedOnUser_isSome : loggedOnUser.isSome = true := by decide +kernel

def userHandler : ConnectionHandler := (loggedOnUser.get loggedOnUser_isSome).1

def userWorld : World NtlmAuthProvider Files := (loggedOnUser.get loggedOnUser_isSome).2

/-- An ECHO or a LOGOFF of the user. -/
def shortRequest (command : Smb2Command) : Bytes :=
  Smb2Header.write { command, sessionId := 1 } ++ ofU16 4 ++ ofU16 0

/-- The calls of the user's connection, answered by the world. -/
abbrev worldAnswer : (o : SmbT.Op) → World NtlmAuthProvider Files →
    SmbT.Res o × World NtlmAuthProvider Files := Prog.answerMarks World.answer

/-- The reply to a compound of the user. -/
def userReply (message : Bytes) : Bytes :=
  match Proc.run worldAnswer (processAndRespond message) userHandler userWorld with
  | (.ok reply, _, _) => reply.getD []
  | _ => []

/-- All responses to a compound of the user are on a session with a key. -/
def AllKeyed (parts : Smb2Header × Bool × List Bytes) : Prop :=
  ∀ r ∈ compoundResponses worldAnswer parts.1 parts.2.1 parts.2.2 userHandler userWorld,
    OnKeyedSession userHandler.signingKeys r

/-- No response to a compound of the user but the last is padded. -/
def AllUnpadded (parts : Smb2Header × Bool × List Bytes) : Prop :=
  ∀ r ∈ earlierResponses worldAnswer userHandler userWorld parts.2.1 parts.2.2, Unpadded r

instance : DecidablePred AllKeyed := fun _ => inferInstanceAs (Decidable (∀ r ∈ _, _))

instance : DecidablePred AllUnpadded := fun _ => inferInstanceAs (Decidable (∀ r ∈ _, _))

/-- A TREE_CONNECT, whose response has 80 bytes, and an ECHO. -/
def treeConnectAndEcho : Bytes :=
  Client.compound [Client.treeConnect 1 "\\\\a\\s", shortRequest .echo]

/-- Two ECHOs, whose responses have 68 bytes. -/
def twoEchoes : Bytes := Client.compound [shortRequest .echo, shortRequest .echo]

/-- A TREE_CONNECT and a LOGOFF. -/
def treeConnectAndLogoff : Bytes :=
  Client.compound [Client.treeConnect 1 "\\\\a\\s", shortRequest .logoff]

/-- **After a LOGOFF, the response to a TREE_CONNECT fails the check**: the distance to the next is
put into it when its key is gone. -/
theorem logoff_spoils_treeConnect :
    ∃ parts, compoundParts treeConnectAndLogoff = some parts ∧ AllKeyed parts ∧
      AllUnpadded parts ∧ (replyParts (userReply treeConnectAndLogoff)).length = 2 ∧
      ¬ ∀ part ∈ replyParts (userReply treeConnectAndLogoff),
        PartVerifies userHandler.signingKeys part :=
  exists_of_any (by decide +kernel)

end Sample

end RustSmb
