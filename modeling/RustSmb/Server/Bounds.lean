import RustSmb.Server.Message
import RustSmb.Session.Framing

/-!
# The slices of a message

The distances between the commands of a message come from outside, and the server cuts the message
where they lead.  Here the processing of a message is written down once more, with a panic wherever
a slice or an index does not exist, and with the loop over the distances as a loop.  It is the same
program.

## Main results

* `Checked.compoundOffsets_eq` — the loop over the distances ends.
* `checked_processMessage` — **no slice of a message is out of bounds.**

Source: `rustsmb-server/src/handler.rs`, `rustsmb-session/src/compound.rs`.
-/

namespace RustSmb

open List Option

namespace Checked

open Bytes

variable {fullMessage message : Bytes}

/-! ### The loop over the distances -/

/-- The rest of the loop of `parse_compound_offsets`, from the offset `current` on. -/
def compoundOffsets (data : Bytes) (current : ℕ) : Option (List ℕ) :=
  if current < data.length then
    if current + 64 > data.length then some [current]
    else if current + 20 + 4 > data.length then some [current]
    else
      match data[current + 20]?, data[current + 20 + 1]?, data[current + 20 + 2]?,
          data[current + 20 + 3]? with
      | some b₀, some b₁, some b₂, some b₃ =>
          if (u32 [b₀, b₁, b₂, b₃] 0).toNat = 0 then some [current]
          else (compoundOffsets data (current + (u32 [b₀, b₁, b₂, b₃] 0).toNat)).map
            (current :: ·)
      | _, _, _, _ => none
  else some []
termination_by data.length - current

theorem u32_eq_of_getElem? {data : Bytes} {o : ℕ} {b₀ b₁ b₂ b₃ : UInt8} (h₀ : data[o]? = some b₀)
    (h₁ : data[o + 1]? = some b₁) (h₂ : data[o + 2]? = some b₂) (h₃ : data[o + 3]? = some b₃) :
    u32 [b₀, b₁, b₂, b₃] 0 = data.u32 o := by
  unfold u32
  congr 1
  refine leNat_congr fun i hi => ?_
  match i, hi with
  | 0, _ => simp [getD_eq_getElem?_getD, h₀]
  | 1, _ => simp [getD_eq_getElem?_getD, h₁]
  | 2, _ => simp [getD_eq_getElem?_getD, h₂]
  | 3, _ => simp [getD_eq_getElem?_getD, h₃]

theorem compoundOffsets_eq {data : Bytes} {fuel current : ℕ} (h : data.length < current + fuel) :
    compoundOffsets data current = some (compoundOffsetsFrom data fuel current) := by
  induction fuel generalizing current with
  | zero =>
    unfold compoundOffsets compoundOffsetsFrom
    rw [if_neg (by omega)]
  | succ fuel ih =>
    unfold compoundOffsets compoundOffsetsFrom
    split
    · split
      · rfl
      · next hlt hfits =>
        rw [if_neg (by omega)]
        have hidx : ∀ i, i < 4 → ∃ b, data[current + 20 + i]? = some b := fun i hi =>
          ⟨_, getElem?_eq_getElem (by omega)⟩
        obtain ⟨b₀, h₀⟩ := hidx 0 (by omega)
        obtain ⟨b₁, h₁⟩ := hidx 1 (by omega)
        obtain ⟨b₂, h₂⟩ := hidx 2 (by omega)
        obtain ⟨b₃, h₃⟩ := hidx 3 (by omega)
        simp only [h₀, h₁, h₂, h₃, u32_eq_of_getElem? h₀ h₁ h₂ h₃]
        split
        · rfl
        · rw [ih (by omega), map_some]
    · rfl

def parseCompoundOffsets (data : Bytes) : Option (List ℕ) := compoundOffsets data 0

theorem parseCompoundOffsets_eq (data : Bytes) :
    parseCompoundOffsets data = some (RustSmb.parseCompoundOffsets data) :=
  compoundOffsets_eq (by omega)

/-! ### The file identifier of a command -/

/-- The commands whose file identifier is replaced. -/
def takesFileId : Smb2Command → Bool
  | .read | .write | .close | .flush | .lock | .queryInfo | .setInfo | .queryDirectory => true
  | _ => false

theorem takesFileId_eq (command : Smb2Command) :
    takesFileId command = (fileidBodyOffset command).isSome := by
  cases command <;> rfl

/-- The body and the bytes of a command with its file identifier replaced. -/
def substituteFileId (command : Smb2Command) (override : Option (UInt64 × UInt64))
    (body fullMessage : Bytes) : Option (Bytes × Bytes) :=
  if takesFileId command then
    match override with
    | none => some (body, fullMessage)
    | some (persistent, volatile) => do
        let offset ← fileidBodyOffset command
        if body.length ≥ offset + 16 then do
          let reqPersistent ← (body.range? offset (offset + 8)).map (u64 · 0)
          let reqVolatile ← (body.range? (offset + 8) (offset + 16)).map (u64 · 0)
          let useP := reqPersistent == 0xFFFFFFFFFFFFFFFF || reqPersistent != persistent
          let useV := reqVolatile == 0xFFFFFFFFFFFFFFFF || reqVolatile != volatile
          if useP || useV then
            let place := SMB2_HEADER_SIZE + offset
            if fullMessage.length ≥ place + 16 then do
              let modified ← fullMessage.overwrite? place (place + 8)
                (ofU64 (if useP then persistent else reqPersistent))
              let modified ← modified.overwrite? (place + 8) (place + 16)
                (ofU64 (if useV then volatile else reqVolatile))
              let modifiedBody ← modified.from? SMB2_HEADER_SIZE
              some (modifiedBody, modified)
            else some (body, fullMessage)
          else some (body, fullMessage)
        else some (body, fullMessage)
  else some (body, fullMessage)

theorem readFileId {o : ℕ} (h : o + 8 ≤ (fullMessage.drop SMB2_HEADER_SIZE).length) :
    (range? (fullMessage.drop SMB2_HEADER_SIZE) o (o + 8)).map (u64 · 0) =
      some (fullMessage.u64 (SMB2_HEADER_SIZE + o)) := by
  rw [range?_eq_some (by omega) h, map_some, Nat.add_sub_cancel_left,
    u64_slice (Nat.le_refl 8), u64_drop]

theorem overwriteFileId {place : ℕ} (hplace : SMB2_HEADER_SIZE ≤ place)
    (h : place + 16 ≤ fullMessage.length) (p v : UInt64) :
    ((fullMessage.overwrite? place (place + 8) (ofU64 p)).bind fun modified =>
      (modified.overwrite? (place + 8) (place + 16) (ofU64 v)).bind fun modified =>
        (modified.from? SMB2_HEADER_SIZE).bind fun body => some (body, modified)) =
      some ((fullMessage.splice place (ofU64 p ++ ofU64 v)).drop SMB2_HEADER_SIZE,
        fullMessage.splice place (ofU64 p ++ ofU64 v)) := by
  have hp := length_ofU64 p
  have hv := length_ofU64 v
  have hfirst : (fullMessage.splice place (ofU64 p)).length = fullMessage.length :=
    length_splice (by omega)
  have hboth : (fullMessage.splice place (ofU64 p ++ ofU64 v)).length =
      fullMessage.length := length_splice (by rw [length_append]; omega)
  have hsplice := splice_splice (ofU64 v)
    (show place + (ofU64 p).length ≤ fullMessage.length by omega)
  rw [hp] at hsplice
  rw [overwrite?_eq_some hp (by omega), bind_some,
    show place + 16 = place + 8 + 8 by omega, overwrite?_eq_some hv (by omega),
    bind_some, hsplice, from?_eq_some (by omega), bind_some]

theorem substituteFileId_eq (command : Smb2Command) (override : Option (UInt64 × UInt64))
    (hlen : SMB2_HEADER_SIZE ≤ fullMessage.length) :
    substituteFileId command override (fullMessage.drop SMB2_HEADER_SIZE) fullMessage =
      some ((RustSmb.substituteFileId command override fullMessage).drop SMB2_HEADER_SIZE,
        RustSmb.substituteFileId command override fullMessage) := by
  unfold substituteFileId RustSmb.substituteFileId
  rw [takesFileId_eq]
  cases hoff : fileidBodyOffset command with
  | none => cases override <;> rfl
  | some offset =>
    cases override with
    | none => rfl
    | some ids =>
      obtain ⟨persistent, volatile⟩ := ids
      simp only [isSome_some, if_true, bind_eq_bind, bind_some]
      by_cases hfits : fullMessage.length ≥ SMB2_HEADER_SIZE + offset + 16
      · have hbody : (fullMessage.drop SMB2_HEADER_SIZE).length ≥ offset + 16 := by
          rw [length_drop]
          omega
        rw [if_pos hbody, if_pos hfits, readFileId (by omega), readFileId (by omega)]
        simp only [bind_some]
        rw [← Nat.add_assoc]
        generalize fullMessage.u64 (SMB2_HEADER_SIZE + offset) = reqPersistent
        generalize fullMessage.u64 (SMB2_HEADER_SIZE + offset + 8) = reqVolatile
        generalize (reqPersistent == 0xFFFFFFFFFFFFFFFF || reqPersistent != persistent) = useP
        generalize (reqVolatile == 0xFFFFFFFFFFFFFFFF || reqVolatile != volatile) = useV
        split
        · exact overwriteFileId (by omega) (by omega) _ _
        · rfl
      · have hbody : ¬ (fullMessage.drop SMB2_HEADER_SIZE).length ≥ offset + 16 := by
          rw [length_drop]
          omega
        rw [if_neg hbody, if_neg hfits]

/-! ### Commands -/

open Proc Handler

variable [Externs]

/-- Methods of a connection handler that can panic. -/
abbrev Guarded := Proc SmbT ConnectionHandler (Fault HandlerError)

def createdFileId (command : Smb2Command) (response : Bytes) :
    Option (Option (UInt64 × UInt64)) :=
  if command = .create ∧ response.length ≥ SMB2_HEADER_SIZE + 64 + 16 then do
    let persistent ← (response.range? (SMB2_HEADER_SIZE + 64) (SMB2_HEADER_SIZE + 72)).map
      (u64 · 0)
    let volatile ← (response.range? (SMB2_HEADER_SIZE + 72) (SMB2_HEADER_SIZE + 80)).map
      (u64 · 0)
    some (some (persistent, volatile))
  else some none

/-- As `Handler.processSingleMessage`, with the slice checked. -/
def processSingleMessage (header : Smb2Header) (message : Bytes) : Guarded Bytes := do
  sound (consumeCredits header)
  let body ← orPanic (message.from? SMB2_HEADER_SIZE)
  let response ← sound (dispatchCommand message header body message)
  pure (responseBytes response)

def dispatchCommandCompound (header : Smb2Header) (body fullMessage : Bytes)
    (ctx : CompoundContext) : Guarded (Bytes × Option (UInt64 × UInt64)) := do
  let (body, message) ← orPanic
    (substituteFileId header.command ctx.fileIdOverride body fullMessage)
  let response ← sound (dispatchCommand fullMessage header body message)
  let fileId ← orPanic (createdFileId header.command (responseBytes response))
  pure (responseBytes response, fileId)

def executeCompoundCommand (st : CompoundState) (header : Smb2Header) (cmdData : Bytes) :
    Guarded (Bytes × CompoundState) := do
  sound (consumeCredits header)
  let body ← orPanic (cmdData.from? SMB2_HEADER_SIZE)
  match ← attemptSound (dispatchCommandCompound header body cmdData st.ctx) with
  | .ok (response, fileId) => do
      let ctx :=
        if st.ctx.isFirst then
          { st.ctx with sessionId := some header.sessionId, treeId := some header.treeId }
        else st.ctx
      let response ← sound (signResponse response)
      pure (response, ⟨ctx.advance fileId, st.lastError⟩)
  | .error e => sound (compoundError st header e.toStatus)

def processCompoundCommand (st : CompoundState) (cmdData : Bytes) :
    Guarded (Bytes × CompoundState) :=
  match Smb2Header.read cmdData with
  | none =>
      sound (compoundError st
        { command := .negotiate
          creditCharge := 1
          treeId := st.ctx.treeId.getD 0
          sessionId := st.ctx.sessionId.getD 0 }
        .invalidParameter)
  | some header => do
      let header ← sound (effectiveHeader st header)
      match inheritedError st with
      | some status => sound (compoundError st header status)
      | none => executeCompoundCommand st header cmdData

/-- Where the next command starts, or the message ends. -/
def commandEnd (message : Bytes) (offsets : List ℕ) (i : ℕ) : Option ℕ :=
  if i + 1 < offsets.length then offsets[i + 1]? else some message.length

/-- Process the commands of a compound at the offsets that are left, the first of which is number
`i`. -/
def processCompoundCommands (message : Bytes) (offsets : List ℕ) :
    List ℕ → ℕ → CompoundState → Guarded (List Bytes)
  | [], _, _ => pure []
  | offset :: rest, i, st => do
      let cmdEnd ← orPanic (commandEnd message offsets i)
      let cmdData ← orPanic (message.range? offset cmdEnd)
      let (response, st) ← processCompoundCommand st cmdData
      let responses ← processCompoundCommands message offsets rest (i + 1) st
      pure (response :: responses)

def processCompoundRequest (header : Smb2Header) (message : Bytes) : Guarded Bytes := do
  let offsets ← orPanic (parseCompoundOffsets message)
  if offsets.length < 2 then processSingleMessage header message
  else do
    let second ← orPanic offsets[1]?
    let rest ← orPanic (message.from? second)
    let secondHeader ← sound (lift (parsed (Smb2Header.read rest)))
    let isRelated := Smb2Flags.isRelated secondHeader.flags
    let responses ← processCompoundCommands message offsets offsets 0
      ⟨{ related := isRelated }, none⟩
    let s ← sound get
    sound (ofExcept (combineCompoundResponses s.signingKeys isRelated responses))

/-- As `Handler.processMessage`, with every slice checked. -/
def processMessage (message : Bytes) : Guarded Bytes :=
  if message.length < SMB2_HEADER_SIZE then throw (.failed .protocol)
  else do
    let magic ← orPanic (message.range? 0 4)
    if magic ≠ SMB2_MAGIC then throw (.failed .protocol)
    else do
      let header ← sound (lift (parsed (Smb2Header.read message)))
      if header.nextCommand ≠ 0 then processCompoundRequest header message
      else processSingleMessage header message

/-! ### No panics -/

omit [Externs] in
theorem createdFileId_eq (command : Smb2Command) (response : Bytes) :
    createdFileId command response = some (Handler.createdFileId command response) := by
  unfold createdFileId Handler.createdFileId
  split
  · next h =>
    rw [range?_eq_some (by omega) (by omega), range?_eq_some (by omega) (by omega)]
    simp [u64_slice]
  · rfl

variable (header : Smb2Header)

theorem processSingleMessage_eq (hlen : SMB2_HEADER_SIZE ≤ message.length) :
    processSingleMessage header message = sound (Handler.processSingleMessage header message) := by
  unfold processSingleMessage Handler.processSingleMessage
  rw [from?_eq_some hlen]
  simp only [sound_bind, orPanic_some, pure_bind, sound_pure]

theorem dispatchCommandCompound_eq (hlen : SMB2_HEADER_SIZE ≤ fullMessage.length)
    (ctx : CompoundContext) :
    dispatchCommandCompound header (fullMessage.drop SMB2_HEADER_SIZE) fullMessage ctx =
      sound (Handler.dispatchCommandCompound header fullMessage ctx) := by
  unfold dispatchCommandCompound Handler.dispatchCommandCompound
  rw [substituteFileId_eq _ _ hlen]
  simp only [sound_bind, orPanic_some, pure_bind, sound_pure, createdFileId_eq]

theorem executeCompoundCommand_eq (st : CompoundState) (header : Smb2Header) {cmdData : Bytes}
    (hlen : SMB2_HEADER_SIZE ≤ cmdData.length) :
    executeCompoundCommand st header cmdData =
      sound (Handler.executeCompoundCommand st header cmdData) := by
  unfold executeCompoundCommand Handler.executeCompoundCommand
  rw [from?_eq_some hlen]
  simp only [sound_bind, orPanic_some, pure_bind, dispatchCommandCompound_eq header hlen,
    attemptSound_sound]
  congr 1
  funext _
  congr 1
  funext outcome
  rcases outcome with _ | ⟨response, fileId⟩
  · rfl
  · simp only [sound_bind, sound_pure]

/-- The commands are cut out without panics: a header that can be read has all its bytes. -/
theorem processCompoundCommand_eq (st : CompoundState) (cmdData : Bytes) :
    processCompoundCommand st cmdData = sound (Handler.processCompoundCommand st cmdData) := by
  unfold processCompoundCommand Handler.processCompoundCommand
  cases hread : Smb2Header.read cmdData with
  | none => rfl
  | some header =>
    simp only [sound_bind]
    congr 1
    funext header
    cases inheritedError st with
    | some status => rfl
    | none => exact executeCompoundCommand_eq st header (Smb2Header.read_isSome_length hread)

omit [Externs] in
theorem range?_command {offsets pre rest : List ℕ} {offset : ℕ} (hsorted : offsets.Pairwise (· < ·))
    (hbelow : ∀ o ∈ offsets, o < message.length) (h : offsets = pre ++ offset :: rest) :
    commandEnd message offsets pre.length = some (rest.headD message.length) ∧
      message.range? offset (rest.headD message.length) =
        (compoundCommands message (offset :: rest)).head? := by
  have hoff := hbelow offset (by simp [h])
  unfold commandEnd
  cases rest with
  | nil =>
    rw [if_neg (by simp [h]), headD_nil, range?_eq_some (by omega) (Nat.le_refl _)]
    refine ⟨rfl, ?_⟩
    rw [slice, take_of_length_le (by rw [length_drop])]
    rfl
  | cons next rest =>
    have hnext := hbelow next (by simp [h])
    have hlt : offset < next := by
      rw [h, pairwise_append, pairwise_cons] at hsorted
      exact hsorted.2.1.1 next mem_cons_self
    have hidx : offsets[pre.length + 1]? = some next := by
      rw [h, getElem?_append_right (by omega)]
      simp
    rw [if_pos (by simp [h]), hidx, headD_cons, range?_eq_some (by omega) (by omega)]
    exact ⟨rfl, rfl⟩

theorem processCompoundCommands_eq {offsets : List ℕ} (hsorted : offsets.Pairwise (· < ·))
    (hbelow : ∀ o ∈ offsets, o < message.length) (pre : List ℕ) {rest : List ℕ}
    (h : offsets = pre ++ rest) (st : CompoundState) :
    processCompoundCommands message offsets rest pre.length st =
      sound (Handler.processCompoundCommands (compoundCommands message rest) st) := by
  induction rest generalizing pre st with
  | nil => rfl
  | cons offset rest ih =>
    obtain ⟨hend, hcut⟩ := range?_command hsorted hbelow h
    obtain ⟨cmdData, hcommands⟩ : ∃ cmdData, compoundCommands message (offset :: rest) =
        cmdData :: compoundCommands message rest := by
      cases rest with
      | nil | cons _ _ => exact ⟨_, rfl⟩
    rw [hcommands, head?_cons] at hcut
    rw [processCompoundCommands, hend, orPanic_some, pure_bind, hcut, orPanic_some,
      pure_bind, hcommands, Handler.processCompoundCommands, sound_bind,
      processCompoundCommand_eq]
    congr 1
    funext r
    obtain ⟨response, st⟩ := r
    have hrest := ih (pre ++ [offset]) (by simp [h]) st
    rw [length_append, length_singleton] at hrest
    simp only [hrest, sound_bind, sound_pure]

theorem processCompoundRequest_eq (hlen : SMB2_HEADER_SIZE ≤ message.length) :
    processCompoundRequest header message =
      sound (Handler.processCompoundRequest header message) := by
  have hsorted : (RustSmb.parseCompoundOffsets message).Pairwise (· < ·) :=
    pairwise_compoundOffsetsFrom ..
  have hbelow : ∀ o ∈ RustSmb.parseCompoundOffsets message, o < message.length :=
    fun o ho => (mem_compoundOffsetsFrom ho).2
  unfold processCompoundRequest Handler.processCompoundRequest
  rw [parseCompoundOffsets_eq, orPanic_some, pure_bind]
  have hhead : (RustSmb.parseCompoundOffsets message).head? = some 0 := by
    refine head?_parseCompoundOffsets fun h => ?_
    rw [h] at hlen
    exact absurd hlen (by decide)
  generalize RustSmb.parseCompoundOffsets message = offsets at hsorted hbelow hhead
  match offsets with
  | [] => exact processSingleMessage_eq header hlen
  | [_] => exact processSingleMessage_eq header hlen
  | first :: second :: rest =>
    obtain rfl : first = 0 := some.inj hhead
    have hsec := hbelow second (by simp)
    have hloop := processCompoundCommands_eq hsorted hbelow [] rfl
    rw [length_nil] at hloop
    rw [if_neg (by simp)]
    simp only [getElem?_cons_succ, getElem?_cons_zero, orPanic_some, pure_bind,
      from?_eq_some (Nat.le_of_lt hsec), sound_bind]
    congr 1
    funext secondHeader
    rw [hloop]

end Checked

/-- **No slice of a message is out of bounds.**  The offsets of the loop start at zero, increase
and stay inside the message, and to process a message with panics is to process it without. -/
theorem checked_processMessage [Externs] (message : Bytes) :
    Checked.parseCompoundOffsets message = some (parseCompoundOffsets message) ∧
      (message ≠ [] → (parseCompoundOffsets message).head? = some 0) ∧
      (parseCompoundOffsets message).Pairwise (· < ·) ∧
      (∀ o ∈ parseCompoundOffsets message, o < message.length) ∧
      Checked.processMessage message = Proc.sound (Handler.processMessage message) := by
  refine ⟨Checked.parseCompoundOffsets_eq message, head?_parseCompoundOffsets,
    pairwise_compoundOffsetsFrom .., fun o ho => (mem_compoundOffsetsFrom ho).2, ?_⟩
  unfold Checked.processMessage Handler.processMessage
  have hshort : ∀ m : Bytes, Smb2Header.read m = none →
      Proc.sound (Proc.lift (Handler.parsed (Smb2Header.read m)) >>= fun header =>
        if header.nextCommand ≠ 0 then Handler.processCompoundRequest header m
        else Handler.processSingleMessage header m) = Proc.throw (.failed .protocol) := by
    intro m hm
    rw [hm]
    rfl
  split
  · next hlen => rw [hshort message (if_pos hlen)]
  · next hlen =>
    have hlen' : SMB2_HEADER_SIZE ≤ message.length := Nat.le_of_not_lt hlen
    rw [Bytes.range?_eq_some (by omega) (Nat.le_trans (by decide) hlen'), Proc.orPanic_some,
      Proc.pure_bind]
    split
    · next hmagic =>
      have hread : Smb2Header.read message = none := by
        unfold Smb2Header.read
        rw [if_neg hlen, if_pos (by simpa [Bytes.slice] using hmagic)]
      rw [hshort message hread]
    · rw [Proc.sound_bind]
      congr 1
      funext header
      split
      · exact Checked.processCompoundRequest_eq header hlen'
      · exact Checked.processSingleMessage_eq header hlen'

end RustSmb
