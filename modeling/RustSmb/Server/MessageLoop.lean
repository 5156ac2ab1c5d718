import RustSmb.Lib.Incremental
import RustSmb.Server.Message

/-!
# The message loop of a connection

A connection reads from its socket into a buffer and processes the complete messages at the front of
the buffer one after the other.  Between two reads it may be woken up to send a break notification.
Messages are framed by four bytes: a type that is not looked at and a length of 24 bits.

## Main results

* `runMessageLoop_waiting` — what a loop has handed over that waits.
* `runMessageLoop_delivers` — **messages are handed to processing in order and once each, however
  the stream is cut.**

Source: `rustsmb-server/src/handler.rs`.
-/

namespace RustSmb

open FrontParser Nat List

/-! ### Frames -/

/-- The three bytes of the length, the high one first. -/
def frameLength (buf : Bytes) : ℕ :=
  ((buf.getD 1 0).toNat <<< 16) ||| ((buf.getD 2 0).toNat <<< 8) ||| (buf.getD 3 0).toNat

/-- Take a message from the front of the read buffer, if there is a complete one. -/
def tryParseMessage (readBuf : Bytes) : Option (Bytes × Bytes) :=
  if readBuf.length < 4 then none
  else if readBuf.length < 4 + frameLength readBuf then none
  else
    some ((readBuf.drop 4).take (frameLength readBuf), (readBuf.drop 4).drop (frameLength readBuf))

/-- The prefix of a frame, which has room for 24 bits of the length. -/
def netbiosHeader (len : ℕ) : Bytes :=
  [0x00, UInt8.ofNat (len >>> 16), UInt8.ofNat (len >>> 8), UInt8.ofNat len]

def frame (message : Bytes) : Bytes := netbiosHeader message.length ++ message

theorem frameLength_eq (buf : Bytes) :
    frameLength buf =
      (buf.getD 1 0).toNat * 2 ^ 16 + (buf.getD 2 0).toNat * 2 ^ 8 + (buf.getD 3 0).toNat := by
  have hlow : (buf.getD 3 0).toNat < 2 ^ 8 := (buf.getD 3 0).toNat_lt
  have hmid : (buf.getD 2 0).toNat < 2 ^ 8 := (buf.getD 2 0).toNat_lt
  have htwo : (buf.getD 2 0).toNat <<< 8 ||| (buf.getD 3 0).toNat =
      (buf.getD 2 0).toNat * 2 ^ 8 + (buf.getD 3 0).toNat := by
    rw [← shiftLeft_add_eq_or_of_lt hlow, shiftLeft_eq]
  have hbound : (buf.getD 2 0).toNat * 2 ^ 8 + (buf.getD 3 0).toNat < 2 ^ 16 := by omega
  unfold frameLength
  rw [Nat.or_assoc, htwo, ← shiftLeft_add_eq_or_of_lt hbound, shiftLeft_eq, add_assoc]

theorem frameLength_frame (message more : Bytes) :
    frameLength (frame message ++ more) = message.length % 2 ^ 24 := by
  have hbytes : frameLength (frame message ++ more) =
      (UInt8.ofNat (message.length >>> 16)).toNat * 2 ^ 16 +
        (UInt8.ofNat (message.length >>> 8)).toNat * 2 ^ 8 +
        (UInt8.ofNat message.length).toNat := frameLength_eq _
  rw [hbytes, UInt8.toNat_ofNat', UInt8.toNat_ofNat', UInt8.toNat_ofNat',
    shiftRight_eq_div_pow, shiftRight_eq_div_pow]
  omega

theorem tryParseMessage_frame_mod (message more : Bytes) :
    tryParseMessage (frame message ++ more) =
      some (message.take (message.length % 2 ^ 24),
        message.drop (message.length % 2 ^ 24) ++ more) := by
  have hle : message.length % 2 ^ 24 ≤ message.length := mod_le _ _
  have htotal : (frame message ++ more).length = 4 + message.length + more.length := by
    simp [frame, netbiosHeader]
    omega
  have hdrop : (frame message ++ more).drop 4 = message ++ more := rfl
  unfold tryParseMessage
  rw [frameLength_frame, htotal, if_neg (by omega), if_neg (by omega), hdrop,
    take_append_of_le_length hle, drop_append_of_le_length hle]

theorem tryParseMessage_frame {message : Bytes} (hlen : message.length < 2 ^ 24) (more : Bytes) :
    tryParseMessage (frame message ++ more) = some (message, more) := by
  rw [tryParseMessage_frame_mod, mod_eq_of_lt hlen, take_length, drop_length, nil_append]

/-- What is found at the front of the buffer does not change when more is read. -/
theorem frameLength_append {buf : Bytes} (h : 4 ≤ buf.length) (more : Bytes) :
    frameLength (buf ++ more) = frameLength buf := by
  have hbyte : ∀ i < 4, (buf ++ more).getD i 0 = buf.getD i 0 := by
    intro i hi
    rw [getD_append _ _ _ _ (by omega)]
  unfold frameLength
  rw [hbyte 1 (by omega), hbyte 2 (by omega), hbyte 3 (by omega)]

theorem tryParseMessage_eq_some {buf message rest : Bytes}
    (h : tryParseMessage buf = some (message, rest)) :
    4 + frameLength buf ≤ buf.length ∧ message = (buf.drop 4).take (frameLength buf) ∧
      rest = (buf.drop 4).drop (frameLength buf) := by
  unfold tryParseMessage at h
  split at h
  · cases h
  split at h
  · cases h
  · next hlong =>
    obtain ⟨rfl, rfl⟩ := Prod.mk.inj (Option.some.inj h)
    exact ⟨not_lt.1 hlong, rfl, rfl⟩

/-- A parsed message comes off the buffer with the four bytes of its length. -/
def messageParser : FrontParser UInt8 Bytes where
  parse := tryParseMessage
  shorter h := by
    obtain ⟨hlen, -, rfl⟩ := tryParseMessage_eq_some h
    rw [length_drop, length_drop]
    omega
  stable h more := by
    obtain ⟨hlen, rfl, rfl⟩ := tryParseMessage_eq_some h
    unfold tryParseMessage
    rw [frameLength_append (by omega), length_append, if_neg (by omega), if_neg (by omega),
      drop_append_of_le_length (by omega),
      take_append_of_le_length (by rw [length_drop]; omega),
      drop_append_of_le_length (by rw [length_drop]; omega)]

/-! ### The loop -/

/-- What the loop is woken up by.  A read of no bytes is the end of the stream. -/
inductive LoopEvent where
  | leaseBreak (event : LeaseBreakEvent)
  | oplockBreak (event : OplockBreakEvent)
  | read (data : Bytes)
  | readFailed

/-- Why a loop ends. -/
inductive LoopEnd where
  | disconnecting
  | closedByClient
  | incompleteMessage
  | readFailed
  | processingFailed (e : HandlerError)
  deriving DecidableEq

/-- What the loop then returns. -/
def LoopEnd.result : LoopEnd → Except HandlerError Unit
  | disconnecting | closedByClient => .ok ()
  | incompleteMessage => .error .protocol
  | readFailed => .error .io
  | processingFailed e => .error e

/-- The methods of a connection that the loop calls.  Notifications that cannot be sent are
only logged. -/
structure Processing (σ : Type) where
  processAndRespond : Bytes → σ → Except HandlerError Unit × σ
  isDisconnecting : σ → Bool
  sendLeaseBreakNotification : LeaseBreakEvent → σ → σ
  sendOplockBreakNotification : OplockBreakEvent → σ → σ

/-- The state of the loop, with the messages that were handed to processing. -/
structure LoopState (σ : Type) where
  connection : σ
  readBuf : Bytes := []
  handed : List Bytes := []

section Loop

variable {σ : Type} (P : Processing σ)

/-- All whole messages of the buffer, one after the other. -/
def processBuffered : ℕ → LoopState σ → LoopState σ × Option LoopEnd
  | 0, st => (st, none)
  | n + 1, st =>
      match tryParseMessage st.readBuf with
      | none => (st, none)
      | some (message, rest) =>
          let processed := P.processAndRespond message st.connection
          let st : LoopState σ := ⟨processed.2, rest, st.handed ++ [message]⟩
          match processed.1 with
          | .error e => (st, some (.processingFailed e))
          | .ok () =>
              if P.isDisconnecting st.connection then (st, some .disconnecting)
              else processBuffered n st

/-- One turn of the loop. -/
def onEvent (st : LoopState σ) : LoopEvent → LoopState σ × Option LoopEnd
  | .leaseBreak event =>
      ({ st with connection := P.sendLeaseBreakNotification event st.connection }, none)
  | .oplockBreak event =>
      ({ st with connection := P.sendOplockBreakNotification event st.connection }, none)
  | .read [] => (st, some (if st.readBuf.isEmpty then .closedByClient else .incompleteMessage))
  | .read (byte :: data) => ({ st with readBuf := st.readBuf ++ byte :: data }, none)
  | .readFailed => (st, some .readFailed)

/-- Goes on where the loop has not ended. -/
def unlessEnded (r : LoopState σ × Option LoopEnd)
    (next : LoopState σ → LoopState σ × Option LoopEnd) : LoopState σ × Option LoopEnd :=
  match r.2 with
  | some e => (r.1, some e)
  | none => next r.1

/-- The loop, until it ends or waits for more. -/
def runMessageLoop : List LoopEvent → LoopState σ → LoopState σ × Option LoopEnd
  | [], st => processBuffered P st.readBuf.length st
  | event :: events, st =>
      unlessEnded (processBuffered P st.readBuf.length st) fun st =>
        unlessEnded (onEvent P st event) (runMessageLoop events)

/-! ### Invariants of a connection -/

/-! ### What is handed over -/

/-- A message has caused the end. -/
def LoopEnd.byProcessing : LoopEnd → Bool
  | disconnecting | processingFailed _ => true
  | closedByClient | incompleteMessage | readFailed => false

/-- Events that do not end the loop: break notifications, and reads of some bytes. -/
def LoopEvent.goesOn : LoopEvent → Bool
  | leaseBreak _ | oplockBreak _ => true
  | read data => !data.isEmpty
  | readFailed => false

def LoopEvent.bytes : LoopEvent → Bytes
  | read data => data
  | leaseBreak _ | oplockBreak _ | readFailed => []

/-- Where the loop is, if its buffer and the reads to come hold some messages and other bytes: it
has ended in one of them, or has handed over all and keeps the other bytes. -/
def Delivered (messages : List Bytes) (tail : Bytes) (r : LoopState σ × Option LoopEnd) : Prop :=
  (∃ e, r.2 = some e ∧ e.byProcessing = true ∧ r.1.handed <+: messages) ∨
    (r.2 = none ∧ r.1.handed = messages ∧ r.1.readBuf = tail)

variable {P}

theorem delivered_processBuffered {n : ℕ} (st : LoopState σ) (hn : st.readBuf.length ≤ n) :
    Delivered (st.handed ++ (messageParser.drain st.readBuf).1)
      (messageParser.drain st.readBuf).2 (processBuffered P n st) := by
  induction n generalizing st with
  | zero =>
    have hnil : st.readBuf = [] := length_eq_zero_iff.1 (le_zero.1 hn)
    refine .inr ⟨rfl, ?_, ?_⟩
    · rw [hnil]
      exact (append_nil _).symm
    · rw [hnil]
      exact hnil
  | succ n ih =>
    cases hparse : tryParseMessage st.readBuf with
    | none =>
      have hdrain : messageParser.drain st.readBuf = ([], st.readBuf) := drain_of_none hparse
      rw [hdrain, processBuffered, hparse, append_nil]
      exact .inr ⟨rfl, rfl, rfl⟩
    | some item =>
      obtain ⟨message, rest⟩ := item
      have hlt : rest.length < st.readBuf.length := messageParser.shorter hparse
      rw [drain_of_some hparse, processBuffered, hparse]
      dsimp only
      -- an end in processing leaves the rest of the messages
      have hstart : st.handed ++ [message] <+:
          st.handed ++ message :: (messageParser.drain rest).1 :=
        ⟨(messageParser.drain rest).1, by simp⟩
      split
      · exact .inl ⟨_, rfl, rfl, hstart⟩
      · split
        · exact .inl ⟨_, rfl, rfl, hstart⟩
        · have hrest := ih ⟨(P.processAndRespond message st.connection).2, rest,
            st.handed ++ [message]⟩ (by change rest.length ≤ n; omega)
          rw [append_assoc] at hrest
          exact hrest

theorem onEvent_of_goesOn {event : LoopEvent} (h : event.goesOn = true) (st : LoopState σ) :
    (onEvent P st event).2 = none ∧ (onEvent P st event).1.handed = st.handed ∧
      (onEvent P st event).1.readBuf = st.readBuf ++ event.bytes := by
  cases event with
  | leaseBreak _ | oplockBreak _ => exact ⟨rfl, rfl, (append_nil _).symm⟩
  | read data =>
    cases data with
    | nil => cases h
    | cons byte data => exact ⟨rfl, rfl, rfl⟩
  | readFailed => cases h

theorem Delivered.unlessEnded {messages messages' : List Bytes} {tail tail' : Bytes}
    {r : LoopState σ × Option LoopEnd} {next : LoopState σ → LoopState σ × Option LoopEnd}
    (h : Delivered messages tail r) (hstart : messages <+: messages')
    (hnext : r.1.handed = messages → r.1.readBuf = tail → Delivered messages' tail' (next r.1)) :
    Delivered messages' tail' (unlessEnded r next) := by
  obtain ⟨st, ended⟩ := r
  rcases h with ⟨e, rfl, hby, hhanded⟩ | ⟨rfl, hhanded, htail⟩
  · exact .inl ⟨e, rfl, hby, hhanded.trans hstart⟩
  · exact hnext hhanded htail

/-- **A loop that waits has handed over the messages of all that was read.** -/
theorem runMessageLoop_waiting {events : List LoopEvent} (hevs : ∀ e ∈ events, e.goesOn = true)
    (st : LoopState σ) :
    Delivered
      (st.handed ++ (messageParser.drain (st.readBuf ++ events.flatMap LoopEvent.bytes)).1)
      (messageParser.drain (st.readBuf ++ events.flatMap LoopEvent.bytes)).2
      (runMessageLoop P events st) := by
  induction events generalizing st with
  | nil =>
    rw [flatMap_nil, append_nil]
    exact delivered_processBuffered st (le_refl _)
  | cons event events ih =>
    rw [flatMap_cons, drain_append]
    refine (delivered_processBuffered st (le_refl _)).unlessEnded ?_ ?_
    · rw [← append_assoc]
      exact prefix_append _ _
    · intro hhanded htail
      generalize (processBuffered P st.readBuf.length st).1 = st' at hhanded htail ⊢
      obtain ⟨hgoes, hsame, hread⟩ := onEvent_of_goesOn (hevs event mem_cons_self) st'
      have hrest := ih (fun e he => hevs e (mem_cons_of_mem _ he)) (onEvent P st' event).1
      rw [hsame, hread, hhanded, htail, append_assoc, append_assoc] at hrest
      unfold unlessEnded
      rw [hgoes]
      exact hrest

theorem unlessEnded_assoc (r : LoopState σ × Option LoopEnd)
    (f g : LoopState σ → LoopState σ × Option LoopEnd) :
    unlessEnded (unlessEnded r f) g = unlessEnded r fun st => unlessEnded (f st) g := by
  obtain ⟨st, ended⟩ := r
  cases ended <;> rfl

theorem runMessageLoop_concat (events : List LoopEvent) (event : LoopEvent) (st : LoopState σ) :
    runMessageLoop P (events ++ [event]) st =
      unlessEnded (runMessageLoop P events st) fun st =>
        unlessEnded (onEvent P st event) (runMessageLoop P []) := by
  induction events generalizing st with
  | nil => rfl
  | cons first events ih =>
    have hrest : runMessageLoop P (events ++ [event]) = fun st =>
        unlessEnded (runMessageLoop P events st) fun st =>
          unlessEnded (onEvent P st event) (runMessageLoop P []) := funext ih
    simp only [cons_append, runMessageLoop, hrest, unlessEnded_assoc]

/-- The part of a frame that has been read when the stream ends. -/
def PartOfFrame (tail : Bytes) : Prop :=
  ∃ message : Bytes, message.length < 2 ^ 24 ∧ tail <+: frame message ∧ tail ≠ frame message

theorem drain_stream {messages : List Bytes} (hlen : ∀ m ∈ messages, m.length < 2 ^ 24)
    {tail : Bytes} (htail : PartOfFrame tail) :
    messageParser.drain ((messages.map frame).flatten ++ tail) = (messages, tail) := by
  obtain ⟨message, hmsg, hstart, hne⟩ := htail
  have hparse : ∀ m : Bytes, m.length < 2 ^ 24 →
      ∀ more, messageParser.parse (frame m ++ more) = some (m, more) :=
    fun m hm more => tryParseMessage_frame hm more
  have hpart : messageParser.parse tail = none := parse_of_part (hparse message hmsg) hstart hne
  rw [drain_encoded fun m hm => hparse m (hlen m hm), drain_of_none hpart, append_nil]

/-- **The messages of a stream are handed to processing, in order and each once**, however the
stream is cut into reads.  If processing neither fails nor disconnects, all of them are, and the
loop reports an incomplete message exactly if part of a frame is left over. -/
theorem runMessageLoop_delivers (P : Processing σ) (connection : σ) {messages : List Bytes}
    (hlen : ∀ m ∈ messages, m.length < 2 ^ 24) {tail : Bytes} (htail : PartOfFrame tail)
    {events : List LoopEvent} (hevents : ∀ e ∈ events, e.goesOn = true)
    (hstream : events.flatMap LoopEvent.bytes = (messages.map frame).flatten ++ tail) :
    Delivered messages tail (runMessageLoop P events { connection }) ∧
      let r := runMessageLoop P (events ++ [.read []]) { connection }
      r.1.handed <+: messages ∧
        ((∃ e, r.2 = some e ∧ e.byProcessing = true) ∨
          (r.1.handed = messages ∧
            r.2 = some (if tail = [] then .closedByClient else .incompleteMessage))) := by
  have hwait := runMessageLoop_waiting (P := P) hevents { connection }
  rw [nil_append, nil_append, hstream, drain_stream hlen htail] at hwait
  refine ⟨hwait, ?_⟩
  rw [runMessageLoop_concat]
  generalize runMessageLoop P events { connection } = r at hwait ⊢
  obtain ⟨st, ended⟩ := r
  rcases hwait with ⟨e, rfl, hby, hhanded⟩ | ⟨rfl, rfl, rfl⟩
  · exact ⟨hhanded, .inl ⟨e, rfl, hby⟩⟩
  · refine ⟨prefix_rfl, .inr ⟨rfl, ?_⟩⟩
    simp [unlessEnded, onEvent]

end Loop

namespace Sample

def counting : Processing ℕ where
  processAndRespond _ n := (.ok (), n + 1)
  isDisconnecting _ := false
  sendLeaseBreakNotification _ n := n
  sendOplockBreakNotification _ n := n

/-- Two messages in reads cut inside the prefixes, with a break between them and half a prefix at
the end. -/
theorem delivers_two :
    Delivered [[1, 2, 3], [4]] [0, 0]
        (runMessageLoop counting [.read [0, 0], .leaseBreak ⟨"key", 7, 1, 2, true, 1⟩,
          .read [0, 3, 1, 2], .read [3, 0, 0, 0], .read [1, 4, 0, 0]] ⟨0, [], []⟩) ∧
      let r := runMessageLoop counting ([.read [0, 0], .leaseBreak ⟨"key", 7, 1, 2, true, 1⟩,
        .read [0, 3, 1, 2], .read [3, 0, 0, 0], .read [1, 4, 0, 0]] ++ [.read []]) ⟨0, [], []⟩
      r.1.handed <+: [[1, 2, 3], [4]] ∧
        ((∃ e, r.2 = some e ∧ e.byProcessing = true) ∨
          (r.1.handed = [[1, 2, 3], [4]] ∧
            r.2 = some (if ([0, 0] : Bytes) = [] then .closedByClient else .incompleteMessage))) :=
  runMessageLoop_delivers counting 0 (by decide) ⟨[], by decide, ⟨[0, 0], rfl⟩, by decide⟩
    (by decide) rfl

end Sample

end RustSmb
