import RustSmb.Auth.Ntlm
import RustSmb.System.Trace

/-!
# Runs that can be computed

A run in which one connection works at a time is followed by evaluation.  What a list
of messages leads to is then reached by a run, and so is every point in the middle of
a message.  A schedule of single steps describes runs in which connections take turns.

## Main results

* `run_serveAll`, `run_takeTurns`, `exists_point`, `run_playAll` — **what is computed is a run.**
-/

namespace RustSmb

open Function Bytes

section Run

variable [Externs] {α β : Type} [AuthProvider α] [StorageBackend β]
  (ok : World α β → SmbOp ⊕ Mark → Prop)

/-- A state between messages, with the calls that led to it. -/
structure Snapshot where
  world : World α β
  conn : ℕ → Conn
  trace : Trace ok

/-- A point in a message: the world, the trace, the message's history and the call that comes
next. -/
structure Point where
  world : World α β
  trace : Trace ok
  history : List (smbMachine α β ok).Stamped
  op : SmbOp

variable {ok} [∀ w o, Decidable (ok w o)]

/-- Follow a program of a connection for at most `n` calls, as long as they meet `ok`. -/
def followConn (n : ℕ) (p : Prog SmbT Conn) (w : World α β) :
    Option (Prog SmbT Conn × World α β × List (smbMachine α β ok).Stamped) :=
  Machine.follow (M := smbMachine α β ok) (Prog.answerMarks World.answer)
    (fun w o => decide (ok w o)) n p w []

/-- The number of calls after which following a message is given up. -/
def CALL_LIMIT : ℕ := 1000

/-- A connection takes a message and answers it. -/
def serve (st : Snapshot ok) (m : ℕ × Bytes) : Option (Snapshot ok) :=
  match st.conn m.1 with
  | .closed => none
  | .open s =>
      match followConn CALL_LIMIT (serveMessage m.2 s) st.world with
      | some (.ret c, w, h) => some ⟨w, update st.conn m.1 c, h.map (Prod.mk m.1) ++ st.trace⟩
      | _ => none

/-- Messages are answered one after the other. -/
def serveAll (st : Snapshot ok) (messages : List (ℕ × Bytes)) : Option (Snapshot ok) :=
  messages.foldlM serve st

/-- After some messages, a connection is stopped after `n` calls of one more. -/
def pointOf (st : Snapshot ok) (messages : List (ℕ × Bytes)) (m : ℕ × Bytes) (n : ℕ) :
    Option (Point ok) :=
  match serveAll st messages with
  | none => none
  | some st =>
      match st.conn m.1 with
      | .closed => none
      | .open s =>
          match followConn n (serveMessage m.2 s) st.world with
          | some (.call (.inl o) _, w, h) => some ⟨w, h.map (Prod.mk m.1) ++ st.trace, h, o⟩
          | _ => none

/-- The configuration: all connections are idle. -/
def Snapshot.config (st : Snapshot ok) : (smbMachine α β ok).Config :=
  ⟨st.world, fun i => .idle (st.conn i)⟩

omit [∀ w o, Decidable (ok w o)] in
theorem Snapshot.config_phase_update (st : Snapshot ok) (i : ℕ) (c : Conn) :
    update st.config.phase i (.idle c) = fun j => .idle (update st.conn i c j) := by
  funext j
  by_cases hj : j = i
  · subst hj
    simp
  · simp [hj, Snapshot.config]

theorem exec_answer (w : World α β) (o : SmbT.Op) (ho : decide (ok w o) = true) :
    (smbMachine α β ok).exec w o (Prog.answerMarks World.answer o w).1
      (Prog.answerMarks World.answer o w).2 :=
  ⟨rfl, of_decide_eq_true ho⟩

variable {st st' : Snapshot ok} {c' c : (smbMachine α β ok).Config} {tr tr' : Trace ok}

omit [∀ w o, Decidable (ok w o)] in
theorem run_envStep (hc : SmbRun ok st.config st.trace) {w : World α β} (hw : EnvStep st.world w) :
    SmbRun ok (Snapshot.config ⟨w, st.conn, st.trace⟩) st.trace :=
  hc.step (Machine.Step.env (c := st.config) w hw)

theorem run_serve (hc : SmbRun ok st.config st.trace) {m : ℕ × Bytes} (hs : serve st m = some st') :
    SmbRun ok st'.config st'.trace := by
  unfold serve at hs
  split at hs
  · cases hs
  · next s hconn =>
    split at hs
    · next c w h hf =>
      cases hs
      have hi : st.config.phase m.1 = .idle (.open s) := congrArg _ hconn
      have hrun := hc.complete exec_answer hi (ConnStart.message s m.2) hf
      rwa [st.config_phase_update] at hrun
    · cases hs

/-- **Serving messages is a run.** -/
theorem run_serveAll (hc : SmbRun ok st.config st.trace) {messages : List (ℕ × Bytes)}
    (hs : serveAll st messages = some st') : SmbRun ok st'.config st'.trace := by
  induction messages generalizing st with
  | nil =>
    obtain rfl := Option.some.inj hs
    exact hc
  | cons m rest ih =>
    unfold serveAll at hs
    obtain ⟨st₁, hfirst, hrest⟩ := Option.bind_eq_some_iff.1 hs
    exact ih (run_serve hc hfirst) hrest

/-- **A point in the middle of a message is reached by a run.** -/
theorem exists_point (hc : SmbRun ok st.config st.trace) {messages : List (ℕ × Bytes)}
    {m : ℕ × Bytes} {n : ℕ} {x : Point ok} (hs : pointOf st messages m n = some x) :
    ∃ (c : (smbMachine α β ok).Config) (p : Prog SmbT Conn)
      (k : SmbT.Res (.inl x.op) → Prog SmbT Conn),
      SmbRun ok c x.trace ∧ c.world = x.world ∧
        c.phase m.1 = .busy p x.history (.call (.inl x.op) k) := by
  unfold pointOf at hs
  split at hs
  · cases hs
  · next st₁ hall =>
    split at hs
    · cases hs
    · next s hconn =>
      split at hs
      · next o k w h hf =>
        cases hs
        have hserved := run_serveAll hc hall
        have hi : st₁.config.phase m.1 = .idle (.open s) := congrArg _ hconn
        have hstart := hserved.step (.start m.1 _ _ hi (ConnStart.message s m.2))
        obtain ⟨h₁, heq, hrun⟩ := hstart.follow exec_answer (update_self ..) hf
        rw [List.append_nil] at heq
        subst heq
        exact ⟨_, _, k, hrun, rfl, update_self ..⟩
      · cases hs

/-! ### Leaving and waiting -/

/-- What may happen between two messages. -/
inductive Turn where
  /-- A connection takes a message and answers it. -/
  | serve (i : ℕ) (m : Bytes)
  /-- A connection goes away. -/
  | leave (i : ℕ)
  /-- Time passes. -/
  | wait (now : UInt64)

/-- A connection goes away. -/
def leave (st : Snapshot ok) (i : ℕ) : Option (Snapshot ok) :=
  match st.conn i with
  | .closed => none
  | .open s =>
      match followConn CALL_LIMIT (closing s) st.world with
      | some (.ret c, w, h) => some ⟨w, update st.conn i c, h.map (Prod.mk i) ++ st.trace⟩
      | _ => none

/-- The world at another time. -/
def World.atTime (w : World α β) (now : UInt64) : World α β :=
  { w with oracle := { w.oracle with now := now } }

/-- One turn of a sequential run. -/
def takeTurn (st : Snapshot ok) : Turn → Option (Snapshot ok)
  | .serve i m => serve st (i, m)
  | .leave i => leave st i
  | .wait now => some ⟨st.world.atTime now, st.conn, st.trace⟩

/-- Turns are taken one after the other. -/
def takeTurns (st : Snapshot ok) (turns : List Turn) : Option (Snapshot ok) :=
  turns.foldlM takeTurn st

theorem run_leave (hc : SmbRun ok st.config st.trace) {i : ℕ} (hs : leave st i = some st') :
    SmbRun ok st'.config st'.trace := by
  unfold leave at hs
  split at hs
  · cases hs
  · next s hconn =>
    split at hs
    · next c w h hf =>
      cases hs
      have hi : st.config.phase i = .idle (.open s) := congrArg _ hconn
      have hrun := hc.complete exec_answer hi (ConnStart.leave s) hf
      rwa [st.config_phase_update] at hrun
    · cases hs

/-- **Turns are a run.** -/
theorem run_takeTurns (hc : SmbRun ok st.config st.trace) {turns : List Turn}
    (hs : takeTurns st turns = some st') : SmbRun ok st'.config st'.trace := by
  induction turns generalizing st with
  | nil =>
    obtain rfl := Option.some.inj hs
    exact hc
  | cons turn rest ih =>
    unfold takeTurns at hs
    obtain ⟨st₁, hfirst, hrest⟩ := Option.bind_eq_some_iff.1 hs
    refine ih ?_ hrest
    cases turn with
    | serve i m => exact run_serve hc hfirst
    | leave i => exact run_leave hc hfirst
    | wait now =>
      cases hfirst
      exact run_envStep hc (.oracle _)

/-! ### Interleavings -/

/-- A move of an interleaved run. -/
inductive Move where
  /-- A connection takes a message. -/
  | message (i : ℕ) (m : Bytes)
  /-- A call of a connection is answered. -/
  | call (i : ℕ)
  /-- A connection is done with its message. -/
  | finish (i : ℕ)

/-- One move, if it is possible. -/
def play (c : (smbMachine α β ok).Config) (tr : Trace ok) :
    Move → Option ((smbMachine α β ok).Config × Trace ok)
  | .message i m =>
      match c.phase i with
      | .idle (.open s) =>
          some (⟨c.world, update c.phase i
            (.busy (serveMessage m s) [] (serveMessage m s))⟩, tr)
      | _ => none
  | .call i =>
      match c.phase i with
      | .busy p h (.call o k) =>
          if ok c.world o then
            let r := Prog.answerMarks World.answer o c.world
            some (⟨r.2, update c.phase i (.busy p (⟨c.world, o, r.1⟩ :: h) (k r.1))⟩,
              (i, ⟨c.world, o, r.1⟩) :: tr)
          else none
      | _ => none
  | .finish i =>
      match c.phase i with
      | .busy _ _ (.ret s) => some (⟨c.world, update c.phase i (.idle s)⟩, tr)
      | _ => none

/-- Moves are made one after the other. -/
def playAll (c : (smbMachine α β ok).Config) (tr : Trace ok) (moves : List Move) :
    Option ((smbMachine α β ok).Config × Trace ok) :=
  moves.foldlM (fun x => play x.1 x.2) (c, tr)

theorem step_play {move : Move} (hplay : play c tr move = some (c', tr')) :
    ∃ l, Machine.Step c l c' ∧ tr' = l.toList ++ tr := by
  unfold play at hplay
  split at hplay
  · split at hplay
    · next s hi =>
      cases hplay
      exact ⟨none, .start _ _ _ hi (ConnStart.message s _), rfl⟩
    · cases hplay
  · split at hplay
    · next p h o k hi =>
      split at hplay
      · next hok =>
        cases hplay
        exact ⟨_, .call _ p h o k _ _ hi (exec_answer _ o (decide_eq_true hok)), rfl⟩
      · cases hplay
    · cases hplay
  · split at hplay
    · next p h s hi =>
      cases hplay
      exact ⟨none, .finish _ p h s hi, rfl⟩
    · cases hplay

theorem step_play_call {i : ℕ} {p : Prog SmbT Conn} {h : List (smbMachine α β ok).Stamped}
    {o : SmbT.Op} {k : SmbT.Res o → Prog SmbT Conn} (hi : c.phase i = .busy p h (.call o k))
    (hplay : play c tr (.call i) = some (c', tr')) :
    ∃ r, Machine.Step c (some (i, ⟨c.world, o, r⟩)) c' ∧ tr' = (i, ⟨c.world, o, r⟩) :: tr := by
  simp only [play, hi] at hplay
  split at hplay
  · next hok =>
    cases hplay
    exact ⟨_, .call i p h o k _ _ hi (exec_answer _ o (decide_eq_true hok)), rfl⟩
  · cases hplay

/-- **A schedule is a run.** -/
theorem run_playAll (hc : SmbRun ok c tr) {moves : List Move}
    (hplay : playAll c tr moves = some (c', tr')) : SmbRun ok c' tr' := by
  induction moves generalizing c tr with
  | nil =>
    cases hplay
    exact hc
  | cons move rest ih =>
    unfold playAll at hplay
    obtain ⟨⟨c₁, tr₁⟩, hfirst, hrest⟩ := Option.bind_eq_some_iff.1 hplay
    obtain ⟨l, hstep, rfl⟩ := step_play hfirst
    exact ih (hc.step hstep) hrest

end Run

/-! ### Requests -/

namespace Client

variable (sessionId : UInt64)

/-- A SESSION_SETUP request that takes over a previous session. -/
def sessionSetupAfter (previous : UInt64) (token : Bytes) : Bytes :=
  Smb2Header.write { command := .sessionSetup, sessionId := sessionId } ++
    ofU16 25 ++ [0, 0] ++ ofU32 0 ++ ofU32 0 ++ ofU16 88 ++
    ofU16 (UInt16.ofNat token.length) ++ ofU64 previous ++ token

/-- A first SESSION_SETUP request. -/
def sessionSetup (token : Bytes) : Bytes := sessionSetupAfter sessionId 0 token

/-- The first token of a log-on. -/
def ntlmNegotiate : Bytes := NTLM_SIGNATURE ++ ofU32 1 ++ zeros 20

/-- The last token of a log-on: a user and a response. -/
def ntlmAuthenticate (user ntResponse : Bytes) : Bytes :=
  let buffer := fun (b : Bytes) (start : ℕ) =>
    ofU16 (UInt16.ofNat b.length) ++ ofU16 (UInt16.ofNat b.length) ++
      ofU32 (UInt32.ofNat start)
  NTLM_SIGNATURE ++ ofU32 3 ++ zeros 8 ++ buffer ntResponse (64 + user.length) ++
    zeros 8 ++ buffer user 64 ++ zeros 16 ++
    ofU32 NtlmFlags.NEGOTIATE_UNICODE ++ user ++ ntResponse

/-- A TREE_CONNECT request with flags and a signature. -/
def treeConnectSigned (path : String) (flags : UInt32) (signature : Bytes) : Bytes :=
  Smb2Header.write { command := .treeConnect, sessionId, flags, signature } ++
    ofU16 9 ++ ofU16 0 ++ ofU16 72 ++
    ofU16 (UInt16.ofNat (Utf16.bytes path).length) ++ Utf16.bytes path

/-- A TREE_CONNECT request. -/
def treeConnect (path : String) : Bytes :=
  treeConnectSigned sessionId path 0 (zeros 16)

variable (treeId : UInt32)

/-- A CREATE request that opens a file or makes it, with an access and a share mode. -/
def createFor (name : String) (oplock : UInt8) (contexts : Bytes)
    (desiredAccess shareAccess : UInt32) : Bytes :=
  Smb2Header.write { command := .create, sessionId := sessionId, treeId := treeId } ++
    ofU16 57 ++ [0, oplock] ++ ofU32 2 ++ ofU64 0 ++ ofU64 0 ++
    ofU32 desiredAccess ++ ofU32 0 ++ ofU32 shareAccess ++ ofU32 3 ++
    ofU32 0 ++ ofU16 120 ++ ofU16 (UInt16.ofNat (Utf16.bytes name).length) ++
    ofU32 (UInt32.ofNat (120 + (Utf16.bytes name).length)) ++
    ofU32 (UInt32.ofNat contexts.length) ++ Utf16.bytes name ++ contexts

/-- A CREATE request that opens a file or makes it, for reading and writing, and shares it. -/
def create (name : String) (oplock : UInt8) (contexts : Bytes) : Bytes :=
  createFor sessionId treeId name oplock contexts 3 7

/-- One create context, the last of its chain. -/
def createContext (name data : Bytes) : Bytes :=
  ofU32 0 ++ ofU16 16 ++ ofU16 4 ++ ofU16 0 ++ ofU16 24 ++
    ofU32 (UInt32.ofNat data.length) ++ name ++ zeros 4 ++ data

/-- A CREATE request for a durable handle, with a batch oplock. -/
def createDurable (name : String) : Bytes :=
  create sessionId treeId name 0x09
    (createContext CreateContextName.DURABLE_HANDLE_REQUEST (zeros 16))

/-- The context that asks for a lease. -/
def leaseContext (key : Bytes) (state : UInt32) : Bytes :=
  ofU32 0 ++ ofU16 16 ++ ofU16 4 ++ ofU16 0 ++ ofU16 24 ++
    ofU32 32 ++ [0x52, 0x71, 0x4C, 0x73] ++ zeros 4 ++ key ++ ofU32 state ++
    ofU32 0 ++ ofU64 0

variable (handleId : HandleId)

/-- A CLOSE request. -/
def close : Bytes :=
  Smb2Header.write { command := .close, sessionId := sessionId, treeId := treeId } ++
    ofU16 24 ++ ofU16 0 ++ ofU32 0 ++ ofLeNat 16 handleId.toNat

/-- A READ request. -/
def read (offset : UInt64) (length : UInt32) : Bytes :=
  Smb2Header.write { command := .read, sessionId := sessionId, treeId := treeId } ++
    ofU16 49 ++ [80, 0] ++ ofU32 length ++ ofU64 offset ++
    ofLeNat 16 handleId.toNat ++ zeros 16

/-- A WRITE request. -/
def write (offset : UInt64) (data : Bytes) : Bytes :=
  Smb2Header.write { command := .write, sessionId := sessionId, treeId := treeId } ++
    ofU16 49 ++ ofU16 112 ++ ofU32 (UInt32.ofNat data.length) ++
    ofU64 offset ++ ofLeNat 16 handleId.toNat ++ zeros 16 ++ data

/-- A LOCK request of one element. -/
def lock (offset length : UInt64) (flags : UInt32) : Bytes :=
  Smb2Header.write { command := .lock, sessionId := sessionId, treeId := treeId } ++
    ofU16 48 ++ ofU16 1 ++ ofU32 0 ++ ofLeNat 16 handleId.toNat ++
    ofU64 offset ++ ofU64 length ++ ofU32 flags ++ ofU32 0

/-- An acknowledgment of an oplock break. -/
def oplockBreakAck (level : UInt8) : Bytes :=
  Smb2Header.write { command := .oplockBreak, sessionId := sessionId } ++
    ofU16 24 ++ [level, 0] ++ ofU32 0 ++ ofLeNat 16 handleId.toNat

/-- A CLOSE that inherits its session and tree. -/
def relatedClose (messageId : UInt64) (handleId : HandleId) : Bytes :=
  Smb2Header.write
      { command := .close
        flags := Smb2Flags.RELATED_OPERATIONS
        messageId := messageId
        sessionId := 0xFFFFFFFFFFFFFFFF
        treeId := 0xFFFFFFFF } ++
    ofU16 24 ++ ofU16 0 ++ ofU32 0 ++ ofLeNat 16 handleId.toNat

/-- Requests as one message: each but the last is padded and names the distance to the next. -/
def compound : List Bytes → Bytes
  | [] => []
  | [request] => request
  | request :: next :: rest =>
      let padded := request ++ zeros (compoundPadding request.length)
      padded.splice 20 (ofU32 (UInt32.ofNat padded.length)) ++ compound (next :: rest)

end Client

/-! ### A small installation -/

namespace Sample

/-- A backend on which every path is an empty file. -/
structure Files where

/-- What the backend says of each file. -/
def emptyFile : Metadata where
  fileType := .regular
  size := 0
  blocks := 0
  mode := 0o644
  ino := 1
  atime := 0
  mtime := 0

/-- The backend finds every file empty and accepts all. -/
def Files.value : (o : BackendOp) → o.Res
  | .open _ _ => .ok ⟨1, 1, some 1⟩
  | .read _ _ _ => .ok []
  | .write _ _ data => .ok (UInt32.ofNat data.length)
  | .stat _ => .ok emptyFile
  | .readdir _ => .ok []
  | .statfs => .error .notSupported
  | .close _ | .chmod _ _ | .truncate _ _ | .utimes _ _ _ | .unlink _ | .rename _ _ | .lock _ _
  | .unlock _ _ => .ok ()

instance : StorageBackend Files where
  answer o files := (Files.value o, files)

/-- A connection to a server with one share. -/
def handler (serverId : String) : ConnectionHandler :=
  { ConnectionHandler.new 1 ⟨zeros 16, {}⟩
      (AList.singleton "s" { name := "s", path := "/s" }) serverId with
    connection := { Connection.new 1 with maxSessions := 64 } }

/-- The world of one provider and one backend. -/
def world {α : Type} (provider : α) : World α Files :=
  World.init (fun _ => provider) (fun _ => {}) {}

/-- The world of a server for anonymous users. -/
abbrev FilesWorld : Type := World AnonymousAuthProvider Files

/-- A configuration of such a server. -/
abbrev FilesConfig : Type := (smbMachine AnonymousAuthProvider Files anyCall).Config

/-- A call of such a server. -/
abbrev FilesStamped : Type := (smbMachine AnonymousAuthProvider Files anyCall).Stamped

/-- The calls of a run of such a server. -/
abbrev FilesTrace : Type := Trace (α := AnonymousAuthProvider) (β := Files) anyCall

/-- A state of such a server between messages. -/
abbrev FilesSnapshot : Type := Snapshot (α := AnonymousAuthProvider) (β := Files) anyCall

/-- An NTLM provider with one user, whose password hash is zero. -/
def ntlm [Externs] : NtlmAuthProvider :=
  { NtlmAuthProvider.new "a" "d" with
    users := AList.singleton (Externs.toUppercase "u") (zeros 16, .authenticated "u" none) }

/-- A log-on of that user: the two tokens. -/
def logonTokens : Bytes × Bytes :=
  (Client.ntlmNegotiate,
    Client.ntlmAuthenticate (Utf16.bytes "u") (zeros 16 ++ [1, 1] ++ zeros 26))

variable [Externs] {α : Type} [AuthProvider α] {ok : World α Files → SmbOp ⊕ Mark → Prop}

/-- Connections to some servers, none of which has sent anything. -/
def startOn (servers : ℕ → String) (provider : α) : Snapshot ok :=
  ⟨world provider, fun i => .open (handler (servers i)), []⟩

theorem run_startOn (servers : ℕ → String) (provider : α) :
    SmbRun ok (startOn servers provider).config (startOn servers provider).trace :=
  .init ⟨fun _ => ⟨1, _, _, _, 64, rfl⟩, ⟨_, _, _, rfl⟩⟩

/-- The start of a run with one server. -/
def start (provider : α) : Snapshot ok := startOn (fun _ => "a") provider

theorem run_start (provider : α) : SmbRun ok (start provider).config (start provider).trace :=
  run_startOn _ provider

/-- The start of a run with one server, on which the connections can be notified. -/
def startNotified (provider : α) : Snapshot ok :=
  let st : Snapshot ok := start provider
  ⟨{ st.world with
      registries := update st.world.registries "a"
        ((st.world.registries "a").openChannels 1) }, st.conn, st.trace⟩

theorem run_startNotified (provider : α) :
    SmbRun ok (startNotified provider).config (startNotified provider).trace :=
  run_envStep (run_start provider) (.registry "a" _ (.inl ⟨1, rfl⟩))

end Sample

end RustSmb
