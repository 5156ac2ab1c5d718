import RustSmb.Server.Footprint
import RustSmb.System.Trace

/-!
# The settings of a connection

Credits, sessions and exchanges change with every message.  The rest of what a connection handler
keeps is set when the connection is made, except for what NEGOTIATE sets.  A relation between these
settings and the history of a connection has to be checked for NEGOTIATE only.

## Main results

* `Upholds.upkeep` — **what NEGOTIATE keeps is kept by every message.**
* `Upholds.idle`, `Upholds.dispatched` — it holds along every run, of every connection between
  two messages and of every command that is dispatched.
-/

namespace RustSmb

open Handler

/-- What only NEGOTIATE changes of the state of a connection handler. -/
structure Settings where
  dialect : Option SmbDialect
  clientGuid : Bytes
  config : ServerConfig
  shares : Table String ShareConfig
  serverId : String

def ConnectionHandler.settings (s : ConnectionHandler) : Settings where
  dialect := s.connection.dialect
  clientGuid := s.connection.clientGuid
  config := s.config
  shares := s.shares
  serverId := s.serverId

section Instances

variable {k : Settings}

instance : IgnoresCredits fun s => s.settings = k := ⟨fun _ _ => id⟩

instance : IgnoresSessions fun s => s.settings = k := ⟨fun _ _ _ _ _ => id⟩

instance : IgnoresExchange fun s => s.settings = k := ⟨fun _ _ => id⟩

end Instances

def dispatchedCommand : Event SmbT → Option Command
  | ⟨.inr (.dispatched cmd), _⟩ => some cmd
  | _ => none

def commandsOf (h : List (Event SmbT)) : List Command := h.filterMap dispatchedCommand

@[simp]
theorem commandsOf_executing (h : List (Event SmbT)) :
    commandsOf (⟨.inr .executing, ()⟩ :: h) = commandsOf h := rfl

@[simp]
theorem commandsOf_disconnected (h : List (Event SmbT)) :
    commandsOf (⟨.inr .disconnected, ()⟩ :: h) = commandsOf h := rfl

@[simp]
theorem commandsOf_lift (e : List (Event Smb)) (h : List (Event SmbT)) :
    commandsOf (e.map Prog.liftEvent ++ h) = commandsOf h := by
  induction e with
  | nil => rfl
  | cons ev e ih => exact ih

variable [Externs]

/-- A relation between a connection's state and history that looks only at the settings and the
dispatched commands, and is kept by NEGOTIATE. -/
structure Upholds (R : ConnectionHandler → List (Event SmbT) → Prop) : Prop where
  frame : ∀ {s s' : ConnectionHandler} {h h' : List (Event SmbT)}, s'.settings = s.settings →
    commandsOf h' = commandsOf h → R s h → R s' h'
  dispatch : ∀ (cmd : Command) {h : List (Event SmbT)}, R cmd.handler h →
    R cmd.handler (⟨.inr (.dispatched cmd), ()⟩ :: h)
  negotiate : ∀ (cmd : Command) (h : List (Event SmbT)), cmd.header.command = .negotiate →
    cmd ∈ commandsOf h → R cmd.handler h →
    Proc.wp (fun _ _ => True) (Handler.handleNegotiate cmd.header cmd.body cmd.fullMessage)
      (fun _ s' _ => R s' h) cmd.handler []

/-- Commands are dispatched when the relation holds. -/
def DispatchedWith (R : ConnectionHandler → List (Event SmbT) → Prop) (h : List (Event SmbT)) :
    SmbOp ⊕ Mark → Prop
  | .inr (.dispatched cmd) => R cmd.handler h
  | _ => True

namespace Upholds

open Proc

variable {R : ConnectionHandler → List (Event SmbT) → Prop} (hR : Upholds R)
include hR

theorem keeps_lift {I : List (Event Smb) → SmbOp → Prop} {γ : Type} {m : Handler γ}
    (hm : ∀ k, Keeps (fun s _ => s.settings = k) I m) :
    Keeps R (DispatchedWith R) (Proc.lift m) := by
  intro s h hs
  refine wp_lift.2 (wp_mono (wp_weaken (hm s.settings s [] rfl) fun _ _ _ => trivial) ?_)
  intro r s' e hs'
  exact hR.frame hs' (commandsOf_lift e h) hs

theorem handleCommand_wp (cmd : Command) {h : List (Event SmbT)} (hcmd : cmd ∈ commandsOf h)
    (hs : R cmd.handler h) :
    wp (DispatchedWith R)
      (Proc.lift (handleCommand cmd.header cmd.body cmd.fullMessage))
      (fun _ s' h' => R s' h') cmd.handler h := by
  by_cases hn : cmd.header.command = .negotiate
  · refine wp_lift.2 ?_
    unfold handleCommand
    rw [hn]
    refine wp_map.2 (wp_mono (wp_weaken (hR.negotiate cmd h hn hcmd hs) fun _ _ _ => trivial) ?_)
    rintro (_ | _) s' e hs'
    · exact hR.frame rfl (commandsOf_lift e h) hs'
    · exact hR.frame rfl (commandsOf_lift e h) hs'
  · exact hR.keeps_lift (fun _ => handleCommand_keeping cmd.header cmd.body cmd.fullMessage hn)
      cmd.handler h hs

theorem dispatchCommand_keeps (received : Bytes) (header : Smb2Header)
    (body fullMessage : Bytes) :
    Keeps R (DispatchedWith R) (dispatchCommand received header body fullMessage) := by
  intro s h hs
  let cmd : Command := ⟨received, header, body, fullMessage, s⟩
  unfold dispatchCommand
  rw [wp_bind, wp_get, onOk_ok, wp_bind, wp_mark, onOk_ok, wp_bind, wp_lift]
  refine ⟨hs, ?_⟩
  have hs₁ : R s (⟨.inr (.dispatched cmd), ()⟩ :: h) := hR.dispatch cmd hs
  -- the checks leave the settings alone, and all of the state when they succeed
  have hsettings : Keeping (fun s' => s'.settings = s.settings) [] (gate header) := walked
  refine wp_mono (wp_weaken (wp_and (hsettings s [] rfl) (gate_wp cmd)) fun _ _ _ => trivial) ?_
  rintro (_ | _) s' g ⟨hset, hpass⟩
  · exact hR.frame hset (commandsOf_lift g _) hs₁
  obtain ⟨rfl, -⟩ := hpass
  rw [onOk_ok, wp_bind, wp_mark, onOk_ok]
  refine ⟨trivial, hR.handleCommand_wp cmd ?_ ?_⟩
  · rw [commandsOf_executing, commandsOf_lift]
    exact List.mem_cons_self
  · refine hR.frame rfl ?_ hs₁
    rw [commandsOf_executing, commandsOf_lift]

theorem closeConnection_keeps : Keeps R (DispatchedWith R) closeConnection := by
  intro s h hs
  unfold closeConnection
  rw [wp_bind, wp_mark, onOk_ok, wp_bind, wp_get, onOk_ok]
  have hleft : R s (⟨.inr .disconnected, ()⟩ :: h) := hR.frame rfl (commandsOf_disconnected h) hs
  have hloop : Keeps R (DispatchedWith R) (Proc.forEach (fun sessionId =>
      (Proc.lift (closeSession sessionId) : Traced Unit)) s.connection.sessionIds) :=
    keeps_forEach fun sessionId _ => hR.keeps_lift fun _ => closeSession_farewell sessionId
  exact ⟨trivial, hloop s _ hleft⟩

/-- **What NEGOTIATE keeps is kept by every message.** -/
theorem upkeep : Upkeep R (DispatchedWith R) where
  consume _ := keeps_when fun _ => keeps_modify fun _ _ => hR.frame rfl rfl
  dispatch := hR.dispatchCommand_keeps
  close := hR.closeConnection_keeps

end Upholds

/-! ### Runs -/

section Runs

variable {α β : Type} [AuthProvider α] [StorageBackend β] {ok : World α β → SmbOp ⊕ Mark → Prop}
  {c : (smbMachine α β ok).Config} {tr : Trace ok}
  {R : ConnectionHandler → List (Event SmbT) → Prop}

theorem eventsOf_suffix (i : ℕ) {tr' tr : Trace ok}
    (hs : tr' <:+ tr) : eventsOf i tr' <:+ eventsOf i tr :=
  (hs.filterMap _).map _

theorem exists_of_mem_commandsOf {i : ℕ} {tr : Trace ok} {cmd : Command}
    (hcmd : cmd ∈ commandsOf (eventsOf i tr)) :
    ∃ x tr', (i, x) :: tr' <:+ tr ∧ x.event = ⟨.inr (.dispatched cmd), ()⟩ := by
  obtain ⟨ev, hev, heq⟩ := List.mem_filterMap.1 hcmd
  obtain ⟨x, hx, rfl⟩ := List.mem_map.1 hev
  obtain ⟨before, after, hsplit⟩ := List.append_of_mem hx
  obtain ⟨tr', hs, -⟩ := Machine.exists_of_past hsplit
  refine ⟨x, tr', hs, ?_⟩
  obtain ⟨w, ⟨o | m, r⟩⟩ := x
  · cases heq
  · cases m with
    | dispatched cmd' =>
      cases heq
      rfl
    | executing | disconnected => cases heq

theorem SmbInit.satisfies {c : (smbMachine α β ok).Config} (hc : SmbInit c)
    (hinit : ∀ s : ConnectionHandler, s.connection.dialect = none → R s []) (i : ℕ) :
    ∃ conn, c.phase i = .idle conn ∧ conn.Satisfies R [] := by
  obtain ⟨connId, config, shares, serverId, maxSessions, h⟩ := hc.fresh i
  exact ⟨_, h, hinit _ rfl⟩

/-- **The relation holds along every run**: of what a connection keeps between two messages. -/
theorem Upholds.idle (hR : Upholds R)
    (hinit : ∀ s : ConnectionHandler, s.connection.dialect = none → R s [])
    (hrun : SmbRun ok c tr) {i : ℕ} {s : ConnectionHandler} (hi : c.phase i = .idle (.open s)) :
    R s (eventsOf i tr) := by
  have hmeets := Machine.Run.meets hrun (fun c hc i => SmbInit.satisfies hc hinit i)
    (fun _ _ _ _ hp hs => hR.upkeep.connStart hp hs) i
  rw [hi] at hmeets
  exact hmeets

/-- **The relation holds along every run**: of every command, when it is dispatched. -/
theorem Upholds.dispatched (hR : Upholds R)
    (hinit : ∀ s : ConnectionHandler, s.connection.dialect = none → R s [])
    (hrun : SmbRun ok c tr) {i : ℕ} {x : (smbMachine α β ok).Stamped} {tr' : Trace ok}
    (hs : (i, x) :: tr' <:+ tr) {cmd : Command}
    (hx : x.event = ⟨.inr (.dispatched cmd), ()⟩) : R cmd.handler (eventsOf i tr') := by
  have hcalls := Machine.Run.eachCall hrun (fun c hc i => SmbInit.satisfies hc hinit i)
    (fun _ _ _ _ hp hs => hR.upkeep.connStart hp hs)
  have hcall := hcalls.of_suffix hs
  rw [hx] at hcall
  exact hcall

end Runs

end RustSmb
