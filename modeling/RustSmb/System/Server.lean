import RustSmb.Lib.Machine
import RustSmb.Server.Message
import RustSmb.System.World

/-!
# Servers and their connections

The system as a whole: any number of connections, on any number of servers that share one state
store, each processing its messages one after the other while the others go on.  Messages are
arbitrary bytes.  A connection goes away when its client leaves or a message cannot be answered.

## Main definitions

* `Conn`, `serveMessage`, `closing` — a connection and its programs.
* `EnvStep` — time passes, breaks expire, channels are opened and read, servers fail.
* `smbMachine`, `SmbInit` — the system, and how its runs start.
* `SmbRun ok`, `Trace`, `eventsOf` — runs whose calls meet `ok`, and what was done in them.
* `SmbReachable ok` — where runs whose calls meet `ok` lead.

Source: `rustsmb-server/src/handler.rs`, `rustsmb-server/src/lease_break.rs`,
`rustsmb-server/src/coordination.rs`.
-/

namespace RustSmb

variable [Externs]

/-- A connection between two messages. -/
inductive Conn where
  | open (handler : ConnectionHandler)
  | closed

/-- Is a connection open, with a state of a kind? -/
def Conn.any (f : ConnectionHandler → Bool) : Conn → Bool
  | .open s => f s
  | .closed => false

omit [Externs] in
theorem Conn.exists_of_any {f : ConnectionHandler → Bool} {c : Conn} (h : c.any f = true) :
    ∃ s, c = .open s ∧ f s = true := by
  cases c with
  | «open» s => exact ⟨s, rfl, h⟩
  | closed => cases h

/-- The cleanup of a connection. -/
def closing (s : ConnectionHandler) : Prog SmbT Conn :=
  (Handler.closeConnection s).bind fun _ => .ret .closed

/-- After a message the connection stays, or goes away if the message could not be answered. -/
def afterMessage {α : Type} : Except HandlerError α × ConnectionHandler → Prog SmbT Conn
  | (.ok _, s) => .ret (.open s)
  | (.error _, s) => closing s

/-- An error ends the connection. -/
def serveMessage (message : Bytes) (s : ConnectionHandler) : Prog SmbT Conn :=
  (Handler.processAndRespond message s).bind afterMessage

/-- What a connection may do next. -/
inductive ConnStart : Conn → Prog SmbT Conn → Prop where
  | message (s : ConnectionHandler) (m : Bytes) : ConnStart (.open s) (serveMessage m s)
  | leave (s : ConnectionHandler) : ConnStart (.open s) (closing s)

namespace LeaseBreakRegistry

/-- A new connection gets its channels. -/
def openChannels (r : LeaseBreakRegistry) (connId : UInt64) : LeaseBreakRegistry :=
  { r with
    leaseEvents := r.leaseEvents.insert connId []
    oplockEvents := r.oplockEvents.insert connId [] }

/-- A connection has sent the first notification of its channels. -/
def deliver (r : LeaseBreakRegistry) (connId : UInt64) : LeaseBreakRegistry :=
  { r with
    leaseEvents := match r.leaseEvents.lookup connId with
      | some q => r.leaseEvents.insert connId q.tail
      | none => r.leaseEvents
    oplockEvents := match r.oplockEvents.lookup connId with
      | some q => r.oplockEvents.insert connId q.tail
      | none => r.oplockEvents }

/-- The timeout processor takes an expired break. -/
def expire (r : LeaseBreakRegistry) (breakId : UInt64) : LeaseBreakRegistry :=
  match r.pendingBreaks.lookup breakId with
  | some _ =>
      { r with
        pendingBreaks := r.pendingBreaks.erase breakId
        completions := r.completions.insert breakId (.sent .timedOut) }
  | none => r

end LeaseBreakRegistry

section Machine

variable {α β : Type}

/-- What happens besides the processing of messages. -/
inductive EnvStep (w : World α β) : World α β → Prop where
  /-- Time passes and outside things change. -/
  | oracle (o : Oracle) : EnvStep w { w with oracle := o }
  /-- The registry of a server changes by itself. -/
  | registry (serverId : String) (r : LeaseBreakRegistry)
      (hr : (∃ connId, r = (w.registries serverId).openChannels connId) ∨
        (∃ connId, r = (w.registries serverId).deliver connId) ∨
        ∃ breakId, r = (w.registries serverId).expire breakId) :
      EnvStep w { w with registries := Function.update w.registries serverId r }
  /-- The resources of a failed server are cleaned up. -/
  | failure (serverId : String) (o : StoreOp)
      (ho : o = .deleteLeasesForServer serverId ∨ o = .releaseFileLocksForServer serverId) :
      EnvStep w (w.callStore o).2

variable [AuthProvider α] [StorageBackend β]

variable (α β) in
/-- The system of connections, in runs whose calls meet `ok`.  Connections are numbered. -/
abbrev smbMachine (ok : World α β → SmbOp ⊕ Mark → Prop) : Machine SmbT where
  World := World α β
  Actor := ℕ
  Local := Conn
  start _ c p := ConnStart c p
  exec w o r w' := Prog.answerMarks World.answer o w = (r, w') ∧ ok w o
  env := EnvStep

variable {ok : World α β → SmbOp ⊕ Mark → Prop}

instance : DecidableEq (smbMachine α β ok).Actor := inferInstanceAs (DecidableEq ℕ)

/-- A run starts with fresh connections, with any limit on their sessions, and an empty store. -/
structure SmbInit (c : (smbMachine α β ok).Config) : Prop where
  /-- The connections are fresh. -/
  fresh : ∀ i, ∃ connId config shares serverId maxSessions,
    c.phase i = .idle (.open
      { ConnectionHandler.new connId config shares serverId with
        connection := { Connection.new connId with maxSessions := maxSessions } })
  /-- The store and the registries are empty. -/
  empty : ∃ providers backends oracle, c.world = World.init providers backends oracle

variable (ok) in
/-- The trace of a run: the calls of all connections, the newest first. -/
abbrev Trace := List (ℕ × (smbMachine α β ok).Stamped)

variable (ok) in
/-- The runs whose calls meet `ok`, with their traces. -/
abbrev SmbRun : (smbMachine α β ok).Config → Trace ok → Prop := Machine.Run SmbInit

/-- What one connection has done in a run, with the worlds that it met. -/
abbrev pastOf (i : ℕ) (tr : Trace ok) : List (smbMachine α β ok).Stamped :=
  Machine.past (M := smbMachine α β ok) i tr

/-- Every call of a run meets a condition on the calls before it, the connection and the call. -/
abbrev EachSmbCall (G : Trace ok → ℕ → (smbMachine α β ok).Stamped → Prop) (tr : Trace ok) : Prop :=
  Machine.EachCall (M := smbMachine α β ok) G tr

instance (G : Trace ok → ℕ → (smbMachine α β ok).Stamped → Prop) [∀ tr i x, Decidable (G tr i x)]
    (tr : Trace ok) : Decidable (EachSmbCall G tr) :=
  inferInstanceAs (Decidable (Machine.EachCall (M := smbMachine α β ok) G tr))

def eventsOf (i : ℕ) (tr : Trace ok) : List (Event SmbT) :=
  Machine.events (pastOf i tr)

@[simp]
theorem eventsOf_cons_self (i : ℕ) (e : (smbMachine α β ok).Stamped) (tr : Trace ok) :
    eventsOf i ((i, e) :: tr) = e.event :: eventsOf i tr := by
  unfold eventsOf pastOf
  rw [Machine.past_cons_self (M := smbMachine α β ok), Machine.events_cons]

theorem eventsOf_cons_ne {i j : ℕ} (hij : i ≠ j) (e : (smbMachine α β ok).Stamped)
    (tr : Trace ok) : eventsOf i ((j, e) :: tr) = eventsOf i tr := by
  unfold eventsOf pastOf
  rw [Machine.past_cons_ne (M := smbMachine α β ok) hij]

variable (ok) in
/-- The configurations that runs whose calls meet `ok` lead to. -/
abbrev SmbReachable : (smbMachine α β ok).Config → Prop := Machine.Reachable SmbInit

/-- No restriction. -/
def anyCall (_ : World α β) (_ : SmbOp ⊕ Mark) : Prop := True

instance (w : World α β) (o : SmbOp ⊕ Mark) : Decidable (anyCall w o) :=
  inferInstanceAs (Decidable True)

/-- A restriction on commands as they are dispatched. -/
def onDispatch (P : World α β → Command → Prop) (w : World α β) : SmbOp ⊕ Mark → Prop
  | .inr (.dispatched cmd) => P w cmd
  | _ => True

instance (P : World α β → Command → Prop) [∀ w cmd, Decidable (P w cmd)] (w : World α β)
    (o : SmbOp ⊕ Mark) : Decidable (onDispatch P w o) :=
  match o with
  | .inr (.dispatched cmd) => inferInstanceAs (Decidable (P w cmd))
  | .inr .executing | .inr .disconnected | .inl _ => inferInstanceAs (Decidable True)

variable {c : (smbMachine α β ok).Config}

theorem SmbInit.idle (hc : SmbInit c) (i : ℕ) : ∃ s, c.phase i = .idle s := by
  obtain ⟨connId, config, shares, serverId, maxSessions, h⟩ := hc.fresh i
  exact ⟨_, h⟩

theorem SmbReachable.running (hc : SmbReachable ok c) {i : ℕ} {p q : Prog SmbT Conn}
    {h : List (smbMachine α β ok).Stamped} (hi : c.phase i = .busy p h q) :
    Machine.Running i p h q :=
  hc.busy (fun _ hc i => hc.idle i) hi

/-- What a running program remembers is the newest part of the connection's past. -/
theorem SmbRun.past_eq {tr : Trace ok} (hrun : SmbRun ok c tr) {i : ℕ} {p q : Prog SmbT Conn}
    {h : List (smbMachine α β ok).Stamped} (hi : c.phase i = .busy p h q) :
    ∃ older, pastOf i tr = h ++ older :=
  Machine.Run.past_eq hrun (fun _ hc i => hc.idle i) hi

/-- **What holds of the world and the trace of a run**: it holds at the start, and what happens
besides, every call and every mark keep it. -/
theorem SmbRun.traced {tr : Trace ok} {I : World α β → Trace ok → Prop} (hrun : SmbRun ok c tr)
    (hinit : ∀ providers backends oracle, I (World.init providers backends oracle) [])
    (henv : ∀ {c tr w}, SmbRun ok c tr → EnvStep c.world w → I c.world tr → I w tr)
    (hcall : ∀ {c tr i p h o k}, SmbRun ok c tr → c.phase i = .busy p h (.call (.inl o) k) →
      ok c.world (.inl o) → I c.world tr → I (World.answer o c.world).2
        ((i, ⟨c.world, .inl o, (World.answer o c.world).1⟩) :: tr))
    (hmark : ∀ {c tr i p h m k}, SmbRun ok c tr → c.phase i = .busy p h (.call (.inr m) k) →
      I c.world tr → I c.world ((i, ⟨c.world, .inr m, ()⟩) :: tr)) : I c.world tr := by
  refine Machine.Run.traced hrun (fun c hc => ?_) (fun hrun hw => henv hrun hw) ?_
  · obtain ⟨providers, backends, oracle, heq⟩ := hc.empty
    rw [heq]
    exact hinit _ _ _
  · intro c tr i p h o k r w hrun hi hr hInv
    obtain ⟨rfl, rfl⟩ := Prod.mk.inj hr.1
    cases o with
    | inl o => exact hcall hrun hi hr.2 hInv
    | inr m => exact hmark hrun hi hInv

/-! ### Invariants of the store -/

omit [Externs] in
theorem store_answerMarks {P : MemoryStateStore → Prop} {o : SmbT.Op}
    (hstore : ∀ so, o = .inl (.store so) → ∀ now st, P st →
      P (MemoryStateStore.answer now so st).2) {w : World α β} (hw : P w.store) :
    P (Prog.answerMarks World.answer o w).2.store := by
  cases o with
  | inr m => exact hw
  | inl o =>
    cases o with
    | store so => exact hstore so rfl _ _ hw
    | _ => exact hw

omit [Externs] [AuthProvider α] [StorageBackend β] in
/-- What happens besides changes the store only by cleaning up after a failed server. -/
theorem EnvStep.store {P : MemoryStateStore → Prop} {w w' : World α β} (hw : EnvStep w w')
    (hstore : ∀ serverId so,
      so = .deleteLeasesForServer serverId ∨ so = .releaseFileLocksForServer serverId →
      ∀ now st, P st → P (MemoryStateStore.answer now so st).2) (h : P w.store) : P w'.store := by
  cases hw with
  | oracle _ | registry _ _ _ => exact h
  | failure serverId o ho => exact hstore serverId o ho _ _ h

omit [Externs] [AuthProvider α] [StorageBackend β] in
/-- A property of the registry of a server is kept besides if channels and timeouts keep it. -/
theorem EnvStep.registryOf {P : LeaseBreakRegistry → Prop} {w w' : World α β} (hw : EnvStep w w')
    {serverId : String} (h : P (w.registries serverId))
    (hopen : ∀ connId, P ((w.registries serverId).openChannels connId))
    (hdeliver : ∀ connId, P ((w.registries serverId).deliver connId))
    (hexpire : ∀ breakId, P ((w.registries serverId).expire breakId)) :
    P (w'.registries serverId) := by
  cases hw with
  | oracle _ | failure _ _ _ => exact h
  | registry sv r hr =>
    by_cases hsv : serverId = sv
    · subst hsv
      simp only [Function.update_self]
      rcases hr with ⟨connId, rfl⟩ | ⟨connId, rfl⟩ | ⟨breakId, rfl⟩
      · exact hopen connId
      · exact hdeliver connId
      · exact hexpire breakId
    · simp only [Function.update_of_ne hsv]
      exact h

omit [Externs] in
/-- What a call makes of the registry of a server: the answer to a call of that registry. -/
theorem registryOf_answer {P : LeaseBreakRegistry → Prop} {o : SmbOp} {w : World α β}
    {serverId : String}
    (hregistry : ∀ ro, o = .registry serverId ro →
      P (LeaseBreakRegistry.answer w.nextOutcome ro (w.registries serverId)).2)
    (hoth : (∀ ro, o ≠ .registry serverId ro) → P (w.registries serverId)) :
    P ((World.answer o w).2.registries serverId) := by
  cases o with
  | registry sv ro =>
    have hupd : (World.answer (.registry sv ro) w).2.registries = Function.update w.registries sv
        (LeaseBreakRegistry.answer w.nextOutcome ro (w.registries sv)).2 := rfl
    rw [hupd]
    by_cases hsv : serverId = sv
    · subst hsv
      rw [Function.update_self]
      exact hregistry ro rfl
    · rw [Function.update_of_ne hsv]
      exact hoth fun ro' heq => hsv (by cases heq; rfl)
  | _ => exact hoth nofun

/-- An invariant of the store: it holds of the empty store and is kept by each call. -/
theorem SmbReachable.storeInvariant (hc : SmbReachable ok c) {P : MemoryStateStore → Prop}
    (hinit : P .new) (hcall : ∀ so now st, P st → P (MemoryStateStore.answer now so st).2) :
    P c.world.store := by
  refine (hc.invariant (fun _ hc i => hc.idle i) (fun w => P w.store) ?_
    (fun _ _ hw => hw.store fun _ so _ => hcall so) ?_).1
  · intro c hinit'
    obtain ⟨providers, backends, oracle, heq⟩ := hinit'.empty
    rw [heq]
    exact hinit
  · intro i p h o k r w w' _ hexec hw
    have heq : w' = (Prog.answerMarks World.answer o w).2 := (congrArg Prod.snd hexec.1).symm
    rw [heq]
    exact store_answerMarks (fun so _ => hcall so) hw

end Machine

end RustSmb
