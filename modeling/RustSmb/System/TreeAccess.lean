import RustSmb.System.Locks

/-!
# Who may connect to a share

The share manager can tell whether a user may access a share: guests need a share that lets guests
in, and a share with a list of users is for the users on it.  TREE_CONNECT does not ask: it connects
every session, and requests without one, to every share.

## Main results

* `treeConnect_accessChecked` — **if nobody asks without access, nobody connects without it.**
* `Sample.guest_connected` — a guest is connected to a share without guest access.
-/

namespace RustSmb

open Proc

/-! ### Requests and sessions -/

def foundSession : Event SmbT → Option SessionState
  | ⟨.inl (.store (.getSession _)), .ok session⟩ => session
  | _ => none

section Access

variable [Externs]

/-- Can a TREE_CONNECT request be read, and is the share that it names configured? -/
def namesShare (cmd : Command) : Bool :=
  decide (8 ≤ cmd.body.length) &&
    (cmd.handler.shares.lookup (Externs.toLowercase (requestedShare cmd.body))).isSome

def mayConnect (cmd : Command) (session : SessionState) : Bool :=
  ShareManager.canAccess cmd.handler.shares (requestedShare cmd.body) session.userId session.isGuest

/-- A TREE_CONNECT that is answered can be read and names a share that is configured. -/
theorem handleTreeConnect_namesShare {cmd : Command} (hcmd : cmd.header.command = .treeConnect) :
    wp (fun _ _ => True) (Handler.handleCommand cmd.header cmd.body cmd.fullMessage)
      (onOk (fun _ _ _ => True) fun _ _ _ => namesShare cmd = true) cmd.handler [] := by
  unfold Handler.handleCommand
  rw [hcmd]
  apply wp_map.2
  unfold Handler.handleTreeConnect
  rw [wp_bind, wp_require]
  refine ⟨fun hlen => ?_, fun _ => trivial⟩
  rw [onOk_ok]
  rw [wp_bind, wp_get, onOk_ok, wp_bind, Handler.wp_getOrFail]
  refine ⟨fun share hshare => ?_, fun _ => trivial⟩
  have hnames : namesShare cmd = true := by
    unfold namesShare
    rw [hshare, hlen]
    rfl
  -- the rest does not matter: whatever it returns, the share is there
  apply wp_of_forall (fun _ _ _ => trivial)
  intro r s h _
  cases r with
  | error err => trivial
  | ok response => exact hnames

section Runs

variable {α β : Type} [AuthProvider α] [StorageBackend β]
  {ok : World α β → SmbOp ⊕ Mark → Prop}

/-- The share of a successful TREE_CONNECT exists, and the session that the dispatcher found may
access it. -/
def AccessChecked (cmd : Command) (g : List (World α β × Event Smb)) : Prop :=
  (cmd.handler.shares.lookup (Externs.toLowercase (requestedShare cmd.body))).isSome = true ∧
    ∃ x ∈ g, ∃ session,
      x.2 = ⟨SmbOp.store (.getSession cmd.header.sessionId), .ok (some session)⟩ ∧
      x.1.store.sessions.lookup cmd.header.sessionId = some session ∧
      mayConnect cmd session = true

/-- A dispatched TREE_CONNECT names a session, and one that the dispatcher finds for a configured
share may access it. -/
def treeConnectPermitted (tr : Trace ok) (i : ℕ)
    (x : (smbMachine α β ok).Stamped) : Bool :=
  match x.event.1 with
  | .inr (.dispatched cmd) => cmd.header.command != .treeConnect || cmd.header.sessionId != 0
  | .inr _ => true
  | .inl _ =>
      match foundSession x.event, progress (stamps (pastOf i tr)) with
      | some session, .checking _ cmd _ =>
          cmd.header.command != .treeConnect || !namesShare cmd || mayConnect cmd session
      | _, _ => true

/-- **If no TREE_CONNECT comes from a session that may not access its share, every one that is
answered has access**: in every such run the share exists and the session that the dispatcher
found may access it. -/
theorem treeConnect_accessChecked {c : (smbMachine α β ok).Config}
    {tr : Trace ok} (hrun : SmbRun ok c tr)
    (hsteps : EachSmbCall (fun tr i x => treeConnectPermitted tr i x = true) tr) {i : ℕ}
    {p q : Prog SmbT Conn} {h : List (smbMachine α β ok).Stamped} (hi : c.phase i = .busy p h q)
    {w : World α β} {cmd : Command} {g e : List (World α β × Event Smb)}
    (hp : progress (stamps h) = .handling w cmd g e) (hcmd : cmd.header.command = .treeConnect)
    {response : Option Response} (hanswered : Answered cmd e response) :
    AccessChecked cmd g := by
  have hrunning := SmbReachable.running hrun.reachable hi
  have hnames : namesShare cmd = true := by
    obtain ⟨s, hnames⟩ := hanswered.post hrunning hp (handleTreeConnect_namesShare hcmd)
    exact hnames
  have hconfigured := (Bool.and_eq_true_iff.1 hnames).2
  obtain ⟨hpass, -, hgave⟩ := handling hrunning hp
  -- the request names a session, so the dispatcher has looked it up
  have hzero : cmd.header.sessionId ≠ 0 := by
    obtain ⟨st, tr', hs, -, hev⟩ := exists_dispatch hrun hi hp
    have hperm := hsteps.of_suffix hs
    unfold treeConnectPermitted at hperm
    rw [hev] at hperm
    simpa [hcmd] using hperm
  have hreq : requiresSession cmd.header.command = true := by
    rw [hcmd]
    rfl
  obtain ⟨session, hfound⟩ := hpass.session hreq hzero
  obtain ⟨x, hx, hev⟩ := List.mem_map.1 hfound
  have hstored : x.1.store.sessions.lookup cmd.header.sessionId = some session := by
    have hans := hgave x (List.mem_append_left e hx)
    rw [hev] at hans
    exact Except.ok.inj hans
  obtain ⟨before, after, hg⟩ := List.append_of_mem hx
  have hsuf : x :: after <:+ g := ⟨before, hg.symm⟩
  obtain ⟨st, tr', hs, -, hst, hchecking⟩ := exists_check hrun hi hp hsuf
  rw [hev] at hst
  change st.event =
    ⟨.inl (.store (.getSession cmd.header.sessionId)), .ok (some session)⟩ at hst
  have hperm := hsteps.of_suffix hs
  unfold treeConnectPermitted at hperm
  rw [hst, hchecking] at hperm
  have hmay : mayConnect cmd session = true := by simpa [foundSession, hcmd, hnames] using hperm
  exact ⟨hconfigured, x, hx, session, hev, hstored, hmay⟩

end Runs

end Access

/-! ### Guests -/

namespace Sample

def guestsOnly : AnonymousAuthProvider := ⟨false, true⟩

/-- A session is set up on connection 0, which then sends TREE_CONNECT for a share and is at the
end of it. -/
def connecting (provider : AnonymousAuthProvider) : Option (FilesConfig × FilesTrace) :=
  (serveAll (start provider) [(0, Client.sessionSetup 0 [])]).bind fun st =>
    playAll st.config st.trace
      (.message 0 (Client.treeConnect 1 "\\\\a\\s") :: List.replicate 6 (.call 0))

/-- Has a connection answered a command of a kind, after certain checks? -/
abbrev answered (f : Command → List (FilesWorld × Event Smb) → Bool) : FilesConfig → ℕ → Bool :=
  answeredBy fun cmd g _ => f cmd g

/-- An anonymous session may access the share, and is connected to it. -/
theorem treeConnect_accessChecked_anonymous :
    ∃ (c : FilesConfig) (tr : Trace anyCall) (p q : Prog SmbT Conn)
      (h : List FilesStamped)
      (w : FilesWorld) (cmd : Command)
      (g e : List (FilesWorld × Event Smb)) (response : Option Response),
      (SmbRun anyCall c tr ∧ EachSmbCall (fun tr i x => treeConnectPermitted tr i x = true) tr ∧
        c.phase 0 = .busy p h q ∧ progress (stamps h) = .handling w cmd g e ∧
        cmd.header.command = .treeConnect ∧ Answered cmd e response) ∧ AccessChecked cmd g := by
  obtain ⟨⟨c, tr⟩, hx, hsteps, hchk⟩ : ∃ x, connecting .anonymousOnly = some x ∧
      EachSmbCall (fun tr i x => treeConnectPermitted tr i x = true) x.2 ∧
      answered (fun cmd _ => cmd.header.command == .treeConnect) x.1 0 = true :=
    exists_of_any (by decide +kernel)
  obtain ⟨st, hst, hplay⟩ := Option.bind_eq_some_iff.1 hx
  have hrun := run_playAll (run_serveAll (run_start _) hst) hplay
  obtain ⟨p, h, q, w, cmd, g, e, response, hi, hp, hansd, hf⟩ := exists_of_answeredBy hchk
  have hcmd := beq_iff_eq.1 hf
  exact ⟨c, tr, p, q, h, w, cmd, g, e, response, ⟨hrun, hsteps, hi, hp, hcmd, hansd⟩,
    treeConnect_accessChecked hrun hsteps hi hp hcmd hansd⟩

/-- **A guest is connected to a share without guest access**: no session that the dispatcher
found may access the share. -/
theorem guest_connected :
    ∃ (c : FilesConfig) (tr : Trace anyCall) (p q : Prog SmbT Conn)
      (h : List FilesStamped)
      (w : FilesWorld) (cmd : Command)
      (g e : List (FilesWorld × Event Smb)) (response : Option Response),
      SmbRun anyCall c tr ∧ c.phase 0 = .busy p h q ∧
        progress (stamps h) = .handling w cmd g e ∧ cmd.header.command = .treeConnect ∧
        Answered cmd e response ∧ ¬ AccessChecked cmd g := by
  obtain ⟨⟨c, tr⟩, hx, hchk⟩ : ∃ x, connecting guestsOnly = some x ∧ answered (fun cmd g =>
      cmd.header.command == .treeConnect && g.all fun y =>
        (y.1.store.sessions.lookup cmd.header.sessionId).all fun session =>
          !mayConnect cmd session) x.1 0 = true := exists_of_any (by decide +kernel)
  obtain ⟨st, hst, hplay⟩ := Option.bind_eq_some_iff.1 hx
  have hrun := run_playAll (run_serveAll (run_start _) hst) hplay
  obtain ⟨p, h, q, w, cmd, g, e, response, hi, hp, hansd, hf⟩ := exists_of_answeredBy hchk
  obtain ⟨hf, hnone⟩ := Bool.and_eq_true_iff.1 hf
  refine ⟨c, tr, p, q, h, w, cmd, g, e, response, hrun, hi, hp, beq_iff_eq.1 hf, hansd, ?_⟩
  rintro ⟨-, y, hy, session, -, hstored, hmay⟩
  have hno := List.all_eq_true.1 hnone y hy
  rw [hstored] at hno
  simp [hmay] at hno

end Sample

end RustSmb
