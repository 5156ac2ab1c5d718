import Mathlib.Data.List.Infix
import RustSmb.System.Durable
import RustSmb.System.TreeAccess

/-!
# Whose handle is reconnected

A CREATE with a reconnect context looks a disconnected handle up, looks the tree up, asks the
backend whether the file still stands and stores the handle under its own session.  It compares the
create GUID, if the request carries one, and the name, unless that is empty or starts with two
underscores, but neither the user who opened the handle nor the share.

## Main results

* `reconnect_wp` — what a reconnect looks at, and what it stores.
* `reconnected_rightly` — **reconnects by the user of the handle, on its share, with a GUID and a
  full name, are right.**
* `Sample.reconnected_by_stranger` — a guest gets the handle of another user.
-/

set_option synthInstance.maxSize 1000000

namespace RustSmb

open Client SmbOp List Option Proc Handler

/-! ### The request -/

/-- The reconnect that a command asks for: the identifier, the GUID and the name. -/
def reconnectRequest (cmd : Command) : Option (UInt64 × Option Bytes × String) :=
  if cmd.header.command = .create then
    (CreateRequest.read cmd.body).bind fun r =>
      (reconnectOf (r.contexts cmd.body)).map fun x =>
        (x.1, x.2, normalizeSlashes (r.filenameRaw cmd.body))
  else none

/-- The handle once a reconnect has taken it over. -/
def takenHandle (header : Smb2Header) (handle : HandleState) (now : UInt64) : HandleState :=
  { handle with
    sessionId := header.sessionId
    treeId := header.treeId
    lastAccess := now
    volatileId := handle.persistentId }

/-- What a reconnect has seen when it stores the handle. -/
def Taking (header : Smb2Header) (persistentId : UInt64) (createGuid : Option Bytes)
    (filename : String) (taken : HandleState) (e : List (Event Smb)) : Prop :=
  ∃ (handle : HandleState) (now now' : UInt64) (tree : TreeState) (share : String)
    (stat : (BackendOp.stat handle.path).Res),
    e = [⟨SmbOp.now, now'⟩, ⟨backend share (.stat handle.path), stat⟩,
      ⟨store (.getTree header.sessionId header.treeId), .ok (some tree)⟩,
      ⟨SmbOp.now, now⟩,
      ⟨store (.getHandle (BitVec.ofNat 128 persistentId.toNat)), .ok (some handle)⟩] ∧
    Reconnectable createGuid filename now handle ∧ taken = takenHandle header handle now'

/-- A handle is stored only as a reconnect that passed every check stores it. -/
def StoresTaken (header : Smb2Header) (persistentId : UInt64) (createGuid : Option Bytes)
    (filename : String) (e : List (Event Smb)) (o : SmbOp) : Prop :=
  ∀ taken, o = .store (.updateHandle taken) →
    Taking header persistentId createGuid filename taken e

section Handler

variable [Externs] {s : ConnectionHandler} {header : Smb2Header} {persistentId : UInt64}
  {createGuid : Option Bytes} {filename : String}

omit [Externs] in
instance :
    Tolerates (StoresTaken header persistentId createGuid filename) [.registry] where
  call e o ho := by
    rintro taken rfl
    simp [effect, StoreOp.effect] at ho

/-- **What a reconnect looks at, and what it stores.** -/
theorem durableReconnect_wp :
    wp (StoresTaken header persistentId createGuid filename)
      (durableReconnect header persistentId createGuid filename)
      (onOk (fun _ _ _ => True) fun _ _ e => ∃ later taken reply e', e =
        later ++ ⟨store (.updateHandle taken), reply⟩ :: e' ∧
          Taking header persistentId createGuid filename taken e') s [] := by
  unfold durableReconnect
  rw [wp_bind]
  refine wp_mono (findDurableHandle_wp persistentId createGuid filename
    (fun _ _ h => by cases h) (fun _ _ h => by cases h) fun _ _ h => by cases h) ?_
  rintro (err | handle) s e hfound
  · trivial
  obtain ⟨now, -, rfl, hr⟩ := hfound
  refine wp_bind.2 (wp_storeOrInternal.2 ⟨fun _ h => (by cases h), fun found => ?_,
    fun _ => trivial⟩)
  refine wp_bind.2 (wp_getOrFail.2 ⟨fun tree hfound => ?_, fun _ => trivial⟩)
  subst hfound
  refine wp_bind.2 (wp_bind.2 (wp_get.2 (wp_getOrFail.2 ⟨fun share _ => ?_, fun _ => trivial⟩)))
  refine wp_bind.2 (wp_perform.2 ⟨fun _ h => (by cases h), fun stat => ?_⟩)
  refine wp_bind.2 (wp_getOrFail.2 ⟨fun metadata _ => ?_, fun _ => trivial⟩)
  refine wp_bind.2 (wp_require.2 ⟨fun _ => ?_, fun _ => trivial⟩)
  refine wp_bind.2 (wp_perform.2 ⟨fun _ h => (by cases h), fun now' => ?_⟩)
  -- here the handle is stored
  have htaking : Taking header persistentId createGuid filename (takenHandle header handle now')
      [⟨SmbOp.now, now'⟩, ⟨backend share (.stat handle.path), stat⟩,
        ⟨store (.getTree header.sessionId header.treeId), .ok (some tree)⟩,
        ⟨SmbOp.now, now⟩,
        ⟨store (.getHandle (BitVec.ofNat 128 persistentId.toNat)), .ok (some handle)⟩] :=
    ⟨handle, now, now', tree, share, stat, rfl, hr, rfl⟩
  refine wp_bind.2 (wp_storeOrInternal.2 ⟨fun taken h => ?_, fun u => ?_, fun _ => trivial⟩)
  · cases h
    exact htaking
  -- what is left only adds to the history
  refine wp_mono (wp_grows (Always.wp walked s _)) ?_
  rintro (err | a) s' e' ⟨-, later, rfl⟩
  · trivial
  · exact ⟨later, _, _, _, rfl, htaking⟩

theorem reconnect_wp {cmd : Command}
    (hcmd : reconnectRequest cmd = some (persistentId, createGuid, filename)) :
    wp (StoresTaken cmd.header persistentId createGuid filename)
      (handleCommand cmd.header cmd.body cmd.fullMessage)
      (onOk (fun _ _ _ => True) fun _ _ e => ∃ later taken reply e', e =
        later ++ ⟨store (.updateHandle taken), reply⟩ :: e' ∧
          Taking cmd.header persistentId createGuid filename taken e') s [] := by
  unfold reconnectRequest at hcmd
  split at hcmd
  · next hcre =>
    obtain ⟨r, hr, hcmd⟩ := bind_eq_some_iff.1 hcmd
    obtain ⟨⟨persistentId', createGuid'⟩, hof, heq⟩ := map_eq_some_iff.1 hcmd
    cases heq
    unfold handleCommand
    rw [hcre]
    refine wp_map.2 ?_
    unfold handleCreate createResponse
    simp only [Proc.bind_assoc]
    refine wp_bind.2 (wp_parsed.2 ⟨fun r' hr' => ?_, fun _ => trivial⟩)
    obtain rfl : r = r' := Option.some.inj (hr.symm.trans hr')
    refine wp_seq (P := fun _ _ e => e = []) (wp_ofExcept.2 ?_) fun _ s e he => ?_
    · cases validateCreate r cmd.body with
      | error err => trivial
      | ok u => rfl
    subst he
    rw [hof]
    refine wp_bind.2 (wp_mono durableReconnect_wp ?_)
    rintro (err | a) s' e' hr
    · trivial
    · exact wp_pure.2 hr
  · cases hcmd

end Handler

/-! ### Whose handle it is -/

def SessionState.user (session : SessionState) : String × Option String :=
  (session.userId, session.domain)

/-- The GUID, if it can be read. -/
def storedGuid (handle : HandleState) : Option Bytes :=
  (handle.createGuid.bind Bytes.unhex).filter fun guid => guid.length == 16

theorem guid_eq_of_not_mismatch {handle : HandleState} {createGuid : Option Bytes}
    (hno : guidMismatch handle createGuid = false)
    (hsupplied : (createGuid.isSome || (storedGuid handle).isNone) = true) {stored : Bytes}
    (hstored : storedGuid handle = some stored) : createGuid = some stored := by
  rw [hstored, isNone_some, Bool.or_false] at hsupplied
  obtain ⟨guid, rfl⟩ := isSome_iff_exists.1 hsupplied
  obtain ⟨hdecoded, hlength⟩ := filter_eq_some_iff.1 hstored
  unfold guidMismatch at hno
  rw [hdecoded] at hno
  dsimp only at hno hlength
  rw [hlength, Bool.true_and, bne_eq_false_iff_eq] at hno
  rw [hno]

theorem name_eq_of_ok {handle : HandleState} {filename : String}
    (hok : reconnectNameOk handle filename = true) (hempty : (filename != "") = true)
    (hplaceholder : (!(['_', '_'].isPrefixOf filename.toList)) = true) :
    filename = handle.path := by
  unfold reconnectNameOk at hok
  simp only [Bool.or_eq_true, beq_iff_eq] at hok
  rcases hok with (hok | hok) | hok
  · simp [hok] at hempty
  · exact hok.symm
  · simp [hok] at hplaceholder

def seenHandle : Event Smb → Option HandleState
  | ⟨.store (.getHandle _), .ok handle⟩ => handle
  | _ => none

/-- The session that a lookup of the dispatcher has found. -/
def checkedSession : Event Smb → Option SessionState
  | ⟨.store (.getSession _), .ok session⟩ => session
  | _ => none

section Runs

variable [Externs] {α β : Type} [AuthProvider α] [StorageBackend β]
  {ok : World α β → SmbOp ⊕ Mark → Prop} {c : (smbMachine α β ok).Config} {tr : Trace ok}

/-- The session under which the handle was opened. -/
def openerOf (tr : Trace ok) (id : HandleId) : Option SessionState :=
  (tr.findSome? fun x =>
    match x.2.event.1 with
    | .inl (.store (.createHandle opened)) =>
        if opened.persistentId = id then
          some (x.2.world.store.sessions.lookup opened.sessionId)
        else none
    | _ => none).join

/-- A reconnect of connection `i` was right: the handle was disconnected, and when the tree was
looked up, the session was of the user who had opened it; the tree is on the handle's share, the
GUID is supplied if one is stored, and the name is the handle's. -/
def ReconnectedRightly (i : ℕ) (tr : Trace ok) (cmd : Command)
    (g e : List (World α β × Event Smb)) (persistentId : UInt64) (createGuid : Option Bytes)
    (filename : String) : Prop :=
  ∃ (handle : HandleState) (session opener : SessionState) (tree : TreeState)
    (st : (smbMachine α β ok).Stamped) (tr' : Trace ok),
    ⟨store (.getHandle (BitVec.ofNat 128 persistentId.toNat)), .ok (some handle)⟩ ∈
      e.map Prod.snd ∧ handle.sessionId = 0 ∧
    (i, st) :: tr' <:+ tr ∧
    st.event = ⟨.inl (.store (.getTree cmd.header.sessionId cmd.header.treeId)),
      Except.ok (some tree)⟩ ∧ tree.shareName = handle.shareName ∧
    (∃ y ∈ g, checkedSession y.2 = some session) ∧
    openerOf tr' handle.persistentId = some opener ∧ session.user = opener.user ∧
    (∀ stored, storedGuid handle = some stored → createGuid = some stored) ∧
    filename = handle.path

/-- When a reconnect looks up its tree, the tree is on the share of the handle, the session is of
the user who opened it, a GUID is supplied if one is stored, and the name is neither empty nor a
placeholder. -/
def asksRightly (tr : Trace ok) (i : ℕ) (x : (smbMachine α β ok).Stamped) :
    Bool :=
  match x.event.1, progress (stamps (pastOf i tr)) with
  | .inl (.store (.getTree sessionId treeId)), .handling _ cmd g e =>
      match reconnectRequest cmd, e.findSome? fun y => seenHandle y.2 with
      | some (_, createGuid, filename), some handle =>
          (x.world.store.trees.lookup (sessionId, treeId)).all
              (fun tree => tree.shareName == handle.shareName) &&
            (g.findSome? fun y => checkedSession y.2).any
              (fun session => (openerOf tr handle.persistentId).any
                fun opener => session.user == opener.user) &&
            (createGuid.isSome || (storedGuid handle).isNone) &&
            (filename != "") && !(['_', '_'].isPrefixOf filename.toList)
      | _, _ => true
  | _, _ => true

/-- **If every reconnect is asked for by the handle's user on its share, with a GUID and a full
name, every reconnect that succeeds is right.** -/
theorem reconnected_rightly (hrun : SmbRun ok c tr)
    (hsteps : EachSmbCall (fun tr i x => asksRightly tr i x = true) tr) {i : ℕ}
    {p q : Prog SmbT Conn} {h : List (smbMachine α β ok).Stamped} (hi : c.phase i = .busy p h q)
    {w : World α β} {cmd : Command} {g e : List (World α β × Event Smb)}
    (hp : progress (stamps h) = .handling w cmd g e) {persistentId : UInt64}
    {createGuid : Option Bytes} {filename : String}
    (hcmd : reconnectRequest cmd = some (persistentId, createGuid, filename))
    {response : Option Response} (hanswered : Answered cmd e response) :
    ReconnectedRightly i tr cmd g e persistentId createGuid filename := by
  have hrunning := SmbReachable.running hrun.reachable hi
  obtain ⟨s, later, taken, reply, e', hevs, handle, now, now', tree, share, stat, rfl, hr, -⟩ :=
    hanswered.post hrunning hp (reconnect_wp hcmd)
  -- the moment at which the tree was looked up
  have hlook : e.map Prod.snd = (later ++ [⟨store (.updateHandle taken), reply⟩,
      ⟨SmbOp.now, now'⟩, ⟨backend share (.stat handle.path), stat⟩]) ++
      ⟨store (.getTree cmd.header.sessionId cmd.header.treeId), .ok (some tree)⟩ ::
      [⟨SmbOp.now, now⟩, ⟨store (.getHandle (BitVec.ofNat 128 persistentId.toNat)),
        .ok (some handle)⟩] := by
    rw [hevs, append_assoc]
    rfl
  obtain ⟨st, tr', looked, hsuf, hev, hprog, hlooked, hgave⟩ := exists_moment hrun hi hp hlook
  have hfound : looked.findSome? (fun y => seenHandle y.2) = some handle := by
    have hmap : looked.findSome? (fun y => seenHandle y.2) =
        (looked.map Prod.snd).findSome? seenHandle := by
      rw [findSome?_map]
      rfl
    rw [hmap, hlooked]
    rfl
  have hlookup : st.world.store.trees.lookup (cmd.header.sessionId, cmd.header.treeId) =
      some tree := Except.ok.inj hgave
  -- what the condition says there
  have hcond := hsteps.of_suffix hsuf
  simp only [asksRightly, hev, Prog.liftEvent, hprog, hcmd, hfound, hlookup,
    all_some, Bool.and_eq_true] at hcond
  obtain ⟨⟨⟨⟨hshare, huser⟩, hguid⟩, hempty⟩, hplaceholder⟩ := hcond
  obtain ⟨session, hsess, huser⟩ := (any_eq_true _ _).1 huser
  obtain ⟨opener, hopener, huser⟩ := (any_eq_true _ _).1 huser
  obtain ⟨y, hy, hysession⟩ := exists_of_findSome?_eq_some hsess
  refine ⟨handle, session, opener, tree, st, tr', ?_, hr.disconnected, hsuf, hev,
    beq_iff_eq.1 hshare, ⟨y, hy, hysession⟩, hopener, beq_iff_eq.1 huser,
    fun stored hstored => guid_eq_of_not_mismatch hr.guid hguid hstored,
    name_eq_of_ok hr.name hempty hplaceholder⟩
  rw [hevs]
  simp

end Runs

/-! ### A stranger -/

namespace Client

def createDurableV2 (sessionId : UInt64) (treeId : UInt32) (name : String) (timeout : UInt32)
    (guid : Bytes) : Bytes :=
  create sessionId treeId name 0x09
    (createContext CreateContextName.DURABLE_HANDLE_REQUEST_V2
      (Bytes.ofU32 timeout ++ Bytes.zeros 12 ++ guid))

def reconnect (sessionId : UInt64) (treeId : UInt32) (name : String) (persistentId : UInt64) :
    Bytes :=
  create sessionId treeId name 0x09
    (createContext CreateContextName.DURABLE_HANDLE_RECONNECT
      (Bytes.ofU64 persistentId ++ Bytes.zeros 8))

/-- A CREATE request that asks for a reconnect with a GUID. -/
def reconnectV2 (sessionId : UInt64) (treeId : UInt32) (name : String) (persistentId : UInt64)
    (guid : Bytes) : Bytes :=
  create sessionId treeId name 0x09
    (createContext CreateContextName.DURABLE_HANDLE_RECONNECT_V2
      (Bytes.ofU64 persistentId ++ Bytes.zeros 8 ++ guid ++ Bytes.zeros 4))

end Client

namespace Sample

/-- A provider that takes a client without a token for anonymous and any other for a guest. -/
def everybody : AnonymousAuthProvider := ⟨true, true⟩

/-- An anonymous client opens a durable handle on connection 0 and leaves; a client with a token
is at the end of a request for it on connection 1. -/
def reconnecting (opening token request : Bytes) : Option (FilesConfig × FilesTrace) :=
  (takeTurns (start everybody)
    [.serve 0 (sessionSetup 0 []), .serve 0 (treeConnect 1 "\\\\a\\s"),
      .serve 0 opening, .leave 0, .serve 1 (sessionSetup 0 token),
      .serve 1 (treeConnect 2 "\\\\a\\s")]).bind fun st =>
    playAll st.config st.trace (.message 1 request :: List.replicate 11 (.call 1))

/-- The command is a reconnect, with such calls. -/
abbrev reconnectAnswered (f : List (FilesWorld × Event Smb) →
    List (FilesWorld × Event Smb) → Bool) : FilesConfig → ℕ → Bool :=
  answeredBy fun cmd g e => (reconnectRequest cmd).isSome && f g e

/-- A client gets its handle back. -/
theorem reconnected_rightly_owner :
    ∃ (c : FilesConfig) (tr : Trace anyCall) (p q : Prog SmbT Conn)
      (h : List FilesStamped)
      (w : FilesWorld) (cmd : Command)
      (g e : List (FilesWorld × Event Smb)) (response : Option Response)
      (persistentId : UInt64) (createGuid : Option Bytes) (filename : String),
      (SmbRun anyCall c tr ∧ EachSmbCall (fun tr i x => asksRightly tr i x = true) tr ∧
        c.phase 1 = .busy p h q ∧ progress (stamps h) = .handling w cmd g e ∧
        reconnectRequest cmd = some (persistentId, createGuid, filename) ∧
        Answered cmd e response) ∧
      ReconnectedRightly 1 tr cmd g e persistentId createGuid filename := by
  obtain ⟨⟨c, tr⟩, hx, hsteps, hchk⟩ : ∃ x,
      reconnecting (createDurableV2 1 1 "f" 0 (List.replicate 16 7)) []
        (reconnectV2 2 1 "f" 1 (List.replicate 16 7)) = some x ∧
      EachSmbCall (fun tr i x => asksRightly tr i x = true) x.2 ∧
      reconnectAnswered (fun _ _ => true) x.1 1 = true := exists_of_any (by decide +kernel)
  obtain ⟨st, hst, hplay⟩ := bind_eq_some_iff.1 hx
  have hrun := run_playAll (run_takeTurns (run_start _) hst) hplay
  obtain ⟨p, h, q, w, cmd, g, e, response, hi, hp, hansd, hf⟩ := exists_of_answeredBy hchk
  obtain ⟨⟨persistentId, createGuid, filename⟩, hcmd⟩ :=
    isSome_iff_exists.1 (Bool.and_eq_true_iff.1 hf).1
  exact ⟨c, tr, p, q, h, w, cmd, g, e, response, persistentId, createGuid, filename,
    ⟨hrun, hsteps, hi, hp, hcmd, hansd⟩,
    reconnected_rightly hrun hsteps hi hp hcmd hansd⟩

/-- **A stranger gets the handle of another user**: a guest reconnects to an anonymous client's
durable handle under a placeholder name and without a GUID. -/
theorem reconnected_by_stranger :
    ∃ (c : FilesConfig) (tr : Trace anyCall) (p q : Prog SmbT Conn)
      (h : List FilesStamped)
      (w : FilesWorld) (cmd : Command)
      (g e : List (FilesWorld × Event Smb)) (response : Option Response)
      (persistentId : UInt64) (createGuid : Option Bytes) (filename : String),
      SmbRun anyCall c tr ∧ c.phase 1 = .busy p h q ∧
        progress (stamps h) = .handling w cmd g e ∧
        reconnectRequest cmd = some (persistentId, createGuid, filename) ∧
        Answered cmd e response ∧
        ¬ ReconnectedRightly 1 tr cmd g e persistentId createGuid filename := by
  obtain ⟨⟨c, tr⟩, hx, hchk, hopeners⟩ : ∃ x, reconnecting (createDurable 1 1 "f") [1]
      (reconnect 2 1 "__" 1) = some x ∧
      reconnectAnswered (fun g e =>
        (g.all fun y => (checkedSession y.2).all fun session => session.userId == "Guest") &&
          e.all fun y => (seenHandle y.2).all fun handle => handle.persistentId == 1) x.1 1 = true ∧
      (x.2.tails.all fun tr => (openerOf tr 1).all fun opener => opener.userId != "Guest") =
        true := exists_of_any (by decide +kernel)
  obtain ⟨st, hst, hplay⟩ := bind_eq_some_iff.1 hx
  have hrun := run_playAll (run_takeTurns (run_start _) hst) hplay
  obtain ⟨p, h, q, w, cmd, g, e, response, hi, hp, hansd, hf⟩ := exists_of_answeredBy hchk
  obtain ⟨hcmd, hf⟩ := Bool.and_eq_true_iff.1 hf
  obtain ⟨⟨persistentId, createGuid, filename⟩, hcmd⟩ := isSome_iff_exists.1 hcmd
  obtain ⟨hsesss, hhandles⟩ := Bool.and_eq_true_iff.1 hf
  refine ⟨c, tr, p, q, h, w, cmd, g, e, response, persistentId, createGuid, filename, hrun, hi, hp,
    hcmd, hansd, ?_⟩
  rintro ⟨handle, session, opener, tree, st, tr', hhdl, -, hsuf, -, -, ⟨y, hy, hsess⟩,
    hopener, huser, -⟩
  -- the session is that of a guest, the opener was none
  have hguest := all_eq_true.1 hsesss y hy
  rw [hsess, all_some, beq_iff_eq] at hguest
  obtain ⟨z, hz, hzhandle⟩ := mem_map.1 hhdl
  have hid := all_eq_true.1 hhandles z hz
  rw [hzhandle] at hid
  have hid : handle.persistentId = 1 := beq_iff_eq.1 hid
  have hstranger := all_eq_true.1 hopeners tr'
    ((mem_tails _ _).2 ((suffix_cons _ _).trans hsuf))
  rw [← hid, hopener, all_some, bne_iff_ne] at hstranger
  exact hstranger ((congrArg Prod.fst huser).symm.trans hguest)

end Sample

end RustSmb
