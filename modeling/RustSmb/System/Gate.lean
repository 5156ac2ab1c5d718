import RustSmb.Server.Footprint
import RustSmb.System.Run

/-!
# Commands and sessions

The dispatcher checks the session of a command unless the header names session 0, and
it does not check acknowledgments at all.  For the commands that need a tree this is
enough as long as session 0 has no tree; TREE_CONNECT, LOGOFF and OPLOCK_BREAK need a
condition of their own.

## Main results

* `noZeroTree` — session 0 never has a tree in runs of proper commands.
* `effect_only_with_session` — **proper commands take effect only for a bound and stored session.**
* `treeConnect_without_session` — TREE_CONNECT takes effect on a fresh connection.
-/

namespace RustSmb

open List

/-- The commands that need no session. -/
def isExempt : Smb2Command → Bool
  | .negotiate | .sessionSetup | .echo | .cancel => true
  | _ => false

/-- Does a call read or change share, tree, handle, lease, lock or file state? -/
def takesEffect : SmbOp → Bool
  | .store (.getSession _) => false
  | .store _ | .backend _ _ | .registry _ _ => true
  | .authenticate _ _ _ | .now | .filetime | .random => false

section Proper

variable {α β : Type}

def World.HasSession (w : World α β) (sessionId : UInt64) : Prop :=
  (w.store.sessions.lookup sessionId).isSome = true

instance (w : World α β) (sessionId : UInt64) : Decidable (w.HasSession sessionId) :=
  inferInstanceAs (Decidable (_ = true))

/-- TREE_CONNECT and LOGOFF name a session, and an acknowledgment names one that is bound and
stored. -/
def Proper (w : World α β) (cmd : Command) : Prop :=
  (cmd.header.command = .treeConnect ∨ cmd.header.command = .logoff →
    cmd.header.sessionId ≠ 0) ∧
  (cmd.header.command = .oplockBreak →
    cmd.header.sessionId ∈ cmd.handler.connection.sessionIds ∧
      w.HasSession cmd.header.sessionId)

instance (w : World α β) (cmd : Command) : Decidable (Proper w cmd) :=
  inferInstanceAs (Decidable (_ ∧ _))

end Proper

/-! ### Trees -/

/-- Trees are created by TREE_CONNECT only, for the session of its header. -/
def CreatesTree (cmd : Command) (_ _ : List (Event Smb)) (o : SmbOp) : Prop :=
  ∀ tree, o = .store (.createTree tree) →
    cmd.header.command = .treeConnect ∧ tree.sessionId = cmd.header.sessionId

section Trees

open Proc Handler

variable [Externs]

theorem handleTreeConnect_creates (header : Smb2Header) (body : Bytes) :
    Uses (fun o : SmbOp =>
        ∀ tree, o = .store (.createTree tree) → tree.sessionId = header.sessionId)
      (handleTreeConnect header body) := by
  refine keeps_bind keeps_require fun _ => keeps_bind keeps_get fun s => ?_
  refine keeps_bind keeps_getOrFail fun share => ?_
  refine keeps_bind (keeps_storeOrInternal fun _ => nofun) fun treeId => ?_
  refine keeps_bind (keeps_now fun _ => nofun) fun now => ?_
  refine keeps_bind (keeps_storeOrInternal fun _ => ?_) fun _ => ?_
  · rintro tree ⟨⟩
    rfl
  · exact keeps_bind always_buildResponseHeader fun _ => keeps_pure

theorem handlersMake_createsTree : HandlersMake CreatesTree := by
  intro cmd g _
  by_cases hcmd : cmd.header.command = .treeConnect
  · have hhandler : handleCommand cmd.header cmd.body cmd.fullMessage =
        some <$> handleTreeConnect cmd.header cmd.body := by
      unfold handleCommand
      rw [hcmd]
    rw [hhandler]
    refine wp_weaken (keeps_map (handleTreeConnect_creates cmd.header cmd.body) _ _ trivial) ?_
    exact fun _ o ho tree htree => ⟨hcmd, ho tree htree⟩
  · -- the footprints of the other commands have no new trees
    refine wp_weaken (handleCommand_effects cmd.header cmd.body cmd.fullMessage _ _) ?_
    rintro _ o ho tree rfl
    exfalso
    revert ho hcmd
    cases cmd.header.command <;> simp [SmbOp.effect, StoreOp.effect, footprint]

end Trees

/-! ### Runs -/

section Runs

variable {α β : Type}

/-- Session zero has no trees. -/
def NoZeroTree (w : World α β) : Prop := ∀ treeId, w.store.trees.lookup (0, treeId) = none

theorem NoZeroTree.callStore {w : World α β} (hw : NoZeroTree w) {o : StoreOp}
    (ho : ∀ tree, o = .createTree tree → tree.sessionId ≠ 0) : NoZeroTree (w.callStore o).2 := by
  intro treeId
  by_cases hc : o.effect = .createTree
  · cases o with
    | createTree tree =>
      have hkey : ((0, treeId) : UInt64 × UInt32) ≠ (tree.sessionId, tree.treeId) :=
        fun heq => ho tree rfl (congrArg Prod.fst heq).symm
      exact (AList.lookup_insert_ne hkey).trans (hw treeId)
    | _ => cases hc
  by_cases hd : o.effect = .deleteTree
  · cases o with
    | deleteTree sessionId treeId' =>
      have hlook : (w.callStore (.deleteTree sessionId treeId')).2.store.trees =
        w.store.trees.erase (sessionId, treeId') := rfl
      rw [hlook, Table.lookup_erase_ite]
      split
      · rfl
      · exact hw treeId
    | _ => cases hd
  · have htrees : (w.callStore o).2.store.trees = w.store.trees :=
      MemoryStateStore.answer_trees hc hd
    rw [htrees]
    exact hw treeId

theorem NoZeroTree.env {w w' : World α β} (hw : NoZeroTree w) (henv : EnvStep w w') :
    NoZeroTree w' := by
  cases henv with
  | oracle _ | registry _ _ _ => exact hw
  | failure serverId o ho =>
    refine hw.callStore ?_
    rcases ho with rfl | rfl <;> exact nofun

theorem checks_of_not_exempt {command : Smb2Command} (h : isExempt command = false) :
    command = .oplockBreak ∨ requiresSession command = true ∧
      (command = .treeConnect ∨ command = .logoff ∨ requiresTree command = true) := by
  cases command <;> simp_all [isExempt, requiresSession, requiresTree]

variable [AuthProvider α] [StorageBackend β]

theorem hasSession_of_getSession {w : World α β} {sessionId : UInt64} {session : SessionState}
    (h : (World.answer (.store (.getSession sessionId)) w).1 = .ok (some session)) :
    w.HasSession sessionId := by
  have hlook : w.store.sessions.lookup sessionId = some session := Except.ok.inj h
  unfold World.HasSession
  rw [hlook]
  rfl

variable [Externs]

/-- **Session 0 never has a tree in runs of proper commands**, now or at a moment that is
remembered. -/
theorem noZeroTree {c : (smbMachine α β (onDispatch Proper)).Config}
    (hc : SmbReachable (onDispatch Proper) c) :
    NoZeroTree c.world ∧ ∀ i p h q, c.phase i = .busy p h q →
      ∀ e ∈ h, NoZeroTree (α := α) (β := β) e.world := by
  refine hc.invariant (fun _ hc i => hc.idle i) NoZeroTree ?_ ?_ ?_
  · intro c hinit
    obtain ⟨providers, backends, oracle, hw⟩ := hinit.empty
    rw [hw]
    exact fun _ => rfl
  · exact fun w w' henv hw => hw.env henv
  · rintro i p h (o | m) k r w w' hrun ⟨hexec, -⟩ hw
    · obtain rfl : (World.answer o w).2 = w' := congrArg Prod.snd hexec
      cases o with
      | store o =>
        refine hw.callStore ?_
        rintro tree rfl
        -- only the handler of TREE_CONNECT creates a tree
        obtain ⟨_, cmd, _, _, -, hhand, hcreates⟩ :=
          handler_call handlersMake_createsTree hrun (by simp [isCheck]) not_false
        obtain ⟨hcmd, hsess⟩ := hcreates tree rfl
        rw [hsess]
        exact hhand.dispatched.1 (.inl hcmd)
      | _ => exact hw
    · obtain rfl : w = w' := congrArg Prod.snd hexec
      exact hw

/-- **In a run of proper commands, a command takes effect only for a session that is bound to the
connection and stored**: it was bound when the command was dispatched, and in the store at a
moment since then. -/
theorem effect_only_with_session {c : (smbMachine α β (onDispatch Proper)).Config}
    (hc : SmbReachable (onDispatch Proper) c) {i : ℕ} {p q : Prog SmbT Conn}
    {h : List (smbMachine α β (onDispatch Proper)).Stamped} (hi : c.phase i = .busy p h q)
    {w : World α β} {cmd : Command} {g e : List (World α β × Event Smb)}
    (hp : progress (stamps h) = .handling w cmd g e)
    (hexempt : isExempt cmd.header.command = false) :
    cmd.header.sessionId ∈ cmd.handler.connection.sessionIds ∧
      ∃ w' ∈ w :: (e ++ g).map Prod.fst, w'.HasSession cmd.header.sessionId := by
  obtain ⟨hpass, hproper, hansd⟩ := handling (hc.running hi) hp
  have hmoment : ∀ x ∈ g, x.1 ∈ w :: (e ++ g).map Prod.fst := fun x hx =>
    mem_cons_of_mem _ (mem_map_of_mem (mem_append_right e hx))
  rcases checks_of_not_exempt hexempt with hcmd | ⟨hsess, hcmd⟩
  · obtain ⟨hbound, hstored⟩ := hproper.2 hcmd
    exact ⟨hbound, w, mem_cons_self, hstored⟩
  by_cases h0 : cmd.header.sessionId = 0
  · -- the tree that the dispatcher found cannot be one of session 0
    exfalso
    rcases hcmd with hcmd | hcmd | htree
    · exact hproper.1 (.inl hcmd) h0
    · exact hproper.1 (.inr hcmd) h0
    obtain ⟨tree, hmem⟩ := hpass.tree htree
    obtain ⟨⟨w', ev⟩, hx, rfl⟩ := mem_map.1 hmem
    have hfound : w'.store.trees.lookup (cmd.header.sessionId, cmd.header.treeId) = some tree :=
      Except.ok.inj (hansd _ (mem_append_left e hx))
    have hnone : NoZeroTree w' := by
      have hrec := recorded_progress (stamps h)
      rw [hp] at hrec
      obtain ⟨ev', hev', heq⟩ := mem_map.1 (hrec.2 _ (mem_append_left e hx))
      have hpast := (noZeroTree hc).2 i p h _ hi ev' hev'
      rwa [(Prod.mk.inj heq).1] at hpast
    rw [h0, hnone] at hfound
    cases hfound
  · refine ⟨contains_iff_mem.1 (hpass.bound hsess h0), ?_⟩
    obtain ⟨session, hmem⟩ := hpass.session hsess h0
    obtain ⟨⟨w', ev⟩, hx, rfl⟩ := mem_map.1 hmem
    exact ⟨w', hmoment _ hx, hasSession_of_getSession (hansd _ (mem_append_left e hx))⟩

end Runs

def createdTree : SmbOp → Option TreeState
  | .store (.createTree tree) => some tree
  | _ => none

theorem eq_of_createdTree {o : SmbOp} {tree : TreeState} (h : createdTree o = some tree) :
    o = .store (.createTree tree) := by
  unfold createdTree at h
  split at h
  · cases h
    rfl
  · cases h

section Sample

open Sample

/-- A TREE_CONNECT on a session that was set up before. -/
theorem effect_only_with_session_treeConnect :
    ∃ (c : (smbMachine AnonymousAuthProvider Files (onDispatch Proper)).Config)
      (p : Prog SmbT Conn)
      (h : List (smbMachine AnonymousAuthProvider Files (onDispatch Proper)).Stamped)
      (o : SmbOp) (k : SmbT.Res (.inl o) → Prog SmbT Conn)
      (w : FilesWorld) (cmd : Command)
      (g e : List (FilesWorld × Event Smb)),
      (SmbReachable (onDispatch Proper) c ∧ c.phase 0 = .busy p h (.call (.inl o) k) ∧
        progress (stamps h) = .handling w cmd g e ∧ isExempt cmd.header.command = false ∧
        takesEffect o = true) ∧
      cmd.header.sessionId ∈ cmd.handler.connection.sessionIds ∧
      ∃ w' ∈ w :: (e ++ g).map Prod.fst, w'.HasSession cmd.header.sessionId := by
  obtain ⟨x, hpoint, ho, hchk⟩ : ∃ x, pointOf
      (start AnonymousAuthProvider.anonymousOnly : Snapshot (onDispatch Proper))
      [(0, Client.sessionSetup 0 [])] (0, Client.treeConnect 1 "\\\\a\\s") 3 = some x ∧
      takesEffect x.op = true ∧ ((progress (stamps x.history)).any fun _ cmd _ _ =>
        !isExempt cmd.header.command) = true := exists_of_any (by decide +kernel)
  obtain ⟨c, p, k, hrun, -, hi⟩ := exists_point (run_start _) hpoint
  obtain ⟨w, cmd, g, e, hp, hchk⟩ := Progress.exists_of_any hchk
  have hexempt : isExempt cmd.header.command = false := by simpa using hchk
  exact ⟨c, p, x.history, x.op, k, w, cmd, g, e, ⟨hrun.reachable, hi, hp, hexempt, ho⟩,
    effect_only_with_session hrun.reachable hi hp hexempt⟩

/-- **Without a condition, TREE_CONNECT takes effect on a fresh connection**: with session 0 it
is not checked, although no session is bound or stored. -/
theorem treeConnect_without_session :
    ∃ (c : FilesConfig) (p : Prog SmbT Conn)
      (h : List FilesStamped)
      (tree : TreeState) (k : SmbT.Res (.inl (.store (.createTree tree))) → Prog SmbT Conn)
      (w : FilesWorld) (cmd : Command)
      (g e : List (FilesWorld × Event Smb)),
      SmbReachable anyCall c ∧
        c.phase 0 = .busy p h (.call (.inl (.store (.createTree tree))) k) ∧
        progress (stamps h) = .handling w cmd g e ∧ isExempt cmd.header.command = false ∧
        cmd.header.sessionId ∉ cmd.handler.connection.sessionIds ∧
        ∀ w' ∈ w :: (e ++ g).map Prod.fst, ¬ w'.HasSession cmd.header.sessionId := by
  obtain ⟨⟨w₁, tr, h, o⟩, hpoint, ho, hchk⟩ : ∃ x, pointOf
      (start AnonymousAuthProvider.anonymousOnly : Snapshot anyCall) []
      (0, Client.treeConnect 0 "\\\\a\\s") 4 = some x ∧ (createdTree x.op).isSome = true ∧
      ((progress (stamps x.history)).any fun w cmd g e =>
        decide (isExempt cmd.header.command = false ∧
          cmd.header.sessionId ∉ cmd.handler.connection.sessionIds ∧
          ∀ w' ∈ w :: (e ++ g).map Prod.fst, ¬ w'.HasSession cmd.header.sessionId)) = true :=
    exists_of_any (by decide +kernel)
  obtain ⟨c, p, k, hrun, -, hi⟩ := exists_point (run_start _) hpoint
  obtain ⟨tree, htree⟩ := Option.isSome_iff_exists.1 ho
  obtain rfl := eq_of_createdTree htree
  obtain ⟨w, cmd, g, e, hp, hchk⟩ := Progress.exists_of_any hchk
  exact ⟨c, p, h, tree, k, w, cmd, g, e, hrun.reachable, hi, hp, of_decide_eq_true hchk⟩

end Sample

end RustSmb
