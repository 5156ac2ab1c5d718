import RustSmb.System.Atomic
import RustSmb.System.Run

/-!
# Signed requests

A request demands a check of its signature if the connection has a signing key for its session and
the request is flagged as signed or the session requires signing.  The dispatcher makes no such
check, so a wrong signature is noticed by nobody.  But a request whose session is not bound to the
connection is turned away.

## Main results

* `executed_only_verified` — **if what demands a check is signed correctly or turned away, what is
  executed verifies.**
* `forged_treeConnect` — without the condition, a forged request is executed.
-/

namespace RustSmb

section Demands

variable {α β : Type}

/-- A request demands a check under `key`: the connection has the key for its session, and the
request is flagged as signed or the session requires signing. -/
def Demands (w : World α β) (cmd : Command) (key : Bytes) : Prop :=
  cmd.handler.signingKeys.lookup cmd.header.sessionId = some key ∧
    (Smb2Flags.isSigned cmd.header.flags = true ∨
      (w.store.sessions.lookup cmd.header.sessionId).any SessionState.signingRequired = true)

instance (w : World α β) (cmd : Command) (key : Bytes) : Decidable (Demands w cmd key) :=
  inferInstanceAs (Decidable (_ ∧ _))

/-- The session that a request names is checked and is not bound to the connection. -/
def TurnedAway (cmd : Command) : Prop :=
  requiresSession cmd.header.command = true ∧ cmd.header.sessionId ≠ 0 ∧
    cmd.header.sessionId ∉ cmd.handler.connection.sessionIds

instance (cmd : Command) : Decidable (TurnedAway cmd) := inferInstanceAs (Decidable (_ ∧ _))

variable [Externs]

def Verifies (cmd : Command) (key : Bytes) : Prop :=
  verifyRequestSignature cmd.received key = .ok ()

instance (cmd : Command) (key : Bytes) : Decidable (Verifies cmd key) :=
  decidable_of_iff _ verifyRequestSignature_eq_ok.symm

/-- Where a signature is due, it verifies or the command is turned away. -/
def SignedOrTurnedAway (w : World α β) (cmd : Command) : Prop :=
  ∀ key, Demands w cmd key → Verifies cmd key ∨ TurnedAway cmd

-- only the key that the connection has can be demanded
instance (w : World α β) (cmd : Command) : Decidable (SignedOrTurnedAway w cmd) :=
  decidable_of_iff (∀ key ∈ cmd.handler.signingKeys.lookup cmd.header.sessionId,
      Demands w cmd key → Verifies cmd key ∨ TurnedAway cmd)
    ⟨fun h key hkey => h key hkey.1 hkey, fun h key _ => h key⟩

end Demands

/-! ### Runs -/

section Runs

variable [Externs] {α β : Type} [AuthProvider α] [StorageBackend β]

/-- **If every request that demands a check is signed correctly or turned away, what is executed
verifies.** -/
theorem executed_only_verified {c : (smbMachine α β (onDispatch SignedOrTurnedAway)).Config}
    (hc : SmbReachable (onDispatch SignedOrTurnedAway) c) {i : ℕ} {p q : Prog SmbT Conn}
    {h : List (smbMachine α β (onDispatch SignedOrTurnedAway)).Stamped}
    (hi : c.phase i = .busy p h q) {w : World α β} {cmd : Command}
    {g e : List (World α β × Event Smb)} (hp : progress (stamps h) = .handling w cmd g e)
    {key : Bytes} (hkey : Demands w cmd key) : Verifies cmd key := by
  obtain ⟨hpass, hsign, -⟩ := handling (hc.running hi) hp
  rcases hsign key hkey with hver | ⟨hchecked, h0, hbound⟩
  · exact hver
  · exact absurd (List.contains_iff_mem.1 (hpass.bound hchecked h0)) hbound

end Runs

section Sample

open Sample

/-- A user logs on and then sends a TREE_CONNECT that is flagged as signed. -/
def signedTreeConnect (ok : World NtlmAuthProvider Files → SmbOp ⊕ Mark → Prop)
    [∀ w o, Decidable (ok w o)] (signature : Bytes) : Option (Point ok) :=
  pointOf (start ntlm)
    [(0, Client.sessionSetup 0 logonTokens.1), (0, Client.sessionSetup 1 logonTokens.2)]
    (0, Client.treeConnectSigned 1 "\\\\a\\s" Smb2Flags.SIGNED signature) 3

/-- A TREE_CONNECT with the right signature. -/
theorem executed_only_verified_treeConnect :
    ∃ (c : (smbMachine NtlmAuthProvider Files (onDispatch SignedOrTurnedAway)).Config)
      (p q : Prog SmbT Conn)
      (h : List (smbMachine NtlmAuthProvider Files (onDispatch SignedOrTurnedAway)).Stamped)
      (w : World NtlmAuthProvider Files) (cmd : Command)
      (g e : List (World NtlmAuthProvider Files × Event Smb)) (key : Bytes),
      (SmbReachable (onDispatch SignedOrTurnedAway) c ∧ c.phase 0 = .busy p h q ∧
        progress (stamps h) = .handling w cmd g e ∧ Demands w cmd key) ∧ Verifies cmd key := by
  obtain ⟨x, hpoint, hchk⟩ : ∃ x,
      signedTreeConnect (onDispatch SignedOrTurnedAway) (Bytes.zeros 16) = some x ∧
      ((progress (stamps x.history)).any fun w cmd _ _ =>
        decide (Demands w cmd (Bytes.zeros 16))) = true := exists_of_any (by decide +kernel)
  obtain ⟨c, p, k, hrun, -, hi⟩ := exists_point (run_start _) hpoint
  obtain ⟨w, cmd, g, e, hp, hchk⟩ := Progress.exists_of_any hchk
  have hkey := of_decide_eq_true hchk
  exact ⟨c, p, _, x.history, w, cmd, g, e, _, ⟨hrun.reachable, hi, hp, hkey⟩,
    executed_only_verified hrun.reachable hi hp hkey⟩

/-- **Without the condition, a forged request is executed**: the session has a key and the
TREE_CONNECT is flagged as signed, with a wrong signature, and still its handler takes over. -/
theorem forged_treeConnect :
    ∃ (c : (smbMachine NtlmAuthProvider Files anyCall).Config) (p q : Prog SmbT Conn)
      (h : List (smbMachine NtlmAuthProvider Files anyCall).Stamped)
      (w : World NtlmAuthProvider Files) (cmd : Command)
      (g e : List (World NtlmAuthProvider Files × Event Smb)) (key : Bytes),
      SmbReachable anyCall c ∧ c.phase 0 = .busy p h q ∧
        progress (stamps h) = .handling w cmd g e ∧ Demands w cmd key ∧ ¬ Verifies cmd key := by
  obtain ⟨x, hpoint, hchk⟩ : ∃ x, signedTreeConnect anyCall (List.replicate 16 1) = some x ∧
      ((progress (stamps x.history)).any fun w cmd _ _ =>
        decide (Demands w cmd (Bytes.zeros 16) ∧ ¬ Verifies cmd (Bytes.zeros 16))) = true :=
    exists_of_any (by decide +kernel)
  obtain ⟨c, p, k, hrun, -, hi⟩ := exists_point (run_start _) hpoint
  obtain ⟨w, cmd, g, e, hp, hchk⟩ := Progress.exists_of_any hchk
  exact ⟨c, p, _, x.history, w, cmd, g, e, _, hrun.reachable, hi, hp, of_decide_eq_true hchk⟩

end Sample

end RustSmb
