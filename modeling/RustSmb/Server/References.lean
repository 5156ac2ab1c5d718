import RustSmb.Server.Break

/-!
# References into the break registry

The maps of the break registry are sharded: a reference to an entry locks its shard, and whoever
writes there waits until the reference is dropped.  Which references a call holds can be read off
its history.  Breaking an oplock drops the reference before the wait for the acknowledgment;
breaking a lease keeps it to its end, and both keep it while they send the notification.

## Main results

* `BreakRequest.awaiting_held` — what a call holds whenever it awaits.
* `BreakRequest.unblocked_iff` — **a call that awaits blocks nobody exactly if it finds no entry.**

Source: `rustsmb-server/src/lease_break.rs`.
-/

namespace RustSmb

open Handler

/-- A reference to an entry of the registry: of a lease, or of an oplock. -/
inductive Reference where
  | lease (leaseKey : String)
  | oplock (handleId : HandleId)
deriving DecidableEq

def Reference.registered (reg : LeaseBreakRegistry) : Reference → Bool
  | lease key => (reg.leaseConnections.lookup key).isSome
  | oplock id => (reg.oplockConnections.lookup id).isSome

/-- The references that a call to the registry holds, by its history. -/
def held : List (Event Smb) → List Reference
  | [] => []
  | ⟨.registry _ (.leaseConnection key), r⟩ :: h => (r.map fun _ => .lease key).toList ++ held h
  | ⟨.registry _ (.oplockConnection id), r⟩ :: h => (r.map fun _ => .oplock id).toList ++ held h
  -- `break_oplock` drops its entry once the notification is sent, `break_lease` never does.
  | ⟨.registry _ (.sendOplockBreak _ event), _⟩ :: h => (held h).erase (.oplock event.handleId)
  | _ :: h => held h

/-- Does the call wait, for room in a channel or for an acknowledgment? -/
def awaits : SmbOp → Bool
  | .registry _ (.sendLeaseBreak _ _) | .registry _ (.sendOplockBreak _ _)
  | .registry _ (.awaitCompletion _) => true
  | _ => false

def found (h : List (Event Smb)) : Bool :=
  h.any fun
    | ⟨.registry _ (.leaseConnection _), r⟩ => r.isSome
    | ⟨.registry _ (.oplockConnection _), r⟩ => r.isSome
    | _ => false

/-- The entries that an access writes to: registering and unregistering, and the change of
an oplock level. -/
def RegistryOp.writes (reg : LeaseBreakRegistry) : RegistryOp → List Reference
  | registerLease key _ | unregisterLease key => [.lease key]
  | unregisterConnectionLeases serverId sessionId =>
      (reg.leaseConnections.entries.filter fun e =>
        e.2.serverId == serverId && e.2.sessionId == sessionId).map fun e => .lease e.1
  | registerOplock id _ | unregisterOplock id | updateOplockLevel id _ => [.oplock id]
  | unregisterConnectionOplocks serverId sessionId =>
      (reg.oplockConnections.entries.filter fun e =>
        e.2.serverId == serverId && e.2.sessionId == sessionId).map fun e => .oplock e.1
  | _ => []

/-- Must the access wait for one of these references to be dropped? -/
def RegistryOp.blockedBy (shard : Reference → ℕ) (reg : LeaseBreakRegistry)
    (refs : List Reference) (o : RegistryOp) : Bool :=
  (o.writes reg).any fun r => refs.any fun r' => shard r' == shard r

/-- A break that an operation asks for. -/
inductive BreakRequest where
  | lease (leaseKey : String) (currentState newState : UInt32) (epoch : UInt16)
      (filePath : String)
  | oplock (handleId : HandleId) (newLevel : UInt8) (filePath : String)

namespace BreakRequest

def program : BreakRequest → Handler (Except LeaseBreakError LeaseBreakResult)
  | lease key currentState newState epoch path => breakLease key currentState newState epoch path
  | oplock id newLevel path => breakOplock id newLevel path

/-- Whom it is for. -/
def reference : BreakRequest → Reference
  | lease key _ _ _ _ => .lease key
  | oplock id _ _ => .oplock id

/-- Does the call hold its reference while it awaits this? -/
def holdsOn : BreakRequest → SmbOp → Bool
  | oplock _ _ _, .registry _ (.awaitCompletion _) => false
  | _, _ => true

/-- What holds whenever a call awaits, whatever it finds and whatever it is told. -/
def Awaiting (P : List (Event Smb) → SmbOp → Prop) (c : BreakRequest) (s : ConnectionHandler) :
    Prop :=
  (c.program s).wp (fun h o => awaits o = true → P h o) (fun _ _ => True) []

variable {P : List (Event Smb) → SmbOp → Prop}

theorem wp_of_not_awaits {α : Type} {Q : α → List (Event Smb) → Prop} {h : List (Event Smb)}
    {o : SmbOp} {k : Smb.Res o → Prog Smb α} (ho : awaits o = false)
    (hk : ∀ r, (k r).wp (fun h o => awaits o = true → P h o) Q (⟨o, r⟩ :: h)) :
    (Prog.call (S := Smb) o k).wp (fun h o => awaits o = true → P h o) Q h :=
  ⟨fun ha => absurd (ho.symm.trans ha) Bool.false_ne_true, hk⟩

/-- A call that awaits holds a reference to its entry, unless it waits for an oplock to be
acknowledged. -/
theorem awaiting_held (c : BreakRequest) (s : ConnectionHandler) :
    c.Awaiting (fun h o => found h = true ∧ held h = if c.holdsOn o then [c.reference] else [])
      s := by
  cases c with
  | lease key currentState newState epoch path =>
    refine wp_of_not_awaits rfl fun entry => ?_
    cases entry with
    | none => trivial
    | some entry =>
      refine wp_of_not_awaits rfl fun breakId => ⟨fun _ => ⟨rfl, rfl⟩, fun sent => ?_⟩
      generalize (currentState != 0x01) = ackRequired
      cases sent
      · trivial
      cases ackRequired
      · trivial
      refine wp_of_not_awaits rfl fun _ => ⟨fun _ => ⟨rfl, rfl⟩, fun outcome => ?_⟩
      exact wp_of_not_awaits rfl fun _ => trivial
  | oplock id newLevel path =>
    refine wp_of_not_awaits rfl fun entry => ?_
    cases entry with
    | none => trivial
    | some entry =>
      refine wp_of_not_awaits rfl fun breakId => ⟨fun _ => ⟨rfl, rfl⟩, fun sent => ?_⟩
      generalize oplockAckRequired entry.oplockLevel = ackRequired
      cases sent
      · trivial
      cases ackRequired
      · trivial
      refine wp_of_not_awaits rfl fun _ => ⟨fun _ => ⟨rfl, ?_⟩, fun outcome => ?_⟩
      · simp [held, holdsOn]
      · exact wp_of_not_awaits rfl fun _ => trivial

/-- What holds whenever a call awaits holds when it sends its notification, with the entry it
found in its hands. -/
theorem Awaiting.sending {c : BreakRequest} {s : ConnectionHandler} (h : c.Awaiting P s) :
    ∃ h o, found h = true ∧ held h = [c.reference] ∧ P h o := by
  cases c with
  | lease key currentState newState epoch path =>
    let entry : LeaseConnectionEntry := ⟨0, s.serverId, "", 0⟩
    exact ⟨_, _, rfl, rfl, ((h.2 (some entry)).2 (0 : UInt64)).1 rfl⟩
  | oplock id newLevel path =>
    let entry : OplockConnectionEntry := ⟨0, s.serverId, 0, 0, "", ""⟩
    exact ⟨_, _, rfl, rfl, ((h.2 (some entry)).2 (0 : UInt64)).1 rfl⟩

/-- **A call that awaits holds no reference, and blocks no other connection, exactly if its entry
is not registered.** -/
theorem unblocked_iff (shard : Reference → ℕ) (c : BreakRequest) (s : ConnectionHandler)
    (reg : LeaseBreakRegistry) :
    c.Awaiting (fun h _ => found h = c.reference.registered reg →
        held h = [] ∧ ∀ reg' o, RegistryOp.blockedBy shard reg' (held h) o = false) s ↔
      c.reference.registered reg = false := by
  constructor
  · intro hnone
    by_contra hreg
    rw [Bool.not_eq_false] at hreg
    obtain ⟨h, o, hfound, hheld, hfree⟩ := hnone.sending
    have hempty := (hfree (hfound.trans hreg.symm)).1
    exact List.cons_ne_nil _ _ (hheld.symm.trans hempty)
  · intro hreg
    refine Prog.wp_weaken (c.awaiting_held s) fun h o hh ho hfound => ?_
    rw [(hh ho).1, hreg] at hfound
    cases hfound

/-- Until a lease break is acknowledged, no CLOSE can unregister the lease. -/
theorem Sample.unregister_blocked :
    ¬ (lease "1a" 0x07 0x01 1 "f").Awaiting
      (fun h _ => RegistryOp.blockedBy (fun _ => 0) .new (held h) (.unregisterLease "1a") = false)
      (ConnectionHandler.new 1 ⟨Bytes.zeros 16, {}⟩ ∅ "a") := by
  intro h
  let entry : LeaseConnectionEntry := ⟨1, "a", "", 1⟩
  have hwaits := ((((h.2 (some entry)).2 (1 : UInt64)).2 true).2 ()).1 rfl
  cases hwaits

end BreakRequest

end RustSmb
