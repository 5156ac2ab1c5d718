import RustSmb.System.Run

/-!
# Acknowledgments of breaks

An acknowledgment finds its target by the file identifier or the lease key in its body.  Nothing
asks on which session it was sent, so any client can acknowledge the break of any other, and an
oplock acknowledgment is taken even when no break is pending.

It changes the handle or the lease that it names, nothing else.  That a pending break is still the
one that was looked up when it is removed needs identifiers of breaks that are not used twice.

## Main results

* `handlersMake_ackCall` — the calls of an acknowledgment.
* `acknowledgment_changes_own` — **acknowledgments that name only what their session owns change
  only that.**
* `stranger_acknowledges` — a connection without a session takes the oplock of another.
-/

namespace RustSmb

open Table AList List Option SmbOp LeaseBreakRegistry

/-! ### What an acknowledgment names -/

/-- The handle that an acknowledgment is for. -/
def ackedHandle (cmd : Command) : Option HandleId :=
  if cmd.header.command = .oplockBreak ∧ cmd.body.u16 0 = 24 then some (fileIdAt cmd.body 8)
  else none

/-- The lease that an acknowledgment is for. -/
def ackedLease (cmd : Command) : Option String :=
  if cmd.header.command = .oplockBreak ∧ cmd.body.u16 0 = 36 then some (cmd.body.slice 8 16).hex
  else none

/-! ### The calls of an acknowledgment -/

/-- The calls of an acknowledgment after the events `e`.  It writes what it names back as read,
but for the level or the state, and removes a pending break that it has found. -/
def AckCall (cmd : Command) (e : List (Event Smb)) : SmbOp → Prop
  | .registry sv (.removePendingOplockBreak b) =>
      sv = cmd.handler.serverId ∧ ∃ id, ackedHandle cmd = some id ∧
        ⟨registry sv (.findPendingOplockBreak id), some b⟩ ∈ e
  | .registry sv (.updateOplockLevel id _) => sv = cmd.handler.serverId ∧ ackedHandle cmd = some id
  | .store (.updateHandle handle) =>
      ∃ id found level, ackedHandle cmd = some id ∧ handle = { found with oplockLevel := level } ∧
        ⟨store (.getHandle id), .ok (some found)⟩ ∈ e
  | .registry sv (.removePendingBreak b) =>
      sv = cmd.handler.serverId ∧ ∃ key, ackedLease cmd = some key ∧
        ⟨registry sv (.findPendingBreak key), some b⟩ ∈ e
  | .store (.updateLease lease) =>
      ∃ key found state, ackedLease cmd = some key ∧ lease = LeaseEntry.afterBreak found state ∧
        ⟨store (.getLease key), .ok (some found)⟩ ∈ e
  | .store (.getHandle _) | .store (.getLease _) | .registry _ (.findPendingOplockBreak _)
  | .registry _ (.findPendingBreak _) | .registry _ (.complete _ _)
  | .registry _ (.dropCompletion _) => True
  | _ => False

section Handlers

open Proc Handler

variable {cmd : Command} {s : ConnectionHandler} {e : List (Event Smb)}

section Acknowledging

variable {I : List (Event Smb) → SmbOp → Prop}

/-- The acknowledgment of an oplock break removes and completes the break of its handle that it
finds. -/
theorem handleOplockAcknowledgment_wp {id : HandleId} {level : UInt8}
    (hfind : I e (.registry s.serverId (.findPendingOplockBreak id)))
    (hrem : ∀ b h, ⟨registry s.serverId (.findPendingOplockBreak id), some b⟩ ∈ h →
      I h (.registry s.serverId (.removePendingOplockBreak b)))
    (hcompl : ∀ b h, ⟨registry s.serverId (.findPendingOplockBreak id), some b⟩ ∈ h →
      (∀ result, I h (.registry s.serverId (.complete b result))) ∧
        I h (.registry s.serverId (.dropCompletion b))) :
    wp I (handleOplockAcknowledgment id level)
      (onOk (fun _ _ _ => False) fun _ s' h => s' = s ∧ e <:+ h ∧
        ∃ found, ⟨registry s.serverId (.findPendingOplockBreak id), found⟩ ∈ h) s e := by
  unfold handleOplockAcknowledgment
  refine wp_bind.2 (wp_registry.2 ⟨hfind, fun found => ?_⟩)
  cases found with
  | none => exact wp_pure.2 ⟨rfl, suffix_cons _ _, none, mem_cons_self⟩
  | some b =>
    have hmem : ∀ x (h : List (Event Smb)), (⟨registry s.serverId
        (.findPendingOplockBreak id), some b⟩ : Event Smb) ∈ x :: ⟨registry s.serverId
          (.findPendingOplockBreak id), some b⟩ :: h := fun _ _ =>
      mem_cons_of_mem _ mem_cons_self
    have hsuf : ∀ x y : Event Smb, e <:+ x :: y :: e := fun _ _ =>
      (suffix_cons _ _).trans (suffix_cons _ _)
    refine wp_bind.2 (wp_registry.2 ⟨hrem b _ mem_cons_self, fun pending => ?_⟩)
    cases pending with
    | none => exact wp_pure.2 ⟨rfl, hsuf _ _, some b, hmem _ _⟩
    | some pending =>
      rw [onOk_ok]
      dsimp only
      split <;> rw [wp_bind]
      · exact wp_registry.2 ⟨(hcompl b _ (hmem _ _)).2, fun _ => wp_pure.2 ⟨rfl,
          (hsuf _ _).trans (suffix_cons _ _), some b, mem_cons_of_mem _ (hmem _ _)⟩⟩
      · exact wp_registry.2 ⟨(hcompl b _ (hmem _ _)).1 _, fun _ => wp_pure.2 ⟨rfl,
          (hsuf _ _).trans (suffix_cons _ _), some b, mem_cons_of_mem _ (hmem _ _)⟩⟩

theorem handleAcknowledgment_wp {key : Bytes} {state : UInt32}
    (hfind : I e (.registry s.serverId (.findPendingBreak key.hex)))
    (hrem : ∀ b h, ⟨registry s.serverId (.findPendingBreak key.hex), some b⟩ ∈ h →
      I h (.registry s.serverId (.removePendingBreak b)))
    (hcompl : ∀ b h, ⟨registry s.serverId (.findPendingBreak key.hex), some b⟩ ∈ h →
      (∀ result, I h (.registry s.serverId (.complete b result))) ∧
        I h (.registry s.serverId (.dropCompletion b))) :
    wp I (handleAcknowledgment key state) (fun _ _ _ => True) s e := by
  unfold handleAcknowledgment
  refine wp_bind.2 (wp_registry.2 ⟨hfind, fun found => ?_⟩)
  cases found with
  | none => exact wp_pure.2 trivial
  | some b =>
    refine wp_bind.2 (wp_registry.2 ⟨hrem b _ mem_cons_self, fun pending => ?_⟩)
    cases pending with
    | none => exact wp_pure.2 trivial
    | some pending =>
      have hmem := mem_cons_of_mem
        (⟨registry s.serverId (.removePendingBreak b), some pending⟩ : Event Smb)
        (mem_cons_self (a := ⟨registry s.serverId (.findPendingBreak key.hex), some b⟩) (l := e))
      rw [onOk_ok]
      dsimp only
      split <;> rw [wp_bind]
      · exact wp_registry.2 ⟨(hcompl b _ hmem).2, fun _ => wp_pure.2 trivial⟩
      · exact wp_registry.2 ⟨(hcompl b _ hmem).1 _, fun _ => wp_pure.2 trivial⟩

end Acknowledging

theorem handleOplockBreakAck_calls (hid : ackedHandle cmd = some (fileIdAt cmd.body 8))
    (hs : s.serverId = cmd.handler.serverId) :
    wp (AckCall cmd) (handleOplockBreakAck cmd.header cmd.body) (fun _ _ _ => True) s e := by
  unfold handleOplockBreakAck
  rw [wp_bind, wp_require]
  refine ⟨fun _ => ?_, fun _ => trivial⟩
  rw [onOk_ok, wp_bind]
  refine wp_storeOrInternal.2 ⟨trivial, fun found => ?_, fun _ => trivial⟩
  rw [onOk_ok, wp_bind, wp_getOrFail]
  refine ⟨fun handle hfound => ?_, fun _ => trivial⟩
  subst hfound
  rw [onOk_ok, wp_bind]
  refine wp_mono (handleOplockAcknowledgment_wp trivial (fun _ _ h => ⟨hs, _, hid, h⟩)
    fun _ _ _ => ⟨fun _ => trivial, trivial⟩) ?_
  rintro (err | _) s' e' hr
  · exact hr.elim
  obtain ⟨rfl, hsuf, -⟩ := hr
  rw [onOk_ok, wp_bind]
  refine wp_registry.2 ⟨⟨hs, hid⟩, fun _ => ?_⟩
  rw [onOk_ok, wp_bind]
  refine wp_store.2 ⟨⟨_, handle, _, hid, rfl, ?_⟩, fun _ => ?_⟩
  · exact mem_cons_of_mem _ (hsuf.subset mem_cons_self)
  · exact always_respond.wp _ _

theorem handleLeaseBreakAck_calls (hkey : ackedLease cmd = some (cmd.body.slice 8 16).hex)
    (hs : s.serverId = cmd.handler.serverId) :
    wp (AckCall cmd) (handleLeaseBreakAck cmd.header cmd.body) (fun _ _ _ => True) s e := by
  unfold handleLeaseBreakAck
  rw [wp_bind, wp_require]
  refine ⟨fun _ => ?_, fun _ => trivial⟩
  rw [onOk_ok, wp_bind]
  refine wp_mono (handleAcknowledgment_wp trivial (fun _ _ h => ⟨hs, _, hkey, h⟩)
    fun _ _ _ => ⟨fun _ => trivial, trivial⟩) ?_
  rintro (err | r) s' e' -
  · trivial
  rw [onOk_ok]
  rcases r with err | _
  · cases err <;> exact wp_fail.2 trivial
  · dsimp only
    rw [wp_bind]
    unfold recordAcknowledged
    rw [wp_bind]
    refine wp_store.2 ⟨trivial, fun r => ?_⟩
    have hrespond : ∀ body e'',
        wp (AckCall cmd) (respond cmd.header body) (fun _ _ _ => True) s' e'' :=
      fun _ _ => always_respond.wp _ _
    rw [onOk_ok]
    rcases r with err | (_ | lease)
    · exact wp_pure.2 (hrespond _ _)
    · exact wp_pure.2 (hrespond _ _)
    · dsimp only
      rw [wp_bind]
      refine wp_store.2 ⟨⟨_, lease, _, hkey, rfl, mem_cons_self⟩, fun _ => ?_⟩
      exact wp_pure.2 (hrespond _ _)

theorem handleOplockBreak_calls (hcmd : cmd.header.command = .oplockBreak) :
    wp (AckCall cmd) (handleOplockBreak cmd.header cmd.body) (fun _ _ _ => True)
      cmd.handler [] := by
  unfold handleOplockBreak
  rw [wp_bind, wp_require]
  refine ⟨fun _ => ?_, fun _ => trivial⟩
  split
  · next hsize => exact handleOplockBreakAck_calls (if_pos ⟨hcmd, hsize⟩) rfl
  split
  · next hsize => exact handleLeaseBreakAck_calls (if_pos ⟨hcmd, hsize⟩) rfl
  · exact wp_fail.2 trivial

theorem handlersMake_ackCall [Externs] :
    HandlersMake fun cmd _ e o => cmd.header.command = .oplockBreak → AckCall cmd e o := by
  intro cmd g _
  by_cases hcmd : cmd.header.command = .oplockBreak
  · unfold handleCommand
    rw [hcmd]
    refine wp_map.2 (wp_mono (wp_weaken (handleOplockBreak_calls hcmd) fun _ _ ho _ => ho) ?_)
    rintro (_ | _) _ _ _ <;> trivial
  · exact wp_of_forall (fun _ _ _ h => absurd h hcmd) fun _ _ _ _ => trivial

end Handlers

/-! ### Pending breaks -/

namespace LeaseBreakRegistry

variable {r r' r'' : LeaseBreakRegistry}

/-- Every pending break has a channel. -/
structure Filed (r : LeaseBreakRegistry) : Prop where
  breaks : ∀ b p, r.pendingBreaks.lookup b = some p → (r.completions.lookup b).isSome = true
  oplockBreaks : ∀ b p, r.pendingOplockBreaks.lookup b = some p →
    (r.completions.lookup b).isSome = true

/-- A break that starts has no result yet. -/
def StartsFresh (r : LeaseBreakRegistry) : RegistryOp → Prop
  | .insertPendingBreak b _ | .insertPendingOplockBreak b _ => r.completions.lookup b = none
  | _ => True

instance (r : LeaseBreakRegistry) (o : RegistryOp) : Decidable (r.StartsFresh o) := by
  cases o <;> unfold StartsFresh <;> infer_instance

/-- What became of a registry: under the identifiers that were used, breaks only go away. -/
structure Follows (r r' : LeaseBreakRegistry) : Prop where
  used : ∀ b, (r.completions.lookup b).isSome = true → (r'.completions.lookup b).isSome = true
  breaks : ∀ b p, (r.completions.lookup b).isSome = true → r'.pendingBreaks.lookup b = some p →
    r.pendingBreaks.lookup b = some p
  oplockBreaks : ∀ b p, (r.completions.lookup b).isSome = true →
    r'.pendingOplockBreaks.lookup b = some p → r.pendingOplockBreaks.lookup b = some p

theorem Follows.refl (r : LeaseBreakRegistry) : r.Follows r :=
  ⟨fun _ h => h, fun _ _ _ h => h, fun _ _ _ h => h⟩

theorem Follows.trans (h : r.Follows r') (h' : r'.Follows r'') : r.Follows r'' where
  used b hb := h'.used b (h.used b hb)
  breaks b p hb hp := h.breaks b p hb (h'.breaks b p (h.used b hb) hp)
  oplockBreaks b p hb hp := h.oplockBreaks b p hb (h'.oplockBreaks b p (h.used b hb) hp)

theorem filed_new : Filed .new := ⟨nofun, nofun⟩

/-- Does an access concern pending breaks or their channels? -/
def isBreakOp : RegistryOp → Bool
  | .insertPendingBreak _ _ | .insertPendingOplockBreak _ _ | .removePendingBreak _
  | .removePendingOplockBreak _ | .complete _ _ | .dropCompletion _ => true
  | _ => false

variable {o : RegistryOp} {ν : Type} {m : Table UInt64 ν} {v : ν} {b' b : UInt64}

theorem answer_breaks (ho : isBreakOp o = false) (outcome : BreakWait) :
    (answer outcome o r).2.completions = r.completions ∧
      (answer outcome o r).2.pendingBreaks = r.pendingBreaks ∧
      (answer outcome o r).2.pendingOplockBreaks = r.pendingOplockBreaks := by
  cases o with
  | insertPendingBreak _ _ | insertPendingOplockBreak _ _ | removePendingBreak _
  | removePendingOplockBreak _ | complete _ _ | dropCompletion _ => cases ho
  | updateOplockLevel _ _ | sendLeaseBreak _ _ | sendOplockBreak _ _ =>
    simp only [answer]
    split <;> exact ⟨rfl, rfl, rfl⟩
  | trySendOplockBreak _ _ =>
    simp only [answer]
    split
    · split <;> exact ⟨rfl, rfl, rfl⟩
    · exact ⟨rfl, rfl, rfl⟩
  | _ => exact ⟨rfl, rfl, rfl⟩

theorem isSome_completions_answer {outcome : BreakWait}
    (h : (r.completions.lookup b).isSome = true) :
    ((answer outcome o r).2.completions.lookup b).isSome = true := by
  by_cases ho : isBreakOp o = true
  · cases o with
    | insertPendingBreak _ _ | insertPendingOplockBreak _ _ | complete _ _ | dropCompletion _ =>
      exact isSome_lookup_insert h
    | removePendingBreak _ | removePendingOplockBreak _ => exact h
    | _ => cases ho
  · rwa [(answer_breaks (Bool.eq_false_iff.2 ho) outcome).1]

theorem lookup_pending_answer (outcome : BreakWait) (o : RegistryOp) (r : LeaseBreakRegistry)
    (b : UInt64) :
    (∀ p, (answer outcome o r).2.pendingBreaks.lookup b = some p →
      r.pendingBreaks.lookup b = some p ∨ o = .insertPendingBreak b p) ∧
    ∀ p, (answer outcome o r).2.pendingOplockBreaks.lookup b = some p →
      r.pendingOplockBreaks.lookup b = some p ∨ o = .insertPendingOplockBreak b p := by
  by_cases ho : isBreakOp o = true
  · cases o with
    | insertPendingBreak b' p' =>
      refine ⟨fun p hp => ?_, fun _ => .inl⟩
      exact (of_lookup_insert hp).symm.imp_right fun ⟨hb, hp⟩ => by
        rw [hb, hp]
    | insertPendingOplockBreak b' p' =>
      refine ⟨fun _ => .inl, fun p hp => ?_⟩
      exact (of_lookup_insert hp).symm.imp_right fun ⟨hb, hp⟩ => by rw [hb, hp]
    | removePendingBreak _ => exact ⟨fun _ hp => .inl (of_lookup_erase hp), fun _ => .inl⟩
    | removePendingOplockBreak _ => exact ⟨fun _ => .inl, fun _ hp => .inl (of_lookup_erase hp)⟩
    | complete _ _ | dropCompletion _ => exact ⟨fun _ => .inl, fun _ => .inl⟩
    | _ => cases ho
  · obtain ⟨-, hbreaks, hoplocks⟩ := answer_breaks (Bool.eq_false_iff.2 ho) outcome
    rw [hbreaks, hoplocks]
    exact ⟨fun _ => .inl, fun _ => .inl⟩

theorem Filed.answer (h : Filed r) (outcome : BreakWait) (o : RegistryOp) :
    Filed (answer outcome o r).2 := by
  constructor
  · intro b p hp
    rcases (lookup_pending_answer _ _ _ _).1 p hp with hold | rfl
    · exact isSome_completions_answer (h.breaks b p hold)
    · exact isSome_iff_exists.2 ⟨_, lookup_insert _⟩
  · intro b p hp
    rcases (lookup_pending_answer _ _ _ _).2 p hp with hold | rfl
    · exact isSome_completions_answer (h.oplockBreaks b p hold)
    · exact isSome_iff_exists.2 ⟨_, lookup_insert _⟩

theorem follows_answer (ho : r.StartsFresh o) (outcome : BreakWait) :
    r.Follows (answer outcome o r).2 := by
  have hnew : ∀ b, r.completions.lookup b = none → (r.completions.lookup b).isSome ≠ true :=
    fun b hnone => by simp [hnone]
  refine ⟨fun _ => isSome_completions_answer, fun b p hb hp => ?_, fun b p hb hp => ?_⟩
  · refine ((lookup_pending_answer _ _ _ _).1 p hp).resolve_right ?_
    rintro rfl
    exact hnew b ho hb
  · refine ((lookup_pending_answer _ _ _ _).2 p hp).resolve_right ?_
    rintro rfl
    exact hnew b ho hb

theorem follows_expire (b : UInt64) : r.Follows (r.expire b) := by
  unfold expire
  split
  · exact ⟨fun _ => isSome_lookup_insert, fun _ _ _ => of_lookup_erase, fun _ _ _ hp => hp⟩
  · exact .refl r

theorem Filed.expire (h : Filed r) (b : UInt64) : Filed (r.expire b) := by
  unfold LeaseBreakRegistry.expire
  split
  · exact ⟨fun _ _ hp => isSome_lookup_insert (h.breaks _ _ (of_lookup_erase hp)),
      fun _ _ hp => isSome_lookup_insert (h.oplockBreaks _ _ hp)⟩
  · exact h

theorem lookup_of_findKey {p : ν → Bool} (h : findKey m p = some b) :
    ∃ v, m.lookup b = some v ∧ p v = true := by
  obtain ⟨⟨b', v⟩, hfind, rfl⟩ := map_eq_some_iff.1 h
  exact ⟨v, mem_lookup_iff.2 (mem_of_find?_eq_some hfind),
    find?_some (p := fun e : (_ : UInt64) × ν => p e.2) hfind⟩

theorem not_of_findKey {p : ν → Bool} (h : findKey m p = none) (hv : m.lookup b = some v) :
    p v ≠ true := by
  have hnone := find?_eq_none.1 (map_eq_none_iff.1 h)
  exact hnone _ (mem_lookup_iff.1 hv)

end LeaseBreakRegistry

/-! ### Worlds -/

section Worlds

variable {α β : Type}

/-- Records are filed under their keys, and pending breaks have channels. -/
structure World.Orderly (w : World α β) : Prop where
  keyed : w.store.Keyed
  filed : ∀ sv, (w.registries sv).Filed

/-- Every break is started under an identifier that was not used before. -/
def startsFresh (w : World α β) : SmbOp ⊕ Mark → Prop
  | .inl (.registry sv o) => (w.registries sv).StartsFresh o
  | _ => True

instance (w : World α β) (o : SmbOp ⊕ Mark) : Decidable (startsFresh w o) :=
  match o with
  | .inl (.registry sv o) => inferInstanceAs (Decidable ((w.registries sv).StartsFresh o))
  | .inl (.store _) | .inl (.backend _ _) | .inl (.authenticate _ _ _) | .inl .now
  | .inl .filetime | .inl .random | .inr _ => inferInstanceAs (Decidable True)

def World.Follows (w w' : World α β) : Prop := ∀ sv, (w.registries sv).Follows (w'.registries sv)

variable {w w' : World α β}

theorem World.Follows.trans {w'' : World α β} (h : w.Follows w') (h' : w'.Follows w'') :
    w.Follows w'' := fun sv => (h sv).trans (h' sv)

theorem World.Orderly.envStep (h : w.Orderly) (henv : EnvStep w w') : w'.Orderly := by
  refine ⟨henv.store (fun _ so _ now _ hk => hk.answer now so) h.keyed, fun sv => ?_⟩
  have hfiled := h.filed sv
  exact henv.registryOf hfiled (fun _ => ⟨hfiled.breaks, hfiled.oplockBreaks⟩)
    (fun _ => ⟨hfiled.breaks, hfiled.oplockBreaks⟩) hfiled.expire

theorem follows_envStep (henv : EnvStep w w') : w.Follows w' := fun _ =>
  henv.registryOf (.refl _) (fun _ => ⟨fun _ h => h, fun _ _ _ h => h, fun _ _ _ h => h⟩)
    (fun _ => ⟨fun _ h => h, fun _ _ _ h => h, fun _ _ _ h => h⟩)
    follows_expire

variable [AuthProvider α] [StorageBackend β]

theorem World.Orderly.answer (h : w.Orderly) (o : SmbOp) : (World.answer o w).2.Orderly := by
  refine ⟨?_, fun sv => registryOf_answer (fun ro _ => (h.filed sv).answer _ ro)
    fun _ => h.filed sv⟩
  cases o with
  | store o => exact h.keyed.answer _ o
  | _ => exact h.keyed

theorem follows_answerMarks {o : SmbT.Op} (ho : startsFresh w o) :
    w.Follows (Prog.answerMarks World.answer o w).2 := by
  intro sv
  rcases o with o | m
  · refine registryOf_answer (fun ro heq => ?_) fun _ => .refl _
    subst heq
    exact follows_answer ho _
  · exact .refl _

end Worlds

/-! ### Ownership -/

section Ownership

variable {α β : Type}

/-- The session of a command is bound to its connection, and the store has the handle under
it. -/
def OwnsHandle (cmd : Command) (w : World α β) (id : HandleId) : Prop :=
  cmd.handler.connection.hasSession cmd.header.sessionId = true ∧
    ∃ handle, w.store.handles.lookup id = some handle ∧ handle.sessionId = cmd.header.sessionId

/-- The session of a command is bound to its connection, and the store has the lease under it. -/
def OwnsLease (cmd : Command) (w : World α β) (key : String) : Prop :=
  cmd.handler.connection.hasSession cmd.header.sessionId = true ∧
    ∃ lease, w.store.leases.lookup key = some lease ∧ lease.sessionId = cmd.header.sessionId

/-- Nothing is known of a handle on the server of a command. -/
structure NoHandle (cmd : Command) (w : World α β) (id : HandleId) : Prop where
  store : w.store.handles.lookup id = none
  level : (w.registries cmd.handler.serverId).oplockConnections.lookup id = none
  pending : findKey (w.registries cmd.handler.serverId).pendingOplockBreaks
    (fun p => p.handleId == id) = none

/-- Nothing is known of a lease on the server of a command. -/
structure NoLease (cmd : Command) (w : World α β) (key : String) : Prop where
  store : w.store.leases.lookup key = none
  pending : findKey (w.registries cmd.handler.serverId).pendingBreaks
    (fun p => p.leaseKey == key) = none

/-- What an acknowledgment names belongs to its session, or there is no such thing. -/
structure NamesOwn (cmd : Command) (w : World α β) : Prop where
  handle : ∀ id, ackedHandle cmd = some id → OwnsHandle cmd w id ∨ NoHandle cmd w id
  lease : ∀ key, ackedLease cmd = some key → OwnsLease cmd w key ∨ NoLease cmd w key

/-- A change of a handle's level, a lease's state or a pending break concerns what belongs to the
session of a command, as does a record that comes back. -/
structure ChangesOwn (cmd : Command) (w w' : World α β) : Prop where
  handle : ∀ id, (w'.store.handles.lookup id).map HandleState.oplockLevel ≠
      (w.store.handles.lookup id).map HandleState.oplockLevel →
    OwnsHandle cmd w id ∨ w.store.handles.lookup id = none ∧ OwnsHandle cmd w' id
  level : ∀ sv id, ((w'.registries sv).oplockConnections.lookup id).map
      OplockConnectionEntry.oplockLevel ≠
      ((w.registries sv).oplockConnections.lookup id).map OplockConnectionEntry.oplockLevel →
    OwnsHandle cmd w id
  oplockBreak : ∀ sv b p, (w.registries sv).pendingOplockBreaks.lookup b = some p →
    (w'.registries sv).pendingOplockBreaks.lookup b ≠ some p → OwnsHandle cmd w p.handleId
  lease : ∀ key, (w'.store.leases.lookup key).map LeaseEntry.leaseState ≠
      (w.store.leases.lookup key).map LeaseEntry.leaseState →
    OwnsLease cmd w key ∨ w.store.leases.lookup key = none ∧ OwnsLease cmd w' key
  leaseBreak : ∀ sv b p, (w.registries sv).pendingBreaks.lookup b = some p →
    (w'.registries sv).pendingBreaks.lookup b ≠ some p → OwnsLease cmd w p.leaseKey

variable {cmd : Command} {w w' : World α β}

theorem ChangesOwn.of_eq (hh : w'.store.handles = w.store.handles)
    (hl : w'.store.leases = w.store.leases)
    (hc : ∀ sv, (w'.registries sv).oplockConnections = (w.registries sv).oplockConnections)
    (ho : ∀ sv, (w'.registries sv).pendingOplockBreaks = (w.registries sv).pendingOplockBreaks)
    (hb : ∀ sv, (w'.registries sv).pendingBreaks = (w.registries sv).pendingBreaks) :
    ChangesOwn cmd w w' where
  handle _ h := absurd (by rw [hh]) h
  level sv _ h := absurd (by rw [hc sv]) h
  oplockBreak sv _ _ hp h := absurd (by rw [ho sv, hp]) h
  lease _ h := absurd (by rw [hl]) h
  leaseBreak sv _ _ hp h := absurd (by rw [hb sv, hp]) h

theorem ChangesOwn.refl (cmd : Command) (w : World α β) : ChangesOwn cmd w w :=
  .of_eq rfl rfl (fun _ => rfl) (fun _ => rfl) fun _ => rfl

theorem NamesOwn.ownsHandle (h : NamesOwn cmd w) {id : HandleId} (hid : ackedHandle cmd = some id)
    (hthere : ¬ NoHandle cmd w id) : OwnsHandle cmd w id :=
  (h.handle id hid).resolve_right hthere

variable {key sv : String} {b : UInt64}

theorem NamesOwn.ownsLease (h : NamesOwn cmd w) (hkey : ackedLease cmd = some key)
    (hthere : ¬ NoLease cmd w key) : OwnsLease cmd w key :=
  (h.lease key hkey).resolve_right hthere

variable [AuthProvider α] [StorageBackend β] {id : HandleId}

theorem changesOwn_updateHandle (hid : ackedHandle cmd = some id) (hnow : NamesOwn cmd w)
    {handle : HandleState} (hkey : handle.persistentId = id)
    (hbound : cmd.handler.connection.hasSession cmd.header.sessionId = true)
    (howner : handle.sessionId = cmd.header.sessionId) :
    ChangesOwn cmd w (World.answer (.store (.updateHandle handle)) w).2 := by
  refine { ChangesOwn.refl cmd w with handle := fun id' hne => ?_ }
  obtain rfl : id' = handle.persistentId := eq_of_map_lookup_insert_ne hne
  cases hw : w.store.handles.lookup handle.persistentId with
  | none => exact .inr ⟨rfl, hbound, handle, lookup_insert w.store.handles, howner⟩
  | some _ =>
    exact .inl (hnow.ownsHandle (hkey ▸ hid) fun hno => some_ne_none _ (hw.symm.trans hno.store))

theorem changesOwn_updateLease (hkey : ackedLease cmd = some key) (hnow : NamesOwn cmd w)
    {lease : LeaseEntry} (hlease : lease.leaseKey = key)
    (hbound : cmd.handler.connection.hasSession cmd.header.sessionId = true)
    (howner : lease.sessionId = cmd.header.sessionId) :
    ChangesOwn cmd w (World.answer (.store (.updateLease lease)) w).2 := by
  refine { ChangesOwn.refl cmd w with lease := fun key' hne => ?_ }
  obtain rfl : key' = lease.leaseKey := eq_of_map_lookup_insert_ne hne
  cases hw : w.store.leases.lookup lease.leaseKey with
  | none => exact .inr ⟨rfl, hbound, lease, lookup_insert w.store.leases, howner⟩
  | some _ =>
    exact .inl (hnow.ownsLease (hlease ▸ hkey) fun hno => some_ne_none _ (hw.symm.trans hno.store))

theorem ChangesOwn.of_registry {o : RegistryOp} {r' : LeaseBreakRegistry}
    (hr' : (answer w.nextOutcome o (w.registries sv)).2 = r')
    (level : ∀ id, (r'.oplockConnections.lookup id).map OplockConnectionEntry.oplockLevel ≠
      ((w.registries sv).oplockConnections.lookup id).map OplockConnectionEntry.oplockLevel →
      OwnsHandle cmd w id)
    (oplockBreak : ∀ b p, (w.registries sv).pendingOplockBreaks.lookup b = some p →
      r'.pendingOplockBreaks.lookup b ≠ some p → OwnsHandle cmd w p.handleId)
    (leaseBreak : ∀ b p, (w.registries sv).pendingBreaks.lookup b = some p →
      r'.pendingBreaks.lookup b ≠ some p → OwnsLease cmd w p.leaseKey) :
    ChangesOwn cmd w (World.answer (.registry sv o) w).2 := by
  subst hr'
  have hsame : ∀ sv', sv' ≠ sv →
      (World.answer (.registry sv o) w).2.registries sv' = w.registries sv' := fun sv' hne =>
    Function.update_of_ne hne _ _
  have hself : (World.answer (.registry sv o) w).2.registries sv =
      (answer w.nextOutcome o (w.registries sv)).2 := Function.update_self ..
  refine ⟨fun _ h => absurd rfl h, fun sv' id h => ?_, fun sv' b p hp h => ?_,
    fun _ h => absurd rfl h, fun sv' b p hp h => ?_⟩ <;> by_cases hsv : sv' = sv
  · subst hsv
    rw [hself] at h
    exact level id h
  · exact absurd (by rw [hsame sv' hsv]) h
  · subst hsv
    rw [hself] at h
    exact oplockBreak b p hp h
  · exact absurd (by rw [hsame sv' hsv, hp]) h
  · subst hsv
    rw [hself] at h
    exact leaseBreak b p hp h
  · exact absurd (by rw [hsame sv' hsv, hp]) h

theorem changesOwn_updateOplockLevel (hid : ackedHandle cmd = some id) (hnow : NamesOwn cmd w)
    (level : UInt8) :
    ChangesOwn cmd w
      (World.answer (.registry cmd.handler.serverId (.updateOplockLevel id level)) w).2 := by
  let r := w.registries cmd.handler.serverId
  cases hentry : r.oplockConnections.lookup id with
  | none =>
    have hr' : (answer w.nextOutcome (.updateOplockLevel id level) r).2 = r := by
      simp only [answer, hentry]
    exact .of_registry hr' (fun _ h => absurd rfl h) (fun _ _ hp h => absurd hp h)
      fun _ _ hp h => absurd hp h
  | some entry =>
    have howns : OwnsHandle cmd w id := hnow.ownsHandle hid fun hno =>
      some_ne_none _ (hentry.symm.trans hno.level)
    have hr' : (answer w.nextOutcome (.updateOplockLevel id level) r).2 =
        { r with
          oplockConnections :=
            r.oplockConnections.insert id { entry with oplockLevel := level } } := by
      simp only [answer, hentry]
    refine .of_registry hr' (fun id' h => ?_) (fun _ _ hp h => absurd hp h)
      fun _ _ hp h => absurd hp h
    obtain rfl : id' = id := eq_of_map_lookup_insert_ne h
    exact howns

theorem changesOwn_removePendingOplockBreak (hid : ackedHandle cmd = some id)
    (hnow : NamesOwn cmd w)
    (hfound : ∀ p, (w.registries cmd.handler.serverId).pendingOplockBreaks.lookup b = some p →
      p.handleId = id) :
    ChangesOwn cmd w
      (World.answer (.registry cmd.handler.serverId (.removePendingOplockBreak b)) w).2 := by
  refine .of_registry rfl (fun _ h => absurd rfl h) (fun b' p hp h => ?_)
    fun _ _ hp h => absurd hp h
  obtain rfl : b' = b := eq_of_lookup_erase_ne hp h
  obtain rfl := hfound p hp
  exact hnow.ownsHandle hid fun hno => not_of_findKey hno.pending hp (beq_self_eq_true _)

theorem changesOwn_removePendingBreak (hkey : ackedLease cmd = some key) (hnow : NamesOwn cmd w)
    (hfound : ∀ p, (w.registries cmd.handler.serverId).pendingBreaks.lookup b = some p →
      p.leaseKey = key) :
    ChangesOwn cmd w
      (World.answer (.registry cmd.handler.serverId (.removePendingBreak b)) w).2 := by
  refine .of_registry rfl (fun _ h => absurd rfl h) (fun _ _ hp h => absurd hp h)
    fun b' p hp h => ?_
  obtain rfl : b' = b := eq_of_lookup_erase_ne hp h
  obtain rfl := hfound p hp
  exact hnow.ownsLease hkey fun hno => not_of_findKey hno.pending hp (beq_self_eq_true _)

/-- An event came from an earlier world in which the acknowledgment named its own. -/
def Learnt (cmd : Command) (w : World α β) (ev : Event Smb) : Prop :=
  ∃ w₁ : World α β, (World.answer ev.1 w₁).1 = ev.2 ∧ NamesOwn cmd w₁ ∧ w₁.Orderly ∧ w₁.Follows w

theorem Learnt.handle {found : HandleState}
    (h : Learnt cmd w ⟨store (.getHandle id), .ok (some found)⟩)
    (hid : ackedHandle cmd = some id) : found.persistentId = id ∧
      cmd.handler.connection.hasSession cmd.header.sessionId = true ∧
      found.sessionId = cmd.header.sessionId := by
  obtain ⟨w₁, hans, hown, hord, -⟩ := h
  have hlook : w₁.store.handles.lookup id = some found := Except.ok.inj hans
  obtain ⟨hbound, handle, hhdl, howner⟩ := hown.ownsHandle hid fun hno =>
    some_ne_none _ (hlook.symm.trans hno.store)
  obtain rfl : found = handle := some.inj (hlook.symm.trans hhdl)
  exact ⟨hord.keyed.handles id found hlook, hbound, howner⟩

theorem Learnt.lease {found : LeaseEntry}
    (h : Learnt cmd w ⟨store (.getLease key), .ok (some found)⟩)
    (hkey : ackedLease cmd = some key) : found.leaseKey = key ∧
      cmd.handler.connection.hasSession cmd.header.sessionId = true ∧
      found.sessionId = cmd.header.sessionId := by
  obtain ⟨w₁, hans, hown, hord, -⟩ := h
  have hlook : w₁.store.leases.lookup key = some found := Except.ok.inj hans
  obtain ⟨hbound, lease, hlease, howner⟩ := hown.ownsLease hkey fun hno =>
    some_ne_none _ (hlook.symm.trans hno.store)
  obtain rfl : found = lease := some.inj (hlook.symm.trans hlease)
  exact ⟨hord.keyed.leases key found hlook, hbound, howner⟩

theorem Learnt.oplockBreak (h : Learnt cmd w ⟨registry sv (.findPendingOplockBreak id), some b⟩)
    {p : PendingOplockBreak} (hp : (w.registries sv).pendingOplockBreaks.lookup b = some p) :
    p.handleId = id := by
  obtain ⟨w₁, hans, -, hord, hfol⟩ := h
  obtain ⟨p₁, hp₁, hid⟩ := lookup_of_findKey
    (m := (w₁.registries sv).pendingOplockBreaks) (p := fun p => p.handleId == id) hans
  have hused := (hord.filed sv).oplockBreaks b p₁ hp₁
  rw [(hfol sv).oplockBreaks b p hused hp] at hp₁
  cases hp₁
  exact beq_iff_eq.1 hid

theorem Learnt.leaseBreak (h : Learnt cmd w ⟨registry sv (.findPendingBreak key), some b⟩)
    {p : PendingBreak} (hp : (w.registries sv).pendingBreaks.lookup b = some p) :
    p.leaseKey = key := by
  obtain ⟨w₁, hans, -, hord, hfol⟩ := h
  obtain ⟨p₁, hp₁, hkey⟩ := lookup_of_findKey
    (m := (w₁.registries sv).pendingBreaks) (p := fun p => p.leaseKey == key) hans
  have hused := (hord.filed sv).breaks b p₁ hp₁
  rw [(hfol sv).breaks b p hused hp] at hp₁
  cases hp₁
  exact beq_iff_eq.1 hkey

theorem AckCall.changesOwn {e : List (Event Smb)} {o : SmbOp} (hcall : AckCall cmd e o)
    (hlearnt : ∀ ev ∈ e, Learnt cmd w ev) (hnow : NamesOwn cmd w) :
    ChangesOwn cmd w (World.answer o w).2 := by
  cases o with
  | store o =>
    cases o with
    | updateHandle handle =>
      obtain ⟨id, found, level, hid, rfl, hev⟩ := hcall
      obtain ⟨hkey, hbound, howner⟩ := (hlearnt _ hev).handle hid
      exact changesOwn_updateHandle hid hnow hkey hbound howner
    | updateLease lease =>
      obtain ⟨key, found, state, hkey, rfl, hev⟩ := hcall
      obtain ⟨hlease, hbound, howner⟩ := (hlearnt _ hev).lease hkey
      exact changesOwn_updateLease hkey hnow hlease hbound howner
    | getHandle _ | getLease _ => exact .of_eq rfl rfl (fun _ => rfl) (fun _ => rfl) fun _ => rfl
    | _ => exact hcall.elim
  | registry sv o =>
    cases o with
    | removePendingOplockBreak b =>
      obtain ⟨rfl, id, hid, hev⟩ := hcall
      exact changesOwn_removePendingOplockBreak hid hnow fun _ => (hlearnt _ hev).oplockBreak
    | removePendingBreak b =>
      obtain ⟨rfl, key, hkey, hev⟩ := hcall
      exact changesOwn_removePendingBreak hkey hnow fun _ => (hlearnt _ hev).leaseBreak
    | updateOplockLevel id level =>
      obtain ⟨rfl, hid⟩ := hcall
      exact changesOwn_updateOplockLevel hid hnow level
    | findPendingOplockBreak _ | findPendingBreak _ | complete _ _ | dropCompletion _ =>
      exact .of_registry rfl (fun _ h => absurd rfl h) (fun _ _ hp h => absurd hp h)
        fun _ _ hp h => absurd hp h
    | _ => exact hcall.elim
  | _ => exact hcall.elim

end Ownership

/-! ### Runs -/

section Runs

variable [Externs] {α β : Type} [AuthProvider α] [StorageBackend β]
  {ok : World α β → SmbOp ⊕ Mark → Prop} {i : ℕ} {p q : Prog SmbT Conn}

/-- Worlds are orderly in every run, now and at every call that a connection remembers. -/
theorem SmbReachable.orderly {c : (smbMachine α β ok).Config} (hc : SmbReachable ok c) :
    c.world.Orderly ∧ ∀ (i : ℕ) (p : Prog SmbT Conn) (h : List (smbMachine α β ok).Stamped)
      (q : Prog SmbT Conn), c.phase i = .busy p h q → ∀ x ∈ stamps h, x.1.Orderly := by
  have hinv := hc.invariant (fun _ hc i => hc.idle i) World.Orderly ?_ ?_ ?_
  · refine ⟨hinv.1, fun i p h q hi x hx => ?_⟩
    obtain ⟨e, he, rfl⟩ := mem_map.1 hx
    exact hinv.2 i p h q hi e he
  · intro c hc
    obtain ⟨providers, backends, oracle, hw⟩ := hc.empty
    rw [hw]
    exact ⟨MemoryStateStore.keyed_new, fun _ => filed_new⟩
  · exact fun w w' henv hw => hw.envStep henv
  · rintro j p' h' (o | m) k r w w' - ⟨hr, -⟩ hw
    · have hw' : (World.answer o w).2 = w' := congrArg Prod.snd hr
      exact hw' ▸ hw.answer o
    · have hw' : w = w' := congrArg Prod.snd hr
      exact hw' ▸ hw

theorem SmbReachable.follows {c : (smbMachine α β startsFresh).Config}
    (hc : SmbReachable startsFresh c) {h : List (smbMachine α β startsFresh).Stamped}
    (hi : c.phase i = .busy p h q) : ∀ x ∈ stamps h, x.1.Follows c.world := by
  obtain ⟨tr, hrun⟩ := hc
  intro x hx
  obtain ⟨e, he, rfl⟩ := mem_map.1 hx
  have hsince := hrun.since World.Follows ?_ ?_ fun w sv => .refl _
  · exact hsince (i, e) (hrun.mem_of_busy (fun _ hc i => hc.idle i) hi he)
  · exact fun w₀ w w' henv h => h.trans (follows_envStep henv)
  · rintro w₀ o r w w' ⟨hr, hok⟩ h
    have hstep := follows_answerMarks hok
    rw [hr] at hstep
    exact h.trans hstep

/-- **An acknowledgment that names only what its session owns changes only that**, in every run:
if what it names belongs to its session, or does not exist, at each of its calls so far and now,
its next call changes a handle's level, a lease's state or a pending break only if the session
owns it. -/
theorem acknowledgment_changes_own {c : (smbMachine α β startsFresh).Config}
    (hc : SmbReachable startsFresh c) {h : List (smbMachine α β startsFresh).Stamped} {o : SmbOp}
    {k : SmbT.Res (.inl o) → Prog SmbT Conn} (hi : c.phase i = .busy p h (.call (.inl o) k))
    {w : World α β} {cmd : Command} {g e : List (World α β × Event Smb)}
    (hp : progress (stamps h) = .handling w cmd g e)
    (hcmd : cmd.header.command = .oplockBreak) (hpast : ∀ x ∈ e, NamesOwn cmd x.1)
    (hnow : NamesOwn cmd c.world) : ChangesOwn cmd c.world (World.answer o c.world).2 := by
  have hrec := recorded_progress (stamps h)
  rw [hp] at hrec
  have horderly := hc.orderly.2 i p h _ hi
  have hlearnt : ∀ ev ∈ e.map Prod.snd, Learnt cmd c.world ev := by
    intro ev hev
    obtain ⟨x, hx, rfl⟩ := mem_map.1 hev
    have hmem := hrec.2 x (mem_append_right g hx)
    exact ⟨x.1, (handling (hc.running hi) hp).answered x (mem_append_right g hx), hpast x hx,
      horderly _ hmem, hc.follows hi _ hmem⟩
  rcases call_cases handlersMake_ackCall (hc.running hi) with
    ⟨w', cmd', g', hp', -⟩ | ⟨w', cmd', g', e', hp', -, hcall⟩ | ⟨hp', -⟩
  · rw [hp] at hp'
    cases hp'
  · rw [hp] at hp'
    cases hp'
    exact (hcall hcmd).changesOwn hlearnt hnow
  · rw [hp] at hp'
    cases hp'

end Runs

section Sample

open Sample

/-- Connection 0 opens a file with a batch oplock; then a connection acknowledges its break, with
a given session in its header. -/
def acknowledges (ok : FilesWorld → SmbOp ⊕ Mark → Prop)
    [∀ w o, Decidable (ok w o)] (i : ℕ) (sessionId : UInt64) : Option (Point ok) :=
  pointOf (start AnonymousAuthProvider.anonymousOnly)
    [(0, Client.sessionSetup 0 []), (0, Client.treeConnect 1 "\\\\a\\s"),
      (0, Client.create 1 1 "f" 0x09 [])] (i, Client.oplockBreakAck sessionId 1 0) 5

def storedUnder (cmd : Command) (id : HandleId) (w : FilesWorld) : Bool :=
  (w.store.handles.lookup id).any fun handle => handle.sessionId == cmd.header.sessionId

theorem namesOwn_of_storedUnder {cmd : Command} {id : HandleId}
    {w : FilesWorld} (hid : ackedHandle cmd = some id)
    (hkey : ackedLease cmd = none)
    (hbound : cmd.handler.connection.hasSession cmd.header.sessionId = true)
    (h : storedUnder cmd id w = true) : NamesOwn cmd w := by
  obtain ⟨handle, hlook, howner⟩ := (any_eq_true _ _).1 h
  refine ⟨fun id' hid' => .inl ⟨hbound, handle, ?_, beq_iff_eq.1 howner⟩, fun key hkey' => ?_⟩
  · rwa [← some.inj (hid.symm.trans hid')]
  · rw [hkey] at hkey'
    cases hkey'

/-- The session that opened the file acknowledges. -/
theorem acknowledgment_changes_own_level :
    ∃ (c : (smbMachine AnonymousAuthProvider Files startsFresh).Config) (p : Prog SmbT Conn)
      (h : List (smbMachine AnonymousAuthProvider Files startsFresh).Stamped) (o : SmbOp)
      (k : SmbT.Res (.inl o) → Prog SmbT Conn) (w : FilesWorld)
      (cmd : Command) (g e : List (FilesWorld × Event Smb)),
      (SmbReachable startsFresh c ∧ c.phase 0 = .busy p h (.call (.inl o) k) ∧
        progress (stamps h) = .handling w cmd g e ∧ cmd.header.command = .oplockBreak ∧
        (∀ x ∈ e, NamesOwn cmd x.1) ∧ NamesOwn cmd c.world ∧
        ((World.answer o c.world).2.store.handles.lookup 1).map HandleState.oplockLevel ≠
          (c.world.store.handles.lookup 1).map HandleState.oplockLevel) ∧
      ChangesOwn cmd c.world (World.answer o c.world).2 := by
  obtain ⟨x, hpoint, hchk⟩ : ∃ x, acknowledges startsFresh 0 1 = some x ∧
      ((progress (stamps x.history)).any fun _ cmd _ e =>
        decide (cmd.header.command = .oplockBreak ∧
          ackedHandle cmd = some 1 ∧ ackedLease cmd = none ∧
          cmd.handler.connection.hasSession cmd.header.sessionId = true ∧
          (∀ x ∈ e, storedUnder cmd 1 x.1 = true) ∧ storedUnder cmd 1 x.world = true ∧
          ((World.answer x.op x.world).2.store.handles.lookup 1).map HandleState.oplockLevel ≠
            (x.world.store.handles.lookup 1).map HandleState.oplockLevel)) = true :=
    exists_of_any (by decide +kernel)
  obtain ⟨c, p, k, hrun, hworld, hi⟩ := exists_point (run_start _) hpoint
  obtain ⟨w, cmd, g, e, hp, hchk⟩ := Progress.exists_of_any hchk
  rw [decide_eq_true_iff, ← hworld] at hchk
  obtain ⟨hcmd, hid, hkey, hbound, hpast, hnow, hchange⟩ := hchk
  have hpast' := fun y hy => namesOwn_of_storedUnder hid hkey hbound (hpast y hy)
  have hnow' := namesOwn_of_storedUnder hid hkey hbound hnow
  exact ⟨c, p, x.history, x.op, k, w, cmd, g, e,
    ⟨hrun.reachable, hi, hp, hcmd, hpast', hnow', hchange⟩,
    acknowledgment_changes_own hrun.reachable hi hp hcmd hpast' hnow'⟩

/-- **Anyone can acknowledge**: connection 1 has no session, and its acknowledgment takes the
oplock of connection 0. -/
theorem stranger_acknowledges :
    ∃ (c : FilesConfig) (p : Prog SmbT Conn)
      (h : List FilesStamped) (o : SmbOp)
      (k : SmbT.Res (.inl o) → Prog SmbT Conn) (w : FilesWorld)
      (cmd : Command) (g e : List (FilesWorld × Event Smb)),
      SmbReachable anyCall c ∧ c.phase 1 = .busy p h (.call (.inl o) k) ∧
        progress (stamps h) = .handling w cmd g e ∧ cmd.header.command = .oplockBreak ∧
        cmd.handler.connection.sessionIds = [] ∧
        (c.world.store.handles.lookup 1).map HandleState.oplockLevel = some 0x09 ∧
        ((World.answer o c.world).2.store.handles.lookup 1).map HandleState.oplockLevel = some 0 ∧
        ¬ ChangesOwn cmd c.world (World.answer o c.world).2 := by
  obtain ⟨x, hpoint, hchk⟩ : ∃ x, acknowledges anyCall 1 0 = some x ∧
      ((progress (stamps x.history)).any fun _ cmd _ _ =>
        decide (cmd.header.command = .oplockBreak ∧
          cmd.handler.connection.sessionIds = [] ∧
          (x.world.store.handles.lookup 1).map HandleState.oplockLevel = some 0x09 ∧
          ((World.answer x.op x.world).2.store.handles.lookup 1).map HandleState.oplockLevel =
            some 0)) = true := exists_of_any (by decide +kernel)
  obtain ⟨c, p, k, hrun, hworld, hi⟩ := exists_point (run_start _) hpoint
  obtain ⟨w, cmd, g, e, hp, hchk⟩ := Progress.exists_of_any hchk
  rw [decide_eq_true_iff, ← hworld] at hchk
  obtain ⟨hcmd, hnone, hprev, hafter⟩ := hchk
  have hnotbound : ∀ sid, cmd.handler.connection.hasSession sid ≠ true := by
    intro sid hbound
    unfold Connection.hasSession at hbound
    rw [hnone] at hbound
    cases hbound
  refine ⟨c, p, x.history, x.op, k, w, cmd, g, e, hrun.reachable, hi, hp, hcmd, hnone, hprev,
    hafter, fun hown => ?_⟩
  rcases hown.handle 1 (by rw [hprev, hafter]; decide) with howns | ⟨-, howns⟩
  · exact hnotbound _ howns.1
  · exact hnotbound _ howns.1

end Sample

end RustSmb
