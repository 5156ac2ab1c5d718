import RustSmb.System.Acknowledgment
import RustSmb.System.Atomic

/-!
# Rejected acknowledgments

The registry takes a pending break out before it looks at what is acknowledged.  When it then
rejects the acknowledgment, the break is lost: its initiator is told that the holder disconnected,
and a valid acknowledgment finds nothing to complete.  The level of the request is recorded in any
case.

## Main results

* `Acknowledgment.handle_run` — the three ways in which an acknowledgment ends.
* `rejected_keepsBreaks_iff` — **breaks stay pending exactly if none was meant.**
* `oplockAck_keepsLevels_iff` — **the exact condition for recorded levels not to rise.**
-/

namespace RustSmb

open List World Proc Handler LeaseBreakRegistry

section Access

variable {α β : Type} [AuthProvider α] [StorageBackend β] {s : ConnectionHandler} {w : World α β}

theorem run_registry_bind {o : RegistryOp} {v : o.Res} {r r' : LeaseBreakRegistry}
    (hr : w.registries s.serverId = r)
    (ho : ∀ outcome, answer outcome o r = (v, r')) :
    ∃ w' : World α β, (∀ (γ : Type) (f : o.Res → Handler γ),
      run World.answer (registry o >>= f) s w = run World.answer (f v) s w') ∧
      w'.store = w.store ∧ w'.registries s.serverId = r' := by
  subst hr
  refine ⟨(w.callRegistry s.serverId o).2, fun γ f => ?_, rfl, ?_⟩
  · rw [run_bind_ok run_registry, callRegistry, ho]
  · exact (Function.update_self ..).trans (by rw [ho])

end Access

inductive Acknowledgment where
  | lease (leaseKey : Bytes) (ackedState : UInt32)
  | oplock (handleId : HandleId) (ackedLevel : UInt8)

namespace Acknowledgment

/-- What the server does with it. -/
def handle : Acknowledgment → Handler (Except LeaseBreakError Unit)
  | lease leaseKey ackedState => handleAcknowledgment leaseKey ackedState
  | oplock handleId ackedLevel => handleOplockAcknowledgment handleId ackedLevel

/-- The pending break that it is for. -/
def breakId (r : LeaseBreakRegistry) : Acknowledgment → Option UInt64
  | lease leaseKey _ => findKey r.pendingBreaks fun p => p.leaseKey == leaseKey.hex
  | oplock handleId _ => findKey r.pendingOplockBreaks fun p => p.handleId == handleId

/-- It keeps no more than the break leaves. -/
def Fits (r : LeaseBreakRegistry) (b : UInt64) : Acknowledgment → Prop
  | lease _ ackedState => ∀ p, r.pendingBreaks.lookup b = some p → ackedState &&& ~~~p.newState = 0
  | oplock _ ackedLevel =>
      ∀ p, r.pendingOplockBreaks.lookup b = some p → ackedLevel = p.newLevel ∨ ackedLevel = 0x00

def result : Acknowledgment → LeaseBreakResult
  | lease _ ackedState => .acknowledged ackedState 0
  | oplock _ ackedLevel => .acknowledged ackedLevel.toUInt32 0

/-- The registry without a pending break, whose channel has been used. -/
def settle (r : LeaseBreakRegistry) (b : UInt64) (c : Completion) :
    Acknowledgment → LeaseBreakRegistry
  | lease _ _ =>
      { r with
        pendingBreaks := r.pendingBreaks.erase b
        completions := r.completions.insert b c }
  | oplock _ _ =>
      { r with
        pendingOplockBreaks := r.pendingOplockBreaks.erase b
        completions := r.completions.insert b c }

variable {α β : Type} [AuthProvider α] [StorageBackend β]

/-- The outcome; one that does not fit settles the break too. -/
inductive Ends (a : Acknowledgment) (r : LeaseBreakRegistry) :
    Except LeaseBreakError Unit → LeaseBreakRegistry → Prop
  | stale : a.breakId r = none → Ends a r (.error .noPendingBreak) r
  | accepted (b : UInt64) : a.breakId r = some b → a.Fits r b →
      Ends a r (.ok ()) (a.settle r b (.sent a.result))
  | rejected (b : UInt64) : a.breakId r = some b → ¬ a.Fits r b →
      Ends a r (.error .invalidStateSubset) (a.settle r b .dropped)

variable {a : Acknowledgment} {s : ConnectionHandler} {w : World α β}

theorem completes_run {bad : Prop} [Decidable bad] {r : LeaseBreakRegistry} {b : UInt64}
    (hfound : a.breakId r = some b) (hbad : bad ↔ ¬ a.Fits r b)
    (hw : ∀ c, { w.registries s.serverId with
      completions := (w.registries s.serverId).completions.insert b c } = a.settle r b c) :
    ∃ out w', run World.answer (if bad then do
          registry (.dropCompletion b)
          pure (.error .invalidStateSubset)
        else do
          registry (.complete b a.result)
          pure (.ok ())) s w = (.ok out, s, w') ∧ w'.store = w.store ∧
      a.Ends r out (w'.registries s.serverId) := by
  by_cases h : bad
  · obtain ⟨w', hw', hs', hr'⟩ :=
      run_registry_bind (w := w) (s := s) (o := .dropCompletion b) rfl fun _ => rfl
    rw [if_pos h, hw']
    refine ⟨_, w', rfl, hs', ?_⟩
    rw [hr', hw]
    exact .rejected b hfound (hbad.1 h)
  · obtain ⟨w', hw', hs', hr'⟩ :=
      run_registry_bind (w := w) (s := s) (o := .complete b a.result) rfl fun _ => rfl
    rw [if_neg h, hw']
    refine ⟨_, w', rfl, hs', ?_⟩
    rw [hr', hw]
    exact .accepted b hfound (not_not.1 fun hn => h (hbad.2 hn))

theorem handle_run (a : Acknowledgment) (s : ConnectionHandler) (w : World α β) :
    ∃ out w', run World.answer a.handle s w = (.ok out, s, w') ∧ w'.store = w.store ∧
      a.Ends (w.registries s.serverId) out (w'.registries s.serverId) := by
  cases a with
  | lease key state =>
    obtain ⟨w₁, hw₁, hs₁, hr₁⟩ :=
      run_registry_bind (w := w) (o := .findPendingBreak key.hex) rfl fun _ => rfl
    unfold handle handleAcknowledgment
    rw [hw₁]
    cases hfound : findKey (w.registries s.serverId).pendingBreaks
        fun p => p.leaseKey == key.hex with
    | none =>
      refine ⟨_, w₁, rfl, hs₁, ?_⟩
      rw [hr₁]
      exact .stale hfound
    | some b =>
      -- the pending break is removed before the state is compared
      obtain ⟨p, hp, -⟩ := lookup_of_findKey hfound
      obtain ⟨w₂, hw₂, hs₂, hr₂⟩ := run_registry_bind (o := .removePendingBreak b) hr₁ fun _ => rfl
      dsimp only
      rw [hw₂, hp, ← hs₁, ← hs₂]
      exact completes_run (a := lease key state) hfound (by simp [Fits, hp]) fun c => by
        rw [hr₂]
        rfl
  | oplock id level =>
    obtain ⟨w₁, hw₁, hs₁, hr₁⟩ :=
      run_registry_bind (w := w) (o := .findPendingOplockBreak id) rfl fun _ => rfl
    unfold handle handleOplockAcknowledgment
    rw [hw₁]
    cases hfound : findKey (w.registries s.serverId).pendingOplockBreaks
        fun p => p.handleId == id with
    | none =>
      refine ⟨_, w₁, rfl, hs₁, ?_⟩
      rw [hr₁]
      exact .stale hfound
    | some b =>
      obtain ⟨p, hp, -⟩ := lookup_of_findKey hfound
      obtain ⟨w₂, hw₂, hs₂, hr₂⟩ :=
        run_registry_bind (o := .removePendingOplockBreak b) hr₁ fun _ => rfl
      dsimp only
      rw [hw₂, hp, ← hs₁, ← hs₂]
      exact completes_run (a := oplock id level) hfound (by simp [Fits, hp]) fun c => by
        rw [hr₂]
        rfl

end Acknowledgment

/-! ### Pending breaks -/

section Breaks

variable (α β : Type) [AuthProvider α] [StorageBackend β] {a : Acknowledgment}
  {r r' : LeaseBreakRegistry} {b : UInt64}

/-- Every pending break is in place: a valid acknowledgment, whenever it comes, completes it, and
nobody newly finds that a holder disconnected. -/
structure KeepsBreaks (r r' : LeaseBreakRegistry) : Prop where
  breaks : r'.pendingBreaks = r.pendingBreaks
  oplockBreaks : r'.pendingOplockBreaks = r.pendingOplockBreaks
  later : ∀ (a : Acknowledgment) (b : UInt64), a.breakId r = some b → a.Fits r b →
    ∀ (s : ConnectionHandler) (w : World α β), w.registries s.serverId = r' →
      ∃ w', run World.answer a.handle s w = (.ok (.ok ()), s, w') ∧
        (w'.registries s.serverId).completions.lookup b = some (.sent a.result)
  told : ∀ b outcome, r'.wait b outcome = .dropped → r.wait b outcome = .dropped

variable {α β}

theorem KeepsBreaks.refl : KeepsBreaks α β r r := by
  refine ⟨rfl, rfl, fun a b hfound hfits s w hw => ?_, fun _ _ h => h⟩
  subst hw
  obtain ⟨out, w', hrun, -, hends⟩ := a.handle_run s w
  generalize hr : w'.registries s.serverId = r at hends
  cases hends with
  | stale hnone => simp [hfound] at hnone
  | accepted b' hfound' _ =>
    obtain rfl : b = b' := Option.some.inj (hfound.symm.trans hfound')
    refine ⟨w', hrun, ?_⟩
    rw [hr]
    cases a <;> exact AList.lookup_insert _
  | rejected b' hfound' hnot =>
    obtain rfl : b = b' := Option.some.inj (hfound.symm.trans hfound')
    exact absurd hfits hnot

theorem not_keepsBreaks_settle (hfound : a.breakId r = some b) (c : Completion) :
    ¬ KeepsBreaks α β r (a.settle r b c) := by
  intro h
  unfold Acknowledgment.breakId at hfound
  cases a with
  | lease _ _ =>
    obtain ⟨p, hp, -⟩ := lookup_of_findKey hfound
    rw [← h.breaks] at hp
    cases (AList.lookup_erase b _).symm.trans hp
  | oplock _ _ =>
    obtain ⟨p, hp, -⟩ := lookup_of_findKey hfound
    rw [← h.oplockBreaks] at hp
    cases (AList.lookup_erase b _).symm.trans hp

/-- **A rejected acknowledgment leaves the pending breaks in place exactly if it was rejected for
want of a break**, or acknowledges what was asked. -/
theorem rejected_keepsBreaks_iff (a : Acknowledgment) (s : ConnectionHandler) (w : World α β) :
    (∀ error, (run World.answer a.handle s w).1 = .ok (.error error) →
      KeepsBreaks α β (w.registries s.serverId)
        ((run World.answer a.handle s w).2.2.registries s.serverId)) ↔
    ∀ b, a.breakId (w.registries s.serverId) = some b → a.Fits (w.registries s.serverId) b := by
  obtain ⟨out, w', hrun, -, hends⟩ := a.handle_run s w
  rw [hrun]
  generalize w'.registries s.serverId = r' at hends
  generalize w.registries s.serverId = r at hends
  cases hends with
  | stale hnone => exact ⟨fun _ b hb => by simp [hnone] at hb, fun _ _ _ => .refl⟩
  | accepted b hfound hfits =>
    refine ⟨fun _ b' hb' => ?_, fun _ _ h => by cases h⟩
    rwa [← Option.some.inj (hfound.symm.trans hb')]
  | rejected b hfound hnot =>
    exact ⟨fun h => absurd (h _ rfl) (not_keepsBreaks_settle hfound _),
      fun h => absurd (h b hfound) hnot⟩

/-- A lease is to be broken to read caching, and write caching is acknowledged. -/
theorem rejected_loses_break :
    ∃ w : World AnonymousAuthProvider Sample.Files,
      (run World.answer (handleAcknowledgment (Bytes.zeros 16) 0x02) (Sample.handler "a") w).1 =
        .ok (.error .invalidStateSubset) ∧
      ¬ KeepsBreaks AnonymousAuthProvider Sample.Files (w.registries "a") ((run World.answer
        (handleAcknowledgment (Bytes.zeros 16) 0x02) (Sample.handler "a") w).2.2.registries
          "a") := by
  let r := (answer .elapsed
    (.insertPendingBreak 1 ⟨(Bytes.zeros 16).hex, 0x01, "/test/file.txt"⟩) .new).2
  let w : World AnonymousAuthProvider Sample.Files :=
    { Sample.world .anonymousOnly with registries := fun _ => r }
  refine ⟨w, by decide +kernel, fun h => ?_⟩
  exact absurd (congrArg (AList.lookup 1) h.breaks) (by decide +kernel)

end Breaks

/-! ### Levels of oplocks -/

section Levels

variable {α β : Type}

/-- The levels on record for a handle: on the handle itself, and in the registry of a server. -/
def recordedLevels (w : World α β) (sv : String) (id : HandleId) : List UInt8 :=
  (((w.store.handles.lookup id).filter fun h => h.persistentId == id).map
      HandleState.oplockLevel).toList ++
    (((w.registries sv).oplockConnections.lookup id).map OplockConnectionEntry.oplockLevel).toList

/-- A break is pending, and it fits. -/
def Acknowledgment.Accepted (a : Acknowledgment) (r : LeaseBreakRegistry) : Prop :=
  ∃ b, a.breakId r = some b ∧ a.Fits r b

theorem Acknowledgment.Ends.oplockConnections {a : Acknowledgment} {r r' : LeaseBreakRegistry}
    {out : Except LeaseBreakError Unit} (h : a.Ends r out r') :
    r'.oplockConnections = r.oplockConnections := by
  cases h with
  | stale _ => rfl
  | accepted _ _ _ | rejected _ _ _ => cases a <;> rfl

variable [AuthProvider α] [StorageBackend β] (header : Smb2Header) (body : Bytes)
  (s : ConnectionHandler) (w : World α β)

def afterOplockAck : World α β :=
  (run World.answer (handleOplockBreakAck header body) s w).2.2

/-- The request is read and names a handle. -/
def OplockAckTaken : Prop :=
  (24 ≤ body.length && oplockLevels.contains (body.u8 2)) = true ∧
    (w.store.handles.lookup (fileIdAt body 8)).isSome = true

theorem afterOplockAck_of_not_taken (h : ¬ OplockAckTaken body w) :
    afterOplockAck header body s w = w := by
  unfold afterOplockAck handleOplockBreakAck
  dsimp only
  rw [run_require_bind]
  split
  · next hread =>
    have hnone : w.store.handles.lookup (fileIdAt body 8) = none :=
      Option.not_isSome_iff_eq_none.1 fun hsome => h ⟨hread, hsome⟩
    rw [run_bind_ok (run_storeOrInternal rfl)]
    dsimp only [MemoryStateStore.answer]
    rw [hnone]
    rfl
  · rfl

/-- A request that is taken replaces the levels on record, whatever the registry says. -/
theorem recordedLevels_of_taken (h : OplockAckTaken body w) :
    recordedLevels (afterOplockAck header body s w) s.serverId (fileIdAt body 8) =
      (recordedLevels w s.serverId (fileIdAt body 8)).map fun _ => body.u8 2 := by
  obtain ⟨hread, hsome⟩ := h
  obtain ⟨handle, hhdl⟩ := Option.isSome_iff_exists.1 hsome
  have hget : run World.answer (storeOrInternal (.getHandle (fileIdAt body 8))) s w =
      (.ok (some handle), s, w) := by
    rw [← hhdl]
    rfl
  obtain ⟨out, w₁, hrun, hstore₁, hends⟩ :=
    (Acknowledgment.oplock (fileIdAt body 8) (body.u8 2)).handle_run s w
  obtain ⟨w₂, hw₂, hstore₂, hr₂⟩ := run_registry_bind (w := w₁) (s := s)
    (o := .updateOplockLevel (fileIdAt body 8) (body.u8 2)) rfl fun _ => rfl
  unfold Acknowledgment.handle at hrun
  unfold afterOplockAck handleOplockBreakAck
  dsimp only
  rw [run_require_bind, if_pos hread, run_bind_ok hget, getOrFail_some, pure_bind,
    run_bind_ok hrun, hw₂, run_bind_ok run_store]
  let handle' := { handle with oplockLevel := body.u8 2 }
  change recordedLevels { w₂ with
    store := { w₂.store with handles := w₂.store.handles.insert handle.persistentId handle' } }
      s.serverId (fileIdAt body 8) = _
  unfold recordedLevels
  rw [map_append, hstore₂, hstore₁, hr₂, hends.oplockConnections, hhdl]
  congr 1
  · by_cases hid : handle.persistentId = fileIdAt body 8
    · simp [hid, handle', Option.filter_some]
    · simp [hid, AList.lookup_insert_ne (Ne.symm hid), hhdl, Option.filter_some]
  · cases hentry : (w.registries s.serverId).oplockConnections.lookup (fileIdAt body 8) with
    | none => simp [hends.oplockConnections, hentry]
    | some entry => simp

/-- **The levels on record do not rise, and stay if the acknowledgment is not accepted, exactly if
the request is not taken or its level is not above them, and the same unless it is accepted.** -/
theorem oplockAck_keepsLevels_iff :
    (List.Forall₂ (· ≤ ·)
        (recordedLevels (afterOplockAck header body s w) s.serverId (fileIdAt body 8))
        (recordedLevels w s.serverId (fileIdAt body 8)) ∧
      (¬ (Acknowledgment.oplock (fileIdAt body 8) (body.u8 2)).Accepted
          (w.registries s.serverId) →
        recordedLevels (afterOplockAck header body s w) s.serverId (fileIdAt body 8) =
          recordedLevels w s.serverId (fileIdAt body 8))) ↔
    (OplockAckTaken body w → ∀ l ∈ recordedLevels w s.serverId (fileIdAt body 8),
      body.u8 2 ≤ l ∧ ((Acknowledgment.oplock (fileIdAt body 8) (body.u8 2)).Accepted
        (w.registries s.serverId) ∨ body.u8 2 = l)) := by
  by_cases htaken : OplockAckTaken body w
  · rw [recordedLevels_of_taken header body s w htaken, ← forall₂_eq_eq_eq,
      forall₂_map_left_iff, forall₂_same, forall₂_map_left_iff, forall₂_same]
    refine ⟨fun h _ l hl => ⟨h.1 l hl, or_iff_not_imp_left.2 fun hnot => h.2 hnot l hl⟩,
      fun h => ?_⟩
    exact ⟨fun l hl => (h htaken l hl).1, fun hnot l hl => (h htaken l hl).2.resolve_left hnot⟩
  · rw [afterOplockAck_of_not_taken header body s w htaken, forall₂_same]
    exact iff_of_true ⟨fun l _ => UInt8.le_refl l, fun _ => rfl⟩ fun h => absurd h htaken

/-- A client raises the level of its handle from II to batch, and no break is pending. -/
theorem oplockAck_raises_level :
    ∃ (body : Bytes) (w : World AnonymousAuthProvider Sample.Files),
      (w.registries "a").pendingOplockBreaks = ∅ ∧
      recordedLevels w "a" (fileIdAt body 8) = [0x01] ∧
      recordedLevels (afterOplockAck { command := .oplockBreak } body (Sample.handler "a") w) "a"
        (fileIdAt body 8) = [0x09] := by
  let handle : HandleState := { HandleState.default 0 with persistentId := 1, oplockLevel := 0x01 }
  refine ⟨Bytes.ofU16 24 ++ [0x09, 0] ++ Bytes.ofU32 0 ++ Bytes.ofLeNat 16 1,
    { Sample.world .anonymousOnly with
      store := { MemoryStateStore.new with handles := AList.singleton 1 handle } }, rfl, ?_, ?_⟩
  · decide +kernel
  · decide +kernel

end Levels

end RustSmb
