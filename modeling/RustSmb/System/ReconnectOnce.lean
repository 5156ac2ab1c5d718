import RustSmb.System.Reconnect

/-!
# How often a handle is reconnected

A reconnect looks a handle up, finds it under no session and, some calls later, stores it under its
own.  Nothing is held in between: two reconnects that have both looked before either has stored both
take the handle.

## Main results

* `reconnected_once` — **a handle is taken at most once for each time that it was disconnected**, if
  a reconnect stores what it has found.
* `Sample.reconnected_twice` — two connections get the same handle back.
-/

namespace RustSmb

open Client Option Proc Handler

/-- **A handler that reconnects stores only the handle that it has found.** -/
theorem handlersMake_storesTaken [Externs] : HandlersMake fun cmd _ e o =>
    ∀ r, reconnectRequest cmd = some r → StoresTaken cmd.header r.1 r.2.1 r.2.2 e o := by
  intro cmd g _
  cases hr : reconnectRequest cmd with
  | none => exact wp_of_forall (fun _ _ _ _ h => by rw [hr] at h; cases h) fun _ _ _ _ => trivial
  | some r =>
    refine wp_mono (wp_weaken (reconnect_wp hr) fun e o ho r' hr' => ?_) fun _ _ _ _ => trivial
    obtain rfl : r = r' := Option.some.inj (hr.symm.trans hr')
    exact ho

section Runs

variable [Externs] {α β : Type} [AuthProvider α] [StorageBackend β]
  {ok : World α β → SmbOp ⊕ Mark → Prop} {c : (smbMachine α β ok).Config} {tr : Trace ok}

def reconnecting {W : Type} : Progress W → Option HandleId
  | .handling _ cmd _ _ => (reconnectRequest cmd).map fun r => BitVec.ofNat 128 r.1.toNat
  | _ => none

/-- Does a connection go away, or does its command end a session? -/
def endsSession {W : Type} : Progress W → Bool
  | .handling _ cmd _ _ => cmd.header.command == .logoff || cmd.header.command == .sessionSetup
  | .leaving => true
  | _ => false

/-- The session whose handles a connection has listed last. -/
def listedSession (past : List (smbMachine α β ok).Stamped) : Option UInt64 :=
  past.findSome? fun x =>
    match x.event.1 with
    | .inl (.store (.getHandlesBySession sessionId)) => some sessionId
    | _ => none

/-- The handle that the step takes over. -/
def takenId (tr : Trace ok) (i : ℕ) (x : (smbMachine α β ok).Stamped) :
    Option HandleId :=
  match x.event.1 with
  | .inl (.store (.updateHandle _)) => reconnecting (progress (stamps (pastOf i tr)))
  | _ => none

/-- A handle loses the session under which it is stored, at the end of that session. -/
def disconnects (id : HandleId) (tr : Trace ok) (i : ℕ)
    (x : (smbMachine α β ok).Stamped) : Bool :=
  match x.event.1 with
  | .inl (.store (.updateHandle handle)) =>
      handle.persistentId == id && handle.sessionId == 0 &&
        endsSession (progress (stamps (pastOf i tr))) &&
        (x.world.store.handles.lookup id).any fun stored =>
          listedSession (pastOf i tr) == some stored.sessionId
  | _ => false

/-- It was taken over and has not been disconnected since. -/
abbrev Taken (id : HandleId) (tr : Trace ok) : Prop :=
  Machine.Since (M := smbMachine α β ok) (fun tr i x => takenId tr i x = some id)
    (fun tr i x => disconnects id tr i x = true) tr

/-- A handle that is taken was not taken since it was disconnected. -/
def TakenOnce (tr : Trace ok) (i : ℕ) (x : (smbMachine α β ok).Stamped) : Prop :=
  ∀ id ∈ takenId tr i x, ¬ Taken id tr

instance (tr : Trace ok) (i : ℕ) (x : (smbMachine α β ok).Stamped) :
    Decidable (TakenOnce tr i x) :=
  Option.decidableForallMem (takenId tr i x)

/-- Handles are opened and reconnected on a session; when a reconnect stores its handle, the
store still has the one it has found; and whoever else stores a handle under no session finds it
so, or ends its session. -/
def takesInTurn (tr : Trace ok) (i : ℕ) (x : (smbMachine α β ok).Stamped) :
    Bool :=
  match x.event.1 with
  | .inl (.store (.createHandle handle)) => handle.sessionId != 0
  | .inl (.store (.updateHandle handle)) =>
      match reconnecting (progress (stamps (pastOf i tr))) with
      | some id =>
          handle.sessionId != 0 && decide (x.world.store.handles.lookup id =
            (progress (stamps (pastOf i tr))).since.findSome? fun y => seenHandle y.2)
      | none =>
          handle.sessionId != 0 || disconnects handle.persistentId tr i x ||
            (x.world.store.handles.lookup handle.persistentId).any fun stored =>
              stored.sessionId == 0
  | _ => true

/-- The handle that a reconnect takes in turn is under no session, and is the one that it asked
for. -/
theorem disconnected_of_takes (hrun : SmbRun ok c tr) {i : ℕ} {p : Prog SmbT Conn}
    {h : List (smbMachine α β ok).Stamped} {taken : HandleState}
    {k : SmbT.Res (.inl (.store (.updateHandle taken))) → Prog SmbT Conn}
    (hi : c.phase i = .busy p h (.call (.inl (.store (.updateHandle taken))) k)) {id : HandleId}
    (htakes : reconnecting (progress (stamps (pastOf i tr))) = some id)
    (hfound : c.world.store.handles.lookup id =
      (progress (stamps (pastOf i tr))).since.findSome? fun y => seenHandle y.2) :
    ∃ handle, c.world.store.handles.lookup id = some handle ∧ handle.sessionId = 0 ∧
      taken.persistentId = id := by
  rcases call_cases handlersMake_storesTaken (SmbReachable.running hrun.reachable hi) with
    ⟨w, cmd, g, hp, -⟩ | ⟨w, cmd, g, e, hp, -, hstores⟩ | ⟨hp, -⟩
  · rw [progress_past hrun hi hp nofun] at htakes
    cases htakes
  · rw [progress_past hrun hi hp nofun] at htakes hfound
    obtain ⟨r, hr, rfl⟩ := map_eq_some_iff.1 htakes
    obtain ⟨handle, now, now', tree, share, stat, he, hreconnectable, rfl⟩ := hstores r hr taken rfl
    have hseen : (e.findSome? fun y => seenHandle y.2) = some handle := by
      have hmap : (e.findSome? fun y => seenHandle y.2) =
          (e.map Prod.snd).findSome? seenHandle := by
        rw [List.findSome?_map]
        rfl
      rw [hmap, he]
      rfl
    rw [Progress.since, List.findSome?_append, hseen, some_or] at hfound
    have hid : handle.persistentId = _ := (keyed hrun.reachable).handles _ _ hfound
    exact ⟨handle, hfound, hreconnectable.disconnected, hid⟩
  · rw [progress_past hrun hi hp nofun] at htakes
    cases htakes

/-- A handle that was taken and not disconnected since is under a session. -/
def HeldOnce (w : World α β) (tr : Trace ok) : Prop :=
  (∀ id handle, Taken id tr → w.store.handles.lookup id = some handle → handle.sessionId ≠ 0) ∧
    EachSmbCall TakenOnce tr

theorem HeldOnce.call (hrun : SmbRun ok c tr) {i : ℕ} {p : Prog SmbT Conn}
    {h : List (smbMachine α β ok).Stamped} {o : SmbOp} {k : SmbT.Res (.inl o) → Prog SmbT Conn}
    (hi : c.phase i = .busy p h (.call (.inl o) k)) (hinv : HeldOnce c.world tr)
    (hturn : takesInTurn tr i ⟨c.world, .inl o, (World.answer o c.world).1⟩ = true) :
    HeldOnce (World.answer o c.world).2
      ((i, ⟨c.world, .inl o, (World.answer o c.world).1⟩) :: tr) := by
  obtain ⟨hheld, honce⟩ := hinv
  have htook : ∀ id, takenId tr i ⟨c.world, .inl o, (World.answer o c.world).1⟩ = some id →
      ∃ taken handle, o = .store (.updateHandle taken) ∧ taken.persistentId = id ∧
        taken.sessionId ≠ 0 ∧ c.world.store.handles.lookup id = some handle ∧
        handle.sessionId = 0 := by
    intro id htakes
    unfold takenId at htakes
    split at htakes
    · next taken hev =>
      obtain rfl : o = .store (.updateHandle taken) := Sum.inl.inj hev
      simp only [takesInTurn, htakes, Bool.and_eq_true, bne_iff_ne, decide_eq_true_iff] at hturn
      obtain ⟨handle, hfound, hzero, htaken⟩ := disconnected_of_takes hrun hi htakes hturn.2
      exact ⟨taken, handle, rfl, htaken, hturn.1, hfound, hzero⟩
    · cases htakes
  refine ⟨fun id handle htaken hlook => ?_, fun id htakes htaken => ?_, honce⟩
  · cases o with
    | store so =>
      rcases MemoryStateStore.lookup_handles_answer hlook with hold | ⟨hnew, rfl⟩
      · rcases htaken with htakes | ⟨htaken, -⟩
        · obtain ⟨taken, -, heq, rfl, hne, -⟩ := htook id htakes
          cases heq
          have hstored := AList.lookup_insert (a := taken.persistentId) (b := taken)
            c.world.store.handles
          cases Option.some.inj (hstored.symm.trans hlook)
          exact hne
        · exact hheld id handle htaken hold
      -- the handle is the one that is stored now
      cases so with
      | createHandle new =>
        cases hnew
        exact bne_iff_ne.1 hturn
      | updateHandle new =>
        cases hnew
        rcases htaken with htakes | ⟨htaken, hends⟩
        · obtain ⟨taken, -, heq, -, hne, -⟩ := htook _ htakes
          cases heq
          exact hne
        · simp only [takesInTurn] at hturn
          split at hturn
          · exact bne_iff_ne.1 (Bool.and_eq_true_iff.1 hturn).1
          · simp only [Bool.or_eq_true] at hturn
            rcases hturn with (hne | hdisconnects) | hstored
            · exact bne_iff_ne.1 hne
            · exact absurd hdisconnects hends
            · obtain ⟨stored, hstored, hzero⟩ := (any_eq_true _ _).1 hstored
              exact absurd (beq_iff_eq.1 hzero) (hheld _ stored htaken hstored)
      | _ => cases hnew
    | _ =>
      rcases htaken with htakes | ⟨htaken, -⟩
      · cases htakes
      · exact hheld id handle htaken hlook
  · obtain ⟨-, handle, -, -, -, hfound, hzero⟩ := htook id htakes
    exact hheld id handle htaken hfound hzero

/-- **If a reconnect stores the handle that it has found, and handles lose their session only
with it, a handle is taken at most once for each time that it was disconnected**; and a
successful reconnect has taken it. -/
theorem reconnected_once (hrun : SmbRun ok c tr)
    (hsteps : EachSmbCall (fun tr i x => takesInTurn tr i x = true) tr) :
    EachSmbCall TakenOnce tr ∧
      ∀ i p h q w cmd g e persistentId createGuid filename response,
        c.phase i = .busy p h q → progress (stamps h) = .handling w cmd g e →
        reconnectRequest cmd = some (persistentId, createGuid, filename) →
        Answered cmd e response → ∃ st tr', (i, st) :: tr' <:+ tr ∧
          takenId tr' i st = some (BitVec.ofNat 128 persistentId.toNat) := by
  constructor
  · refine (SmbRun.traced (I := fun w tr => EachSmbCall (fun tr i x =>
      takesInTurn tr i x = true) tr → HeldOnce w tr) hrun ?_ ?_ ?_ ?_ hsteps).2
    · exact fun _ _ _ _ => ⟨fun _ _ htaken => htaken.elim, trivial⟩
    · intro c tr w _ hw ih hsteps
      refine ⟨hw.store (P := fun st => ∀ id handle, Taken id tr →
        st.handles.lookup id = some handle → handle.sessionId ≠ 0) ?_ (ih hsteps).1, (ih hsteps).2⟩
      rintro _ so (rfl | rfl) now st hheld <;> exact hheld
    · exact fun hrun hi _ ih hsteps => (ih hsteps.2).call hrun hi hsteps.1
    · intro c tr i p h m k _ _ ih hsteps
      obtain ⟨hheld, honce⟩ := ih hsteps.2
      refine ⟨fun id handle htaken => ?_, fun _ htakes => (by cases htakes), honce⟩
      rcases htaken with htakes | ⟨htaken, -⟩
      · cases htakes
      · exact hheld id handle htaken
  · intro i p h q w cmd g e persistentId createGuid filename response hi hp hcmd hansd
    obtain ⟨s, later, taken, reply, e', hevs, -⟩ :=
      hansd.post (SmbReachable.running hrun.reachable hi) hp (reconnect_wp hcmd)
    obtain ⟨st, tr', before, hsuf, hev, hprog, -⟩ := exists_moment hrun hi hp hevs
    refine ⟨st, tr', hsuf, ?_⟩
    simp only [takenId, hev, Prog.liftEvent, hprog, reconnecting, hcmd, map_some]

end Runs

/-! ### A handle that two clients get -/

namespace Sample

/-- A client opens a durable handle on connection 0 and leaves; connections 1 and 2 are ready to
ask for it. -/
def twoReady : Option FilesSnapshot :=
  takeTurns (start everybody)
    [.serve 0 (sessionSetup 0 []), .serve 0 (treeConnect 1 "\\\\a\\s"),
      .serve 0 (createDurable 1 1 "f"), .leave 0, .serve 1 (sessionSetup 0 []),
      .serve 1 (treeConnect 2 "\\\\a\\s"), .serve 2 (sessionSetup 0 []),
      .serve 2 (treeConnect 3 "\\\\a\\s")]

/-- Connections 1 and 2 ask for the handle and take turns. -/
def twoAsking (turns : List ℕ) : Option (FilesConfig × FilesTrace) :=
  twoReady.bind fun st => playAll st.config st.trace
    (.message 1 (reconnect 2 1 "f" 1) :: .message 2 (reconnect 3 1 "f" 1) ::
      turns.map .call)

/-- One after the other, only the first gets the handle. -/
theorem reconnected_once_first :
    ∃ (c : FilesConfig) (tr : Trace anyCall), (SmbRun anyCall c tr ∧
      EachSmbCall (fun tr i x => takesInTurn tr i x = true) tr ∧
      reconnectAnswered (fun _ _ => true) c 1 = true) ∧ EachSmbCall TakenOnce tr := by
  obtain ⟨⟨c, tr⟩, hx, hsteps, hansd⟩ : ∃ x,
      twoAsking (List.replicate 11 1 ++ List.replicate 5 2) = some x ∧
      EachSmbCall (fun tr i x => takesInTurn tr i x = true) x.2 ∧
      reconnectAnswered (fun _ _ => true) x.1 1 = true := exists_of_any (by decide +kernel)
  obtain ⟨st, hst, hplay⟩ := bind_eq_some_iff.1 hx
  have hrun := run_playAll (run_takeTurns (run_start _) hst) hplay
  exact ⟨c, tr, ⟨hrun, hsteps, hansd⟩, (reconnected_once hrun hsteps).1⟩

/-- **Two clients get the same handle back**: both look it up before either stores it. -/
theorem reconnected_twice :
    ∃ (c : FilesConfig) (tr : Trace anyCall), SmbRun anyCall c tr ∧
      ¬ EachSmbCall TakenOnce tr ∧ ∀ i ∈ [1, 2], ∃ p h q w cmd g e response,
        c.phase i = .busy p h q ∧ progress (stamps h) = .handling w cmd g e ∧
        (reconnectRequest cmd).isSome = true ∧ Answered cmd e response := by
  obtain ⟨⟨c, tr⟩, hx, htwice, hansd⟩ : ∃ x, twoAsking (List.replicate 6 1 ++
      List.replicate 6 2 ++ List.replicate 5 1 ++ List.replicate 5 2) = some x ∧
      decide (¬ EachSmbCall TakenOnce x.2) = true ∧
      ([1, 2].all fun i => reconnectAnswered (fun _ _ => true) x.1 i) = true :=
    exists_of_any (by decide +kernel)
  obtain ⟨st, hst, hplay⟩ := bind_eq_some_iff.1 hx
  refine ⟨c, tr, run_playAll (run_takeTurns (run_start _) hst) hplay, of_decide_eq_true htwice,
    fun i hi => ?_⟩
  obtain ⟨p, h, q, w, cmd, g, e, response, hi, hp, hansd, hcmd⟩ :=
    exists_of_answeredBy (List.all_eq_true.1 hansd i hi)
  exact ⟨p, h, q, w, cmd, g, e, response, hi, hp, (Bool.and_eq_true_iff.1 hcmd).1, hansd⟩

end Sample

end RustSmb
