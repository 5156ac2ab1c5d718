import RustSmb.System.Locks
import RustSmb.System.NewSession

/-!
# Expired sessions

A session is stored with the time at which it expires.  Binding a session to another connection
compares this time with the clock; the dispatcher does not, so a command is executed on any
session that is still stored.

## Main results

* `executed_in_time` — **if requests come and are executed in time, no session has expired.**
* `Sample.executed_expired` — a TREE_CONNECT on a session that has expired.
-/

namespace RustSmb

/-- The command is refused once its session has expired. -/
def needsTime : Smb2Command → Bool
  | .negotiate | .sessionSetup | .echo | .cancel | .logoff => false
  | _ => true

/-- Does a call store a session under an identifier or change when it expires? -/
def renews (sessionId : UInt64) : SmbOp ⊕ Mark → Bool
  | .inl (.store (.createSession session)) => session.sessionId == sessionId
  | .inl (.store (.refreshSession id _)) => id == sessionId
  | _ => false

section Runs

variable [Externs] {α β : Type} [AuthProvider α] [StorageBackend β]
  {ok : World α β → SmbOp ⊕ Mark → Prop} {c : (smbMachine α β ok).Config} {tr : Trace ok}

def expired (w : World α β) (sessionId : UInt64) : Bool :=
  (w.store.sessions.lookup sessionId).any fun session => session.expiresAt < w.oracle.now

def executedInTime (tr : Trace ok) (i : ℕ) (x : (smbMachine α β ok).Stamped) :
    Bool :=
  match x.event.1, progress (stamps (pastOf i tr)) with
  | .inr .executing, .checking _ cmd _ =>
      !(needsTime cmd.header.command && expired x.world cmd.header.sessionId)
  | _, _ => true

/-- A request comes before its session expires, and until it is executed the clock stands and the
session is neither stored again nor renewed. -/
def usedInTime (tr : Trace ok) (i : ℕ) (x : (smbMachine α β ok).Stamped) :
    Bool :=
  match x.event.1, progress (stamps (pastOf i tr)) with
  | .inr (.dispatched cmd), _ =>
      !(needsTime cmd.header.command && expired x.world cmd.header.sessionId)
  | .inr .executing, .checking w cmd _ =>
      x.world.oracle.now == w.oracle.now &&
        decide (Machine.Undisturbed (M := smbMachine α β ok) i (fun y => isDispatch y.event.1)
          (fun y => renews cmd.header.sessionId y.event.1 = true) tr)
  | _, _ => true

omit [Externs] [AuthProvider α] [StorageBackend β] in
theorem lookup_session_answer {so : StoreOp} {now : UInt64} {st : MemoryStateStore} {sid : UInt64}
    {session : SessionState} (ho : renews sid (.inl (.store so)) = false)
    (h : (MemoryStateStore.answer now so st).2.sessions.lookup sid = some session) :
    st.sessions.lookup sid = some session := by
  cases so with
  | createSession new =>
    have hne : sid ≠ new.sessionId := fun heq => by simp [renews, heq] at ho
    exact (AList.lookup_insert_ne hne).symm.trans h
  | deleteSession id => exact Table.of_lookup_erase h
  | refreshSession id ttl =>
    have hne : sid ≠ id := fun heq => by simp [renews, heq] at ho
    have hrefresh : (st.refreshSession id ttl now).sessions.lookup sid = some session := h
    unfold MemoryStateStore.refreshSession at hrefresh
    split at hrefresh
    · exact (AList.lookup_insert_ne hne).symm.trans hrefresh
    · exact hrefresh
  | _ =>
    rwa [MemoryStateStore.answer_sessions (fun heq => by cases heq) fun heq => by cases heq] at h

/-- **If requests come before their sessions expire and are executed at once, none is executed on
an expired session.** -/
theorem executed_in_time (hrun : SmbRun ok c tr)
    (hsteps : EachSmbCall (fun tr i x => usedInTime tr i x = true) tr) :
    EachSmbCall (fun tr i x => executedInTime tr i x = true) tr := by
  refine Machine.eachCall_of_suffix fun i x tr' hsuf => ?_
  have hcond := hsteps.of_suffix hsuf
  obtain ⟨c', p, h, k, hrun', hworld, -⟩ := Machine.Run.exists_before hrun hsuf
  unfold executedInTime
  split
  · next w cmd g hev hp =>
    unfold usedInTime at hcond
    rw [hev, hp] at hcond
    obtain ⟨hclock, hquiet⟩ := Bool.and_eq_true_iff.1 hcond
    -- the moment at which the command was dispatched
    obtain ⟨recent, h', hsplit, hrecent⟩ := split_of_progress_checking hp
    obtain ⟨before, rest, hpast, rfl, hrest⟩ := List.map_eq_append_iff.1 hsplit
    obtain ⟨st, older, rfl, heq, -⟩ := List.map_eq_cons_iff.1 hrest
    obtain ⟨rfl, hst⟩ := Prod.mk.inj heq
    obtain ⟨tr'', hsuf', -⟩ := Machine.exists_of_past hpast
    have hcame := hsteps.of_suffix (hsuf'.trans ((List.suffix_cons _ _).trans hsuf))
    unfold usedInTime at hcame
    rw [hst] at hcame
    have hfresh : (!(needsTime cmd.header.command &&
      expired st.world cmd.header.sessionId)) = true := hcame
    by_contra hlate
    obtain ⟨hneeds, hexpired⟩ := Bool.and_eq_true_iff.1 (by simpa using hlate)
    obtain ⟨session, hstored, hpass⟩ := (Option.any_eq_true _ _).1 hexpired
    -- the session was stored then as it is now
    have hthen : c'.world.store.sessions.lookup cmd.header.sessionId = some session →
        st.world.store.sessions.lookup cmd.header.sessionId = some session := by
      refine hrun'.checked (P := fun w => w.store.sessions.lookup cmd.header.sessionId =
        some session → st.world.store.sessions.lookup cmd.header.sessionId = some session)
        (fun w w' henv hP => ?_) (fun o r w w' hexec hharm hP => ?_) (of_decide_eq_true hquiet)
        hpast (fun y hy => ?_) fun w' hexec => ?_
      · rw [sessions_envStep henv]
        exact hP
      · intro hlook
        have hw : (Prog.answerMarks World.answer o w).2 = w' := congrArg Prod.snd hexec.1
        rw [← hw] at hlook
        refine hP ?_
        rcases o with (so | _ | _ | _) | m
        · exact lookup_session_answer (Bool.eq_false_iff.2 hharm) hlook
        all_goals exact hlook
      · exact hrecent _ (List.mem_map_of_mem hy)
      · have hw : (Prog.answerMarks World.answer st.event.1 st.world).2 = w' :=
          congrArg Prod.snd hexec.1
        rw [hst] at hw
        rw [← hw]
        exact id
    rw [hworld] at hthen
    have hnow : st.world.oracle.now = x.world.oracle.now := (beq_iff_eq.1 hclock).symm
    have hwas : expired st.world cmd.header.sessionId = true := by
      refine (Option.any_eq_true _ _).2 ⟨session, hthen hstored, ?_⟩
      rw [hnow]
      exact hpass
    rw [hneeds, hwas] at hfresh
    cases hfresh
  · rfl

end Runs

/-! ### A session that has expired -/

namespace Sample

/-- A client connects to a share some time after it has made its session. -/
def connectingAt (now : UInt64) : Option FilesSnapshot :=
  takeTurns (start AnonymousAuthProvider.anonymousOnly)
    [.serve 0 (Client.sessionSetup 0 []), .wait now, .serve 0 (Client.treeConnect 1 "\\\\a\\s")]

/-- A client that connects in the last second. -/
theorem executed_in_time_last :
    ∃ (c : FilesConfig) (tr : Trace anyCall), (SmbRun anyCall c tr ∧
      EachSmbCall (fun tr i x => usedInTime tr i x = true) tr ∧ c.world.oracle.now = 3600 ∧
      c.world.store.trees.values ≠ []) ∧
      EachSmbCall (fun tr i x => executedInTime tr i x = true) tr := by
  obtain ⟨st, hst, hsteps, hrest⟩ : ∃ st, connectingAt 3600 = some st ∧
      EachSmbCall (fun tr i x => usedInTime tr i x = true) st.trace ∧
      st.world.oracle.now = 3600 ∧ st.world.store.trees.values ≠ [] :=
    exists_of_any (by decide +kernel)
  have hrun := run_takeTurns (run_start _) hst
  exact ⟨st.config, st.trace, ⟨hrun, hsteps, hrest⟩, executed_in_time hrun hsteps⟩

/-- **A TREE_CONNECT is executed on a session that has expired**, and the tree is made. -/
theorem executed_expired :
    ∃ (c : FilesConfig) (tr : Trace anyCall), SmbRun anyCall c tr ∧
      ¬ EachSmbCall (fun tr i x => executedInTime tr i x = true) tr ∧
      c.world.store.trees.values ≠ [] := by
  obtain ⟨st, hst, hnot⟩ : ∃ st, connectingAt 3601 = some st ∧
      ¬ EachSmbCall (fun tr i x => executedInTime tr i x = true) st.trace ∧
      st.world.store.trees.values ≠ [] := exists_of_any (by decide +kernel)
  exact ⟨st.config, st.trace, run_takeTurns (run_start _) hst, hnot⟩

end Sample

end RustSmb
