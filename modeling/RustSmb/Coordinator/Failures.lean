import RustSmb.Coordinator.Conduct

/-!
# Failures of servers

When the monitor removes a server, the service tells those who have subscribed to server failures.
A client subscribes to epoch changes only, and nothing sends on the channel from which its failure
listener reads.  So a declared failure is processed by nobody.

## Main results

* `ClusterRun.no_failure` — **no failure listener ever receives anything.**
* `canBeProcessed_iff` — failures can be processed iff there was nobody who had to.
* `Sample.failure_unprocessed` — a lease of a failed server stays.
-/

namespace RustSmb.Coordinator

variable {timeoutSecs : UInt64}

/-- A client has received the failure of a server, deleted its leases and released its file
locks. -/
def Processed (j : ℕ) (id : String) (tr : ClusterTrace timeoutSecs) : Prop :=
  ∃ newer older, eventsOf (.listener j) tr =
    newer ++ ⟨.inl (.releaseFileLocksForServer id), ()⟩ ::
      ⟨.inl (.deleteLeasesForServer id), ()⟩ :: ⟨.inl (.nextFailure j), id⟩ :: older

/-- A client is registered, and not as the server that has failed. -/
def OtherConnected (w : World) (failed : String) (j : ℕ) : Prop :=
  ∃ id, (w.clients j).serverId = some id ∧ id ≠ failed

/-- A run can go on until every declared failure is processed by all other servers that were
connected. -/
def CanBeProcessed (tr : ClusterTrace timeoutSecs) : Prop :=
  ∃ c new, ClusterRun c (new ++ tr) ∧
    ∀ y ∈ tr, ∀ failure, y.2.event.1 = .inl (.sendServerFailure failure) →
      ∀ j, OtherConnected y.2.world failure.failedServerId j →
        Processed j failure.failedServerId (new ++ tr)

/-! ### Nothing reaches the listeners -/

theorem failures_answerMarks {i : Actor} {h : List (Event ClusterT)} {w w' : World}
    {o : CoordOp ⊕ Mark} {r : ClusterT.Res o} (ho : Conducted timeoutSecs i h o)
    (hans : w.answerMarks o = some (r, w')) (hw : ∀ j, (w.clients j).failures = []) (j : ℕ) :
    (w'.clients j).failures = [] := by
  have hset : ∀ k c, c.failures = [] → ((w.setClient k c).clients j).failures = [] :=
    fun k c hc => (World.frame_setClient (hc.trans (hw k).symm) j).trans (hw j)
  cases o with
  | inr m =>
    cases hans
    exact hw j
  | inl o =>
    cases o with
    | sendFailure k id => exact ho.2.elim
    | heartbeat serverId n m =>
      unfold World.answerMarks World.answer at hans
      dsimp only at hans
      split at hans
      · cases hans
        exact hw j
      · cases hans
        exact hw j
    | nextEpochChange k =>
      unfold World.answerMarks World.answer at hans
      dsimp only at hans
      split at hans
      · cases hans
        exact hset k _ (hw k)
      · cases hans
    | nextFailure k =>
      unfold World.answerMarks World.answer at hans
      simp only [hw k] at hans
      cases hans
    | subscribeEpochChanges k | subscribeServerFailures k | storeEpoch k e | sendEpoch k e
    | setServerId k id =>
      cases hans
      exact hset k _ (hw k)
    | _ =>
      cases hans
      exact hw j

section Runs

variable {c : (clusterMachine timeoutSecs).Config} {tr : ClusterTrace timeoutSecs}

/-- **No failure listener ever receives anything.** -/
theorem ClusterRun.no_failure (hrun : ClusterRun c tr) :
    (∀ j, (c.world.clients j).failures = []) ∧
      ∀ y ∈ tr, ∀ j, y.2.event.1 ≠ .inl (.nextFailure j) := by
  apply hrun.invariant fun w tr => (∀ j, (w.clients j).failures = []) ∧
    ∀ y ∈ tr, ∀ j, y.2.event.1 ≠ .inl (.nextFailure j)
  · intro w _ hclients
    refine ⟨fun j => ?_, fun y hy => by cases hy⟩
    rw [hclients j]
  · intro w w' tr hw h
    refine ⟨fun j => ?_, h.2⟩
    cases hw <;> exact h.1 j
  · intro i tr o r w w' ho hans h
    refine ⟨failures_answerMarks ho hans h.1, fun y hy j hj => ?_⟩
    rcases List.mem_cons.1 hy with rfl | hy
    · -- to receive, something has to wait
      obtain rfl : o = .inl (.nextFailure j) := hj
      unfold World.answerMarks World.answer at hans
      simp only [h.1 j] at hans
      cases hans
    · exact h.2 y hy j hj

theorem ClusterRun.not_processed (hrun : ClusterRun c tr) (j : ℕ) (id : String) :
    ¬ Processed j id tr := by
  rintro ⟨newer, older, hevs⟩
  have hmem : (⟨.inl (.nextFailure j), id⟩ : Event ClusterT) ∈ eventsOf (.listener j) tr := by
    rw [hevs]
    simp
  obtain ⟨x, hx, hev⟩ := List.mem_map.1 hmem
  have hne := hrun.no_failure.2 (.listener j, x) (Machine.mem_of_mem_past hx) j
  rw [hev] at hne
  exact hne rfl

/-- **The failures of a run can be processed iff nobody had to**: none was declared while another
server was connected. -/
theorem canBeProcessed_iff (hrun : ClusterRun c tr) :
    CanBeProcessed tr ↔
      ∀ y ∈ tr, ∀ failure, y.2.event.1 = .inl (.sendServerFailure failure) →
        ∀ j, ¬ OtherConnected y.2.world failure.failedServerId j := by
  constructor
  · rintro ⟨c', new, hrun', hprocessed⟩ y hy failure hfailure j hj
    exact hrun'.not_processed j _ (hprocessed y hy failure hfailure j hj)
  · intro h
    refine ⟨c, [], hrun, fun y hy failure hfailure j hj => ?_⟩
    exact absurd hj (h y hy failure hfailure j)

end Runs

/-! ### A lease that stays -/

namespace Sample

def lease : LeaseEntry := .new [1] "guid" 1 "server1" "file" 1 false 0

def leased : MemoryStateStore :=
  (MemoryStateStore.answer 0 (.checkAndCreateLease "file" lease 1) .new).2

/-- Two servers register at time 0.  At time 100 the second sends a heartbeat, and the monitor
removes the first. -/
def oneFails : List (player 15).Move :=
  Machine.Player.work (P := player 15) (Actor.task 0)
      (Activity.registerServer 0 (registration "server1")) 5 ++
    Machine.Player.work (P := player 15) (Actor.task 1)
      (Activity.registerServer 1 (registration "server2")) 5 ++
    [.env (Change.clock 100)] ++
    Machine.Player.work (P := player 15) (Actor.task 1) (Activity.heartbeat 1 "server2") 4 ++
    Machine.Player.work (P := player 15) Actor.monitor Activity.heartbeatMonitor 8

/-- **A failure that nobody processes**: the first of two servers fails while the second is
connected.  Its lease stays in the store, however the run goes on. -/
theorem failure_unprocessed :
    ∃ (c : (clusterMachine 15).Config) (tr : ClusterTrace 15) (y : Actor × _),
      ClusterRun c tr ∧ y ∈ tr ∧
      (∃ e t, y.2.event.1 = .inl (.sendServerFailure ⟨"server1", e, t⟩)) ∧
      OtherConnected y.2.world "server1" 1 ∧
      (c.world.store.leases.values.map LeaseEntry.serverId) = ["server1"] ∧
      ∀ c' new, ClusterRun c' (new ++ tr) → ¬ Processed 1 "server1" (new ++ tr) := by
  obtain ⟨⟨c, tr⟩, hz, hstore, y, hy, hev, hconn⟩ : ∃ z,
      Machine.Player.playAll (start 15 leased, []) oneFails = some z ∧
      z.1.world.store.leases.values.map LeaseEntry.serverId = ["server1"] ∧
      ∃ y ∈ z.2, y.2.event.1 = .inl (.sendServerFailure ⟨"server1", 2, 100⟩) ∧
        (y.2.world.clients 1).serverId = some "server2" := exists_of_any (by decide +kernel)
  have hrun : ClusterRun c tr := (run_start 15 leased).playAll hz
  refine ⟨c, tr, y, hrun, hy, ⟨2, 100, hev⟩, ⟨"server2", hconn, by decide⟩, hstore, ?_⟩
  intro c' new hrun'
  exact hrun'.not_processed 1 "server1"

/-- The failure of one server, with another connected. -/
theorem oneFails_not_canBeProcessed :
    ∃ (c : (clusterMachine 15).Config) (tr : ClusterTrace 15),
      ClusterRun c tr ∧ ¬ CanBeProcessed tr := by
  obtain ⟨⟨c, tr⟩, hz, y, hy, hev, hconn⟩ : ∃ z,
      Machine.Player.playAll (start 15 leased, []) oneFails = some z ∧
      ∃ y ∈ z.2, y.2.event.1 = .inl (.sendServerFailure ⟨"server1", 2, 100⟩) ∧
        (y.2.world.clients 1).serverId = some "server2" := exists_of_any (by decide +kernel)
  have hrun : ClusterRun c tr := (run_start 15 leased).playAll hz
  refine ⟨c, tr, hrun, fun hcan => ?_⟩
  have hoth : OtherConnected y.2.world "server1" 1 := ⟨"server2", hconn, by decide⟩
  exact (canBeProcessed_iff hrun).1 hcan y hy _ hev 1 hoth

end Sample

end RustSmb.Coordinator
