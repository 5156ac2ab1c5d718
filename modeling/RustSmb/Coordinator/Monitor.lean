import RustSmb.Coordinator.Conduct

/-!
# The heartbeat monitor

The monitor looks for stale servers under the lock, releases it, and then removes the
servers on its list one by one without looking again.  A heartbeat or a registration that
comes in between does not save the server.

## Main results

* `monitor_removes_stale` — **an undisturbed monitor removes only stale servers.**
* `Sample.heartbeat_overtaken` — a server is removed right after its heartbeat.
-/

namespace RustSmb.Coordinator

open List

variable {timeoutSecs : UInt64}

/-- The call is about the server. -/
def touches : CoordOp ⊕ Mark → String → Bool
  | .inl (.registerServer registration), id => registration.serverId == id
  | .inl (.heartbeat serverId _ _), id => serverId == id
  | .inl (.unregisterServer serverId), id => serverId == id
  | _, _ => false

def isRemoval : CoordOp ⊕ Mark → Bool
  | .inl (.unregisterServer _) => true
  | _ => false

/-- What the clock showed at the last look of the monitor. -/
def lookTime : List (clusterMachine timeoutSecs).Stamped → UInt64
  | [] => 0
  | x :: h =>
      match x.event.1 with
      | .inl (.getStaleServers _) => x.world.clock
      | _ => lookTime h

/-- Nobody else touches a server that the monitor has found stale and not removed yet, and when
it removes one the clock has not gone back since it looked. -/
def undisturbed (tr : ClusterTrace timeoutSecs) (i : Actor)
    (x : (clusterMachine timeoutSecs).Stamped) : Bool :=
  if i = .monitor then
    !isRemoval x.event.1 || decide (lookTime (pastOf .monitor tr) ≤ x.world.clock)
  else (pendingOf (eventsOf .monitor tr)).all fun id => !touches x.event.1 id

/-- The last heartbeat of a server is older than the timeout. -/
def RemovedStale (timeoutSecs : UInt64) (w : World) (id : String) : Prop :=
  ∃ server, w.state.servers.lookup id = some server ∧
    server.lastHeartbeat.toNat + timeoutSecs.toNat < w.clock.toNat

/-! ### What calls do to a server -/

theorem lookup_answerMarks {w w' : World} {o : CoordOp ⊕ Mark} {r : ClusterT.Res o}
    (hans : w.answerMarks o = some (r, w')) {id : String} (hid : touches o id = false) :
    w'.state.servers.lookup id = w.state.servers.lookup id := by
  cases o with
  | inr m =>
    cases hans
    rfl
  | inl o =>
    cases o with
    | registerServer registration =>
      cases hans
      have hne : id ≠ registration.serverId := fun heq => by simp [touches, heq] at hid
      exact AList.lookup_insert_ne hne
    | heartbeat serverId n m =>
      have hne : id ≠ serverId := fun heq => by simp [touches, heq] at hid
      unfold World.answerMarks World.answer World.applied CoordinationState.apply at hans
      cases hsrv : w.state.servers.lookup serverId with
      | none =>
        simp only [hsrv] at hans
        cases hans
        rfl
      | some server =>
        simp only [hsrv] at hans
        cases hans
        exact AList.lookup_insert_ne hne
    | unregisterServer serverId =>
      cases hans
      have hne : id ≠ serverId := fun heq => by simp [touches, heq] at hid
      exact AList.lookup_erase_ne hne
    | nextEpochChange _ | nextFailure _ =>
      unfold World.answerMarks World.answer at hans
      dsimp only at hans
      split at hans
      · cases hans
        rfl
      · cases hans
    | _ =>
      cases hans
      rfl

theorem nodup_getStaleServers (state : CoordinationState) (now timeoutSecs : UInt64) :
    (state.getStaleServers now timeoutSecs).Nodup := by
  unfold CoordinationState.getStaleServers
  have hkeys : (state.servers.entries.map Sigma.fst).Nodup := state.servers.nodupKeys
  exact hkeys.sublist (filter_sublist.map Sigma.fst)

/-! ### Runs -/

/-- The servers on the list of the monitor are registered, and their last heartbeats were too old
when it looked. -/
def PendingStale (w : World) (tr : ClusterTrace timeoutSecs) : Prop :=
  (pendingOf (eventsOf .monitor tr)).Nodup ∧
    ∀ id ∈ pendingOf (eventsOf .monitor tr), ∃ server, w.state.servers.lookup id = some server ∧
      server.lastHeartbeat.toNat + timeoutSecs.toNat < (lookTime (pastOf .monitor tr)).toNat

theorem PendingStale.of_lookup {w w' : World} {tr : ClusterTrace timeoutSecs}
    (h : PendingStale w tr)
    (hlook : ∀ id ∈ pendingOf (eventsOf .monitor tr),
      w'.state.servers.lookup id = w.state.servers.lookup id) : PendingStale w' tr := by
  refine ⟨h.1, fun id hid => ?_⟩
  rw [hlook id hid]
  exact h.2 id hid

theorem PendingStale.monitor {w w' : World} {tr : ClusterTrace timeoutSecs}
    {o : CoordOp ⊕ Mark} {r : ClusterT.Res o} (h : PendingStale w tr)
    (ho : Conducted timeoutSecs .monitor (eventsOf .monitor tr) o)
    (hans : w.answerMarks o = some (r, w')) :
    PendingStale w' ((.monitor, ⟨w, o, r⟩) :: tr) := by
  have hpast : pastOf .monitor ((.monitor, ⟨w, o, r⟩) :: tr) = ⟨w, o, r⟩ :: pastOf .monitor tr :=
    Machine.past_cons_self (M := clusterMachine timeoutSecs) .monitor _ tr
  -- calls that neither look nor touch a server
  have hoth : pendingOf (⟨o, r⟩ :: eventsOf .monitor tr) = pendingOf (eventsOf .monitor tr) →
      lookTime (⟨w, o, r⟩ :: pastOf .monitor tr) = lookTime (pastOf .monitor tr) →
      (∀ id, touches o id = false) → PendingStale w' ((.monitor, ⟨w, o, r⟩) :: tr) := by
    intro hpend htime htouch
    have hkept := h.of_lookup fun id _ => lookup_answerMarks hans (htouch id)
    unfold PendingStale eventsOf at hkept ⊢
    rw [hpast, Machine.events_cons, hpend, htime]
    exact hkept
  cases o with
  | inr m => cases m <;> exact hoth rfl rfl fun _ => rfl
  | inl o =>
    cases o with
    | getStaleServers t =>
      obtain ⟨-, -, rfl⟩ := ho
      cases hans
      unfold PendingStale eventsOf
      exact ⟨nodup_getStaleServers _ _ _, fun id hid => CoordinationState.mem_getStaleServers.1 hid⟩
    | unregisterServer serverId =>
      unfold PendingStale eventsOf
      refine ⟨h.1.erase serverId, fun id hid => ?_⟩
      obtain ⟨hne, hid⟩ := (List.Nodup.mem_erase_iff h.1).1 hid
      have htouch : touches (.inl (.unregisterServer serverId)) id = false :=
        beq_eq_false_iff_ne.2 fun heq => hne heq.symm
      obtain ⟨server, hlook, hold⟩ := h.2 id hid
      exact ⟨server, (lookup_answerMarks hans htouch).trans hlook, hold⟩
    | registerServer _ | heartbeat _ _ _ =>
      -- the monitor makes no such calls
      obtain ⟨-, ⟨k, hk⟩, -⟩ := ho
      cases hk
    | _ => exact hoth rfl rfl fun _ => rfl

theorem pendingStale {c : (clusterMachine timeoutSecs).Config} {tr : ClusterTrace timeoutSecs}
    (hrun : ClusterRun c tr) (hsteps : EachCall (fun tr i x => undisturbed tr i x = true) tr) :
    PendingStale c.world tr := by
  revert hsteps
  apply hrun.invariant fun w tr =>
    EachCall (fun tr i x => undisturbed tr i x = true) tr → PendingStale w tr
  · intro w _ _ _
    exact ⟨nodup_nil, nofun⟩
  · intro w w' tr hw h hsteps
    refine (h hsteps).of_lookup fun id _ => ?_
    cases hw <;> rfl
  · rintro i tr o r w w' ho hans h ⟨hstep, hsteps⟩
    by_cases hi : i = .monitor
    · subst hi
      exact (h hsteps).monitor ho hans
    · have hpast : pastOf .monitor ((i, ⟨w, o, r⟩) :: tr) = pastOf .monitor tr :=
        Machine.past_cons_ne (M := clusterMachine timeoutSecs) (fun heq => hi heq.symm) _ tr
      have hkept : PendingStale w' tr := by
        refine (h hsteps).of_lookup fun id hid => lookup_answerMarks hans ?_
        unfold undisturbed at hstep
        rw [if_neg hi] at hstep
        have hall := all_eq_true.1 hstep id hid
        simpa using hall
      unfold PendingStale eventsOf at hkept ⊢
      rw [hpast]
      exact hkept

section Removals

variable {c : (clusterMachine timeoutSecs).Config} {tr tr' : ClusterTrace timeoutSecs}
  {x : (clusterMachine timeoutSecs).Stamped}

theorem removedStale_of_removal (hrun : ClusterRun c tr)
    (hsteps : EachCall (fun tr i x => undisturbed tr i x = true) tr) {id : String}
    (hs : (.monitor, x) :: tr' <:+ tr) (hx : x.event.1 = .inl (.unregisterServer id)) :
    RemovedStale timeoutSecs x.world id := by
  obtain ⟨c', p, h, k, hrun', hworld, hi⟩ := hrun.exists_before hs
  have hsteps' : EachCall (fun tr i x => undisturbed tr i x = true) tr' := (hsteps.suffix hs).2
  have hexpl := (hrun.conducted).of_suffix hs
  rw [hx] at hexpl
  have hmem : id ∈ pendingOf (eventsOf .monitor tr') := hexpl.2.2 rfl
  obtain ⟨server, hlook, hold⟩ := (pendingStale hrun' hsteps').2 id hmem
  have htime : lookTime (pastOf .monitor tr') ≤ x.world.clock := by
    have hstep := hsteps.of_suffix hs
    unfold undisturbed at hstep
    rw [if_pos rfl, hx] at hstep
    simpa [isRemoval] using hstep
  rw [hworld] at hlook
  rw [UInt64.le_iff_toNat_le] at htime
  exact ⟨server, hlook, by omega⟩

/-- **An undisturbed monitor removes a server, and tells its failure, only if its last heartbeat
is older than the timeout**: at each removal in such a run, and each failure is told right after
one. -/
theorem monitor_removes_stale (hrun : ClusterRun c tr)
    (hsteps : EachCall (fun tr i x => undisturbed tr i x = true) tr) :
    (∀ x tr' id, (.monitor, x) :: tr' <:+ tr → x.event.1 = .inl (.unregisterServer id) →
      RemovedStale timeoutSecs x.world id) ∧
    ∀ i x tr' failure, (i, x) :: tr' <:+ tr → x.event.1 = .inl (.sendServerFailure failure) →
      i = .monitor ∧ ∃ t removal older, pastOf .monitor tr' = t :: removal :: older ∧
        removal.event.1 = .inl (.unregisterServer failure.failedServerId) ∧
        RemovedStale timeoutSecs removal.world failure.failedServerId := by
  refine ⟨fun x tr' id hs hx => removedStale_of_removal hrun hsteps hs hx, ?_⟩
  intro i x tr' failure hs hx
  have hexpl := (hrun.conducted).of_suffix hs
  rw [hx] at hexpl
  obtain ⟨-, rfl, t, e, h', hevs⟩ := hexpl
  -- the second newest call of the monitor is the removal
  obtain ⟨y, rest, hpast, hy, hrest⟩ := map_eq_cons_iff.1 hevs
  obtain ⟨z, older, rfl, hz, -⟩ := map_eq_cons_iff.1 hrest
  have hpast' : pastOf .monitor tr' = [y] ++ z :: older := hpast
  obtain ⟨tr'', hs'', -⟩ := Machine.exists_of_past hpast'
  have hz' : z.event.1 = .inl (.unregisterServer failure.failedServerId) := by rw [hz]
  refine ⟨rfl, y, z, older, hpast, hz', ?_⟩
  have hold : tr' <:+ tr := (suffix_cons _ _).trans hs
  exact removedStale_of_removal hrun hsteps (hs''.trans hold) hz'

end Removals

/-! ### A heartbeat that comes too late -/

namespace Sample

/-- A server registers at time 0; at time 100 the monitor looks. -/
def looked : List (player 15).Move :=
  Machine.Player.work (P := player 15) (Actor.task 0)
      (Activity.registerServer 0 (registration "server1")) 5 ++
    [.env (Change.clock 100), .start Actor.monitor Activity.heartbeatMonitor,
      .call Actor.monitor, .call Actor.monitor]

def played (moves : List (player 15).Move) :
    Option ((clusterMachine 15).Config × ClusterTrace 15) :=
  Machine.Player.playAll (start 15 .new, []) moves

/-- The monitor removes a server that has been silent. -/
theorem monitor_removes_silent :
    ∃ (c : (clusterMachine 15).Config) (tr tr' : ClusterTrace 15)
      (x : (clusterMachine 15).Stamped),
      (ClusterRun c tr ∧ EachCall (fun tr i x => undisturbed tr i x = true) tr ∧
        (.monitor, x) :: tr' <:+ tr ∧ x.event.1 = .inl (.unregisterServer "server1")) ∧
      RemovedStale 15 x.world "server1" := by
  obtain ⟨⟨c, tr⟩, hz, hsteps, hchk⟩ : ∃ z, played (looked ++ [.call .monitor]) = some z ∧
      decide (EachCall (fun tr i x => undisturbed tr i x = true) z.2) = true ∧
      (z.2.head?.any fun y => y.1 == .monitor &&
        decide (y.2.event.1 = .inl (.unregisterServer "server1"))) = true :=
    exists_of_any (by decide +kernel)
  have hsteps := of_decide_eq_true hsteps
  have hrun : ClusterRun c tr := (run_start 15 .new).playAll hz
  cases tr with
  | nil => cases hchk
  | cons y tr' =>
    obtain ⟨i, x⟩ := y
    obtain ⟨hi, hx⟩ := Bool.and_eq_true_iff.1 hchk
    obtain rfl := beq_iff_eq.1 hi
    have hx := of_decide_eq_true hx
    exact ⟨c, _, tr', x, ⟨hrun, hsteps, suffix_refl _, hx⟩,
      (monitor_removes_stale hrun hsteps).1 x tr' "server1" (suffix_refl _) hx⟩

/-- **A server is removed right after its heartbeat**, which comes between the look and the
removal of the monitor. -/
theorem heartbeat_overtaken :
    ∃ (c : (clusterMachine 15).Config) (tr tr' : ClusterTrace 15)
      (x : (clusterMachine 15).Stamped), ClusterRun c tr ∧ (.monitor, x) :: tr' <:+ tr ∧
      x.event.1 = .inl (.unregisterServer "server1") ∧ ¬ RemovedStale 15 x.world "server1" := by
  obtain ⟨⟨c, tr⟩, hz, hchk⟩ : ∃ z, played (looked ++ Machine.Player.work
      (Actor.task 0) (Activity.heartbeat 0 "server1") 4 ++ [.call .monitor]) = some z ∧
      (z.2.head?.any fun y => y.1 == .monitor &&
        (decide (y.2.event.1 = .inl (.unregisterServer "server1")) &&
          (y.2.world.state.servers.lookup "server1").all fun server =>
            decide (y.2.world.clock.toNat ≤ server.lastHeartbeat.toNat + 15))) = true :=
    exists_of_any (by decide +kernel)
  have hrun : ClusterRun c tr := (run_start 15 .new).playAll hz
  cases tr with
  | nil => cases hchk
  | cons y tr' =>
    obtain ⟨i, x⟩ := y
    obtain ⟨hi, hchk⟩ := Bool.and_eq_true_iff.1 hchk
    obtain rfl := beq_iff_eq.1 hi
    obtain ⟨hx, hrecent⟩ := Bool.and_eq_true_iff.1 hchk
    refine ⟨c, _, tr', x, hrun, suffix_refl _, of_decide_eq_true hx, ?_⟩
    rintro ⟨server, hlook, hold⟩
    dsimp only at hrecent
    rw [hlook] at hrecent
    have hrecent := of_decide_eq_true hrecent
    have htime : (15 : UInt64).toNat = 15 := rfl
    omega

end Sample

end RustSmb.Coordinator
