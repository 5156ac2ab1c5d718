import RustSmb.Coordinator.Cluster

/-!
# What the tasks of the cluster do

Each call of a task is explained by the calls that the task has made before: a stored epoch
is one that was just reported or received, an epoch that is passed on was just stored, an
epoch change is told right after it was made, and a server that the monitor removes was on
the list of the last look.

## Main results

* `program_conducted` — **every call of every task is explained.**
* `ClusterRun.induction`, `ClusterRun.invariant` — the induction rule for runs.
-/

namespace RustSmb.Coordinator

open Client

/-! ### What the past of a task tells -/

/-- A task has begun and not ended. -/
def inTask : List (Event ClusterT) → Bool
  | [] => false
  | ⟨.inr .begin, _⟩ :: _ => true
  | ⟨.inr .finish, _⟩ :: _ => false
  | _ :: h => inTask h

/-- The epoch that the task has made and not told yet. -/
def unpublishedOf : List (Event ClusterT) → Option UInt64
  | [] => none
  | ⟨.inl (.unregisterServer _), e⟩ :: _ => some e
  | ⟨.inl (.incrementEpoch _), e⟩ :: _ => some e
  | ⟨.inl (.sendEpochChange _), _⟩ :: _ => none
  | _ :: h => unpublishedOf h

/-- The servers that the monitor has found stale and not removed yet. -/
def pendingOf : List (Event ClusterT) → List String
  | [] => []
  | ⟨.inl (.getStaleServers _), ids⟩ :: _ => ids
  | ⟨.inl (.unregisterServer id), _⟩ :: h => (pendingOf h).erase id
  | _ :: h => pendingOf h

/-- The newest call of a task received an epoch change for a client. -/
def Received (j : ℕ) (e : UInt64) (h : List (Event ClusterT)) : Prop :=
  ∃ event h', h = ⟨.inl (.nextEpochChange j), event⟩ :: h' ∧ event.newEpoch = e

/-- The newest calls of a task tell a client an epoch to pass on: the answer to a heartbeat with
an epoch that is not kept, or an increment of its own. -/
def Told (j : ℕ) (e : UInt64) (h : List (Event ClusterT)) : Prop :=
  (∃ current id n m h', h = ⟨.inl (.loadEpoch j), current⟩ ::
    ⟨.inl (.heartbeat id n m), .ok e⟩ :: h' ∧ current ≠ e) ∨
  ∃ event t reason h', h = ⟨.inl (.sendEpochChange event), ()⟩ ::
    ⟨.inl .currentTimestamp, t⟩ :: ⟨.inl (.incrementEpoch reason), e⟩ :: h'

/-- The newest calls of a task tell a client an epoch that it only keeps. -/
def Kept (j : ℕ) (e : UInt64) (h : List (Event ClusterT)) : Prop :=
  (∃ id registration n h', h = ⟨.inl (.setServerId j id), ()⟩ ::
    ⟨.inl (.registerServer registration), (e, n)⟩ :: h') ∨
  ∃ h', h = ⟨.inl .getEpoch, e⟩ :: ⟨.inl (.loadEpoch j), (0 : UInt64)⟩ :: h'

variable (timeoutSecs : UInt64) (i : Actor)

/-- The calls that a task makes, given its past. -/
def Explained (h : List (Event ClusterT)) : CoordOp → Prop
  | .getStaleServers t => i = .monitor ∧ t = timeoutSecs
  | .unregisterServer id => unpublishedOf h = none ∧ (i = .monitor → id ∈ pendingOf h)
  | .incrementEpoch _ => unpublishedOf h = none
  | .sendEpochChange event => unpublishedOf h = some event.newEpoch
  | .sendServerFailure event => i = .monitor ∧
      ∃ t e h', h = ⟨.inl .currentTimestamp, t⟩ ::
        ⟨.inl (.unregisterServer event.failedServerId), e⟩ :: h'
  | .storeEpoch j e => unpublishedOf h = none ∧
      (i = .subscription j ∧ Received j e h ∨ (∃ k, i = .task k) ∧ (Told j e h ∨ Kept j e h))
  | .loadEpoch _ => ∃ k, i = .task k
  | .sendEpoch j e => ∃ h', h = ⟨.inl (.storeEpoch j e), ()⟩ :: h' ∧ (Received j e h' ∨ Told j e h')
  | .nextEpochChange j => i = .subscription j ∧ unpublishedOf h = none
  | .subscribeServerFailures _ | .sendFailure _ _ => False
  | .nextFailure j => i = .listener j
  | .subscribeEpochChanges j => i = .subscription j
  | .registerServer _ | .heartbeat _ _ _ | .getEpoch => (∃ k, i = .task k) ∧ unpublishedOf h = none
  | _ => True

/-- What a task may do next. -/
def Conducted (h : List (Event ClusterT)) : CoordOp ⊕ Mark → Prop
  | .inr .begin => True
  | .inr .finish => unpublishedOf h = none
  | .inl o => inTask h = true ∧ Explained timeoutSecs i h o

/-- What holds between two tasks of an actor. -/
def Between (_ : Bool) (h : List (Event ClusterT)) : Prop :=
  inTask h = false ∧ unpublishedOf h = none

variable {timeoutSecs i} {s : Bool} {h : List (Event ClusterT)} {j : ℕ}

theorem handleStale_conducted (ids : List String) (hin : inTask h = true)
    (hnone : unpublishedOf h = none) (hids : pendingOf h = ids) :
    ((Proc.forEach Service.handleStale ids ()).lift : Prog ClusterT _).wp
      (Conducted timeoutSecs .monitor)
      (fun _ h' => inTask h' = true ∧ unpublishedOf h' = none) h := by
  induction ids generalizing h with
  | nil => exact ⟨hin, hnone⟩
  | cons id ids ih =>
    have hmem : id ∈ pendingOf h := by
      rw [hids]
      exact List.mem_cons_self
    refine ⟨⟨hin, hnone, fun _ => hmem⟩, fun e => ⟨⟨hin, trivial⟩, fun t => ?_⟩⟩
    refine ⟨⟨hin, rfl, t, e, h, rfl⟩, fun _ => ⟨⟨hin, trivial⟩, fun t' => ?_⟩⟩
    refine ⟨⟨hin, rfl⟩, fun _ => ih hin rfl ?_⟩
    -- what is left of the list after this server
    have herase : (pendingOf h).erase id = ids := by rw [hids, List.erase_cons_head]
    exact herase

section Activities

variable (hs : Between s h)

include hs

theorem heartbeatMonitor_conducted :
    (marked s (Service.heartbeatMonitor timeoutSecs)).wp (Conducted timeoutSecs .monitor)
      Between h := by
  obtain ⟨-, hnone⟩ := hs
  refine ⟨trivial, fun _ => ⟨⟨rfl, rfl, rfl⟩, fun ids => ?_⟩⟩
  have hloop : ((Proc.forEach Service.handleStale ids ()).lift : Prog ClusterT _).wp
      (Conducted timeoutSecs .monitor)
      (fun _ h' => inTask h' = true ∧ unpublishedOf h' = none)
      (⟨.inl (.getStaleServers timeoutSecs), ids⟩ :: ⟨.inr .begin, ()⟩ :: h) :=
    handleStale_conducted ids rfl hnone rfl
  apply Prog.wp_bind.2
  apply Prog.wp_bind.2
  apply Prog.wp_bind.2
  apply Prog.wp_mono hloop
  rintro ⟨r, _⟩ h' ⟨-, hnone'⟩
  exact ⟨hnone', fun _ => ⟨rfl, hnone'⟩⟩

theorem subscribe_conducted :
    (marked true (subscribe j)).wp (Conducted timeoutSecs (.subscription j)) Between h := by
  obtain ⟨-, hnone⟩ := hs
  exact ⟨trivial, fun _ => ⟨⟨rfl, rfl⟩, fun _ => ⟨hnone, fun _ => ⟨rfl, hnone⟩⟩⟩⟩

theorem handleEpochChange_conducted :
    (marked true (handleEpochChange j)).wp (Conducted timeoutSecs (.subscription j)) Between h := by
  obtain ⟨-, hnone⟩ := hs
  refine ⟨trivial, fun _ => ⟨⟨rfl, rfl, hnone⟩, fun event => ?_⟩⟩
  have hrecv : Received j event.newEpoch
      (⟨.inl (.nextEpochChange j), event⟩ :: ⟨.inr .begin, ()⟩ :: h) := ⟨event, _, rfl, rfl⟩
  refine ⟨⟨rfl, hnone, .inl ⟨rfl, hrecv⟩⟩, fun _ => ?_⟩
  exact ⟨⟨rfl, _, rfl, .inl hrecv⟩, fun _ => ⟨hnone, fun _ => ⟨rfl, hnone⟩⟩⟩

theorem handleServerFailure_conducted :
    (marked s (handleServerFailure j)).wp (Conducted timeoutSecs (.listener j)) Between h := by
  obtain ⟨-, hnone⟩ := hs
  refine ⟨trivial, fun _ => ⟨⟨rfl, rfl⟩, fun failed => ⟨⟨rfl, trivial⟩, fun _ => ?_⟩⟩⟩
  exact ⟨⟨rfl, trivial⟩, fun _ => ⟨hnone, fun _ => ⟨rfl, hnone⟩⟩⟩

variable (k : ℕ)

theorem registerServer_conducted (registration : ServerRegistration) :
    (marked s (registerServer j registration)).wp (Conducted timeoutSecs (.task k)) Between h := by
  obtain ⟨-, hnone⟩ := hs
  refine ⟨trivial, fun _ => ⟨⟨rfl, ⟨k, rfl⟩, hnone⟩, fun response => ?_⟩⟩
  refine ⟨⟨rfl, trivial⟩, fun _ => ?_⟩
  refine ⟨⟨rfl, hnone, .inr ⟨⟨k, rfl⟩, .inr (.inl ⟨_, _, _, _, rfl⟩)⟩⟩, fun _ => ?_⟩
  exact ⟨hnone, fun _ => ⟨rfl, hnone⟩⟩

theorem heartbeat_conducted (serverId : String) :
    (marked s (heartbeat j serverId)).wp (Conducted timeoutSecs (.task k)) Between h := by
  obtain ⟨-, hnone⟩ := hs
  refine ⟨trivial, fun _ => ⟨⟨rfl, ⟨k, rfl⟩, hnone⟩, fun reply => ?_⟩⟩
  cases reply with
  | error message => exact ⟨hnone, fun _ => ⟨rfl, hnone⟩⟩
  | ok epoch =>
    refine ⟨⟨rfl, ⟨k, rfl⟩⟩, fun (current : UInt64) => ?_⟩
    dsimp only [Prog.bind, Proc.when]
    by_cases hne : current = epoch
    · rw [hne, bne_self_eq_false, if_neg Bool.false_ne_true]
      exact ⟨hnone, fun _ => ⟨rfl, hnone⟩⟩
    · have htold : Told j epoch (⟨.inl (.loadEpoch j), current⟩ ::
          ⟨.inl (.heartbeat serverId 0 0), .ok epoch⟩ :: ⟨.inr .begin, ()⟩ :: h) :=
        .inl ⟨current, serverId, 0, 0, _, rfl, hne⟩
      rw [bne_iff_ne.2 fun heq => hne heq.symm, if_pos rfl]
      refine ⟨⟨rfl, hnone, .inr ⟨⟨k, rfl⟩, .inl htold⟩⟩, fun _ => ?_⟩
      exact ⟨⟨rfl, _, rfl, .inr htold⟩, fun _ => ⟨hnone, fun _ => ⟨rfl, hnone⟩⟩⟩

theorem getEpoch_conducted :
    (marked s (getEpoch j)).wp (Conducted timeoutSecs (.task k)) Between h := by
  obtain ⟨-, hnone⟩ := hs
  refine ⟨trivial, fun _ => ⟨⟨rfl, ⟨k, rfl⟩⟩, fun (cached : UInt64) => ?_⟩⟩
  dsimp only [Prog.bind]
  by_cases hpos : cached > 0
  · rw [if_pos hpos]
    exact ⟨hnone, fun _ => ⟨rfl, hnone⟩⟩
  · obtain rfl : cached = 0 := UInt64.le_zero_iff.1 (UInt64.not_lt.1 hpos)
    refine ⟨⟨rfl, ⟨k, rfl⟩, hnone⟩, fun epoch => ?_⟩
    refine ⟨⟨rfl, hnone, .inr ⟨⟨k, rfl⟩, .inr (.inr ⟨_, rfl⟩)⟩⟩, fun _ => ?_⟩
    exact ⟨hnone, fun _ => ⟨rfl, hnone⟩⟩

theorem incrementEpoch_conducted :
    (marked s (incrementEpoch j)).wp (Conducted timeoutSecs (.task k)) Between h := by
  obtain ⟨-, hnone⟩ := hs
  refine ⟨trivial, fun _ => ⟨⟨rfl, hnone⟩, fun (e : UInt64) => ⟨⟨rfl, trivial⟩, fun t => ?_⟩⟩⟩
  have htold : Told j e (⟨.inl (.sendEpochChange ⟨e, "manual", t⟩), ()⟩ ::
      ⟨.inl .currentTimestamp, t⟩ :: ⟨.inl (.incrementEpoch "manual"), e⟩ ::
        ⟨.inr .begin, ()⟩ :: h) := .inr ⟨_, _, _, _, rfl⟩
  refine ⟨⟨rfl, rfl⟩, fun _ => ⟨⟨rfl, rfl, .inr ⟨⟨k, rfl⟩, .inl htold⟩⟩, fun _ => ?_⟩⟩
  exact ⟨⟨rfl, _, rfl, .inr htold⟩, fun _ => ⟨rfl, fun _ => ⟨rfl, rfl⟩⟩⟩

theorem leaveCluster_conducted :
    (marked s (leaveCluster j)).wp (Conducted timeoutSecs (.task k)) Between h := by
  obtain ⟨-, hnone⟩ := hs
  refine ⟨trivial, fun _ => ⟨⟨rfl, trivial⟩, fun serverId => ?_⟩⟩
  cases serverId with
  | none => exact ⟨hnone, fun _ => ⟨rfl, hnone⟩⟩
  | some serverId =>
    refine ⟨⟨rfl, hnone, nofun⟩, fun e => ⟨⟨rfl, trivial⟩, fun t => ?_⟩⟩
    refine ⟨⟨rfl, rfl⟩, fun _ => ⟨⟨rfl, trivial⟩, fun _ => ?_⟩⟩
    exact ⟨rfl, fun _ => ⟨rfl, rfl⟩⟩

end Activities

/-- **Every call of every task is explained.** -/
theorem program_conducted {p : Prog ClusterT Bool} {activity : Activity}
    (hp : program timeoutSecs i s activity = some p) (hs : Between s h) :
    p.wp (Conducted timeoutSecs i) Between h := by
  unfold program at hp
  split at hp
  · cases hp
    exact heartbeatMonitor_conducted hs
  · cases hp
    exact subscribe_conducted hs
  · cases hp
    exact handleEpochChange_conducted hs
  · cases hp
    exact handleServerFailure_conducted hs
  · cases hp
    exact registerServer_conducted hs _ _
  · cases hp
    exact heartbeat_conducted hs _ _
  · cases hp
    exact leaveCluster_conducted hs _
  · cases hp
    exact getEpoch_conducted hs _
  · cases hp
    exact incrementEpoch_conducted hs _
  · cases hp

section Runs

variable {c : (clusterMachine timeoutSecs).Config} {tr : ClusterTrace timeoutSecs}

/-- What one task has done in a run. -/
abbrev pastOf (i : Actor) (tr : ClusterTrace timeoutSecs) :
    List (clusterMachine timeoutSecs).Stamped :=
  Machine.past (M := clusterMachine timeoutSecs) i tr

abbrev eventsOf (i : Actor) (tr : ClusterTrace timeoutSecs) : List (Event ClusterT) :=
  Machine.events (pastOf i tr)

@[simp] theorem eventsOf_cons_self (i : Actor) (x : (clusterMachine timeoutSecs).Stamped) :
    eventsOf i ((i, x) :: tr) = x.event :: eventsOf i tr :=
  congrArg Machine.events (Machine.past_cons_self i x tr)

theorem eventsOf_cons_ne {i k : Actor} (hk : k ≠ i) (x : (clusterMachine timeoutSecs).Stamped) :
    eventsOf k ((i, x) :: tr) = eventsOf k tr :=
  congrArg Machine.events (Machine.past_cons_ne hk x tr)

abbrev EachCall (G : ClusterTrace timeoutSecs → Actor → (clusterMachine timeoutSecs).Stamped → Prop)
    (tr : ClusterTrace timeoutSecs) : Prop :=
  Machine.EachCall (M := clusterMachine timeoutSecs) G tr

/-- **The induction rule for runs**: an invariant holds throughout if it holds at the start and
is kept by the environment and by every explained call. -/
theorem ClusterRun.induction (hrun : ClusterRun c tr)
    (Inv : World → ClusterTrace timeoutSecs → Prop)
    (hinit : ∀ w : World, w.state = .new → (∀ j, w.clients j = {}) → Inv w [])
    (henv : ∀ w w' tr, EnvStep w w' → Inv w tr → Inv w' tr)
    (hcall : ∀ (c : (clusterMachine timeoutSecs).Config) i tr o r w', ClusterRun c tr →
      Conducted timeoutSecs i (eventsOf i tr) o → c.world.answerMarks o = some (r, w') →
      Inv c.world tr → Inv w' ((i, ⟨c.world, o, r⟩) :: tr)) :
    Inv c.world tr := by
  apply Machine.Run.invariant_each (Q := fun _ => Between) hrun
  · exact fun c hc i => ⟨false, hc.idle i, rfl, rfl⟩
  · rintro i s p h ⟨activity, hp⟩ hs
    exact program_conducted hp hs
  · exact fun c hc => hinit c.world hc.state hc.clients
  · exact henv
  · exact hcall

theorem ClusterRun.invariant (hrun : ClusterRun c tr)
    (Inv : World → ClusterTrace timeoutSecs → Prop)
    (hinit : ∀ w : World, w.state = .new → (∀ j, w.clients j = {}) → Inv w [])
    (henv : ∀ w w' tr, EnvStep w w' → Inv w tr → Inv w' tr)
    (hcall : ∀ i tr o r w w', Conducted timeoutSecs i (eventsOf i tr) o →
      w.answerMarks o = some (r, w') → Inv w tr → Inv w' ((i, ⟨w, o, r⟩) :: tr)) :
    Inv c.world tr :=
  hrun.induction Inv hinit henv fun c i tr o r w' _ => hcall i tr o r c.world w'

theorem ClusterRun.conducted (hrun : ClusterRun c tr) :
    EachCall (fun tr i x => Conducted timeoutSecs i (eventsOf i tr) x.event.1) tr := by
  apply hrun.invariant fun _ tr =>
    EachCall (fun tr i x => Conducted timeoutSecs i (eventsOf i tr) x.event.1) tr
  · exact fun _ _ _ => trivial
  · exact fun _ _ _ _ h => h
  · exact fun i tr o r w w' ho _ h => ⟨ho, h⟩

end Runs

end RustSmb.Coordinator
