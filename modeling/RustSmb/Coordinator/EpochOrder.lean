import RustSmb.Coordinator.Conduct

/-!
# Epochs in order

A client takes the epoch from several sources: the answers to its registrations, heartbeats
and requests, and the stream of epoch changes.  It stores whatever it is told last, without
comparing, and passes it on.

This is about the calls that make, tell and store epochs, the condition that nothing is overtaken,
and the order in which the service tells epochs.  A client has passed on epochs, keeps one, and more
wait in its stream; each is older than the next, and none is newer than what was told.

## Main results

* `publishing` — **epochs are told in the order in which they are made.**
-/

namespace RustSmb.Coordinator

open List

variable {timeoutSecs : UInt64}

/-! ### The condition -/

/-- Does a call bring an epoch to a client? -/
def isSource : CoordOp ⊕ Mark → Bool
  | .inl (.registerServer _) | .inl (.heartbeat _ _ _) | .inl .getEpoch | .inl (.incrementEpoch _)
  | .inl (.nextEpochChange _) => true
  | _ => false

/-- The call raises the epoch. -/
def makesEpoch : CoordOp ⊕ Mark → Bool
  | .inl (.unregisterServer _) | .inl (.incrementEpoch _) => true
  | _ => false

/-- The call publishes an epoch. -/
def tellsEpoch : CoordOp ⊕ Mark → Bool
  | .inl (.sendEpochChange _) => true
  | _ => false

/-- The call sets a server's copy of the epoch. -/
def storesFor (j : ℕ) : CoordOp ⊕ Mark → Bool
  | .inl (.storeEpoch k _) => k == j
  | _ => false

abbrev allEvents (tr : ClusterTrace timeoutSecs) : List (Event ClusterT) :=
  Machine.events (tr.map Prod.snd)

/-- Who has set the copy last. -/
def lastStorer (j : ℕ) : ClusterTrace timeoutSecs → Option Actor
  | [] => none
  | y :: tr => if storesFor j y.2.event.1 then some y.1 else lastStorer j tr

/-- Since its last source a task has not been overtaken by certain calls. -/
abbrev Fresh (i : Actor) (harm : CoordOp ⊕ Mark → Bool) (tr : ClusterTrace timeoutSecs) : Prop :=
  Machine.Undisturbed (M := clusterMachine timeoutSecs) i (fun x => isSource x.event.1)
    (fun x => harm x.event.1 = true) tr

def ClientState.waiting (c : ClientState) : List EpochChangeEvent := c.epochStream.getD []

/-- The condition on the steps of a run.

* An epoch is made only when the one before has been told, and the counter does not overflow.
* An epoch is stored for a client only if none was since its source was called.  If the source was
  an answer, no epoch was made since, the present one has been told and nothing waits in the
  client's stream.
* An epoch is passed on only by the task that has stored last. -/
def inOrder (tr : ClusterTrace timeoutSecs) (i : Actor) (x : (clusterMachine timeoutSecs).Stamped) :
    Bool :=
  match x.event.1 with
  | .inl (.unregisterServer _) | .inl (.incrementEpoch _) =>
      (unpublishedOf (allEvents tr)).isNone && x.world.state.cacheEpoch + 1 != 0
  | .inl (.storeEpoch j _) =>
      decide (Fresh i (storesFor j) tr) &&
        (i == .subscription j || decide (Fresh i makesEpoch tr) &&
          ((unpublishedOf (allEvents tr)).isNone && (x.world.clients j).waiting.isEmpty))
  | .inl (.sendEpoch j _) => lastStorer j tr == some i
  | _ => true

/-! ### Events -/

section Events

variable {tr : ClusterTrace timeoutSecs} {i k : Actor} {w w' : World} {o : CoordOp ⊕ Mark}
  {r : ClusterT.Res o} {h : List (Event ClusterT)}

@[simp] theorem allEvents_cons (x : (clusterMachine timeoutSecs).Stamped) :
    allEvents ((i, x) :: tr) = x.event :: allEvents tr := rfl

/-- What is told and what is not told changes only when an epoch is made or told. -/
theorem unpublishedOf_cons (hmakes : makesEpoch o = false) (htells : tellsEpoch o = false) :
    unpublishedOf (⟨o, r⟩ :: h) = unpublishedOf h := by
  cases o with
  | inr m => rfl
  | inl o =>
    cases o with
    | unregisterServer id | incrementEpoch reason => cases hmakes
    | sendEpochChange event => cases htells
    | _ => rfl

theorem cacheEpoch_answerMarks (hans : w.answerMarks o = some (r, w'))
    (hmakes : makesEpoch o = false) : w'.state.cacheEpoch = w.state.cacheEpoch := by
  cases o with
  | inr m =>
    cases hans
    rfl
  | inl o =>
    cases o with
    | unregisterServer id | incrementEpoch reason => cases hmakes
    | heartbeat serverId n m =>
      unfold World.answerMarks World.answer World.applied CoordinationState.apply at hans
      cases hsrv : w.state.servers.lookup serverId with
      | none | some _ =>
        simp only [hsrv] at hans
        cases hans
        rfl
    | nextEpochChange j | nextFailure j =>
      unfold World.answerMarks World.answer at hans
      dsimp only at hans
      split at hans
      · cases hans
        rfl
      · cases hans
    | _ =>
      cases hans
      rfl

theorem made_answerMarks (hans : w.answerMarks o = some (r, w')) (hmakes : makesEpoch o = true) :
    w'.state.cacheEpoch = w.state.cacheEpoch + 1 ∧ w'.clients = w.clients ∧
      ∀ h, unpublishedOf (⟨o, r⟩ :: h) = some w'.state.cacheEpoch := by
  cases o with
  | inr m => cases hmakes
  | inl o =>
    cases o with
    | unregisterServer id | incrementEpoch reason =>
      cases hans
      exact ⟨rfl, rfl, fun h => rfl⟩
    | _ => cases hmakes

/-! ### Epochs are told in order -/

/-- At most one task has made an epoch that it has not told yet, and this is the present one. -/
structure Publishing (w : World) (tr : ClusterTrace timeoutSecs) : Prop where
  present : ∀ e, unpublishedOf (allEvents tr) = some e → e = w.state.cacheEpoch ∧ e ≠ 0
  made : ∀ i e, unpublishedOf (eventsOf i tr) = some e → unpublishedOf (allEvents tr) = some e
  unique : ∀ i k, unpublishedOf (eventsOf i tr) ≠ none → unpublishedOf (eventsOf k tr) ≠ none →
    k = i

theorem Publishing.eq_none (hp : Publishing w tr) (hall : unpublishedOf (allEvents tr) = none)
    (i : Actor) : unpublishedOf (eventsOf i tr) = none := by
  by_contra hne
  obtain ⟨e, he⟩ := Option.ne_none_iff_exists'.1 hne
  rw [hp.made i e he] at hall
  cases hall

theorem Publishing.make (hp : Publishing w tr) (hmakes : makesEpoch o = true)
    (hans : w.answerMarks o = some (r, w')) (hall : unpublishedOf (allEvents tr) = none)
    (hover : w.state.cacheEpoch + 1 ≠ 0) : Publishing w' ((i, ⟨w, o, r⟩) :: tr) := by
  obtain ⟨hepoch, -, hnew⟩ := made_answerMarks hans hmakes
  have hoths : ∀ k, unpublishedOf (eventsOf k ((i, ⟨w, o, r⟩) :: tr)) ≠ none → k = i := by
    intro k hk
    by_contra hne
    rw [eventsOf_cons_ne hne] at hk
    exact hk (hp.eq_none hall k)
  refine ⟨fun e he => ?_, fun k e he => ?_, fun k l hk hl => ?_⟩
  · rw [allEvents_cons, hnew] at he
    obtain rfl := Option.some.inj he
    refine ⟨rfl, ?_⟩
    rw [hepoch]
    exact hover
  · have hk : k = i := hoths k (by rw [he]; exact Option.some_ne_none e)
    rw [hk, eventsOf_cons_self, hnew] at he
    rw [allEvents_cons, hnew, he]
  · rw [hoths k hk, hoths l hl]

theorem Publishing.tell (hp : Publishing w tr) {event : EpochChangeEvent}
    (hev : unpublishedOf (eventsOf i tr) = some event.newEpoch) {x : (clusterMachine _).Stamped}
    (hx : x.event = ⟨.inl (.sendEpochChange event), ()⟩) : Publishing w' ((i, x) :: tr) := by
  have hnone : ∀ k, unpublishedOf (eventsOf k ((i, x) :: tr)) = none := by
    intro k
    by_cases hk : k = i
    · rw [hk, eventsOf_cons_self, hx]
      rfl
    · rw [eventsOf_cons_ne hk]
      by_contra hne
      have hi : unpublishedOf (eventsOf i tr) ≠ none := by
        rw [hev]
        exact Option.some_ne_none _
      exact hk (hp.unique i k hi hne)
  refine ⟨fun e he => ?_, fun k e he => ?_, fun k l hk hl => absurd (hnone k) hk⟩
  · rw [allEvents_cons, hx] at he
    cases he
  · rw [hnone k] at he
    cases he

theorem Publishing.other (hp : Publishing w tr) (hmakes : makesEpoch o = false)
    (htells : tellsEpoch o = false) (hans : w.answerMarks o = some (r, w')) :
    Publishing w' ((i, ⟨w, o, r⟩) :: tr) := by
  have hsame : ∀ k, unpublishedOf (eventsOf k ((i, ⟨w, o, r⟩) :: tr)) =
      unpublishedOf (eventsOf k tr) := by
    intro k
    by_cases hk : k = i
    · rw [hk, eventsOf_cons_self, unpublishedOf_cons hmakes htells]
    · rw [eventsOf_cons_ne hk]
  have hall : unpublishedOf (allEvents ((i, (⟨w, o, r⟩ : (clusterMachine _).Stamped)) :: tr)) =
      unpublishedOf (allEvents tr) := by
    rw [allEvents_cons, unpublishedOf_cons hmakes htells]
  refine ⟨fun e he => ?_, fun k e he => ?_, fun k l hk hl => ?_⟩
  · rw [hall] at he
    rw [cacheEpoch_answerMarks hans hmakes]
    exact hp.present e he
  · rw [hsame] at he
    rw [hall]
    exact hp.made k e he
  · rw [hsame] at hk hl
    exact hp.unique k l hk hl

end Events

theorem told_of_inOrder {tr : ClusterTrace timeoutSecs} {i : Actor}
    {x : (clusterMachine timeoutSecs).Stamped} (hstep : inOrder tr i x = true)
    (hmakes : makesEpoch x.event.1 = true) :
    unpublishedOf (allEvents tr) = none ∧ x.world.state.cacheEpoch + 1 ≠ 0 := by
  obtain ⟨w, o, r⟩ := x
  cases o with
  | inr m => cases hmakes
  | inl o =>
    cases o with
    | unregisterServer id | incrementEpoch reason =>
      obtain ⟨hnone, hover⟩ := Bool.and_eq_true_iff.1 hstep
      exact ⟨Option.isNone_iff_eq_none.1 hnone, bne_iff_ne.1 hover⟩
    | _ => cases hmakes

section Runs

variable {c : (clusterMachine timeoutSecs).Config} {tr : ClusterTrace timeoutSecs}

theorem publishing (hrun : ClusterRun c tr)
    (hsteps : EachCall (fun tr i x => inOrder tr i x = true) tr) : Publishing c.world tr := by
  revert hsteps
  apply hrun.invariant fun w tr =>
    EachCall (fun tr i x => inOrder tr i x = true) tr → Publishing w tr
  · intro w _ _ _
    refine ⟨fun e he => ?_, fun i e he => ?_, fun i k hi => absurd rfl hi⟩
    · cases he
    · cases he
  · intro w w' tr hw h hsteps
    have hp := h hsteps
    refine ⟨fun e he => ?_, hp.made, hp.unique⟩
    cases hw <;> exact hp.present e he
  · rintro i tr o r w w' ho hans h ⟨hstep, hsteps⟩
    have hp := h hsteps
    by_cases hmakes : makesEpoch o = true
    · obtain ⟨hall, hover⟩ := told_of_inOrder hstep hmakes
      exact hp.make hmakes hans hall hover
    · by_cases htells : tellsEpoch o = true
      · rcases o with o | m
        · cases o with
          | sendEpochChange event => exact hp.tell ho.2 rfl
          | _ => cases htells
        · cases htells
      · exact hp.other (Bool.not_eq_true _ ▸ hmakes) (Bool.not_eq_true _ ▸ htells) hans

end Runs

theorem toNat_add_one {e : UInt64} (hover : e + 1 ≠ 0) : (e + 1).toNat = e.toNat + 1 := by
  have hlt : e.toNat < UInt64.size := e.toNat_lt
  have hne : (e + 1).toNat ≠ 0 := fun heq => hover (UInt64.toNat_inj.1 heq)
  have hadd : (e + 1).toNat = (e.toNat + 1) % UInt64.size := UInt64.toNat_add e 1
  have hsize : UInt64.size = 18446744073709551616 := rfl
  rw [hsize] at hlt hadd
  omega

/-! ### The epochs of one client -/

/-- The epochs of a client are in order, and none is newer than `p`. -/
structure Settled (p : ℕ) (c : ClientState) : Prop where
  sorted : c.epochsSent.Pairwise (· > ·)
  sent : ∀ s ∈ c.epochsSent, s ≤ c.cachedEpoch
  cached : c.cachedEpoch.toNat ≤ p
  increasing : c.waiting.Pairwise fun a b => a.newEpoch < b.newEpoch
  later : ∀ q ∈ c.waiting, c.cachedEpoch < q.newEpoch ∧ q.newEpoch.toNat ≤ p

namespace Settled

variable {p : ℕ} {c c' : ClientState}

section Kept

variable (h : Settled p c)

include h

theorem congr (hsent : c'.epochsSent = c.epochsSent) (hcached : c'.cachedEpoch = c.cachedEpoch)
    (hstr : c'.epochStream = c.epochStream) :
    Settled p c' := by
  have hwait : c'.waiting = c.waiting := by
    unfold ClientState.waiting
    rw [hstr]
  refine ⟨?_, ?_, ?_, ?_, ?_⟩
  · rw [hsent]
    exact h.sorted
  · rw [hsent, hcached]
    exact h.sent
  · rw [hcached]
    exact h.cached
  · rw [hwait]
    exact h.increasing
  · rw [hwait, hcached]
    exact h.later

theorem mono {p' : ℕ} (hp : p ≤ p') : Settled p' c :=
  ⟨h.sorted, h.sent, h.cached.trans hp, h.increasing,
    fun q hq => ⟨(h.later q hq).1, (h.later q hq).2.trans hp⟩⟩

theorem tell {event : EpochChangeEvent} {p' : ℕ} (hlt : p < event.newEpoch.toNat)
    (hle : event.newEpoch.toNat ≤ p') :
    Settled p' { c with epochStream := c.epochStream.map (· ++ [event]) } := by
  cases hstr : c.epochStream with
  | none => exact (h.mono (by omega)).congr rfl rfl hstr.symm
  | some queue =>
    have hwait : c.waiting = queue := by
      unfold ClientState.waiting
      rw [hstr]
      rfl
    have hlater := h.later
    have hinc := h.increasing
    rw [hwait] at hlater hinc
    have hcached : c.cachedEpoch.toNat ≤ p' := h.cached.trans (by omega)
    refine ⟨h.sorted, h.sent, hcached, ?_, fun q hq => ?_⟩
    · refine pairwise_append.2 ⟨hinc, pairwise_singleton _ _, ?_⟩
      intro q hq q' hq'
      rw [mem_singleton.1 hq', UInt64.lt_iff_toNat_lt]
      have := (hlater q hq).2
      omega
    · rcases mem_append.1 hq with hq | hq
      · exact ⟨(hlater q hq).1, (hlater q hq).2.trans (by omega)⟩
      · rw [mem_singleton.1 hq]
        refine ⟨?_, hle⟩
        exact lt_of_le_of_lt h.cached hlt

theorem subscribe : Settled p { c with epochStream := some [] } :=
  ⟨h.sorted, h.sent, h.cached, List.Pairwise.nil, nofun⟩

theorem next {event : EpochChangeEvent} {rest : List EpochChangeEvent}
    (hstr : c.epochStream = some (event :: rest)) :
    Settled p { c with epochStream := some rest } ∧ c.cachedEpoch < event.newEpoch ∧
      event.newEpoch.toNat ≤ p ∧ ∀ q ∈ rest, event.newEpoch < q.newEpoch := by
  have hwait : c.waiting = event :: rest := by
    unfold ClientState.waiting
    rw [hstr]
    rfl
  have hlater := h.later
  have hinc := h.increasing
  rw [hwait] at hlater hinc
  obtain ⟨hlt, hle⟩ := hlater event mem_cons_self
  obtain ⟨hfirst, hrest⟩ := pairwise_cons.1 hinc
  refine ⟨⟨h.sorted, h.sent, h.cached, hrest, fun q hq => ?_⟩, hlt, hle, hfirst⟩
  exact hlater q (mem_cons_of_mem _ hq)

/-- An epoch is stored that is not older than the one before and older than what waits. -/
theorem store {e : UInt64} (hle : c.cachedEpoch ≤ e) (hp : e.toNat ≤ p)
    (hlater : ∀ q ∈ c.waiting, e < q.newEpoch) : Settled p { c with cachedEpoch := e } :=
  ⟨h.sorted, fun s hs => UInt64.le_trans (h.sent s hs) hle, hp, h.increasing,
    fun q hq => ⟨hlater q hq, (h.later q hq).2⟩⟩

theorem send (hnew : ∀ s ∈ c.epochsSent, s < c.cachedEpoch) :
    Settled p { c with epochsSent := c.cachedEpoch :: c.epochsSent } := by
  refine ⟨pairwise_cons.2 ⟨hnew, h.sorted⟩, ?_, h.cached, h.increasing, h.later⟩
  exact forall_mem_cons.2 ⟨UInt64.le_refl _, h.sent⟩

end Kept

end Settled

end RustSmb.Coordinator
