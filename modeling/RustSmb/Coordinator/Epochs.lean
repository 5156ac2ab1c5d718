import RustSmb.Coordinator.EpochOrder

/-!
# The epochs of a client

A client stores the epoch that it is told last.  So an answer that is overtaken by an epoch
change takes the client back, and an epoch that reaches the client twice is passed on twice.
If nothing is overtaken, epochs grow.

## Main results

* `ClusterRun.fresh` — what was so when a source was called is still so.
* `epochs_grow` — **if nothing is overtaken, epochs grow.**
* `Sample.heartbeat_goes_back` — an answer to a heartbeat that is overtaken.
-/

namespace RustSmb.Coordinator

open Actor List World

variable {e : UInt64}

variable {timeoutSecs : UInt64}

/-! ### What was told is still so -/

/-- The newest epoch that the service has told. -/
def published (w : World) (tr : ClusterTrace timeoutSecs) : ℕ :=
  if (unpublishedOf (allEvents tr)).isSome then w.state.cacheEpoch.toNat - 1
  else w.state.cacheEpoch.toNat

theorem published_le (w : World) (tr : ClusterTrace timeoutSecs) :
    published w tr ≤ w.state.cacheEpoch.toNat := by
  unfold published
  split
  · omega
  · exact le_refl _

variable {w w' : World} {o : CoordOp ⊕ Mark} {r : ClusterT.Res o}

theorem published_of_none {tr : ClusterTrace timeoutSecs}
    (hall : unpublishedOf (allEvents tr) = none) : published w tr = w.state.cacheEpoch.toNat := by
  unfold published
  rw [hall, Option.isSome_none, if_neg Bool.false_ne_true]

theorem published_of_some {tr : ClusterTrace timeoutSecs}
    (hall : unpublishedOf (allEvents tr) = some e) :
    published w tr = w.state.cacheEpoch.toNat - 1 := by
  unfold published
  rw [hall, Option.isSome_some, if_pos rfl]

/-- Epochs only grow on their way from the coordinator to the servers. -/
structure Grown (w : World) (tr : ClusterTrace timeoutSecs) : Prop where
  clients : ∀ j, Settled (published w tr) (w.clients j)
  /-- What a subscription has just received. -/
  received : ∀ j event h,
    eventsOf (.subscription j) tr = ⟨.inl (.nextEpochChange j), event⟩ :: h →
      event.newEpoch.toNat ≤ published w tr ∧
        ∀ q ∈ (w.clients j).waiting, event.newEpoch < q.newEpoch
  /-- What a task has just stored and passes on next. -/
  stored : ∀ i j e h, lastStorer j tr = some i → eventsOf i tr = ⟨.inl (.storeEpoch j e), ()⟩ :: h →
    Received j e h ∨ Told j e h →
      (w.clients j).cachedEpoch = e ∧ ∀ s ∈ (w.clients j).epochsSent, s < e

/-- The epoch that a client is told. -/
def reportOf : Event ClusterT → Option UInt64
  | ⟨.inl (.registerServer _), response⟩ => some response.1
  | ⟨.inl (.heartbeat _ _ _), .ok e⟩ => some e
  | ⟨.inl .getEpoch, e⟩ => some e
  | ⟨.inl (.incrementEpoch _), e⟩ => some e
  | _ => none

theorem cacheEpoch_of_reportOf (hans : w.answerMarks o = some (r, w'))
    (hrep : reportOf ⟨o, r⟩ = some e) : w'.state.cacheEpoch = e := by
  cases o with
  | inr m => cases hrep
  | inl o =>
    cases o with
    | registerServer registration | getEpoch | incrementEpoch reason =>
      cases hans
      exact Option.some.inj hrep
    | heartbeat serverId n m =>
      unfold answerMarks answer at hans
      dsimp only at hans
      split at hans
      · cases hans
        cases hrep
      · cases hans
        exact Option.some.inj hrep
    | _ => cases hrep

/-- Calls after which the newest events are the same and the epochs of the clients are kept. -/
def leavesClients : CoordOp ⊕ Mark → Bool
  | .inl (.sendEpochChange _) | .inl (.subscribeEpochChanges _) | .inl (.nextEpochChange _)
  | .inl (.storeEpoch _ _) | .inl (.sendEpoch _ _) => false
  | _ => true

def epochsOf (c : ClientState) : List UInt64 × UInt64 × Option (List EpochChangeEvent) :=
  (c.epochsSent, c.cachedEpoch, c.epochStream)

theorem epochs_answerMarks (hans : w.answerMarks o = some (r, w'))
    (hleaves : leavesClients o = true) (j : ℕ) :
    epochsOf (w'.clients j) = epochsOf (w.clients j) := by
  cases o with
  | inr m =>
    cases hans
    rfl
  | inl o =>
    cases o with
    | sendEpochChange event | subscribeEpochChanges k | nextEpochChange k | storeEpoch k e
    | sendEpoch k e => cases hleaves
    | heartbeat serverId n m =>
      unfold answerMarks answer at hans
      dsimp only at hans
      split at hans <;> cases hans <;> rfl
    | nextFailure k =>
      unfold answerMarks answer at hans
      dsimp only at hans
      split at hans
      · cases hans
        exact frame_setClient (by rfl) j
      · cases hans
    | subscribeServerFailures k | setServerId k id | sendFailure k id =>
      cases hans
      exact frame_setClient (by rfl) j
    | _ =>
      cases hans
      rfl

theorem cachedEpoch_answerMarks {j : ℕ} (hans : w.answerMarks o = some (r, w'))
    (hstores : storesFor j o = false) : (w'.clients j).cachedEpoch = (w.clients j).cachedEpoch := by
  by_cases hleaves : leavesClients o = true
  · exact congrArg (fun e => e.2.1) (epochs_answerMarks hans hleaves j)
  · cases o with
    | inr m => exact absurd rfl hleaves
    | inl o =>
      cases o with
      | sendEpochChange event =>
        cases hans
        rfl
      | nextEpochChange k =>
        unfold answerMarks answer at hans
        dsimp only at hans
        split at hans
        · cases hans
          exact frame_setClient (by rfl) j
        · cases hans
      | storeEpoch k e =>
        cases hans
        have hne : j ≠ k := fun heq => by simp [storesFor, heq] at hstores
        rw [setClient_clients_ne w hne]
      | subscribeEpochChanges k | sendEpoch k e =>
        cases hans
        exact frame_setClient (by rfl) j
      | _ => exact absurd rfl hleaves

section Fresh

variable {c : (clusterMachine timeoutSecs).Config} {tr : ClusterTrace timeoutSecs} {i : Actor}
  {j : ℕ}

variable {h l : List (Event ClusterT)}

theorem exists_past {e : Event ClusterT} (hevs : eventsOf i tr = l ++ e :: h) :
    ∃ newer w older, pastOf i tr = newer ++ ⟨w, e⟩ :: older ∧ Machine.events newer = l := by
  obtain ⟨newer, rest, hpast, hnewer, hrest⟩ := map_eq_append_iff.1 hevs
  obtain ⟨x, older, rfl, rfl, -⟩ := map_eq_cons_iff.1 hrest
  exact ⟨newer, x.world, older, hpast, hnewer⟩

section Runs

variable (hrun : ClusterRun c tr)

include hrun

/-- **What was so when a source was called is still so**, if no call that changes it has
overtaken the task. -/
theorem ClusterRun.fresh {harm : CoordOp ⊕ Mark → Bool} (hfresh : Fresh i harm tr)
    {P : World → Prop} (henv : ∀ w w', EnvStep w w' → P w → P w')
    (hcall : ∀ o r w w', w.answerMarks o = some (r, w') → harm o = false → P w → P w')
    {e : Event ClusterT} (hevs : eventsOf i tr = l ++ e :: h)
    (hprev : ∀ x ∈ l, isSource x.1 = false)
    (hP : ∀ w w' older, (i, (⟨w, e⟩ : (clusterMachine timeoutSecs).Stamped)) :: older <:+ tr →
      w.answerMarks e.1 = some (e.2, w') → P w') :
    P c.world := by
  obtain ⟨newer, w, older, hpast, rfl⟩ := exists_past hevs
  obtain ⟨tr', hs, -⟩ := Machine.exists_of_past hpast
  apply Machine.Run.checked hrun henv ?_ hfresh hpast
  · intro x hx
    exact hprev x.event (mem_map_of_mem hx)
  · intro w' hexec
    exact hP w w' tr' hs hexec
  · intro o r w₁ w₂ hexec hharm hw
    exact hcall o r w₁ w₂ hexec (Bool.not_eq_true _ ▸ hharm) hw

theorem ClusterRun.report_present (hfresh : Fresh i makesEpoch tr) {x : Event ClusterT}
    (hevs : eventsOf i tr = l ++ x :: h) (hprev : ∀ x ∈ l, isSource x.1 = false)
    (hrep : reportOf x = some e) :
    c.world.state.cacheEpoch = e := by
  apply hrun.fresh hfresh (P := fun w => w.state.cacheEpoch = e) ?_ ?_ hevs hprev
  · intro w w' older _ hans
    exact cacheEpoch_of_reportOf hans hrep
  · rintro w w' (_ | _) hw <;> exact hw
  · intro o r w w' hans hharm hw
    rw [cacheEpoch_answerMarks hans hharm]
    exact hw

/-- A client keeps the epoch that it kept at a call, if none was stored since the source of the
task. -/
theorem ClusterRun.cached_kept (hfresh : Fresh i (storesFor j) tr) {Q : UInt64 → Prop}
    {x : Event ClusterT} (hevs : eventsOf i tr = l ++ x :: h)
    (hprev : ∀ x ∈ l, isSource x.1 = false)
    (hQ : ∀ w w' older, (i, (⟨w, x⟩ : (clusterMachine timeoutSecs).Stamped)) :: older <:+ tr →
      w.answerMarks x.1 = some (x.2, w') → Q (w'.clients j).cachedEpoch) :
    Q (c.world.clients j).cachedEpoch := by
  apply hrun.fresh hfresh ?_ ?_ hevs hprev hQ
  · rintro w w' (_ | _) hw <;> exact hw
  · intro o r w w' hans hharm hw
    rw [cachedEpoch_answerMarks hans hharm]
    exact hw

theorem ClusterRun.loaded (hfresh : Fresh i (storesFor j) tr) {current : UInt64}
    (hevs : eventsOf i tr = ⟨.inl (.loadEpoch j), current⟩ :: h) :
    (c.world.clients j).cachedEpoch = current := by
  apply hrun.cached_kept hfresh (Q := fun e => e = current) (l := []) hevs
  · exact forall_mem_nil _
  · intro w w' older _ hans
    cases hans
    rfl

theorem ClusterRun.cached_lt_received (hgrown : EachCall (fun tr _ x => Grown x.world tr) tr)
    (hfresh : Fresh i (storesFor j) tr) {event : EpochChangeEvent}
    (hevs : eventsOf i tr = ⟨.inl (.nextEpochChange j), event⟩ :: h) :
    (c.world.clients j).cachedEpoch < event.newEpoch := by
  apply hrun.cached_kept hfresh (Q := fun e => e < event.newEpoch) (l := []) hevs
  · exact forall_mem_nil _
  · intro w w' older hs hans
    have hsettled := (hgrown.of_suffix hs).clients j
    unfold answerMarks answer at hans
    dsimp only at hans hsettled
    split at hans
    · next first rest hstr =>
      cases hans
      rw [setClient_clients_self]
      exact (hsettled.next hstr).2.1
    · cases hans

theorem ClusterRun.cached_lt_made (hsteps : EachCall (fun tr i x => inOrder tr i x = true) tr)
    (hgrown : EachCall (fun tr _ x => Grown x.world tr) tr) (hfresh : Fresh i (storesFor j) tr)
    {reason : String} (hevs : eventsOf i tr = l ++ ⟨.inl (.incrementEpoch reason), e⟩ :: h)
    (hprev : ∀ x ∈ l, isSource x.1 = false) : (c.world.clients j).cachedEpoch < e := by
  apply hrun.cached_kept hfresh (Q := fun cached => cached < e) hevs hprev
  intro w w' older hs hans
  have hcached := ((hgrown.of_suffix hs).clients j).cached.trans (published_le _ _)
  have hover := (told_of_inOrder (hsteps.of_suffix hs) rfl).2
  obtain ⟨hepoch, hclients, hnew⟩ := made_answerMarks hans rfl
  have he : e = w'.state.cacheEpoch := Option.some.inj (hnew [])
  rw [hclients, he, hepoch, UInt64.lt_iff_toNat_lt, toNat_add_one hover]
  exact Nat.lt_succ_of_le hcached

end Runs

end Fresh

/-! ### Steps -/

section Steps

variable {tr : ClusterTrace timeoutSecs} {i : Actor} {w w' : World} {o : CoordOp ⊕ Mark}
  {r : ClusterT.Res o}

theorem eventsOf_of_cons {k : Actor} {e : Event ClusterT} {h : List (Event ClusterT)}
    (heq : eventsOf k ((i, ⟨w, o, r⟩) :: tr) = e :: h) (hne : e.1 ≠ o) :
    eventsOf k tr = e :: h := by
  by_cases hk : k = i
  · rw [hk, eventsOf_cons_self] at heq
    obtain ⟨rfl, -⟩ := List.cons.inj heq
    exact absurd rfl hne
  · rw [eventsOf_cons_ne hk] at heq
    exact heq

theorem published_cons (hans : w.answerMarks o = some (r, w')) (htells : tellsEpoch o = false)
    (hmakes : makesEpoch o = true → unpublishedOf (allEvents tr) = none ∧
      w.state.cacheEpoch + 1 ≠ 0) :
    published w' ((i, ⟨w, o, r⟩) :: tr) = published w tr := by
  by_cases hm : makesEpoch o = true
  · obtain ⟨hall, hover⟩ := hmakes hm
    obtain ⟨hepoch, -, hnew⟩ := made_answerMarks hans hm
    have hsome : unpublishedOf (allEvents ((i, (⟨w, o, r⟩ : (clusterMachine _).Stamped)) :: tr)) =
      some w'.state.cacheEpoch := hnew _
    rw [published_of_none hall, published_of_some hsome, hepoch, toNat_add_one hover,
      Nat.add_sub_cancel]
  · have hm : makesEpoch o = false := Bool.not_eq_true _ ▸ hm
    unfold published
    rw [allEvents_cons, unpublishedOf_cons hm htells, cacheEpoch_answerMarks hans hm]

variable {j : ℕ}

theorem lastStorer_cons {x : (clusterMachine timeoutSecs).Stamped}
    (hstores : storesFor j x.event.1 = false) : lastStorer j ((i, x) :: tr) = lastStorer j tr := by
  simp [lastStorer, hstores]

theorem Grown.leave (hg : Grown w tr) (hans : w.answerMarks o = some (r, w'))
    (hleaves : leavesClients o = true)
    (hpub : published w' ((i, ⟨w, o, r⟩) :: tr) = published w tr) :
    Grown w' ((i, ⟨w, o, r⟩) :: tr) := by
  have hsame : ∀ j, (w'.clients j).epochsSent = (w.clients j).epochsSent ∧
      (w'.clients j).cachedEpoch = (w.clients j).cachedEpoch ∧
      (w'.clients j).epochStream = (w.clients j).epochStream := fun j => by
    simpa only [epochsOf, Prod.mk.injEq] using epochs_answerMarks hans hleaves j
  have hstores : ∀ j, storesFor j o = false := by
    intro j
    rcases o with (_ | _) | _ <;> first | rfl | cases hleaves
  refine ⟨fun j => ?_, fun j event h heq => ?_, fun k j e h hlast heq hsrc => ?_⟩
  · obtain ⟨hsent, hcached, hstr⟩ := hsame j
    rw [hpub]
    exact (hg.clients j).congr hsent hcached hstr
  · have hold := eventsOf_of_cons heq fun ho => by rw [← ho] at hleaves; cases hleaves
    have hwait : (w'.clients j).waiting = (w.clients j).waiting := by
      unfold ClientState.waiting
      rw [(hsame j).2.2]
    rw [hpub, hwait]
    exact hg.received j event h hold
  · have hold := eventsOf_of_cons heq fun ho => by rw [← ho] at hleaves; cases hleaves
    rw [lastStorer_cons (hstores j)] at hlast
    rw [(hsame j).1, (hsame j).2.1]
    exact hg.stored k j e h hlast hold hsrc

def concerns (j : ℕ) : CoordOp ⊕ Mark → Bool
  | .inl (.subscribeEpochChanges k) | .inl (.nextEpochChange k) | .inl (.storeEpoch k _)
  | .inl (.sendEpoch k _) => k == j
  | _ => false

section

variable (hg : Grown w tr)

include hg

/-- A call that changes one client keeps the order if it keeps it for that client. -/
theorem Grown.setClient {c : ClientState} (hj : concerns j o = true)
    (hans : w.answerMarks o = some (r, w.setClient j c)) (hc : Settled (published w tr) c)
    (hrecv : ∀ event h, eventsOf (.subscription j) ((i, ⟨w, o, r⟩) :: tr) =
        ⟨.inl (.nextEpochChange j), event⟩ :: h →
      event.newEpoch.toNat ≤ published w tr ∧ ∀ q ∈ c.waiting, event.newEpoch < q.newEpoch)
    (hstored : ∀ k e h, lastStorer j ((i, ⟨w, o, r⟩) :: tr) = some k →
      eventsOf k ((i, ⟨w, o, r⟩) :: tr) = ⟨.inl (.storeEpoch j e), ()⟩ :: h →
      Received j e h ∨ Told j e h → c.cachedEpoch = e ∧ ∀ s ∈ c.epochsSent, s < e) :
    Grown (w.setClient j c) ((i, ⟨w, o, r⟩) :: tr) := by
  have hpub : published (w.setClient j c) ((i, ⟨w, o, r⟩) :: tr) = published w tr := by
    refine published_cons hans ?_ fun hmakes => ?_ <;>
      rcases o with (_ | _) | _ <;> first | rfl | cases hj | cases hmakes
  -- copies of other servers are not set
  have hstores : ∀ l, l ≠ j → storesFor l o = false := by
    intro l hl
    rcases o with (_ | _) | _ <;> try rfl
    obtain rfl := beq_iff_eq.1 hj
    exact beq_false_of_ne hl.symm
  refine ⟨fun k => ?_, fun k event h heq => ?_, fun k l e h hlast heq hsrc => ?_⟩
  · rw [hpub]
    by_cases hk : k = j
    · rw [hk, setClient_clients_self]
      exact hc
    · rw [setClient_clients_ne w hk]
      exact hg.clients k
  · rw [hpub]
    by_cases hk : k = j
    · subst hk
      rw [setClient_clients_self]
      exact hrecv event h heq
    · rw [setClient_clients_ne w hk]
      refine hg.received k event h (eventsOf_of_cons heq fun ho => ?_)
      subst ho
      exact hk (beq_iff_eq.1 hj)
  · by_cases hl : l = j
    · subst hl
      rw [setClient_clients_self]
      exact hstored k e h hlast heq hsrc
    · rw [lastStorer_cons (hstores l hl)] at hlast
      rw [setClient_clients_ne w hl]
      refine hg.stored k l e h hlast (eventsOf_of_cons heq fun ho => ?_) hsrc
      subst ho
      exact hl (beq_iff_eq.1 hj)

theorem Grown.tell (hp : Publishing w tr) {event : EpochChangeEvent}
    (hev : unpublishedOf (eventsOf i tr) = some event.newEpoch)
    (hans : w.answerMarks (.inl (.sendEpochChange event)) = some ((), w')) :
    Grown w' ((i, ⟨w, .inl (.sendEpochChange event), ()⟩) :: tr) := by
  have hall := hp.made i _ hev
  obtain ⟨hepoch, hne⟩ := hp.present _ hall
  have hpos : 0 < event.newEpoch.toNat := by
    rw [Nat.pos_iff_ne_zero]
    exact fun heq => hne (UInt64.toNat_inj.1 heq)
  -- what was told before is one less
  have hold : published w tr = event.newEpoch.toNat - 1 := by rw [published_of_some hall, hepoch]
  cases hans
  have hnew : published ({ w with clients := fun j => { w.clients j with
      epochStream := (w.clients j).epochStream.map (· ++ [event]) } } : World)
      ((i, ⟨w, .inl (.sendEpochChange event), ()⟩) :: tr) = event.newEpoch.toNat := by
    rw [published_of_none rfl, hepoch]
  refine ⟨fun j => ?_, fun j event' h heq => ?_, fun k j e h hlast heq hsrc => ?_⟩
  · rw [hnew]
    exact (hg.clients j).tell (by omega) (le_refl _)
  · obtain ⟨hle, hlater⟩ := hg.received j event' h (eventsOf_of_cons heq (by simp))
    refine ⟨by omega, fun q hq => ?_⟩
    -- what is told now is newer than what was received
    have hlt : event'.newEpoch < event.newEpoch := by
      rw [UInt64.lt_iff_toNat_lt]
      omega
    unfold ClientState.waiting at hq hlater
    dsimp only at hq
    cases hstr : (w.clients j).epochStream with
    | none =>
      rw [hstr] at hq
      cases hq
    | some queue =>
      rw [hstr] at hq hlater
      rcases mem_append.1 hq with hq | hq
      · exact hlater q hq
      · rw [mem_singleton.1 hq]
        exact hlt
  · rw [lastStorer_cons rfl] at hlast
    exact hg.stored k j e h hlast (eventsOf_of_cons heq (by simp)) hsrc

theorem Grown.subscribe (hans : w.answerMarks (.inl (.subscribeEpochChanges j)) = some ((), w')) :
    Grown w' ((i, ⟨w, .inl (.subscribeEpochChanges j), ()⟩) :: tr) := by
  cases hans
  refine hg.setClient (beq_self_eq_true j) rfl (hg.clients j).subscribe (fun event h heq => ?_)
    fun k e h hlast heq hsrc => ?_
  · have hold := hg.received j event h (eventsOf_of_cons heq (by simp))
    exact ⟨hold.1, nofun⟩
  · rw [lastStorer_cons rfl] at hlast
    exact hg.stored k j e h hlast (eventsOf_of_cons heq (by simp)) hsrc

theorem Grown.next {event : EpochChangeEvent}
    (hans : w.answerMarks (.inl (.nextEpochChange j)) = some (event, w')) :
    Grown w' ((.subscription j, ⟨w, .inl (.nextEpochChange j), event⟩) :: tr) := by
  have hnext := hans
  unfold answerMarks answer at hans
  dsimp only at hans
  split at hans
  case h_2 => cases hans
  next first rest hstr =>
  cases hans
  obtain ⟨hsettled, -, hle, hlater⟩ := (hg.clients j).next hstr
  refine hg.setClient (beq_self_eq_true j) hnext hsettled (fun event' h heq => ?_)
    fun k e h hlast heq hsrc => ?_
  · rw [eventsOf_cons_self] at heq
    cases heq
    exact ⟨hle, hlater⟩
  · rw [lastStorer_cons rfl] at hlast
    exact hg.stored k j e h hlast (eventsOf_of_cons heq (by simp)) hsrc

theorem Grown.send {h : List (Event ClusterT)} (hlast : lastStorer j tr = some i)
    (hevs : eventsOf i tr = ⟨.inl (.storeEpoch j e), ()⟩ :: h) (hsrc : Received j e h ∨ Told j e h)
    (hans : w.answerMarks (.inl (.sendEpoch j e)) = some ((), w')) :
    Grown w' ((i, ⟨w, .inl (.sendEpoch j e), ()⟩) :: tr) := by
  obtain ⟨rfl, hnew⟩ := hg.stored i j e h hlast hevs hsrc
  cases hans
  refine hg.setClient (beq_self_eq_true j) rfl ((hg.clients j).send hnew) (fun event h heq => ?_)
    fun k e' h' hlast' heq _ => ?_
  · exact hg.received j event h (eventsOf_of_cons heq (by simp))
  · -- nobody else has stored for this client since
    rw [lastStorer_cons rfl, hlast] at hlast'
    obtain rfl := Option.some.inj hlast'
    rw [eventsOf_cons_self] at heq
    cases heq

/-- To store an epoch that is not older than what is kept, and newer if it is passed on, keeps the
order. -/
theorem Grown.store (hle : (w.clients j).cachedEpoch ≤ e) (hpublished : e.toNat ≤ published w tr)
    (hlater : ∀ q ∈ (w.clients j).waiting, e < q.newEpoch)
    (hnew : Received j e (eventsOf i tr) ∨ Told j e (eventsOf i tr) → (w.clients j).cachedEpoch < e)
    (hans : w.answerMarks (.inl (.storeEpoch j e)) = some ((), w')) :
    Grown w' ((i, ⟨w, .inl (.storeEpoch j e), ()⟩) :: tr) := by
  cases hans
  refine hg.setClient (beq_self_eq_true j) rfl ((hg.clients j).store hle hpublished hlater)
    (fun event h heq => hg.received j event h (eventsOf_of_cons heq (by simp)))
    fun k e' h hlast heq hsrc => ?_
  -- the task that has stored last is this one
  have hk : some i = some k := by simpa [lastStorer, storesFor] using hlast
  obtain rfl := Option.some.inj hk
  rw [eventsOf_cons_self] at heq
  cases heq
  exact ⟨rfl, fun s hs => UInt64.lt_of_le_of_lt ((hg.clients j).sent s hs) (hnew hsrc)⟩

end

end Steps

/-! ### Runs -/

section Growth

variable {c : (clusterMachine timeoutSecs).Config} {tr : ClusterTrace timeoutSecs} {i : Actor}
  {j : ℕ} {e : UInt64}

/-- An epoch may be stored: it was told, it is not older than what is kept, and newer if it is
passed on, and what waits is newer. -/
structure Storable (w : World) (tr : ClusterTrace timeoutSecs) (i : Actor) (j : ℕ) (e : UInt64) :
    Prop where
  le : (w.clients j).cachedEpoch ≤ e
  told : e.toNat ≤ published w tr
  later : ∀ q ∈ (w.clients j).waiting, e < q.newEpoch
  new : Received j e (eventsOf i tr) ∨ Told j e (eventsOf i tr) → (w.clients j).cachedEpoch < e

section Ordered

variable (hrun : ClusterRun c tr) (hg : Grown c.world tr)

include hrun hg

theorem ClusterRun.storable_received (hgrown : EachCall (fun tr _ x => Grown x.world tr) tr)
    (hfresh : Fresh (.subscription j) (storesFor j) tr)
    (hrecv : Received j e (eventsOf (.subscription j) tr)) :
    Storable c.world tr (.subscription j) j e := by
  obtain ⟨event, h, hevs, rfl⟩ := hrecv
  have hlt := hrun.cached_lt_received hgrown hfresh hevs
  obtain ⟨htold, hlater⟩ := hg.received j event h hevs
  exact ⟨UInt64.le_of_lt hlt, htold, hlater, fun _ => hlt⟩

section

variable (hsteps : EachCall (fun tr i x => inOrder tr i x = true) tr)
  (hgrown : EachCall (fun tr _ x => Grown x.world tr) tr)

include hsteps hgrown

theorem ClusterRun.storable_answered (hfresh : Fresh i (storesFor j) tr)
    (hpres : Fresh i makesEpoch tr) (hall : unpublishedOf (allEvents tr) = none)
    (hempty : (c.world.clients j).waiting = [])
    (hsrc : Told j e (eventsOf i tr) ∨ Kept j e (eventsOf i tr)) : Storable c.world tr i j e := by
  -- it is the present epoch, and everything is told
  have hcached := (hg.clients j).cached
  have hstorable : c.world.state.cacheEpoch = e →
      (Received j e (eventsOf i tr) ∨ Told j e (eventsOf i tr) →
        (c.world.clients j).cachedEpoch < e) → Storable c.world tr i j e := by
    intro he hnew
    rw [published_of_none hall, he] at hcached
    refine ⟨UInt64.le_iff_toNat_le.2 hcached, ?_, fun q hq => ?_, hnew⟩
    · rw [published_of_none hall, he]
    · rw [hempty] at hq
      cases hq
  rcases hsrc with (⟨current, id, n, m, h, hevs, hne⟩ | ⟨event, t, reason, h, hevs⟩) |
    (⟨id, registration, n, h, hevs⟩ | ⟨h, hevs⟩)
  · -- the answer to a heartbeat differs from what is kept
    have he := hrun.report_present (l := [⟨.inl (.loadEpoch j), current⟩]) hpres hevs
      (by simp [isSource]) rfl
    have hkept : (c.world.clients j).cachedEpoch ≠ e :=
      fun heq => hne ((hrun.loaded hfresh hevs).symm.trans heq)
    refine hstorable he fun _ => ?_
    rw [published_of_none hall, he, ← UInt64.le_iff_toNat_le] at hcached
    exact UInt64.lt_of_le_of_ne hcached hkept
  · -- the client has made the epoch
    have hprev : ∀ b ∈ ([⟨.inl (.sendEpochChange event), ()⟩, ⟨.inl .currentTimestamp, t⟩] :
        List (Event ClusterT)), isSource b.1 = false := by
      simp [isSource]
    have he := hrun.report_present hpres hevs hprev rfl
    exact hstorable he fun _ => hrun.cached_lt_made hsteps hgrown hfresh hevs hprev
  · have he := hrun.report_present (l := [⟨.inl (.setServerId j id), ()⟩]) hpres hevs
      (by simp [isSource]) rfl
    refine hstorable he fun hsrc => ?_
    rw [hevs] at hsrc
    rcases hsrc with ⟨_, _, heq, -⟩ | ⟨_, _, _, _, _, heq, -⟩ | ⟨_, _, _, _, heq⟩ <;> cases heq
  · have he := hrun.report_present hpres hevs (forall_mem_nil _) rfl
    refine hstorable he fun hsrc => ?_
    rw [hevs] at hsrc
    rcases hsrc with ⟨_, _, heq, -⟩ | ⟨_, _, _, _, _, heq, -⟩ | ⟨_, _, _, _, heq⟩ <;> cases heq

theorem ClusterRun.storable (ho : Conducted timeoutSecs i (eventsOf i tr) (.inl (.storeEpoch j e)))
    (hstep : inOrder tr i ⟨c.world, .inl (.storeEpoch j e), ()⟩ = true) :
    Storable c.world tr i j e := by
  obtain ⟨hfresh, hstep⟩ := Bool.and_eq_true_iff.1 hstep
  have hfresh := of_decide_eq_true hfresh
  obtain ⟨-, -, ⟨rfl, hrecv⟩ | ⟨⟨k, rfl⟩, hsrc⟩⟩ := ho
  · exact hrun.storable_received hg hgrown hfresh hrecv
  · have hne : (task k == subscription j) = false := beq_false_of_ne (by simp)
    obtain ⟨hpres, hstep⟩ := Bool.and_eq_true_iff.1 hstep
    obtain ⟨hall, hempty⟩ := Bool.and_eq_true_iff.1 hstep
    exact hrun.storable_answered hg hsteps hgrown hfresh (of_decide_eq_true hpres)
      (Option.isNone_iff_eq_none.1 hall) (isEmpty_iff.1 hempty) hsrc

theorem ClusterRun.grown_call {o : CoordOp ⊕ Mark} {r : ClusterT.Res o} {w' : World}
    (ho : Conducted timeoutSecs i (eventsOf i tr) o) (hstep : inOrder tr i ⟨c.world, o, r⟩ = true)
    (hans : c.world.answerMarks o = some (r, w')) : Grown w' ((i, ⟨c.world, o, r⟩) :: tr) := by
  by_cases hleaves : leavesClients o = true
  · have htells : tellsEpoch o = false := by
      rcases o with (_ | _) | _ <;> first | rfl | cases hleaves
    exact hg.leave hans hleaves (published_cons hans htells (told_of_inOrder hstep))
  · cases o with
    | inr m => exact absurd rfl hleaves
    | inl o =>
      cases o with
      | sendEpochChange event => exact hg.tell (publishing hrun hsteps) ho.2 hans
      | subscribeEpochChanges j => exact hg.subscribe hans
      | nextEpochChange j =>
        obtain rfl : i = .subscription j := ho.2.1
        exact hg.next hans
      | storeEpoch j e =>
        have hs := hrun.storable hg hsteps hgrown ho hstep
        exact hg.store hs.le hs.told hs.later hs.new hans
      | sendEpoch j e =>
        obtain ⟨-, h, hevs, hsrc⟩ := ho
        exact hg.send (beq_iff_eq.1 hstep) hevs hsrc hans
      | _ => exact absurd rfl hleaves

end

end Ordered

theorem grown (hrun : ClusterRun c tr)
    (hsteps : EachCall (fun tr i x => inOrder tr i x = true) tr) :
    Grown c.world tr ∧ EachCall (fun tr _ x => Grown x.world tr) tr := by
  revert hsteps
  apply hrun.induction fun w tr => EachCall (fun tr i x => inOrder tr i x = true) tr →
    Grown w tr ∧ EachCall (fun tr _ x => Grown x.world tr) tr
  · intro w _ hclients _
    refine ⟨⟨fun j => ?_, fun j event h heq => ?_, fun k j e h hlast => ?_⟩, trivial⟩
    · rw [hclients j]
      exact ⟨List.Pairwise.nil, forall_mem_nil _, Nat.zero_le _, List.Pairwise.nil,
        forall_mem_nil _⟩
    · cases heq
    · cases hlast
  · intro w w' tr hw h hsteps
    obtain ⟨hg, hgrown⟩ := h hsteps
    refine ⟨?_, hgrown⟩
    cases hw <;> exact ⟨hg.clients, hg.received, hg.stored⟩
  · rintro c i tr o r w' hrun ho hans h ⟨hstep, hsteps⟩
    obtain ⟨hg, hgrown⟩ := h hsteps
    exact ⟨hrun.grown_call hg hsteps hgrown ho hstep hans, hg, hgrown⟩

/-- The epoch that a client keeps never decreases, and those that it has passed on increase
(newest first). -/
def EpochsGrow (w : World) (tr : ClusterTrace timeoutSecs) : Prop :=
  ∀ j, (∀ y ∈ tr, (y.2.world.clients j).cachedEpoch ≤ (w.clients j).cachedEpoch) ∧
    (w.clients j).epochsSent.Pairwise (· > ·)

/-- **If nothing is overtaken, epochs grow.** -/
theorem epochs_grow (hrun : ClusterRun c tr)
    (hsteps : EachCall (fun tr i x => inOrder tr i x = true) tr) : EpochsGrow c.world tr := by
  intro j
  refine ⟨?_, ((grown hrun hsteps).1.clients j).sorted⟩
  revert hsteps
  apply hrun.induction fun w tr => EachCall (fun tr i x => inOrder tr i x = true) tr →
    ∀ y ∈ tr, (y.2.world.clients j).cachedEpoch ≤ (w.clients j).cachedEpoch
  · exact nofun
  · intro w w' tr hw h hsteps
    cases hw <;> exact h hsteps
  · rintro c i tr o r w' hrun ho hans h ⟨hstep, hsteps⟩
    have hle : (c.world.clients j).cachedEpoch ≤ (w'.clients j).cachedEpoch := by
      by_cases hstores : storesFor j o = true
      · cases o with
        | inr m => cases hstores
        | inl o =>
          cases o with
          | storeEpoch k e =>
            obtain rfl : k = j := beq_iff_eq.1 hstores
            obtain ⟨hg, hgrown⟩ := grown hrun hsteps
            have hs := hrun.storable hg hsteps hgrown ho hstep
            cases hans
            rw [setClient_clients_self]
            exact hs.le
          | _ => cases hstores
      · rw [cachedEpoch_answerMarks hans (Bool.not_eq_true _ ▸ hstores)]
        exact UInt64.le_refl _
    intro y hy
    rcases mem_cons.1 hy with rfl | hy
    · exact hle
    · exact UInt64.le_trans (h hsteps y hy) hle

end Growth

/-! ### An answer that is overtaken -/

namespace Sample

/-- A server registers and subscribes to changes of the epoch. -/
def subscribed : List (player 15).Move :=
  Machine.Player.work (P := player 15) (task 0)
      (Activity.registerServer 0 (registration "server1")) 5 ++
    Machine.Player.work (P := player 15) (subscription 0) Activity.subscribe 3

/-- A heartbeat is sent and answered. -/
def heartbeatAnswered : List (player 15).Move :=
  [.start (task 0) (Activity.heartbeat 0 "server1"), .call (task 0),
    .call (task 0)]

/-- Another client increments the epoch, and the subscription handles the change. -/
def incremented : List (player 15).Move :=
  Machine.Player.work (P := player 15) (task 1) (Activity.incrementEpoch 1) 7 ++
    Machine.Player.work (P := player 15) (subscription 0) Activity.handleEpochChange 5

/-- The answer to the heartbeat is handled, with so many calls. -/
def heartbeatHandled (calls : ℕ) : List (player 15).Move :=
  List.replicate calls (.call (task 0)) ++ [.finish (task 0)]

/-- If the epoch is incremented twice before the heartbeat, both epochs are passed on in turn. -/
theorem epochs_grow_twice :
    ∃ (c : (clusterMachine 15).Config) (tr : ClusterTrace 15),
      (ClusterRun c tr ∧ EachCall (fun tr i x => inOrder tr i x = true) tr ∧
        (c.world.clients 0).epochsSent = [3, 2]) ∧ EpochsGrow c.world tr := by
  obtain ⟨⟨c, tr⟩, hz, hsteps, hsent⟩ : ∃ z,
      Machine.Player.playAll (start 15 .new, [])
        (subscribed ++ incremented ++ incremented ++ heartbeatAnswered ++ heartbeatHandled 2) =
          some z ∧
      decide (EachCall (fun tr i x => inOrder tr i x = true) z.2) = true ∧
      (z.1.world.clients 0).epochsSent = [3, 2] := exists_of_any (by decide +kernel)
  have hsteps := of_decide_eq_true hsteps
  have hrun : ClusterRun c tr := (run_start 15 .new).playAll hz
  exact ⟨c, tr, ⟨hrun, hsteps, hsent⟩, epochs_grow hrun hsteps⟩

/-- **An overtaken answer to a heartbeat takes the client back**: it keeps and passes on epoch 2
and then epoch 1. -/
theorem heartbeat_goes_back :
    ∃ (c : (clusterMachine 15).Config) (tr : ClusterTrace 15) (y : Actor × _),
      ClusterRun c tr ∧ y ∈ tr ∧ (y.2.world.clients 0).cachedEpoch = 2 ∧
      (c.world.clients 0).cachedEpoch = 1 ∧ (c.world.clients 0).epochsSent = [1, 2] ∧
      ¬ EpochsGrow c.world tr := by
  obtain ⟨⟨c, tr⟩, hz, hnow, hsent, y, hy, hprev⟩ : ∃ z,
      Machine.Player.playAll (start 15 .new, [])
        (subscribed ++ heartbeatAnswered ++ incremented ++ heartbeatHandled 4) = some z ∧
      (z.1.world.clients 0).cachedEpoch = 1 ∧ (z.1.world.clients 0).epochsSent = [1, 2] ∧
      ∃ y ∈ z.2, (y.2.world.clients 0).cachedEpoch = 2 := exists_of_any (by decide +kernel)
  have hrun : ClusterRun c tr := (run_start 15 .new).playAll hz
  refine ⟨c, tr, y, hrun, hy, hprev, hnow, hsent, fun hgrow => ?_⟩
  have hle := (hgrow 0).1 y hy
  rw [hprev, hnow] at hle
  exact absurd hle (by decide)

end Sample

end RustSmb.Coordinator
