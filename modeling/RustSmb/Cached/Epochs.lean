import RustSmb.Cached.Concurrent

/-!
# Epochs of the cache

An entry is found only in the epoch that it was made in, and a listener that has handled an event
has incremented the epoch.  But the epoch listener sets the epoch to the number that the coordinator
sends, which can be smaller than what the increments have led to.

## Main results

* `stale_never_returned` — **if the epoch is not set back, no entry from before an event is found
  after it.**
* `Sample.stale_returned` — the epoch is set back to that of an old entry.

Source: `rustsmb-state-cached/src/cache.rs`, `rustsmb-server/src/coordination.rs`.
-/

namespace RustSmb.Cached

open List Operations

/-! ### The condition and the property -/

def World.epoch (w : World) : ℕ := w.cache.currentEpoch.toNat

/-- The condition on the steps of a run: the epoch is not set back, and its increments do not
overflow. -/
def advancing (x : cacheMachine.Stamped) : Bool :=
  match x.event.1 with
  | .inl (.setEpoch epoch) => decide (World.epoch x.world ≤ epoch.toNat)
  | .inl .invalidateAll => decide (World.epoch x.world + 1 < UInt64.size)
  | _ => true

/-- The record was put into the cache since. -/
def PutSince (key : RecordKey) (r : Record) (since : CacheTrace) : Prop :=
  ∃ y ∈ since, ∃ epoch cachedAt, y.2.event.1 = .inl (.put r epoch cachedAt) ∧ r.key = key

/-- The operation has ended since. -/
def Finished (i : ℕ) (op : CacheOp) (since : CacheTrace) : Prop :=
  ∃ y ∈ since, y.1 = i ∧ ∃ r, y.2.event.1 = .inr (.finish op r)

/-- What is found in the cache has been put since a listener began to handle an event, if it has
finished. -/
def StaleFree (tr : CacheTrace) (x : cacheMachine.Stamped) : Prop :=
  ∀ key r, x.event = ⟨.inl (.get key), some r⟩ →
    ∀ since i b older op, tr = since ++ (i, b) :: older → b.event.1 = .inr (.begin op) →
      op.isListener = true → Finished i op since → PutSince key r since

/-! ### What a call does to the epoch -/

section Steps

variable {w w' : World} {o : CacheCall} {r : o.Res}

theorem World.Step.epoch (h : World.Step w o r w')
    (hadv : advancing ⟨w, ⟨.inl o, r⟩⟩ = true) :
    w.epoch ≤ w'.epoch ∧ (o = .invalidateAll → w.epoch < w'.epoch) := by
  obtain rfl := h.world_eq
  cases o with
  | setEpoch epoch => exact ⟨of_decide_eq_true hadv, nofun⟩
  | invalidateAll =>
    have hsize : w.epoch + 1 < UInt64.size := of_decide_eq_true hadv
    have hnext : (w.cache.currentEpoch + 1).toNat = w.epoch + 1 := by exact Nat.mod_eq_of_lt hsize
    have hepoch : w.epoch < (w.cache.currentEpoch + 1).toNat := by omega
    exact ⟨hepoch.le, fun _ => hepoch⟩
  | get key' =>
    have heq : (w.cache.get key' w.instant).2.currentEpoch = w.cache.currentEpoch :=
      LocalCache.currentEpoch_get
    exact ⟨(congrArg UInt64.toNat heq).ge, nofun⟩
  | _ => exact ⟨le_rfl, nofun⟩

end Steps

/-! ### The invariant -/

/-- Since a moment at which the epoch was `epoch`, it has not fallen, an increment has made it
greater, and entries of other or later epochs have been put since. -/
structure Kept (epoch : ℕ) (since : CacheTrace) (w : World) : Prop where
  le : epoch ≤ w.epoch
  lt : (∃ y ∈ since, y.2.event.1 = .inl .invalidateAll) → epoch < w.epoch
  entries : ∀ key e, w.cache.entry key = some e →
    PutSince key e.data since ∨ e.epoch.toNat ≤ epoch

/-- No entry is of a later epoch, no caller has read a later one, and every moment of the past
had its epoch. -/
structure Epochs (w : World) (tr : CacheTrace) : Prop where
  entries : ∀ key e, w.cache.entry key = some e → e.epoch.toNat ≤ w.epoch
  loads : ∀ y ∈ tr, ∀ epoch, y.2.event = ⟨.inl .loadEpoch, epoch⟩ → epoch.toNat ≤ w.epoch
  moments : ∀ since older, tr = since ++ older → ∃ epoch, Kept epoch since w

section Invariant

variable {w w' : World} {i : ℕ} {tr since : CacheTrace} {x : cacheMachine.Stamped} {epoch : ℕ}

theorem PutSince.cons {key : RecordKey} {r : Record} (h : PutSince key r since)
    (y : ℕ × cacheMachine.Stamped) : PutSince key r (y :: since) := by
  obtain ⟨z, hz, hput⟩ := h
  exact ⟨z, mem_cons_of_mem _ hz, hput⟩

theorem Kept.step (h : Kept epoch since w) (hle : w.epoch ≤ w'.epoch)
    (hlt : x.event.1 = .inl .invalidateAll → w.epoch < w'.epoch)
    (hentry : ∀ key e, w'.cache.entry key = some e → w.cache.entry key = some e ∨
      ∃ cachedAt, x.event.1 = .inl (.put e.data e.epoch cachedAt) ∧ e.data.key = key) :
    Kept epoch ((i, x) :: since) w' := by
  refine ⟨h.le.trans hle, ?_, fun key e he => ?_⟩
  · rintro ⟨y, hy, hinvalidate⟩
    rcases mem_cons.1 hy with rfl | hy
    · exact h.le.trans_lt (hlt hinvalidate)
    · exact (h.lt ⟨y, hy, hinvalidate⟩).trans_le hle
  · rcases hentry key e he with hold | ⟨cachedAt, hput, hkey⟩
    · exact (h.entries key e hold).imp (fun hsince => hsince.cons _) id
    · exact .inl ⟨_, mem_cons_self, e.epoch, cachedAt, hput, hkey⟩

/-- One more call, of an operation that puts only what it has read the epoch for. -/
theorem Epochs.step (h : Epochs w tr) (hle : w.epoch ≤ w'.epoch)
    (hlt : x.event.1 = .inl .invalidateAll → w.epoch < w'.epoch)
    (hload : ∀ epoch, x.event = ⟨.inl .loadEpoch, epoch⟩ → epoch.toNat ≤ w'.epoch)
    (hentry : ∀ key e, w'.cache.entry key = some e → w.cache.entry key = some e ∨
      ∃ cachedAt, x.event.1 = .inl (.put e.data e.epoch cachedAt) ∧ e.data.key = key)
    (hput : ∀ data epoch cachedAt, x.event.1 = .inl (.put data epoch cachedAt) →
      ∃ y ∈ tr, y.2.event = ⟨.inl .loadEpoch, epoch⟩) : Epochs w' ((i, x) :: tr) := by
  have hents : ∀ key e, w'.cache.entry key = some e → e.epoch.toNat ≤ w'.epoch := by
    intro key e he
    rcases hentry key e he with hold | ⟨cachedAt, hcall, -⟩
    · exact (h.entries key e hold).trans hle
    · obtain ⟨y, hy, hepoch⟩ := hput _ _ _ hcall
      exact (h.loads y hy _ hepoch).trans hle
  refine ⟨hents, fun y hy epoch hepoch => ?_, fun since older htr => ?_⟩
  · rcases mem_cons.1 hy with rfl | hy
    · exact hload epoch hepoch
    · exact (h.loads y hy epoch hepoch).trans hle
  · cases since with
    | nil =>
      -- the moment is now
      refine ⟨w'.epoch, le_rfl, ?_, fun key e he => .inr (hents key e he)⟩
      rintro ⟨y, hy, -⟩
      cases hy
    | cons y since =>
      obtain ⟨rfl, hrest⟩ := cons.inj htr
      obtain ⟨epoch, hkept⟩ := h.moments since older hrest
      exact ⟨epoch, hkept.step hle hlt hentry⟩

end Invariant

/-- The invariant holds at every call of a run in which the epoch is not set back. -/
theorem epochs_of_run {c : cacheMachine.Config} {tr : CacheTrace} (hrun : CacheRaceRun c tr)
    (hadv : ∀ y ∈ tr, advancing y.2 = true) :
    Machine.EachCall (M := cacheMachine) (fun tr _ x => Epochs x.world tr) tr := by
  suffices hall : (∀ y ∈ tr, advancing y.2 = true) → Epochs c.world tr ∧
      Machine.EachCall (M := cacheMachine) (fun tr _ x => Epochs x.world tr) tr from
    (hall hadv).2
  apply Run.induction hrun cache_steps fun w tr => (∀ y ∈ tr, advancing y.2 = true) →
    Epochs w tr ∧ Machine.EachCall (M := cacheMachine) (fun tr _ x => Epochs x.world tr) tr
  · rintro w ⟨-, config, hcache⟩ -
    have hentry : ∀ key e, w.cache.entry key ≠ some e := by
      intro key e he
      rw [hcache, LocalCache.entry_new] at he
      cases he
    refine ⟨⟨fun key e he => absurd he (hentry key e), forall_mem_nil _, ?_⟩, trivial⟩
    intro since older htr
    obtain ⟨rfl, rfl⟩ := append_eq_nil_iff.1 htr.symm
    refine ⟨w.epoch, le_rfl, ?_, fun key e he => absurd he (hentry key e)⟩
    rintro ⟨y, hy, -⟩
    cases hy
  · rintro w w' tr ⟨d, rfl⟩ ih hguard
    obtain ⟨h, hcalls⟩ := ih hguard
    refine ⟨⟨h.entries, h.loads, fun since older htr => ?_⟩, hcalls⟩
    obtain ⟨epoch, hkept⟩ := h.moments since older htr
    exact ⟨epoch, hkept.le, hkept.lt, hkept.entries⟩
  · intro i tr o r w w' hcond hexec ih hguard
    obtain ⟨hfirst, hrest⟩ := forall_mem_cons.1 hguard
    obtain ⟨h, hcalls⟩ := ih hrest
    refine ⟨?_, h, hcalls⟩
    cases o with
    | inr m =>
      obtain rfl : w' = w := hexec
      refine h.step le_rfl nofun nofun
        (fun key e he => .inl he) fun data epoch cachedAt heq => by cases heq
    | inl o =>
      have hstep : World.Step w o r w' := hexec
      obtain ⟨hle, hlt⟩ := hstep.epoch hfirst
      obtain ⟨op, h', hcur, hsteps⟩ := hcond
      refine h.step hle (fun heq => hlt (Sum.inl.inj heq)) (fun epoch heq => ?_)
        (fun key e he => ?_) fun data epoch cachedAt heq => ?_
      · cases heq
        rw [hstep.res_eq]
        exact hle
      · exact (hstep.entry he).imp id fun ⟨cachedAt, hput, hkey⟩ =>
          ⟨cachedAt, congrArg Sum.inl hput, hkey⟩
      · cases heq
        -- the epoch of a put was loaded earlier in the same operation
        have hload := mem_of_mem_current hcur hsteps.2
        obtain ⟨y, hy, hev⟩ := exists_of_mem_eventsOf hload
        exact ⟨(i, y), hy, hev⟩

/-! ### Entries from before an event -/

/-- **If the epoch is not set back, no entry from before an event is found once the event has been
handled.** -/
theorem stale_never_returned {c : cacheMachine.Config} {tr : CacheTrace}
    (hrun : CacheRaceRun c tr) (hadvancing : ∀ y ∈ tr, advancing y.2 = true) :
    Machine.EachCall (M := cacheMachine) (fun tr _ x => StaleFree tr x) tr := by
  have hepochs := epochs_of_run hrun hadvancing
  have hcond := Run.conducted hrun cache_steps
  refine Machine.eachCall_of_suffix fun k x tr' hs => ?_
  rintro key r hx since i b older op rfl hbegin hlistener ⟨y, hy, rfl, result, hfin⟩
  -- the listener has incremented the epoch since it began
  have hinvalidated : ∃ y ∈ since, y.2.event.1 = .inl .invalidateAll := by
    obtain ⟨newer, rest, rfl⟩ := append_of_mem hy
    have hsuf : y :: (rest ++ (y.1, b) :: older) <:+ tr := by
      refine IsSuffix.trans ?_ ((suffix_cons _ _).trans hs)
      exact ⟨newer, by simp⟩
    have hdone := hcond.of_suffix hsuf
    rw [hfin] at hdone
    obtain ⟨h', hcur, hdone⟩ := hdone
    obtain ⟨w, o, u⟩ := b
    obtain rfl : o = .inr (.begin op) := hbegin
    rw [eventsOf_append, eventsOf_cons_self] at hcur
    have hmem := mem_of_mem_current_append hcur (hdone.invalidated hlistener)
    obtain ⟨z, hz, hev⟩ := exists_of_mem_eventsOf hmem
    refine ⟨(y.1, z), mem_append_right _ (mem_cons_of_mem _ hz), ?_⟩
    exact congrArg Sigma.fst hev
  obtain ⟨epoch, hkept⟩ := (hepochs.of_suffix hs).moments since _ rfl
  have hlt := hkept.lt hinvalidated
  -- what is found is of the present epoch
  obtain ⟨w', hexec⟩ := hrun.exec_of_mem (k, x) (hs.subset mem_cons_self)
  obtain ⟨w, event⟩ := x
  obtain rfl : event = ⟨.inl (.get key), some r⟩ := hx
  have hget : World.Step w (.get key) (some r) w' := hexec
  obtain ⟨e, he, rfl, hepoch⟩ := LocalCache.get_eq_some hget.res_eq.symm
  rcases hkept.entries key e he with hput | hle
  · exact hput
  · rw [hepoch] at hle
    exact absurd hlt hle.not_gt

/-- The epochs that the coordinator has announced, the newest first. -/
def announced : CacheTrace → List UInt64
  | [] => []
  | (_, x) :: tr =>
      match x.event.1 with
      | .inr (.begin (.epochChange epoch)) => epoch :: announced tr
      | _ => announced tr

namespace Sample

def failure : CacheOp := .serverFailure "a" noon

variable (o : CacheCall ⊕ Mark CacheOp CacheOutcome)

def beginsFailure : Bool :=
  match o with
  | .inr (.begin (.serverFailure serverId t)) => decide (serverId = "a") && decide (t = noon)
  | _ => false

def finishesFailure : Bool :=
  match o with
  | .inr (.finish (.serverFailure serverId t) _) => decide (serverId = "a") && decide (t = noon)
  | _ => false

def isPutOf (r : Record) (o : CacheCall ⊕ Mark CacheOp CacheOutcome) : Bool :=
  match o with
  | .inl (.put data _ _) => decide (data = r)
  | _ => false

theorem eq_of_beginsFailure {o : CacheCall ⊕ Mark CacheOp CacheOutcome}
    (h : beginsFailure o = true) : o = .inr (.begin failure) := by
  unfold beginsFailure at h
  split at h
  · obtain ⟨hsrv, ht⟩ := Bool.and_eq_true_iff.1 h
    rw [of_decide_eq_true hsrv, of_decide_eq_true ht]
    rfl
  · cases h

theorem eq_of_finishesFailure {o : CacheCall ⊕ Mark CacheOp CacheOutcome}
    (h : finishesFailure o = true) : ∃ r, o = .inr (.finish failure r) := by
  unfold finishesFailure at h
  split at h
  · obtain ⟨hsrv, ht⟩ := Bool.and_eq_true_iff.1 h
    rw [of_decide_eq_true hsrv, of_decide_eq_true ht]
    exact ⟨_, rfl⟩
  · cases h

/-- A server fails, a handle is created, and it is found in the cache. -/
def foundAgain : List cachePlayer.Move :=
  alone 2 failure 5 ++ (alone 0 (.method create noon) 6 ++ alone 0 (.method read noon) 3)

/-- A handle is created and found in the cache, in the epoch after a failure. -/
theorem stale_never_returned_found : ∃ c tr, CacheRaceRun c tr ∧
    (∃ y ∈ tr, isHit (.handle 1) (.handle (handle 0)) y.2.event = true) ∧
    Machine.EachCall (M := cacheMachine) (fun tr _ x => StaleFree tr x) tr := by
  obtain ⟨⟨c, tr⟩, hz, hhit, hadv⟩ : ∃ z,
      Machine.Player.playAll (cacheStart, []) foundAgain = some z ∧
      (∃ y ∈ z.2, isHit (.handle 1) (.handle (handle 0)) y.2.event = true) ∧
      ∀ y ∈ z.2, advancing y.2 = true := exists_of_any (by decide +kernel)
  have hrun : CacheRaceRun c tr := cacheRun_start.playAll hz
  exact ⟨c, tr, hrun, hhit, stale_never_returned hrun hadv⟩

/-- The coordinator announces epoch 2, and a server fails: the cache is at 4.  A handle is
created.  Another server fails, and epoch 3 is announced: the cache is at 4 again. -/
def setBack : List cachePlayer.Move :=
  alone 1 (.epochChange 2) 4 ++ (alone 2 failure 5 ++ (alone 0 (.method create noon) 6 ++
    (alone 2 failure 5 ++ (alone 1 (.epochChange 3) 4 ++
      [.start (0 : ℕ) (.method read noon), .call (0 : ℕ), .call (0 : ℕ)]))))

/-- The handle is found, after the failure listener has begun and finished, and is not put in
between. -/
def foundStale : CacheTrace → Bool
  | (_, x) :: rest =>
      isHit (.handle 1) (.handle (handle 0)) x.event &&
        ((rest.drop 9).head?.any (fun y => decide (y.1 = 2) && beginsFailure y.2.event.1) &&
          ((rest.take 9).any (fun y => decide (y.1 = 2) && finishesFailure y.2.event.1) &&
            !(rest.take 9).any (fun y => isPutOf (.handle (handle 0)) y.2.event.1)))
  | [] => false

/-- **The epoch is set back to that of an old entry**, although the announced epochs increase: an
entry is found that was put before a failure that has been handled. -/
theorem stale_returned : ∃ c i x tr, CacheRaceRun c ((i, x) :: tr) ∧
    announced ((i, x) :: tr) = [3, 2] ∧ ¬ StaleFree tr x := by
  obtain ⟨⟨c, tr⟩, hz, hannounced, hfound⟩ : ∃ z,
      Machine.Player.playAll (cacheStart, []) setBack = some z ∧ announced z.2 = [3, 2] ∧
      foundStale z.2 = true := exists_of_any (by decide +kernel)
  have hrun : CacheRaceRun c tr := cacheRun_start.playAll hz
  cases tr with
  | nil => cases hfound
  | cons y tr =>
    obtain ⟨hhit, hfound⟩ := Bool.and_eq_true_iff.1 hfound
    obtain ⟨hbegin, hfound⟩ := Bool.and_eq_true_iff.1 hfound
    obtain ⟨hfin, hput⟩ := Bool.and_eq_true_iff.1 hfound
    refine ⟨c, y.1, y.2, tr, hrun, hannounced, fun hfree => ?_⟩
    obtain ⟨⟨j, b⟩, hb, hbegin⟩ := (Option.any_eq_true _ _).1 hbegin
    obtain ⟨hj, hbegin⟩ := Bool.and_eq_true_iff.1 hbegin
    obtain rfl : j = 2 := of_decide_eq_true hj
    obtain ⟨older, hdrop⟩ := head?_eq_some_iff.1 hb
    have htr : tr = tr.take 9 ++ (2, b) :: older := by
      rw [← hdrop]
      exact (take_append_drop 9 tr).symm
    obtain ⟨z, hz, hfin⟩ := any_eq_true.1 hfin
    obtain ⟨hz2, hfin⟩ := Bool.and_eq_true_iff.1 hfin
    have hfinished : Finished 2 failure (tr.take 9) :=
      ⟨z, hz, of_decide_eq_true hz2, eq_of_finishesFailure hfin⟩
    obtain ⟨p, hp, epoch, cachedAt, hev, -⟩ := hfree _ _ (eq_of_isHit hhit) _ _ _ _ _ htr
      (eq_of_beginsFailure hbegin) rfl hfinished
    have hnot : isPutOf (.handle (handle 0)) p.2.event.1 = false := by
      simpa using any_eq_false.1 (Bool.not_eq_true' _ ▸ hput) p hp
    have hyes : isPutOf (.handle (handle 0)) p.2.event.1 = true := by
      rw [hev]
      simp [isPutOf]
    rw [hyes] at hnot
    cases hnot

end Sample

end RustSmb.Cached
