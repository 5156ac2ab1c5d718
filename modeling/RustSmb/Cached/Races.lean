import RustSmb.Cached.Concurrent

/-!
# Races for an entry of the cache

An operation reads or changes a record in the other store first, and then changes the cache.  If the
record is changed in between, what is put into the cache is out of date and stays there.

## Main results

* `reads_up_to_date` — **if records are changed under no open window, look-ups are up to date.**
* `Sample.older_returned` — a look-up puts what it has read before an update.

Source: `rustsmb-state-cached/src/lib.rs`.
-/

namespace RustSmb.Cached

open List Operations

/-! ### The condition and the property -/

/-- What the operation in progress is about to do to the cache. -/
def openWindow (h : List (Event (Sig CacheSig CacheOp CacheOutcome))) :
    Option (RecordKey × Option Record) :=
  (current h).bind fun c => window c.2

/-- The record that the call writes. -/
def writtenKey (o : CacheCall ⊕ Mark CacheOp CacheOutcome) : Option RecordKey :=
  match o with
  | .inl (.bulk m _) => m.writes
  | _ => none

/-- A record is changed in the other store only while no other caller has a window for it open. -/
def exclusive (tr : CacheTrace) (i : ℕ) (x : cacheMachine.Stamped) : Bool :=
  (writtenKey x.event.1).all fun key =>
    tr.all fun y => y.1 == i || (openWindow (eventsOf y.1 tr)).all fun opened => opened.1 != key

/-- At some moment since then the other store held the record. -/
def HeldSince (key : RecordKey) (found : Option Record) (since : CacheTrace) : Prop :=
  ∃ y ∈ since, (World.bulk y.2.world).record key = found

/-- A caller has finished an operation. -/
def Returned (i : ℕ) (since : CacheTrace) : Prop :=
  ∃ y ∈ since, y.1 = i ∧ ∃ op r, y.2.event.1 = .inr (.finish op r)

/-- A look-up returns what the other store had at some moment since a change that had returned
when it began. -/
def UpToDate (tr : CacheTrace) (i : ℕ) (x : cacheMachine.Stamped) : Prop :=
  ∀ op m v key, x.event.1 = .inr (.finish op (.ok (.value m v))) → m.reads = some key →
    ∀ newer b since j u older op', tr = newer ++ (i, b) :: (since ++ (j, u) :: older) →
      b.event.1 = .inr (.begin op') → writtenKey u.event.1 = some key → Returned j since →
        HeldSince key (m.found v) (newer ++ (i, b) :: since)

/-! ### What the other store returns -/

section Answers

variable {m : Method} {b : Bulk} {t : Reading} {key : RecordKey}

theorem exists_ok_of_writes (hwrites : m.writes = some key) : ∃ v, (b.answer t m).1 = .ok v := by
  cases m with
  | updateSession s => exact ⟨_, rfl⟩
  | store o =>
    cases o with
    | createSession | deleteSession | refreshSession | createTree | deleteTree | createHandle
    | updateHandle | deleteHandle => exact ⟨_, rfl⟩
    | _ => cases hwrites
  | _ => cases hwrites

theorem opens_of_writes (hwrites : m.writes = some key) :
    m.opens (b.answer t m).1 = some (key, m.stores) := by
  obtain ⟨v, hv⟩ := exists_ok_of_writes hwrites
  rw [hv]
  unfold Method.opens
  rw [hwrites]

theorem record_of_stores {r : Record} (hwrites : m.writes = some key)
    (hstores : m.stores = some r) : (b.answer t m).2.record key = some r := by
  cases m with
  | updateSession s =>
    cases hwrites
    cases hstores
    exact Bulk.lookupMap_insert
  | store o =>
    cases o with
    | createSession | createTree | createHandle | updateHandle =>
      cases hwrites
      cases hstores
      exact Bulk.lookupMap_insert
    | _ => cases hstores
  | _ => cases hstores

theorem found_of_reads {v : m.Value} (hreads : m.reads = some key)
    (hv : (b.answer t m).1 = .ok v) : m.found v = b.record key := by
  cases m with
  | store o =>
    cases o with
    | getSession | getTree | getHandle =>
      cases hreads
      cases hv
      rfl
    | _ => cases hreads
  | _ => cases hreads

theorem reads_of_found {v : m.Value} {r : Record} (hfound : m.found v = some r) :
    ∃ key, m.reads = some key := by
  cases m with
  | store o =>
    cases o with
    | getSession | getTree | getHandle => exact ⟨_, rfl⟩
    | _ => cases hfound
  | _ => cases hfound

/-- The record that is about to be cached is in the store when the window is opened. -/
theorem record_of_opens (hnamed : b.Named) {r : Record}
    (hopens : m.opens (b.answer t m).1 = some (key, some r)) :
    (b.answer t m).2.record key = some r := by
  cases hwrites : m.writes with
  | some key' =>
    rw [opens_of_writes hwrites] at hopens
    obtain ⟨rfl, hstores⟩ := Prod.mk.inj (Option.some.inj hopens)
    exact record_of_stores hwrites hstores
  | none =>
    cases hv : (b.answer t m).1 with
    | error e =>
      rw [hv] at hopens
      cases hopens
    | ok v =>
      rw [hv] at hopens
      unfold Method.opens at hopens
      rw [hwrites] at hopens
      obtain ⟨r', hfound, heq⟩ := Option.map_eq_some_iff.1 hopens
      cases heq
      obtain ⟨key', hreads⟩ := reads_of_found hfound
      have hrec : b.record key' = some r := by
        rw [← found_of_reads hreads hv]
        exact hfound
      have hne : m.writes ≠ some r.key := by
        rw [hwrites]
        exact nofun
      rw [Bulk.record_answer hne, hnamed.key_eq hrec]
      exact hrec

end Answers

/-! ### Windows in a run -/

section Windows

variable {h : List (Event (Sig CacheSig CacheOp CacheOutcome))} {op : CacheOp}
  {h' : List (Event CacheSig)}

theorem openWindow_of_current (hcur : current h = some (op, h')) :
    openWindow h = window h' := by
  unfold openWindow
  rw [hcur]
  rfl

theorem openWindow_call (hcur : current h = some (op, h')) (o : CacheCall)
    (r : o.Res) : openWindow (⟨.inl o, r⟩ :: h) = window (⟨o, r⟩ :: h') :=
  openWindow_of_current (current_call_eq_some.2 ⟨h', hcur, rfl⟩)

theorem exists_mem_of_openWindow {i : ℕ} {tr : CacheTrace} {opened : RecordKey × Option Record}
    (hopened : openWindow (eventsOf i tr) = some opened) : ∃ y ∈ tr, y.1 = i := by
  cases hevs : eventsOf i tr with
  | nil =>
    rw [hevs] at hopened
    cases hopened
  | cons e es =>
    have he : e ∈ eventsOf i tr := by
      rw [hevs]
      exact mem_cons_self
    obtain ⟨x, hx, -⟩ := exists_of_mem_eventsOf he
    exact ⟨(i, x), hx, rfl⟩

end Windows

theorem World.Step.bulk_eq {w w' : World} {o : CacheCall} {r : o.Res} (h : World.Step w o r w')
    (ho : ∀ m t, o ≠ .bulk m t) : w'.bulk = w.bulk := by
  obtain rfl := h.world_eq
  cases o with
  | bulk m t => exact absurd rfl (ho m t)
  | _ => rfl

/-! ### The invariant -/

/-- What a caller is about to cache is the record in the other store; and after a change whose
window is still open, or since its window was closed, the cached entry is one that the other
store has had since. -/
structure Coherent (w : World) (tr : CacheTrace) : Prop where
  named : w.bulk.Named
  pending : ∀ i key r, openWindow (eventsOf i tr) = some (key, some r) →
    w.bulk.record key = some r
  fresh : ∀ since j u older key, tr = since ++ (j, u) :: older →
    writtenKey u.event.1 = some key →
      (¬ Returned j since ∧ ∃ found, openWindow (eventsOf j tr) = some (key, found)) ∨
        ∀ e, w.cache.entry key = some e →
          w.bulk.record key = some e.data ∨ HeldSince key (some e.data) since

section Invariant

variable {w w' : World} {i j : ℕ} {tr since : CacheTrace} {key : RecordKey} {op : CacheOp}
  {h' : List (Event CacheSig)} {o : CacheCall} {r : o.Res}

theorem HeldSince.cons {found : Option Record} (h : HeldSince key found since)
    (y : ℕ × cacheMachine.Stamped) : HeldSince key found (y :: since) := by
  obtain ⟨z, hz, hheld⟩ := h
  exact ⟨z, mem_cons_of_mem _ hz, hheld⟩

/-- A caller that is not the one that has just made a call, or whose call is no end, has not
returned. -/
theorem not_returned_cons {x : cacheMachine.Stamped} (h : ¬ Returned j since)
    (hx : i ≠ j ∨ ∀ op r, x.event.1 ≠ .inr (.finish op r)) : ¬ Returned j ((i, x) :: since) := by
  rintro ⟨y, hy, rfl, op, r, hfin⟩
  rcases mem_cons.1 hy with rfl | hy
  · rcases hx with hne | hx
    · exact hne rfl
    · exact hx op r hfin
  · exact h ⟨y, hy, rfl, op, r, hfin⟩

section Pending

variable (h : Coherent w tr) (hstep : World.Step w o r w')
  (hcur : current (eventsOf i tr) = some (op, h'))

include h hstep hcur

/-- An entry after a call was there before, or it is the record in the other store. -/
theorem Coherent.entry (hsteps : CacheSteps h' o) {e : CacheEntry}
    (he : w'.cache.entry key = some e) :
    w.cache.entry key = some e ∨ w.bulk.record key = some e.data := by
  rcases hstep.entry he with hold | ⟨cachedAt, rfl, rfl⟩
  · exact .inl hold
  · exact .inr (h.pending i _ _ ((openWindow_of_current hcur).trans hsteps.1))

/-- After a call of a caller its window is still open, or the entry is the record in the other
store. -/
theorem Coherent.own (hsteps : CacheSteps h' o) {found : Option Record}
    (hopen : window h' = some (key, found)) :
    window (⟨o, r⟩ :: h') = some (key, found) ∨
      ∀ e, w'.cache.entry key = some e → w.bulk.record key = some e.data := by
  cases o with
  | bulk m t =>
    have hnone : window h' = none := hsteps
    rw [hnone] at hopen
    cases hopen
  | put data epoch cachedAt =>
    right
    intro e he
    obtain ⟨hdata, -⟩ := hsteps
    have hrec := h.pending i _ _ ((openWindow_of_current hcur).trans hdata)
    rw [hdata] at hopen
    cases hopen
    obtain rfl := hstep.world_eq
    have hself : (w.answer (.put data epoch cachedAt)).2.cache.entry data.key =
        some ⟨data, epoch, cachedAt, w.cache.config.defaultTtl⟩ := LocalCache.entry_put_self
    rw [hself] at he
    cases he
    exact hrec
  | remove key' =>
    right
    intro e he
    have hkey : window h' = some (key', none) := hsteps
    rw [hkey] at hopen
    cases hopen
    obtain rfl := hstep.world_eq
    have he : (w.cache.remove key).entry key = some e := he
    rw [LocalCache.entry_remove, if_pos rfl] at he
    cases he
  | _ => exact .inl hopen

theorem Coherent.pending_step (hexcl : exclusive tr i ⟨w, ⟨.inl o, r⟩⟩ = true) {k : ℕ}
    {data : Record}
    (hopen : openWindow (eventsOf k ((i, ⟨w, ⟨.inl o, r⟩⟩) :: tr)) = some (key, some data)) :
    w'.bulk.record key = some data := by
  by_cases hk : k = i
  · subst hk
    rw [eventsOf_cons_self, openWindow_call hcur] at hopen
    have hold : window h' = some (key, some data) → (∀ m t, o ≠ .bulk m t) →
        w'.bulk.record key = some data := by
      intro hopen ho
      rw [hstep.bulk_eq ho]
      exact h.pending k _ _ ((openWindow_of_current hcur).trans hopen)
    cases o with
    | bulk m t =>
      have hopens : m.opens r = some (key, some data) := hopen
      rw [hstep.res_eq] at hopens
      rw [hstep.world_eq]
      exact record_of_opens h.named hopens
    | put | remove => cases hopen
    | _ => exact hold hopen fun m t heq => by cases heq
  · rw [eventsOf_cons_ne hk] at hopen
    have hrec := h.pending k _ _ hopen
    cases o with
    | bulk m t =>
      rw [hstep.world_eq]
      have hne : m.writes ≠ some key := by
        intro hwrites
        -- the other caller has its window open
        obtain ⟨y, hy, hyk⟩ := exists_mem_of_openWindow hopen
        unfold exclusive writtenKey at hexcl
        dsimp only at hexcl
        rw [hwrites, Option.all_some] at hexcl
        have hoth := all_eq_true.1 hexcl y hy
        rw [hyk, hopen] at hoth
        simp [hk] at hoth
      exact (Bulk.record_answer hne t w.bulk).trans hrec
    | _ =>
      rw [hstep.bulk_eq fun m t heq => by cases heq]
      exact hrec

end Pending

theorem held_step {x : cacheMachine.Stamped} {found : Option Record}
    (h : (World.bulk x.world).record key = found ∨ HeldSince key found since) :
    HeldSince key found ((i, x) :: since) := by
  rcases h with hnow | hsince
  · exact ⟨_, mem_cons_self, hnow⟩
  · exact hsince.cons _

theorem Coherent.mark (h : Coherent w tr) {m : Mark CacheOp CacheOutcome} {u : Unit}
    (hm : openWindow (eventsOf i tr) = none) : Coherent w ((i, ⟨w, ⟨.inr m, u⟩⟩) :: tr) := by
  have hwin : ∀ k, openWindow (eventsOf k ((i, ⟨w, ⟨.inr m, u⟩⟩) :: tr)) =
      openWindow (eventsOf k tr) := by
    intro k
    by_cases hk : k = i
    · subst hk
      rw [eventsOf_cons_self, hm]
      cases m <;> rfl
    · rw [eventsOf_cons_ne hk]
  refine ⟨h.named, fun k key r hopen => h.pending k key r ((hwin k).symm.trans hopen), ?_⟩
  intro since j x older key htr hwritten
  cases since with
  | nil =>
    cases htr
    cases hwritten
  | cons y since =>
    obtain ⟨rfl, hrest⟩ := List.cons.inj htr
    rcases h.fresh since j x older key hrest hwritten with ⟨hnot, found, hopen⟩ | hheld
    · have hij : i ≠ j := by
        rintro rfl
        rw [hm] at hopen
        cases hopen
      exact .inl ⟨not_returned_cons hnot (.inl hij), found, (hwin j).trans hopen⟩
    · exact .inr fun e he => .inr (held_step (hheld e he))

theorem Coherent.call (h : Coherent w tr) (hstep : World.Step w o r w')
    (hcur : current (eventsOf i tr) = some (op, h')) (hsteps : CacheSteps h' o)
    (hexcl : exclusive tr i ⟨w, ⟨.inl o, r⟩⟩ = true) :
    Coherent w' ((i, ⟨w, ⟨.inl o, r⟩⟩) :: tr) := by
  refine ⟨?_, fun k key data hopen => h.pending_step hstep hcur hexcl hopen, ?_⟩
  · rw [hstep.world_eq]
    cases o with
    | bulk m t => exact h.named.answer t m
    | _ => exact h.named
  intro since j x older key htr hwritten
  cases since with
  | nil =>
    -- the record is changed just now
    obtain ⟨heq, rfl⟩ := List.cons.inj htr
    cases heq
    refine .inl ⟨fun ⟨y, hy, _⟩ => absurd hy not_mem_nil, ?_⟩
    cases o with
    | bulk m t =>
      refine ⟨m.stores, ?_⟩
      rw [eventsOf_cons_self, openWindow_call hcur]
      have hopens : m.opens r = some (key, m.stores) := by
        rw [hstep.res_eq]
        exact opens_of_writes hwritten
      exact hopens
    | _ => cases hwritten
  | cons y since =>
    obtain ⟨rfl, hrest⟩ := List.cons.inj htr
    rcases h.fresh since j x older key hrest hwritten with ⟨hnot, found, hopen⟩ | hheld
    · by_cases hij : i = j
      · subst hij
        have hopen := (openWindow_of_current hcur).symm.trans hopen
        rcases h.own hstep hcur hsteps hopen with hstill | hnow
        · refine .inl ⟨not_returned_cons hnot (.inr fun op r heq => by cases heq), found, ?_⟩
          rw [eventsOf_cons_self, openWindow_call hcur]
          exact hstill
        · exact .inr fun e he => .inr (held_step (.inl (hnow e he)))
      · refine .inl ⟨not_returned_cons hnot (.inl hij), found, ?_⟩
        rw [eventsOf_cons_ne fun heq => hij heq.symm]
        exact hopen
    · refine .inr fun e he => .inr (held_step ?_)
      rcases h.entry hstep hcur hsteps he with hold | hnow
      · exact hheld e hold
      · exact .inl hnow

end Invariant

/-- The invariant holds at every call of a run in which records are changed under no open window. -/
theorem coherent_of_run {c : cacheMachine.Config} {tr : CacheTrace} (hrun : CacheRaceRun c tr)
    (hexcl : Machine.EachCall (M := cacheMachine) (fun tr i x => exclusive tr i x = true) tr) :
    Machine.EachCall (M := cacheMachine) (fun tr _ x => Coherent x.world tr) tr := by
  suffices hall : Machine.EachCall (fun tr i x => exclusive tr i x = true) tr →
      Coherent c.world tr ∧
        Machine.EachCall (M := cacheMachine) (fun tr _ x => Coherent x.world tr) tr from
    (hall hexcl).2
  apply Run.induction hrun cache_steps fun w tr =>
    Machine.EachCall (fun tr i x => exclusive tr i x = true) tr →
      Coherent w tr ∧ Machine.EachCall (M := cacheMachine) (fun tr _ x => Coherent x.world tr) tr
  · rintro w ⟨hnamed, -⟩ -
    refine ⟨⟨hnamed, ?_, ?_⟩, trivial⟩
    · intro i key r hopen
      cases hopen
    · intro since j u older key htr
      cases since <;> cases htr
  · rintro w w' tr ⟨d, rfl⟩ ih hguard
    obtain ⟨h, hcalls⟩ := ih hguard
    exact ⟨⟨h.named, h.pending, h.fresh⟩, hcalls⟩
  · intro i tr o r w w' hcond hexec ih hguard
    obtain ⟨hfirst, hrest⟩ := hguard
    obtain ⟨h, hcalls⟩ := ih hrest
    refine ⟨?_, h, hcalls⟩
    cases o with
    | inl o =>
      obtain ⟨op, h', hcur, hsteps⟩ := hcond
      exact h.call hexec hcur hsteps hfirst
    | inr m =>
      obtain rfl : w' = w := hexec
      refine h.mark ?_
      cases m with
      | begin op =>
        -- between operations nothing is about to be put
        have hnone : current (eventsOf i tr) = none := hcond
        unfold openWindow
        rw [hnone]
        rfl
      | finish op result =>
        obtain ⟨h', hcur, hdone⟩ := hcond
        rw [openWindow_of_current hcur]
        exact hdone.closed

/-! ### Look-ups -/

/-- **If records are changed under no open window, look-ups are up to date.** -/
theorem reads_up_to_date {c : cacheMachine.Config} {tr : CacheTrace} (hrun : CacheRaceRun c tr)
    (hexclusive : Machine.EachCall (M := cacheMachine) (fun tr i x => exclusive tr i x = true) tr) :
    Machine.EachCall (M := cacheMachine) (fun tr i x => UpToDate tr i x) tr := by
  have hcoherent := coherent_of_run hrun hexclusive
  have hcond := Run.conducted hrun cache_steps
  refine Machine.eachCall_of_suffix fun i x tr' hs => ?_
  intro op m v key hfin hreads newer b since j u older op' htr hbegin hwritten hreturned
  have hdone := hcond.of_suffix hs
  rw [hfin] at hdone
  obtain ⟨h', hcur, hdone⟩ := hdone
  -- what the look-up has done came after its beginning
  have hafter : ∀ (o : CacheCall) (r : o.Res), (⟨o, r⟩ : Event CacheSig) ∈ h' →
      ∃ z w', (i, z) ∈ newer ∧ World.Step z.world o r w' := by
    intro o r he
    obtain ⟨w, o', u'⟩ := b
    obtain rfl : o' = .inr (.begin op') := hbegin
    rw [htr, eventsOf_append, eventsOf_cons_self] at hcur
    have hmem := mem_of_mem_current_append hcur he
    obtain ⟨z, hz, hev⟩ := exists_of_mem_eventsOf hmem
    have hz' : (i, z) ∈ tr' := by
      rw [htr]
      exact mem_append_left _ hz
    obtain ⟨w', hexec⟩ := hrun.exec_of_mem (i, z) (hs.subset (mem_cons_of_mem _ hz'))
    rw [hev] at hexec
    exact ⟨z, w', hz, hexec⟩
  rcases hdone.served m v key rfl hreads with ⟨data, hdata, hmem⟩ | ⟨m', t, v', hreads', hv', hmem⟩
  · -- the record was found in the cache
    obtain ⟨z, w', hz, hstep⟩ := hafter _ _ hmem
    obtain ⟨e, he, rfl, -⟩ := LocalCache.get_eq_some hstep.res_eq.symm
    obtain ⟨newest, rest, rfl⟩ := append_of_mem hz
    have hsuf : (i, z) :: ((rest ++ (i, b) :: since) ++ (j, u) :: older) <:+ tr := by
      refine List.IsSuffix.trans ?_ ((suffix_cons _ _).trans hs)
      exact ⟨newest, by simp [htr]⟩
    rw [hdata]
    rcases (hcoherent.of_suffix hsuf).fresh _ j u older key rfl hwritten with ⟨hnot, -⟩ | hheld
    · obtain ⟨y, hy, hyj⟩ := hreturned
      exact absurd ⟨y, mem_append_right _ (mem_cons_of_mem _ hy), hyj⟩ hnot
    · obtain ⟨y, hy, hrec⟩ := held_step (hheld e he)
      refine ⟨y, ?_, hrec⟩
      rw [append_assoc]
      exact mem_append_right _ hy
  · -- the record was read from the other store
    obtain ⟨z, w', hz, hstep⟩ := hafter _ _ hmem
    refine ⟨_, mem_append_left _ hz, ?_⟩
    rw [← hv']
    exact (found_of_reads hreads' hstep.res_eq.symm).symm

namespace Sample

def returnsHandle (found : Option HandleState)
    (o : CacheCall ⊕ Mark CacheOp CacheOutcome) : Bool :=
  match o with
  | .inr (.finish _ (.ok (.value (.store (.getHandle id)) v))) =>
      decide (id = 1) && decide ((show Option HandleState from v) = found)
  | _ => false

theorem eq_of_returnsHandle {found : Option HandleState}
    {o : CacheCall ⊕ Mark CacheOp CacheOutcome} (h : returnsHandle found o = true) :
    ∃ op, o = .inr (.finish op (.ok (.value read found))) := by
  unfold returnsHandle at h
  split at h
  · obtain ⟨hid, hfound⟩ := Bool.and_eq_true_iff.1 h
    obtain rfl := of_decide_eq_true hid
    have hfound := of_decide_eq_true hfound
    subst hfound
    exact ⟨_, rfl⟩
  · cases h

def isBegin (o : CacheCall ⊕ Mark CacheOp CacheOutcome) : Bool :=
  match o with
  | .inr (.begin _) => true
  | _ => false

def isFinish (o : CacheCall ⊕ Mark CacheOp CacheOutcome) : Bool :=
  match o with
  | .inr (.finish _ _) => true
  | _ => false

variable {o : CacheCall ⊕ Mark CacheOp CacheOutcome}

theorem eq_of_isBegin (h : isBegin o = true) : ∃ op, o = .inr (.begin op) := by
  unfold isBegin at h
  split at h
  · exact ⟨_, rfl⟩
  · cases h

theorem eq_of_isFinish (h : isFinish o = true) : ∃ op r, o = .inr (.finish op r) := by
  unfold isFinish at h
  split at h
  · exact ⟨_, _, rfl⟩
  · cases h

/-- A handle is created and updated, and then looked up. -/
def inTurn : List cachePlayer.Move :=
  alone 0 (.method create noon) 6 ++ (alone 0 (.method update noon) 6 ++
    alone 1 (.method read noon) 3)

/-- One operation after the other: the handle is found as updated. -/
theorem reads_up_to_date_in_turn : ∃ c tr, CacheRaceRun c tr ∧
    (∃ y ∈ tr, returnsHandle (some (handle 1)) y.2.event.1 = true) ∧
    Machine.EachCall (M := cacheMachine) (fun tr i x => UpToDate tr i x) tr := by
  obtain ⟨⟨c, tr⟩, hz, hfound, hexcl⟩ : ∃ z,
      Machine.Player.playAll (cacheStart, []) inTurn = some z ∧
      (∃ y ∈ z.2, returnsHandle (some (handle 1)) y.2.event.1 = true) ∧
      Machine.EachCall (fun tr i x => exclusive tr i x = true) z.2 :=
    exists_of_any (by decide +kernel)
  have hrun : CacheRaceRun c tr := cacheRun_start.playAll hz
  exact ⟨c, tr, hrun, hfound, reads_up_to_date hrun hexcl⟩

/-- A handle is created, and its entry expires.  A caller reads it from the other store; before
it is cached, it is updated.  Then it is looked up once more. -/
def overtaken : List cachePlayer.Move :=
  alone 0 (.method create noon) 6 ++ ([.env (61 : ℕ), .start (1 : ℕ) (.method read noon),
    .call (1 : ℕ), .call (1 : ℕ), .call (1 : ℕ)] ++ (alone 0 (.method update noon) 6 ++
      ([.call (1 : ℕ), .call (1 : ℕ), .call (1 : ℕ), .call (1 : ℕ), .finish (1 : ℕ)] ++
        alone 0 (.method read noon) 3)))

/-- The older handle is returned by a look-up that began after the update had returned. -/
def returnsOlder : CacheTrace → Bool
  | (i, x) :: tr =>
      (decide (i = 0) && returnsHandle (some (handle 0)) x.event.1) &&
        ((tr[1]?.any fun y => decide (y.1 = 0) && isBegin y.2.event.1) &&
          ((tr[10]?.any fun y => decide (y.1 = 0) &&
              decide (writtenKey y.2.event.1 = some (.handle 1))) &&
            (((tr.drop 2).take 8).any (fun y => decide (y.1 = 0) && isFinish y.2.event.1) &&
              List.all (tr.take 1 ++ (tr[1]?.toList ++ (tr.drop 2).take 8)) fun y => decide
                ((World.bulk y.2.world).record (.handle 1) ≠ some (Record.handle (handle 0))))))
  | [] => false

theorem eq_append_of_getElem? {α : Type} {l : List α} {a b : α} (ha : l[1]? = some a)
    (hb : l[10]? = some b) : l = l.take 1 ++ a :: ((l.drop 2).take 8 ++ b :: l.drop 11) := by
  obtain ⟨h1, rfl⟩ := List.getElem?_eq_some_iff.1 ha
  obtain ⟨h10, rfl⟩ := List.getElem?_eq_some_iff.1 hb
  have hsec : l.drop 2 = (l.drop 2).take 8 ++ l[10] :: l.drop 11 := by
    conv_lhs => rw [← take_append_drop 8 (l.drop 2), drop_drop]
    rw [drop_eq_getElem_cons h10]
  rw [← hsec, ← drop_eq_getElem_cons h1]
  exact (take_append_drop 1 l).symm

/-- **A look-up caches what it has read before an update**, and the older handle is returned
afterwards. -/
theorem older_returned : ∃ c i x tr, CacheRaceRun c ((i, x) :: tr) ∧ ¬ UpToDate tr i x := by
  obtain ⟨⟨c, tr⟩, hz, hchk⟩ : ∃ z, Machine.Player.playAll (cacheStart, []) overtaken = some z ∧
      returnsOlder z.2 = true := exists_of_any (by decide +kernel)
  have hrun : CacheRaceRun c tr := cacheRun_start.playAll hz
  cases tr with
  | nil => cases hchk
  | cons y tr =>
    obtain ⟨hret, hchk⟩ := Bool.and_eq_true_iff.1 hchk
    obtain ⟨hbegin, hchk⟩ := Bool.and_eq_true_iff.1 hchk
    obtain ⟨hupd, hchk⟩ := Bool.and_eq_true_iff.1 hchk
    obtain ⟨hfin, holder⟩ := Bool.and_eq_true_iff.1 hchk
    obtain ⟨i, x⟩ := y
    refine ⟨c, i, x, tr, hrun, fun hup => ?_⟩
    obtain ⟨hi, hret⟩ := Bool.and_eq_true_iff.1 hret
    obtain rfl : i = 0 := of_decide_eq_true hi
    obtain ⟨op, hret⟩ := eq_of_returnsHandle hret
    obtain ⟨⟨k, b⟩, hb, hbegin⟩ := (Option.any_eq_true _ _).1 hbegin
    obtain ⟨hk, hbegin⟩ := Bool.and_eq_true_iff.1 hbegin
    obtain rfl : k = 0 := of_decide_eq_true hk
    obtain ⟨op', hbegin⟩ := eq_of_isBegin hbegin
    obtain ⟨⟨j, u⟩, hu, hupd⟩ := (Option.any_eq_true _ _).1 hupd
    obtain ⟨hj, hwritten⟩ := Bool.and_eq_true_iff.1 hupd
    obtain rfl : j = 0 := of_decide_eq_true hj
    obtain ⟨z, hz', hfin⟩ := any_eq_true.1 hfin
    obtain ⟨hz0, hfin⟩ := Bool.and_eq_true_iff.1 hfin
    have hreturned : Returned 0 ((tr.drop 2).take 8) :=
      ⟨z, hz', of_decide_eq_true hz0, eq_of_isFinish hfin⟩
    obtain ⟨p, hp, hrec⟩ := hup op read _ _ hret rfl _ b _ 0 u _ op'
      (eq_append_of_getElem? hb hu) hbegin (of_decide_eq_true hwritten) hreturned
    rw [hb] at holder
    exact of_decide_eq_true (all_eq_true.1 holder p hp) hrec

end Sample

end RustSmb.Cached
