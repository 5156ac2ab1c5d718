import RustSmb.Cached.Store
import RustSmb.Lib.Drift

/-!
# Operations one after another

As long as operations follow one another, the cache cannot be noticed: whatever is evicted, however
much time passes and whatever the listeners do to the epoch, an operation returns what the store in
memory would return.  Between its two parts an operation leaves at most the entry of the record that
it changes out of date.

## Main results

* `program_meets` — **an operation returns what the store in memory returns.**
* `cached_agrees` — the same after every sequence of operations.
-/

namespace RustSmb.Cached

open World Proc

/-- What may happen between two calls: entries are evicted, time passes, the epoch changes. -/
structure World.Drift (w w' : World) : Prop where
  bulk : w'.bulk = w.bulk
  entry : ∀ key e, w'.cache.entry key = some e → w.cache.entry key = some e

namespace World

variable {w w' : World}

theorem drift_refl (w : World) : w.Drift w := ⟨rfl, fun _ _ h => h⟩

theorem drift_trans (w₁ w₂ w₃ : World) (h : w₁.Drift w₂) (h' : w₂.Drift w₃) : w₁.Drift w₃ :=
  ⟨h'.bulk.trans h.bulk, fun key e he => h.entry key e (h'.entry key e he)⟩

theorem exec_run {α : Type} (p : Prog CacheSig α) (w : World) :
    p.Exec Step Drift w (p.run answer w).1 (p.run answer w).2 :=
  Prog.exec_run drift_refl (fun _ _ => rfl) p w

theorem drift_remove (key : RecordKey) : w.Drift { w with cache := w.cache.remove key } := by
  refine ⟨rfl, fun key' e he => ?_⟩
  rw [LocalCache.entry_remove] at he
  split at he
  · cases he
  · exact he

theorem drift_epochChange (epoch : UInt64) :
    w.Drift { w with cache := (w.cache.setEpoch epoch).invalidateAll } := ⟨rfl, fun _ _ he => he⟩

theorem drift_instant (instant : ℕ) : w.Drift { w with instant := instant } :=
  ⟨rfl, fun _ _ he => he⟩

end World

/-- What the world can be after a sequence of operations, and what the store in memory would be. -/
inductive CachedRun (hasCache : Bool) : World → Bulk → Prop where
  | start (config : CacheConfig) (instant : ℕ) :
      CachedRun hasCache ⟨.new config, .new, instant⟩ .new
  | op {w w' : World} {b : Bulk} (m : Method) (t : Reading) {r : Except StateError m.Value × Unit}
      (hrun : CachedRun hasCache w b)
      (hexec : Prog.Exec Step Drift (program hasCache m t ()) w r w') :
      CachedRun hasCache w' (b.answer t m).2

/-- The other store is `b`, and the cache agrees with it, but for one entry that may be out of
date. -/
structure Agree (hasCache : Bool) (stale : Option RecordKey) (b : Bulk) (w : World) : Prop where
  bulk : w.bulk = b
  named : b.Named
  cached : hasCache = true → ∀ key e, stale ≠ some key → w.cache.entry key = some e →
    b.record key = some e.data

namespace Agree

variable {hasCache : Bool} {stale : Option RecordKey} {b : Bulk} {w w' : World} {key : RecordKey}

theorem start (config : CacheConfig) (instant : ℕ) :
    Agree hasCache none .new ⟨.new config, .new, instant⟩ := by
  refine ⟨rfl, Bulk.named_new, fun _ key e _ he => ?_⟩
  cases he

theorem drift (h : Agree hasCache stale b w) (hdrift : w.Drift w') : Agree hasCache stale b w' :=
  ⟨hdrift.bulk.trans h.bulk, h.named,
    fun hc key e hkey he => h.cached hc key e hkey (hdrift.entry key e he)⟩

theorem weaken (h : Agree hasCache none b w) : Agree hasCache stale b w :=
  ⟨h.bulk, h.named, fun hc key e _ he => h.cached hc key e nofun he⟩

theorem of_no_cache (h : Agree false stale b w) : Agree false none b w :=
  ⟨h.bulk, h.named, nofun⟩

/-- After a method of the other store, the entry of the record it changes is out of date. -/
theorem answer (h : Agree hasCache none b w) (t : Reading) (m : Method) :
    Agree hasCache m.writes (b.answer t m).2 { w with bulk := (w.bulk.answer t m).2 } := by
  refine ⟨by rw [h.bulk], h.named.answer t m, fun hc key e hkey he => ?_⟩
  rw [Bulk.record_answer hkey]
  exact h.cached hc key e nofun he

theorem put (h : Agree hasCache (some key) b w) {e : CacheEntry} (hkey : e.data.key = key)
    (hrec : b.record key = some e.data) :
    Agree hasCache none b { w with cache := w.cache.put e } := by
  refine ⟨h.bulk, h.named, fun hc key' e' _ he' => ?_⟩
  rcases LocalCache.entry_put he' with ⟨rfl, rfl⟩ | ⟨hne, he'⟩
  · rw [hkey]
    exact hrec
  · refine h.cached hc key' e' (fun heq => hne ?_) he'
    rw [hkey]
    exact (Option.some.inj heq).symm

theorem remove (h : Agree hasCache (some key) b w) :
    Agree hasCache none b { w with cache := w.cache.remove key } := by
  refine ⟨h.bulk, h.named, fun hc key' e' _ he' => ?_⟩
  rw [LocalCache.entry_remove] at he'
  split at he'
  · cases he'
  · next hne => exact h.cached hc key' e' (fun heq => hne (Option.some.inj heq).symm) he'

theorem get (h : Agree hasCache stale b w) (key : RecordKey) :
    Agree hasCache stale b { w with cache := (w.cache.get key w.instant).2 } :=
  ⟨h.bulk, h.named, fun hc key' e hkey he => h.cached hc key' e hkey (LocalCache.entry_get he)⟩

end Agree

section Methods

variable {hasCache : Bool} {b : Bulk} {w : World} {key : RecordKey} {m : Method} {t : Reading}

/-- The postcondition of a method: what it returns, and that the cache agrees with the store. -/
def Post (hasCache : Bool) (stale : Option RecordKey) (b : Bulk) {α : Type}
    (r : Except StateError α) : Except StateError α → Unit → World → Prop :=
  fun r' _ w' => r' = r ∧ Agree hasCache stale b w'

theorem bulk_meets (h : Agree hasCache none b w) :
    Meets Step Drift (bulk m t)
      (Post hasCache m.writes (b.answer t m).2 (b.answer t m).1) () w := by
  refine meets_bind drift_trans drift_refl
    (Q := fun r _ w' => r = .ok (b.answer t m).1 ∧ Agree hasCache m.writes (b.answer t m).2 w')
    (meets_perform fun w₁ r w₂ w₃ hdrift hstep hdrift' => ?_) (fun r s' w' hr => ?_) ?_
  · have hagree := h.drift hdrift
    cases hstep
    rw [← hagree.bulk]
    exact ⟨rfl, hagree.bulk ▸ (hagree.answer t m).drift hdrift'⟩
  · obtain ⟨hr, hagree⟩ := hr
    cases hr
    exact meets_ofExcept fun w'' hdrift => ⟨rfl, hagree.drift hdrift⟩
  · rintro e s' w' w'' ⟨he, -⟩ -
    cases he

theorem putRecord_meets {data : Record} (h : Agree hasCache (some data.key) b w)
    (hrec : b.record data.key = some data) :
    Meets Step Drift (putRecord data) (Post hasCache none b (.ok ())) () w := by
  refine meets_bind drift_trans drift_refl
    (Q := fun r _ w' => (∃ epoch, r = .ok epoch) ∧ Agree hasCache (some data.key) b w')
    (meets_perform fun w₁ r w₂ w₃ hdrift hstep hdrift' => ?_) (fun epoch s' w' hr => ?_) ?_
  · cases hstep
    exact ⟨⟨_, rfl⟩, (h.drift hdrift).drift hdrift'⟩
  · refine meets_bind drift_trans drift_refl
      (Q := fun r _ w' => (∃ now, r = .ok now) ∧ Agree hasCache (some data.key) b w')
      (meets_perform fun w₁ r w₂ w₃ hdrift hstep hdrift' => ?_) (fun now s'' w'' hr' => ?_) ?_
    · cases hstep
      exact ⟨⟨_, rfl⟩, (hr.2.drift hdrift).drift hdrift'⟩
    · refine meets_perform fun w₁ r w₂ w₃ hdrift hstep hdrift' => ?_
      cases hstep
      exact ⟨rfl, ((hr'.2.drift hdrift).put rfl hrec).drift hdrift'⟩
    · rintro e s'' w'' w₃ ⟨⟨_, he⟩, -⟩ -
      cases he
  · rintro e s' w' w'' ⟨⟨_, he⟩, -⟩ -
    cases he

theorem when_meets {x : CachedProc Unit} {stale : Option RecordKey}
    (h : Agree hasCache stale b w)
    (hx : hasCache = true → Meets Step Drift x (Post hasCache none b (.ok ())) () w) :
    Meets Step Drift (when hasCache x) (Post hasCache none b (.ok ())) () w := by
  cases hasCache with
  | true => exact hx rfl
  | false => exact meets_pure fun w' hdrift => ⟨rfl, h.of_no_cache.drift hdrift⟩

section Agreeing

variable (h : Agree hasCache none b w)

include h

theorem through_meets {x : CachedProc Unit} {v : m.Value} (hans : (b.answer t m).1 = .ok v)
    (hx : ∀ w', Agree hasCache m.writes (b.answer t m).2 w' → hasCache = true →
      Meets Step Drift x (Post hasCache none (b.answer t m).2 (.ok ())) () w') :
    Meets Step Drift (do let r ← bulk m t; when hasCache x; pure r)
      (Post hasCache none (b.answer t m).2 (b.answer t m).1) () w := by
  rw [hans]
  refine meets_bind drift_trans drift_refl (bulk_meets h) (fun r s' w' hr => ?_) ?_
  · obtain ⟨hr, hagree⟩ := hr
    rw [hans] at hr
    cases hr
    refine meets_bind drift_trans drift_refl (when_meets hagree (hx w' hagree))
      (fun u s'' w'' hu => meets_pure fun w₃ hdrift => ⟨rfl, hu.2.drift hdrift⟩) ?_
    rintro e s'' w'' w₃ ⟨he, -⟩ -
    cases he
  · rintro e s' w' w'' ⟨he, -⟩ -
    rw [hans] at he
    cases he

theorem writeThrough_meets {data : Record} {v : m.Value} (hans : (b.answer t m).1 = .ok v)
    (hwrites : m.writes = some data.key) (hrec : (b.answer t m).2.record data.key = some data) :
    Meets Step Drift (writeThrough hasCache m t data)
      (Post hasCache none (b.answer t m).2 (b.answer t m).1) () w :=
  through_meets h hans fun _ hagree _ => putRecord_meets (hwrites ▸ hagree) hrec

theorem removeThrough_meets {v : m.Value} (hans : (b.answer t m).1 = .ok v)
    (hwrites : m.writes = some key) :
    Meets Step Drift (removeThrough hasCache m t key)
      (Post hasCache none (b.answer t m).2 (b.answer t m).1) () w := by
  refine through_meets h hans fun w' hagree _ => ?_
  refine meets_perform fun w₁ r w₂ w₃ hdrift hstep hdrift' => ?_
  cases hstep
  rw [hwrites] at hagree
  exact ⟨rfl, (hagree.drift hdrift).remove.drift hdrift'⟩

theorem lookUp_meets {α : Type} {unwrap : Record → Option α} :
    Meets Step Drift (lookUp hasCache key unwrap)
      (fun r _ w' => (r = .ok none ∨ ∃ data, r = .ok (unwrap data) ∧ b.record key = some data) ∧
        Agree hasCache none b w') () w := by
  unfold lookUp
  cases hasCache with
  | false => exact meets_pure fun w' hdrift => ⟨.inl rfl, h.drift hdrift⟩
  | true =>
    refine meets_bind drift_trans drift_refl
      (Q := fun r _ w' => (∃ found, r = .ok found ∧ ∀ data, found = some data →
        b.record key = some data) ∧ Agree true none b w')
      (meets_perform fun w₁ r w₂ w₃ hdrift hstep hdrift' => ?_) (fun found s' w' hr => ?_) ?_
    · have hagree := h.drift hdrift
      cases hstep
      refine ⟨⟨_, rfl, fun data hdata => ?_⟩, (hagree.get key).drift hdrift'⟩
      obtain ⟨e, he, rfl, -⟩ := LocalCache.get_eq_some hdata
      exact hagree.cached rfl key e nofun he
    · obtain ⟨⟨found, hfound, hdata⟩, hagree⟩ := hr
      cases hfound
      refine meets_pure fun w'' hdrift => ⟨?_, hagree.drift hdrift⟩
      cases found with
      | none => exact .inl rfl
      | some data => exact .inr ⟨data, rfl, hdata data rfl⟩
    · rintro e s' w' w'' ⟨⟨_, he, -⟩, -⟩ -
      cases he

/-- To look a record up returns what the other store has, if that is the record under the key. -/
theorem readThrough_meets {α : Type} {wrap : α → Record} {unwrap : Record → Option α}
    {read : CachedProc (Option α)} {found : Option α}
    (hunwrap : ∀ data a, unwrap data = some a → data = wrap a) (hwrap : Function.Injective wrap)
    (hfound : b.record key = found.map wrap)
    (hread : ∀ w', Agree hasCache none b w' →
      Meets Step Drift read (Post hasCache none b (.ok found)) () w') :
    Meets Step Drift (readThrough hasCache key wrap unwrap read)
      (Post hasCache none b (.ok found)) () w := by
  refine meets_bind drift_trans drift_refl (lookUp_meets h) (fun hit s' w' hr => ?_) ?_
  · obtain ⟨hhit, hagree⟩ := hr
    cases hit with
    | some a =>
      -- a hit: the entry holds the record of the store
      have ha : found = some a := by
        rcases hhit with hhit | ⟨data, hhit, hdata⟩
        · cases hhit
        · have heq := hunwrap data a (Except.ok.inj hhit).symm
          rw [hfound, heq] at hdata
          obtain ⟨a', rfl, ha'⟩ := Option.map_eq_some_iff.1 hdata
          rw [hwrap ha']
      subst ha
      exact meets_pure fun w'' hdrift => ⟨rfl, hagree.drift hdrift⟩
    | none =>
      refine meets_bind drift_trans drift_refl (hread w' hagree) (fun r s'' w'' hr => ?_) ?_
      · obtain ⟨hr, hagree⟩ := hr
        cases hr
        cases found with
        | none => exact meets_pure fun w₃ hdrift => ⟨rfl, hagree.drift hdrift⟩
        | some a =>
          have hkey : (wrap a).key = key := hagree.named.key_eq hfound
          have hrec : b.record (wrap a).key = some (wrap a) := by
            rw [hkey]
            exact hfound
          refine meets_bind drift_trans drift_refl
            (when_meets hagree fun _ => putRecord_meets hagree.weaken hrec)
            (fun u s₃ w₃ hu => meets_pure fun w₄ hdrift => ⟨rfl, hu.2.drift hdrift⟩) ?_
          rintro e s₃ w₃ w₄ ⟨he, -⟩ -
          cases he
      · rintro e s'' w'' w₃ ⟨he, -⟩ -
        cases he
  · rintro e s' w' w'' ⟨he | ⟨_, he, -⟩, -⟩ -
    · cases he
    · cases he

/-- **An operation returns what the store in memory returns**, and the cache agrees with the store
again. -/
theorem program_meets (m : Method) (t : Reading) :
    Meets Step Drift (program hasCache m t)
      (Post hasCache none (b.answer t m).2 (b.answer t m).1) () w := by
  cases m with
  | updateSession s => exact writeThrough_meets h rfl rfl Bulk.lookupMap_insert
  | store o =>
    cases o with
    | createSession _ | createTree _ => exact writeThrough_meets h rfl rfl Bulk.lookupMap_insert
    | createHandle handle | updateHandle handle =>
      exact writeThrough_meets h rfl rfl Bulk.lookupMap_insert
    | deleteSession id | refreshSession id ttl | deleteTree sid tid | deleteHandle id =>
      exact removeThrough_meets h rfl rfl
    | getSession id =>
      refine readThrough_meets h (fun data a ha => ?_) (fun _ _ => Record.session.inj) rfl
        fun w' h' => bulk_meets h'
      cases data <;> cases ha
      rfl
    | getTree sid tid =>
      refine readThrough_meets h (fun data a ha => ?_) (fun _ _ => Record.tree.inj) rfl
        fun w' h' => bulk_meets h'
      cases data <;> cases ha
      rfl
    | getHandle id =>
      refine readThrough_meets h (fun data a ha => ?_) (fun _ _ => Record.handle.inj) rfl
        fun w' h' => bulk_meets h'
      cases data <;> cases ha
      rfl
    | _ => exact bulk_meets h
  | _ => exact bulk_meets h

end Agreeing

end Methods

/-! ### Sequences of operations -/

variable {hasCache : Bool} {w : World} {b : Bulk}

theorem CachedRun.agree (hrun : CachedRun hasCache w b) : Agree hasCache none b w := by
  induction hrun with
  | start config instant => exact .start config instant
  | op m t hrun hexec ih => exact (program_meets ih m t _ _ hexec).2

/-- After every sequence of operations, the next one returns what the store in memory returns. -/
theorem cached_agrees (hrun : CachedRun hasCache w b) (m : Method) (t : Reading) :
    (∃ r w', Prog.Exec World.Step World.Drift (program hasCache m t ()) w r w') ∧
      ∀ r w', Prog.Exec World.Step World.Drift (program hasCache m t ()) w r w' →
        r.1 = (b.answer t m).1 := by
  constructor
  · exact ⟨_, _, exec_run _ w⟩
  · exact fun r w' hexec => (program_meets hrun.agree m t r w' hexec).1

namespace Sample

def fresh : World := ⟨.new ⟨0, 0, 0, 0⟩, .new, 0⟩

/-- The world after an operation during which nothing drifts. -/
def after (m : Method) (w : World) : World := ((program true m noon ()).run answer w).2

/-- A handle has been created; then the epoch has changed, the entry has been evicted, and time has
passed. -/
def created : World where
  cache := (((after create fresh).cache.setEpoch 7).invalidateAll).remove (.handle 1)
  bulk := (after create fresh).bulk
  instant := 5

theorem drift_created : (after create fresh).Drift created :=
  drift_trans _ _ _ (drift_epochChange 7)
    (drift_trans _ _ _ (drift_remove (.handle 1)) (drift_instant 5))

/-- After the handle is updated, it is read as updated. -/
theorem cached_agrees_updated : ∃ r w',
    Prog.Exec World.Step World.Drift (program true read noon ()) (after update created) r w' ∧
      r.1 = .ok (some (handle 1)) := by
  have hcre : CachedRun true (after create fresh) (Bulk.new.answer noon create).2 :=
    .op create noon (.start ⟨0, 0, 0, 0⟩ 0) (exec_run _ fresh)
  have hupd : CachedRun true (after update created)
      ((Bulk.new.answer noon create).2.answer noon update).2 :=
    .op update noon hcre ((exec_run _ created).of_drift drift_trans drift_created)
  obtain ⟨⟨r, w', hexec⟩, hall⟩ := cached_agrees hupd read noon
  exact ⟨r, w', hexec, hall r w' hexec⟩

end Sample

end RustSmb.Cached
