import RustSmb.Cached.Store
import RustSmb.Lib.Operations

/-!
# Operations at the same time

Any number of callers use one store with a cache, while the listeners handle changes of the epoch
and failures of servers.  Each call is atomic.  Between its call to the other store and its change
of the cache an operation has a *window* open: it is about to cache a record as it was then, or to
remove an entry.

## Main results

* `cache_steps` — **what the calls of each operation are.**

Source: `rustsmb-state-cached/src/lib.rs`, `rustsmb-server/src/coordination.rs`.
-/

namespace RustSmb.Cached

open Proc

/-! ### Operations -/

/-- What goes on at the same time: methods of the store, and what the listeners do on an event. -/
inductive CacheOp where
  | method (m : Method) (t : Reading)
  | epochChange (epoch : UInt64)
  | serverFailure (serverId : String) (t : Reading)

/-- What an operation leaves: a method's value, or nothing for a listener. -/
inductive Outcome where
  | value (m : Method) (v : m.Value)
  | handled

/-- The operations.  That the other store fails does not keep a listener from going on. -/
def CacheOp.program : CacheOp → CachedProc Outcome
  | method m t => do
      let v ← Cached.program true m t
      pure (.value m v)
  | epochChange epoch => do
      perform (S := CacheSig) (.setEpoch epoch)
      perform (S := CacheSig) .invalidateAll
      pure .handled
  | serverFailure serverId t => do
      let _ ← attempt (bulk (.store (.deleteLeasesForServer serverId)) t)
      let _ ← attempt (bulk (.store (.releaseFileLocksForServer serverId)) t)
      perform (S := CacheSig) .invalidateAll
      pure .handled

/-- The operation handles an event of the coordinator. -/
def CacheOp.isListener : CacheOp → Bool
  | method _ _ => false
  | _ => true

/-! ### The system -/

abbrev CacheOutcome : Type := Except StateError Outcome

/-- Time passes. -/
def World.Tick (w w' : World) : Prop := ∃ d, w' = { w with instant := w.instant + d }

/-- Any number of callers and listeners. -/
abbrev cacheMachine : Machine (Operations.Sig CacheSig CacheOp CacheOutcome) :=
  Operations.machine CacheOp.program World World.Step World.Tick

abbrev CacheTrace : Type := Operations.Trace CacheOp.program World World.Step World.Tick

/-- The records name their keys, and the cache is new. -/
def Started (w : World) : Prop := w.bulk.Named ∧ ∃ config, w.cache = .new config

abbrev CacheRaceRun : cacheMachine.Config → CacheTrace → Prop := Operations.Run Started

/-! ### Windows -/

/-- The record that the method looks up. -/
def Method.reads : Method → Option RecordKey
  | store (.getSession id) => some (.session id)
  | store (.getTree sid tid) => some (.tree sid tid)
  | store (.getHandle id) => some (.handle id)
  | _ => none

/-- The record among what a method returns. -/
def Method.found : (m : Method) → m.Value → Option Record
  | store (.getSession _), v => v.map .session
  | store (.getTree _ _), v => v.map .tree
  | store (.getHandle _), v => v.map .handle
  | _, _ => none

/-- The record that the method writes. -/
def Method.stores : Method → Option Record
  | store (.createSession s) | updateSession s => some (.session s)
  | store (.createTree t) => some (.tree t)
  | store (.createHandle h) | store (.updateHandle h) => some (.handle h)
  | _ => none

/-- The window that a method of the other store opens: the key, and the record that is about to
be cached. -/
def Method.opens (m : Method) : m.Res → Option (RecordKey × Option Record)
  | .error _ => none
  | .ok v =>
      match m.writes with
      | some key => some (key, m.stores)
      | none => (m.found v).map fun r => (r.key, some r)

theorem opens_eq_none {m : Method} (hwrites : m.writes = none) (hfound : ∀ v, m.found v = none)
    (r : m.Res) : m.opens r = none := by
  cases r with
  | error e => rfl
  | ok v =>
    unfold Method.opens
    dsimp only
    rw [hwrites, hfound]
    rfl

/-- The window that an operation has open, from its calls. -/
def window : List (Event CacheSig) → Option (RecordKey × Option Record)
  | [] => none
  | ⟨.bulk m _, r⟩ :: _ => m.opens r
  | ⟨.put _ _ _, _⟩ :: _ | ⟨.remove _, _⟩ :: _ => none
  | _ :: h => window h

/-! ### What an operation does -/

/-- The cache is changed only as the last call on the other store asks for. -/
def CacheSteps (h : List (Event CacheSig)) : CacheCall → Prop
  | .bulk _ _ => window h = none
  | .put data epoch _ =>
      window h = some (data.key, some data) ∧ (⟨.loadEpoch, epoch⟩ : Event CacheSig) ∈ h
  | .remove key => window h = some (key, none)
  | _ => True

/-- Where the record that is returned is from: the cache, or the other store. -/
def Served (key : RecordKey) (found : Option Record) (h : List (Event CacheSig)) : Prop :=
  (∃ r, found = some r ∧ (⟨.get key, some r⟩ : Event CacheSig) ∈ h) ∨
    ∃ (m : Method) (t : Reading) (v : m.Value), m.reads = some key ∧ m.found v = found ∧
      (⟨.bulk m t, .ok v⟩ : Event CacheSig) ∈ h

/-- What is known when an operation ends. -/
structure CacheDone (op : CacheOp) (r : CacheOutcome) (h : List (Event CacheSig)) : Prop where
  closed : window h = none
  invalidated : op.isListener = true → (⟨.invalidateAll, ()⟩ : Event CacheSig) ∈ h
  served : ∀ m v key, r = .ok (.value m v) → m.reads = some key → Served key (m.found v) h

section Wp

variable {h : List (Event CacheSig)}

variable {t : Reading} {m : Method} {key : RecordKey}

theorem wp_bulk {Q : Except StateError m.Value → Unit → List (Event CacheSig) → Prop} :
    wp CacheSteps (bulk m t) Q () h ↔
      window h = none ∧ ∀ r : m.Res, Q r () (⟨.bulk m t, r⟩ :: h) := by
  unfold bulk
  rw [wp_bind, wp_perform]
  refine and_congr Iff.rfl (forall_congr' fun r => ?_)
  rw [onOk_ok, wp_ofExcept]

theorem wp_putRecord {data : Record}
    {Q : Except StateError Unit → Unit → List (Event CacheSig) → Prop}
    (hwin : window h = some (data.key, some data))
    (hQ : ∀ h', h <:+ h' → window h' = none → Q (.ok ()) () h') :
    wp CacheSteps (putRecord data) Q () h := by
  unfold putRecord
  rw [wp_bind, wp_perform]
  refine ⟨trivial, fun epoch => ?_⟩
  rw [onOk_ok, wp_bind, wp_perform]
  refine ⟨trivial, fun now => ?_⟩
  rw [onOk_ok, wp_perform]
  refine ⟨⟨hwin, List.mem_cons_of_mem _ List.mem_cons_self⟩, fun u => hQ _ ?_ rfl⟩
  exact ⟨[_, _, _], rfl⟩

/-- An operation that changes a record, if its second part closes the window. -/
theorem wp_through {x : CachedProc Unit} (hh : window h = none)
    (hx : ∀ v : m.Value, wp CacheSteps x (fun r _ h' => r = .ok () ∧
      window h' = none) () (⟨.bulk m t, .ok v⟩ :: h)) :
    wp CacheSteps (do let r ← bulk m t; when true x; pure r)
      (fun _ _ h' => window h' = none) () h := by
  rw [wp_bind, wp_bulk]
  refine ⟨hh, fun r => ?_⟩
  cases r with
  | error e => exact rfl
  | ok v =>
    rw [onOk_ok, wp_bind]
    refine wp_mono (hx v) fun r s h' hr => ?_
    obtain ⟨rfl, hclos⟩ := hr
    rw [onOk_ok, wp_pure]
    exact hclos

theorem writeThrough_steps {data : Record}
    (hopens : ∀ v, m.opens (.ok v) = some (data.key, some data)) :
    wp CacheSteps (writeThrough true m t data) (fun _ _ h' => window h' = none) () [] :=
  wp_through rfl fun v => wp_putRecord (hopens v) fun _ _ hclos => ⟨rfl, hclos⟩

theorem Served.mono {found : Option Record} {h' : List (Event CacheSig)}
    (hserved : Served key found h) (hh : h <:+ h') : Served key found h' := by
  rcases hserved with ⟨r, hr, hmem⟩ | ⟨m, t, v, hreads, hfound, hmem⟩
  · exact .inl ⟨r, hr, hh.subset hmem⟩
  · exact .inr ⟨m, t, v, hreads, hfound, hh.subset hmem⟩

theorem readThrough_steps {α : Type} {wrap : α → Record} {unwrap : Record → Option α}
    {read : CachedProc (Option α)} (hunwrap : ∀ data a, unwrap data = some a → data = wrap a)
    (hread : ∀ h, window h = none →
      wp CacheSteps read (fun r _ h' =>
        window h' = r.toOption.join.map (fun a => ((wrap a).key, some (wrap a))) ∧
          ∀ a, r = .ok a → Served key (a.map wrap) h') () h) :
    wp CacheSteps (readThrough true key wrap unwrap read)
      (fun r _ h' => window h' = none ∧ ∀ a, r = .ok a → Served key (a.map wrap) h') () [] := by
  unfold readThrough lookUp
  rw [wp_bind, if_pos rfl, wp_bind, wp_perform]
  refine ⟨trivial, fun found => ?_⟩
  rw [onOk_ok, wp_pure, onOk_ok]
  cases hhit : found.bind unwrap with
  | some a =>
    obtain ⟨data, rfl, ha⟩ := Option.bind_eq_some_iff.1 hhit
    rw [wp_pure]
    refine ⟨rfl, fun a' ha' => ?_⟩
    cases ha'
    rw [hunwrap data a ha]
    exact .inl ⟨wrap a, rfl, List.mem_cons_self⟩
  | none =>
    rw [wp_bind]
    refine wp_mono (hread _ rfl) fun r s h' hr => ?_
    obtain ⟨hwin, hserved⟩ := hr
    cases r with
    | error e => exact ⟨hwin, nofun⟩
    | ok a =>
      rw [onOk_ok]
      cases a with
      | none => exact wp_pure.2 ⟨hwin, hserved⟩
      | some a =>
        rw [wp_bind]
        refine wp_putRecord hwin fun h'' hsuf hclos => ?_
        rw [onOk_ok, wp_pure]
        exact ⟨hclos, fun a' ha' => (hserved a' ha').mono hsuf⟩

/-- To read a record from the other store.  `conv` is the identity, at a type that depends on the
method. -/
theorem get_steps {α : Type} {wrap : α → Record} {unwrap : Record → Option α}
    (conv : m.Res → Except StateError (Option α))
    (hunwrap : ∀ data a, unwrap data = some a → data = wrap a) (hreads : m.reads = some key)
    (hopens : ∀ r, m.opens r = (conv r).toOption.join.map fun a => ((wrap a).key, some (wrap a)))
    (hfound : ∀ r a, conv r = .ok a → ∃ v, r = .ok v ∧ m.found v = a.map wrap) :
    wp CacheSteps (readThrough true key wrap unwrap
        (perform (S := CacheSig) (.bulk m t) >>= fun r => ofExcept (conv r)))
      (fun r _ h' => window h' = none ∧
        ∀ a key, r = .ok a → m.reads = some key → Served key (a.map wrap) h') () [] := by
  refine wp_mono (readThrough_steps hunwrap fun h hh => ?_) fun r _ h' hr =>
    ⟨hr.1, fun a key' ha hkey => Option.some.inj (hreads.symm.trans hkey) ▸ hr.2 a ha⟩
  rw [wp_bind, wp_perform]
  refine ⟨hh, fun r => ?_⟩
  rw [onOk_ok, wp_ofExcept]
  refine ⟨hopens r, fun a ha => ?_⟩
  obtain ⟨v, rfl, hv⟩ := hfound r a ha
  exact .inr ⟨m, t, v, hreads, hv, List.mem_cons_self⟩

theorem program_steps (m : Method) (t : Reading) :
    wp CacheSteps (program true m t) (fun r _ h' => window h' = none ∧
      ∀ v key, r = .ok v → m.reads = some key → Served key (m.found v) h') () [] := by
  -- a method that reads no record
  have hoth : m.reads = none →
      wp CacheSteps (program true m t) (fun _ _ h' => window h' = none) () [] →
      wp CacheSteps (program true m t) (fun r _ h' => window h' = none ∧
        ∀ v key, r = .ok v → m.reads = some key → Served key (m.found v) h') () [] := by
    intro hreads hwp
    refine wp_mono hwp fun r _ h' hclos => ⟨hclos, fun v key _ hkey => ?_⟩
    rw [hreads] at hkey
    cases hkey
  cases m with
  | updateSession s => exact hoth rfl (writeThrough_steps fun v => rfl)
  | store o =>
    cases o with
    | createSession _ | createTree _ => exact hoth rfl (writeThrough_steps fun v => rfl)
    | createHandle handle | updateHandle handle => exact hoth rfl (writeThrough_steps fun v => rfl)
    | deleteSession id | refreshSession id ttl | deleteTree sid tid | deleteHandle id =>
      exact hoth rfl (wp_through rfl fun v => wp_perform.2 ⟨rfl, fun u => ⟨rfl, rfl⟩⟩)
    | getSession id =>
      refine get_steps (m := .store (.getSession id)) (fun r => r) (fun data a ha => ?_) rfl
        (fun r => by rcases r with e | (_ | a) <;> rfl) fun r a ha => ⟨a, ha, rfl⟩
      cases data <;> cases ha
      rfl
    | getTree sid tid =>
      refine get_steps (m := .store (.getTree sid tid)) (fun r => r) (fun data a ha => ?_) rfl
        (fun r => by rcases r with e | (_ | a) <;> rfl) fun r a ha => ⟨a, ha, rfl⟩
      cases data <;> cases ha
      rfl
    | getHandle id =>
      refine get_steps (m := .store (.getHandle id)) (fun r => r) (fun data a ha => ?_) rfl
        (fun r => by rcases r with e | (_ | a) <;> rfl) fun r a ha => ⟨a, ha, rfl⟩
      cases data <;> cases ha
      rfl
    | _ => exact hoth rfl (wp_bulk.2 ⟨rfl, fun r => by cases r <;> rfl⟩)
  | _ => exact hoth rfl (wp_bulk.2 ⟨rfl, fun r => by cases r <;> rfl⟩)

/-- **What the calls of each operation are.** -/
theorem cache_steps (op : CacheOp) :
    wp CacheSteps op.program (fun r _ h' => CacheDone op r h') () [] := by
  cases op with
  | method m t =>
    unfold CacheOp.program
    rw [wp_bind]
    refine wp_mono (program_steps m t) fun r _ h' hr => ?_
    obtain ⟨hclos, hserved⟩ := hr
    cases r with
    | error e =>
      refine ⟨hclos, fun hlistener => ?_, fun m' v' key heq => ?_⟩
      · cases hlistener
      · cases heq
    | ok v =>
      rw [onOk_ok, wp_pure]
      refine ⟨hclos, fun hlistener => ?_, fun m' v' key heq hkey => ?_⟩
      · cases hlistener
      cases heq
      exact hserved v key rfl hkey
  | epochChange epoch =>
    unfold CacheOp.program
    rw [wp_bind, wp_perform]
    refine ⟨trivial, fun u => ?_⟩
    rw [onOk_ok, wp_bind, wp_perform]
    refine ⟨trivial, fun u' => ?_⟩
    rw [onOk_ok, wp_pure]
    exact ⟨rfl, fun _ => List.mem_cons_self, fun m v key h => by cases h⟩
  | serverFailure serverId t =>
    unfold CacheOp.program
    rw [wp_bind, wp_attempt, wp_bulk]
    refine ⟨rfl, fun r => ?_⟩
    rw [onOk_ok, wp_bind, wp_attempt, wp_bulk]
    refine ⟨opens_eq_none rfl (fun v => rfl) r, fun r' => ?_⟩
    rw [onOk_ok, wp_bind, wp_perform]
    refine ⟨trivial, fun u => ?_⟩
    rw [onOk_ok, wp_pure]
    refine ⟨?_, fun _ => List.mem_cons_self, fun m v key h => by cases h⟩
    exact opens_eq_none rfl (fun v => rfl) r'

end Wp

namespace Sample

/-- Runs schedules, with the ticks as moves. -/
def cachePlayer : Machine.Player cacheMachine :=
  Operations.player World.answer (fun _ _ => rfl)
    (fun (d : ℕ) w => { w with instant := w.instant + d }) fun d _ => ⟨d, rfl⟩

def cacheStart : cacheMachine.Config := ⟨⟨.new ⟨8, 8, 8, 60⟩, .new, 0⟩, fun _ => .idle ()⟩

theorem cacheRun_start : CacheRaceRun cacheStart [] :=
  .init ⟨fun _ => rfl, Bulk.named_new, _, rfl⟩

/-- The moves of an operation that nothing interrupts. -/
def alone (i : ℕ) (op : CacheOp) (n : ℕ) : List cachePlayer.Move :=
  Machine.Player.work (P := cachePlayer) i op n

/-- A lookup that has found the record. -/
def isHit (key : RecordKey) (r : Record)
    (e : Event (Operations.Sig CacheSig CacheOp CacheOutcome)) : Bool :=
  match e with
  | ⟨.inl (.get key'), found⟩ =>
      decide (key' = key) && decide ((show Option Record from found) = some r)
  | _ => false

theorem eq_of_isHit {key : RecordKey} {r : Record}
    {e : Event (Operations.Sig CacheSig CacheOp CacheOutcome)} (h : isHit key r e = true) :
    e = ⟨.inl (.get key), some r⟩ := by
  unfold isHit at h
  split at h
  · obtain ⟨hkey, hr⟩ := Bool.and_eq_true_iff.1 h
    obtain rfl := of_decide_eq_true hkey
    have hr := of_decide_eq_true hr
    subst hr
    rfl
  · cases h

end Sample

end RustSmb.Cached
