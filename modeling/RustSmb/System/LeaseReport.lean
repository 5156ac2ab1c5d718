import RustSmb.State.LeaseTable
import RustSmb.System.Acknowledgment
import RustSmb.System.Atomic

/-!
# The lease state that CREATE reports

CREATE records a lease with a state that is reduced in view of the other leases on the file, breaks
those of its own server that are in the way, and looks again: if no other lease has write caching
any more, it reports everything that was asked for, but the record keeps the reduced state.  A
durable reconnect reports the recorded state, or read caching if there is none.

## Main results

* `grantLease_run` — what is recorded and what is reported.
* `reportsStored_iff` — **exactly when a report agrees with the store.**
* `overReported_create` — a request for read caching that breaks another lease.
-/

namespace RustSmb

open Client Table AList List Option LeaseBreakRegistry Proc

variable {response : CreateResponse}

/-! ### What breaks do to leases -/

/-- The holder has a connection here, and its channel is open. -/
def holderReached (r : LeaseBreakRegistry) (l : LeaseEntry) : Bool :=
  (r.leaseConnections.lookup l.leaseKey).any fun e => (r.leaseEvents.lookup e.breakTx).isSome

/-- The request takes something from the lease, and the holder is told. -/
def isBroken (r : LeaseBreakRegistry) (requested : UInt32) (l : LeaseEntry) : Bool :=
  calculateBreakState l.leaseState requested != l.leaseState && holderReached r l

/-- What the lease is left with: read caching is given up at once, all else awaits an answer. -/
def brokenState (requested : UInt32) (l : LeaseEntry) (outcomes : List BreakWait) : UInt32 :=
  if l.leaseState = 0x01 then calculateBreakState l.leaseState requested
  else (outcomes.headD .elapsed).toResult.finalState (calculateBreakState l.leaseState requested)

/-- A lease on reading waits for nothing. -/
def outcomesLeft (l : LeaseEntry) (outcomes : List BreakWait) : List BreakWait :=
  if l.leaseState = 0x01 then outcomes else outcomes.tail

/-- The leases after all breaks. -/
def breakAll (r : LeaseBreakRegistry) (requested : UInt32) :
    List LeaseEntry → List BreakWait → Table String LeaseEntry → Table String LeaseEntry
  | [], _, leases => leases
  | l :: rest, outcomes, leases =>
      if isBroken r requested l then
        breakAll r requested rest (outcomesLeft l outcomes)
          (leases.insert l.leaseKey (l.afterBreak (brokenState requested l outcomes)))
      else breakAll r requested rest outcomes leases

/-- Every lease in a list is broken and gives up write caching. -/
def allGiveUp (r : LeaseBreakRegistry) (requested : UInt32) :
    List LeaseEntry → List BreakWait → Prop
  | [], _ => True
  | l :: rest, outcomes =>
      isBroken r requested l = true ∧ ¬ hasWrite (brokenState requested l outcomes) ∧
        allGiveUp r requested rest (outcomesLeft l outcomes)

section Tables

variable {r r' : LeaseBreakRegistry} {requested : UInt32} {ls : List LeaseEntry}
  {outcomes : List BreakWait} {leases : Table String LeaseEntry}

variable {key : String}

theorem lookup_breakAll (hkey : ∀ l ∈ ls, l.leaseKey ≠ key) :
    (breakAll r requested ls outcomes leases).lookup key = leases.lookup key := by
  induction ls generalizing outcomes leases with
  | nil => rfl
  | cons l rest ih =>
    have hrest : ∀ l ∈ rest, l.leaseKey ≠ key := fun l' hl' => hkey l' (mem_cons_of_mem l hl')
    rw [breakAll]
    split
    · rw [ih hrest, lookup_insert_ne (hkey l mem_cons_self).symm]
    · exact ih hrest

theorem lookup_breakAll_isSome (hkey : (leases.lookup key).isSome = true) :
    ((breakAll r requested ls outcomes leases).lookup key).isSome = true := by
  induction ls generalizing outcomes leases with
  | nil => exact hkey
  | cons l rest ih =>
    rw [breakAll]
    split
    · exact ih (isSome_lookup_insert hkey)
    · exact ih hkey

/-- What is found after the breaks was there, or is a lease of the list after its break. -/
theorem of_lookup_breakAll {l' : LeaseEntry}
    (h : (breakAll r requested ls outcomes leases).lookup key = some l') :
    leases.lookup key = some l' ∨
      ∃ l ∈ ls, l.leaseKey = key ∧ ∃ state, l' = l.afterBreak state := by
  induction ls generalizing outcomes leases with
  | nil => exact .inl h
  | cons l rest ih =>
    have hrest : (∃ l ∈ rest, l.leaseKey = key ∧ ∃ state, l' = l.afterBreak state) →
        ∃ l₁ ∈ l :: rest, l₁.leaseKey = key ∧ ∃ state, l' = l₁.afterBreak state := by
      rintro ⟨l₁, hl₁, hkey⟩
      exact ⟨l₁, mem_cons_of_mem l hl₁, hkey⟩
    rw [breakAll] at h
    split at h
    · rcases ih h with h | h
      · rcases of_lookup_insert h with ⟨rfl, rfl⟩ | h
        · exact .inr ⟨l, mem_cons_self, rfl, _, rfl⟩
        · exact .inl h
      · exact .inr (hrest h)
    · exact (ih h).imp_right hrest

/-- The leases in the list have given up write caching after the breaks just if all do. -/
theorem allGiveUp_iff (hls : ∀ l ∈ ls, leases.lookup l.leaseKey = some l)
    (hw : ∀ l ∈ ls, hasWrite l.leaseState) (hnodup : (ls.map LeaseEntry.leaseKey).Nodup) :
    (∀ l ∈ ls, ∀ l', (breakAll r requested ls outcomes leases).lookup l.leaseKey = some l' →
      ¬ hasWrite l'.leaseState) ↔ allGiveUp r requested ls outcomes := by
  induction ls generalizing outcomes leases with
  | nil => exact ⟨fun _ => trivial, fun _ => nofun⟩
  | cons l rest ih =>
    rw [map_cons, nodup_cons] at hnodup
    have hoth : ∀ l' ∈ rest, l'.leaseKey ≠ l.leaseKey := fun l' hl' heq =>
      hnodup.1 (heq ▸ mem_map_of_mem hl')
    have hw' : ∀ l' ∈ rest, hasWrite l'.leaseState := fun l' hl' => hw l' (mem_cons_of_mem l hl')
    rw [forall_mem_cons, breakAll, allGiveUp]
    by_cases hbroken : isBroken r requested l = true
    · -- the record of `l` is replaced, and no later break touches it
      rw [if_pos hbroken, lookup_breakAll hoth, lookup_insert]
      rw [ih (fun l' hl' => ?_) hw' hnodup.2]
      · refine ⟨fun h => ⟨hbroken, h.1 _ rfl, h.2⟩, fun h => ⟨fun l' hl' => ?_, h.2.2⟩⟩
        cases hl'
        exact h.2.1
      · rw [lookup_insert_ne (hoth l' hl')]
        exact hls l' (mem_cons_of_mem l hl')
    · rw [if_neg hbroken, lookup_breakAll hoth, hls l mem_cons_self]
      refine ⟨fun h => absurd (hw l mem_cons_self) (h.1 l rfl), fun h => absurd h.1 hbroken⟩

end Tables

/-! ### What the second look finds -/

section Recheck

variable {r : LeaseBreakRegistry} {requested : UInt32} {outcomes : List BreakWait}
  {leases : Table String LeaseEntry} {path sv : String} {lease : LeaseEntry}

variable {l : LeaseEntry}

theorem mem_conflictingLeases (hk : leases.KeyedBy LeaseEntry.leaseKey) :
    l ∈ conflictingLeases leases path lease requested ↔
      leases.lookup l.leaseKey = some l ∧ l.filePath = path ∧ l.leaseKey ≠ lease.leaseKey ∧
        leasesConflict l.leaseState requested = true := by
  unfold conflictingLeases otherLeases
  rw [mem_filter, mem_filter, hk.mem_values_iff, Bool.and_eq_true, beq_iff_eq, bne_iff_ne]
  simp only [and_assoc]

/-- A request without write caching is in conflict with the leases that have it. -/
theorem leasesConflict_of_not_hasWrite (hr : ¬ hasWrite requested) {state : UInt32} :
    leasesConflict state requested = true ↔ hasWrite state ∧ requested ≠ 0 := by
  rw [leasesConflict_eq_true_iff]
  exact or_iff_left fun h => hr h.1

theorem hasLeaseConflict_eq_false_iff {existing : UInt32} :
    hasLeaseConflict existing requested = false ↔ ¬ hasWrite existing ∧ ¬ hasWrite requested := by
  unfold hasLeaseConflict hasWrite
  rw [Bool.or_eq_false_iff, bne_eq_false_iff_eq, bne_eq_false_iff_eq, not_ne_iff, not_ne_iff]
  exact Iff.rfl

/-- The conflicting leases of this server. -/
def ownConflicts (leases : Table String LeaseEntry) (path : String) (lease : LeaseEntry)
    (requested : UInt32) (sv : String) : List LeaseEntry :=
  (conflictingLeases leases path lease requested).filter fun l => l.serverId == sv

/-- After the breaks, the second look finds nothing in the way. -/
def LooksClear (leases : Table String LeaseEntry) (path key : String) (requested : UInt32) : Prop :=
  ∀ k l, leases.lookup k = some l → l.filePath = path → l.leaseKey ≠ key →
    hasLeaseConflict l.leaseState requested = false

theorem ownConflicts_subset (hl : l ∈ ownConflicts leases path lease requested sv) :
    l ∈ conflictingLeases leases path lease requested := (mem_filter.1 hl).1

/-- The leases after the breaks of a request that was granted `granted`. -/
def afterBreaks (r : LeaseBreakRegistry) (leases : Table String LeaseEntry) (path : String)
    (lease : LeaseEntry) (requested : UInt32) (sv : String) (outcomes : List BreakWait)
    (granted : UInt32) : Table String LeaseEntry :=
  breakAll r requested (ownConflicts leases path lease requested sv) outcomes
    (leases.insert lease.leaseKey { lease with leaseState := granted })

variable {granted : UInt32}

section Keyed

variable (hk : leases.KeyedBy LeaseEntry.leaseKey)

include hk

theorem lookup_insert_conflict (hl : l ∈ conflictingLeases leases path lease requested)
    (granted : UInt32) :
    (leases.insert lease.leaseKey { lease with leaseState := granted }).lookup l.leaseKey =
      some l := by
  obtain ⟨hlook, -, hne, -⟩ := (mem_conflictingLeases hk).1 hl
  rw [lookup_insert_ne hne, hlook]

/-- After the breaks, a conflicting lease is still on the file under its key. -/
theorem conflict_after_breaks {l' : LeaseEntry}
    (hl : l ∈ conflictingLeases leases path lease requested)
    (hl' : (afterBreaks r leases path lease requested sv outcomes granted).lookup l.leaseKey =
      some l') :
    l'.filePath = path ∧ l'.leaseKey ≠ lease.leaseKey := by
  rcases of_lookup_breakAll hl' with hl' | ⟨l₁, hl₁, -, state, rfl⟩
  · rw [lookup_insert_conflict hk hl] at hl'
    cases hl'
    exact ⟨((mem_conflictingLeases hk).1 hl).2.1, ((mem_conflictingLeases hk).1 hl).2.2.1⟩
  · have hl₁ := (mem_conflictingLeases hk).1 (ownConflicts_subset hl₁)
    exact ⟨hl₁.2.1, hl₁.2.2.1⟩

/-- If nothing is in the way, the request does not ask for write caching: the broken leases
are still there. -/
theorem not_hasWrite_of_looksClear (hsome : ownConflicts leases path lease requested sv ≠ [])
    (hclear : LooksClear (afterBreaks r leases path lease requested sv outcomes granted) path
      lease.leaseKey requested) :
    ¬ hasWrite requested := by
  obtain ⟨l, hl⟩ := exists_mem_of_ne_nil _ hsome
  have hl := ownConflicts_subset hl
  have hthere : ((afterBreaks r leases path lease requested sv outcomes granted).lookup
      l.leaseKey).isSome = true := by
    refine lookup_breakAll_isSome ?_
    rw [lookup_insert_conflict hk hl]
    rfl
  obtain ⟨l', hl'⟩ := isSome_iff_exists.1 hthere
  obtain ⟨hpath, hne⟩ := conflict_after_breaks hk hl hl'
  exact (hasLeaseConflict_eq_false_iff.1 (hclear _ l' hl' hpath hne)).2

/-- If nothing is in the way, all conflicting leases are of this server: others are left alone. -/
theorem serverId_of_looksClear
    (hclear : LooksClear (afterBreaks r leases path lease requested sv outcomes granted) path
      lease.leaseKey requested)
    (hr : ¬ hasWrite requested) (hl : l ∈ conflictingLeases leases path lease requested) :
    l.serverId = sv := by
  obtain ⟨hlook, -, -, hconf⟩ := (mem_conflictingLeases hk).1 hl
  by_contra hsv
  have hkept : ∀ l₁ ∈ ownConflicts leases path lease requested sv, l₁.leaseKey ≠ l.leaseKey := by
    intro l₁ hl₁ heq
    have h₁ := ((mem_conflictingLeases hk).1 (ownConflicts_subset hl₁)).1
    rw [heq, hlook] at h₁
    obtain rfl := some.inj h₁
    exact hsv (beq_iff_eq.1 (mem_filter.1 hl₁).2)
  have hafter : (afterBreaks r leases path lease requested sv outcomes granted).lookup l.leaseKey =
      some l := (lookup_breakAll hkept).trans (lookup_insert_conflict hk hl granted)
  obtain ⟨hpath, hne⟩ := conflict_after_breaks hk hl hafter
  exact (hasLeaseConflict_eq_false_iff.1 (hclear _ l hafter hpath hne)).1
    ((leasesConflict_of_not_hasWrite hr).1 hconf).1

/-- If the conflicting leases are of this server, all are broken, and give up write caching just
if none has it afterwards. -/
theorem allGiveUp_iff_afterBreaks (hr : ¬ hasWrite requested)
    (hall : ∀ l ∈ conflictingLeases leases path lease requested, l.serverId = sv)
    (granted : UInt32) :
    (∀ l ∈ conflictingLeases leases path lease requested, ∀ l',
      (afterBreaks r leases path lease requested sv outcomes granted).lookup l.leaseKey = some l' →
        ¬ hasWrite l'.leaseState) ↔
      allGiveUp r requested (conflictingLeases leases path lease requested) outcomes := by
  have hown : ownConflicts leases path lease requested sv =
      conflictingLeases leases path lease requested :=
    filter_eq_self.2 fun l hl => beq_iff_eq.2 (hall l hl)
  unfold afterBreaks
  rw [hown]
  refine allGiveUp_iff (fun l hl => lookup_insert_conflict hk hl granted) (fun l hl => ?_)
    (hk.nodup_map_values.sublist ((filter_sublist.trans filter_sublist).map _))
  exact ((leasesConflict_of_not_hasWrite hr).1 ((mem_conflictingLeases hk).1 hl).2.2.2).1

/-- **When the second look finds nothing in the way**: write caching is not asked for, and the
leases that have it are of this server and give it up. -/
theorem looksClear_iff (hsome : ownConflicts leases path lease requested sv ≠ []) :
    LooksClear (afterBreaks r leases path lease requested sv outcomes granted) path
      lease.leaseKey requested ↔
    ¬ hasWrite requested ∧
      (∀ l ∈ conflictingLeases leases path lease requested, l.serverId = sv) ∧
      allGiveUp r requested (conflictingLeases leases path lease requested) outcomes := by
  constructor
  · intro hclear
    have hr := not_hasWrite_of_looksClear hk hsome hclear
    have hall := fun l hl => serverId_of_looksClear hk hclear hr (l := l) hl
    refine ⟨hr, hall, (allGiveUp_iff_afterBreaks hk hr hall granted).1 fun l hl l' hl' => ?_⟩
    obtain ⟨hpath, hne⟩ := conflict_after_breaks hk hl hl'
    exact (hasLeaseConflict_eq_false_iff.1 (hclear _ l' hl' hpath hne)).1
  · rintro ⟨hr, hall, hgive⟩ k l' hl' hpath hne
    have hgiven := (allGiveUp_iff_afterBreaks hk hr hall granted).2 hgive
    refine hasLeaseConflict_eq_false_iff.2 ⟨fun hw => ?_, hr⟩
    rcases of_lookup_breakAll hl' with hold | ⟨l, hl, rfl, -⟩
    · rcases of_lookup_insert hold with ⟨-, rfl⟩ | hold
      · exact hne rfl
      · -- a lease that was there and has write caching is in conflict
        obtain rfl := hk k l' hold
        obtain ⟨l₀, hl₀⟩ := exists_mem_of_ne_nil _ hsome
        have hr0 := ((leasesConflict_of_not_hasWrite hr).1
          ((mem_conflictingLeases hk).1 (ownConflicts_subset hl₀)).2.2.2).2
        have hl := (mem_conflictingLeases hk).2 ⟨hold, hpath, hne,
          (leasesConflict_of_not_hasWrite hr).2 ⟨hw, hr0⟩⟩
        exact hgiven l' hl l' hl' hw
    · exact hgiven l (ownConflicts_subset hl) l' hl' hw

end Keyed

end Recheck

/-! ### Breaks in a run -/

section Breaks

open Handler

variable {α β : Type} [AuthProvider α] [StorageBackend β] {s : ConnectionHandler}

/-- A change that no holder notices. -/
structure SameHolders (r r' : LeaseBreakRegistry) : Prop where
  connections : r'.leaseConnections = r.leaseConnections
  channels : ∀ tx, (r'.leaseEvents.lookup tx).isSome = (r.leaseEvents.lookup tx).isSome

variable {r' r : LeaseBreakRegistry} {requested : UInt32} {path : String}
  {leases : Table String LeaseEntry}

theorem SameHolders.trans {r'' : LeaseBreakRegistry} (h : SameHolders r r')
    (h' : SameHolders r' r'') : SameHolders r r'' :=
  ⟨h'.connections.trans h.connections, fun tx => (h'.channels tx).trans (h.channels tx)⟩

theorem SameHolders.isBroken (h : SameHolders r r') (requested : UInt32) (l : LeaseEntry) :
    isBroken r' requested l = isBroken r requested l := by
  unfold RustSmb.isBroken holderReached
  rw [h.connections]
  simp only [h.channels]

theorem SameHolders.breakAll (h : SameHolders r r') (requested : UInt32) (ls : List LeaseEntry)
    (outcomes : List BreakWait) (leases : Table String LeaseEntry) :
    breakAll r' requested ls outcomes leases = breakAll r requested ls outcomes leases := by
  induction ls generalizing outcomes leases with
  | nil => rfl
  | cons l rest ih => rw [RustSmb.breakAll, RustSmb.breakAll, h.isBroken, ih, ih]

/-- What a method of this server does besides reaching the store: holders stay. -/
structure KeepsHolders (sv : String) (w w' : World α β) : Prop where
  store : w'.store = w.store
  holders : SameHolders (w.registries sv) (w'.registries sv)

theorem awaitLeaseBreak_run (b : UInt64) (pending : PendingBreak) (w : World α β) :
    ∃ w', run World.answer (awaitLeaseBreak b pending) s w = (.ok w.nextOutcome.toResult, s, w') ∧
      KeepsHolders s.serverId w w' ∧ w'.oracle.outcomes = w.oracle.outcomes.tail := by
  unfold awaitLeaseBreak
  rw [run_bind_ok run_registry, run_bind_ok run_registry, run_bind_ok run_registry, run_pure]
  refine ⟨_, Prod.ext (congrArg (fun o => Except.ok (BreakWait.toResult o)) ?_) rfl,
    ⟨rfl, ?_, fun tx => ?_⟩, rfl⟩
  · -- the channel was opened just before
    simp [World.callRegistry, answer, wait, World.nextOutcome, World.waits]
  · simp [World.callRegistry, answer]
  · simp [World.callRegistry, answer]

theorem sendLeaseBreak_run (tx : UInt64) (event : LeaseBreakEvent) (w : World α β) :
    ∃ w', run World.answer (registry (.sendLeaseBreak tx event)) s w =
        (.ok ((w.registries s.serverId).leaseEvents.lookup tx).isSome, s, w') ∧
      KeepsHolders s.serverId w w' ∧ w'.oracle = w.oracle := by
  rw [run_registry]
  cases hq : (w.registries s.serverId).leaseEvents.lookup tx with
  | none =>
    refine ⟨_, Prod.ext (congrArg Except.ok ?_) rfl, ⟨rfl, ?_, fun tx => ?_⟩, rfl⟩ <;>
      simp [World.callRegistry, answer, hq]
  | some q =>
    refine ⟨_, Prod.ext (congrArg Except.ok ?_) rfl, ⟨rfl, ?_, fun tx' => ?_⟩, rfl⟩
    · simp [World.callRegistry, answer, hq]
    · simp [World.callRegistry, answer, hq]
    · simp only [World.callRegistry, answer, hq, Function.update_self, lookup_insert_ite]
      split
      · next heq => rw [heq, hq]; rfl
      · rfl

omit [AuthProvider α] [StorageBackend β] in
theorem KeepsHolders.trans {sv : String} {w w' w'' : World α β} (h : KeepsHolders sv w w')
    (h' : KeepsHolders sv w' w'') : KeepsHolders sv w w'' :=
  ⟨h'.store.trans h.store, h.holders.trans h'.holders⟩

/-- Breaking a lease: an error if the holder cannot be notified, else what the wait, if any,
finds. -/
theorem breakLease_run (l : LeaseEntry) (newState : UInt32) (epoch : UInt16) (path : String)
    (w : World α β) :
    ∃ r w', run World.answer (breakLease l.leaseKey l.leaseState newState epoch path) s w =
        (.ok r, s, w') ∧ KeepsHolders s.serverId w w' ∧
      if holderReached (w.registries s.serverId) l then
        r = .ok (if l.leaseState = 0x01 then .noAckRequired else w.nextOutcome.toResult) ∧
          w'.oracle.outcomes = outcomesLeft l w.oracle.outcomes
      else (∃ e, r = .error e) ∧ w'.oracle.outcomes = w.oracle.outcomes := by
  obtain ⟨w₁, hrun₁, hkeeps₁, ho₁⟩ : ∃ w', run World.answer
      (registry (.leaseConnection l.leaseKey)) s w = (.ok ((w.registries
        s.serverId).leaseConnections.lookup l.leaseKey), s, w') ∧
      KeepsHolders s.serverId w w' ∧ w'.oracle = w.oracle :=
    ⟨_, run_registry, ⟨rfl, by simp [World.callRegistry, answer], by
      simp [World.callRegistry, answer]⟩, rfl⟩
  unfold breakLease holderReached
  rw [run_bind_ok hrun₁]
  cases hentry : (w.registries s.serverId).leaseConnections.lookup l.leaseKey with
  | none => exact ⟨_, w₁, rfl, hkeeps₁, ⟨_, rfl⟩, by rw [ho₁]⟩
  | some entry =>
    obtain ⟨b, w₂, hrun₂, hkeeps₂, ho₂⟩ : ∃ b w', run World.answer (registry .nextBreakId) s w₁ =
        (.ok b, s, w') ∧ KeepsHolders s.serverId w₁ w' ∧ w'.oracle = w₁.oracle :=
      ⟨_, _, run_registry, ⟨rfl, by simp [World.callRegistry, answer], by
        simp [World.callRegistry, answer]⟩, rfl⟩
    obtain ⟨w₃, hrun₃, hkeeps₃, ho₃⟩ := sendLeaseBreak_run entry.breakTx
      ⟨l.leaseKey, l.leaseState, newState, epoch, l.leaseState != 0x01, b⟩ w₂
    rw [hkeeps₂.holders.channels, hkeeps₁.holders.channels] at hrun₃
    have hkeeps := (hkeeps₁.trans hkeeps₂).trans hkeeps₃
    have ho := ho₃.trans (ho₂.trans ho₁)
    rw [run_bind_ok hrun₂, run_bind_ok hrun₃, any_some]
    cases ((w.registries s.serverId).leaseEvents.lookup entry.breakTx).isSome with
    | false => exact ⟨_, w₃, rfl, hkeeps, ⟨_, rfl⟩, by rw [ho]⟩
    | true =>
      by_cases hread : l.leaseState = 0x01
      · refine ⟨.ok .noAckRequired, w₃, ?_, hkeeps, ?_⟩
        · simp [hread]
        · simp [hread, outcomesLeft, ho]
      · obtain ⟨w₄, hrun₄, hkeeps₄, ho₄⟩ := awaitLeaseBreak_run b ⟨l.leaseKey, newState, path⟩ w₃
        refine ⟨.ok w₃.nextOutcome.toResult, w₄, ?_, hkeeps.trans hkeeps₄, ?_⟩
        · simp only [Bool.not_true, Bool.false_eq_true, if_false, bne_iff_ne.2 hread]
          rw [run_bind_ok hrun₄]
          rfl
        · simp only [if_true, hread, if_false, outcomesLeft, ho₄, ho, World.nextOutcome, and_self]

theorem breakConflict_run (requested : UInt32) (path : String) (l : LeaseEntry) (w : World α β) :
    ∃ w', run World.answer (breakConflict requested path l) s w = (.ok (), s, w') ∧
      SameHolders (w.registries s.serverId) (w'.registries s.serverId) ∧
      if isBroken (w.registries s.serverId) requested l then
        w'.store = { w.store with
          leases := w.store.leases.insert l.leaseKey
            (l.afterBreak (brokenState requested l w.oracle.outcomes)) } ∧
        w'.oracle.outcomes = outcomesLeft l w.oracle.outcomes
      else w'.store = w.store ∧ w'.oracle.outcomes = w.oracle.outcomes := by
  unfold breakConflict isBroken
  by_cases hsame : calculateBreakState l.leaseState requested = l.leaseState
  · rw [if_pos hsame]
    refine ⟨w, rfl, ⟨rfl, fun _ => rfl⟩, ?_⟩
    simp [hsame]
  · obtain ⟨r, w₁, hrun, hkeeps, hr⟩ := breakLease_run l
      (calculateBreakState l.leaseState requested) (l.epoch + 1) path w
    rw [if_neg hsame, run_bind_ok hrun, bne_iff_ne.2 hsame, Bool.true_and]
    split at hr
    · next hreached =>
      obtain ⟨rfl, ho⟩ := hr
      have hstate : LeaseBreakResult.finalState (calculateBreakState l.leaseState requested)
          (if l.leaseState = 0x01 then .noAckRequired else w.nextOutcome.toResult) =
          brokenState requested l w.oracle.outcomes := by
        unfold brokenState
        split <;> rfl
      rw [hreached, ← hstate, ← hkeeps.store]
      exact ⟨_, rfl, hkeeps.holders, rfl, ho⟩
    · next hreached =>
      obtain ⟨⟨e, rfl⟩, ho⟩ := hr
      rw [Bool.eq_false_iff.2 hreached]
      exact ⟨w₁, rfl, hkeeps.holders, hkeeps.store, ho⟩

theorem breakConflicts_run (requested : UInt32) (path : String) (ls : List LeaseEntry)
    (w : World α β) :
    ∃ w', run World.answer (forEach (breakConflict requested path) ls) s w = (.ok (), s, w') ∧
      w'.store = { w.store with
        leases := breakAll (w.registries s.serverId) requested ls w.oracle.outcomes
          w.store.leases } := by
  induction ls generalizing w with
  | nil => exact ⟨w, rfl, rfl⟩
  | cons l rest ih =>
    obtain ⟨w₁, hrun₁, hholders, hw₁⟩ := breakConflict_run requested path l w
    obtain ⟨w₂, hrun₂, hw₂⟩ := ih w₁
    refine ⟨w₂, ?_, ?_⟩
    · rw [forEach, run_bind_ok hrun₁]
      exact hrun₂
    · rw [hw₂, hholders.breakAll, breakAll]
      split at hw₁ <;> rw [hw₁.1, hw₁.2] <;> simp [*]

/-! ### What is recorded and what is reported -/

/-- CREATE reports more than it records: it does not ask for write caching, and other leases on
the file that have it are of this server and give it up. -/
def OverReports (r : LeaseBreakRegistry) (leases : Table String LeaseEntry) (path key : String)
    (requested : UInt32) (sv : String) (outcomes : List BreakWait) : Prop :=
  let conflicts := (otherLeases leases path key).filter fun l =>
    leasesConflict l.leaseState requested
  ¬ hasWrite requested ∧ conflicts ≠ [] ∧ (∀ l ∈ conflicts, l.serverId = sv) ∧
    allGiveUp r requested conflicts outcomes

theorem isEmpty_stillConflicting {key : String} :
    ((leases.values.filter fun l => l.filePath == path).filter fun l =>
      l.leaseKey != key && hasLeaseConflict l.leaseState requested).isEmpty = true ↔
      LooksClear leases path key requested := by
  rw [List.isEmpty_iff, filter_eq_nil_iff]
  refine ⟨fun h k l hl hpath hne => ?_, fun h l hl => ?_⟩
  · have hmem : l ∈ leases.values.filter fun l => l.filePath == path :=
      mem_filter.2 ⟨mem_values.2 ⟨k, hl⟩, beq_iff_eq.2 hpath⟩
    have hnot := h l hmem
    rw [bne_iff_ne.2 hne, Bool.true_and] at hnot
    exact Bool.eq_false_iff.2 hnot
  · obtain ⟨hvalue, hpath⟩ := mem_filter.1 hl
    obtain ⟨k, hk⟩ := mem_values.1 hvalue
    intro hconf
    obtain ⟨hne, hconf⟩ := Bool.and_eq_true_iff.1 hconf
    rw [h k l hk (beq_iff_eq.1 hpath) (bne_iff_ne.1 hne)] at hconf
    cases hconf

/-- A request without write caching that meets a lease with it is granted nothing. -/
theorem grantedState_of_conflict {lease : LeaseEntry} (hr : ¬ hasWrite requested)
    (hsome : conflictingLeases leases path lease requested ≠ []) :
    grantedState leases path lease requested = 0 ∧ requested ≠ 0 := by
  obtain ⟨l, hl⟩ := exists_mem_of_ne_nil _ hsome
  have hl' := (leasesConflict_of_not_hasWrite hr).1 (mem_filter.1 hl).2
  refine ⟨?_, hl'.2⟩
  have hempty : (conflictingLeases leases path lease requested).isEmpty = false :=
    isEmpty_eq_false_iff.2 hsome
  have hany : (conflictingLeases leases path lease requested).any
      (fun l => l.leaseState &&& LeaseEntry.WRITE_CACHING != 0) = true :=
    any_eq_true.2 ⟨l, hl, bne_iff_ne.2 hl'.1⟩
  unfold grantedState reduceLeaseState
  simp [hempty, hany]

theorem not_hasWrite_grantedState {lease : LeaseEntry}
    (hsome : conflictingLeases leases path lease requested ≠ []) :
    ¬ hasWrite (grantedState leases path lease requested) := by
  unfold grantedState reduceLeaseState
  rw [if_neg (mt List.isEmpty_iff.1 hsome)]
  dsimp only
  split
  · exact not_hasWrite_zero
  split
  · exact not_hasWrite_clear requested
  · next hr => exact fun hw => hr (bne_iff_ne.2 hw)

/-- What is reported for a lease, given the leases `after` the breaks. -/
structure Reports (leases : Table String LeaseEntry) (path : String) (lease : LeaseEntry)
    (requested : UInt32) (sv : String) (after : Table String LeaseEntry) (reported : UInt32) :
    Prop where
  none : ownConflicts leases path lease requested sv = [] →
    reported = grantedState leases path lease requested
  clear : ownConflicts leases path lease requested sv ≠ [] →
    LooksClear after path lease.leaseKey requested → reported = requested
  blocked : ownConflicts leases path lease requested sv ≠ [] →
    ¬ LooksClear after path lease.leaseKey requested →
    reported = grantedState leases path lease requested

section Reported

variable {sv : String} {lease : LeaseEntry} {reported : UInt32} {outcomes : List BreakWait}
  (hk : leases.KeyedBy LeaseEntry.leaseKey)
  (h : Reports leases path lease requested sv (afterBreaks r leases path lease requested sv outcomes
    (grantedState leases path lease requested)) reported)

include hk h

/-- The second bit is reported just if it was asked for and no lease was in the way; a second
look does not bring it back. -/
theorem hasWrite_reported_iff :
    hasWrite reported ↔
      hasWrite requested ∧ conflictingLeases leases path lease requested = [] := by
  by_cases hempty : conflictingLeases leases path lease requested = []
  · rw [h.none (by unfold ownConflicts; rw [hempty]; rfl), grantedState, hempty]
    exact (and_iff_left rfl).symm
  · have hgrant := not_hasWrite_grantedState hempty
    refine iff_of_false (fun hw => ?_) fun hnone => hempty hnone.2
    by_cases hbroken : ownConflicts leases path lease requested sv = []
    · exact hgrant (h.none hbroken ▸ hw)
    by_cases hlooks : LooksClear (afterBreaks r leases path lease requested sv outcomes
        (grantedState leases path lease requested)) path lease.leaseKey requested
    · exact not_hasWrite_of_looksClear hk hbroken hlooks (h.clear hbroken hlooks ▸ hw)
    · exact hgrant (h.blocked hbroken hlooks ▸ hw)

theorem granted_eq_reported_iff :
    grantedState leases path lease requested = reported ↔
      ¬ OverReports r leases path lease.leaseKey requested sv outcomes := by
  by_cases hbroken : ownConflicts leases path lease requested sv = []
  · refine iff_of_true (h.none hbroken).symm fun hover => hover.2.1 ?_
    -- if all conflicting leases are of this server, there is none
    refine eq_nil_iff_forall_not_mem.2 fun l hl => ?_
    have hmem : l ∈ ownConflicts leases path lease requested sv :=
      mem_filter.2 ⟨hl, beq_iff_eq.2 (hover.2.2.1 l hl)⟩
    rw [hbroken] at hmem
    cases hmem
  · have hsome : conflictingLeases leases path lease requested ≠ [] := fun hnone =>
      hbroken (by unfold ownConflicts; rw [hnone]; rfl)
    by_cases hlooks : LooksClear (afterBreaks r leases path lease requested sv outcomes
        (grantedState leases path lease requested)) path lease.leaseKey requested
    · obtain ⟨hr, hall, hgive⟩ := (looksClear_iff hk hbroken).1 hlooks
      obtain ⟨hzero, hr0⟩ := grantedState_of_conflict hr hsome
      refine iff_of_false (fun heq => hr0 ?_) (not_not.2 ⟨hr, hsome, hall, hgive⟩)
      rw [← h.clear hbroken hlooks, ← heq, hzero]
    · refine iff_of_true (h.blocked hbroken hlooks).symm fun hover => hlooks ?_
      exact (looksClear_iff hk hbroken).2 ⟨hover.1, hover.2.2⟩

end Reported

theorem reportedLeaseState_run (path key : String) (requested : UInt32)
    (result : LeaseConflictResult) (broken : List LeaseEntry) (w : World α β) :
    ∃ reported, run World.answer (reportedLeaseState path key requested result broken) s w =
        (.ok reported, s, w) ∧
      (broken = [] → reported = result.grantedState) ∧
      (broken ≠ [] → LooksClear w.store.leases path key requested → reported = requested) ∧
      (broken ≠ [] → ¬ LooksClear w.store.leases path key requested →
        reported = result.grantedState) := by
  unfold reportedLeaseState
  split
  · next hempty =>
    rw [List.isEmpty_iff] at hempty
    exact ⟨_, rfl, fun _ => rfl, fun h => absurd hempty h, fun h => absurd hempty h⟩
  · next hempty =>
    rw [List.isEmpty_iff] at hempty
    refine ⟨_, rfl, fun h => absurd h hempty, fun _ hclear => ?_, fun _ hclear => ?_⟩
    · exact if_pos (isEmpty_stillConflicting.2 hclear)
    · exact if_neg fun h => hclear (isEmpty_stillConflicting.1 h)

/-- The leases that a request for a lease leaves behind, and what it reports. -/
theorem grantLease_leases (sid : UInt64) (path : String) (key : Bytes) (requested : UInt32)
    (isV2 : Bool) (w : World α β) :
    ∃ reported w' lease after, run World.answer (grantLease sid path key requested isV2) s w =
        (.ok (some reported), s, w') ∧ lease.leaseKey = key.hex ∧ w'.store.leases = after ∧
      after = afterBreaks (w.registries s.serverId) w.store.leases path lease requested s.serverId
        w.oracle.outcomes (grantedState w.store.leases path lease requested) ∧
      Reports w.store.leases path lease requested s.serverId after reported := by
  let lease := LeaseEntry.new key s.connection.clientGuid.hex sid s.serverId path requested isV2
    w.oracle.now
  let granted := grantedState w.store.leases path lease requested
  let broken := ownConflicts w.store.leases path lease requested s.serverId
  let result : LeaseConflictResult :=
    ⟨(conflictingLeases w.store.leases path lease requested).isEmpty,
      conflictingLeases w.store.leases path lease requested, granted⟩
  let w₁ : World α β := { w with
    store := { w.store with
      leases := w.store.leases.insert lease.leaseKey { lease with leaseState := granted } } }
  have hstore : run World.answer (store (.checkAndCreateLease path lease requested)) s w =
      (.ok (.ok result), s, w₁) := by
    rw [run_store]
    simp only [MemoryStateStore.answer, checkAndCreateLease_eq]
    rfl
  obtain ⟨w₂, hrun₂, hw₂⟩ := breakConflicts_run requested path broken w₁
  obtain ⟨reported, hrun₃, hnone, hclear, hblocked⟩ :=
    reportedLeaseState_run path key.hex requested result broken w₂
  have hbroken : result.conflicts.filter (fun c => c.serverId == s.serverId) = broken := rfl
  unfold grantLease
  rw [run_bind_ok run_get, run_bind_ok run_now, run_bind_ok hstore]
  dsimp only
  rw [hbroken, run_bind_ok hrun₂, run_bind_ok hrun₃, run_bind_ok run_registry, run_pure]
  refine ⟨reported, _, lease, w₂.store.leases, rfl, rfl, rfl, ?_, ⟨hnone, hclear, hblocked⟩⟩
  rw [hw₂]
  rfl

/-- **What is recorded and what is reported**: they agree unless CREATE reports more. -/
theorem grantLease_run (sid : UInt64) (path : String) (key : Bytes) (requested : UInt32)
    (isV2 : Bool) (w : World α β) (hk : w.store.leases.KeyedBy LeaseEntry.leaseKey) :
    ∃ reported w' l, run World.answer (grantLease sid path key requested isV2) s w =
        (.ok (some reported), s, w') ∧ w'.store.leases.lookup key.hex = some l ∧
      (l.leaseState = reported ↔ ¬ OverReports (w.registries s.serverId) w.store.leases path
        key.hex requested s.serverId w.oracle.outcomes) ∧
      (hasWrite reported ↔ hasWrite requested ∧ ((otherLeases w.store.leases path key.hex).filter
        fun l => leasesConflict l.leaseState requested) = []) := by
  obtain ⟨reported, w', lease, after, hrun, hkey, hafter, rfl, h⟩ :=
    grantLease_leases sid path key requested isV2 w
  rw [← hkey]
  refine ⟨reported, w', { lease with leaseState := _ }, hrun, ?_, granted_eq_reported_iff hk h,
    hasWrite_reported_iff hk h⟩
  rw [hafter]
  refine (lookup_breakAll fun l hl => ?_).trans (lookup_insert _)
  exact ((mem_conflictingLeases hk).1 (ownConflicts_subset hl)).2.2.1

end Breaks

/-! ### Opening a file -/

@[simp]
theorem leaseState_durableContext (isPersistent isV2 : Bool) (timeout : UInt32) :
    (durableContext isPersistent isV2 timeout).leaseState = none := by
  unfold durableContext
  split
  · rfl
  split <;> rfl

/-- The response to an open reports a lease state just if a lease was asked for. -/
theorem leaseState_openContexts (o : OpenOptions) (granted : UInt32) :
    (openContexts o granted).findSome? ResponseContext.leaseState =
      o.leaseKey.map fun _ => granted := by
  unfold openContexts
  cases o.leaseKey <;> cases o.isDurable <;> cases o.leaseIsV2 <;> cases o.queryMaximalAccess <;>
    simp [findSome?_cons] <;> rfl

section Opening

open Handler

theorem leaseState_reconnectContexts (handle : HandleState) (guid : Option Bytes)
    (lease : List ResponseContext) :
    (reconnectDurableContext handle guid ++ lease).findSome? ResponseContext.leaseState =
      lease.findSome? ResponseContext.leaseState := by
  unfold reconnectDurableContext
  split <;> simp

variable [Externs]

/-- What CREATE has when it comes to the lease. -/
structure Opening where
  tree : TreeState
  share : String
  action : UInt32
  handleId : HandleId
  options : OpenOptions
  handle : HandleState

/-- The handle is the one that the options ask for. -/
structure Opening.Fits (x : Opening) : Prop where
  persistentId : x.handle.persistentId = x.handleId
  isDurable : x.handle.isDurable = x.options.isDurable
  isPersistent : x.handle.isPersistent = x.options.isPersistent

/-- The part of a create up to its lease. -/
def prepareOpen (header : Smb2Header) (r : CreateRequest) (contexts : List CreateContext)
    (filename : String) : Handler Opening := do
  let found ← storeOrInternal (.getTree header.sessionId header.treeId)
  let tree ← getOrFail found .invalidParameter
  let share ← getShare tree.shareName
  checkShareModes header r tree.shareName filename
  let opened ← openOnBackend r share filename
  let handleId ← storeOrInternal .nextHandleId
  let s ← get
  let o := OpenOptions.ofRequest s.connection.dialect r contexts
  let guid ← openGuid o
  let now ← now
  pure ⟨tree, share, opened.2.2, handleId, o,
    newHandle header r o handleId tree.shareName filename opened.1 opened.2.1 guid now⟩

/-- The part of a create from its lease on. -/
def finishOpen (header : Smb2Header) (r : CreateRequest) (filename : String) (x : Opening) :
    Handler (Smb2Header × CreateResponse) := do
  let lease ← openLease header x.options x.tree.shareName filename
  let oplock ← openOplock x.options x.tree.shareName filename
  storeOrInternal (.createHandle
    { x.handle with
      leaseKey := if lease.isSome then x.options.leaseKey.map Bytes.hex else none
      oplockLevel := oplock.asU8 })
  registerOpenOplock header x.options x.handleId oplock x.tree.shareName filename
  openResponse header r x.options x.share filename x.handleId x.action oplock (lease.getD 0)

variable {α β : Type} [AuthProvider α] [StorageBackend β] {s s' : ConnectionHandler}
  {w w' : World α β} {header : Smb2Header} {r : CreateRequest} {filename : String}

variable {res : Smb2Header × CreateResponse} {handle : HandleState} {guid : Option Bytes}
  {persistentId : UInt64}

theorem openFile_run {contexts : List CreateContext}
    (h : run World.answer (openFile header r contexts filename) s w = (.ok res, s', w')) :
    ∃ x s₁ w₁, run World.answer (prepareOpen header r contexts filename) s w =
        (.ok x, s₁, w₁) ∧ x.Fits ∧
      run World.answer (finishOpen header r filename x) s₁ w₁ = (.ok res, s', w') := by
  unfold openFile at h
  obtain ⟨found, s₁, w₁, h₁, h⟩ := run_bind_eq_ok h
  obtain ⟨tree, s₂, w₂, h₂, h⟩ := run_bind_eq_ok h
  obtain ⟨share, s₃, w₃, h₃, h⟩ := run_bind_eq_ok h
  obtain ⟨_, s₄, w₄, h₄, h⟩ := run_bind_eq_ok h
  obtain ⟨opened, s₅, w₅, h₅, h⟩ := run_bind_eq_ok h
  obtain ⟨handleId, s₆, w₆, h₆, h⟩ := run_bind_eq_ok h
  obtain ⟨s₀, s₇, w₇, h₇, h⟩ := run_bind_eq_ok h
  obtain ⟨guid, s₈, w₈, h₈, h⟩ := run_bind_eq_ok h
  obtain ⟨now, s₉, w₉, h₉, h⟩ := run_bind_eq_ok h
  refine ⟨⟨tree, share, opened.2.2, handleId,
    OpenOptions.ofRequest s₀.connection.dialect r contexts,
    newHandle header r (OpenOptions.ofRequest s₀.connection.dialect r contexts) handleId
      tree.shareName filename opened.1 opened.2.1 guid now⟩, s₉, w₉, ?_, ?_, h⟩
  · unfold prepareOpen
    rw [run_bind_ok h₁, run_bind_ok h₂, run_bind_ok h₃, run_bind_ok h₄,
      run_bind_ok h₅, run_bind_ok h₆, run_bind_ok h₇, run_bind_ok h₈,
      run_bind_ok h₉, run_pure]
  · unfold newHandle
    split <;> exact ⟨rfl, rfl, rfl⟩

omit [Externs] in
theorem openResponse_run {o : OpenOptions} {share : String} {handleId : HandleId} {action : UInt32}
    {oplock : OplockLevel} {granted : UInt32}
    (h : run World.answer (openResponse header r o share filename handleId action oplock
      granted) s w = (.ok res, s', w')) :
    res.2.fileId = handleId ∧ res.2.oplockLevel = oplock ∧
      res.2.leaseState = (o.leaseKey.map fun _ => granted) ∧ w'.store = w.store := by
  unfold openResponse at h
  obtain ⟨respHeader, s₁, w₁, h₁, h⟩ := run_bind_eq_ok h
  obtain ⟨stat, s₂, w₂, h₂, h⟩ := run_bind_eq_ok h
  obtain ⟨time, s₃, w₃, h₃, h⟩ := run_bind_eq_ok h
  cases h₁
  cases h₂
  cases h₃
  cases h
  exact ⟨rfl, rfl, leaseState_openContexts o granted, rfl⟩

omit [Externs] in
theorem registerOpenOplock_store {o : OpenOptions} {handleId : HandleId} {granted : OplockLevel}
    {share : String} {u : Unit}
    (h : run World.answer (registerOpenOplock header o handleId granted share filename) s w =
      (.ok u, s', w')) : w'.store = w.store := by
  unfold registerOpenOplock when at h
  split at h <;> cases h <;> rfl

/-- The response agrees with the store: its handle carries a key, under which the reported state
is stored. -/
def ReportsStored (w : World α β) (response : CreateResponse) : Prop :=
  ∀ state, response.leaseState = some state →
    ∃ handle key lease, w.store.handles.lookup response.fileId = some handle ∧
      handle.leaseKey = some key ∧ w.store.leases.lookup key = some lease ∧
      lease.leaseState = state

omit [Externs] [AuthProvider α] [StorageBackend β] in
theorem reportsStored_iff_of_stored {state : UInt32} {key : String} {lease : LeaseEntry}
    (hstate : response.leaseState = some state)
    (hhdl : w.store.handles.lookup response.fileId = some handle)
    (hkey : handle.leaseKey = some key) (hlease : w.store.leases.lookup key = some lease) :
    ReportsStored w response ↔ lease.leaseState = state := by
  constructor
  · intro h
    obtain ⟨handle', key', lease', hhdl', hkey', hlease', hstate'⟩ := h state hstate
    rw [hhdl] at hhdl'
    cases hhdl'
    rw [hkey] at hkey'
    cases hkey'
    rw [hlease] at hlease'
    cases hlease'
    exact hstate'
  · intro h state' hstate'
    rw [hstate] at hstate'
    cases hstate'
    exact ⟨handle, key, lease, hhdl, hkey, hlease, h⟩

/-- The lease that an open asks for is in order: it is not one that CREATE over-reports. -/
def Opening.InOrder (x : Opening) (filename : String) (s : ConnectionHandler) (w : World α β) :
    Prop :=
  ∀ key, x.options.leaseKey = some key →
    ¬ OverReports (w.registries s.serverId) w.store.leases (filePathOf x.tree.shareName filename)
      key.hex x.options.leaseState s.serverId w.oracle.outcomes

omit [Externs] in
/-- From the lease on, an open asks for its lease and its oplock, records its handle and reports
what it got. -/
theorem finishOpen_run {x : Opening} (hx : x.Fits)
    (h : run World.answer (finishOpen header r filename x) s w = (.ok res, s', w')) :
    ∃ lease s₁ w₁ oplock s₂ w₂,
      run World.answer (openLease header x.options x.tree.shareName filename) s w =
        (.ok lease, s₁, w₁) ∧
      run World.answer (openOplock x.options x.tree.shareName filename) s₁ w₁ =
        (.ok oplock, s₂, w₂) ∧
      res.2.oplockLevel = oplock ∧
      res.2.leaseState = (x.options.leaseKey.map fun _ => lease.getD 0) ∧
      w'.store.leases = w₂.store.leases ∧
      w'.store.handles.lookup res.2.fileId = some
        { x.handle with
          leaseKey := if lease.isSome then x.options.leaseKey.map Bytes.hex else none
          oplockLevel := oplock.asU8 } := by
  unfold finishOpen at h
  obtain ⟨lease, s₁, w₁, h₁, h⟩ := run_bind_eq_ok h
  obtain ⟨oplock, s₂, w₂, h₂, h⟩ := run_bind_eq_ok h
  obtain ⟨_, s₃, w₃, h₃, h⟩ := run_bind_eq_ok h
  cases h₃
  obtain ⟨_, s₄, w₄, h₄, h⟩ := run_bind_eq_ok h
  have hreg : w₄.store = _ := registerOpenOplock_store h₄
  obtain ⟨hfile, hlvl, hstate, hstore⟩ := openResponse_run h
  refine ⟨lease, s₁, w₁, oplock, s₂, w₂, h₁, h₂, hlvl, hstate, ?_, ?_⟩
  · rw [hstore, hreg]
    rfl
  · rw [hstore, hreg, hfile, ← hx.persistentId]
    exact lookup_insert w₂.store.handles

omit [Externs] in
/-- From the lease on, an open reports what is stored just if its lease is in order. -/
theorem finishOpen_reports {x : Opening} (hk : w.store.Keyed) (hx : x.Fits)
    (h : run World.answer (finishOpen header r filename x) s w = (.ok res, s', w')) :
    ReportsStored w' res.2 ↔ x.InOrder filename s w := by
  obtain ⟨lease, s₁, w₁, oplock, s₂, w₂, h₁, h₂, -, hstate, hleases, hhdl⟩ := finishOpen_run hx h
  cases hkey : x.options.leaseKey with
  | none =>
    -- nothing is asked for, and nothing is reported
    rw [hkey] at hstate
    refine iff_of_true (fun state h => ?_) fun key h => ?_
    · rw [hstate] at h
      cases h
    · rw [hkey] at h
      cases h
  | some key =>
    obtain ⟨reported, w₁', l, hrun, hl, hiff, -⟩ := grantLease_run header.sessionId
      (filePathOf x.tree.shareName filename) key x.options.leaseState x.options.leaseIsV2 w
      hk.leases
    simp only [openLease, hkey] at h₁
    rw [hrun] at h₁
    cases h₁
    simp only [openOplock, hkey, isNone_some, Bool.false_eq_true, false_and, if_false] at h₂
    cases h₂
    rw [hkey] at hstate hhdl
    have hlease : w'.store.leases.lookup key.hex = some l := by
      rw [hleases]
      exact hl
    rw [reportsStored_iff_of_stored hstate hhdl rfl hlease]
    refine hiff.trans ⟨fun h key' hkey' => ?_, fun h => h key hkey⟩
    rw [hkey] at hkey'
    cases hkey'
    exact h

/-! ### Durable reconnect -/

omit [Externs] in
theorem findDurableHandle_run
    (h : run World.answer (findDurableHandle persistentId guid filename) s w =
      (.ok handle, s', w')) :
    w.store.handles.lookup (BitVec.ofNat 128 persistentId.toNat) = some handle ∧
      (handle.isDurable || handle.isPersistent) = true ∧ s = s' ∧ w = w' := by
  unfold findDurableHandle at h
  rw [run_bind_ok (run_storeOrInternal rfl)] at h
  obtain ⟨handle', hfound, h⟩ := run_getOrFail_bind_eq_ok h
  obtain ⟨hdur, h⟩ := run_require_bind_eq_ok h
  obtain ⟨-, h⟩ := run_require_bind_eq_ok h
  rw [run_bind_ok run_now] at h
  split at h
  · obtain ⟨-, h⟩ := run_require_bind_eq_ok h
    obtain ⟨-, h⟩ := run_require_bind_eq_ok h
    cases h
    exact ⟨hfound, hdur, rfl, rfl⟩
  · obtain ⟨_, s₆, w₆, h₆, h⟩ := run_bind_eq_ok h
    cases h

/-- The lease key, if it can be read. -/
def reconnectKey (handle : HandleState) : Option String :=
  handle.leaseKey.filter fun key => ((Bytes.unhex key).filter fun k => k.length == 16).isSome

omit [Externs] in
/-- A reconnect reports the stored state, or read caching if there is none. -/
theorem reconnectLeaseContext_run {contexts : List ResponseContext}
    (h : run World.answer (reconnectLeaseContext handle) s w = (.ok contexts, s', w')) :
    contexts.findSome? ResponseContext.leaseState =
        ((reconnectKey handle).map fun key =>
          ((w.store.leases.lookup key).map LeaseEntry.leaseState).getD 0x01) ∧
      w = w' := by
  unfold reconnectLeaseContext at h
  unfold reconnectKey
  cases hkey : handle.leaseKey with
  | none =>
    simp only [hkey] at h
    cases h
    exact ⟨rfl, rfl⟩
  | some key =>
    simp only [hkey] at h
    cases hdec : (Bytes.unhex key).filter fun k => k.length == 16 with
    | none =>
      simp only [hdec] at h
      cases h
      rw [filter_some, hdec]
      exact ⟨rfl, rfl⟩
    | some bytes =>
      simp only [hdec] at h
      rw [run_bind_ok run_store] at h
      simp only [MemoryStateStore.answer] at h
      rw [filter_some, hdec]
      cases hlease : w.store.leases.lookup key with
      | none =>
        simp only [hlease] at h
        cases h
        exact ⟨by simp [hlease, ResponseContext.leaseState], rfl⟩
      | some lease =>
        simp only [hlease] at h
        cases h
        exact ⟨by cases lease.isV2 <;> simp [hlease, ResponseContext.leaseState], rfl⟩

/-- The handle that a reconnect takes has a lease in the store, if the response reports one. -/
def ReconnectInOrder (w : World α β) (persistentId : UInt64) : Prop :=
  ∀ handle key, w.store.handles.lookup (BitVec.ofNat 128 persistentId.toNat) = some handle →
    reconnectKey handle = some key → (w.store.leases.lookup key).isSome

omit [Externs] in
theorem registerHandleLease_store {u : Unit}
    (h : run World.answer (registerHandleLease header handle) s w = (.ok u, s', w')) :
    w'.store = w.store := by
  unfold registerHandleLease at h
  split at h <;> cases h <;> rfl

omit [Externs] [AuthProvider α] [StorageBackend β] in
/-- A report of the stored state or read caching agrees with the store just if there is a stored
state. -/
theorem reportsStored_reconnect (hhdl : w.store.handles.lookup response.fileId = some handle)
    (hstate : response.leaseState =
      (reconnectKey handle).map fun key =>
      ((w.store.leases.lookup key).map LeaseEntry.leaseState).getD 0x01) :
    ReportsStored w response ↔
      ∀ key, reconnectKey handle = some key → (w.store.leases.lookup key).isSome := by
  cases hkey : reconnectKey handle with
  | none =>
    rw [hkey] at hstate
    refine iff_of_true (fun state h => ?_) nofun
    rw [hstate] at h
    cases h
  | some key =>
    rw [hkey] at hstate
    have hown : handle.leaseKey = some key := (filter_eq_some_iff.1 hkey).1
    cases hlease : w.store.leases.lookup key with
    | none =>
      refine iff_of_false (fun h => ?_) fun h => ?_
      · obtain ⟨handle', key', lease, hhdl', hkey', hlease', -⟩ := h _ hstate
        rw [hhdl] at hhdl'
        cases hhdl'
        rw [hown] at hkey'
        cases hkey'
        rw [hlease] at hlease'
        cases hlease'
      · have := h key rfl
        rw [hlease] at this
        cases this
    | some lease =>
      rw [map_some, hlease] at hstate
      refine iff_of_true ((reportsStored_iff_of_stored hstate hhdl hown hlease).2 rfl) ?_
      rintro _ ⟨⟩
      rw [hlease]
      rfl

section

variable (h : run World.answer (durableReconnect header persistentId guid filename) s w =
  (.ok res, s', w'))

include h

theorem durableReconnect_run :
    ∃ handle handle',
      w.store.handles.lookup (BitVec.ofNat 128 persistentId.toNat) = some handle ∧
      w'.store.handles.lookup res.2.fileId = some handle' ∧
      reconnectKey handle' = reconnectKey handle ∧ w'.store.leases = w.store.leases ∧
      (handle'.isDurable || handle'.isPersistent) = true ∧
      res.2.oplockLevel = OplockLevel.fromU8 handle.oplockLevel ∧
      res.2.leaseState = (reconnectKey handle').map fun key =>
        ((w'.store.leases.lookup key).map LeaseEntry.leaseState).getD 0x01 := by
  unfold durableReconnect at h
  obtain ⟨handle, s₁, w₁, h₁, h⟩ := run_bind_eq_ok h
  obtain ⟨hhdl, hdur, rfl, rfl⟩ := findDurableHandle_run h₁
  rw [run_bind_ok run_getTree] at h
  obtain ⟨tree, -, h⟩ := run_getOrFail_bind_eq_ok h
  obtain ⟨share, -, h⟩ := run_getOrFail_bind_eq_ok h
  obtain ⟨stat, s₅, w₅, h₅, h⟩ := run_bind_eq_ok h
  cases h₅
  obtain ⟨metadata, -, h⟩ := run_getOrFail_bind_eq_ok h
  obtain ⟨-, h⟩ := run_require_bind_eq_ok h
  rw [run_bind_ok run_now] at h
  obtain ⟨_, s₉, w₉, h₉, h⟩ := run_bind_eq_ok h
  cases h₉
  obtain ⟨_, s₁₀, w₁₀, h₁₀, h⟩ := run_bind_eq_ok h
  obtain ⟨respHeader, s₁₁, w₁₁, h₁₁, h⟩ := run_bind_eq_ok h
  cases h₁₁
  obtain ⟨lease, s₁₂, w₁₂, h₁₂, h⟩ := run_bind_eq_ok h
  obtain ⟨hrep, rfl⟩ := reconnectLeaseContext_run h₁₂
  obtain ⟨time, s₁₃, w₁₃, h₁₃, h⟩ := run_bind_eq_ok h
  cases h₁₃
  cases h
  -- the handle is stored again; leases are only read
  have hstore := registerHandleLease_store h₁₀
  have hleases : w₁₀.store.leases = w.store.leases := by
    rw [hstore]
    rfl
  have hhandles : w₁₀.store.handles.lookup handle.persistentId = some
      { handle with
        sessionId := header.sessionId
        treeId := header.treeId
        lastAccess := w.oracle.now
        volatileId := handle.persistentId } := by
    rw [hstore]
    exact lookup_insert w.store.handles
  exact ⟨handle, _, hhdl, hhandles, rfl, hleases, hdur, rfl,
    (leaseState_reconnectContexts _ guid lease).trans hrep⟩

theorem durableReconnect_reports : ReportsStored w' res.2 ↔ ReconnectInOrder w persistentId := by
  obtain ⟨handle, handle', hhdl, hhdl', hsame, hleases, -, -, hstate⟩ := durableReconnect_run h
  rw [reportsStored_reconnect hhdl' hstate, hleases, hsame]
  refine ⟨fun h handle₀ key hhdl₀ hkey => ?_, fun h key hkey => h handle key hhdl hkey⟩
  rw [hhdl] at hhdl₀
  cases hhdl₀
  exact h key hkey

end

/-! ### CREATE -/

/-- The lease that a CREATE asks for is in order; for an open, when share modes are checked and
the file is open. -/
def CreateInOrder (header : Smb2Header) (body : Bytes) (s : ConnectionHandler) (w : World α β) :
    Prop :=
  ∀ r, CreateRequest.read body = some r →
    match reconnectOf (r.contexts body) with
    | some (persistentId, _) => ReconnectInOrder w persistentId
    | none => ∀ x s₁ w₁, run World.answer (prepareOpen header r (r.contexts body)
        (normalizeSlashes (r.filenameRaw body))) s w = (.ok x, s₁, w₁) →
        x.InOrder (normalizeSlashes (r.filenameRaw body)) s₁ w₁

variable {ok : World α β → SmbOp ⊕ Mark → Prop}

theorem createResponse_iff {c : (smbMachine α β ok).Config} (hc : SmbReachable ok c) {body : Bytes}
    {res : Smb2Header × CreateResponse}
    (hrun : run World.answer (createResponse header body) s c.world = (.ok res, s', w'))
    {G : Prop} {P : UInt64 → Prop} {O : Opening → String → ConnectionHandler → World α β → Prop}
    (hrecon : ∀ persistentId guid filename,
      run World.answer (durableReconnect header persistentId guid filename) s c.world =
        (.ok res, s', w') → (G ↔ P persistentId))
    (hopen : ∀ r filename x s₁ w₁, w₁.store.Keyed → x.Fits →
      run World.answer (finishOpen header r filename x) s₁ w₁ = (.ok res, s', w') →
        (G ↔ O x filename s₁ w₁)) :
    G ↔ ∀ r, CreateRequest.read body = some r →
      match reconnectOf (r.contexts body) with
      | some (persistentId, _) => P persistentId
      | none => ∀ x s₁ w₁, run World.answer (prepareOpen header r (r.contexts body)
          (normalizeSlashes (r.filenameRaw body))) s c.world = (.ok x, s₁, w₁) →
          O x (normalizeSlashes (r.filenameRaw body)) s₁ w₁ := by
  unfold createResponse at hrun
  obtain ⟨r, hread, hrun⟩ := run_parsed_bind_eq_ok hrun
  obtain ⟨_, s₂, w₂, h₂, hrun⟩ := run_bind_eq_ok hrun
  rw [run_ofExcept] at h₂
  obtain ⟨rfl, rfl⟩ := Prod.mk.inj (Prod.mk.inj h₂).2
  dsimp only at hrun
  simp only [hread, some.injEq, forall_eq']
  cases hrec : reconnectOf (r.contexts body) with
  | some reconnect =>
    rw [hrec] at hrun
    exact hrecon _ _ _ hrun
  | none =>
    rw [hrec] at hrun
    obtain ⟨x, s₁, w₁, hprepare, hx, hfin⟩ := openFile_run hrun
    have hkeyed : w₁.store.Keyed := by
      have h := run_invariant (fun o w (h : World.Orderly w) => h.answer o)
        (prepareOpen header r (r.contexts body) (normalizeSlashes (r.filenameRaw body))) s
        hc.orderly.1
      rw [hprepare] at h
      exact h.keyed
    rw [hopen _ _ x s₁ w₁ hkeyed hx hfin]
    refine ⟨fun h x' s₁' w₁' hprepare' => ?_, fun h => h x s₁ w₁ hprepare⟩
    rw [hprepare] at hprepare'
    cases hprepare'
    exact h

/-- **Exactly when a report agrees with the store.** -/
theorem reportsStored_iff {c : (smbMachine α β ok).Config} (hc : SmbReachable ok c)
    {body : Bytes} {respHeader : Smb2Header} {response : CreateResponse}
    (hrun : Proc.run World.answer (createResponse header body) s c.world =
      (.ok (respHeader, response), s', w')) :
    ReportsStored w' response ↔ CreateInOrder header body s c.world :=
  createResponse_iff hc hrun (fun _ _ _ => durableReconnect_reports)
    fun _ _ _ _ _ => finishOpen_reports

end Opening

/-! ### Reports in sample runs -/

namespace Sample

open Handler

/-- After some messages, a CREATE on a connection: the response and the world after it. -/
def createAfter (messages : List (ℕ × Bytes)) (i : ℕ) (header : Smb2Header) (body : Bytes) :
    Option (CreateResponse × FilesWorld) :=
  match serveAll (startNotified .anonymousOnly : Snapshot anyCall) messages with
  | none => none
  | some st =>
      match st.conn i with
      | .closed => none
      | .open s =>
          match run World.answer (createResponse header body) s st.world with
          | (.ok (_, response), _, w) => some (response, w)
          | (.error _, _, _) => none

theorem createAfter_run {messages : List (ℕ × Bytes)} {i : ℕ} {header : Smb2Header} {body : Bytes}
    {w : FilesWorld}
    (h : createAfter messages i header body = some (response, w)) :
    ∃ (c : FilesConfig) (s s' : ConnectionHandler)
      (respHeader : Smb2Header), SmbReachable anyCall c ∧
      run World.answer (createResponse header body) s c.world =
        (.ok (respHeader, response), s', w) := by
  unfold createAfter at h
  split at h
  · cases h
  · next st hserved =>
    split at h
    · cases h
    · split at h
      · next hrun =>
        cases h
        exact ⟨st.config, _, _, _, (run_serveAll (run_startNotified _) hserved).reachable, hrun⟩
      · cases h

/-- The lease keys of the two sessions. -/
def leaseKeys : Bytes × Bytes := (replicate 16 1, replicate 16 2)

/-- Two sessions connect to the share, and the first opens a file with a lease. -/
def leasedFile (state : UInt32) : List (ℕ × Bytes) :=
  [(0, sessionSetup 0 []), (0, treeConnect 1 "\\\\a\\s"),
    (0, create 1 1 "f" 0xFF (leaseContext leaseKeys.1 state)),
    (1, sessionSetup 0 []), (1, treeConnect 2 "\\\\a\\s")]

/-- The second session opens the file with a lease of its own. -/
def secondCreate (state : UInt32) : Bytes :=
  (create 2 1 "f" 0xFF (leaseContext leaseKeys.2 state)).drop 64

def secondHeader : Smb2Header := { command := .create, sessionId := 2, treeId := 1 }

/-- A lease that meets another on the file is reported as it is stored: the first one is broken,
and the second is granted all that was asked for but one bit. -/
theorem reportsStored_iff_reduced :
    ∃ (c : FilesConfig) (s s' : ConnectionHandler)
      (respHeader : Smb2Header) (response : CreateResponse)
      (w' : FilesWorld),
      (SmbReachable anyCall c ∧
        Proc.run World.answer (createResponse secondHeader (secondCreate 0x07)) s c.world =
          (.ok (respHeader, response), s', w') ∧ response.leaseState = some 0x05 ∧
        (w'.store.leases.lookup leaseKeys.1.hex).map LeaseEntry.leaseState = some 0 ∧
        ReportsStored w' response) ∧
      (ReportsStored w' response ↔
        CreateInOrder secondHeader (secondCreate 0x07) s c.world) := by
  obtain ⟨⟨response, w'⟩, hafter, hstate, hfile, hhdl, hbroken, hlease⟩ : ∃ x,
      createAfter (leasedFile 0x05) 1 secondHeader (secondCreate 0x07) = some x ∧
      x.1.leaseState = some 0x05 ∧ x.1.fileId = 2 ∧
      (x.2.store.handles.lookup 2).bind HandleState.leaseKey = some leaseKeys.2.hex ∧
      (x.2.store.leases.lookup leaseKeys.1.hex).map LeaseEntry.leaseState = some 0 ∧
      (x.2.store.leases.lookup leaseKeys.2.hex).map LeaseEntry.leaseState = some 0x05 :=
    exists_of_any (by decide +kernel)
  obtain ⟨handle, hhdl, hkey⟩ := bind_eq_some_iff.1 hhdl
  obtain ⟨lease, hlease, hstored⟩ := map_eq_some_iff.1 hlease
  obtain ⟨c, s, s', respHeader, hc, hrun⟩ := createAfter_run hafter
  rw [← hfile] at hhdl
  have hreports := (reportsStored_iff_of_stored hstate hhdl hkey hlease).2 hstored
  exact ⟨c, s, s', respHeader, response, w', ⟨hc, hrun, hstate, hbroken, hreports⟩,
    reportsStored_iff hc hrun⟩

/-- **A report of more than is stored**: the second session asks for read caching, and the holder
of the lease does not answer the break.  Read caching is reported, and a lease without caching is
stored. -/
theorem overReported_create :
    ∃ (c : FilesConfig) (s s' : ConnectionHandler)
      (respHeader : Smb2Header) (response : CreateResponse)
      (w' : FilesWorld),
      SmbReachable anyCall c ∧
      Proc.run World.answer (createResponse secondHeader (secondCreate 0x01)) s c.world =
        (.ok (respHeader, response), s', w') ∧ response.leaseState = some 0x01 ∧
      (w'.store.leases.lookup leaseKeys.2.hex).map LeaseEntry.leaseState = some 0 ∧
      ¬ ReportsStored w' response := by
  obtain ⟨⟨response, w'⟩, hafter, hstate, hfile, hhdl, hlease⟩ : ∃ x,
      createAfter (leasedFile 0x03) 1 secondHeader (secondCreate 0x01) = some x ∧
      x.1.leaseState = some 0x01 ∧ x.1.fileId = 2 ∧
      (x.2.store.handles.lookup 2).bind HandleState.leaseKey = some leaseKeys.2.hex ∧
      (x.2.store.leases.lookup leaseKeys.2.hex).map LeaseEntry.leaseState = some 0 :=
    exists_of_any (by decide +kernel)
  obtain ⟨handle, hhdl, hkey⟩ := bind_eq_some_iff.1 hhdl
  obtain ⟨lease, hlease', hstored⟩ := map_eq_some_iff.1 hlease
  obtain ⟨c, s, s', respHeader, hc, hrun⟩ := createAfter_run hafter
  rw [← hfile] at hhdl
  refine ⟨c, s, s', respHeader, response, w', hc, hrun, hstate, hlease, fun hreports => ?_⟩
  rw [reportsStored_iff_of_stored hstate hhdl hkey hlease', hstored] at hreports
  exact absurd hreports (by decide)

end Sample

end RustSmb
