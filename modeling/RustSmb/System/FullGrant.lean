import RustSmb.System.LeaseReport

/-!
# Break targets and full grants

A request for a lease has the leases of its own server that are in the way broken to
`calculateBreakState`, and is granted everything if no lease is in the way any more.  But a holder
keeps read caching when the request is for write caching, and keeps the bit `0x02` when the request
has the bit `0x04`, and either is still in the way.

## Main results

* `calculateBreakState_subset` — a holder is never asked for more than it has.
* `fullGrant_iff` — **exactly when holders that comply make room for a request.**
* `Sample.readHolder_in_the_way` — a holder that keeps read caching.
-/

namespace RustSmb

open List

/-! ### Break targets -/

theorem calculateBreakState_subset (existing requested : UInt32) :
    calculateBreakState existing requested &&& existing =
      calculateBreakState existing requested := by
  have hpart : ∀ mask, (existing &&& mask) &&& existing = existing &&& mask := fun mask => by
    rw [UInt32.and_comm, ← UInt32.and_assoc, UInt32.and_self]
  unfold calculateBreakState
  split
  · split
    · next hread =>
      have hbit : existing &&& 1 = 0 ∨ existing &&& 1 = 1 := by
        simp only [← UInt32.toNat_inj, UInt32.toNat_and]
        have hmod : existing.toNat &&& (1 : UInt32).toNat = existing.toNat % 2 :=
          Nat.and_one_is_mod _
        simp only [hmod]
        exact Nat.mod_two_eq_zero_or_one _
      rw [UInt32.and_comm]
      exact hbit.resolve_left hread
    · exact UInt32.zero_and
  · split <;> exact hpart _

/-- A holder with the second bit keeps it just if the request has the third. -/
theorem hasWrite_calculateBreakState {existing requested : UInt32} (he : hasWrite existing)
    (hr : ¬ hasWrite requested) :
    hasWrite (calculateBreakState existing requested) ↔ requested &&& 0x04 ≠ 0 := by
  unfold calculateBreakState
  rw [if_neg (show ¬ requested &&& 2 ≠ 0 from hr)]
  split
  · next hhdl =>
    refine iff_of_true ?_ hhdl
    show (existing &&& 3) &&& 2 ≠ 0
    rw [UInt32.and_assoc]
    exact he
  · next hhdl => exact iff_of_false (not_hasWrite_clear existing) hhdl

section Complying

variable {r : LeaseBreakRegistry} {requested : UInt32} {ls : List LeaseEntry}
  {outcomes : List BreakWait}

/-- Every lease that is broken ends in the state that was asked: its holder is notified and
acknowledges just that, if it is to. -/
def AllComply (r : LeaseBreakRegistry) (requested : UInt32) :
    List LeaseEntry → List BreakWait → Prop
  | [], _ => True
  | l :: rest, outcomes =>
      if calculateBreakState l.leaseState requested = l.leaseState then
        AllComply r requested rest outcomes
      else holderReached r l = true ∧
        brokenState requested l outcomes = calculateBreakState l.leaseState requested ∧
        AllComply r requested rest (outcomesLeft l outcomes)

/-- Holders that comply give up the second bit, unless the request has the third. -/
theorem allGiveUp_of_allComply (h : AllComply r requested ls outcomes) (hr : ¬ hasWrite requested)
    (hhdl : requested &&& 0x04 = 0) (hw : ∀ l ∈ ls, hasWrite l.leaseState) :
    allGiveUp r requested ls outcomes := by
  induction ls generalizing outcomes with
  | nil => trivial
  | cons l rest ih =>
    obtain ⟨hl, hrest⟩ := forall_mem_cons.1 hw
    have htarget : ¬ hasWrite (calculateBreakState l.leaseState requested) := fun hkept =>
      (hasWrite_calculateBreakState hl hr).1 hkept hhdl
    have hchange : calculateBreakState l.leaseState requested ≠ l.leaseState := fun heq =>
      htarget (by rw [heq]; exact hl)
    rw [AllComply, if_neg hchange] at h
    refine ⟨?_, by rw [h.2.1]; exact htarget, ih h.2.2 hrest⟩
    rw [isBroken, bne_iff_ne.2 hchange, h.1, Bool.and_self]

/-- If the request has the third bit, a holder that complies keeps the second. -/
theorem not_allGiveUp_of_allComply {l : LeaseEntry}
    (h : AllComply r requested (l :: ls) outcomes) (hr : ¬ hasWrite requested)
    (hl : hasWrite l.leaseState) (hhdl : requested &&& 0x04 ≠ 0) :
    ¬ allGiveUp r requested (l :: ls) outcomes := by
  rintro ⟨hbroken, hgives, -⟩
  rw [isBroken, Bool.and_eq_true, bne_iff_ne] at hbroken
  rw [AllComply, if_neg hbroken.1] at h
  rw [h.2.1] at hgives
  exact hgives ((hasWrite_calculateBreakState hl hr).2 hhdl)

end Complying

/-! ### Grants -/

section Granting

open Handler

variable {α β : Type} [AuthProvider α] [StorageBackend β] {s : ConnectionHandler}
  {leases : Table String LeaseEntry} {path : String} {lease : LeaseEntry} {requested : UInt32}

theorem grantedState_ne_requested (hsome : conflictingLeases leases path lease requested ≠ []) :
    grantedState leases path lease requested ≠ requested := by
  intro heq
  by_cases hr : hasWrite requested
  · exact not_hasWrite_grantedState hsome (by rw [heq]; exact hr)
  · obtain ⟨hzero, hne⟩ := grantedState_of_conflict hr hsome
    exact hne (heq.symm.trans hzero)

theorem leasesConflict_of_looksClear {key : String} (hclear : LooksClear leases path key requested)
    {l : LeaseEntry} (hl : l ∈ otherLeases leases path key) :
    leasesConflict l.leaseState requested = false := by
  obtain ⟨hvalue, hl⟩ := mem_filter.1 hl
  obtain ⟨k, hlook⟩ := Table.mem_values.1 hvalue
  obtain ⟨hpath, hkey⟩ := Bool.and_eq_true_iff.1 hl
  have hfree := hasLeaseConflict_eq_false_iff.1
    (hclear k l hlook (beq_iff_eq.1 hpath) (bne_iff_ne.1 hkey))
  rw [Bool.eq_false_iff, Ne, leasesConflict_eq_true_iff]
  rintro (h | h)
  · exact hfree.1 h.1
  · exact hfree.2 h.1

/-- A request is granted in full: no other lease is in its way afterwards, and everything is
reported. -/
def FullGrant (w : World α β) (s : ConnectionHandler) (sid : UInt64) (path : String) (key : Bytes)
    (requested : UInt32) (isV2 : Bool) : Prop :=
  ∃ w', Proc.run World.answer (grantLease sid path key requested isV2) s w =
      (.ok (some requested), s, w') ∧
    ∀ l ∈ otherLeases w'.store.leases path key.hex, leasesConflict l.leaseState requested = false

/-- **When holders that comply make room**: holders are always asked to break to a part of what
they have.  If the leases on the file are of one server and those in the way end as they were
asked to, a request is granted in full just if none was in the way or it has neither the bit
`0x02` nor `0x04`. -/
theorem fullGrant_iff (sid : UInt64) (path : String) (key : Bytes) (requested : UInt32)
    (isV2 : Bool) (w : World α β) (hk : w.store.leases.KeyedBy LeaseEntry.leaseKey)
    (hown : ∀ l ∈ otherLeases w.store.leases path key.hex, l.serverId = s.serverId)
    (hcomply : AllComply (w.registries s.serverId) requested
      ((otherLeases w.store.leases path key.hex).filter fun l =>
        leasesConflict l.leaseState requested) w.oracle.outcomes) :
    (∀ l ∈ otherLeases w.store.leases path key.hex,
      calculateBreakState l.leaseState requested &&& l.leaseState =
        calculateBreakState l.leaseState requested) ∧
    (FullGrant w s sid path key requested isV2 ↔
      ((otherLeases w.store.leases path key.hex).filter fun l =>
          leasesConflict l.leaseState requested) = [] ∨
        requested &&& 0x02 = 0 ∧ requested &&& 0x04 = 0) := by
  refine ⟨fun l _ => calculateBreakState_subset l.leaseState requested, ?_⟩
  obtain ⟨reported, w', lease, after, hrun, hkey, hafter, rfl, h⟩ :=
    grantLease_leases sid path key requested isV2 w
  rw [← hkey] at hown hcomply ⊢
  have hfull : FullGrant w s sid path key requested isV2 ↔ reported = requested ∧
      ∀ l ∈ otherLeases w'.store.leases path lease.leaseKey,
        leasesConflict l.leaseState requested = false := by
    unfold FullGrant
    rw [hrun, hkey]
    refine ⟨?_, fun h => ⟨w', by rw [h.1], h.2⟩⟩
    rintro ⟨w'', hw'', hoths⟩
    cases hw''
    exact ⟨rfl, hoths⟩
  rw [hfull, hafter]
  have hall : ownConflicts w.store.leases path lease requested s.serverId =
      conflictingLeases w.store.leases path lease requested :=
    filter_eq_self.2 fun l hl => beq_iff_eq.2 (hown l (mem_filter.1 hl).1)
  change _ ↔ conflictingLeases w.store.leases path lease requested = [] ∨ _
  by_cases hempty : conflictingLeases w.store.leases path lease requested = []
  · refine iff_of_true ⟨?_, fun l hl => ?_⟩ (.inl hempty)
    · rw [h.none (hall.trans hempty), grantedState, hempty]
      rfl
    · -- nothing is broken, and the only new lease is that of the request
      obtain ⟨hvalue, hl⟩ := mem_filter.1 hl
      obtain ⟨k, hlook⟩ := Table.mem_values.1 hvalue
      rw [afterBreaks, hall, hempty, breakAll] at hlook
      rcases Table.of_lookup_insert hlook with ⟨-, rfl⟩ | hold
      · simp at hl
      · have hoth : l ∈ otherLeases w.store.leases path lease.leaseKey :=
          mem_filter.2 ⟨Table.mem_values.2 ⟨k, hold⟩, hl⟩
        exact Bool.eq_false_iff.2 (filter_eq_nil_iff.1 hempty l hoth)
  · have hbroken : ownConflicts w.store.leases path lease requested s.serverId ≠ [] := by
      rw [hall]
      exact hempty
    have hw : ¬ hasWrite requested →
        ∀ l ∈ conflictingLeases w.store.leases path lease requested, hasWrite l.leaseState :=
      fun hr l hl => ((leasesConflict_of_not_hasWrite hr).1 (mem_filter.1 hl).2).1
    have hiff := @looksClear_iff (w.registries s.serverId) _ w.oracle.outcomes _ _ _ _
      (grantedState w.store.leases path lease requested) hk hbroken
    rw [or_iff_right hempty]
    constructor
    · rintro ⟨heq, -⟩
      have hlooks := not_not.1 fun hno =>
        grantedState_ne_requested hempty ((h.blocked hbroken hno).symm.trans heq)
      obtain ⟨hr, -, hgive⟩ := hiff.1 hlooks
      refine ⟨not_ne_iff.1 hr, not_ne_iff.1 fun hhdl => ?_⟩
      obtain ⟨l, rest, hcons⟩ := exists_cons_of_ne_nil hempty
      have hl := hw hr l (by rw [hcons]; exact mem_cons_self)
      have hcomply : AllComply _ _ (conflictingLeases w.store.leases path lease requested) _ :=
        hcomply
      rw [hcons] at hgive hcomply
      exact not_allGiveUp_of_allComply hcomply hr hl hhdl hgive
    · rintro ⟨hwrite, hhdl⟩
      have hr : ¬ hasWrite requested := not_ne_iff.2 hwrite
      have hlooks := hiff.2 ⟨hr, fun l hl => hown l (mem_filter.1 hl).1,
        allGiveUp_of_allComply hcomply hr hhdl (hw hr)⟩
      exact ⟨h.clear hbroken hlooks, fun l hl => leasesConflict_of_looksClear hlooks hl⟩

end Granting

namespace Sample

/-- A lease with read and write caching on a file. -/
def cachingLease : LeaseEntry := ⟨"k", "", 1, "a", "s/f", 3, 1, 0, false, 0, none, false⟩

/-- A world in which the holder of that lease is about to acknowledge read caching. -/
def cachedWorld : FilesWorld :=
  { world .anonymousOnly with
    store := { MemoryStateStore.new with
      leases := AList.insert "k" cachingLease (∅ : Table String LeaseEntry) }
    registries := fun _ => { LeaseBreakRegistry.new with
      leaseConnections := AList.singleton "k" ⟨1, "a", "", 1⟩
      leaseEvents := AList.singleton 1 [] }
    oracle := { outcomes := [.received (.acknowledged 1 2)] } }

/-- A request for read caching is granted in full. -/
theorem fullGrant_iff_read : FullGrant cachedWorld (handler "a") 2 "s/f" [1] 1 true := by
  have hk : cachedWorld.store.leases.KeyedBy LeaseEntry.leaseKey := .insert .empty cachingLease
  exact ((fullGrant_iff 2 "s/f" [1] 1 true cachedWorld hk (by decide +kernel)
    ⟨by decide +kernel, by decide +kernel, trivial⟩).2.2 (.inr (by decide)))

/-- **A holder that keeps read caching is in the way**: it gives up write caching as asked, and a
request for read and write caching is granted nothing. -/
theorem readHolder_in_the_way :
    AllComply (cachedWorld.registries "a") 3 [cachingLease] cachedWorld.oracle.outcomes ∧
      calculateBreakState cachingLease.leaseState 3 = 1 ∧
      ¬ FullGrant cachedWorld (handler "a") 2 "s/f" [1] 3 true := by
  refine ⟨⟨by decide +kernel, by decide +kernel, trivial⟩, by decide, ?_⟩
  rintro ⟨w', hrun, -⟩
  have hgrant : (Proc.run World.answer (Handler.grantLease 2 "s/f" [1] 3 true) (handler "a")
      cachedWorld).1.toOption = some (some 0) := by decide +kernel
  rw [hrun] at hgrant
  cases hgrant

end Sample

end RustSmb
