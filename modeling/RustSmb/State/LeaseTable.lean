import RustSmb.State.Store

/-!
# Write caching is exclusive in the lease table

The in-memory store decides in one step whether a lease can be granted and in which state it is
recorded.  Along every run of its three methods each lease is filed under its own key, and beside a
lease with the write bit every other lease on the file is recorded with state zero.

A key may move to another file and may be asked for again, and the reduced state is computed from
the conflicting leases only.  Neither matters: the recorded state is compatible with *every* lease
under another key (`grantedState_compatible`).

## Main results

* `checkAndCreateLease_eq` — what the method records and returns.
* `grantedState_compatible` — the state recorded goes with every other lease on the file.
* `exclusiveWrite_leaseTable` — **in every run write caching is exclusive, and what is
  returned is what is recorded.**
-/

namespace RustSmb

open MemoryStateStore

def hasWrite (state : UInt32) : Prop := state &&& LeaseEntry.WRITE_CACHING ≠ 0

instance (state : UInt32) : Decidable (hasWrite state) := inferInstanceAs (Decidable (_ ≠ _))

theorem not_hasWrite_zero : ¬ hasWrite 0 := by decide

theorem not_hasWrite_clear (s : UInt32) : ¬ hasWrite (s &&& ~~~LeaseEntry.WRITE_CACHING) := by
  unfold hasWrite
  rw [UInt32.and_assoc, show ~~~LeaseEntry.WRITE_CACHING &&& LeaseEntry.WRITE_CACHING = 0 from rfl]
  simp

/-- Two lease states that may stand on one file under different keys. -/
def Compatible (a b : UInt32) : Prop := (hasWrite a → b = 0) ∧ (hasWrite b → a = 0)

theorem Compatible.symm {a b : UInt32} (h : Compatible a b) : Compatible b a := ⟨h.2, h.1⟩

theorem compatible_zero (a : UInt32) : Compatible a 0 :=
  ⟨fun _ => rfl, fun h => absurd h not_hasWrite_zero⟩

theorem compatible_of_not_hasWrite {a b : UInt32} (ha : ¬ hasWrite a) (hb : ¬ hasWrite b) :
    Compatible a b :=
  ⟨fun h => absurd h ha, fun h => absurd h hb⟩

theorem leasesConflict_eq_true_iff {e r : UInt32} :
    leasesConflict e r = true ↔ hasWrite e ∧ r ≠ 0 ∨ hasWrite r ∧ e ≠ 0 := by
  unfold leasesConflict hasWrite
  simp only [Bool.and_eq_true, bne_iff_ne]
  split
  · next h => simp [h]
  · next h =>
    split
    · next h' => simp [h']
    · next h' => simp only [Bool.false_eq_true, false_iff]; exact not_or.2 ⟨h, h'⟩

theorem compatible_of_not_leasesConflict {e r : UInt32} (h : leasesConflict e r ≠ true) :
    Compatible e r := by
  rw [Ne, leasesConflict_eq_true_iff, not_or] at h
  exact ⟨fun he => not_ne_iff.1 fun hr => h.1 ⟨he, hr⟩,
    fun hr => not_ne_iff.1 fun he => h.2 ⟨hr, he⟩⟩

/-! ### What the method records -/

section Grant

variable (leases : Table String LeaseEntry) (path : String) (lease : LeaseEntry) (r : UInt32)

/-- The leases that a request is checked against and fails. -/
def conflictingLeases : List LeaseEntry :=
  (otherLeases leases path lease.leaseKey).filter fun l => leasesConflict l.leaseState r

/-- What the store grants. -/
def grantedState : UInt32 :=
  if (conflictingLeases leases path lease r).isEmpty then r
  else reduceLeaseState r (conflictingLeases leases path lease r)

/-- The method records the granted state under the lease's key and returns it together
with the leases in the way. -/
theorem checkAndCreateLease_eq :
    checkAndCreateLease leases path lease r =
      ({ canGrant := (conflictingLeases leases path lease r).isEmpty
         conflicts := conflictingLeases leases path lease r
         grantedState := grantedState leases path lease r },
       leases.insert lease.leaseKey
         { lease with leaseState := grantedState leases path lease r }) := by
  unfold checkAndCreateLease grantedState conflictingLeases
  dsimp only
  split
  · next h =>
    rw [List.isEmpty_iff.1 h]
    rfl
  · generalize (otherLeases leases path lease.leaseKey).filter
      (fun l => leasesConflict l.leaseState r) = conflicts
    cases conflicts with
    | nil | cons _ _ => rfl

variable {leases path lease r}

theorem grantedState_compatible {l : LeaseEntry}
    (hl : l ∈ otherLeases leases path lease.leaseKey) :
    Compatible l.leaseState (grantedState leases path lease r) := by
  unfold grantedState
  -- a lease that is not in the way goes with the request itself
  have hfree : l ∉ conflictingLeases leases path lease r → Compatible l.leaseState r := by
    intro hn
    refine compatible_of_not_leasesConflict fun hc => hn ?_
    exact List.mem_filter.2 ⟨hl, hc⟩
  split
  · next he =>
    rw [List.isEmpty_iff] at he
    exact hfree (by rw [he]; exact List.not_mem_nil)
  · unfold reduceLeaseState
    dsimp only
    split
    · exact compatible_zero _
    · next hnone =>
      -- no lease in the way has the write bit, so only the request can have had it
      have hl' : l ∈ conflictingLeases leases path lease r → ¬ hasWrite l.leaseState := by
        intro hc hw
        exact hnone (List.any_eq_true.2 ⟨l, hc, by simpa [hasWrite] using hw⟩)
      by_cases hc : l ∈ conflictingLeases leases path lease r
      · split
        · exact compatible_of_not_hasWrite (hl' hc) (not_hasWrite_clear r)
        · next hr => exact compatible_of_not_hasWrite (hl' hc) (by simpa [hasWrite] using hr)
      · split
        · exact ⟨fun hw => by rw [(hfree hc).1 hw]; rfl, fun hw => absurd hw (not_hasWrite_clear r)⟩
        · exact hfree hc

end Grant

/-! ### Runs of the table -/

/-- The calls that change leases. -/
inductive LeaseCall where
  /-- Ask for a lease on its own file. -/
  | checkAndCreateLease (lease : LeaseEntry) (requestedState : UInt32)
  /-- Remove a key. -/
  | deleteLease (leaseKey : String)
  /-- Remove the leases that a server granted. -/
  | deleteLeasesForServer (serverId : String)

def LeaseCall.toOp : LeaseCall → StoreOp
  | .checkAndCreateLease l r => .checkAndCreateLease l.filePath l r
  | .deleteLease k => .deleteLease k
  | .deleteLeasesForServer sv => .deleteLeasesForServer sv

/-- The store after a sequence of calls of any tasks; each holds the table's lock to its end. -/
def leaseStore (now : UInt64) (calls : List LeaseCall) : MemoryStateStore :=
  calls.foldl (fun st c => (answer now c.toOp st).2) .new

/-- A table in which each lease is filed under its key and write caching is exclusive. -/
structure ExclusiveWrite (leases : Table String LeaseEntry) : Prop where
  /-- A lease is filed under its own key. -/
  keyed : ∀ k l, leases.lookup k = some l → l.leaseKey = k
  /-- Leases on one file under different keys are compatible. -/
  compatible : ∀ k₁ k₂ l₁ l₂, leases.lookup k₁ = some l₁ → leases.lookup k₂ = some l₂ →
    k₁ ≠ k₂ → l₁.filePath = l₂.filePath → Compatible l₁.leaseState l₂.leaseState

theorem exclusiveWrite_empty : ExclusiveWrite ∅ :=
  ⟨fun _ _ h => by simp at h, fun _ _ _ _ h => by simp at h⟩

theorem ExclusiveWrite.of_lookup_le {t t' : Table String LeaseEntry} (h : ExclusiveWrite t)
    (hle : ∀ k l, t'.lookup k = some l → t.lookup k = some l) : ExclusiveWrite t' :=
  ⟨fun k l hk => h.keyed k l (hle k l hk),
    fun k₁ k₂ l₁ l₂ h₁ h₂ => h.compatible k₁ k₂ l₁ l₂ (hle k₁ l₁ h₁) (hle k₂ l₂ h₂)⟩

theorem ExclusiveWrite.grant {t : Table String LeaseEntry} (h : ExclusiveWrite t)
    (lease : LeaseEntry) (r : UInt32) :
    ExclusiveWrite (t.insert lease.leaseKey
      { lease with leaseState := grantedState t lease.filePath lease r }) := by
  -- the new lease against one already there
  have hnew : ∀ k l, t.lookup k = some l → k ≠ lease.leaseKey →
      l.filePath = lease.filePath →
      Compatible l.leaseState (grantedState t lease.filePath lease r) := by
    intro k l hk hne hpath
    refine grantedState_compatible (List.mem_filter.2 ⟨Table.mem_values.2 ⟨k, hk⟩, ?_⟩)
    rw [Bool.and_eq_true, beq_iff_eq, bne_iff_ne, h.keyed k l hk]
    exact ⟨hpath, hne⟩
  constructor
  · intro k l hk
    rcases Table.of_lookup_insert hk with ⟨rfl, rfl⟩ | hk
    · rfl
    · exact h.keyed k l hk
  · intro k₁ k₂ l₁ l₂ h₁ h₂ hne hpath
    rw [Table.lookup_insert_ite] at h₁ h₂
    split at h₁
    · next e₁ =>
      cases h₁
      rw [if_neg fun e₂ => hne (e₁.trans e₂.symm)] at h₂
      exact (hnew k₂ l₂ h₂ (fun e₂ => hne (e₁.trans e₂.symm)) hpath.symm).symm
    · next e₁ =>
      split at h₂
      · cases h₂
        exact hnew k₁ l₁ h₁ e₁ hpath
      · exact h.compatible k₁ k₂ l₁ l₂ h₁ h₂ hne hpath

theorem ExclusiveWrite.step {st : MemoryStateStore} (h : ExclusiveWrite st.leases)
    (now : UInt64) (c : LeaseCall) :
    ExclusiveWrite (answer now c.toOp st).2.leases := by
  cases c with
  | checkAndCreateLease lease r =>
    have hans :
        (answer now (LeaseCall.checkAndCreateLease lease r).toOp st).2.leases =
          (checkAndCreateLease st.leases lease.filePath lease r).2 := rfl
    rw [hans, checkAndCreateLease_eq]
    exact h.grant lease r
  | deleteLease k => exact h.of_lookup_le fun k' l hk => Table.of_lookup_erase hk
  | deleteLeasesForServer sv =>
    refine h.of_lookup_le fun k' l hk => ?_
    have hk' : (st.leases.retain fun _ l => l.serverId != sv).lookup k' = some l := hk
    rw [Table.lookup_retain, Option.filter_eq_some_iff] at hk'
    exact hk'.1

theorem exclusiveWrite_run (now : UInt64) (calls : List LeaseCall) :
    ExclusiveWrite (leaseStore now calls).leases := by
  unfold leaseStore
  generalize hst : new = st
  have h0 : ExclusiveWrite st.leases := by subst hst; exact exclusiveWrite_empty
  clear hst
  induction calls generalizing st with
  | nil => exact h0
  | cons c calls ih => exact ih _ (h0.step now c)

/-- **In every run of the lease table a lease with the write bit has only leases with state zero
beside it, and a grant returns exactly the state that it records.** -/
theorem exclusiveWrite_leaseTable (now : UInt64) (calls : List LeaseCall) :
    (∀ k₁ k₂ l₁ l₂, (leaseStore now calls).leases.lookup k₁ = some l₁ →
      (leaseStore now calls).leases.lookup k₂ = some l₂ → k₁ ≠ k₂ →
      l₁.filePath = l₂.filePath → l₁.leaseState &&& LeaseEntry.WRITE_CACHING ≠ 0 →
      l₂.leaseState = 0) ∧
    ∀ (lease : LeaseEntry) (requestedState : UInt32),
      ((checkAndCreateLease (leaseStore now calls).leases lease.filePath lease
          requestedState).2.lookup lease.leaseKey).map LeaseEntry.leaseState =
        some (checkAndCreateLease (leaseStore now calls).leases lease.filePath lease
          requestedState).1.grantedState := by
  refine ⟨fun k₁ k₂ l₁ l₂ h₁ h₂ hne hpath hw => ?_, fun lease r => ?_⟩
  · exact ((exclusiveWrite_run now calls).compatible k₁ k₂ l₁ l₂ h₁ h₂ hne hpath).1 hw
  · rw [checkAndCreateLease_eq, Table.lookup_insert_ite, if_pos rfl]
    rfl

end RustSmb
