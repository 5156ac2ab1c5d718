import RustSmb.State.LeaseTable
import RustSmb.System.Negotiation

/-!
# Lease keys of different clients

A lease key is a client's own choice.  The store and the break registry know leases by the key
alone: a CREATE takes what is there under its key for its own, whichever client it belongs to.

## Main results

* `shared_keys_interfere` — **whenever a CREATE meets the lease of another client under its key, it
  replaces it.**
-/

namespace RustSmb

section Runs

variable [Externs] {α β : Type} [AuthProvider α] [StorageBackend β]
  {ok : World α β → SmbOp ⊕ Mark → Prop}

/-- A CREATE asks for a lease under a key under which another client has one. -/
def meetsOther (x : (smbMachine α β ok).Stamped) : Bool :=
  match x.event.1 with
  | .inl (.store (.checkAndCreateLease _ lease _)) =>
      (x.world.store.leases.lookup lease.leaseKey).any fun first =>
        first.clientGuid != lease.clientGuid
  | _ => false

/-- A CREATE leaves another client's lease under its key, and that client's connection, as they
are, and is checked for a conflict with the lease. -/
def KeptApart (x : (smbMachine α β ok).Stamped) : Prop :=
  match x.event.1 with
  | .inl (.store (.checkAndCreateLease path lease r)) =>
      ∀ first ∈ x.world.store.leases.lookup lease.leaseKey, first.clientGuid ≠ lease.clientGuid →
        let after := x.world.callStore (.checkAndCreateLease path lease r)
        after.2.store.leases.lookup lease.leaseKey = some first ∧
          (first.filePath = path → leasesConflict first.leaseState r = true →
            ∃ result, after.1 = .ok result ∧ first ∈ result.conflicts)
  | .inl (.registry serverId (.registerLease key entry)) =>
      ∀ first ∈ (x.world.registries serverId).leaseConnections.lookup key,
        first.clientGuid ≠ entry.clientGuid →
          ((x.world.callRegistry serverId (.registerLease key entry)).2.registries
            serverId).leaseConnections.lookup key = some first
  | _ => True

theorem not_keptApart {x : (smbMachine α β ok).Stamped} (h : meetsOther x) : ¬ KeptApart x := by
  intro hkept
  unfold meetsOther at h
  split at h
  · next path lease r hx =>
    cases hfirst : x.world.store.leases.lookup lease.leaseKey with
    | none => simp [hfirst] at h
    | some first =>
      rw [hfirst, Option.any_some, bne_iff_ne] at h
      unfold KeptApart at hkept
      rw [hx] at hkept
      obtain ⟨hlook, -⟩ := hkept first hfirst h
      -- the new lease stands under the key now, with the identifier of its own client
      simp only [World.callStore, MemoryStateStore.answer, checkAndCreateLease_eq,
        Table.lookup_insert_ite, if_pos] at hlook
      cases hlook
      exact h rfl
  · cases h

/-- **Lease keys of different clients interfere**: in every run, and whatever else is called, a
CREATE that meets another client's lease under its key does not keep the two apart. -/
theorem shared_keys_interfere {tr : Trace ok} (hmeets : ∃ x ∈ tr, meetsOther x.2) :
    ¬ ∀ x ∈ tr, KeptApart x.2 := by
  obtain ⟨x, hx, hmeets⟩ := hmeets
  exact fun hkept => not_keptApart hmeets (hkept x hx)

end Runs

namespace Sample

/-- Two clients open a file, each with a lease under the same key. -/
def sameKey : Option FilesSnapshot :=
  serveAll (start .anonymousOnly)
    ((prepared clientGuids.1 [0x0302]).map (Prod.mk 0) ++
      [(0, Client.create 1 1 "f" 0xFF (Client.leaseContext (Bytes.zeros 16) 0x07)),
        (1, Client.negotiate clientGuids.2 [0x0302]), (1, Client.sessionSetup 0 []),
        (1, Client.treeConnect 2 "\\\\a\\s"),
        (1, Client.create 2 1 "f" 0xFF (Client.leaseContext (Bytes.zeros 16) 0x07))])

/-- The second client's CREATE meets the lease of the first, and then the key is the second's. -/
theorem sameKey_meets :
    ∃ st, sameKey = some st ∧ (∃ x ∈ st.trace, meetsOther x.2) ∧
      (st.world.store.leases.lookup (Bytes.zeros 16).hex).map LeaseEntry.clientGuid =
        some clientGuids.2.hex :=
  exists_of_any (by decide +kernel)

/-- The run of the two clients. -/
theorem shared_keys_interfere_sameKey :
    ∃ (c : FilesConfig) (tr : FilesTrace),
      SmbRun anyCall c tr ∧ (∃ x ∈ tr, meetsOther x.2) ∧ ¬ ∀ x ∈ tr, KeptApart x.2 := by
  obtain ⟨st, hst, hmeets, -⟩ := sameKey_meets
  have hrun := run_serveAll (run_start _) hst
  exact ⟨st.config, st.trace, hrun, hmeets, shared_keys_interfere hmeets⟩

/-- **A lease is replaced by that of another client** which happens to use the same key. -/
theorem lease_replaced_by_other :
    ∃ (c : FilesConfig) (tr : FilesTrace),
      SmbRun anyCall c tr ∧ (∃ x ∈ tr, meetsOther x.2 ∧ ¬ KeptApart x.2) ∧
      (c.world.store.leases.lookup (Bytes.zeros 16).hex).map LeaseEntry.clientGuid =
        some clientGuids.2.hex := by
  obtain ⟨st, hst, ⟨x, hx, hmeets⟩, hsec⟩ := sameKey_meets
  exact ⟨st.config, st.trace, run_serveAll (run_start _) hst,
    ⟨x, hx, hmeets, not_keptApart hmeets⟩, hsec⟩

end Sample

end RustSmb
