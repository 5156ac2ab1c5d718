import Mathlib.Data.List.AList
import Mathlib.Algebra.Order.Ring.Nat

/-!
# Finite tables

A table is an association list without repeated keys (Mathlib's `AList`).  It stands for a hash map,
so every fact is about membership and lookup only.  Here are the values of a table, the entries that
satisfy a predicate, and how lookups see them.

## Main results

* `Table.mem_values` — the values are what lookups find.
* `Table.lookup_retain`, `Table.lookup_insert_ite`, `Table.lookup_erase_ite` — lookups
  after an update.
-/

/-- A finite map. -/
abbrev Table (κ ν : Type) : Type := AList fun _ : κ => ν

namespace Table

open AList List

variable {κ ν : Type} {m : Table κ ν}

def values (m : Table κ ν) : List ν := m.entries.map Sigma.snd

/-- Rust's `retain`. -/
def retain (p : κ → ν → Bool) (m : Table κ ν) : Table κ ν where
  entries := m.entries.filter fun e => p e.1 e.2
  nodupKeys := m.nodupKeys.sublist List.filter_sublist

theorem values_retain (p : ν → Bool) : (m.retain fun _ => p).values = m.values.filter p :=
  filter_map.symm

variable [DecidableEq κ]

theorem lookup_insert_ite (k k' : κ) (v : ν) :
    (m.insert k v).lookup k' = if k' = k then some v else m.lookup k' := by
  split
  · next h => subst h; exact lookup_insert m
  · next h => exact lookup_insert_ne h

theorem eq_of_map_lookup_insert_ne {γ : Type} {f : ν → γ} {k k' : κ} {v : ν}
    (h : ((m.insert k v).lookup k').map f ≠ (m.lookup k').map f) : k' = k := by
  by_contra hne
  exact h (by rw [lookup_insert_ne hne])

theorem eq_of_lookup_erase_ne {k k' : κ} {v : ν} (hv : m.lookup k' = some v)
    (h : (m.erase k).lookup k' ≠ some v) : k' = k := by
  by_contra hne
  exact h ((lookup_erase_ne hne).trans hv)

theorem lookup_erase_ite (k k' : κ) :
    (m.erase k).lookup k' = if k' = k then none else m.lookup k' := by
  split
  · next h => subst h; exact lookup_erase k' m
  · next h => exact lookup_erase_ne h

theorem of_lookup_insert {k k' : κ} {v v' : ν} (h : (m.insert k v).lookup k' = some v') :
    k' = k ∧ v' = v ∨ m.lookup k' = some v' := by
  rw [lookup_insert_ite] at h
  split at h
  · next hk => exact .inl ⟨hk, (Option.some.inj h).symm⟩
  · exact .inr h

theorem of_lookup_erase {k k' : κ} {v : ν} (h : (m.erase k).lookup k' = some v) :
    m.lookup k' = some v := by
  rw [lookup_erase_ite] at h
  split at h
  · cases h
  · exact h

theorem isSome_lookup_insert {k k' : κ} {v : ν} (h : (m.lookup k').isSome = true) :
    ((m.insert k v).lookup k').isSome = true := by
  rw [lookup_insert_ite]
  split
  · rfl
  · exact h

theorem mem_values {v : ν} : v ∈ m.values ↔ ∃ k, m.lookup k = some v := by
  simp only [values, mem_map]
  constructor
  · rintro ⟨⟨k, v'⟩, hmem, rfl⟩
    exact ⟨k, mem_lookup_iff.2 hmem⟩
  · rintro ⟨k, hk⟩
    exact ⟨⟨k, v⟩, mem_lookup_iff.1 hk, rfl⟩

theorem lookup_retain (p : κ → ν → Bool) (k : κ) :
    (m.retain p).lookup k = (m.lookup k).filter (p k) := by
  ext v
  simp only [Option.filter_eq_some_iff]
  have hm : v ∈ m.lookup k ↔ ⟨k, v⟩ ∈ m.entries := mem_lookup_iff
  have hr : v ∈ (m.retain p).lookup k ↔ ⟨k, v⟩ ∈ (m.retain p).entries := mem_lookup_iff
  rw [Option.mem_def] at hm hr
  rw [hm, hr]
  exact mem_filter

theorem values_insert_of_notMem {k : κ} (h : k ∉ m) (v : ν) :
    values (m.insert k v) = v :: m.values := by
  unfold values
  rw [entries_insert_of_notMem h, map_cons]

theorem flatten_values_perm (m : Table κ (List ν)) (k : κ) :
    m.values.flatten.Perm ((m.lookup k).getD [] ++ (values (m.erase k)).flatten) := by
  show ((m.entries.map Sigma.snd).flatten).Perm (_ ++ ((m.entries.kerase k).map Sigma.snd).flatten)
  by_cases hk : k ∈ m
  · obtain ⟨v, l₁, l₂, -, hents, herase⟩ := exists_of_kerase hk
    have hlook : m.lookup k = some v := mem_lookup_iff.2 (by simp [hents])
    rw [herase, hents, hlook]
    simpa using perm_append_comm_assoc _ _ _
  · rw [lookup_eq_none.2 hk, kerase_of_notMem_keys hk]
    exact .refl _

/-! ### Entries that carry their key -/

/-- Each entry is filed under the key that it carries. -/
def KeyedBy (f : ν → κ) (m : Table κ ν) : Prop := ∀ k v, m.lookup k = some v → f v = k

namespace KeyedBy

variable {f : ν → κ}

theorem empty : (∅ : Table κ ν).KeyedBy f := nofun

section

variable (h : m.KeyedBy f)

include h

theorem insert (v : ν) : Table.KeyedBy f (AList.insert (f v) v m) := by
  intro k v' hk
  rcases of_lookup_insert hk with ⟨rfl, rfl⟩ | hk
  · rfl
  · exact h k v' hk

theorem erase (k : κ) : Table.KeyedBy f (AList.erase k m) :=
  fun k' v hk => h k' v (of_lookup_erase hk)

theorem retain (p : κ → ν → Bool) : (m.retain p).KeyedBy f := by
  intro k v hk
  rw [lookup_retain, Option.filter_eq_some_iff] at hk
  exact h k v hk.1

theorem mem_values_iff {v : ν} : v ∈ m.values ↔ m.lookup (f v) = some v := by
  rw [mem_values]
  refine ⟨fun ⟨k, hk⟩ => ?_, fun hv => ⟨_, hv⟩⟩
  rwa [h k v hk]

theorem nodup_map_values : (m.values.map f).Nodup := by
  have hkeys : m.values.map f = m.keys := by
    unfold values AList.keys List.keys
    rw [map_map]
    refine map_congr_left fun e he => ?_
    exact h e.1 e.2 (mem_lookup_iff.2 he)
  rw [hkeys]
  exact m.keys_nodup

theorem values_erase (k : κ) : values (AList.erase k m) = m.values.filter fun v => f v != k := by
  have hents : ∀ e ∈ m.entries, f e.2 = e.1 := fun e he => h e.1 e.2 (mem_lookup_iff.2 he)
  have hnodup := m.nodupKeys
  show (m.entries.kerase k).map Sigma.snd = (m.entries.map Sigma.snd).filter _
  generalize m.entries = l at hents hnodup ⊢
  induction l with
  | nil => rfl
  | cons e l ih =>
    obtain ⟨hnot, hl⟩ := nodupKeys_cons.1 hnodup
    have he : f e.2 = e.1 := hents e mem_cons_self
    by_cases hk : k = e.1
    · -- no other entry has the key
      have hrest : (l.map Sigma.snd).filter (fun v => f v != k) = l.map Sigma.snd := by
        refine filter_eq_self.2 fun v hv => ?_
        obtain ⟨e', he', rfl⟩ := mem_map.1 hv
        have hkey : e'.1 ≠ e.1 := fun heq => hnot (heq ▸ mem_map_of_mem he')
        simpa [hents e' (mem_cons_of_mem _ he'), hk] using hkey
      rw [kerase_cons_eq hk, map_cons, filter_cons_of_neg (by simp [he, hk]), hrest]
    · rw [kerase_cons_ne hk, map_cons, map_cons,
        filter_cons_of_pos (by simpa [he] using Ne.symm hk),
        ih (fun e' he' => hents e' (mem_cons_of_mem _ he')) hl]

end

end KeyedBy

end Table
