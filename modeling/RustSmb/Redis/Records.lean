import RustSmb.Lib.Records
import RustSmb.Redis.Commands

/-!
# Records with indices in Redis

Handles and leases are written and deleted by the same commands: `SET` and an `SADD` for each
index; `GET`, an `SREM` for each index and `DEL`.

## Main results

* `run_putRecord`, `run_dropRecord`, `run_dropRecords` — what they do to the server.

Source: `rustsmb-state-redis/src/lib.rs`.
-/

namespace RustSmb.Redis

open KeyValue Proc

variable {α γ κ : Type} (L : Layout α γ κ)

/-- The record, then its index entries, one command each. -/
def putRecord (a : α) : RedisProc α γ Unit := do
  write (.set (L.name (L.record (L.ident a))) a)
  forEach (fun key => write (.sadd (L.name key) (L.ident a))) (L.indices a)

/-- Take a record out of the indices that it names, then delete it. -/
def dropRecord (others : α → List κ) (id : γ) : RedisProc α γ Unit := do
  match ← get (L.name (L.record id)) with
  | some a => forEach (fun key => write (.srem (L.name key) id)) (others a)
  | none => pure ()
  write (.del (L.name (L.record id)))

section Run

variable {L} [DecidableEq γ] {s : Server α γ} (e : Enumeration)

theorem run_putRecord (h : s.Typed L.index) {a : α} (ha : L.valid (L.ident a)) :
    run (answer e) (putRecord L a) () s = (.ok (), (), L.put s a) := by
  have hrec := Layout.not_index_record ha
  have hset := run_write (w := .set (L.name (L.record (L.ident a))) a) e h hrec
  have hinds : ∀ key ∈ L.indices a, L.index (L.name key) :=
    fun key hkey => Layout.index_name (L.index_of_mem hkey)
  have hadd := run_saddAll (m := L.ident a) e (Layout.typed_set h ha a) hinds
  rw [putRecord, run_bind_ok hset, hadd, Layout.put]

theorem run_getRecord (h : s.Typed L.index) {id : γ} (hid : L.valid id) :
    run (answer e) (get (L.name (L.record id))) () s = (.ok (L.get s id), (), s) :=
  run_get e h (Layout.not_index_record hid)

variable {others : α → List κ}

theorem run_dropRecord (h : s.Typed L.index)
    (hoths : ∀ a, ∀ key ∈ others a, L.isIndex key = true) {id : γ} (hid : L.valid id) :
    run (answer e) (dropRecord L others id) () s = (.ok (), (), L.drop others s id) := by
  rw [dropRecord, run_bind_ok (run_getRecord e h hid)]
  unfold Layout.drop
  cases L.get s id with
  | none => exact run_write e h trivial
  | some a =>
    have hinds : ∀ key ∈ others a, L.index (L.name key) :=
      fun key hkey => Layout.index_name (hoths a key hkey)
    have hsrem := run_sremAll (m := id) e h hinds
    have htyped := h.sremAll (m := id) hinds
    exact (run_bind_ok hsrem).trans (run_write e htyped trivial)

theorem run_dropRecords (h : s.Typed L.index)
    (hoths : ∀ a, ∀ key ∈ others a, L.isIndex key = true) {ids : List γ}
    (hids : ∀ id ∈ ids, L.valid id) :
    run (answer e) (forEach (dropRecord L others) ids) () s =
      (.ok (), (), ids.foldl (L.drop others) s) := by
  induction ids generalizing s with
  | nil => rfl
  | cons id ids ih =>
    obtain ⟨hid, hids⟩ := List.forall_mem_cons.1 hids
    have hfirst := run_dropRecord e h hoths hid
    exact (run_bind_ok hfirst).trans (ih (Layout.typed_drop h hoths) hids)

theorem run_readIndex (h : L.Exact s) {key : κ} (hkey : L.isIndex key = true) :
    run (answer e) (smembers (L.name key) >>= readRecords fun id => L.name (L.record id)) () s =
      (.ok ((e.list γ (s.members (L.name key))).filterMap (L.get s)), (), s) := by
  have hvalid : ∀ id ∈ e.list γ (s.members (L.name key)), ¬ L.index (L.name (L.record id)) := by
    intro id hid
    exact Layout.not_index_record (h.valid_of_mem hkey (e.mem_list.1 hid))
  rw [run_bind_ok (run_smembers e h.typed (Layout.index_name hkey))]
  exact run_readRecords e h.typed hvalid

omit [DecidableEq γ] in
theorem mem_readIndex (h : L.Exact s) {key : κ} (hkey : L.isIndex key = true) {a : α} :
    a ∈ (e.list γ (s.members (L.name key))).filterMap (L.get s) ↔
      L.get s (L.ident a) = some a ∧ key ∈ L.indices a := by
  rw [List.mem_filterMap]
  constructor
  · rintro ⟨id, hid, ha⟩
    obtain ⟨b, hb, hin⟩ := (h.exact key hkey id).1 (e.mem_list.1 hid)
    rw [ha] at hb
    cases hb
    rw [h.named id a ha]
    exact ⟨ha, hin⟩
  · rintro ⟨ha, hin⟩
    exact ⟨L.ident a, e.mem_list.2 ((h.exact key hkey _).2 ⟨a, ha, hin⟩), ha⟩

end Run

end RustSmb.Redis
