import RustSmb.Lib.KeyValue
import RustSmb.State.Store

/-!
# Commands to the Redis server

The store for clusters keeps its records as documents and its indices as sets in a Redis server.
Documents are read back as what was written.

## Main results

* `wp_get`, `wp_smembers`, `wp_write` — commands whatever the answer is.
* `run_get`, `run_smembers`, `run_write`, `run_tryWrite` — commands to keys of the right kind.

Source: `rustsmb-state-redis/src/lib.rs`.
-/

namespace RustSmb.Redis

open KeyValue Proc

/-- An operation of the store on a server with documents in `α` and sets of `γ`. -/
abbrev RedisProc (α γ β : Type) : Type := Proc (Sig α γ) Unit (Fault StateError) β

variable {α γ β : Type}

/-- A command that fails ends the operation. -/
def orInternal (r : Except WrongType β) : RedisProc α γ β :=
  ofExcept (r.mapError fun _ => .failed .internal)

def get (k : String) : RedisProc α γ (Option α) :=
  perform (S := Sig α γ) (.get k) >>= orInternal

def smembers (k : String) : RedisProc α γ (List γ) :=
  perform (S := Sig α γ) (.smembers k) >>= orInternal

def keys (start : String) : RedisProc α γ (List String) :=
  perform (S := Sig α γ) (.keys start)

/-- `SET`, `DEL`, `SADD` or `SREM`. -/
def write (w : Write α γ) : RedisProc α γ Unit :=
  perform (S := Sig α γ) (.write w) >>= orInternal

/-- An error is ignored. -/
def tryWrite (w : Write α γ) : RedisProc α γ Unit := do
  let _ ← perform (S := Sig α γ) (.write w)
  pure ()

/-- `GET` for several keys; those that are missing are left out. -/
def readRecords (f : γ → String) : List γ → RedisProc α γ (List α)
  | [] => pure []
  | id :: ids => do
      let a ← get (f id)
      let as ← readRecords f ids
      pure (a.toList ++ as)

/-- Two stores after the same runs: sets may be listed in any order, and each operation meets a
condition on the second store. -/
inductive SideBySide {Op S T : Type} (after : Enumeration → Op → S → S) (after' : Op → T → T)
    (ok : T → Op → Prop) (s₀ : S) (t₀ : T) : S → T → Prop where
  | start : SideBySide after after' ok s₀ t₀ s₀ t₀
  | step {s : S} {t : T} (hrun : SideBySide after after' ok s₀ t₀ s t) (e : Enumeration) (op : Op)
      (hok : ok t op) : SideBySide after after' ok s₀ t₀ (after e op s) (after' op t)

section Wp

variable {I : List (Event (Sig α γ)) → Op α γ → Prop} {h : List (Event (Sig α γ))}
  {k : String}

theorem wp_command {o : Op α γ} {f : o.Res → Except (Fault StateError) β}
    {Q : Except (Fault StateError) β → Unit → _ → Prop} :
    wp I (perform (S := Sig α γ) o >>= fun r => ofExcept (f r) : RedisProc α γ β) Q () h ↔
      I h o ∧ ∀ r, Q (f r) () (⟨o, r⟩ :: h) := by
  rw [wp_bind]
  simp only [wp_ofExcept]
  exact wp_perform

theorem wp_get {Q : Except (Fault StateError) (Option α) → Unit → _ → Prop} :
    wp I (get k : RedisProc α γ _) Q () h ↔
      I h (.get k) ∧ ∀ r, Q (r.mapError fun _ => .failed .internal) () (⟨.get k, r⟩ :: h) := by
  unfold get orInternal
  exact wp_command

theorem wp_smembers {Q : Except (Fault StateError) (List γ) → Unit → _ → Prop} :
    wp I (smembers k : RedisProc α γ _) Q () h ↔
      I h (.smembers k) ∧
        ∀ r, Q (r.mapError fun _ => .failed .internal) () (⟨.smembers k, r⟩ :: h) := by
  unfold smembers orInternal
  exact wp_command

theorem wp_write {w : Write α γ} {Q : Except (Fault StateError) Unit → Unit → _ → Prop} :
    wp I (write w : RedisProc α γ _) Q () h ↔
      I h (.write w) ∧ ∀ r, Q (r.mapError fun _ => .failed .internal) () (⟨.write w, r⟩ :: h) := by
  unfold write orInternal
  exact wp_command

end Wp

section Run

variable [DecidableEq γ] {index : String → Prop} {s : Server α γ} {k : String} (e : Enumeration)

theorem run_get (h : s.Typed index) (hk : ¬ index k) :
    run (answer e) (get k : RedisProc α γ _) () s = (.ok (s.doc k), (), s) := by
  unfold get
  rw [run_bind_ok run_perform, answer_get e h hk]
  exact run_ofExcept

/-- Whether `GET` fails depends on the value, and the server is left alone. -/
theorem run_get_eq :
    run (answer e) (get k : RedisProc α γ _) () s =
      ((answer e (.get k) s).1.mapError fun _ => .failed .internal, (), s) := by
  have hstate : (answer e (.get k) s).2 = s := by
    unfold answer
    dsimp only
    split <;> rfl
  unfold get orInternal
  rw [run_bind_ok run_perform, run_ofExcept, hstate]

theorem run_smembers (h : s.Typed index) (hk : index k) :
    run (answer e) (smembers k : RedisProc α γ _) () s = (.ok (e.list γ (s.members k)), (), s) := by
  unfold smembers
  rw [run_bind_ok run_perform, answer_smembers e h hk]
  exact run_ofExcept

theorem run_write (h : s.Typed index) {w : Write α γ} (hw : Server.Respects index w) :
    run (answer e) (write w : RedisProc α γ _) () s = (.ok (), (), s.apply w) := by
  unfold write
  rw [run_bind_ok run_perform, answer_write e h hw]
  exact run_ofExcept

theorem run_tryWrite {w : Write α γ} :
    run (answer e) (tryWrite w : RedisProc α γ _) () s = (.ok (), (), s.apply w) := by
  unfold tryWrite
  rfl

variable {ι : Type} {f : ι → String} {is : List ι} {m : γ}

theorem run_writeAll {w : ι → Write α γ} (h : s.Typed index)
    (hw : ∀ i ∈ is, Server.Respects index (w i)) :
    run (answer e) (forEach (fun i => write (w i)) is : RedisProc α γ _) () s =
      (.ok (), (), is.foldl (fun s i => s.apply (w i)) s) := by
  induction is generalizing s with
  | nil => rfl
  | cons i is ih =>
    obtain ⟨hi, his⟩ := List.forall_mem_cons.1 hw
    exact (run_bind_ok (run_write e h hi)).trans (ih (h.write hi) his)

theorem run_saddAll (h : s.Typed index) (hf : ∀ i ∈ is, index (f i)) :
    run (answer e) (forEach (fun i => write (.sadd (f i) m)) is : RedisProc α γ _) () s =
      (.ok (), (), s.saddAll f is m) := run_writeAll e h hf

theorem run_sremAll (h : s.Typed index) (hf : ∀ i ∈ is, index (f i)) :
    run (answer e) (forEach (fun i => write (.srem (f i) m)) is : RedisProc α γ _) () s =
      (.ok (), (), s.sremAll f is m) := run_writeAll e h hf

theorem run_trySremAll :
    run (answer e) (forEach (fun i => tryWrite (.srem (f i) m)) is : RedisProc α γ _) () s =
      (.ok (), (), s.sremAll f is m) := by
  induction is generalizing s with
  | nil => rfl
  | cons i is ih => exact (run_bind_ok (run_tryWrite e)).trans ih

theorem run_readRecords {f : γ → String} {ids : List γ} (h : s.Typed index)
    (hf : ∀ id ∈ ids, ¬ index (f id)) :
    run (answer e) (readRecords f ids : RedisProc α γ _) () s =
      (.ok (ids.filterMap fun id => s.doc (f id)), (), s) := by
  induction ids with
  | nil => rfl
  | cons id ids ih =>
    obtain ⟨hid, hids⟩ := List.forall_mem_cons.1 hf
    rw [readRecords, run_bind_ok (run_get e h hid), run_bind_ok (ih hids), List.filterMap_cons]
    cases s.doc (f id) <;> rfl

end Run

/-! ### Numbers in keys -/

theorem toDigits_ne_cons (n : ℕ) {c : Char} {l : List Char} (hc : c.isDigit = false) :
    Nat.toDigits 10 n ≠ c :: l := by
  intro heq
  have hmem : c ∈ Nat.toDigits 10 n := by
    rw [heq]
    exact List.mem_cons_self
  rw [Nat.isDigit_of_mem_toDigits (by decide) (by decide) hmem] at hc
  cases hc

theorem toDigits_injective : Function.Injective (Nat.toDigits 10) := by
  intro a b h
  rw [← Nat.ofDigitChars_ten_toDigits (n := a), h, Nat.ofDigitChars_ten_toDigits]

end RustSmb.Redis
