import RustSmb.Lib.KeyValue

/-!
# Records with indices

Records are kept as documents on a key-value server, each under the name of its identifier.  A
record says to which indices, which are sets of identifiers, it belongs; a write adds its identifier
to them, one command for each, and a deletion takes it out again.

Nothing on the server ties the indices to the records.  They are `Exact` if an identifier is in
an index exactly when its record exists and belongs there.

## Main results

* `KeyValue.Layout.Exact.put` — **a write keeps the indices exact if the record leaves no index**.
* `KeyValue.Layout.Exact.replace` — so does one that leaves the indices alone, if the record
  belongs to the same ones as before.
* `KeyValue.Layout.Exact.drop`, `KeyValue.Layout.Exact.dropIndex` — so do deletions, which remove
  exactly what they are meant for.
-/

namespace KeyValue

open Server

variable {α γ κ : Type}

/-- Where records and their indices lie on a server. -/
structure Layout (α γ κ : Type) where
  name : κ → String
  /-- The key of a record. -/
  record : γ → κ
  isIndex : κ → Bool
  /-- The identifier in a record. -/
  ident : α → γ
  /-- The indices that a record belongs to. -/
  indices : α → List κ
  /-- The identifiers whose records have names that no index has. -/
  valid : γ → Prop
  index_of_mem : ∀ {a key}, key ∈ indices a → isIndex key = true
  record_injective : ∀ {x y}, name (record x) = name (record y) → x = y
  index_injective : ∀ {key key'}, isIndex key = true → isIndex key' = true →
    name key = name key' → key = key'
  record_ne : ∀ {id key}, valid id → isIndex key = true → name key ≠ name (record id)

namespace Layout

variable (L : Layout α γ κ)

def index (k : String) : Prop := ∃ key, L.isIndex key = true ∧ L.name key = k

def get (s : Server α γ) (id : γ) : Option α := s.doc (L.name (L.record id))

variable {L}

theorem index_name {key : κ} (hkey : L.isIndex key = true) : L.index (L.name key) :=
  ⟨key, hkey, rfl⟩

theorem not_index_record {id : γ} (hid : L.valid id) : ¬ L.index (L.name (L.record id)) := by
  rintro ⟨key, hkey, hname⟩
  exact L.record_ne hid hkey hname

theorem name_mem_map {key : κ} (hkey : L.isIndex key = true) {keys : List κ}
    (hkeys : ∀ k ∈ keys, L.isIndex k = true) : L.name key ∈ keys.map L.name ↔ key ∈ keys := by
  constructor
  · intro hmem
    obtain ⟨k, hk, hname⟩ := List.mem_map.1 hmem
    rw [← L.index_injective (hkeys k hk) hkey hname]
    exact hk
  · exact fun hmem => List.mem_map_of_mem hmem

variable [DecidableEq γ]

variable (L) in
/-- The record and its index entries. -/
def put (s : Server α γ) (a : α) : Server α γ :=
  (s.apply (.set (L.name (L.record (L.ident a))) a)).saddAll L.name (L.indices a) (L.ident a)

variable (L) in
/-- A record is taken out of some indices and deleted. -/
def drop (others : α → List κ) (s : Server α γ) (id : γ) : Server α γ :=
  (s.sremAll L.name ((L.get s id).elim [] others) id).apply (.del (L.name (L.record id)))

variable (L) in
/-- The records and then the index itself. -/
def dropIndex (index : κ) (others : α → List κ) (s : Server α γ) (ids : List γ) : Server α γ :=
  (ids.foldl (L.drop others) s).apply (.del (L.name index))

/-! ### What is kept -/

section Views

variable {s : Server α γ} {a : α} {id x : γ} {key : κ} {others : α → List κ}

theorem get_set : L.get (s.apply (.set (L.name (L.record id)) a)) x =
    if x = id then some a else L.get s x := by
  unfold get
  rw [doc_set]
  by_cases hx : x = id
  · rw [if_pos hx, if_pos (by rw [hx])]
  · rw [if_neg hx, if_neg fun hname => hx (L.record_injective hname)]

theorem get_del : L.get (s.apply (.del (L.name (L.record id)))) x =
    if x = id then none else L.get s x := by
  unfold get
  rw [doc_del]
  by_cases hx : x = id
  · rw [if_pos hx, if_pos (by rw [hx])]
  · rw [if_neg hx, if_neg fun hname => hx (L.record_injective hname)]

theorem get_put : L.get (L.put s a) x = if x = L.ident a then some a else L.get s x := by
  have hsadd : L.get (L.put s a) x =
      L.get (s.apply (.set (L.name (L.record (L.ident a))) a)) x := doc_saddAll
  rw [hsadd, get_set]

theorem get_drop : L.get (L.drop others s id) x = if x = id then none else L.get s x := by
  have hsrem : L.get (s.sremAll L.name ((L.get s id).elim [] others) id) x = L.get s x :=
    doc_sremAll
  unfold drop
  rw [get_del, hsrem]

theorem get_drops {ids : List γ} :
    L.get (ids.foldl (L.drop others) s) x = if x ∈ ids then none else L.get s x := by
  induction ids generalizing s with
  | nil => simp
  | cons id ids ih =>
    rw [List.foldl_cons, ih, get_drop]
    by_cases hx : x = id <;> by_cases hids : x ∈ ids <;> simp [hx, hids]

theorem typed_set (h : s.Typed L.index) (hid : L.valid id) (a : α) :
    (s.apply (.set (L.name (L.record id)) a)).Typed L.index :=
  h.write (not_index_record hid)

theorem typed_put (h : s.Typed L.index) (hid : L.valid (L.ident a)) :
    (L.put s a).Typed L.index :=
  (typed_set h hid a).saddAll fun _ hkey => index_name (L.index_of_mem hkey)

theorem typed_drop (h : s.Typed L.index) (hoths : ∀ a, ∀ key ∈ others a, L.isIndex key = true) :
    (L.drop others s id).Typed L.index := by
  have hidx : ∀ key ∈ (L.get s id).elim [] others, L.index (L.name key) := by
    intro key hkey
    cases hget : L.get s id with
    | none =>
      rw [hget] at hkey
      cases hkey
    | some a =>
      rw [hget] at hkey
      exact index_name (hoths a key hkey)
  exact (h.sremAll hidx).write trivial

theorem typed_drops (h : s.Typed L.index) (hoths : ∀ a, ∀ key ∈ others a, L.isIndex key = true)
    (ids : List γ) : (ids.foldl (L.drop others) s).Typed L.index := by
  induction ids generalizing s with
  | nil => exact h
  | cons id ids ih => exact ih (typed_drop h hoths)

theorem mem_members_set (hid : L.valid id) (hkey : L.isIndex key = true) :
    x ∈ (s.apply (.set (L.name (L.record id)) a)).members (L.name key) ↔
      x ∈ s.members (L.name key) := by
  rw [Server.mem_members_set, and_iff_left (L.record_ne hid hkey)]

theorem mem_members_put (h : s.Typed L.index) (hid : L.valid (L.ident a))
    (hkey : L.isIndex key = true) : x ∈ (L.put s a).members (L.name key) ↔
      x ∈ s.members (L.name key) ∨ key ∈ L.indices a ∧ x = L.ident a := by
  have hinds : ∀ k ∈ L.indices a, L.index (L.name k) := fun k hk => index_name (L.index_of_mem hk)
  unfold put
  rw [mem_members_saddAll (typed_set h hid a) hinds, mem_members_set hid hkey,
    name_mem_map hkey fun k hk => L.index_of_mem hk]

theorem mem_members_drop (hid : L.valid id)
    (hoths : ∀ a, ∀ key ∈ others a, L.isIndex key = true) (hkey : L.isIndex key = true) :
    x ∈ (L.drop others s id).members (L.name key) ↔ x ∈ s.members (L.name key) ∧
      ¬ (x = id ∧ ∃ a, L.get s id = some a ∧ key ∈ others a) := by
  unfold drop
  rw [mem_members_del, mem_members_sremAll, and_iff_left (L.record_ne hid hkey)]
  cases L.get s id with
  | none => simp
  | some a =>
    rw [Option.elim_some, name_mem_map hkey (hoths a)]
    simp [and_comm]

theorem mem_members_drops (hoths : ∀ a, ∀ key ∈ others a, L.isIndex key = true)
    (hkey : L.isIndex key = true) {ids : List γ} (hids : ∀ id ∈ ids, L.valid id) :
    x ∈ (ids.foldl (L.drop others) s).members (L.name key) ↔ x ∈ s.members (L.name key) ∧
      ¬ (x ∈ ids ∧ ∃ a, L.get s x = some a ∧ key ∈ others a) := by
  induction ids generalizing s with
  | nil => simp
  | cons id ids ih =>
    obtain ⟨hid, hids⟩ := List.forall_mem_cons.1 hids
    rw [List.foldl_cons, ih hids, mem_members_drop hid hoths hkey, get_drop, List.mem_cons]
    by_cases hx : x = id
    · subst hx
      simp
    · simp [hx]

end Views

/-! ### Exact indices -/

omit [DecidableEq γ] in
variable (L) in
/-- **The indices are exact**: an identifier is in an index exactly when its record exists and
belongs there. -/
structure Exact (s : Server α γ) : Prop where
  typed : s.Typed L.index
  named : ∀ id a, L.get s id = some a → L.ident a = id
  valid : ∀ id a, L.get s id = some a → L.valid id
  exact : ∀ key, L.isIndex key = true → ∀ id, id ∈ s.members (L.name key) ↔
    ∃ a, L.get s id = some a ∧ key ∈ L.indices a

omit [DecidableEq γ] in
theorem exact_empty : L.Exact empty := by
  refine ⟨typed_empty, fun id a ha => ?_, fun id a ha => ?_, fun key hkey id => ⟨fun h => ?_, ?_⟩⟩
  · cases ha
  · cases ha
  · cases h
  · rintro ⟨a, ha, -⟩
    cases ha

namespace Exact

variable {s : Server α γ}

omit [DecidableEq γ] in
theorem valid_of_mem (h : L.Exact s) {key : κ} (hkey : L.isIndex key = true) {id : γ}
    (hid : id ∈ s.members (L.name key)) : L.valid id := by
  obtain ⟨a, ha, -⟩ := (h.exact key hkey id).1 hid
  exact h.valid id a ha

theorem get_set_cases (h : L.Exact s) {a : α} (hvalid : L.valid (L.ident a)) {x : γ} {b : α}
    (hb : (if x = L.ident a then some a else L.get s x) = some b) : L.ident b = x ∧ L.valid x := by
  by_cases hx : x = L.ident a
  · rw [if_pos hx] at hb
    cases hb
    rw [hx]
    exact ⟨rfl, hvalid⟩
  · rw [if_neg hx] at hb
    exact ⟨h.named x b hb, h.valid x b hb⟩

theorem put (h : L.Exact s) {a : α} (hvalid : L.valid (L.ident a))
    (hold : ∀ b, L.get s (L.ident a) = some b → ∀ key ∈ L.indices b, key ∈ L.indices a) :
    L.Exact (L.put s a) := by
  refine ⟨typed_put h.typed hvalid, fun x b hb => ?_, fun x b hb => ?_, fun key hkey x => ?_⟩
  · rw [get_put] at hb
    exact (h.get_set_cases hvalid hb).1
  · rw [get_put] at hb
    exact (h.get_set_cases hvalid hb).2
  · rw [mem_members_put h.typed hvalid hkey, h.exact key hkey x, get_put]
    by_cases hx : x = L.ident a
    · subst hx
      rw [if_pos rfl]
      constructor
      · rintro (⟨b, hb, hin⟩ | ⟨hin, -⟩)
        · exact ⟨a, rfl, hold b hb key hin⟩
        · exact ⟨a, rfl, hin⟩
      · rintro ⟨b, hb, hin⟩
        cases hb
        exact .inr ⟨hin, rfl⟩
    · simp [hx]

theorem put_new (h : L.Exact s) {a : α} (hvalid : L.valid (L.ident a))
    (hnew : L.get s (L.ident a) = none) : L.Exact (L.put s a) := by
  refine h.put hvalid fun b hb => ?_
  rw [hnew] at hb
  cases hb

theorem replace (h : L.Exact s) {a b : α} (hb : L.get s (L.ident a) = some b)
    (hsame : L.indices b = L.indices a) :
    L.Exact (s.apply (.set (L.name (L.record (L.ident a))) a)) := by
  have hvalid : L.valid (L.ident a) := h.valid _ b hb
  refine ⟨typed_set h.typed hvalid a, fun x c hc => ?_, fun x c hc => ?_, fun key hkey x => ?_⟩
  · rw [get_set] at hc
    exact (h.get_set_cases hvalid hc).1
  · rw [get_set] at hc
    exact (h.get_set_cases hvalid hc).2
  · rw [mem_members_set hvalid hkey, h.exact key hkey x, get_set]
    by_cases hx : x = L.ident a
    · subst hx
      rw [if_pos rfl, hb]
      simp [hsame]
    · rw [if_neg hx]

theorem drop (h : L.Exact s) {id : γ} (hid : L.valid id) : L.Exact (L.drop L.indices s id) := by
  have hidx : ∀ a, ∀ key ∈ L.indices a, L.isIndex key = true := fun _ _ => L.index_of_mem
  have hget : ∀ {x a}, L.get (L.drop L.indices s id) x = some a → L.get s x = some a := by
    intro x a ha
    rw [get_drop] at ha
    split at ha
    · cases ha
    · exact ha
  refine ⟨typed_drop h.typed hidx, fun x a ha => h.named x a (hget ha),
    fun x a ha => h.valid x a (hget ha), fun key hkey x => ?_⟩
  rw [mem_members_drop hid hidx hkey, h.exact key hkey x, get_drop]
  by_cases hx : x = id
  · subst hx
    simp
  · simp [hx]

section DropIndex

variable {index : κ} {others : α → List κ} {ids : List γ}

theorem get_dropIndex (h : L.Exact s) (hidx : L.isIndex index = true) (x : γ) :
    L.get (L.dropIndex index others s ids) x = if x ∈ ids then none else L.get s x := by
  have hdel : L.get (L.dropIndex index others s ids) x =
      if L.name (L.record x) = L.name index then none
      else L.get (ids.foldl (L.drop others) s) x := doc_del
  rw [hdel, get_drops]
  by_cases hname : L.name (L.record x) = L.name index
  · -- such an identifier is not valid, so there is no record
    have hnone : L.get s x = none := by
      cases ha : L.get s x with
      | none => rfl
      | some a => exact absurd hname.symm (L.record_ne (h.valid x a ha) hidx)
    rw [if_pos hname, hnone, ite_self]
  · rw [if_neg hname]

/-- The records in an index are deleted.  `others` has the other indices of such a record. -/
theorem dropIndex (h : L.Exact s) (hidx : L.isIndex index = true)
    (hoths : ∀ a key, key ∈ others a → key ∈ L.indices a)
    (hcover : ∀ a, index ∈ L.indices a → ∀ key ∈ L.indices a, key ≠ index → key ∈ others a)
    (hids : ∀ x, x ∈ ids ↔ x ∈ s.members (L.name index)) :
    L.Exact (L.dropIndex index others s ids) := by
  have hoths' : ∀ a, ∀ key ∈ others a, L.isIndex key = true :=
    fun a key hkey => L.index_of_mem (hoths a key hkey)
  have hvalid : ∀ id ∈ ids, L.valid id := fun id hid => h.valid_of_mem hidx ((hids id).1 hid)
  have hmem : ∀ x, x ∈ ids ↔ ∃ a, L.get s x = some a ∧ index ∈ L.indices a :=
    fun x => (hids x).trans (h.exact index hidx x)
  have hget : ∀ {x a}, L.get (L.dropIndex index others s ids) x = some a → L.get s x = some a := by
    intro x a ha
    rw [h.get_dropIndex hidx] at ha
    split at ha
    · cases ha
    · exact ha
  refine ⟨(typed_drops h.typed hoths' ids).write trivial,
    fun x a ha => h.named x a (hget ha), fun x a ha => h.valid x a (hget ha), fun key hkey x => ?_⟩
  rw [h.get_dropIndex hidx]
  unfold Layout.dropIndex
  rw [mem_members_del, mem_members_drops hoths' hkey hvalid, h.exact key hkey x]
  by_cases hx : x ∈ ids
  · -- the record is deleted, and so is the index in which it was found
    rw [if_pos hx]
    obtain ⟨a, ha, hin⟩ := (hmem x).1 hx
    simp only [reduceCtorEq, false_and, exists_false, iff_false]
    rintro ⟨⟨⟨b, hb, hkey'⟩, hnot⟩, hne⟩
    rw [ha] at hb
    cases hb
    have hne' : key ≠ index := fun heq => hne (by rw [heq])
    exact hnot ⟨hx, a, ha, hcover a hin key hkey' hne'⟩
  · rw [if_neg hx]
    constructor
    · exact fun hin => hin.1.1
    · rintro ⟨a, ha, hin⟩
      refine ⟨⟨⟨a, ha, hin⟩, fun hnot => hx hnot.1⟩, fun heq => hx ((hmem x).2 ?_)⟩
      rw [← L.index_injective hkey hidx heq]
      exact ⟨a, ha, hin⟩

variable [DecidableEq κ]

theorem get_dropIndex_eq (h : L.Exact s) (hidx : L.isIndex index = true)
    (hids : ∀ x, x ∈ ids ↔ x ∈ s.members (L.name index)) (x : γ) :
    L.get (L.dropIndex index others s ids) x =
      (L.get s x).filter fun a => decide (index ∉ L.indices a) := by
  rw [h.get_dropIndex hidx]
  cases ha : L.get s x with
  | none => simp
  | some a =>
    have hiff : x ∈ ids ↔ index ∈ L.indices a := by
      rw [hids x, h.exact index hidx x, ha]
      simp
    by_cases hin : index ∈ L.indices a
    · simp [hiff, hin, Option.filter]
    · simp [hiff, hin, Option.filter]

end DropIndex

end Exact

end Layout

end KeyValue
