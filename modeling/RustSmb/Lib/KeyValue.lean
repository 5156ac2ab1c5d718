import RustSmb.Lib.Prog
import RustSmb.Lib.Table

/-!
# A typed key-value server

A server keeps a document or a set under each key.  A command for the other kind of value fails, and
a set that becomes empty goes away.  Each key has a version, which changes with its value; a
transaction can be made to depend on a version.

How the members of a set are listed is not determined: an `Enumeration` stands for the order.

## Main results

* `KeyValue.Server.Typed.write` — writes that respect the classes keep them.
* `KeyValue.answer_get`, `KeyValue.answer_smembers`, `KeyValue.answer_write` — **commands that
  respect the classes succeed.**
* `KeyValue.Server.doc_set`, `KeyValue.Server.mem_members_sadd` and their companions — what is
  kept after a write.
-/

namespace KeyValue

open List

variable {α γ : Type}

/-- A value of the server: a document or a set. -/
inductive Value (α γ : Type) where
  | document (a : α)
  | set (members : List γ)

/-- The values, and for each key how often it was written, for `WATCH`. -/
structure Server (α γ : Type) where
  values : Table String (Value α γ)
  versions : String → ℕ

/-- The command does not fit the value's type. -/
inductive WrongType where
  | wrongType
  deriving DecidableEq

/-- The commands that change one key. -/
inductive Write (α γ : Type) where
  | set (key : String) (a : α)
  | del (key : String)
  | sadd (key : String) (member : γ)
  | srem (key : String) (member : γ)

def Write.key : Write α γ → String
  | set k _ | del k | sadd k _ | srem k _ => k

/-- The commands. -/
inductive Op (α γ : Type) where
  | get (key : String)
  | smembers (key : String)
  /-- All keys that start with a text. -/
  | keys (start : String)
  | write (w : Write α γ)
  /-- The version of a key, for a transaction. -/
  | watch (key : String)
  /-- Several writes at once, if the key still has the version. -/
  | exec (key : String) (version : ℕ) (writes : List (Write α γ))

abbrev Op.Res : Op α γ → Type
  | get _ => Except WrongType (Option α)
  | smembers _ => Except WrongType (List γ)
  | keys _ => List String
  | write _ => Except WrongType Unit
  | watch _ => ℕ
  | exec _ _ _ => Option Unit

abbrev Sig (α γ : Type) : Signature := ⟨Op α γ, Op.Res⟩

/-- An order in which the server lists what it has. -/
structure Enumeration where
  list : (β : Type) → List β → List β
  mem_list : ∀ {β : Type} {b : β} {l : List β}, b ∈ list β l ↔ b ∈ l

/-- The order in which things came. -/
def Enumeration.plain : Enumeration := ⟨fun _ l => l, Iff.rfl⟩

namespace Server

def empty : Server α γ := ⟨∅, fun _ => 0⟩

/-- The document under a key. -/
def doc (s : Server α γ) (k : String) : Option α :=
  match s.values.lookup k with
  | some (.document a) => some a
  | _ => none

/-- The set under a key; an absent one is empty. -/
def members (s : Server α γ) (k : String) : List γ :=
  match s.values.lookup k with
  | some (.set ms) => ms
  | _ => []

def IsSet (s : Server α γ) (k : String) : Prop := ∃ ms, s.values.lookup k = some (.set ms)

def IsDoc (s : Server α γ) (k : String) : Prop := ∃ a, s.values.lookup k = some (.document a)

/-- A write also counts up the key's version. -/
def assign (s : Server α γ) (k : String) (v : Value α γ) : Server α γ :=
  ⟨s.values.insert k v, Function.update s.versions k (s.versions k + 1)⟩

/-- A removal counts as a write. -/
def remove (s : Server α γ) (k : String) : Server α γ :=
  ⟨s.values.erase k, Function.update s.versions k (s.versions k + 1)⟩

variable [DecidableEq γ]

/-- What a write makes of the server; a write that does not fit leaves it. -/
def apply (s : Server α γ) : Write α γ → Server α γ
  | .set k a => s.assign k (.document a)
  | .del k => if (s.values.lookup k).isSome then s.remove k else s
  | .sadd k m =>
      match s.values.lookup k with
      | none => s.assign k (.set [m])
      | some (.set ms) => if m ∈ ms then s else s.assign k (.set (ms ++ [m]))
      | some (.document _) => s
  | .srem k m =>
      match s.values.lookup k with
      | some (.set ms) =>
          if m ∈ ms then
            if (ms.filter (· ≠ m)).isEmpty then s.remove k
            else s.assign k (.set (ms.filter (· ≠ m)))
          else s
      | _ => s

/-- The command fits the type of the value. -/
def fits (s : Server α γ) : Write α γ → Bool
  | .set _ _ | .del _ => true
  | .sadd k _ | .srem k _ =>
      match s.values.lookup k with
      | some (.document _) => false
      | _ => true

end Server

variable [DecidableEq γ]

/-- Several writes one after the other, and whether all of them fit. -/
def transact : Server α γ → List (Write α γ) → Bool × Server α γ
  | s, [] => (true, s)
  | s, w :: ws => ((s.fits w && (transact (s.apply w) ws).1), (transact (s.apply w) ws).2)

/-- What the server answers and becomes. -/
def answer (e : Enumeration) : (o : Op α γ) → Server α γ → o.Res × Server α γ
  | .get k, s =>
      match s.values.lookup k with
      | some (.set _) => (.error .wrongType, s)
      | _ => (.ok (s.doc k), s)
  | .smembers k, s =>
      match s.values.lookup k with
      | some (.document _) => (.error .wrongType, s)
      | _ => (.ok (e.list γ (s.members k)), s)
  | .keys start, s => (e.list String (s.values.keys.filter fun k => k.startsWith start), s)
  | .write w, s => (if s.fits w then .ok () else .error .wrongType, s.apply w)
  | .watch k, s => (s.versions k, s)
  | .exec k version writes, s =>
      if s.versions k = version then
        let r := transact s writes
        (if r.1 then some () else none, r.2)
      else (none, s)

namespace Server

variable {s : Server α γ} {k k' : String}

/-! ### What is kept after a write -/

omit [DecidableEq γ] in
theorem lookup_assign (v : Value α γ) :
    (s.assign k v).values.lookup k' = if k' = k then some v else s.values.lookup k' :=
  Table.lookup_insert_ite k k' v

omit [DecidableEq γ] in
theorem lookup_remove :
    (s.remove k).values.lookup k' = if k' = k then none else s.values.lookup k' :=
  Table.lookup_erase_ite k k'

theorem lookup_apply_of_ne {w : Write α γ} (hk : k ≠ w.key) :
    (s.apply w).values.lookup k = s.values.lookup k := by
  cases w with
  | set k' a => exact (lookup_assign _).trans (if_neg hk)
  | del k' =>
    unfold apply
    dsimp only
    split
    · exact lookup_remove.trans (if_neg hk)
    · rfl
  | sadd k' m =>
    unfold apply
    dsimp only
    split
    · exact (lookup_assign _).trans (if_neg hk)
    · split
      · rfl
      · exact (lookup_assign _).trans (if_neg hk)
    · rfl
  | srem k' m =>
    unfold apply
    dsimp only
    split
    · split
      · split
        · exact lookup_remove.trans (if_neg hk)
        · exact (lookup_assign _).trans (if_neg hk)
      · rfl
    · rfl

theorem doc_apply_of_ne {w : Write α γ} (hk : k ≠ w.key) : (s.apply w).doc k = s.doc k := by
  unfold doc
  rw [lookup_apply_of_ne hk]

theorem members_apply_of_ne {w : Write α γ} (hk : k ≠ w.key) :
    (s.apply w).members k = s.members k := by
  unfold members
  rw [lookup_apply_of_ne hk]

omit [DecidableEq γ] in
theorem doc_of_lookup {v : Option (Value α γ)} (h : s.values.lookup k = v) :
    s.doc k = v.bind fun
      | .document a => some a
      | .set _ => none := by
  unfold doc
  rw [h]
  rcases v with _ | (_ | _) <;> rfl

omit [DecidableEq γ] in
theorem members_of_lookup {v : Option (Value α γ)} (h : s.values.lookup k = v) :
    s.members k = v.elim [] fun
      | .document _ => []
      | .set ms => ms := by
  unfold members
  rw [h]
  rcases v with _ | (_ | _) <;> rfl

@[simp]
theorem doc_set (a : α) : (s.apply (.set k a)).doc k' = if k' = k then some a else s.doc k' := by
  by_cases hk : k' = k
  · unfold apply
    rw [if_pos hk, doc_of_lookup ((lookup_assign _).trans (if_pos hk))]
    rfl
  · rw [if_neg hk, doc_apply_of_ne hk]

@[simp]
theorem doc_del : (s.apply (.del k)).doc k' = if k' = k then none else s.doc k' := by
  by_cases hk : k' = k
  · subst hk
    rw [if_pos rfl]
    unfold apply
    dsimp only
    split
    · rw [doc_of_lookup (lookup_remove.trans (if_pos rfl))]
      rfl
    · next hnone =>
      rw [doc_of_lookup (Option.not_isSome_iff_eq_none.1 hnone)]
      rfl
  · rw [if_neg hk, doc_apply_of_ne hk]

@[simp]
theorem doc_sadd (m : γ) : (s.apply (.sadd k m)).doc k' = s.doc k' := by
  by_cases hk : k' = k
  · subst hk
    unfold apply
    dsimp only
    split
    · next hlook =>
      rw [doc_of_lookup ((lookup_assign _).trans (if_pos rfl)), doc_of_lookup hlook]
      rfl
    · next ms hlook =>
      split
      · rfl
      · rw [doc_of_lookup ((lookup_assign _).trans (if_pos rfl)), doc_of_lookup hlook]
        rfl
    · rfl
  · exact doc_apply_of_ne hk

@[simp]
theorem doc_srem (m : γ) : (s.apply (.srem k m)).doc k' = s.doc k' := by
  by_cases hk : k' = k
  · subst hk
    unfold apply
    dsimp only
    split
    · next ms hlook =>
      split
      · split
        · rw [doc_of_lookup (lookup_remove.trans (if_pos rfl)), doc_of_lookup hlook]
          rfl
        · rw [doc_of_lookup ((lookup_assign _).trans (if_pos rfl)), doc_of_lookup hlook]
          rfl
      · rfl
    · rfl
  · exact doc_apply_of_ne hk

theorem mem_members_set {a : α} {x : γ} :
    x ∈ (s.apply (.set k a)).members k' ↔ x ∈ s.members k' ∧ k' ≠ k := by
  by_cases hk : k' = k
  · unfold apply
    rw [members_of_lookup ((lookup_assign _).trans (if_pos hk))]
    simp [hk]
  · rw [members_apply_of_ne hk, and_iff_left hk]

theorem mem_members_del {x : γ} :
    x ∈ (s.apply (.del k)).members k' ↔ x ∈ s.members k' ∧ k' ≠ k := by
  by_cases hk : k' = k
  · subst hk
    have hnil : (s.apply (.del k')).members k' = [] := by
      unfold apply
      dsimp only
      split
      · rw [members_of_lookup (lookup_remove.trans (if_pos rfl))]
        rfl
      · next hnone =>
        rw [members_of_lookup (Option.not_isSome_iff_eq_none.1 hnone)]
        rfl
    simp [hnil]
  · rw [members_apply_of_ne hk, and_iff_left hk]

theorem mem_members_sadd {m x : γ} (hfits : ¬ s.IsDoc k) :
    x ∈ (s.apply (.sadd k m)).members k' ↔ x ∈ s.members k' ∨ k' = k ∧ x = m := by
  by_cases hk : k' = k
  · subst hk
    unfold apply
    dsimp only
    split
    · next hlook =>
      rw [members_of_lookup ((lookup_assign _).trans (if_pos rfl)), members_of_lookup hlook]
      simp
    · next ms hlook =>
      have hms : s.members k' = ms := members_of_lookup hlook
      split
      · next hmem =>
        rw [hms]
        constructor
        · exact fun hx => .inl hx
        · rintro (hx | ⟨-, rfl⟩)
          · exact hx
          · exact hmem
      · rw [members_of_lookup ((lookup_assign _).trans (if_pos rfl)), hms]
        simp
    · next a hlook => exact absurd ⟨a, hlook⟩ hfits
  · rw [members_apply_of_ne hk]
    simp [hk]

theorem mem_members_srem {m x : γ} :
    x ∈ (s.apply (.srem k m)).members k' ↔ x ∈ s.members k' ∧ ¬ (k' = k ∧ x = m) := by
  by_cases hk : k' = k
  · subst hk
    unfold apply
    dsimp only
    split
    · next ms hlook =>
      have hms : s.members k' = ms := members_of_lookup hlook
      split
      · next hmem =>
        split
        · next hempty =>
          have hnil := filter_eq_nil_iff.1 (isEmpty_iff.1 hempty)
          rw [members_of_lookup (lookup_remove.trans (if_pos rfl)), hms]
          simp only [Option.elim_none, not_mem_nil, false_iff, true_and, not_and, not_not]
          intro hx
          simpa using hnil x hx
        · rw [members_of_lookup ((lookup_assign _).trans (if_pos rfl)), hms]
          simp
      · next hmem =>
        rw [hms]
        constructor
        · exact fun hx => ⟨hx, fun heq => hmem (heq.2 ▸ hx)⟩
        · exact fun hx => hx.1
    · next hno =>
      have hnil : s.members k' = [] := by
        unfold members
        split
        · next ms hlook => exact absurd hlook (hno ms)
        · rfl
      simp [hnil]
  · rw [members_apply_of_ne hk]
    simp [hk]

/-! ### Several indices at once -/

section Several

variable {ι : Type} {f : ι → String} {is : List ι} {m x : γ}

/-- A member is added to several sets. -/
def saddAll (s : Server α γ) (f : ι → String) (is : List ι) (m : γ) : Server α γ :=
  is.foldl (fun s i => s.apply (.sadd (f i) m)) s

/-- A member is removed from several sets. -/
def sremAll (s : Server α γ) (f : ι → String) (is : List ι) (m : γ) : Server α γ :=
  is.foldl (fun s i => s.apply (.srem (f i) m)) s

@[simp]
theorem doc_saddAll : (s.saddAll f is m).doc k = s.doc k := by
  induction is generalizing s with
  | nil => rfl
  | cons i is ih => exact ih.trans (doc_sadd m)

@[simp]
theorem doc_sremAll : (s.sremAll f is m).doc k = s.doc k := by
  induction is generalizing s with
  | nil => rfl
  | cons i is ih => exact ih.trans (doc_srem m)

theorem mem_members_sremAll :
    x ∈ (s.sremAll f is m).members k ↔ x ∈ s.members k ∧ ¬ (k ∈ is.map f ∧ x = m) := by
  induction is generalizing s with
  | nil => simp [sremAll]
  | cons i is ih =>
    have hstep : s.sremAll f (i :: is) m = (s.apply (.srem (f i) m)).sremAll f is m := rfl
    rw [hstep, ih, mem_members_srem, map_cons, mem_cons]
    tauto

end Several

/-! ### Classes of keys -/

/-- The keys in a class hold no documents, the others no sets, and no set is empty. -/
structure Typed (index : String → Prop) (s : Server α γ) : Prop where
  not_doc : ∀ k, index k → ¬ s.IsDoc k
  not_set : ∀ k, ¬ index k → ¬ s.IsSet k
  not_empty : ∀ k, s.values.lookup k ≠ some (.set [])

/-- The command treats index keys as sets and the others as documents. -/
def Respects (index : String → Prop) : Write α γ → Prop
  | .set k _ => ¬ index k
  | .del _ => True
  | .sadd k _ | .srem k _ => index k

variable {index : String → Prop}

omit [DecidableEq γ] in
theorem typed_empty : Typed index (empty : Server α γ) := by
  refine ⟨fun k _ h => ?_, fun k _ h => ?_, fun k h => ?_⟩
  · obtain ⟨a, ha⟩ := h
    cases ha
  · obtain ⟨ms, hms⟩ := h
    cases hms
  · cases h

omit [DecidableEq γ] in
theorem Typed.assign (h : Typed index s) {v : Value α γ} (hdoc : index k → ∀ a, v ≠ .document a)
    (hset : ¬ index k → ∀ ms, v ≠ .set ms) (hne : v ≠ .set []) : Typed index (s.assign k v) := by
  have hcases : ∀ {k' v'}, (s.assign k v).values.lookup k' = some v' →
      k' = k ∧ v' = v ∨ s.values.lookup k' = some v' := by
    intro k' v' hlook
    rw [lookup_assign] at hlook
    split at hlook
    · next hk => exact .inl ⟨hk, (Option.some.inj hlook).symm⟩
    · exact .inr hlook
  refine ⟨fun k' hk ⟨a, ha⟩ => ?_, fun k' hk ⟨ms, hms⟩ => ?_, fun k' hlook => ?_⟩
  · rcases hcases ha with ⟨rfl, heq⟩ | hold
    · exact hdoc hk a heq.symm
    · exact h.not_doc k' hk ⟨a, hold⟩
  · rcases hcases hms with ⟨rfl, heq⟩ | hold
    · exact hset hk ms heq.symm
    · exact h.not_set k' hk ⟨ms, hold⟩
  · rcases hcases hlook with ⟨-, heq⟩ | hold
    · exact hne heq.symm
    · exact h.not_empty k' hold

omit [DecidableEq γ] in
theorem Typed.remove (h : Typed index s) : Typed index (s.remove k) := by
  have hold : ∀ {k' v'}, (s.remove k).values.lookup k' = some v' →
      s.values.lookup k' = some v' := by
    intro k' v' hlook
    rw [lookup_remove] at hlook
    split at hlook
    · cases hlook
    · exact hlook
  exact ⟨fun k' hk ⟨a, ha⟩ => h.not_doc k' hk ⟨a, hold ha⟩,
    fun k' hk ⟨ms, hms⟩ => h.not_set k' hk ⟨ms, hold hms⟩,
    fun k' hlook => h.not_empty k' (hold hlook)⟩

theorem Typed.write (h : Typed index s) {w : Write α γ} (hw : Respects index w) :
    Typed index (s.apply w) := by
  cases w with
  | set k a => exact h.assign (fun hk => absurd hk hw) nofun nofun
  | del k =>
    unfold apply
    dsimp only
    split
    · exact h.remove
    · exact h
  | sadd k m =>
    have hadd : ∀ ms : List γ, Typed index (s.assign k (.set (ms ++ [m]))) := by
      intro ms
      refine h.assign nofun (fun hk => absurd hw hk) fun heq => ?_
      have hnil : ms ++ [m] = [] := by injection heq
      simp at hnil
    unfold apply
    dsimp only
    split
    · exact hadd []
    · split
      · exact h
      · exact hadd _
    · exact h
  | srem k m =>
    unfold apply
    dsimp only
    split
    · split
      · split
        · exact h.remove
        · next hne =>
          refine h.assign nofun (fun hk => absurd hw hk) fun heq => ?_
          injection heq with hnil
          rw [hnil] at hne
          exact hne rfl
      · exact h
    · exact h

omit [DecidableEq γ] in
theorem Typed.fits (h : Typed index s) {w : Write α γ} (hw : Respects index w) :
    s.fits w = true := by
  cases w with
  | set _ _ | del _ => rfl
  | sadd k m | srem k m =>
    unfold Server.fits
    dsimp only
    split
    · next a ha => exact absurd ⟨a, ha⟩ (h.not_doc k hw)
    · rfl

section Several

variable {ι : Type} {f : ι → String} {is : List ι} {m x : γ}

theorem Typed.writeAll {w : ι → Write α γ} (h : Typed index s)
    (hw : ∀ i ∈ is, Respects index (w i)) :
    Typed index (is.foldl (fun s i => s.apply (w i)) s) := by
  induction is generalizing s with
  | nil => exact h
  | cons i is ih =>
    obtain ⟨hi, his⟩ := forall_mem_cons.1 hw
    exact ih (h.write hi) his

theorem Typed.saddAll (h : Typed index s) (hf : ∀ i ∈ is, index (f i)) :
    Typed index (s.saddAll f is m) := h.writeAll hf

theorem Typed.sremAll (h : Typed index s) (hf : ∀ i ∈ is, index (f i)) :
    Typed index (s.sremAll f is m) := h.writeAll hf

theorem mem_members_saddAll (h : Typed index s) (hf : ∀ i ∈ is, index (f i)) :
    x ∈ (s.saddAll f is m).members k ↔ x ∈ s.members k ∨ k ∈ is.map f ∧ x = m := by
  induction is generalizing s with
  | nil => simp [Server.saddAll]
  | cons i is ih =>
    obtain ⟨hi, his⟩ := forall_mem_cons.1 hf
    have hstep : s.saddAll f (i :: is) m = (s.apply (.sadd (f i) m)).saddAll f is m := rfl
    rw [hstep, ih (h.write (w := .sadd (f i) m) hi) his, mem_members_sadd (h.not_doc _ hi),
      map_cons, mem_cons]
    tauto

end Several

end Server

/-! ### Commands that respect the classes -/

section Answers

variable {s : Server α γ} {k : String} {index : String → Prop} (e : Enumeration)

theorem answer_snd_of_read {o : Op α γ} (hwrite : ∀ w, o ≠ .write w)
    (hexec : ∀ k version writes, o ≠ .exec k version writes) : (answer e o s).2 = s := by
  cases o with
  | get k | smembers k =>
    unfold answer
    dsimp only
    split <;> rfl
  | keys start | watch k => rfl
  | write w => exact absurd rfl (hwrite w)
  | exec k version writes => exact absurd rfl (hexec k version writes)

theorem answer_get (h : s.Typed index) (hk : ¬ index k) :
    answer e (.get k) s = (.ok (s.doc k), s) := by
  unfold answer
  dsimp only
  split
  · next ms hms => exact absurd ⟨ms, hms⟩ (h.not_set k hk)
  · rfl

theorem answer_smembers (h : s.Typed index) (hk : index k) :
    answer e (.smembers k) s = (.ok (e.list γ (s.members k)), s) := by
  unfold answer
  dsimp only
  split
  · next a ha => exact absurd ⟨a, ha⟩ (h.not_doc k hk)
  · rfl

theorem answer_write (h : s.Typed index) {w : Write α γ} (hw : Server.Respects index w) :
    answer e (.write w) s = (.ok (), s.apply w) := by
  unfold answer
  dsimp only
  rw [h.fits hw, if_pos rfl]

theorem answer_exec (h : s.Typed index) {writes : List (Write α γ)}
    (hw : ∀ w ∈ writes, Server.Respects index w) :
    answer e (.exec k (s.versions k) writes) s = (some (), writes.foldl Server.apply s) := by
  have htransact : transact s writes = (true, writes.foldl Server.apply s) := by
    induction writes generalizing s with
    | nil => rfl
    | cons w ws ih =>
      obtain ⟨hfirst, hrest⟩ := forall_mem_cons.1 hw
      rw [transact, h.fits hfirst, ih (h.write hfirst) hrest, foldl_cons, Bool.true_and]
  unfold answer
  dsimp only
  rw [if_pos rfl, htransact, if_pos rfl]

end Answers

end KeyValue
