import Mathlib.Data.List.Basic

/-!
# A cache that evicts what was least recently used

Entries are listed from the most to the least recently used one.  To read or write an entry moves
it to the front; to write beyond the capacity drops the last entry.

## Main results

* `Lru.peek_put_self`, `Lru.peek_of_put`, `Lru.peek_touch`, `Lru.peek_pop` — what is found after an
  operation.
-/

/-- A cache that drops what was used longest ago. -/
structure Lru (κ ν : Type) where
  /-- One less than the capacity. -/
  room : ℕ
  entries : List (κ × ν)

namespace Lru

variable {κ ν : Type} [DecidableEq κ]

/-- An empty cache.  There is always room for one entry. -/
def new (capacity : ℕ) : Lru κ ν := ⟨capacity - 1, []⟩

def peek (c : Lru κ ν) (k : κ) : Option ν := (c.entries.find? fun e => e.1 = k).map Prod.snd

def pop (c : Lru κ ν) (k : κ) : Lru κ ν := ⟨c.room, c.entries.filter fun e => e.1 ≠ k⟩

/-- Keep a value under a key, as the most recently used one. -/
def put (c : Lru κ ν) (k : κ) (v : ν) : Lru κ ν :=
  ⟨c.room, (k, v) :: (c.pop k).entries.take c.room⟩

/-- What is kept under a key becomes the most recently used one. -/
def touch (c : Lru κ ν) (k : κ) : Lru κ ν :=
  match c.peek k with
  | some v => ⟨c.room, (k, v) :: (c.pop k).entries⟩
  | none => c

variable {c : Lru κ ν} {k k' : κ} {v : ν}

omit [DecidableEq κ] in
theorem find?_filter_of_imp {α : Type} {p q : α → Bool} (l : List α) (h : ∀ a, p a → q a) :
    (l.filter q).find? p = l.find? p := by
  rw [List.find?_filter]
  congr 1
  funext a
  cases hp : p a with
  | false => simp
  | true => simp [h a hp]

theorem peek_pop : (c.pop k).peek k' = if k' = k then none else c.peek k' := by
  unfold pop peek
  by_cases hk : k' = k
  · subst hk
    rw [if_pos rfl]
    have hnone : (c.entries.filter fun e => e.1 ≠ k').find? (fun e => e.1 = k') = none := by
      rw [List.find?_eq_none]
      intro e he
      have hne := (List.mem_filter.1 he).2
      simpa using hne
    rw [hnone]
    rfl
  · rw [if_neg hk, find?_filter_of_imp]
    intro e he
    have he : e.1 = k' := of_decide_eq_true he
    simp [he, hk]

theorem peek_cons (room : ℕ) (l : List (κ × ν)) :
    (⟨room, (k, v) :: l⟩ : Lru κ ν).peek k' =
      if k' = k then some v else (⟨room, l⟩ : Lru κ ν).peek k' := by
  unfold peek
  by_cases hk : k' = k
  · subst hk
    simp
  · simp [hk, Ne.symm hk]

@[simp]
theorem peek_put_self : (c.put k v).peek k = some v := by
  unfold put
  rw [peek_cons, if_pos rfl]

theorem peek_of_put {v' : ν} (hk : k' ≠ k) (h : (c.put k v).peek k' = some v') :
    c.peek k' = some v' := by
  unfold put at h
  rw [peek_cons, if_neg hk] at h
  have hpop : (c.pop k).peek k' = some v' := by
    unfold peek at h ⊢
    obtain ⟨e, he, hv⟩ := Option.map_eq_some_iff.1 h
    rw [Option.map_eq_some_iff]
    refine ⟨e, ?_, hv⟩
    -- what is found in an initial part is found in the whole
    have hsplit := List.take_append_drop c.room (c.pop k).entries
    rw [← hsplit, List.find?_append]
    rw [he]
    rfl
  rw [peek_pop, if_neg hk] at hpop
  exact hpop

@[simp]
theorem peek_touch : (c.touch k).peek k' = c.peek k' := by
  unfold touch
  split
  · next v hv =>
    rw [peek_cons]
    by_cases hk : k' = k
    · rw [if_pos hk, hk, hv]
    · have hpop : (⟨c.room, (c.pop k).entries⟩ : Lru κ ν) = c.pop k := rfl
      rw [if_neg hk, hpop, peek_pop, if_neg hk]
  · rfl

end Lru
