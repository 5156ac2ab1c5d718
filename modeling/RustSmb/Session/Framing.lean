import RustSmb.Session.Compound

/-!
# The framing of compounds

The offsets of a message increase and stay inside it, whatever the distances are that
its commands name.  Byte strings that name the distances to the next are found again
by walking over them.

## Main results

* `mem_compoundOffsetsFrom`, `pairwise_compoundOffsetsFrom` — where the offsets are.
* `parseCompoundOffsets_chained`, `compoundCommands_chained` — **walking over a chain
  finds its parts.**
-/

namespace RustSmb

open List

variable {ps : List Bytes}

/-! ### The offsets of a message -/

section Offsets

variable {data : Bytes} {fuel current : ℕ}

theorem mem_compoundOffsetsFrom {x : ℕ} (hx : x ∈ compoundOffsetsFrom data fuel current) :
    current ≤ x ∧ x < data.length := by
  induction fuel generalizing current with
  | zero => cases hx
  | succ fuel ih =>
    unfold compoundOffsetsFrom at hx
    split at hx
    · next hlt =>
      have hself : ∀ y ∈ [current], current ≤ y ∧ y < data.length := by
        intro y hy
        rw [mem_singleton.1 hy]
        exact ⟨Nat.le_refl _, hlt⟩
      split at hx
      · exact hself x hx
      dsimp only at hx
      split at hx
      · exact hself x hx
      rcases mem_cons.1 hx with rfl | hx
      · exact ⟨Nat.le_refl _, hlt⟩
      · have := ih hx
        omega
    · cases hx

theorem pairwise_compoundOffsetsFrom (data : Bytes) (fuel current : ℕ) :
    (compoundOffsetsFrom data fuel current).Pairwise (· < ·) := by
  induction fuel generalizing current with
  | zero => exact .nil
  | succ fuel ih =>
    unfold compoundOffsetsFrom
    split
    · split
      · exact pairwise_singleton ..
      dsimp only
      split
      · exact pairwise_singleton ..
      refine pairwise_cons.2 ⟨fun x hx => ?_, ih _⟩
      have := (mem_compoundOffsetsFrom hx).1
      omega
    · exact .nil

theorem head?_parseCompoundOffsets (h : data ≠ []) :
    (parseCompoundOffsets data).head? = some 0 := by
  have hlt : 0 < data.length := length_pos_iff.2 h
  unfold parseCompoundOffsets compoundOffsetsFrom
  rw [if_pos hlt]
  split
  · rfl
  dsimp only
  split <;> rfl

end Offsets

/-! ### Chains -/

/-- Each byte string names the distance to the next, and the last names none. -/
def Chained : List Bytes → Prop
  | [] => False
  | [p] => 64 ≤ p.length ∧ p.u32 20 = 0
  | p :: q :: rest => 64 ≤ p.length ∧ (p.u32 20).toNat = p.length ∧ Chained (q :: rest)

/-- The places of byte strings that are put one after the other from `start` on. -/
def startsFrom (start : ℕ) : List Bytes → List ℕ
  | [] => []
  | p :: rest => start :: startsFrom (start + p.length) rest

@[simp]
theorem length_startsFrom (start : ℕ) (ps : List Bytes) :
    (startsFrom start ps).length = ps.length := by
  induction ps generalizing start with
  | nil => rfl
  | cons p rest ih => simp [startsFrom, ih]

theorem Chained.length_head {p : Bytes} {rest : List Bytes} (h : Chained (p :: rest)) :
    64 ≤ p.length := by
  cases rest with
  | nil | cons _ _ => exact h.1

theorem Chained.cons {p : Bytes} (h : Chained ps) (hlen : 64 ≤ p.length)
    (hnext : (p.u32 20).toNat = p.length) : Chained (p :: ps) := by
  cases ps with
  | nil => exact h.elim
  | cons q rest => exact ⟨hlen, hnext, h⟩

theorem Chained.last (h : Chained ps) {p : Bytes} (hp : ps.getLast? = some p) :
    p.u32 20 = 0 := by
  induction ps with
  | nil => exact h.elim
  | cons q rest ih =>
    cases rest with
    | nil =>
      cases hp
      exact h.2
    | cons r rest => exact ih h.2.2 hp

theorem compoundOffsetsFrom_chained (h : Chained ps) (pre : Bytes) {fuel : ℕ}
    (hfuel : ps.flatten.length < fuel) :
    compoundOffsetsFrom (pre ++ ps.flatten) fuel pre.length = startsFrom pre.length ps := by
  induction ps generalizing pre fuel with
  | nil => exact h.elim
  | cons p rest ih =>
    obtain ⟨fuel, rfl⟩ : ∃ n, fuel = n + 1 := ⟨fuel - 1, by omega⟩
    have hlen := h.length_head
    have hfield : (pre ++ (p :: rest).flatten).u32 (pre.length + 20) = p.u32 20 := by
      rw [Bytes.u32_append_right, flatten_cons, Bytes.u32_append_left _ (by omega)]
    have htotal : (pre ++ (p :: rest).flatten).length =
        pre.length + p.length + rest.flatten.length := by
      simp only [length_append, flatten_cons]
      omega
    rw [compoundOffsetsFrom, if_pos (by omega), if_neg (by omega), hfield]
    cases rest with
    | nil =>
      have hnext : (p.u32 20).toNat = 0 := by
        rw [h.2]
        rfl
      rw [if_pos hnext]
      rfl
    | cons q rest =>
      have hnext : (p.u32 20).toNat = p.length := h.2.1
      have hfuel' : (q :: rest).flatten.length < fuel := by
        rw [flatten_cons, length_append] at hfuel
        omega
      have hrest := ih h.2.2 (pre ++ p) hfuel'
      rw [append_assoc, ← flatten_cons, length_append] at hrest
      dsimp only
      rw [if_neg (by omega), hnext, hrest]
      rfl

/-- **Walking over a chain finds the place of each part.** -/
theorem parseCompoundOffsets_chained (h : Chained ps) :
    parseCompoundOffsets ps.flatten = startsFrom 0 ps :=
  compoundOffsetsFrom_chained h [] (Nat.lt_succ_self _)

theorem compoundCommands_startsFrom (pre : Bytes) (ps : List Bytes) :
    compoundCommands (pre ++ ps.flatten) (startsFrom pre.length ps) = ps := by
  induction ps generalizing pre with
  | nil => rfl
  | cons p rest ih =>
    cases rest with
    | nil => simp [startsFrom, compoundCommands]
    | cons q rest =>
      have hrest := ih (pre ++ p)
      rw [append_assoc, ← flatten_cons, length_append] at hrest
      have hfirst : Bytes.slice (pre ++ (p :: q :: rest).flatten) pre.length p.length = p := by
        simp [Bytes.slice, flatten_cons]
      simp only [startsFrom, compoundCommands] at hrest ⊢
      rw [hrest, Nat.add_sub_cancel_left, hfirst]

/-- **The parts of a chain are found again.** -/
theorem compoundCommands_chained (h : Chained ps) :
    compoundCommands ps.flatten (parseCompoundOffsets ps.flatten) = ps := by
  rw [parseCompoundOffsets_chained h]
  exact compoundCommands_startsFrom [] ps

end RustSmb
