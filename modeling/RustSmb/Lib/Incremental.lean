import Mathlib.Data.List.Infix

/-!
# Parsers that take items from the front of a buffer

A receiver keeps what it has read in a buffer and takes an item from its front whenever one is
complete.  If more bytes behind a complete item do not change it, the items do not depend on how the
stream was cut into reads.

## Main results

* `FrontParser.drain_append` — **draining in parts finds the same items.**
* `FrontParser.drain_encoded` — the items of an encoded list are found again.
-/

namespace RustSmb

open List

/-- A parser of the front of a buffer: a complete item is part of it, and stays what it is when
more is read. -/
structure FrontParser (α μ : Type) where
  parse : List α → Option (μ × List α)
  shorter : ∀ {b m rest}, parse b = some (m, rest) → rest.length < b.length
  stable : ∀ {b m rest}, parse b = some (m, rest) → ∀ more,
    parse (b ++ more) = some (m, rest ++ more)

namespace FrontParser

variable {α μ : Type} (P : FrontParser α μ)

/-- Take at most so many items from the front. -/
def drainFor : ℕ → List α → List μ × List α
  | 0, b => ([], b)
  | n + 1, b =>
      match P.parse b with
      | some (m, rest) => (m :: (drainFor n rest).1, (drainFor n rest).2)
      | none => ([], b)

/-- Take items as long as one is complete: the items, and what is left. -/
def drain (b : List α) : List μ × List α := P.drainFor b.length b

variable {P} {b rest : List α} {m : μ} {n k : ℕ}

theorem drainFor_of_none (h : P.parse b = none) : P.drainFor n b = ([], b) := by
  cases n with
  | zero => rfl
  | succ n => rw [drainFor, h]

/-- An item needs one symbol at least, so that as many rounds as there are symbols are enough. -/
theorem drainFor_of_le (hn : b.length ≤ n) : P.drainFor n b = P.drain b := by
  have hsame : ∀ n k : ℕ, ∀ b : List α, b.length ≤ n → b.length ≤ k →
      P.drainFor n b = P.drainFor k b := by
    intro n
    induction n with
    | zero =>
      intro k b hb _
      have hnil : b = [] := length_eq_zero_iff.1 (Nat.le_zero.1 hb)
      have hnone : P.parse b = none := by
        rw [Option.eq_none_iff_forall_ne_some]
        rintro ⟨m, rest⟩ hparse
        have hlt := P.shorter hparse
        rw [hnil] at hlt
        exact absurd hlt (Nat.not_lt_zero _)
      rw [drainFor_of_none hnone, drainFor_of_none hnone]
    | succ n ih =>
      intro k b hb hk
      cases hparse : P.parse b with
      | none => rw [drainFor_of_none hparse, drainFor_of_none hparse]
      | some item =>
        obtain ⟨m, rest⟩ := item
        have hlt := P.shorter hparse
        obtain ⟨k, rfl⟩ : ∃ j, k = j + 1 := ⟨k - 1, by omega⟩
        have hrest := ih k rest (by omega) (by omega)
        simp only [drainFor, hparse, hrest]
  exact hsame n b.length b hn (Nat.le_refl _)

theorem drain_of_none (h : P.parse b = none) : P.drain b = ([], b) := drainFor_of_none h

theorem drain_of_some (h : P.parse b = some (m, rest)) :
    P.drain b = (m :: (P.drain rest).1, (P.drain rest).2) := by
  have hlt := P.shorter h
  have hstep : P.drainFor (b.length + 1) b =
      (m :: (P.drainFor b.length rest).1, (P.drainFor b.length rest).2) := by
    rw [drainFor, h]
  rw [drainFor_of_le (Nat.le_succ _), drainFor_of_le (by omega)] at hstep
  exact hstep

/-- **Reading more and draining again finds the items of all that was read.** -/
theorem drain_append (b more : List α) :
    P.drain (b ++ more) =
      ((P.drain b).1 ++ (P.drain ((P.drain b).2 ++ more)).1,
        (P.drain ((P.drain b).2 ++ more)).2) := by
  induction hn : b.length using Nat.strong_induction_on generalizing b with
  | _ n ih =>
    cases hparse : P.parse b with
    | none =>
      rw [drain_of_none hparse]
      rfl
    | some item =>
      obtain ⟨m, rest⟩ := item
      have hrest := ih rest.length (hn ▸ P.shorter hparse) rest rfl
      rw [drain_of_some hparse, drain_of_some (P.stable hparse more), hrest]
      rfl

section Encoded

variable {encode : μ → List α}

/-- **The items of an encoded list are found again**, with those of what follows it. -/
theorem drain_encoded {ms : List μ}
    (hencode : ∀ m ∈ ms, ∀ more, P.parse (encode m ++ more) = some (m, more)) (more : List α) :
    P.drain ((ms.map encode).flatten ++ more) = (ms ++ (P.drain more).1, (P.drain more).2) := by
  induction ms with
  | nil => rfl
  | cons m ms ih =>
    have hrest := ih fun x hx => hencode x (mem_cons_of_mem _ hx)
    have hfirst := hencode m mem_cons_self ((ms.map encode).flatten ++ more)
    rw [map_cons, flatten_cons, append_assoc, drain_of_some hfirst, hrest]
    rfl

theorem parse_of_part (hencode : ∀ more, P.parse (encode m ++ more) = some (m, more))
    (hstart : b <+: encode m) (hne : b ≠ encode m) : P.parse b = none := by
  obtain ⟨more, hmore⟩ := hstart
  rw [Option.eq_none_iff_forall_ne_some]
  rintro ⟨m', rest⟩ hparse
  have hwhole := P.stable hparse more
  have hitem := hencode []
  rw [append_nil] at hitem
  rw [hmore, hitem] at hwhole
  obtain ⟨-, hnil⟩ := Prod.mk.inj (Option.some.inj hwhole)
  have hmore' : more = [] := (append_eq_nil_iff.1 hnil.symm).2
  rw [hmore', append_nil] at hmore
  exact hne hmore

end Encoded

end FrontParser

end RustSmb
