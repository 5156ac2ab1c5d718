import Mathlib.Algebra.BigOperators.Group.Finset.Basic
import Mathlib.Data.Fintype.BigOperators
import Mathlib.Tactic.Abel
import RustSmb.Lib.Machine

/-!
# Ledgers of a machine

Several actors move a shared value, and each books what it has moved by a later call.  In between,
the value and the books disagree by what the actor still owes, which is to be seen from what it has
done.  If every call keeps the sum of the value, the books and its own debt, the sum over all actors
never changes.

## Main results

* `Machine.Run.total_eq` — **the value, the books and the debts add up throughout a run.**
* `Machine.Run.debts_eq_zero` — when nobody is at work, nothing is owed.
-/

namespace Machine

open Finset

variable {S : Signature} (M : Machine S) (G : Type)

/-- A value of the world, what a call books of it, and what an actor with a given past still
has to book. -/
structure Ledger where
  /-- The value that is moved. -/
  value : M.World → G
  /-- What a call books. -/
  booked : Event S → G
  /-- What is moved and not booked yet. -/
  owed : List (Event S) → G

variable {M G} [AddCommGroup G] (L : M.Ledger G)

/-- What a trace has booked. -/
def Ledger.books (tr : List (M.Actor × M.Stamped)) : G :=
  (tr.map fun x => L.booked x.2.event).sum

@[simp]
theorem Ledger.books_cons (x : M.Actor × M.Stamped) (tr : List (M.Actor × M.Stamped)) :
    L.books (x :: tr) = L.booked x.2.event + L.books tr := by
  simp [books]

variable [DecidableEq M.Actor] [Fintype M.Actor] {Init : M.Config → Prop} {c : M.Config}
  {tr : List (M.Actor × M.Stamped)} {I : List (Event S) → S.Op → Prop}
  {R : M.Local → List (Event S) → Prop}

/-- What the actors still owe. -/
def Ledger.debts (tr : List (M.Actor × M.Stamped)) : G := ∑ i, L.owed (events (past i tr))

theorem Ledger.debts_cons (i : M.Actor) (e : M.Stamped) (tr : List (M.Actor × M.Stamped)) :
    L.debts ((i, e) :: tr) + L.owed (events (past i tr)) =
      L.debts tr + L.owed (e.event :: events (past i tr)) := by
  have hoths : ∀ j ∈ univ.erase i,
      L.owed (events (past j ((i, e) :: tr))) = L.owed (events (past j tr)) := by
    intro j hj
    rw [past_cons_ne (ne_of_mem_erase hj)]
  unfold debts
  rw [← sum_erase_add _ _ (mem_univ i),
    ← sum_erase_add _ _ (mem_univ i), sum_congr rfl hoths,
    past_cons_self, events_cons]
  abel

/-- **The value, the books and the debts add up throughout a run**, if every call keeps the sum
of the value, the books and its actor's debt. -/
theorem Run.total_eq (hrun : Run Init c tr)
    (hinit : ∀ c, Init c → ∀ i, ∃ s, c.phase i = .idle s ∧ R s [])
    (hprog : ∀ i s p h, M.start i s p → R s h → p.wp I R h) {total : G}
    (hstart : ∀ c, Init c → L.value c.world = total) (hnil : L.owed [] = 0)
    (henv : ∀ w w', M.env w w' → L.value w' = L.value w)
    (hcall : ∀ h o r w w', I h o → M.exec w o r w' →
      L.value w' + L.booked ⟨o, r⟩ + L.owed (⟨o, r⟩ :: h) = L.value w + L.owed h) :
    L.value c.world + L.books tr + L.debts tr = total := by
  apply hrun.invariant hinit hprog (fun w tr => L.value w + L.books tr + L.debts tr = total)
  · intro c hc
    simp [hstart c hc, Ledger.books, Ledger.debts, hnil]
  · intro w w' tr hw hsum
    rw [henv w w' hw]
    exact hsum
  · intro i tr o r w w' hI hexec hsum
    have hmove := hcall _ o r w w' hI hexec
    have hdebts := L.debts_cons i ⟨w, o, r⟩ tr
    rw [← hsum, Ledger.books_cons]
    -- add the debt of the actor on both sides and use that its own sum is kept
    apply add_right_cancel
    calc L.value w' + (L.booked ⟨o, r⟩ + L.books tr) + L.debts ((i, ⟨w, o, r⟩) :: tr) +
          L.owed (events (past i tr))
        = L.value w' + L.booked ⟨o, r⟩ + L.books tr +
            (L.debts ((i, ⟨w, o, r⟩) :: tr) + L.owed (events (past i tr))) := by abel
      _ = (L.value w' + L.booked ⟨o, r⟩ + L.owed (⟨o, r⟩ :: events (past i tr))) +
            (L.books tr + L.debts tr) := by rw [hdebts]; abel
      _ = L.value w + L.books tr + L.debts tr + L.owed (events (past i tr)) := by rw [hmove]; abel

/-- When nobody is at work and nothing is owed between programs, nothing is owed. -/
theorem Run.debts_eq_zero (hrun : Run Init c tr)
    (hinit : ∀ c, Init c → ∀ i, ∃ s, c.phase i = .idle s ∧ R s [])
    (hprog : ∀ i s p h, M.start i s p → R s h → p.wp I R h)
    (hR : ∀ s h, R s h → L.owed h = 0) (hidle : ∀ i, ∃ s, c.phase i = .idle s) :
    L.debts tr = 0 := by
  apply sum_eq_zero
  intro i _
  obtain ⟨s, hs⟩ := hidle i
  have hmeets := hrun.meets hinit hprog i
  rw [hs] at hmeets
  exact hR s _ hmeets

end Machine
