import RustSmb.Lib.Machine

/-!
# Schedules

A machine whose programs, answers and environment can be computed is run by a schedule: a
list of moves that say which actor is next.  A schedule that can be played is a run, so
examples of runs are found by evaluation.

## Main results

* `Machine.Run.playAll` — **a schedule that can be played is a run.**
-/

namespace Machine

variable {S : Signature}

/-- Programs and answers to play schedules with. -/
structure Player (M : Machine S) where
  /-- Names for the programs. -/
  Task : Type
  program : M.Actor → M.Local → Task → Option (Prog S M.Local)
  start_of_program : ∀ {i s t p}, program i s t = some p → M.start i s p
  /-- The answer to a call, unless it has to wait. -/
  answer : (o : S.Op) → M.World → Option (S.Res o × M.World)
  exec_of_answer : ∀ {o w r w'}, answer o w = some (r, w') → M.exec w o r w'
  /-- Names for what the environment does. -/
  Change : Type
  change : Change → M.World → M.World
  env_change : ∀ e w, M.env w (change e w)

namespace Player

variable {M : Machine S} (P : Player M)

/-- One move of a schedule. -/
inductive Move where
  /-- An actor starts a program. -/
  | start (i : M.Actor) (t : P.Task)
  /-- The next call of an actor is answered. -/
  | call (i : M.Actor)
  /-- The program of an actor returns. -/
  | finish (i : M.Actor)
  /-- The environment does something. -/
  | env (e : P.Change)

variable {P} [DecidableEq M.Actor]

/-- The configuration after a move, and the trace. -/
def play (x : M.Config × List (M.Actor × M.Stamped)) :
    P.Move → Option (M.Config × List (M.Actor × M.Stamped))
  | .start i t =>
      match x.1.phase i with
      | .idle s => (P.program i s t).map fun p =>
          (⟨x.1.world, Function.update x.1.phase i (.busy p [] p)⟩, x.2)
      | _ => none
  | .call i =>
      match x.1.phase i with
      | .busy p h (.call o k) => (P.answer o x.1.world).map fun a =>
          (⟨a.2, Function.update x.1.phase i (.busy p (⟨x.1.world, o, a.1⟩ :: h) (k a.1))⟩,
            (i, ⟨x.1.world, o, a.1⟩) :: x.2)
      | _ => none
  | .finish i =>
      match x.1.phase i with
      | .busy _ _ (.ret s) => some (⟨x.1.world, Function.update x.1.phase i (.idle s)⟩, x.2)
      | _ => none
  | .env e => some (⟨P.change e x.1.world, x.1.phase⟩, x.2)

def playAll (x : M.Config × List (M.Actor × M.Stamped)) (moves : List P.Move) :
    Option (M.Config × List (M.Actor × M.Stamped)) :=
  moves.foldlM play x

/-- An actor runs a program to its end, which takes `n` calls. -/
def work (i : M.Actor) (t : P.Task) (n : ℕ) : List P.Move :=
  .start i t :: List.replicate n (.call i) ++ [.finish i]

end Player

variable {M : Machine S} {P : Player M} [DecidableEq M.Actor] {Init : M.Config → Prop}
  {x x' : M.Config × List (M.Actor × M.Stamped)}

theorem Run.play (hrun : Run Init x.1 x.2) {move : P.Move}
    (hplay : Player.play x move = some x') : Run Init x'.1 x'.2 := by
  cases move with
  | start i t =>
    unfold Player.play at hplay
    dsimp only at hplay
    split at hplay
    · next s hi =>
      obtain ⟨p, hp, rfl⟩ := Option.map_eq_some_iff.1 hplay
      exact hrun.step (.start i s p hi (P.start_of_program hp))
    · cases hplay
  | call i =>
    unfold Player.play at hplay
    dsimp only at hplay
    split at hplay
    · next p h o k hi =>
      obtain ⟨⟨r, w⟩, hr, rfl⟩ := Option.map_eq_some_iff.1 hplay
      exact hrun.step (.call i p h o k r w hi (P.exec_of_answer hr))
    · cases hplay
  | finish i =>
    unfold Player.play at hplay
    dsimp only at hplay
    split at hplay
    · next p h s hi =>
      cases hplay
      exact hrun.step (.finish i p h s hi)
    · cases hplay
  | env e =>
    cases hplay
    exact hrun.step (.env _ (P.env_change e _))

/-- **A schedule that can be played is a run.** -/
theorem Run.playAll (hrun : Run Init x.1 x.2) {moves : List P.Move}
    (hplay : Player.playAll x moves = some x') : Run Init x'.1 x'.2 := by
  induction moves generalizing x with
  | nil =>
    cases hplay
    exact hrun
  | cons move moves ih =>
    unfold Player.playAll at hplay
    obtain ⟨x₁, hfirst, hrest⟩ := Option.bind_eq_some_iff.1 hplay
    exact ih (hrun.play hfirst) hrest

end Machine
