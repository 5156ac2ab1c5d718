import Mathlib.Logic.Function.Basic
import Mathlib.Logic.Relation
import RustSmb.Lib.Prog

/-!
# Programs that share a world

Actors run programs over one signature of calls.  Each call is answered from a world that all actors
share, so their programs interleave at the calls.  The environment may change the world as well.

An actor keeps a state between its programs and, while it runs one, the history of the program: its
calls with their replies and the worlds they met.

## Main results

* `Machine.Reachable.busy` — **a running program is where its own history leads, and the history
  consists of answers of the worlds it met.**
* `Machine.Running.call_wp` — what `Prog.wp` shows of every program holds at every call.
* `Machine.Run.meets` — **the same over everything that the actor has done.**
* `Machine.Run.invariant`, `Machine.Reachable.invariant` — the induction rules for
  invariants of the world, with and without the trace.
* `Machine.Run.since` — the induction rule for relations between the past and the present.
* `Machine.Run.checked` — **what an actor has checked still holds if nobody has done harm
  since.**
* `Machine.Run.follow` — what `Machine.follow` computes is a run.
-/

/-- A system of actors that share a world. -/
structure Machine (S : Signature) where
  /-- The shared world. -/
  World : Type
  /-- The names of the actors. -/
  Actor : Type
  /-- What an actor keeps between its programs. -/
  Local : Type
  /-- The programs that an actor may start; they return what it keeps next. -/
  start : Actor → Local → Prog S Local → Prop
  /-- The answers to a call, and the world after it. -/
  exec : World → (o : S.Op) → S.Res o → World → Prop
  /-- What the environment may do. -/
  env : World → World → Prop

namespace Machine

open Function List

variable {S : Signature} (M : Machine S)

/-- An event together with the world that it met. -/
structure Stamped where
  /-- The world before the call. -/
  world : M.World
  /-- The call and its reply. -/
  event : Event S

/-- An actor is between two programs, or runs one. -/
inductive Phase where
  /-- Between two programs. -/
  | idle (s : M.Local)
  /-- The program `p` was started, has the history `h` and is left with `q`. -/
  | busy (p : Prog S M.Local) (h : List M.Stamped) (q : Prog S M.Local)

/-- A state of the machine. -/
structure Config where
  /-- The shared world. -/
  world : M.World
  /-- The actors. -/
  phase : M.Actor → M.Phase

variable {M}

def events (h : List M.Stamped) : List (Event S) := h.map Stamped.event

@[simp]
theorem events_nil : events ([] : List M.Stamped) = [] := rfl

@[simp]
theorem events_cons (e : M.Stamped) (h : List M.Stamped) :
    events (e :: h) = e.event :: events h := rfl

variable [DecidableEq M.Actor]

/-- One step of the system.  A call leaves a record. -/
inductive Step (c : M.Config) : Option (M.Actor × M.Stamped) → M.Config → Prop where
  /-- An actor starts a program. -/
  | start (i : M.Actor) (s : M.Local) (p : Prog S M.Local) (hi : c.phase i = .idle s)
      (hp : M.start i s p) : Step c none ⟨c.world, update c.phase i (.busy p [] p)⟩
  /-- A call is answered. -/
  | call (i : M.Actor) (p : Prog S M.Local) (h : List M.Stamped) (o : S.Op)
      (k : S.Res o → Prog S M.Local) (r : S.Res o) (w : M.World)
      (hi : c.phase i = .busy p h (.call o k)) (hr : M.exec c.world o r w) :
      Step c (some (i, ⟨c.world, o, r⟩))
        ⟨w, update c.phase i (.busy p (⟨c.world, o, r⟩ :: h) (k r))⟩
  /-- A program returns. -/
  | finish (i : M.Actor) (p : Prog S M.Local) (h : List M.Stamped) (s : M.Local)
      (hi : c.phase i = .busy p h (.ret s)) :
      Step c none ⟨c.world, update c.phase i (.idle s)⟩
  /-- The environment does something. -/
  | env (w : M.World) (hw : M.env c.world w) : Step c none ⟨w, c.phase⟩

/-- Runs from a configuration in `Init`, with the calls of all actors, the newest first. -/
inductive Run (Init : M.Config → Prop) : M.Config → List (M.Actor × M.Stamped) → Prop where
  /-- A run starts. -/
  | init {c : M.Config} (hc : Init c) : Run Init c []
  /-- A run goes on. -/
  | step {c c' : M.Config} {tr : List (M.Actor × M.Stamped)} {l : Option (M.Actor × M.Stamped)}
      (hc : Run Init c tr) (hs : Step c l c') : Run Init c' (l.toList ++ tr)

/-- Some run leads there. -/
def Reachable (Init : M.Config → Prop) (c : M.Config) : Prop := ∃ tr, Run Init c tr

theorem Run.reachable {Init : M.Config → Prop} {c : M.Config} {tr : List (M.Actor × M.Stamped)}
    (hc : Run Init c tr) : Reachable Init c := ⟨tr, hc⟩

/-- The events of one actor in a trace, the newest first. -/
def past (i : M.Actor) (tr : List (M.Actor × M.Stamped)) : List M.Stamped :=
  tr.filterMap fun x => if x.1 = i then some x.2 else none

@[simp]
theorem past_nil (i : M.Actor) : past i ([] : List (M.Actor × M.Stamped)) = [] := rfl

@[simp]
theorem past_cons_self (i : M.Actor) (e : M.Stamped) (tr : List (M.Actor × M.Stamped)) :
    past i ((i, e) :: tr) = e :: past i tr := by
  simp [past]

theorem mem_of_mem_past {i : M.Actor} {e : M.Stamped} {tr : List (M.Actor × M.Stamped)}
    (h : e ∈ past i tr) : (i, e) ∈ tr := by
  obtain ⟨⟨j, e'⟩, hmem, heq⟩ := mem_filterMap.1 h
  split at heq
  · next hj =>
    cases heq
    rw [← hj]
    exact hmem
  · cases heq

theorem past_cons_ne {i j : M.Actor} (hij : i ≠ j) (e : M.Stamped)
    (tr : List (M.Actor × M.Stamped)) : past i ((j, e) :: tr) = past i tr := by
  simp [past, Ne.symm hij]

/-- A running program was started by an actor, its history leads to what is left of it, and each
event was an answer of the world. -/
structure Running (i : M.Actor) (p : Prog S M.Local) (h : List M.Stamped)
    (q : Prog S M.Local) : Prop where
  /-- The program was started. -/
  started : ∃ s, M.start i s p
  /-- The history leads to what is left. -/
  reaches : p.Reaches [] (events h) q
  /-- The events were answers. -/
  answered : ∀ e ∈ h, ∃ w, M.exec e.world e.event.1 e.event.2 w

omit [DecidableEq M.Actor] in
theorem Running.past_wp {I : List (Event S) → S.Op → Prop} {Q : M.Local → List (Event S) → Prop}
    (hwp : ∀ i s p, M.start i s p → p.wp I Q []) {i : M.Actor} {p q : Prog S M.Local}
    {h : List M.Stamped} (hrun : Running i p h q) {e : Event S} {h' : List (Event S)}
    (hs : (e :: h') <:+ events h) : I h' e.1 := by
  obtain ⟨s, hstart⟩ := hrun.started
  exact Prog.wp_past (hwp i s p hstart) hrun.reaches hs

section Rules

variable {Init : M.Config → Prop} {c : M.Config} {tr : List (M.Actor × M.Stamped)}

/-- **What holds of the world and the trace of a run**: it holds at the start, and the
environment and every call keep it. -/
theorem Run.traced {I : M.World → List (M.Actor × M.Stamped) → Prop} (hrun : Run Init c tr)
    (hinit : ∀ c, Init c → I c.world [])
    (henv : ∀ {c tr w}, Run Init c tr → M.env c.world w → I c.world tr → I w tr)
    (hcall : ∀ {c tr i p h o k r w}, Run Init c tr → c.phase i = .busy p h (.call o k) →
      M.exec c.world o r w → I c.world tr → I w ((i, ⟨c.world, o, r⟩) :: tr)) :
    I c.world tr := by
  induction hrun with
  | init hc => exact hinit _ hc
  | step hc hs ih =>
    cases hs with
    | start j s p hj hp => exact ih
    | call j p h o k r w hj hr => exact hcall hc hj hr ih
    | finish j p h s hj => exact ih
    | env w hw => exact henv hc hw ih

/-- **What holds of every running program**: it holds when the program starts, and its calls and
those of others keep it. -/
theorem Run.running {P : M.Actor → Prog S M.Local → List M.Stamped → Prog S M.Local →
      List (M.Actor × M.Stamped) → Prop} (hrun : Run Init c tr)
    (hinit : ∀ c, Init c → ∀ i, ∃ s, c.phase i = .idle s)
    (hstart : ∀ {i s p tr}, M.start i s p → P i p [] p tr)
    (hcall : ∀ {i p h o k r w w' tr}, M.exec w o r w' → P i p h (.call o k) tr →
      P i p (⟨w, o, r⟩ :: h) (k r) ((i, ⟨w, o, r⟩) :: tr))
    (hoth : ∀ {i p h q j e tr}, i ≠ j → P i p h q tr → P i p h q ((j, e) :: tr))
    {i : M.Actor} {p q : Prog S M.Local} {h : List M.Stamped} (hi : c.phase i = .busy p h q) :
    P i p h q tr := by
  induction hrun generalizing i p q h with
  | init hc =>
    obtain ⟨s, hs⟩ := hinit _ hc i
    rw [hs] at hi
    cases hi
  | step _ hs ih =>
    -- only the actor that moves has a new phase
    cases hs with
    | start j s p' hj hp =>
      by_cases hij : i = j
      · subst hij
        simp only [update_self, Phase.busy.injEq] at hi
        obtain ⟨rfl, rfl, rfl⟩ := hi
        exact hstart hp
      · simp only [update_of_ne hij] at hi
        exact ih hi
    | call j p' h' o k r w hj hr =>
      by_cases hij : i = j
      · subst hij
        simp only [update_self, Phase.busy.injEq] at hi
        obtain ⟨rfl, rfl, rfl⟩ := hi
        exact hcall hr (ih hj)
      · simp only [update_of_ne hij] at hi
        exact hoth hij (ih hi)
    | finish j p' h' s hj =>
      by_cases hij : i = j
      · subst hij
        simp only [update_self, reduceCtorEq] at hi
      · simp only [update_of_ne hij] at hi
        exact ih hi
    | env w hw => exact ih hi

/-- **A running program is where its history leads, and each event was an answer of the world it
met.** -/
theorem Reachable.busy (hc : Reachable Init c)
    (hinit : ∀ c, Init c → ∀ i, ∃ s, c.phase i = .idle s) {i : M.Actor} {p q : Prog S M.Local}
    {h : List M.Stamped} (hi : c.phase i = .busy p h q) : Running i p h q := by
  obtain ⟨tr, hrun⟩ := hc
  refine hrun.running (P := fun i p h q _ => Running i p h q) hinit ?_ ?_ (fun _ hp => hp) hi
  · intro i s p tr hp
    exact ⟨⟨s, hp⟩, .refl, forall_mem_nil _⟩
  · intro i p h o k r w w' tr hr hp
    exact ⟨hp.started, hp.reaches.step r, forall_mem_cons.2 ⟨⟨w', hr⟩, hp.answered⟩⟩

section

variable (hrun : Run Init c tr)

include hrun

/-- What a running program remembers is the newest part of the actor's past. -/
theorem Run.past_eq (hinit : ∀ c, Init c → ∀ i, ∃ s, c.phase i = .idle s) {i : M.Actor}
    {p q : Prog S M.Local} {h : List M.Stamped} (hi : c.phase i = .busy p h q) :
    ∃ older, past i tr = h ++ older := by
  refine hrun.running (P := fun i _ h _ tr => ∃ older, past i tr = h ++ older) hinit ?_ ?_ ?_ hi
  · intro i s p tr hp
    exact ⟨_, rfl⟩
  · rintro i p h o k r w w' tr hr ⟨older, hold⟩
    exact ⟨older, by rw [past_cons_self, hold, cons_append]⟩
  · intro i p h q j e tr hij hold
    rwa [past_cons_ne hij]

theorem Run.mem_of_busy (hinit : ∀ c, Init c → ∀ i, ∃ s, c.phase i = .idle s) {i : M.Actor}
    {p q : Prog S M.Local} {h : List M.Stamped} (hi : c.phase i = .busy p h q) {e : M.Stamped}
    (he : e ∈ h) : (i, e) ∈ tr := by
  obtain ⟨older, hpast⟩ := hrun.past_eq hinit hi
  refine mem_of_mem_past ?_
  rw [hpast]
  exact mem_append_left older he

/-- A relation that every step extends holds between the world of every past call and the world
now. -/
theorem Run.since (Rel : M.World → M.World → Prop)
    (henv : ∀ w₀ w w', M.env w w' → Rel w₀ w → Rel w₀ w')
    (hcall : ∀ w₀ o r w w', M.exec w o r w' → Rel w₀ w → Rel w₀ w') (hrefl : ∀ w, Rel w w) :
    ∀ x ∈ tr, Rel x.2.world c.world := by
  refine hrun.traced (I := fun w tr => ∀ x ∈ tr, Rel x.2.world w)
    (fun _ _ => forall_mem_nil _) (fun _ hw ih x hx => henv _ _ _ hw (ih x hx)) ?_
  intro c tr i p h o k r w hrun hi hr ih
  exact forall_mem_cons.2 ⟨hcall _ o r _ w hr (hrefl _), fun x hx => hcall _ o r _ w hr (ih x hx)⟩

theorem Run.exec_of_mem : ∀ x ∈ tr, ∃ w, M.exec x.2.world x.2.event.1 x.2.event.2 w :=
  hrun.traced (I := fun _ tr => ∀ x ∈ tr, ∃ w, M.exec x.2.world x.2.event.1 x.2.event.2 w)
    (fun _ _ => forall_mem_nil _) (fun _ _ ih => ih)
    fun _ _ hr ih => forall_mem_cons.2 ⟨⟨_, hr⟩, ih⟩

theorem Run.exists_before {i : M.Actor} {x : M.Stamped} {tr' : List (M.Actor × M.Stamped)}
    (hs : (i, x) :: tr' <:+ tr) :
    ∃ c' p h k, Run Init c' tr' ∧ c'.world = x.world ∧
      c'.phase i = .busy p h (.call x.event.1 k) := by
  refine hrun.traced (I := fun _ tr => (i, x) :: tr' <:+ tr → ∃ c' p h k, Run Init c' tr' ∧
    c'.world = x.world ∧ c'.phase i = .busy p h (.call x.event.1 k))
    (fun _ _ hs => by cases suffix_nil.1 hs) (fun _ _ ih => ih) ?_ hs
  intro c tr j p h o k r w hc hj hr ih hs
  rcases suffix_cons_iff.1 hs with heq | hs
  · cases heq
    exact ⟨c, p, h, k, hc, rfl, hj⟩
  · exact ih hs

end

/-- An invariant of the world holds at every moment of a run if it holds at the start and is kept
by the environment and by every call of a running program. -/
theorem Reachable.invariant (hc : Reachable Init c)
    (hinit : ∀ c, Init c → ∀ i, ∃ s, c.phase i = .idle s) (Inv : M.World → Prop)
    (hI : ∀ c, Init c → Inv c.world) (henv : ∀ w w', M.env w w' → Inv w → Inv w')
    (hcall : ∀ (i : M.Actor) (p : Prog S M.Local) (h : List M.Stamped) (o : S.Op)
      (k : S.Res o → Prog S M.Local) (r : S.Res o) (w w' : M.World),
      Running i p h (.call o k) → M.exec w o r w' → Inv w → Inv w') :
    Inv c.world ∧ ∀ (i : M.Actor) (p : Prog S M.Local) (h : List M.Stamped)
      (q : Prog S M.Local), c.phase i = .busy p h q → ∀ e ∈ h, Inv e.world := by
  have hworld : ∀ {c tr}, Run Init c tr → Inv c.world := fun hrun =>
    hrun.traced (I := fun w _ => Inv w) hI (fun _ hw => henv _ _ hw) fun hrun hi hr =>
      hcall _ _ _ _ _ _ _ _ (hrun.reachable.busy hinit hi) hr
  obtain ⟨tr, hrun⟩ := hc
  refine ⟨hworld hrun, fun i p h q hi e he => ?_⟩
  -- the world of an event is where the run up to it has led
  obtain ⟨later, tr', htr⟩ := append_of_mem (hrun.mem_of_busy hinit hi he)
  obtain ⟨c', -, -, -, hrun', heq, -⟩ := hrun.exists_before ⟨later, htr.symm⟩
  rw [← heq]
  exact hworld hrun'

end Rules

/-! ### Traces -/

/-- What is known of an actor: between programs, a property of what it keeps and its past; in a
program, the precondition of what is left. -/
def Phase.Meets (I : List (Event S) → S.Op → Prop) (R : M.Local → List (Event S) → Prop)
    (h : List (Event S)) : M.Phase → Prop
  | .idle s => R s h
  | .busy _ _ q => q.wp I R h

namespace Run

variable {Init : M.Config → Prop} {c : M.Config} {tr : List (M.Actor × M.Stamped)}
  {I : List (Event S) → S.Op → Prop} {R : M.Local → List (Event S) → Prop}

section Each

variable {J : M.Actor → List (Event S) → S.Op → Prop}
  {Q : M.Actor → M.Local → List (Event S) → Prop}

/-- What `Prog.wp` shows of every program of an actor holds along every run: `Q i` relates what
actor `i` keeps between programs to its past, and every program that starts with `Q i` returns
with it and keeps `J i` at its calls. -/
theorem meets_each (hrun : Run Init c tr)
    (hinit : ∀ c, Init c → ∀ i, ∃ s, c.phase i = .idle s ∧ Q i s [])
    (hprog : ∀ i s p h, M.start i s p → Q i s h → p.wp (J i) (Q i) h) (i : M.Actor) :
    (c.phase i).Meets (J i) (Q i) (events (past i tr)) := by
  induction hrun generalizing i with
  | init hc =>
    obtain ⟨s, hs, hQ⟩ := hinit _ hc i
    rw [hs]
    exact hQ
  | step hc hs ih =>
    cases hs with
    | start j s p hj hp =>
      -- only the actor that moves has more to show
      by_cases hij : i = j
      · subst hij
        have hQ := ih i
        rw [hj] at hQ
        simp only [update_self]
        exact hprog i s p _ hp hQ
      · simp only [update_of_ne hij]
        exact ih i
    | call j p h o k r w hj hr =>
      by_cases hij : i = j
      · subst hij
        have hwp := ih i
        rw [hj] at hwp
        simp only [update_self, Option.toList_some, singleton_append, past_cons_self]
        exact hwp.2 r
      · simp only [update_of_ne hij, Option.toList_some, singleton_append, past_cons_ne hij]
        exact ih i
    | finish j p h s hj =>
      by_cases hij : i = j
      · subst hij
        have hwp := ih i
        rw [hj] at hwp
        simp only [update_self]
        exact hwp
      · simp only [update_of_ne hij]
        exact ih i
    | env w hw => exact ih i

/-- An invariant of the world and the trace holds throughout a run if it holds at the start and
is kept by the environment and by every call that meets `J` of its actor. -/
theorem invariant_each (hrun : Run Init c tr)
    (hinit : ∀ c, Init c → ∀ i, ∃ s, c.phase i = .idle s ∧ Q i s [])
    (hprog : ∀ i s p h, M.start i s p → Q i s h → p.wp (J i) (Q i) h)
    (Inv : M.World → List (M.Actor × M.Stamped) → Prop)
    (hI : ∀ c, Init c → Inv c.world []) (henv : ∀ w w' tr, M.env w w' → Inv w tr → Inv w' tr)
    (hcall : ∀ c i tr o r w', Run Init c tr → J i (events (past i tr)) o →
      M.exec c.world o r w' → Inv c.world tr → Inv w' ((i, ⟨c.world, o, r⟩) :: tr)) :
    Inv c.world tr := by
  refine hrun.traced hI (fun _ hw => henv _ _ _ hw) fun {c tr i p h o k r w} hrun hi hr => ?_
  have hwp := hrun.meets_each hinit hprog i
  rw [hi] at hwp
  exact hcall c i tr o r w hrun hwp.1 hr

end Each

/-- **What `Prog.wp` shows of every program holds along every run**: `R` relates what an actor
keeps between programs to its past, and every program that starts with `R` returns with it and
keeps `I` at its calls. -/
theorem meets (hrun : Run Init c tr)
    (hinit : ∀ c, Init c → ∀ i, ∃ s, c.phase i = .idle s ∧ R s [])
    (hprog : ∀ i s p h, M.start i s p → R s h → p.wp I R h) (i : M.Actor) :
    (c.phase i).Meets I R (events (past i tr)) :=
  hrun.meets_each hinit hprog i

/-- An invariant holds throughout a run if it holds at the start and is kept by the environment
and by every call that meets `I`. -/
theorem invariant (hrun : Run Init c tr)
    (hinit : ∀ c, Init c → ∀ i, ∃ s, c.phase i = .idle s ∧ R s [])
    (hprog : ∀ i s p h, M.start i s p → R s h → p.wp I R h)
    (Inv : M.World → List (M.Actor × M.Stamped) → Prop)
    (hI : ∀ c, Init c → Inv c.world []) (henv : ∀ w w' tr, M.env w w' → Inv w tr → Inv w' tr)
    (hcall : ∀ i tr o r w w', I (events (past i tr)) o → M.exec w o r w' → Inv w tr →
      Inv w' ((i, ⟨w, o, r⟩) :: tr)) : Inv c.world tr :=
  hrun.invariant_each hinit hprog Inv hI henv fun c i tr o r w' _ => hcall i tr o r c.world w'

end Run

/-! ### Runs under a condition -/

/-- Every call of a trace meets `G`, given the calls before it, the actor and the world. -/
def EachCall (G : List (M.Actor × M.Stamped) → M.Actor → M.Stamped → Prop) :
    List (M.Actor × M.Stamped) → Prop
  | [] => True
  | (i, e) :: tr => G tr i e ∧ EachCall G tr

section EachCall

variable {G : List (M.Actor × M.Stamped) → M.Actor → M.Stamped → Prop}
  {tr : List (M.Actor × M.Stamped)} {i : M.Actor}

instance EachCall.decidable [∀ tr i e, Decidable (G tr i e)] :
    (tr : List (M.Actor × M.Stamped)) → Decidable (EachCall G tr)
  | [] => inferInstanceAs (Decidable True)
  | (i, e) :: tr =>
      have : Decidable (EachCall G tr) := EachCall.decidable tr
      inferInstanceAs (Decidable (G tr i e ∧ EachCall G tr))

omit [DecidableEq M.Actor] in
theorem EachCall.suffix (h : EachCall G tr) {tr' : List (M.Actor × M.Stamped)}
    (hs : tr' <:+ tr) : EachCall G tr' := by
  induction tr with
  | nil =>
    rw [suffix_nil.1 hs]
    trivial
  | cons x tr ih =>
    rcases suffix_cons_iff.1 hs with rfl | hs
    · exact h
    · exact ih h.2 hs

omit [DecidableEq M.Actor] in
theorem EachCall.of_suffix (h : EachCall G tr) {e : M.Stamped}
    {tr' : List (M.Actor × M.Stamped)} (hs : (i, e) :: tr' <:+ tr) : G tr' i e :=
  (h.suffix hs).1

omit [DecidableEq M.Actor] in
theorem eachCall_of_suffix (h : ∀ i e tr', (i, e) :: tr' <:+ tr → G tr' i e) : EachCall G tr := by
  induction tr with
  | nil => trivial
  | cons x tr ih =>
    refine ⟨h x.1 x.2 tr (suffix_refl _), ih fun i e tr' hs => ?_⟩
    exact h i e tr' (hs.trans (suffix_cons x tr))

omit [DecidableEq M.Actor] in
theorem EachCall.forall_mem (h : EachCall G tr) {Q : M.Stamped → Prop}
    (hG : ∀ tr i e, G tr i e → Q e) : ∀ x ∈ tr, Q x.2 := by
  induction tr with
  | nil => exact forall_mem_nil _
  | cons x tr ih => exact forall_mem_cons.2 ⟨hG _ _ _ h.1, ih h.2⟩

theorem Run.eachCall {Init : M.Config → Prop} {c : M.Config} (hrun : Run Init c tr)
    {I : List (Event S) → S.Op → Prop} {R : M.Local → List (Event S) → Prop}
    (hinit : ∀ c, Init c → ∀ i, ∃ s, c.phase i = .idle s ∧ R s [])
    (hprog : ∀ i s p h, M.start i s p → R s h → p.wp I R h) :
    EachCall (fun tr i e => I (events (past i tr)) e.event.1) tr := by
  apply hrun.invariant hinit hprog fun _ tr =>
    EachCall (fun tr i e => I (events (past i tr)) e.event.1) tr
  · intro c hc
    trivial
  · intro w w' tr hw htr
    exact htr
  · intro i tr o r w w' hI hexec htr
    exact ⟨hI, htr⟩


theorem exists_of_past {before after : List M.Stamped} {e : M.Stamped}
    (h : past i tr = before ++ e :: after) :
    ∃ tr', (i, e) :: tr' <:+ tr ∧ past i tr' = after := by
  induction tr generalizing before with
  | nil => exact absurd h (by simp)
  | cons x tr ih =>
    obtain ⟨j, e'⟩ := x
    by_cases hij : i = j
    · subst hij
      rw [past_cons_self] at h
      cases before with
      | nil =>
        obtain ⟨rfl, rfl⟩ := List.cons.inj h
        exact ⟨tr, suffix_refl _, rfl⟩
      | cons b before =>
        obtain ⟨tr', hs, hp⟩ := ih (List.cons.inj h).2
        exact ⟨tr', hs.trans (suffix_cons _ _), hp⟩
    · rw [past_cons_ne hij] at h
      obtain ⟨tr', hs, hp⟩ := ih h
      exact ⟨tr', hs.trans (suffix_cons _ _), hp⟩

end EachCall

/-! ### What an actor has checked -/

section Check

variable {i : M.Actor} {isCheck : M.Stamped → Bool} {harm : M.Stamped → Prop}
  {tr : List (M.Actor × M.Stamped)}

/-- Nobody has done harm since the last check of an actor. -/
def Undisturbed (i : M.Actor) (isCheck : M.Stamped → Bool) (harm : M.Stamped → Prop) :
    List (M.Actor × M.Stamped) → Prop
  | [] => True
  | (j, e) :: tr => (j = i ∧ isCheck e = true) ∨ (¬ harm e ∧ Undisturbed i isCheck harm tr)

instance Undisturbed.decidable [DecidablePred harm] :
    (tr : List (M.Actor × M.Stamped)) → Decidable (Undisturbed i isCheck harm tr)
  | [] => inferInstanceAs (Decidable True)
  | (j, e) :: tr =>
      have : Decidable (Undisturbed i isCheck harm tr) := Undisturbed.decidable tr
      inferInstanceAs (Decidable ((j = i ∧ isCheck e = true) ∨
        (¬ harm e ∧ Undisturbed i isCheck harm tr)))

/-- The events since one that an actor has made after its last check, or since the check. -/
theorem Undisturbed.exists_recent (h : Undisturbed i isCheck harm tr)
    {before after : List M.Stamped}
    {e : M.Stamped} (hpast : past i tr = before ++ e :: after)
    (hprev : ∀ x ∈ before, isCheck x = false) :
    ∃ recent older, tr = recent ++ (i, e) :: older ∧ ∀ x ∈ recent, ¬ harm x.2 := by
  induction tr generalizing before with
  | nil => exact absurd hpast (by simp)
  | cons y tr ih =>
    obtain ⟨j, e'⟩ := y
    by_cases hij : i = j
    · subst hij
      rw [past_cons_self] at hpast
      cases before with
      | nil =>
        obtain ⟨rfl, -⟩ := List.cons.inj hpast
        exact ⟨[], tr, rfl, nofun⟩
      | cons b before =>
        obtain ⟨rfl, hrest⟩ := List.cons.inj hpast
        obtain ⟨hb, hprev⟩ := forall_mem_cons.1 hprev
        rcases h with ⟨-, hchk⟩ | ⟨hharm, h⟩
        · rw [hb] at hchk
          cases hchk
        · obtain ⟨recent, older, rfl, hrecent⟩ := ih h hrest hprev
          exact ⟨(i, _) :: recent, older, rfl, forall_mem_cons.2 ⟨hharm, hrecent⟩⟩
    · rw [past_cons_ne hij] at hpast
      rcases h with ⟨rfl, -⟩ | ⟨hharm, h⟩
      · exact absurd rfl hij
      · obtain ⟨recent, older, rfl, hrecent⟩ := ih h hpast hprev
        exact ⟨(j, e') :: recent, older, rfl, forall_mem_cons.2 ⟨hharm, hrecent⟩⟩

/-- What an event has brought about still holds if nobody has done harm since. -/
theorem Run.kept {Init : M.Config → Prop} {c : M.Config} (hrun : Run Init c tr)
    {P : M.World → Prop} (henv : ∀ w w', M.env w w' → P w → P w')
    (hcall : ∀ o r w w', M.exec w o r w' → ¬ harm ⟨w, o, r⟩ → P w → P w')
    {recent older : List (M.Actor × M.Stamped)} {e : M.Stamped}
    (htr : tr = recent ++ (i, e) :: older) (hrecent : ∀ x ∈ recent, ¬ harm x.2)
    (hP : ∀ w', M.exec e.world e.event.1 e.event.2 w' → P w') : P c.world := by
  induction hrun generalizing recent with
  | init hc => exact absurd htr (by simp)
  | step hc hs ih =>
    cases hs with
    | start _ _ _ _ _ | finish _ _ _ _ _ => exact ih htr hrecent
    | env w hw => exact henv _ _ hw (ih htr hrecent)
    | call j p h o k r w hj hr =>
      cases recent with
      | nil =>
        obtain ⟨heq, -⟩ := List.cons.inj htr
        cases heq
        exact hP w hr
      | cons x recent =>
        obtain ⟨rfl, hrest⟩ := List.cons.inj htr
        obtain ⟨hx, hrecent⟩ := forall_mem_cons.1 hrecent
        exact hcall o r _ w hr hx (ih hrest hrecent)

/-- **What an actor has checked, or brought about since, still holds if nobody has done harm.** -/
theorem Run.checked {Init : M.Config → Prop} {c : M.Config} (hrun : Run Init c tr)
    {P : M.World → Prop} (henv : ∀ w w', M.env w w' → P w → P w')
    (hcall : ∀ o r w w', M.exec w o r w' → ¬ harm ⟨w, o, r⟩ → P w → P w')
    (h : Undisturbed i isCheck harm tr) {before after : List M.Stamped} {e : M.Stamped}
    (hpast : past i tr = before ++ e :: after) (hprev : ∀ x ∈ before, isCheck x = false)
    (hP : ∀ w', M.exec e.world e.event.1 e.event.2 w' → P w') : P c.world := by
  obtain ⟨recent, older, htr, hrecent⟩ := h.exists_recent hpast hprev
  exact hrun.kept henv hcall htr hrecent hP

end Check

/-! ### What goes on -/

section GoesOn

variable {Init : M.Config → Prop}
  {begins ends : M.Config → Option (M.Actor × M.Stamped) → M.Config → Prop}

/-- Something began in a run and has not ended since. -/
inductive GoesOn (Init : M.Config → Prop)
    (begins ends : M.Config → Option (M.Actor × M.Stamped) → M.Config → Prop) :
    M.Config → List (M.Actor × M.Stamped) → Prop where
  /-- It begins. -/
  | begin {c c' : M.Config} {tr : List (M.Actor × M.Stamped)}
      {l : Option (M.Actor × M.Stamped)} (hc : Run Init c tr) (hs : Step c l c')
      (hb : begins c l c') : GoesOn Init begins ends c' (l.toList ++ tr)
  /-- It goes on. -/
  | keep {c c' : M.Config} {tr : List (M.Actor × M.Stamped)}
      {l : Option (M.Actor × M.Stamped)} (hc : GoesOn Init begins ends c tr) (hs : Step c l c')
      (he : ¬ ends c l c') : GoesOn Init begins ends c' (l.toList ++ tr)

theorem GoesOn.run {c : M.Config} {tr : List (M.Actor × M.Stamped)}
    (h : GoesOn Init begins ends c tr) : Run Init c tr := by
  induction h with
  | begin hc hs _ => exact hc.step hs
  | keep _ hs _ ih => exact ih.step hs

end GoesOn

/-! ### What has not ended -/

section Since

variable {begins ends : List (M.Actor × M.Stamped) → M.Actor → M.Stamped → Prop}
  {tr : List (M.Actor × M.Stamped)}

/-- A call of a trace has begun something that no call since has ended. -/
def Since (begins ends : List (M.Actor × M.Stamped) → M.Actor → M.Stamped → Prop) :
    List (M.Actor × M.Stamped) → Prop
  | [] => False
  | (i, e) :: tr => begins tr i e ∨ (Since begins ends tr ∧ ¬ ends tr i e)

instance Since.decidable [∀ tr i e, Decidable (begins tr i e)] [∀ tr i e, Decidable (ends tr i e)] :
    (tr : List (M.Actor × M.Stamped)) → Decidable (Since begins ends tr)
  | [] => inferInstanceAs (Decidable False)
  | (i, e) :: tr =>
      have : Decidable (Since begins ends tr) := Since.decidable tr
      inferInstanceAs (Decidable (begins tr i e ∨ (Since begins ends tr ∧ ¬ ends tr i e)))

end Since

/-! ### One actor at work alone -/

section Follow

variable {α : Type} (answer : (o : S.Op) → M.World → S.Res o × M.World)
  (ok : M.World → S.Op → Bool)

/-- Follow a program for at most `n` calls that meet `ok`: what is left, the world and the
history. -/
def follow : ℕ → Prog S α → M.World → List M.Stamped →
    Option (Prog S α × M.World × List M.Stamped)
  | 0, q, w, h => some (q, w, h)
  | _ + 1, .ret a, w, h => some (.ret a, w, h)
  | n + 1, .call o k, w, h =>
      if ok w o then
        follow n (k (answer o w).1) (answer o w).2 (⟨w, o, (answer o w).1⟩ :: h)
      else none

variable {answer ok} {Init : M.Config → Prop} {c : M.Config} {i : M.Actor}
  {tr : List (M.Actor × M.Stamped)}

section

variable (hexec : ∀ w o, ok w o = true → M.exec w o (answer o w).1 (answer o w).2)

include hexec

/-- Following a program of one actor is a run, and what it adds to the history it adds to the
trace. -/
theorem Run.follow (hc : Run Init c tr) {n : ℕ} {p q q' : Prog S M.Local} {h h' : List M.Stamped}
    {w' : M.World} (hi : c.phase i = .busy p h q)
    (hf : Machine.follow answer ok n q c.world h = some (q', w', h')) :
    ∃ h₁, h' = h₁ ++ h ∧
      Run Init ⟨w', update c.phase i (.busy p h' q')⟩ (h₁.map (Prod.mk i) ++ tr) := by
  induction n generalizing c q h tr with
  | zero =>
    obtain ⟨rfl, rfl, rfl⟩ := hf
    exact ⟨[], rfl, by rwa [← hi, update_eq_self]⟩
  | succ n ih =>
    cases q with
    | ret a =>
      obtain ⟨rfl, rfl, rfl⟩ := hf
      exact ⟨[], rfl, by rwa [← hi, update_eq_self]⟩
    | call o k =>
      rw [Machine.follow] at hf
      split at hf
      · next hok =>
        have hstep := hc.step (.call i p h o k _ _ hi (hexec c.world o hok))
        obtain ⟨h₁, rfl, hrun⟩ := ih hstep (update_self ..) hf
        exact ⟨h₁ ++ [⟨c.world, o, (answer o c.world).1⟩], by simp, by simpa using hrun⟩
      · cases hf

theorem Run.complete (hc : Run Init c tr) {n : ℕ} {s s' : M.Local} {p : Prog S M.Local}
    {w' : M.World} {h' : List M.Stamped} (hi : c.phase i = .idle s) (hp : M.start i s p)
    (hf : Machine.follow answer ok n p c.world [] = some (.ret s', w', h')) :
    Run Init ⟨w', update c.phase i (.idle s')⟩ (h'.map (Prod.mk i) ++ tr) := by
  have hstart := hc.step (.start i s p hi hp)
  obtain ⟨h₁, rfl, hrun⟩ := hstart.follow hexec (update_self ..) hf
  have hdone := hrun.step (.finish i p _ s' (update_self ..))
  simpa using hdone

end

end Follow

end Machine

/-! ### Examples by evaluation -/

theorem exists_of_any {α : Type} {o : Option α} {P : α → Prop} [DecidablePred P]
    (h : o.any (fun a => decide (P a)) = true) : ∃ a, o = some a ∧ P a :=
  let ⟨a, ha, hP⟩ := (Option.any_eq_true _ _).1 h
  ⟨a, ha, of_decide_eq_true hP⟩
