import RustSmb.Lib.Schedule

/-!
# Concurrent operations

Any number of callers use the operations of one object.  An operation is a program over the calls
that the object makes itself; these are atomic, so operations interleave at them.  A mark says when
an operation begins, another when it ends and with which outcome.

## Main results

* `Operations.marked_wp` — what holds of an operation's program holds between its marks.
* `Operations.Run.induction` — **the induction rule for runs.**
-/

namespace Operations

open List Proc

variable {S : Signature} {Op ε R : Type}

/-- An operation leaves a mark when it begins and one when it ends. -/
inductive Mark (Op R : Type) where
  | begin (op : Op)
  | finish (op : Op) (result : R)

abbrev Sig (S : Signature) (Op R : Type) : Signature := S.withMarks (Mark Op R)

/-- An operation between its marks. -/
def marked (program : Op → Proc S Unit ε R) (op : Op) : Prog (Sig S Op (Except ε R)) Unit :=
  ((Proc.mark (.begin op) >>= fun _ => Proc.attempt (Proc.lift (program op)) >>= fun r =>
    (Proc.mark (.finish op r) : Proc (Sig S Op (Except ε R)) Unit Empty Unit)) ()).bind
      fun _ => .ret ()

/-! ### The operation that a caller is in -/

/-- The operation in progress, with its calls. -/
def current : List (Event (Sig S Op R)) → Option (Op × List (Event S))
  | [] => none
  | ⟨.inr (.begin op), _⟩ :: _ => some (op, [])
  | ⟨.inr (.finish _ _), _⟩ :: _ => none
  | ⟨.inl o, r⟩ :: h => (current h).map fun c => (c.1, ⟨o, r⟩ :: c.2)

section Current

variable {h : List (Event (Sig S Op R))} {op : Op} {h' : List (Event S)}

theorem current_call_eq_some {o : S.Op} {r : S.Res o} :
    current ((⟨.inl o, r⟩ : Event (Sig S Op R)) :: h) = some (op, h') ↔
      ∃ h'', current h = some (op, h'') ∧ h' = ⟨o, r⟩ :: h'' := by
  change (current h).map (fun c => (c.1, ⟨o, r⟩ :: c.2)) = _ ↔ _
  rw [Option.map_eq_some_iff]
  constructor
  · rintro ⟨⟨op', h''⟩, hcur, heq⟩
    cases heq
    exact ⟨h'', hcur, rfl⟩
  · rintro ⟨h'', hcur, rfl⟩
    exact ⟨(op, h''), hcur, rfl⟩

theorem current_append (h' : List (Event S)) (u : Unit) :
    current (h'.map Prog.liftEvent ++ (⟨.inr (.begin op), u⟩ : Event (Sig S Op R)) :: h) =
      some (op, h') := by
  induction h' with
  | nil => rfl
  | cons e h' ih => exact current_call_eq_some.2 ⟨h', ih, rfl⟩

theorem mem_of_mem_current (hcur : current h = some (op, h')) {e : Event S} (he : e ∈ h') :
    (Prog.liftEvent e : Event (Sig S Op R)) ∈ h := by
  induction h generalizing h' with
  | nil => cases hcur
  | cons x h ih =>
    obtain ⟨o | m, r⟩ := x
    · obtain ⟨h'', hrest, rfl⟩ := current_call_eq_some.1 hcur
      rcases mem_cons.1 he with rfl | he
      · exact mem_cons_self
      · exact mem_cons_of_mem _ (ih hrest he)
    · cases m with
      | begin op' =>
        cases hcur
        cases he
      | finish op' r' => cases hcur

theorem mem_of_mem_current_append {h₁ h₂ : List (Event (Sig S Op R))} {op' : Op} {u : Unit}
    (hcur : current (h₁ ++ (⟨.inr (.begin op'), u⟩ : Event (Sig S Op R)) :: h₂) = some (op, h'))
    {e : Event S} (he : e ∈ h') : (Prog.liftEvent e : Event (Sig S Op R)) ∈ h₁ := by
  induction h₁ generalizing h' with
  | nil =>
    cases hcur
    cases he
  | cons x h₁ ih =>
    obtain ⟨o | m, r⟩ := x
    · obtain ⟨h'', hrest, rfl⟩ := current_call_eq_some.1 hcur
      rcases mem_cons.1 he with rfl | he
      · exact mem_cons_self
      · exact mem_cons_of_mem _ (ih hrest he)
    · cases m with
      | begin op' =>
        cases hcur
        cases he
      | finish op' r' => cases hcur

end Current

/-! ### What is known at each call -/

/-- What is known at each call of an operation, and when it ends, from the calls it has made. -/
def Conducted (Steps : Op → List (Event S) → S.Op → Prop)
    (Done : Op → R → List (Event S) → Prop) (h : List (Event (Sig S Op R))) :
    S.Op ⊕ Mark Op R → Prop
  | .inl o => ∃ op h', current h = some (op, h') ∧ Steps op h' o
  | .inr (.begin _) => current h = none
  | .inr (.finish op r) => ∃ h', current h = some (op, h') ∧ Done op r h'

/-- What holds of the program of an operation holds of it between its marks. -/
theorem marked_wp {program : Op → Proc S Unit ε R} {Steps : Op → List (Event S) → S.Op → Prop}
    {Done : Op → Except ε R → List (Event S) → Prop} {op : Op}
    (hwp : wp (Steps op) (program op) (fun r _ h' => Done op r h') () [])
    {h : List (Event (Sig S Op (Except ε R)))} (hnone : current h = none) :
    (marked program op).wp (Conducted Steps Done) (fun _ h => current h = none) h := by
  have hlift : wp (Conducted Steps Done) (lift (program op))
      (fun r _ h' => ∃ h'', current h' = some (op, h'') ∧ Done op r h'') ()
      (⟨.inr (.begin op), ()⟩ :: h) := by
    rw [wp_lift]
    refine wp_weaken (wp_mono hwp fun r _ h' hdone => ?_) fun h' o hsteps => ?_
    · exact ⟨h', current_append h' (), hdone⟩
    · exact ⟨op, h', current_append h' (), hsteps⟩
  have hall : wp (Conducted Steps Done)
      (mark (.begin op) >>= fun _ => attempt (lift (program op)) >>= fun r =>
        (mark (.finish op r) : Proc (Sig S Op (Except ε R)) Unit Empty Unit))
      (fun _ _ h => current h = none) () h := by
    rw [wp_bind]
    refine wp_mark.2 ⟨hnone, ?_⟩
    rw [onOk_ok, wp_bind, wp_attempt]
    exact wp_mono hlift fun r _ h' hdone => wp_mark.2 ⟨hdone, rfl⟩
  unfold marked
  rw [Prog.wp_bind]
  refine Prog.wp_mono (wp_iff.1 hall) ?_
  exact fun _ _ hnone => hnone

/-! ### The system -/

/-- The answers to calls with marks: marks change nothing. -/
def execMarks {W : Type} (exec : W → (o : S.Op) → S.Res o → W → Prop) (w : W) :
    (o : S.Op ⊕ Mark Op R) → (Sig S Op R).Res o → W → Prop
  | .inl o, r, w' => exec w o r w'
  | .inr _, _, w' => w' = w

/-- Any number of callers.  `env` is what happens besides. -/
abbrev machine (program : Op → Proc S Unit ε R) (W : Type)
    (exec : W → (o : S.Op) → S.Res o → W → Prop) (env : W → W → Prop) :
    Machine (Sig S Op (Except ε R)) where
  World := W
  Actor := ℕ
  Local := Unit
  start _ _ p := ∃ op, p = marked program op
  exec := execMarks exec
  env := env

section Runs

variable {program : Op → Proc S Unit ε R} {W : Type}
  {exec : W → (o : S.Op) → S.Res o → W → Prop} {env : W → W → Prop}

instance : DecidableEq (machine program W exec env).Actor := inferInstanceAs (DecidableEq ℕ)

abbrev Trace (program : Op → Proc S Unit ε R) (W : Type)
    (exec : W → (o : S.Op) → S.Res o → W → Prop) (env : W → W → Prop) :=
  List (ℕ × (machine program W exec env).Stamped)

def eventsOf (i : ℕ) (tr : Trace program W exec env) : List (Event (Sig S Op (Except ε R))) :=
  Machine.events (Machine.past (M := machine program W exec env) i tr)

@[simp]
theorem eventsOf_cons_self (i : ℕ) (x : (machine program W exec env).Stamped)
    (tr : Trace program W exec env) : eventsOf i ((i, x) :: tr) = x.event :: eventsOf i tr :=
  congrArg Machine.events (Machine.past_cons_self (M := machine program W exec env) i x tr)

theorem eventsOf_cons_ne {i j : ℕ} (hij : i ≠ j) (x : (machine program W exec env).Stamped)
    (tr : Trace program W exec env) : eventsOf i ((j, x) :: tr) = eventsOf i tr :=
  congrArg Machine.events (Machine.past_cons_ne hij x tr)

theorem eventsOf_append (i : ℕ) (tr tr' : Trace program W exec env) :
    eventsOf i (tr ++ tr') = eventsOf i tr ++ eventsOf i tr' := by
  induction tr with
  | nil => rfl
  | cons y tr ih =>
    obtain ⟨j, x⟩ := y
    by_cases hij : i = j
    · subst hij
      rw [cons_append, eventsOf_cons_self, eventsOf_cons_self, ih, cons_append]
    · rw [cons_append, eventsOf_cons_ne hij, eventsOf_cons_ne hij, ih]

theorem exists_of_mem_eventsOf {i : ℕ} {tr : Trace program W exec env}
    {e : Event (Sig S Op (Except ε R))} (he : e ∈ eventsOf i tr) :
    ∃ x, (i, x) ∈ tr ∧ x.event = e := by
  obtain ⟨x, hx, rfl⟩ := mem_map.1 he
  exact ⟨x, Machine.mem_of_mem_past hx, rfl⟩

/-- No operation is in progress. -/
def Init (P : W → Prop) (c : (machine program W exec env).Config) : Prop :=
  (∀ i, c.phase i = .idle ()) ∧ P c.world

abbrev Run (P : W → Prop) : (machine program W exec env).Config → Trace program W exec env → Prop :=
  Machine.Run (Init P)

variable {P : W → Prop} {c : (machine program W exec env).Config} {tr : Trace program W exec env}
  {Steps : Op → List (Event S) → S.Op → Prop} {Done : Op → Except ε R → List (Event S) → Prop}

/-- **The induction rule for runs**: an invariant holds throughout if it holds at the start and
is kept by the environment and by every conducted call. -/
theorem Run.induction (hrun : Run P c tr)
    (hwp : ∀ op, wp (Steps op) (program op) (fun r _ h' => Done op r h') () [])
    (Inv : W → Trace program W exec env → Prop) (hinit : ∀ w, P w → Inv w [])
    (henv : ∀ w w' tr, env w w' → Inv w tr → Inv w' tr)
    (hcall : ∀ i tr o r w w', Conducted Steps Done (eventsOf i tr) o →
      execMarks exec w o r w' → Inv w tr → Inv w' ((i, ⟨w, o, r⟩) :: tr)) : Inv c.world tr := by
  apply Machine.Run.invariant (R := fun _ h => current h = none) hrun
  · exact fun c hc i => ⟨(), hc.1 i, rfl⟩
  · rintro i s p h ⟨op, rfl⟩ hnone
    exact marked_wp (hwp op) hnone
  · exact fun c hc => hinit c.world hc.2
  · exact henv
  · exact hcall

theorem Run.conducted (hrun : Run P c tr)
    (hwp : ∀ op, wp (Steps op) (program op) (fun r _ h' => Done op r h') () []) :
    Machine.EachCall (M := machine program W exec env)
      (fun tr i x => Conducted Steps Done (eventsOf i tr) x.event.1) tr := by
  apply Run.induction hrun hwp fun _ tr => Machine.EachCall (M := machine program W exec env)
    (fun tr i x => Conducted Steps Done (eventsOf i tr) x.event.1) tr
  · exact fun _ _ => trivial
  · exact fun _ _ _ _ htr => htr
  · exact fun i tr o r w w' ho _ htr => ⟨ho, htr⟩

/-! ### Schedules -/

/-- A system whose calls can be answered by computation can be played. -/
def player (answer : (o : S.Op) → W → S.Res o × W)
    (hans : ∀ o w, exec w o (answer o w).1 (answer o w).2) {E : Type} (change : E → W → W)
    (hchange : ∀ e w, env w (change e w)) : Machine.Player (machine program W exec env) where
  Task := Op
  program _ _ op := some (marked program op)
  start_of_program h := ⟨_, (Option.some.inj h).symm⟩
  answer o w := some (Prog.answerMarks answer o w)
  exec_of_answer {o w r w'} h := by
    have heq := Option.some.inj h
    cases o with
    | inl o =>
      have hexec := hans o w
      have hr : (r, w') = answer o w := heq.symm
      rw [← hr] at hexec
      exact hexec
    | inr m =>
      cases heq
      exact rfl
  Change := E
  change := change
  env_change := hchange

end Runs

end Operations
