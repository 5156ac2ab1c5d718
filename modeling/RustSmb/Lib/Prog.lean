import Mathlib.Data.List.Basic
import Mathlib.Algebra.Order.Ring.Nat

/-!
# Programs over a signature of operations

A component that talks to the outside (a store, a registry, a clock) only through
a fixed set of calls is a tree: it has returned, or it makes a call and goes on
with whatever reply comes back.  `Prog S α` is that tree for a signature `S`.
Three readings of it are used.

* **Any environment.**  Every reply is possible.  `Prog.wp` is the weakest
  precondition for this reading: an invariant must hold at every call, given the
  calls and replies so far, and a postcondition at the return.  What is proved
  with it holds under every interference, since nothing is assumed of a reply.
* **One interpretation.**  `Prog.run` answers each call from a state.
* **Which calls at all.**  `Proc.Uses` bounds the calls a procedure can make.

`Proc` adds a private state and an early exit, which is how a method of a mutable
object with fallible steps reads.

## Main results

* `Prog.wp_sound` — **an invariant established by `wp` holds at every call of
  every execution.**
* `Proc.wp_bind`, `Proc.run_bind` — sequencing.
-/

/-- Operations, and the type of the reply each of them gets. -/
structure Signature where
  /-- The calls a program can make. -/
  Op : Type
  /-- The type of the reply to a call. -/
  Res : Op → Type

/-- Programs that make calls of the signature `S` and return an `α`. -/
inductive Prog (S : Signature) (α : Type) : Type where
  /-- The program has returned. -/
  | ret (a : α) : Prog S α
  /-- The program calls `o` and goes on with the reply. -/
  | call (o : S.Op) (k : S.Res o → Prog S α) : Prog S α

/-- A call together with the reply it got. -/
abbrev Event (S : Signature) : Type := (o : S.Op) × S.Res o

namespace Prog

open List

variable {S : Signature} {α β γ : Type}

/-- Run `p`, then `f` on what it returns. -/
def bind : Prog S α → (α → Prog S β) → Prog S β
  | .ret a, f => f a
  | .call o k, f => .call o fun r => (k r).bind f

@[simp]
theorem ret_bind (a : α) (f : α → Prog S β) : (Prog.ret a).bind f = f a := rfl

@[simp]
theorem call_bind (o : S.Op) (k : S.Res o → Prog S α) (f : α → Prog S β) :
    (Prog.call o k).bind f = .call o fun r => (k r).bind f := rfl

theorem bind_assoc (p : Prog S α) (f : α → Prog S β) (g : β → Prog S γ) :
    (p.bind f).bind g = p.bind fun a => (f a).bind g := by
  induction p with
  | ret a => rfl
  | call o k ih => simp only [call_bind, ih]

/-! ### Executions in any environment -/

/-- `p.Reaches h h' q`: calls of `p` can extend the history `h` to `h'` (newest first) and leave
`q` to run. -/
inductive Reaches (p : Prog S α) (h : List (Event S)) : List (Event S) → Prog S α → Prop where
  /-- No call has been made yet. -/
  | refl : Reaches p h h p
  /-- One more call is answered. -/
  | step {h' : List (Event S)} {o : S.Op} {k : S.Res o → Prog S α} (r : S.Res o) :
      Reaches p h h' (.call o k) → Reaches p h (⟨o, r⟩ :: h') (k r)

/-- The weakest precondition for `p` to keep `I` at its calls and to return with `Q`, whatever
the replies.  `I h o` is about the call `o` after the history `h`. -/
def wp (I : List (Event S) → S.Op → Prop) :
    Prog S α → (α → List (Event S) → Prop) → List (Event S) → Prop
  | .ret a, Q, h => Q a h
  | .call o k, Q, h => I h o ∧ ∀ r, (k r).wp I Q (⟨o, r⟩ :: h)

section Wp

variable {I : List (Event S) → S.Op → Prop} {Q Q' : α → List (Event S) → Prop}
  {h h' : List (Event S)}

@[simp]
theorem wp_call {o : S.Op} {k : S.Res o → Prog S α} :
    (Prog.call o k).wp I Q h ↔ I h o ∧ ∀ r, (k r).wp I Q (⟨o, r⟩ :: h) := Iff.rfl

variable {p : Prog S α}

theorem wp_bind {f : α → Prog S β} {R : β → List (Event S) → Prop} :
    (p.bind f).wp I R h ↔ p.wp I (fun a h => (f a).wp I R h) h := by
  induction p generalizing h with
  | ret a => exact Iff.rfl
  | call o k ih => simp only [call_bind, wp_call, ih]

theorem wp_mono (hp : p.wp I Q h) (hQ : ∀ a h, Q a h → Q' a h) : p.wp I Q' h := by
  induction p generalizing h with
  | ret a => exact hQ a h hp
  | call o k ih => exact ⟨hp.1, fun r => ih r (hp.2 r)⟩

/-- Programs go on alike after a program if they do so from what it ends with. -/
theorem bind_congr_of_wp {f g : α → Prog S β} (hp : p.wp I Q h) (hfg : ∀ a h, Q a h → f a = g a) :
    p.bind f = p.bind g := by
  induction p generalizing h with
  | ret a => exact hfg a h hp
  | call o k ih => exact congrArg (Prog.call o) (funext fun r => ih r (hp.2 r))

variable {I' : List (Event S) → S.Op → Prop}

theorem wp_and (hp : p.wp I Q h) (hp' : p.wp I' Q' h) :
    p.wp (fun h o => I h o ∧ I' h o) (fun a h => Q a h ∧ Q' a h) h := by
  induction p generalizing h with
  | ret a => exact ⟨hp, hp'⟩
  | call o k ih => exact ⟨⟨hp.1, hp'.1⟩, fun r => ih r (hp.2 r) (hp'.2 r)⟩

theorem wp_weaken (hp : p.wp I Q h) (hI : ∀ h o, I h o → I' h o) : p.wp I' Q h := by
  induction p generalizing h with
  | ret a => exact hp
  | call o k ih => exact ⟨hI h o hp.1, fun r => ih r (hp.2 r)⟩

theorem wp_carry {allowed : S.Op → Prop} (T : List (Event S) → Prop)
    (hT : ∀ h o r, allowed o → T h → T (⟨o, r⟩ :: h)) (hp : p.wp (fun _ o => allowed o) Q h)
    (h0 : T h) : p.wp (fun h o => allowed o ∧ T h) (fun a h => Q a h ∧ T h) h := by
  induction p generalizing h with
  | ret a => exact ⟨hp, h0⟩
  | call o k ih => exact ⟨⟨hp.1, h0⟩, fun r => ih r (hp.2 r) (hT h o r hp.1 h0)⟩

theorem wp_of_forall (hI : ∀ h', h <:+ h' → ∀ o, I h' o) (hQ : ∀ a h', h <:+ h' → Q a h') :
    p.wp I Q h := by
  induction p generalizing h with
  | ret a => exact hQ a h (suffix_refl h)
  | call o k ih =>
    refine ⟨hI h (suffix_refl h) o, fun r => ih r ?_ ?_⟩
    · intro h' hs
      exact hI h' ((suffix_cons _ h).trans hs)
    · intro a h' hs
      exact hQ a h' ((suffix_cons _ h).trans hs)

theorem wp_grows (hp : p.wp I Q h) : p.wp I (fun a h' => Q a h' ∧ h <:+ h') h := by
  have hgrows : ∀ h', h <:+ h' → p.wp I Q h' → p.wp I (fun a h' => Q a h' ∧ h <:+ h') h' := by
    clear hp
    induction p with
    | ret a => exact fun h' hs hq => ⟨hq, hs⟩
    | call o k ih =>
      exact fun h' hs hp => ⟨hp.1, fun r => ih r _ (hs.trans (suffix_cons _ _)) (hp.2 r)⟩
  exact hgrows h (suffix_refl h) hp

/-- A program makes the calls that its histories lead to, and returns what they lead to. -/
theorem wp_self (p : Prog S α) :
    p.wp (fun h o => ∃ k, p.Reaches [] h (.call o k)) (fun a h => p.Reaches [] h (.ret a)) [] := by
  have hself : ∀ (q : Prog S α) (h : List (Event S)), p.Reaches [] h q →
      q.wp (fun h o => ∃ k, p.Reaches [] h (.call o k)) (fun a h => p.Reaches [] h (.ret a)) h := by
    intro q
    induction q with
    | ret a => exact fun h hr => hr
    | call o k ih => exact fun h hr => ⟨⟨k, hr⟩, fun r => ih r _ (hr.step r)⟩
  exact hself p [] .refl

/-- The precondition travels along an execution: it holds of what is left to run. -/
theorem wp_reaches {q : Prog S α} (hr : p.Reaches h h' q) (hp : p.wp I Q h) : q.wp I Q h' := by
  induction hr with
  | refl => exact hp
  | step r _ ih => exact ih.2 r

/-- **An invariant established by `wp` holds at every call of every execution.** -/
theorem wp_sound {o : S.Op} {k : S.Res o → Prog S α} (hp : p.wp I Q h)
    (hr : p.Reaches h h' (.call o k)) : I h' o :=
  (wp_reaches hr hp).1

theorem wp_past {q : Prog S α} {e : Event S} (hp : p.wp I Q []) (hr : p.Reaches [] h q)
    (hs : (e :: h') <:+ h) : I h' e.1 := by
  induction hr with
  | refl => exact absurd (suffix_nil.1 hs) (cons_ne_nil e h')
  | @step h₁ o k r hr ih =>
    rcases suffix_cons_iff.1 hs with heq | hs
    · obtain ⟨rfl, rfl⟩ := List.cons.inj heq
      exact wp_sound hp hr
    · exact ih hs

end Wp

/-! ### One interpretation -/

section Run

variable {W : Type}

/-- The result and the world in the end, if `answer` answers every call. -/
def run (answer : (o : S.Op) → W → S.Res o × W) : Prog S α → W → α × W
  | .ret a, w => (a, w)
  | .call o k, w => (k (answer o w).1).run answer (answer o w).2

variable {answer : (o : S.Op) → W → S.Res o × W} {w : W}

@[simp]
theorem run_ret {a : α} : (Prog.ret a).run answer w = (a, w) := rfl

@[simp]
theorem run_call {o : S.Op} {k : S.Res o → Prog S α} :
    (Prog.call o k).run answer w = (k (answer o w).1).run answer (answer o w).2 := rfl

variable {p : Prog S α}

theorem run_bind {f : α → Prog S β} :
    (p.bind f).run answer w = (f (p.run answer w).1).run answer (p.run answer w).2 := by
  induction p generalizing w with
  | ret a => rfl
  | call o k ih => exact ih _

/-- The history of a run, the newest event first. -/
def log (answer : (o : S.Op) → W → S.Res o × W) :
    Prog S α → W → List (Event S) → List (Event S)
  | .ret _, _, h => h
  | .call o k, w, h => (k (answer o w).1).log answer (answer o w).2 (⟨o, (answer o w).1⟩ :: h)

theorem run_of_wp {I : List (Event S) → S.Op → Prop} {Q : α → List (Event S) → Prop}
    {h : List (Event S)} (hp : p.wp I Q h) : Q (p.run answer w).1 (p.log answer w h) := by
  induction p generalizing w h with
  | ret a => exact hp
  | call o k ih => exact ih _ (hp.2 _)

/-- What is left of a program when its calls meet the given states, the first one first. -/
def feed (answer : (o : S.Op) → W → S.Res o × W) : Prog S α → List W → Prog S α
  | .ret a, _ => .ret a
  | .call o k, [] => .call o k
  | .call o k, w :: ws => (k (answer o w).1).feed answer ws

theorem feed_nil : p.feed answer [] = p := by
  cases p <;> rfl

theorem feed_append {ws ws' : List W} :
    p.feed answer (ws ++ ws') = (p.feed answer ws).feed answer ws' := by
  induction p generalizing ws with
  | ret a => rfl
  | call o k ih =>
    cases ws with
    | nil => rw [feed_nil, nil_append]
    | cons w ws => exact ih _

/-- A program that is fed the states that its history met is left where the history leads. -/
theorem Reaches.feed_eq {q : Prog S α} {e : List (W × Event S)}
    (hr : p.Reaches [] (e.map Prod.snd) q) (he : ∀ x ∈ e, (answer x.2.1 x.1).1 = x.2.2) :
    p.feed answer (e.reverse.map Prod.fst) = q := by
  generalize hh : e.map Prod.snd = h at hr
  induction hr generalizing e with
  | refl =>
    rw [map_eq_nil_iff] at hh
    subst hh
    exact feed_nil
  | step r _ ih =>
    obtain ⟨⟨w, _⟩, e', rfl, rfl, rfl⟩ := map_eq_cons_iff.1 hh
    obtain ⟨hx, he'⟩ := forall_mem_cons.1 he
    rw [reverse_cons, map_append, feed_append, ih he' rfl]
    exact (feed_nil).trans (congrArg _ hx)

end Run

theorem run_keeps {W : Type} {answer : (o : S.Op) → W → S.Res o × W} {allowed : S.Op → Prop}
    {J : W → Prop} (hJ : ∀ o, allowed o → ∀ w, J w → J (answer o w).2) {p : Prog S α}
    {Q : α → List (Event S) → Prop} {h : List (Event S)} (hp : p.wp (fun _ o => allowed o) Q h)
    {w : W} (hw : J w) : J (p.run answer w).2 := by
  induction p generalizing w h with
  | ret a => exact hw
  | call o k ih => exact ih _ (hp.2 _) (hJ o hp.1 w hw)

/-! ### What a program can return -/

section Returns

variable {P : α → Prop}

/-- Every possible result satisfies `P`. -/
def Returns (P : α → Prop) : Prog S α → Prop
  | .ret a => P a
  | .call _ k => ∀ r, (k r).Returns P

variable {p : Prog S α}

theorem returns_of_forall (h : ∀ a, P a) : p.Returns P := by
  induction p with
  | ret a => exact h a
  | call o k ih => exact ih

theorem Returns.bind {Q : β → Prop} {f : α → Prog S β} (hp : p.Returns P)
    (hf : ∀ a, P a → (f a).Returns Q) : (p.bind f).Returns Q := by
  induction p with
  | ret a => exact hf a hp
  | call o k ih => exact fun r => ih r (hp r)

theorem Returns.mono {P' : α → Prop} (hp : p.Returns P) (h : ∀ a, P a → P' a) : p.Returns P' := by
  induction p with
  | ret a => exact h a hp
  | call o k ih => exact fun r => ih r (hp r)

theorem Returns.run (hp : p.Returns P) {W : Type} (answer : (o : S.Op) → W → S.Res o × W) (w : W) :
    P (p.run answer w).1 := by
  induction p generalizing w with
  | ret a => exact hp
  | call o k ih => exact ih _ (hp _) _

end Returns

end Prog

/-! ### Marks

A mark is a call without a reply.  Programs over a signature that has none can be run
between marks: `Prog.lift`. -/

/-- A signature with marks, which programs leave in their history for proofs. -/
abbrev Signature.withMarks (S : Signature) (M : Type) : Signature where
  Op := S.Op ⊕ M
  Res := Sum.elim S.Res fun _ => Unit

namespace Prog

variable {S : Signature} {M α β : Type}

/-- A program without marks as one that could have some. -/
def lift : Prog S α → Prog (S.withMarks M) α
  | .ret a => .ret a
  | .call o k => .call (S := S.withMarks M) (.inl o) fun r => (k r).lift

def liftEvent (e : Event S) : Event (S.withMarks M) := ⟨.inl e.1, e.2⟩

variable {p : Prog S α}

theorem wp_lift {I : List (Event (S.withMarks M)) → S.Op ⊕ M → Prop}
    {Q : α → List (Event (S.withMarks M)) → Prop} {h : List (Event (S.withMarks M))}
    (h' : List (Event S)) :
    (p.lift : Prog (S.withMarks M) α).wp I Q (h'.map liftEvent ++ h) ↔
      p.wp (fun h' o => I (h'.map liftEvent ++ h) (.inl o))
        (fun a h' => Q a (h'.map liftEvent ++ h)) h' := by
  induction p generalizing h' with
  | ret a => exact Iff.rfl
  | call o k ih =>
    refine and_congr Iff.rfl (forall_congr' fun r => ?_)
    exact ih r (⟨o, r⟩ :: h')

/-- Answer calls with marks: marks change nothing. -/
def answerMarks {W : Type} (answer : (o : S.Op) → W → S.Res o × W) :
    (o : (S.withMarks M).Op) → W → (S.withMarks M).Res o × W
  | .inl o, w => answer o w
  | .inr _, w => ((), w)

theorem run_lift {W : Type} {answer : (o : S.Op) → W → S.Res o × W} {w : W} :
    (p.lift : Prog (S.withMarks M) α).run (answerMarks answer) w = p.run answer w := by
  induction p generalizing w with
  | ret a => rfl
  | call o k ih => exact ih _

theorem Returns.lift {P : α → Prop} (hp : p.Returns P) :
    (p.lift : Prog (S.withMarks M) α).Returns P := by
  induction p with
  | ret a => exact hp
  | call o k ih => exact fun r => ih r (hp r)

end Prog

/-! ### Programs with a private state and an early exit -/

/-- A program with a private state `σ` that may stop early with an `ε`; an early exit keeps the
changes of the state. -/
def Proc (S : Signature) (σ ε α : Type) : Type := σ → Prog S (Except ε α × σ)

namespace Proc

variable {S : Signature} {σ ε ε' α β : Type}

instance : Monad (Proc S σ ε) where
  pure a := fun s => .ret (.ok a, s)
  bind x f := fun s => (x s).bind fun
    | (.ok a, s') => f a s'
    | (.error e, s') => .ret (.error e, s')

theorem bind_apply (x : Proc S σ ε α) (f : α → Proc S σ ε β) (s : σ) :
    (x >>= f) s = (x s).bind fun
      | (.ok a, s') => f a s'
      | (.error e, s') => .ret (.error e, s') := rfl

theorem bind_assoc {γ : Type} (x : Proc S σ ε α) (f : α → Proc S σ ε β) (g : β → Proc S σ ε γ) :
    (x >>= f) >>= g = x >>= fun a => f a >>= g := by
  funext s
  rw [bind_apply, bind_apply, bind_apply, Prog.bind_assoc]
  congr 1
  funext r
  rcases r with ⟨e | a, s'⟩ <;> rfl

/-- Ends with an error. -/
def throw (e : ε) : Proc S σ ε α := fun s => .ret (.error e, s)

@[simp]
theorem pure_bind (a : α) (f : α → Proc S σ ε β) : (pure a >>= f) = f a := rfl

@[simp]
theorem throw_bind (e : ε) (f : α → Proc S σ ε β) : (throw e >>= f) = throw e := rfl

def get : Proc S σ ε σ := fun s => .ret (.ok s, s)

def modify (f : σ → σ) : Proc S σ ε Unit := fun s => .ret (.ok (), f s)

/-- One call. -/
def perform (o : S.Op) : Proc S σ ε (S.Res o) := fun s => .call o fun r => .ret (.ok r, s)

/-- Goes on only if the condition holds. -/
def require (c : Bool) (e : ε) : Proc S σ ε Unit := if c then pure () else throw e

/-- Go on with the value, or stop with the error. -/
def ofExcept : Except ε α → Proc S σ ε α
  | .ok a => pure a
  | .error e => throw e

def when (c : Bool) (x : Proc S σ ε Unit) : Proc S σ ε Unit := if c then x else pure ()

/-- Run `x` and go on with its outcome, whether it returned or stopped early. -/
def attempt (x : Proc S σ ε α) : Proc S σ ε' (Except ε α) := fun s =>
  (x s).bind fun r => .ret (.ok r.1, r.2)

/-- One after the other, up to the first error. -/
def forEach (f : α → Proc S σ ε Unit) : List α → Proc S σ ε Unit
  | [] => pure ()
  | a :: as => f a >>= fun _ => forEach f as

/-- What must hold before, for the calls to satisfy `I` and the result `Q`. -/
def wp (I : List (Event S) → S.Op → Prop) (x : Proc S σ ε α)
    (Q : Except ε α → σ → List (Event S) → Prop) (s : σ) (h : List (Event S)) : Prop :=
  (x s).wp I (fun r h => Q r.1 r.2 h) h

/-- A postcondition `Q` of what returns, as one of every outcome: an early exit must
satisfy `E`. -/
def onOk (E : ε → σ → List (Event S) → Prop) (Q : α → σ → List (Event S) → Prop) :
    Except ε α → σ → List (Event S) → Prop
  | .ok a, s, h => Q a s h
  | .error e, s, h => E e s h

variable {E : ε → σ → List (Event S) → Prop}

@[simp]
theorem onOk_ok {Q : α → σ → List (Event S) → Prop} {a : α} {s : σ} {h : List (Event S)} :
    onOk E Q (.ok a) s h ↔ Q a s h := Iff.rfl

@[simp]
theorem onOk_error {Q : α → σ → List (Event S) → Prop} {e : ε} {s : σ} {h : List (Event S)} :
    onOk E Q (.error e) s h ↔ E e s h := Iff.rfl

section Wp

variable {I : List (Event S) → S.Op → Prop} {Q Q' : Except ε α → σ → List (Event S) → Prop}
  {s : σ} {h : List (Event S)}

variable {x : Proc S σ ε α} {R : Except ε β → σ → List (Event S) → Prop}

theorem wp_iff :
    wp I x Q s h ↔ (x s).wp I (fun r h => Q r.1 r.2 h) h := Iff.rfl

@[simp]
theorem wp_pure {a : α} : wp I (pure a : Proc S σ ε α) Q s h ↔ Q (.ok a) s h := Iff.rfl

@[simp]
theorem wp_throw {e : ε} : wp I (throw e : Proc S σ ε α) Q s h ↔ Q (.error e) s h := Iff.rfl

@[simp]
theorem wp_get {Q : Except ε σ → σ → List (Event S) → Prop} :
    wp I (get : Proc S σ ε σ) Q s h ↔ Q (.ok s) s h := Iff.rfl

@[simp]
theorem wp_modify {f : σ → σ} {Q : Except ε Unit → σ → List (Event S) → Prop} :
    wp I (modify f : Proc S σ ε Unit) Q s h ↔ Q (.ok ()) (f s) h := Iff.rfl

@[simp]
theorem wp_perform {o : S.Op} {Q : Except ε (S.Res o) → σ → List (Event S) → Prop} :
    wp I (perform o : Proc S σ ε (S.Res o)) Q s h ↔
      I h o ∧ ∀ r, Q (.ok r) s (⟨o, r⟩ :: h) := Iff.rfl

theorem wp_bind {f : α → Proc S σ ε β} :
    wp I (x >>= f) R s h ↔
      wp I x (onOk (fun e s h => R (.error e) s h) fun a s h => wp I (f a) R s h) s h := by
  unfold wp
  rw [bind_apply, Prog.wp_bind]
  constructor
  · intro hx
    refine Prog.wp_mono hx ?_
    rintro ⟨r | a, s'⟩ h' hr
    · exact hr
    · exact hr
  · intro hx
    refine Prog.wp_mono hx ?_
    rintro ⟨r | a, s'⟩ h' hr
    · exact hr
    · exact hr

@[simp]
theorem wp_require {c : Bool} {e : ε} {Q : Except ε Unit → σ → List (Event S) → Prop} :
    wp I (require c e : Proc S σ ε Unit) Q s h ↔
      (c = true → Q (.ok ()) s h) ∧ (c = false → Q (.error e) s h) := by
  cases c <;> simp [require]

@[simp]
theorem wp_ofExcept {x : Except ε α} :
    wp I (ofExcept x : Proc S σ ε α) Q s h ↔ Q x s h := by
  cases x <;> exact Iff.rfl

@[simp]
theorem wp_when {c : Bool} {x : Proc S σ ε Unit}
    {Q : Except ε Unit → σ → List (Event S) → Prop} :
    wp I (when c x) Q s h ↔ (c = true → wp I x Q s h) ∧ (c = false → Q (.ok ()) s h) := by
  cases c <;> simp [when]

@[simp]
theorem wp_attempt {Q : Except ε' (Except ε α) → σ → List (Event S) → Prop} :
    wp I (attempt x : Proc S σ ε' (Except ε α)) Q s h ↔
      wp I x (fun r s h => Q (.ok r) s h) s h := by
  unfold wp attempt
  rw [Prog.wp_bind]
  exact Iff.rfl

theorem wp_mono (hx : wp I x Q s h) (hQ : ∀ r s h, Q r s h → Q' r s h) : wp I x Q' s h :=
  Prog.wp_mono hx fun r h hr => hQ r.1 r.2 h hr

variable {I' : List (Event S) → S.Op → Prop}

theorem wp_and {Q' : Except ε α → σ → List (Event S) → Prop} (hx : wp I x Q s h)
    (hx' : wp I' x Q' s h) :
    wp (fun h o => I h o ∧ I' h o) x (fun r s h => Q r s h ∧ Q' r s h) s h :=
  Prog.wp_and hx hx'

theorem wp_map {f : α → β} :
    wp I (f <$> x) R s h ↔
      wp I x (onOk (fun e s h => R (.error e) s h) fun a s h => R (.ok (f a)) s h) s h := by
  have hmap : f <$> x = x >>= fun a => pure (f a) := rfl
  rw [hmap, wp_bind]
  simp only [wp_pure]

theorem wp_seq {f : α → Proc S σ ε β} {P : α → σ → List (Event S) → Prop}
    (hx : wp I x (onOk (fun e s h => R (.error e) s h) P) s h)
    (hf : ∀ a s h, P a s h → wp I (f a) R s h) : wp I (x >>= f) R s h := by
  rw [wp_bind]
  refine wp_mono hx ?_
  rintro (e | a) s h hr
  · exact hr
  · exact hf a s h hr

theorem wp_forEach {f : α → Proc S σ ε Unit} {as : List α} {E : ε → σ → List (Event S) → Prop}
    {Inv : σ → List (Event S) → Prop}
    (hf : ∀ a ∈ as, ∀ s h, Inv s h → wp I (f a) (onOk E fun _ => Inv) s h) (hs : Inv s h) :
    wp I (forEach f as) (onOk E fun _ => Inv) s h := by
  induction as generalizing s h with
  | nil => exact hs
  | cons a as ih =>
    unfold forEach
    rw [wp_bind]
    refine wp_mono (hf a List.mem_cons_self s h hs) ?_
    rintro (e | _) s' h' hr
    · exact hr
    · exact ih (fun b hb => hf b (List.mem_cons_of_mem a hb)) hr

theorem wp_weaken (hx : wp I x Q s h) (hI : ∀ h o, I h o → I' h o) : wp I' x Q s h :=
  Prog.wp_weaken hx hI

theorem wp_carry {allowed : S.Op → Prop} (T : List (Event S) → Prop)
    (hT : ∀ h o r, allowed o → T h → T (⟨o, r⟩ :: h)) (hx : wp (fun _ o => allowed o) x Q s h)
    (h0 : T h) : wp (fun h o => allowed o ∧ T h) x (fun r s h => Q r s h ∧ T h) s h :=
  Prog.wp_carry T hT hx h0

theorem wp_grows (hx : wp I x Q s h) : wp I x (fun r s h' => Q r s h' ∧ h <:+ h') s h :=
  Prog.wp_grows hx

theorem wp_of_forall (hI : ∀ h', h <:+ h' → ∀ o, I h' o) (hQ : ∀ r s h', h <:+ h' → Q r s h') :
    wp I x Q s h :=
  Prog.wp_of_forall hI fun r h' hs => hQ r.1 r.2 h' hs

end Wp

section Run

variable {W : Type} {answer : (o : S.Op) → W → S.Res o × W} {s : σ} {w : W}

/-- Run a procedure, answering each call from a state `W`: the outcome, the private state and
the state after it. -/
def run (answer : (o : S.Op) → W → S.Res o × W) (x : Proc S σ ε α) (s : σ) (w : W) :
    Except ε α × σ × W :=
  let r := (x s).run answer w
  (r.1.1, r.1.2, r.2)

variable {x : Proc S σ ε α} {a : α} {f : α → Proc S σ ε β} {w' : W} {s' : σ} {e : ε} {c : Bool}

theorem run_congr {y : Proc S σ ε α} (h : x s = y s) : run answer x s w = run answer y s w := by
  unfold run
  rw [h]

@[simp]
theorem run_pure :
    run answer (pure a : Proc S σ ε α) s w = (.ok a, s, w) := rfl

@[simp]
theorem run_get : run answer (get : Proc S σ ε σ) s w = (.ok s, s, w) := rfl

@[simp]
theorem run_perform {o : S.Op} :
    run answer (perform o : Proc S σ ε (S.Res o)) s w =
      (.ok (answer o w).1, s, (answer o w).2) := rfl

theorem run_bind :
    run answer (x >>= f) s w =
      match run answer x s w with
      | (.ok a, s', w') => run answer (f a) s' w'
      | (.error e, s', w') => (.error e, s', w') := by
  have hbind : (x >>= f) s = (x s).bind fun
      | (.ok a, s') => f a s'
      | (.error e, s') => .ret (.error e, s') := rfl
  unfold run
  rw [hbind, Prog.run_bind]
  rcases (x s).run answer w with ⟨⟨e | a, s'⟩, w'⟩ <;> rfl

theorem run_bind_ok (hx : run answer x s w = (.ok a, s', w')) :
    run answer (x >>= f) s w = run answer (f a) s' w' := by
  rw [run_bind, hx]

theorem run_bind_error (hx : run answer x s w = (.error e, s', w')) :
    run answer (x >>= f) s w = (.error e, s', w') := by
  rw [run_bind, hx]

theorem run_map {f : α → β} :
    run answer (f <$> x) s w = ((run answer x s w).1.map f, (run answer x s w).2) := by
  have hmap : f <$> x = x >>= fun a => pure (f a) := rfl
  rw [hmap, run_bind]
  rcases run answer x s w with ⟨e | a, s', w'⟩ <;> rfl

theorem run_bind_eq_ok {b : β} (h : run answer (x >>= f) s w = (.ok b, s', w')) :
    ∃ a s₁ w₁, run answer x s w = (.ok a, s₁, w₁) ∧ run answer (f a) s₁ w₁ = (.ok b, s', w') := by
  rw [run_bind] at h
  split at h
  · next a s₁ w₁ hx => exact ⟨a, s₁, w₁, hx, h⟩
  · cases h

@[simp]
theorem run_ofExcept {x : Except ε α} :
    run answer (ofExcept x : Proc S σ ε α) s w = (x, s, w) := by
  cases x <;> rfl

theorem run_when {x : Proc S σ ε Unit} :
    run answer (when c x) s w = if c then run answer x s w else (.ok (), s, w) := by
  cases c <;> rfl

@[simp]
theorem run_attempt :
    run answer (attempt x : Proc S σ ε' (Except ε α)) s w =
      (.ok (run answer x s w).1, (run answer x s w).2) := by
  unfold run attempt
  rw [Prog.run_bind]
  rfl

theorem run_attempt_of {r : Except ε α} (hx : run answer x s w = (r, s', w')) :
    run answer (attempt x : Proc S σ ε' (Except ε α)) s w = (.ok r, s', w') := by
  rw [run_attempt, hx]

@[simp]
theorem run_require :
    run answer (require c e : Proc S σ ε Unit) s w = (if c then .ok () else .error e, s, w) := by
  cases c <;> rfl

theorem run_require_bind {f : Unit → Proc S σ ε α} :
    run answer (require c e >>= f) s w = if c then run answer (f ()) s w else (.error e, s, w) := by
  cases c <;> rfl

theorem run_require_ok {f : Unit → Proc S σ ε α}
    (h : (run answer (require c e >>= f) s w).1 = .ok a) :
    c = true ∧ (run answer (f ()) s w).1 = .ok a := by
  cases c with
  | false => cases h
  | true => exact ⟨rfl, h⟩

theorem run_require_bind_eq_ok {f : Unit → Proc S σ ε α}
    (h : run answer (require c e >>= f) s w = (.ok a, s', w')) :
    c = true ∧ run answer (f ()) s w = (.ok a, s', w') := by
  cases c with
  | false => cases h
  | true => exact ⟨rfl, h⟩

/-- The calls of a run, the last one first. -/
def log (answer : (o : S.Op) → W → S.Res o × W) (x : Proc S σ ε α) (s : σ) (w : W) :
    List (Event S) :=
  (x s).log answer w []

theorem run_of_wp {I : List (Event S) → S.Op → Prop} {Q : Except ε α → σ → List (Event S) → Prop}
    (hx : wp I x Q s []) : Q (run answer x s w).1 (run answer x s w).2.1 (log answer x s w) :=
  Prog.run_of_wp hx

/-- The run ends without an error. -/
def Succeeds (answer : (o : S.Op) → W → S.Res o × W) (x : Proc S σ ε α) (s : σ) (w : W) : Prop :=
  ∃ a, (run answer x s w).1 = .ok a

theorem succeeds_bind_of (hx : run answer x s w = (.ok a, s', w')) :
    Succeeds answer (x >>= f) s w ↔ Succeeds answer (f a) s' w' := by
  unfold Succeeds
  rw [run_bind_ok hx]

theorem succeeds_require_bind {f : Unit → Proc S σ ε α} :
    Succeeds answer (require c e >>= f) s w ↔ c = true ∧ Succeeds answer (f ()) s w := by
  cases c with
  | false => exact ⟨nofun, nofun⟩
  | true => exact (and_iff_right rfl).symm

theorem run_invariant {Inv : W → Prop} (hInv : ∀ o w, Inv w → Inv (answer o w).2)
    (x : Proc S σ ε α) (s : σ) (hw : Inv w) : Inv (run answer x s w).2.2 := by
  unfold run
  generalize x s = p
  induction p generalizing w with
  | ret a => exact hw
  | call o k ih => exact ih _ (hInv o w hw)

/-- A loop keeps the private state and `f` of the state that answers, if its body does and
succeeds. -/
theorem run_forEach {δ : Type} (f : W → δ) {body : α → Proc S σ ε Unit}
    (hbody : ∀ a w, ∃ w', run answer (body a) s w = (.ok (), s, w') ∧ f w' = f w) (as : List α) :
    ∃ w', run answer (forEach body as) s w = (.ok (), s, w') ∧ f w' = f w := by
  induction as generalizing w with
  | nil => exact ⟨w, rfl, rfl⟩
  | cons a as ih =>
    obtain ⟨w₁, hrun, hf⟩ := hbody a w
    obtain ⟨w₂, hrest, hf'⟩ := ih
    refine ⟨w₂, ?_, hf'.trans hf⟩
    rw [forEach, run_bind, hrun]
    exact hrest

end Run

/-! ### What a procedure can return -/

section Returns

/-- Every result that is no error satisfies `P`. -/
def Returns (P : α → Prop) (x : Proc S σ ε α) : Prop :=
  ∀ s, (x s).Returns fun r => ∀ a, r.1 = .ok a → P a

variable {a : α} {P : α → Prop} {x : Proc S σ ε α} {f : α → Proc S σ ε β}

theorem returns_pure (h : P a) : Returns P (pure a : Proc S σ ε α) := by
  rintro s _ ⟨⟩
  exact h

theorem returns_throw {e : ε} : Returns P (throw e : Proc S σ ε α) := by
  rintro s _ ⟨⟩

theorem returns_true (x : Proc S σ ε α) : Returns (fun _ => True) x := fun _ =>
  Prog.returns_of_forall fun _ _ _ => trivial

theorem returns_bind {P : β → Prop} {Q : α → Prop} (hx : Returns Q x)
    (hf : ∀ a, Q a → Returns P (f a)) : Returns P (x >>= f) := by
  intro s
  refine (hx s).bind ?_
  rintro ⟨e | a, s'⟩ hr
  · rintro _ ⟨⟩
  · exact hf a (hr a rfl) s'

theorem returns_tail {P : β → Prop} (hf : ∀ a, Returns P (f a)) : Returns P (x >>= f) :=
  returns_bind (returns_true x) fun a _ => hf a

theorem Returns.mono {P' : α → Prop} (hx : Returns P x) (h : ∀ a, P a → P' a) :
    Returns P' x := fun s =>
  (hx s).mono fun _ hr a ha => h a (hr a ha)

theorem returns_map {P : β → Prop} {f : α → β} (hx : Returns (fun a => P (f a)) x) :
    Returns P (f <$> x) :=
  returns_bind hx fun _ h => returns_pure h

theorem Returns.run (hx : Returns P x) {W : Type} {answer : (o : S.Op) → W → S.Res o × W} {s s' : σ}
    {w w' : W} (h : Proc.run answer x s w = (.ok a, s', w')) : P a :=
  (hx s).run answer w a (congrArg Prod.fst h)

/-- The procedure does not fail, and what it returns satisfies `P`. -/
def Yields (P : α → Prop) (x : Proc S σ ε α) : Prop :=
  ∀ s, (x s).Returns fun r => ∃ a, r.1 = .ok a ∧ P a

theorem yields_pure (h : P a) : Yields P (pure a : Proc S σ ε α) :=
  fun _ => ⟨a, rfl, h⟩

theorem yields_get : Yields (fun _ => True) (get : Proc S σ ε σ) := fun s => ⟨s, rfl, trivial⟩

theorem yields_modify {f : σ → σ} : Yields (fun _ => True) (modify f : Proc S σ ε Unit) :=
  fun _ => ⟨(), rfl, trivial⟩

theorem yields_bind {P : β → Prop} {Q : α → Prop} (hx : Yields Q x) (hf : ∀ a, Q a →
    Yields P (f a)) :
    Yields P (x >>= f) := by
  intro s
  refine (hx s).bind ?_
  rintro ⟨r, s'⟩ ⟨a, hr, ha⟩
  obtain rfl : r = .ok a := hr
  exact hf a ha s'

theorem yields_attempt (hx : Returns P x) :
    Yields (fun r => ∀ a, r = .ok a → P a) (attempt x : Proc S σ ε' (Except ε α)) := by
  intro s
  refine (hx s).bind ?_
  rintro ⟨r, s'⟩ hr
  exact ⟨r, rfl, hr⟩

theorem yields_attempt_of_yields (hx : Yields P x) :
    Yields (fun r => ∃ a, r = .ok a ∧ P a) (attempt x : Proc S σ ε' (Except ε α)) := by
  intro s
  refine (hx s).bind ?_
  rintro ⟨r, s'⟩ hr
  exact ⟨r, rfl, hr⟩

end Returns

/-! ### Panics -/

section Fault

/-- How a Rust procedure may fail. -/
inductive Fault (ε : Type) : Type where
  /-- The procedure has stopped early. -/
  | failed (e : ε)
  /-- The procedure has panicked. -/
  | panicked
  deriving DecidableEq

/-- A procedure without panics, as one that can panic. -/
def sound (x : Proc S σ ε α) : Proc S σ (Fault ε) α := fun s =>
  (x s).bind fun r => .ret (r.1.mapError .failed, r.2)

/-- Rust's `unwrap`. -/
def orPanic : Option α → Proc S σ (Fault ε) α
  | some a => pure a
  | none => throw .panicked

/-- Run `x` and go on with its outcome.  A panic is not caught. -/
def attemptSound (x : Proc S σ (Fault ε) α) : Proc S σ (Fault ε) (Except ε α) := fun s =>
  (x s).bind fun
    | (.ok a, s) => .ret (.ok (.ok a), s)
    | (.error (.failed e), s) => .ret (.ok (.error e), s)
    | (.error .panicked, s) => .ret (.error .panicked, s)

@[simp]
theorem sound_pure (a : α) : sound (pure a : Proc S σ ε α) = pure a := rfl

@[simp]
theorem orPanic_some (a : α) : (orPanic (some a) : Proc S σ (Fault ε) α) = pure a := rfl

theorem sound_bind (x : Proc S σ ε α) (f : α → Proc S σ ε β) :
    sound (x >>= f) = sound x >>= fun a => sound (f a) := by
  funext s
  rw [sound, bind_apply, bind_apply, sound, Prog.bind_assoc, Prog.bind_assoc]
  congr 1
  funext r
  rcases r with ⟨_ | _, _⟩ <;> rfl

theorem attemptSound_sound (x : Proc S σ ε α) :
    attemptSound (sound x) = sound (attempt x : Proc S σ ε (Except ε α)) := by
  funext s
  unfold attemptSound sound attempt
  rw [Prog.bind_assoc, Prog.bind_assoc]
  congr 1
  funext r
  rcases r with ⟨_ | _, _⟩ <;> rfl

end Fault

/-! ### Marks -/

section Lift

variable {M : Type}

def lift (x : Proc S σ ε α) : Proc (S.withMarks M) σ ε α := fun s => (x s).lift

/-- Leaves a mark in the history. -/
def mark (m : M) : Proc (S.withMarks M) σ ε Unit := fun s =>
  .call (S := S.withMarks M) (.inr m) fun _ => .ret (.ok (), s)

variable {I : List (Event (S.withMarks M)) → S.Op ⊕ M → Prop} {s : σ}
  {h : List (Event (S.withMarks M))}

variable {x : Proc S σ ε α} {m : M}

theorem wp_lift {Q : Except ε α → σ → List (Event (S.withMarks M)) → Prop} :
    wp I (lift x : Proc (S.withMarks M) σ ε α) Q s h ↔
      wp (fun h' o => I (h'.map Prog.liftEvent ++ h) (.inl o)) x
        (fun r s h' => Q r s (h'.map Prog.liftEvent ++ h)) s [] :=
  Prog.wp_lift []

@[simp]
theorem wp_mark {Q : Except ε Unit → σ → List (Event (S.withMarks M)) → Prop} :
    wp I (mark m : Proc (S.withMarks M) σ ε Unit) Q s h ↔
      I h (.inr m) ∧ Q (.ok ()) s (⟨.inr m, ()⟩ :: h) :=
  and_congr Iff.rfl ⟨fun hq => hq (), fun hq _ => hq⟩

theorem returns_lift {P : α → Prop} (hx : Returns P x) :
    Returns P (lift x : Proc (S.withMarks M) σ ε α) := fun s => (hx s).lift

theorem yields_lift {P : α → Prop} (hx : Yields P x) :
    Yields P (lift x : Proc (S.withMarks M) σ ε α) := fun s => (hx s).lift

theorem yields_mark :
    Yields (fun _ => True) (mark m : Proc (S.withMarks M) σ ε Unit) := fun _ _ => ⟨(), rfl, trivial⟩

theorem run_lift {W : Type} {answer : (o : S.Op) → W → S.Res o × W} {w : W} :
    run (Prog.answerMarks answer) (lift x : Proc (S.withMarks M) σ ε α) s w = run answer x s w := by
  unfold run lift
  rw [Prog.run_lift]

@[simp]
theorem run_mark {W : Type} {answer : (o : S.Op) → W → S.Res o × W} {w : W} :
    run (Prog.answerMarks answer) (mark m : Proc (S.withMarks M) σ ε Unit) s w =
      (.ok (), s, w) := rfl

end Lift

/-! ### What a procedure keeps -/

/-- The procedure keeps `R`, of the private state and the history, with `I` at every call. -/
def Keeps (R : σ → List (Event S) → Prop) (I : List (Event S) → S.Op → Prop)
    (x : Proc S σ ε α) : Prop :=
  ∀ s h, R s h → wp I x (fun _ s h => R s h) s h

/-- The invariant `I` holds at every call of the procedure, whatever the history. -/
abbrev Always (I : List (Event S) → S.Op → Prop) (x : Proc S σ ε α) : Prop :=
  Keeps (fun _ _ => True) I x

/-- All calls are allowed ones. -/
abbrev Uses (allowed : S.Op → Prop) (x : Proc S σ ε α) : Prop :=
  Always (fun _ o => allowed o) x

section Keeps

variable {R : σ → List (Event S) → Prop} {I : List (Event S) → S.Op → Prop}

theorem keeps_pure {a : α} : Keeps R I (pure a : Proc S σ ε α) := fun _ _ => id

theorem keeps_throw {e : ε} : Keeps R I (throw e : Proc S σ ε α) := fun _ _ => id

theorem keeps_get : Keeps R I (get : Proc S σ ε σ) := fun _ _ => id

theorem keeps_modify {f : σ → σ} (hf : ∀ s h, R s h → R (f s) h) :
    Keeps R I (modify f : Proc S σ ε Unit) := hf

theorem keeps_perform {o : S.Op} (ho : ∀ s h, R s h → I h o)
    (hR : ∀ s h r, R s h → R s (⟨o, r⟩ :: h)) : Keeps R I (perform o : Proc S σ ε (S.Res o)) :=
  fun s h hs => ⟨ho s h hs, fun r => hR s h r hs⟩

variable {x : Proc S σ ε α}

theorem keeps_bind {f : α → Proc S σ ε β} (hx : Keeps R I x) (hf : ∀ a, Keeps R I (f a)) :
    Keeps R I (x >>= f) := by
  intro s h hs
  rw [wp_bind]
  refine wp_mono (hx s h hs) ?_
  rintro (e | a) s h hs
  · exact hs
  · exact hf a s h hs

/-- Procedures go on alike after a procedure if they do so from the states that it keeps to. -/
theorem Keeps.bind_congr {P : σ → Prop} {f g : α → Proc S σ ε β} (hx : Keeps (fun s _ => P s) I x)
    (hfg : ∀ a s, P s → f a s = g a s) {s : σ} (hs : P s) : (x >>= f) s = (x >>= g) s := by
  refine Prog.bind_congr_of_wp (hx s [] hs) ?_
  rintro ⟨e | a, s⟩ h hs
  · rfl
  · exact hfg a s hs

theorem keeps_map {f : α → β} (hx : Keeps R I x) : Keeps R I (f <$> x) :=
  keeps_bind hx fun _ => keeps_pure

theorem keeps_require {c : Bool} {e : ε} : Keeps R I (require c e : Proc S σ ε Unit) :=
  fun _ _ hs => wp_require.2 ⟨fun _ => hs, fun _ => hs⟩

theorem keeps_ofExcept {x : Except ε α} : Keeps R I (ofExcept x : Proc S σ ε α) :=
  fun _ _ hs => wp_ofExcept.2 hs

theorem keeps_when {c : Bool} {x : Proc S σ ε Unit} (hx : c = true → Keeps R I x) :
    Keeps R I (when c x) := fun s h hs =>
  wp_when.2 ⟨fun hc => hx hc s h hs, fun _ => hs⟩

theorem keeps_attempt (hx : Keeps R I x) :
    Keeps R I (attempt x : Proc S σ ε' (Except ε α)) := fun s h hs =>
  wp_attempt.2 (hx s h hs)

theorem keeps_forEach {f : α → Proc S σ ε Unit} {as : List α} (hf : ∀ a ∈ as, Keeps R I (f a)) :
    Keeps R I (forEach f as) := by
  induction as with
  | nil => exact keeps_pure
  | cons a as ih =>
    refine keeps_bind (hf a List.mem_cons_self) fun _ => ih fun b hb => ?_
    exact hf b (List.mem_cons_of_mem a hb)

theorem Keeps.weaken {I' : List (Event S) → S.Op → Prop} (hx : Keeps R I x)
    (hI : ∀ h o, I h o → I' h o) : Keeps R I' x := fun s h hs => wp_weaken (hx s h hs) hI

theorem Always.wp (hx : Always I x) (s : σ) (h : List (Event S)) :
    Proc.wp I x (fun _ _ _ => True) s h := hx s h trivial

theorem run_keeps {W : Type} {answer : (o : S.Op) → W → S.Res o × W} {allowed : S.Op → Prop}
    {J : W → Prop} (hJ : ∀ o, allowed o → ∀ w, J w → J (answer o w).2) {s : σ}
    {Q : Except ε α → σ → List (Event S) → Prop} (hx : wp (fun _ o => allowed o) x Q s []) {w : W}
    (hw : J w) : J (run answer x s w).2.2 :=
  Prog.run_keeps hJ hx hw

end Keeps

theorem keeps_call {P : σ → Prop} {I : List (Event S) → S.Op → Prop} {o : S.Op}
    (ho : ∀ h, I h o) : Keeps (fun s _ => P s) I (perform o : Proc S σ ε (S.Res o)) :=
  keeps_perform (fun _ h _ => ho h) fun _ _ _ => id

theorem always_lift {M : Type} {I : List (Event S) → S.Op → Prop}
    {K : List (Event (S.withMarks M)) → S.Op ⊕ M → Prop} {x : Proc S σ ε α} (hx : Always I x)
    (hK : ∀ e h o, I e o → K (e.map Prog.liftEvent ++ h) (.inl o)) :
    Always K (lift x : Proc (S.withMarks M) σ ε α) := by
  intro s h _
  refine wp_lift.2 (wp_mono (wp_weaken (hx s [] trivial) ?_) fun _ _ _ _ => trivial)
  exact fun e o ho => hK e h o ho

/-! ### Walking through a procedure

`Walks R I x` is `Keeps R I x` in the form that instance search proves.  The search walks through
the procedure: the instances are the rules of `Keeps`, and a proof by hand only takes over where
the procedure branches on data or where a call needs an argument of its own. -/

/-- The type of a result.  Search does not compare it: the result types of calls are computed. -/
class Result where
  type : Type

/-- See `Walks`. -/
class Walking (R : σ → List (Event S) → Prop) (I : List (Event S) → S.Op → Prop) [r : Result]
    (x : Proc S σ ε r.type) : Prop where
  keeps : Keeps R I x

/-- The procedure keeps `R`, and `I` holds at its calls. -/
abbrev Walks (R : σ → List (Event S) → Prop) (I : List (Event S) → S.Op → Prop)
    (x : Proc S σ ε α) : Prop :=
  Walking (r := ⟨α⟩) R I x

/-- The property stays when the history grows. -/
class Lasts (R : σ → List (Event S) → Prop) : Prop where
  cons : ∀ s ev h, R s h → R s (ev :: h)

/-- The invariant holds at the call, whatever the history. -/
class Allows (I : List (Event S) → S.Op → Prop) (o : S.Op) : Prop where
  call : ∀ h, I h o

/-- The value is `false`, found by evaluation. -/
class Off (b : Bool) : Prop where
  eq : b = false

instance off_false : Off false := ⟨rfl⟩

instance allows_off {f : S.Op → Bool} {o : S.Op} [h : Off (f o)] :
    Allows (fun _ o => f o = false) o := ⟨fun _ => h.eq⟩

instance lasts_state {P : σ → Prop} : Lasts (S := S) fun s _ => P s := ⟨fun _ _ _ => id⟩

section Walks

variable {R : σ → List (Event S) → Prop} {I : List (Event S) → S.Op → Prop} {x : Proc S σ ε α}

variable {s : σ} {h : List (Event S)} {f : α → Proc S σ ε β}

theorem Lasts.of_suffix [Lasts R] {h' : List (Event S)} (hs : h <:+ h') (hR : R s h) : R s h' := by
  obtain ⟨l, rfl⟩ := hs
  induction l with
  | nil => exact hR
  | cons ev l ih => exact Lasts.cons s ev _ ih

theorem Keeps.walks (hx : Keeps R I x) : Walks R I x := Walking.mk (r := ⟨α⟩) hx

theorem walked [Walks R I x] : Keeps R I x := Walking.keeps (r := ⟨α⟩)

instance walks_pure {a : α} : Walks R I (pure a : Proc S σ ε α) := keeps_pure.walks

instance walks_throw {e : ε} : Walks R I (throw e : Proc S σ ε α) := keeps_throw.walks

instance walks_get : Walks R I (get : Proc S σ ε σ) := keeps_get.walks

instance walks_modify {T : List (Event S) → Prop} {f : σ → σ} :
    Walks (fun _ h => T h) I (modify f : Proc S σ ε Unit) :=
  Keeps.walks (keeps_modify fun _ _ => id)

instance walks_perform {o : S.Op} [Lasts R] [ho : Allows I o] :
    Walks R I (perform o : Proc S σ ε (S.Res o)) :=
  (keeps_perform (fun _ h _ => ho.call h) fun s h _ => Lasts.cons s _ h).walks

instance walks_bind {f : α → Proc S σ ε β} [Walks R I x] [hf : ∀ a, Walks R I (f a)] :
    Walks R I (x >>= f) :=
  (keeps_bind walked fun a => (hf a).keeps).walks

instance walks_map {f : α → β} [Walks R I x] : Walks R I (f <$> x) := (keeps_map walked).walks

instance walks_require {c : Bool} {e : ε} : Walks R I (require c e : Proc S σ ε Unit) :=
  keeps_require.walks

instance walks_ofExcept {r : Except ε α} : Walks R I (ofExcept r : Proc S σ ε α) :=
  keeps_ofExcept.walks

instance walks_when {c : Bool} {x : Proc S σ ε Unit} [Walks R I x] : Walks R I (when c x) :=
  (keeps_when fun _ => walked).walks

instance walks_attempt [Walks R I x] : Walks R I (attempt x : Proc S σ ε' (Except ε α)) :=
  (keeps_attempt walked).walks

instance walks_forEach {f : β → Proc S σ ε Unit} {bs : List β} [hf : ∀ b, Walks R I (f b)] :
    Walks R I (forEach f bs) :=
  (keeps_forEach fun b _ => (hf b).keeps).walks

instance walks_ite {c : Prop} [Decidable c] {y : Proc S σ ε α} [Walks R I x] [Walks R I y] :
    Walks R I (if c then x else y) := by
  split <;> assumption

theorem walks_seq (hx : Walks R I x) (hf : ∀ a, Walks R I (f a)) :
    Walks R I (x >>= f) := walks_bind

theorem walks_step [hx : Walks R I x] (hf : ∀ a, Walks R I (f a)) :
    Walks R I (x >>= f) := walks_seq hx hf

theorem keeps_step [Walks R I x] (hf : ∀ a, Keeps R I (f a)) :
    Keeps R I (x >>= f) := keeps_bind walked hf

theorem wp_onOk_true (hx : wp I x (fun _ _ _ => True) s h) :
    wp I x (onOk (fun _ _ _ => True) fun _ _ _ => True) s h :=
  wp_mono hx fun r _ _ _ => by cases r <;> trivial

theorem wp_step [Walks R I x] (hR : R s h)
    (hf : ∀ a s h, R s h → wp I (f a) (fun _ _ _ => True) s h) :
    wp I (x >>= f) (fun _ _ _ => True) s h := by
  refine wp_bind.2 (wp_mono (walked s h hR) ?_)
  rintro (err | a) s' h' hr
  · trivial
  · exact hf a s' h' hr

theorem wp_skip [Walks (fun _ _ => True) I x] (hf : ∀ a s h, wp I (f a) (fun _ _ _ => True) s h) :
    wp I (x >>= f) (fun _ _ _ => True) s h :=
  wp_step (R := fun _ _ => True) trivial fun a s h _ => hf a s h

theorem wp_forEach_shown {f : β → Proc S σ ε Unit} {bs : List β} {T : β → List (Event S) → Prop}
    [∀ b, Lasts (σ := σ) fun _ h => T b h] (hf : ∀ b, Keeps (fun _ h => T b h) I (f b))
    (hT : ∀ b ∈ bs, T b h) : wp I (forEach f bs) (fun _ _ _ => True) s h := by
  refine wp_mono (Q := onOk (fun _ _ _ => True) fun _ _ h => ∀ b ∈ bs, T b h) (wp_forEach ?_ hT)
    fun _ _ _ _ => trivial
  intro b hb s h hall
  refine wp_mono (wp_grows (hf b s h (hall b hb))) ?_
  rintro (err | u) s' h' ⟨-, hs⟩
  · trivial
  · intro b' hb'
    exact Lasts.of_suffix (R := fun (_ : σ) h => T b' h) (s := s) hs (hall b' hb')

end Walks

-- from here on preconditions are computed by their rules only
attribute [irreducible] wp

end Proc
