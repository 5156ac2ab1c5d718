import RustSmb.Lib.Prog

/-!
# One program in a world that changes

A program runs alone, but before each of its calls, and at its end, the world may drift.

## Main results

* `Prog.exec_ret`, `Prog.exec_call`, `Prog.exec_bind` — the rules.
* `Prog.exec_run` — **a program returns if all calls are answered.**
* `Proc.meets_pure`, `Proc.meets_perform`, `Proc.meets_bind` — the rules for postconditions.
-/

namespace Prog

variable {S : Signature} {W α β : Type}

/-- What a program returns and where it leads, if the world may drift. -/
inductive Exec (exec : W → (o : S.Op) → S.Res o → W → Prop) (drift : W → W → Prop) :
    Prog S α → W → α → W → Prop where
  | ret {w w' : W} (a : α) (hdrift : drift w w') : Exec exec drift (.ret a) w a w'
  | call {w w₁ w₂ w' : W} {a : α} (o : S.Op) (k : S.Res o → Prog S α) (r : S.Res o)
      (hdrift : drift w w₁) (hexec : exec w₁ o r w₂) (hrest : Exec exec drift (k r) w₂ a w') :
      Exec exec drift (.call o k) w a w'

variable {exec : W → (o : S.Op) → S.Res o → W → Prop} {drift : W → W → Prop} {w w' : W}

theorem exec_ret {a b : α} : Exec exec drift (.ret a : Prog S α) w b w' ↔ b = a ∧ drift w w' := by
  constructor
  · rintro ⟨⟩
    exact ⟨rfl, by assumption⟩
  · rintro ⟨rfl, hdrift⟩
    exact .ret b hdrift

theorem exec_call {o : S.Op} {k : S.Res o → Prog S α} {a : α} :
    Exec exec drift (.call o k) w a w' ↔
      ∃ w₁ r w₂, drift w w₁ ∧ exec w₁ o r w₂ ∧ Exec exec drift (k r) w₂ a w' := by
  constructor
  · intro h
    cases h with
    | call _ _ r hdrift hexec hrest => exact ⟨_, r, _, hdrift, hexec, hrest⟩
  · rintro ⟨w₁, r, w₂, hdrift, hexec, hrest⟩
    exact .call o k r hdrift hexec hrest

section

variable (htrans : ∀ w₁ w₂ w₃, drift w₁ w₂ → drift w₂ w₃ → drift w₁ w₃)

include htrans

theorem Exec.of_drift {p : Prog S α} {w₁ : W} {a : α} (hdrift : drift w w₁)
    (h : Exec exec drift p w₁ a w') : Exec exec drift p w a w' := by
  cases h with
  | ret a hdrift' => exact .ret a (htrans _ _ _ hdrift hdrift')
  | call o k r hdrift' hexec hrest => exact .call o k r (htrans _ _ _ hdrift hdrift') hexec hrest

/-- One program after another; a drift in between happens before the next call. -/
theorem exec_bind (hrefl : ∀ w, drift w w) {p : Prog S α} {f : α → Prog S β} {b : β} :
    Exec exec drift (p.bind f) w b w' ↔
      ∃ a w₁, Exec exec drift p w a w₁ ∧ Exec exec drift (f a) w₁ b w' := by
  induction p generalizing w with
  | ret a =>
    constructor
    · exact fun h => ⟨a, w, .ret a (hrefl w), h⟩
    · rintro ⟨a', w₁, h, hrest⟩
      obtain ⟨rfl, hdrift⟩ := exec_ret.1 h
      exact hrest.of_drift htrans hdrift
  | call o k ih =>
    rw [call_bind, exec_call]
    constructor
    · rintro ⟨w₁, r, w₂, hdrift, hexec, hrest⟩
      obtain ⟨a, w₃, hfirst, hrest⟩ := (ih r).1 hrest
      exact ⟨a, w₃, .call o k r hdrift hexec hfirst, hrest⟩
    · rintro ⟨a, w₃, hfirst, hrest⟩
      obtain ⟨w₁, r, w₂, hdrift, hexec, hfirst⟩ := exec_call.1 hfirst
      exact ⟨w₁, r, w₂, hdrift, hexec, (ih r).2 ⟨a, w₃, hfirst, hrest⟩⟩

end

/-- **A program returns if all calls are answered**, for instance if nothing drifts. -/
theorem exec_run (hrefl : ∀ w, drift w w) {answer : (o : S.Op) → W → S.Res o × W}
    (hans : ∀ o w, exec w o (answer o w).1 (answer o w).2) (p : Prog S α) (w : W) :
    Exec exec drift p w (p.run answer w).1 (p.run answer w).2 := by
  induction p generalizing w with
  | ret a => exact .ret a (hrefl w)
  | call o k ih => exact .call o k _ (hrefl w) (hans o w) (ih _ _)

end Prog

namespace Proc

variable {S : Signature} {W σ ε α β : Type}

/-- Whatever the procedure returns, and wherever it leads, meets a postcondition. -/
def Meets (exec : W → (o : S.Op) → S.Res o → W → Prop) (drift : W → W → Prop)
    (x : Proc S σ ε α) (Q : Except ε α → σ → W → Prop) (s : σ) (w : W) : Prop :=
  ∀ r w', Prog.Exec exec drift (x s) w r w' → Q r.1 r.2 w'

variable {exec : W → (o : S.Op) → S.Res o → W → Prop} {drift : W → W → Prop} {s : σ} {w : W}
  {Q Q' : Except ε α → σ → W → Prop}

theorem meets_pure {a : α} (h : ∀ w', drift w w' → Q (.ok a) s w') :
    Meets exec drift (pure a) Q s w := by
  intro r w' hexec
  obtain ⟨rfl, hdrift⟩ := Prog.exec_ret.1 hexec
  exact h w' hdrift

theorem meets_throw {e : ε} (h : ∀ w', drift w w' → Q (.error e) s w') :
    Meets exec drift (throw e) Q s w := by
  intro r w' hexec
  obtain ⟨rfl, hdrift⟩ := Prog.exec_ret.1 hexec
  exact h w' hdrift

theorem meets_ofExcept {r : Except ε α} (h : ∀ w', drift w w' → Q r s w') :
    Meets exec drift (ofExcept r) Q s w := by
  cases r with
  | ok a => exact meets_pure h
  | error e => exact meets_throw h

theorem meets_perform {o : S.Op} {Q : Except ε (S.Res o) → σ → W → Prop}
    (h : ∀ w₁ r w₂ w₃, drift w w₁ → exec w₁ o r w₂ → drift w₂ w₃ → Q (.ok r) s w₃) :
    Meets exec drift (perform o) Q s w := by
  intro r w' hexec
  obtain ⟨w₁, r₁, w₂, hdrift, hcall, hrest⟩ := Prog.exec_call.1 hexec
  obtain ⟨rfl, hdrift'⟩ := Prog.exec_ret.1 hrest
  exact h w₁ r₁ w₂ w' hdrift hcall hdrift'

section Bind

variable (htrans : ∀ w₁ w₂ w₃, drift w₁ w₂ → drift w₂ w₃ → drift w₁ w₃) (hrefl : ∀ w, drift w w)

include htrans hrefl

theorem meets_bind {x : Proc S σ ε α} {f : α → Proc S σ ε β} {R : Except ε β → σ → W → Prop}
    (hx : Meets exec drift x Q s w)
    (hf : ∀ a s' w', Q (.ok a) s' w' → Meets exec drift (f a) R s' w')
    (he : ∀ e s' w' w'', Q (.error e) s' w' → drift w' w'' → R (.error e) s' w'') :
    Meets exec drift (x >>= f) R s w := by
  intro r w' hexec
  obtain ⟨⟨r₁, s₁⟩, w₁, hfirst, hrest⟩ := (Prog.exec_bind htrans hrefl).1 hexec
  have hQ := hx _ _ hfirst
  cases r₁ with
  | ok a => exact hf a s₁ w₁ hQ r w' hrest
  | error e =>
    obtain ⟨rfl, hdrift⟩ := Prog.exec_ret.1 hrest
    exact he e s₁ w₁ w' hQ hdrift

end Bind

end Proc
