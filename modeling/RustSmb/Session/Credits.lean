import Mathlib.Algebra.BigOperators.Group.List.Basic
import RustSmb.Lib.Ledger
import RustSmb.Session.Connection

/-!
# Credits under concurrency

The credit balance is an atomic number.  `consume` and `grant` read it, compute a new value and try
to swap it in, as often as it takes; then they add the difference to a counter of their own.  The
calls of any number of threads interleave at these steps, and a swap may fail without a reason.

The retry loop of a call is a sequence of turns.  A thread keeps what it asked for between two
turns of one call.

## Main results

* `consumeTurn_run`, `grantTurn_run` — a thread that is alone does what the functions of
  `CreditManager` do.
* `CreditManager.cycles_supply` — **each response grants something while there is room.**
* `credits_conserved` — **the balance stays in its limits, and between calls the counters agree with
  it.**

Source: `rustsmb-session/src/credits.rs`.
-/

namespace RustSmb

/-! ### One turn of the loops -/

/-- The atomic steps on a manager. -/
inductive CreditOp where
  /-- Read the balance. -/
  | load
  /-- Replace the balance if it is as expected; the step may fail all the same. -/
  | compareExchangeWeak (current new : UInt16)
  /-- Add to the total of consumed credits. -/
  | addConsumed (n : UInt64)
  /-- Add to the total of granted credits. -/
  | addGranted (n : UInt64)

abbrev CreditOp.Res : CreditOp → Type
  | load => UInt16
  | compareExchangeWeak _ _ => Bool
  | addConsumed _ | addGranted _ => Unit

abbrev Credits : Signature := ⟨CreditOp, CreditOp.Res⟩

namespace CreditManager

/-- One turn of the loop of `consume`: what the call returns, or nothing if the loop goes on. -/
def consumeTurn (charge : UInt16) : Prog Credits (Option (Option UInt16)) :=
  .call .load fun current =>
    if current < charge then .ret (some none)
    else
      .call (.compareExchangeWeak current (current - charge)) fun swapped =>
        if swapped then .call (.addConsumed charge.toUInt64) fun _ => .ret (some (some charge))
        else .ret none

/-- One turn of the grant's loop; `none` says to try again. -/
def grantTurn (maxCredits credits : UInt16) : Prog Credits (Option UInt16) :=
  .call .load fun current =>
    let actual := min credits (saturatingSub maxCredits current)
    if actual = 0 then .ret (some 0)
    else
      .call (.compareExchangeWeak current (current + actual)) fun swapped =>
        if swapped then .call (.addGranted actual.toUInt64) fun _ => .ret (some actual)
        else .ret none

/-- The steps of a thread that is alone; its swaps succeed when they can. -/
def answer : (o : CreditOp) → CreditManager → o.Res × CreditManager
  | .load, m => (m.available, m)
  | .compareExchangeWeak current new, m =>
      if m.available = current then (true, { m with available := new }) else (false, m)
  | .addConsumed n, m => ((), { m with consumed := m.consumed + n })
  | .addGranted n, m => ((), { m with granted := m.granted + n })

/-- **A thread that is alone consumes as `consume` says, in one turn.** -/
theorem consumeTurn_run (m : CreditManager) (creditCharge : UInt16) :
    (consumeTurn (max creditCharge 1)).run answer m =
      (some (m.consume creditCharge).1, (m.consume creditCharge).2) := by
  by_cases h : m.available < max creditCharge 1
  · simp [consumeTurn, consume, h, answer]
  · simp [consumeTurn, consume, h, answer]

/-- **A thread that is alone grants as `grant` says, in one turn.** -/
theorem grantTurn_run (m : CreditManager) {credits : UInt16} (hc : credits ≠ 0) :
    (grantTurn m.config.maxCredits credits).run answer m =
      (some (m.grant credits).1, (m.grant credits).2) := by
  by_cases h : min credits (saturatingSub m.config.maxCredits m.available) = 0
  · simp [grantTurn, grant, hc, h, answer]
  · simp [grantTurn, grant, hc, h, answer]

end CreditManager

/-! ### Cycles -/

namespace CreditManager

/-- A request and its response: what is charged, and what is asked for in return. -/
structure Cycle where
  creditCharge : UInt16
  requested : UInt16
  isAsync : Bool

/-- The balance at which the grant of a cycle is calculated. -/
def charged (m : CreditManager) (x : Cycle) : CreditManager := (m.consume x.creditCharge).2

/-- A request's charge and the grant of its response. -/
def cycle (m : CreditManager) (x : Cycle) : UInt16 × CreditManager :=
  (m.charged x).grant ((m.charged x).calculateGrant x.requested x.isAsync)

/-- A cycle grants what was calculated, as much as was asked for if there is room, and leaves a
balance. -/
structure Supplies (m : CreditManager) (x : Cycle) : Prop where
  granted : (m.cycle x).1 = (m.charged x).calculateGrant x.requested x.isAsync
  enough : min (max x.requested.toNat 1)
    (m.config.maxCredits.toNat - (m.charged x).available.toNat) ≤ (m.cycle x).1.toNat
  pos : 1 ≤ (m.cycle x).2.available
  le_max : (m.cycle x).2.available ≤ m.config.maxCredits

variable {m : CreditManager} {x : Cycle}

theorem calculateGrant_bounds (hadapt : m.config.adaptiveGrants = true) (requested : UInt16)
    (isAsync : Bool) :
    (m.calculateGrant requested isAsync).toNat ≤ m.config.maxCredits.toNat - m.available.toNat ∧
      min (max requested.toNat 1) (m.config.maxCredits.toNat - m.available.toNat) ≤
        (m.calculateGrant requested isAsync).toNat := by
  have hroom := toNat_saturatingSub m.config.maxCredits m.available
  have hrequested := requested.toNat_lt
  unfold calculateGrant
  simp only [hadapt, Bool.not_true, Bool.false_eq_true, if_false]
  split
  · next hfull =>
    rw [hfull] at hroom
    simp [← hroom]
  · -- the base is at least one and what is requested; every adjustment raises it
    split_ifs <;> simp_all [toNat_max, toNat_min, toNat_saturatingAdd, toNat_saturatingMul,
      UInt16.lt_iff_toNat_lt] <;> omega

theorem grant_of_room {credits : UInt16}
    (hroom : credits.toNat ≤ m.config.maxCredits.toNat - m.available.toNat) :
    (m.grant credits).1 = credits ∧
      (m.grant credits).2.available.toNat = m.available.toNat + credits.toNat := by
  have hmin : min credits (saturatingSub m.config.maxCredits m.available) = credits := by
    rw [← UInt16.toNat_inj, toNat_min, toNat_saturatingSub]
    omega
  have hlt := m.config.maxCredits.toNat_lt
  unfold grant
  by_cases hzero : credits = 0
  · simp [hzero]
  · have hpos : credits.toNat ≠ 0 := fun h => hzero (UInt16.toNat_inj.1 h)
    simp only [hzero, if_false, hmin, UInt16.toNat_add, true_and]
    omega

theorem charged_le (hle : m.available ≤ m.config.maxCredits) :
    (m.charged x).available ≤ m.config.maxCredits ∧ (m.charged x).config = m.config := by
  unfold charged consume
  dsimp only
  split
  · exact ⟨hle, rfl⟩
  · next hlt =>
    refine ⟨UInt16.le_trans ?_ hle, rfl⟩
    rw [UInt16.le_iff_toNat_le, UInt16.toNat_sub_of_le _ _ (UInt16.not_lt.1 hlt)]
    exact Nat.sub_le _ _

theorem supplies_of_le (hadapt : m.config.adaptiveGrants = true)
    (hmax : 1 ≤ m.config.maxCredits) (hle : m.available ≤ m.config.maxCredits) (x : Cycle) :
    m.Supplies x ∧ (m.cycle x).2.config = m.config := by
  obtain ⟨hcharged, hcfg⟩ := charged_le (x := x) hle
  obtain ⟨hroom, henough⟩ := calculateGrant_bounds (m := m.charged x)
    (by rwa [hcfg]) x.requested x.isAsync
  obtain ⟨hgrant, havailable⟩ := grant_of_room hroom
  rw [hcfg] at hroom henough
  have hone : (1 : UInt16).toNat = 1 := rfl
  rw [UInt16.le_iff_toNat_le] at hcharged hmax
  refine ⟨⟨hgrant, ?_, ?_, ?_⟩, ?_⟩
  · unfold cycle
    rwa [hgrant]
  · unfold cycle
    rw [UInt16.le_iff_toNat_le, havailable]
    omega
  · unfold cycle
    rw [UInt16.le_iff_toNat_le, havailable]
    omega
  · rw [← hcfg]
    unfold cycle grant
    dsimp only
    split
    · rfl
    · split <;> rfl

/-- **Clients do not starve**: in every run of cycles, each grants exactly what was calculated, as
much as was asked for and at least one credit while there is room, and leaves a balance within the
limit. -/
theorem cycles_supply (hadaptive : m.config.adaptiveGrants = true)
    (hmax : 1 ≤ m.config.maxCredits) (hle : m.available ≤ m.config.maxCredits)
    (cycles : List Cycle) (x : Cycle) :
    (cycles.foldl (fun m x => (m.cycle x).2) m).Supplies x ∧
      (cycles.foldl (fun m x => (m.cycle x).2) m).config = m.config := by
  induction cycles generalizing m with
  | nil => exact ⟨(supplies_of_le hadaptive hmax hle x).1, rfl⟩
  | cons y cycles ih =>
    obtain ⟨hy, hcfg⟩ := supplies_of_le hadaptive hmax hle y
    have hnext := ih (by rwa [hcfg]) (by rwa [hcfg]) (by rw [hcfg]; exact hy.le_max)
    rwa [hcfg] at hnext

/-- The second request follows one that a balance of two cannot pay. -/
theorem cycles_supply_poor : ∃ m : CreditManager, m.available = 2 ∧
    (m.cycle ⟨9, 9, true⟩).2.Supplies ⟨1, 0, false⟩ :=
  ⟨.withConfig { initialCredits := 2, maxCredits := 4 }, rfl,
    (cycles_supply (m := .withConfig { initialCredits := 2, maxCredits := 4 }) rfl (by decide)
      (by decide) [⟨9, 9, true⟩] ⟨1, 0, false⟩).1⟩

end CreditManager

/-! ### Threads -/

/-- Where a thread is between two turns. -/
inductive Caller where
  /-- It has no call in progress. -/
  | idle
  /-- It is in a call of `consume`. -/
  | consuming (charge : UInt16)
  /-- It is in a call of `grant`. -/
  | granting (credits : UInt16)

namespace Caller

open CreditManager

/-- A failed exchange starts over. -/
def afterConsume (charge : UInt16) : Option (Option UInt16) → Caller
  | none => consuming charge
  | some _ => idle

/-- A failed exchange starts over. -/
def afterGrant (credits : UInt16) : Option UInt16 → Caller
  | none => granting credits
  | some _ => idle

/-- The turns of a thread: the first of a new call, or the next of its call.  A `grant` of
nothing takes none. -/
inductive Starts (maxCredits : UInt16) : Caller → Prog Credits Caller → Prop where
  | consume (creditCharge : UInt16) : Starts maxCredits idle
      ((consumeTurn (max creditCharge 1)).bind fun r => .ret (afterConsume (max creditCharge 1) r))
  | consumeAgain (charge : UInt16) : Starts maxCredits (consuming charge)
      ((consumeTurn charge).bind fun r => .ret (afterConsume charge r))
  | grant (credits : UInt16) (hc : credits ≠ 0) : Starts maxCredits idle
      ((grantTurn maxCredits credits).bind fun r => .ret (afterGrant credits r))
  | grantAgain (credits : UInt16) : Starts maxCredits (granting credits)
      ((grantTurn maxCredits credits).bind fun r => .ret (afterGrant credits r))

end Caller

/-- The atomic steps.  A swap succeeds on the expected balance; one that fails changes nothing. -/
inductive CreditStep (m : CreditManager) : (o : CreditOp) → o.Res → CreditManager → Prop where
  | load : CreditStep m .load m.available m
  | swapped (new : UInt16) :
      CreditStep m (.compareExchangeWeak m.available new) true { m with available := new }
  | failed (current new : UInt16) : CreditStep m (.compareExchangeWeak current new) false m
  | addConsumed (n : UInt64) :
      CreditStep m (.addConsumed n) () { m with consumed := m.consumed + n }
  | addGranted (n : UInt64) :
      CreditStep m (.addGranted n) () { m with granted := m.granted + n }

/-- Callers on one manager, interleaved step by step. -/
abbrev creditMachine (ι : Type) (maxCredits : UInt16) : Machine Credits where
  World := CreditManager
  Actor := ι
  Local := Caller
  start _ := Caller.Starts maxCredits
  exec := CreditStep
  env _ _ := False

/-- A fresh balance, and no call in progress. -/
structure CreditInit (ι : Type) (config : CreditConfig)
    (c : (creditMachine ι config.maxCredits).Config) : Prop where
  fresh : c.world = .withConfig config
  idle : ∀ i, c.phase i = .idle .idle

/-! ### The books -/

namespace CreditOp

/-- The credits that the step counts as granted. -/
def granted : CreditOp → ℕ
  | addGranted n => n.toNat
  | _ => 0

/-- The credits that the step counts as consumed. -/
def consumed : CreditOp → ℕ
  | addConsumed n => n.toNat
  | _ => 0

end CreditOp

/-- By how much the last step of a thread has lowered the balance, as a number that does not
wrap. -/
def swappedOut : List (Event Credits) → ℤ
  | ⟨.compareExchangeWeak current new, true⟩ :: _ => current.toNat - new.toNat
  | _ => 0

/-- A thread counts exactly what its last swap has moved, before anything else; and a swap that
does not lower the balance stays within the limit. -/
def InBooks (maxCredits : UInt16) (h : List (Event Credits)) : CreditOp → Prop
  | .load => swappedOut h = 0
  | .compareExchangeWeak current new => swappedOut h = 0 ∧ (new ≤ current ∨ new ≤ maxCredits)
  | .addConsumed n => swappedOut h = n.toNat
  | .addGranted n => swappedOut h = -n.toNat

open CreditManager

theorem toNat_sub_of_not_lt {current charge : UInt16} (h : ¬ current < charge) :
    (current.toNat : ℤ) - (current - charge).toNat = charge.toUInt64.toNat := by
  have hle : charge ≤ current := UInt16.not_lt.1 h
  rw [UInt16.toNat_sub_of_le _ _ hle, UInt16.toNat_toUInt64]
  have := UInt16.le_iff_toNat_le.1 hle
  omega

theorem toNat_add_grant {maxCredits current credits : UInt16}
    (h : min credits (saturatingSub maxCredits current) ≠ 0) :
    current.toNat + (min credits (saturatingSub maxCredits current)).toNat ≤ maxCredits.toNat := by
  have hpos : (min credits (saturatingSub maxCredits current)).toNat ≠ 0 := fun hzero =>
    h (UInt16.toNat_inj.1 hzero)
  rw [toNat_min, toNat_saturatingSub] at hpos ⊢
  omega

variable {maxCredits : UInt16} {h : List (Event Credits)}

theorem consumeTurn_wp (charge : UInt16) (hh : swappedOut h = 0) :
    (consumeTurn charge).wp (InBooks maxCredits) (fun _ h' => swappedOut h' = 0) h := by
  unfold consumeTurn
  refine ⟨hh, fun current => ?_⟩
  dsimp only
  split
  · rfl
  next hlt =>
  refine ⟨⟨rfl, .inl ?_⟩, fun swapped => ?_⟩
  · have hle : charge ≤ current := UInt16.not_lt.1 hlt
    rw [UInt16.le_iff_toNat_le, UInt16.toNat_sub_of_le _ _ hle]
    exact Nat.sub_le _ _
  · cases swapped with
    | false => rfl
    | true => exact ⟨toNat_sub_of_not_lt hlt, fun _ => rfl⟩

theorem grantTurn_wp (credits : UInt16) (hh : swappedOut h = 0) :
    (grantTurn maxCredits credits).wp (InBooks maxCredits) (fun _ h' => swappedOut h' = 0) h := by
  unfold grantTurn
  refine ⟨hh, fun current => ?_⟩
  dsimp only
  split
  · rfl
  next hne =>
  have hle := toNat_add_grant hne
  have hadd : (current + min credits (saturatingSub maxCredits current)).toNat =
      current.toNat + (min credits (saturatingSub maxCredits current)).toNat := by
    have hlt := maxCredits.toNat_lt
    rw [UInt16.toNat_add, Nat.mod_eq_of_lt (by omega)]
  refine ⟨⟨rfl, .inr ?_⟩, fun swapped => ?_⟩
  · rw [UInt16.le_iff_toNat_le, hadd]
    exact hle
  · cases swapped with
    | false => rfl
    | true =>
      refine ⟨?_, fun _ => rfl⟩
      change (current.toNat : ℤ) - UInt16.toNat _ = -(UInt64.toNat (UInt16.toUInt64 _) : ℤ)
      rw [hadd, UInt16.toNat_toUInt64]
      omega

theorem starts_wp {s : Caller} {p : Prog Credits Caller} (hp : s.Starts maxCredits p)
    (hh : swappedOut h = 0) : p.wp (InBooks maxCredits) (fun _ h' => swappedOut h' = 0) h := by
  cases hp with
  | consume _ | consumeAgain _ => exact Prog.wp_bind.2 (consumeTurn_wp _ hh)
  | grant _ _ | grantAgain _ => exact Prog.wp_bind.2 (grantTurn_wp _ hh)

/-! ### In every run -/

section Runs

variable {ι : Type} [DecidableEq ι] {config : CreditConfig}
  {c : (creditMachine ι config.maxCredits).Config}
  {tr : List (ι × (creditMachine ι config.maxCredits).Stamped)}

omit [DecidableEq ι] in
theorem CreditInit.start (hc : CreditInit ι config c) (i : ι) :
    ∃ s, c.phase i = .idle s ∧ swappedOut [] = 0 :=
  ⟨.idle, hc.idle i, rfl⟩

theorem available_le (hle : config.initialCredits ≤ config.maxCredits)
    (hrun : Machine.Run (CreditInit ι config) c tr) :
    c.world.available ≤ config.maxCredits := by
  apply hrun.invariant (fun _ hc i => hc.start i) (fun _ _ _ _ hp hh => starts_wp hp hh)
    (fun m _ => m.available ≤ config.maxCredits)
  · intro c hc
    rw [hc.fresh]
    exact hle
  · intro w w' tr hw
    exact hw.elim
  · intro i tr o r m m' hbooks hstep hm
    cases hstep with
    | swapped new =>
      rcases hbooks.2 with hlower | hlimit
      · exact UInt16.le_trans hlower hm
      · exact hlimit
    | _ => exact hm

/-- The balance as a ledger: what is consumed leaves it, what is granted enters it. -/
def creditLedger (ι : Type) (maxCredits : UInt16) : (creditMachine ι maxCredits).Ledger ℤ where
  value m := m.available.toNat
  booked e := e.1.consumed - e.1.granted
  owed := swappedOut

def grantedIn (tr : List (ι × (creditMachine ι config.maxCredits).Stamped)) : ℕ :=
  (tr.map fun x => x.2.event.1.granted).sum

def consumedIn (tr : List (ι × (creditMachine ι config.maxCredits).Stamped)) : ℕ :=
  (tr.map fun x => x.2.event.1.consumed).sum

omit [DecidableEq ι] in
theorem grantedIn_cons (x : ι × (creditMachine ι config.maxCredits).Stamped)
    (tr : List (ι × (creditMachine ι config.maxCredits).Stamped)) :
    grantedIn (x :: tr) = x.2.event.1.granted + grantedIn tr := by
  simp [grantedIn]

omit [DecidableEq ι] in
theorem consumedIn_cons (x : ι × (creditMachine ι config.maxCredits).Stamped)
    (tr : List (ι × (creditMachine ι config.maxCredits).Stamped)) :
    consumedIn (x :: tr) = x.2.event.1.consumed + consumedIn tr := by
  simp [consumedIn]

omit [DecidableEq ι] in
theorem books_creditLedger (tr : List (ι × (creditMachine ι config.maxCredits).Stamped)) :
    (creditLedger ι config.maxCredits).books tr = consumedIn tr - grantedIn tr := by
  induction tr with
  | nil => rfl
  | cons x tr ih =>
    rw [Machine.Ledger.books_cons, ih, consumedIn_cons, grantedIn_cons]
    simp only [creditLedger, Nat.cast_add]
    omega

theorem counters_eq (hrun : Machine.Run (CreditInit ι config) c tr) :
    c.world.consumed = UInt64.ofNat (consumedIn tr) ∧
      c.world.granted = UInt64.ofNat (config.initialCredits.toNat + grantedIn tr) := by
  apply hrun.invariant (fun _ hc i => hc.start i) (fun _ _ _ _ hp hh => starts_wp hp hh)
    (fun m tr => m.consumed = UInt64.ofNat (consumedIn tr) ∧
      m.granted = UInt64.ofNat (config.initialCredits.toNat + grantedIn tr))
  · intro c hc
    rw [hc.fresh]
    refine ⟨rfl, ?_⟩
    simp [CreditManager.withConfig, grantedIn]
  · intro w w' tr hw
    exact hw.elim
  · intro i tr o r m m' _ hstep hm
    obtain ⟨hcons, hgrant⟩ := hm
    rw [consumedIn_cons, grantedIn_cons]
    cases hstep with
    | addConsumed n =>
      refine ⟨?_, by simpa [CreditOp.granted] using hgrant⟩
      simp only [CreditOp.consumed, hcons, UInt64.ofNat_add, UInt64.ofNat_toNat]
      exact UInt64.add_comm _ _
    | addGranted n =>
      refine ⟨by simpa [CreditOp.consumed] using hcons, ?_⟩
      simp only [CreditOp.granted, hgrant, UInt64.ofNat_add, UInt64.ofNat_toNat]
      rw [UInt64.add_assoc, UInt64.add_comm _ n]
    | _ => exact ⟨by simpa [CreditOp.consumed] using hcons,
        by simpa [CreditOp.granted] using hgrant⟩

/-- **The credits add up**: granted and initial credits are those consumed and available, up to
what calls in progress have not counted yet. -/
theorem totals_eq [Fintype ι] (hrun : Machine.Run (CreditInit ι config) c tr) :
    (c.world.available.toNat : ℤ) + (consumedIn tr - grantedIn tr) +
      (creditLedger ι config.maxCredits).debts tr = config.initialCredits.toNat := by
  rw [← books_creditLedger]
  apply hrun.total_eq (creditLedger ι config.maxCredits) (fun _ hc i => hc.start i)
    (fun _ _ _ _ hp hh => starts_wp hp hh)
  · intro c hc
    simp only [creditLedger, hc.fresh, CreditManager.withConfig]
  · rfl
  · intro w w' hw
    exact hw.elim
  · intro h o r m m' hbooks hstep
    -- a swap moves the difference from the balance to the debt, and counting takes it from there
    cases hstep with
    | load =>
      have hh : swappedOut h = 0 := hbooks
      change (m.available.toNat : ℤ) + ((0 : ℕ) - (0 : ℕ)) + 0 = m.available.toNat + swappedOut h
      omega
    | swapped new =>
      have hh : swappedOut h = 0 := hbooks.1
      change (new.toNat : ℤ) + ((0 : ℕ) - (0 : ℕ)) + (m.available.toNat - new.toNat) =
        m.available.toNat + swappedOut h
      omega
    | failed current new =>
      have hh : swappedOut h = 0 := hbooks.1
      change (m.available.toNat : ℤ) + ((0 : ℕ) - (0 : ℕ)) + 0 = m.available.toNat + swappedOut h
      omega
    | addConsumed n =>
      have hh : swappedOut h = n.toNat := hbooks
      change (m.available.toNat : ℤ) + (n.toNat - (0 : ℕ)) + 0 = m.available.toNat + swappedOut h
      omega
    | addGranted n =>
      have hh : swappedOut h = -n.toNat := hbooks
      change (m.available.toNat : ℤ) + ((0 : ℕ) - n.toNat) + 0 = m.available.toNat + swappedOut h
      omega

/-- **The balance stays in its limits, and the counters agree with it**: however the atomic steps
of any number of threads interleave, every swap moves the balance by exactly what is counted,
without wrapping around, and when no call is in progress the granted credits are the consumed
ones and the balance. -/
theorem credits_conserved [Fintype ι] (hle : config.initialCredits ≤ config.maxCredits)
    (hrun : Machine.Run (CreditInit ι config) c tr) :
    c.world.available ≤ config.maxCredits ∧
      Machine.EachCall (M := creditMachine ι config.maxCredits) (fun tr i x =>
        InBooks config.maxCredits (Machine.events (Machine.past i tr)) x.event.1) tr ∧
      ((∀ i, c.phase i = .idle .idle) →
        c.world.granted = c.world.consumed + c.world.available.toUInt64) := by
  refine ⟨available_le hle hrun, ?_, fun hidle => ?_⟩
  · exact hrun.eachCall (fun _ hc i => hc.start i) fun _ _ _ _ hp hh => starts_wp hp hh
  · obtain ⟨hcons, hgrant⟩ := counters_eq hrun
    have hdebts : (creditLedger ι config.maxCredits).debts tr = 0 :=
      hrun.debts_eq_zero _ (fun _ hc i => hc.start i) (fun _ _ _ _ hp hh => starts_wp hp hh)
        (fun _ _ hh => hh) fun i => ⟨_, hidle i⟩
    have htotals := totals_eq hrun
    have hsum : config.initialCredits.toNat + grantedIn tr =
        consumedIn tr + c.world.available.toNat := by omega
    rw [hgrant, hcons, hsum, UInt64.ofNat_add]
    simp

end Runs

/-- Every step of a thread that is alone goes on. -/
def anyStep (_ : CreditManager) (_ : CreditOp) : Bool := true

theorem creditStep_answer (m : CreditManager) (o : CreditOp) (_ : anyStep m o = true) :
    CreditStep m o (answer o m).1 (answer o m).2 := by
  cases o with
  | load => exact .load
  | compareExchangeWeak current new =>
    by_cases h : m.available = current
    · subst h
      simp only [answer, if_true]
      exact .swapped new
    · simp only [answer, h, if_false]
      exact .failed current new
  | addConsumed n => exact .addConsumed n
  | addGranted n => exact .addGranted n

/-- Two threads: one consumes three credits, the other asks for ten more and gets them. -/
theorem credits_conserved_two :
    ∃ (c : (creditMachine Bool 8192).Config)
      (tr : List (Bool × (creditMachine Bool 8192).Stamped)),
      Machine.Run (CreditInit Bool {}) c tr ∧ tr.length = 6 ∧ (∀ i, c.phase i = .idle .idle) ∧
      c.world.available = 263 ∧
      c.world.granted = c.world.consumed + c.world.available.toUInt64 := by
  have hinit : Machine.Run (CreditInit Bool {})
      ⟨.withConfig {}, fun _ => .idle .idle⟩ [] := .init ⟨rfl, fun _ => rfl⟩
  have hcons := hinit.complete (i := false) (n := 4) creditStep_answer rfl (.consume 3) rfl
  have hgrant := hcons.complete (i := true) (n := 4) creditStep_answer rfl
    (.grant 10 (by decide)) rfl
  have hidle : ∀ i, Function.update (Function.update
      (fun _ => (.idle .idle : (creditMachine Bool 8192).Phase)) false (.idle .idle)) true
      (.idle .idle) i = .idle .idle := by
    simp
  refine ⟨_, _, hgrant, rfl, hidle, rfl, ?_⟩
  exact (credits_conserved (by decide) hgrant).2.2 hidle

end RustSmb
