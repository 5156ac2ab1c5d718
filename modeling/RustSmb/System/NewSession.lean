import RustSmb.System.Exchange
import RustSmb.System.Run

/-!
# New sessions

Identifiers of sessions come from the counter of the store and from those of the authentication
providers, which know nothing of each other, and whether a new session is created is decided by
looking up the identifier.  If one is handed out twice, an exchange can end in the session of
another.

## Main results

* `newSession_own` — **if no identifier comes twice, a fresh exchange ends with its own session.**
* `fileIds_nodup_iff` — no FileId is handed out twice.
* `attaches_to_session_of_other` — the second log-on is attached to the session of the first.
-/

namespace RustSmb

open Prog List Option MemoryStateStore

variable {sid : UInt64}

/-! ### The identifiers of a connection -/

/-- The identifiers of an exchange are in order; `D` are those drawn by its connection, `C` those
of sessions so far. -/
structure Exchange.Sound (x : Exchange) (D C : UInt64 → Prop) : Prop where
  /-- The identifier of the context was drawn here or is that of a session. -/
  id : ∀ sid, x.id = some sid → D sid ∨ C sid
  /-- What is reauthenticated is a session. -/
  found : ∀ sid, x.stage = .asked sid true → C sid ∧ sid ≠ 0 ∧ x.id = none
  /-- The identifier under which an exchange ends was drawn here or is that of a session. -/
  ending : ∀ fresh sid met, x.stage = .ending fresh (some sid) met → D sid ∨ C sid
  /-- The identifier of an open exchange was drawn here and nobody has used it. -/
  pending : x.isOpen = true → ∀ sid, x.id = some sid → D sid ∧ ¬ C sid
  /-- So is that of a fresh exchange that ends, and it has met no session. -/
  fresh : ∀ sid met, x.stage = .ending true sid met →
    met = false ∧ ∀ id, sid = some id → D id ∧ ¬ C id
  /-- An open exchange has an identifier or is about to get one. -/
  named : x.isOpen = true → x.id.isSome = true ∨ x.stage = .interim
  /-- An exchange that ends is not open. -/
  closed : ∀ fresh sid met, x.stage = .ending fresh sid met → x.isOpen = false

namespace Exchange

variable {x : Exchange} {D D' C C' : UInt64 → Prop}

section

variable (h : x.Sound D C)

include h

/-- More identifiers may be drawn, and sessions created under others than those drawn here. -/
theorem Sound.mono (hD : ∀ a, D a → D' a) (hC : ∀ a, C a → C' a) (hnew : ∀ a, D a → C' a → C a) :
    x.Sound D' C' where
  id sid hid := (h.id sid hid).imp (hD sid) (hC sid)
  found sid hs := ⟨hC sid (h.found sid hs).1, (h.found sid hs).2⟩
  ending fresh sid met hs := (h.ending fresh sid met hs).imp (hD sid) (hC sid)
  pending ho sid hid :=
    ⟨hD sid (h.pending ho sid hid).1, fun hc =>
      (h.pending ho sid hid).2 (hnew sid (h.pending ho sid hid).1 hc)⟩
  fresh sid met hs := ⟨(h.fresh sid met hs).1, fun id hid =>
    ⟨hD id ((h.fresh sid met hs).2 id hid).1, fun hc =>
      ((h.fresh sid met hs).2 id hid).2 (hnew id ((h.fresh sid met hs).2 id hid).1 hc)⟩⟩
  named := h.named
  closed := h.closed

theorem Sound.restart (hs : x.Settled) {stage : Stage}
    (hstage : stage = .outside ∨ ∃ sid, stage = .asked sid false) :
    ({ x with stage := stage } : Exchange).Sound D C where
  id := h.id
  found sid hf := by
    rcases hstage with rfl | ⟨_, rfl⟩ <;> cases hf
  ending fresh sid met hf := by
    rcases hstage with rfl | ⟨_, rfl⟩ <;> cases hf
  pending := h.pending
  fresh sid met hf := by
    rcases hstage with rfl | ⟨_, rfl⟩ <;> cases hf
  named ho := by
    rcases h.named ho with hid | hi
    · exact .inl hid
    · exact .inl (hs.named hi ho)
  closed fresh sid met hf := by
    rcases hstage with rfl | ⟨_, rfl⟩ <;> cases hf

/-- The provider answers in a round: it keeps the identifier of the context, or draws one if there
is none. -/
theorem Sound.answer {found : Bool} (hstage : x.stage = .asked sid found) {before : Option UInt64}
    {ctx : AuthContext} (hprev : before = if sid = 0 then none else x.id)
    (hkept : ∀ id, before = some id → ctx.sessionId = some id)
    (hdrawn : ∀ id, ctx.sessionId = some id → before = some id ∨ D' id ∧ ¬ C id)
    (hD : ∀ a, D a → D' a) (result : Except AuthError AuthResult) :
    (x.answer sid found ctx result).Sound D' C := by
  have hown : ∀ id, ctx.sessionId = some id → D' id ∨ C id := by
    intro id hid
    rcases hdrawn id hid with hb | hd
    · rw [hprev] at hb
      split at hb
      · cases hb
      · exact (h.id id hb).imp_left (hD id)
    · exact .inl hd.1
  have hopen : x.isOpen = true → ∃ id, x.id = some id := by
    intro ho
    rcases h.named ho with hid | hi
    · exact isSome_iff_exists.1 hid
    · rw [hstage] at hi
      cases hi
  have hfound : found = true → C sid ∧ sid ≠ 0 ∧ x.id = none := by
    rintro rfl
    exact h.found sid hstage
  -- an exchange that began with 0 has drawn its identifier, and nobody has used it
  have hpend : (sid == 0 || x.isOpen) = true →
      found = false ∧ ∀ id, ctx.sessionId = some id → D' id ∧ ¬ C id := by
    intro hfresh
    rcases Bool.or_eq_true_iff.1 hfresh with h0 | ho
    · rw [if_pos (beq_iff_eq.1 h0)] at hprev
      refine ⟨Bool.eq_false_iff.2 fun hf => (hfound hf).2.1 (beq_iff_eq.1 h0), fun id hid => ?_⟩
      rcases hdrawn id hid with hb | hd
      · rw [hprev] at hb
        cases hb
      · exact hd
    · obtain ⟨a, ha⟩ := hopen ho
      refine ⟨Bool.eq_false_iff.2 fun hf => ?_, fun id hid => ?_⟩
      · rw [(hfound hf).2.2] at ha
        cases ha
      · rcases hdrawn id hid with hb | hd
        · rw [hprev] at hb
          split at hb
          · cases hb
          · exact (h.pending ho id hb).imp_left (hD id)
        · exact hd
  have hfailed : (⟨.outside, ctx.sessionId, sid != 0 && x.isOpen⟩ : Exchange).Sound D' C := by
    refine ⟨hown, nofun, nofun, fun ho => ?_, nofun, fun ho => .inl ?_, nofun⟩
    · exact (hpend (by simp [(Bool.and_eq_true_iff.1 ho).2])).2
    · obtain ⟨hne, ho⟩ := Bool.and_eq_true_iff.1 ho
      obtain ⟨a, ha⟩ := hopen ho
      rw [if_neg (bne_iff_ne.1 hne), ha] at hprev
      rw [hkept a hprev]
      rfl
  rcases result with err | (⟨user, key, token⟩ | token | err)
  · exact hfailed
  · refine ⟨hown, nofun, fun fresh id met hs => ?_, nofun, fun id met hs => ?_, nofun,
      fun _ _ _ _ => rfl⟩
    · exact hown id (Stage.ending.inj hs).2.1
    · obtain ⟨hfresh, rfl, rfl⟩ := Stage.ending.inj hs
      exact hpend hfresh
  · refine ⟨fun id hid => ?_, nofun, nofun, fun ho id hid => ?_, nofun, fun _ => .inr rfl, nofun⟩
    · cases found with
      | true =>
        obtain rfl : sid = id := Option.some.inj hid
        exact .inr (hfound rfl).1
      | false => exact hown id hid
    · obtain ⟨rfl, hown'⟩ := hpend ho
      exact hown' id hid
  · exact hfailed

theorem Sound.draw (hallowed : x.Allows (.store .nextSessionId)) (hnew : ¬ C sid)
    (hD : ∀ a, D a → D' a) (hsid : D' sid) : (x.draw (.ok sid)).Sound D' C := by
  have h' := h.mono hD (fun _ hc => hc) fun _ _ hc => hc
  obtain ⟨stage, xid, isOpen⟩ := x
  rcases hallowed with ⟨rfl, rfl⟩ | ⟨fresh, met, rfl⟩
  · refine ⟨fun id hid => ?_, nofun, nofun, fun _ id hid => ?_, nofun, fun _ => .inl rfl, nofun⟩
    · cases hid
      exact .inl hsid
    · cases hid
      exact ⟨hsid, hnew⟩
  · obtain rfl : isOpen = false := h.closed _ _ _ rfl
    refine ⟨h'.id, nofun, fun _ id _ hs => ?_, nofun, fun id met' hs => ?_, nofun,
      fun _ _ _ _ => rfl⟩
    · cases hs
      exact .inl hsid
    · cases hs
      refine ⟨(h.fresh _ _ rfl).1, fun id hid => ?_⟩
      cases hid
      exact ⟨hsid, hnew⟩

theorem Sound.look (hallowed : x.Allows (.store (.getSession sid))) {r : Option SessionState}
    (hr : r.isSome = true → C sid) : (x.look (.ok r)).Sound D C := by
  cases r with
  | none => exact h
  | some session =>
    have hsid := hr rfl
    obtain ⟨stage, xid, isOpen⟩ := x
    cases stage with
    | asked sid' found =>
      obtain ⟨rfl, h0, hid⟩ := hallowed.1 sid' found rfl
      refine ⟨h.id, fun a ha => ?_, nofun, h.pending, nofun, fun ho => ?_, nofun⟩
      · cases ha
        exact ⟨hsid, h0, hid⟩
      · rcases h.named ho with hid | hi
        · exact .inl hid
        · cases hi
    | ending fresh sid' met =>
      obtain rfl := hallowed.2 fresh sid' met rfl
      obtain rfl : isOpen = false := h.closed _ _ _ rfl
      refine ⟨h.id, nofun, fun _ a _ ha => ?_, nofun, fun a met' ha => ?_, nofun,
        fun _ _ _ _ => rfl⟩
      · cases ha
        exact .inr hsid
      · cases ha
        exact absurd hsid ((h.fresh _ _ rfl).2 sid rfl).2
    | outside | interim => exact h
    | created fresh sid' => exact h

theorem Sound.create {session : SessionState}
    (hallowed : x.Allows (.store (.createSession session))) (hC : ∀ a, C a → C' a) :
    (x.create session (.ok ())).Sound D C' := by
  obtain ⟨fresh, hstage⟩ := hallowed
  obtain ⟨stage, xid, isOpen⟩ := x
  obtain rfl : stage = .ending fresh (some session.sessionId) false := hstage
  obtain rfl : isOpen = false := h.closed _ _ _ rfl
  exact ⟨fun id hid => (h.id id hid).imp_right (hC id), nofun, nofun, nofun, nofun, nofun, nofun⟩

end

end Exchange

/-! ### The identifiers of a run -/

/-- The identifier that an event hands out: by the store's counter, or by a provider to an
exchange without one. -/
def drawn : Event SmbT → Option UInt64
  | ⟨.inl (.store .nextSessionId), r⟩ => Except.toOption r
  | ⟨.inl (.authenticate _ ctx _), r⟩ => if ctx.sessionId.isNone then r.1.sessionId else none
  | _ => none

def createdId : Event SmbT → Option UInt64
  | ⟨.inl (.store (.createSession session)), _⟩ => some session.sessionId
  | _ => none

section Runs

variable [Externs] {α β : Type} [AuthProvider α] [StorageBackend β]
  {ok : World α β → SmbOp ⊕ Mark → Prop}

/-- The identifiers that have been handed out. -/
def draws (tr : Trace ok) : List UInt64 := tr.filterMap fun x => drawn x.2.event

def drawsBy (i : ℕ) (tr : Trace ok) : List UInt64 :=
  (eventsOf i tr).filterMap drawn

/-- The sessions that have been created. -/
def createdIds (tr : Trace ok) : List UInt64 := tr.filterMap fun x => createdId x.2.event

/-- The login on a connection. -/
def exchangeOf (i : ℕ) (tr : Trace ok) : Exchange := exchange (eventsOf i tr)

section Cons

variable (i : ℕ) (e : (smbMachine α β ok).Stamped) (tr : Trace ok)

theorem draws_cons :
    draws ((i, e) :: tr) = (drawn e.event).toList ++ draws tr := by
  unfold draws
  rw [filterMap_cons]
  cases drawn e.event <;> rfl

theorem createdIds_cons :
    createdIds ((i, e) :: tr) = (createdId e.event).toList ++ createdIds tr := by
  unfold createdIds
  rw [filterMap_cons]
  cases createdId e.event <;> rfl

theorem drawsBy_cons_self :
    drawsBy i ((i, e) :: tr) = (drawn e.event).toList ++ drawsBy i tr := by
  unfold drawsBy
  rw [eventsOf_cons_self, filterMap_cons]
  cases drawn e.event <;> rfl

end Cons

theorem drawsBy_cons_ne {i j : ℕ} (hij : i ≠ j) (e : (smbMachine α β ok).Stamped)
    (tr : Trace ok) : drawsBy i ((j, e) :: tr) = drawsBy i tr := by
  unfold drawsBy
  rw [eventsOf_cons_ne hij]

theorem mem_draws_of_mem_drawsBy {i : ℕ} {tr : Trace ok} (h : sid ∈ drawsBy i tr) :
    sid ∈ draws tr := by
  induction tr with
  | nil => cases h
  | cons x tr ih =>
    obtain ⟨j, e⟩ := x
    rw [draws_cons, mem_append]
    by_cases hij : i = j
    · subst hij
      rw [drawsBy_cons_self, mem_append] at h
      exact h.imp_right ih
    · rw [drawsBy_cons_ne hij] at h
      exact .inr (ih h)

theorem drawsBy_disjoint {i j : ℕ} (hij : i ≠ j) {tr : Trace ok} (hn : (draws tr).Nodup)
    (hi : sid ∈ drawsBy i tr) (hj : sid ∈ drawsBy j tr) : False := by
  induction tr with
  | nil => cases hi
  | cons x tr ih =>
    obtain ⟨k, e⟩ := x
    rw [draws_cons, nodup_append'] at hn
    obtain ⟨-, hn, hdisj⟩ := hn
    by_cases hki : i = k
    · subst hki
      rw [drawsBy_cons_ne hij.symm] at hj
      rw [drawsBy_cons_self, mem_append] at hi
      rcases hi with hi | hi
      · exact hdisj hi (mem_draws_of_mem_drawsBy hj)
      · exact ih hn hi hj
    · rw [drawsBy_cons_ne hki] at hi
      by_cases hkj : j = k
      · subst hkj
        rw [drawsBy_cons_self, mem_append] at hj
        rcases hj with hj | hj
        · exact hdisj hj (mem_draws_of_mem_drawsBy hi)
        · exact ih hn hi hj
      · rw [drawsBy_cons_ne hkj] at hj
        exact ih hn hi hj

/-! ### The invariant -/

omit [Externs] in
theorem Exchange.Sound.next [LawfulAuthProvider α] {D D' C C' : UInt64 → Prop}
    {h : List (Event SmbT)} (hx : (exchange h).Sound D C) {o : SmbT.Op} (ho : InStage h o)
    {w : World α β} (hlive : ∀ sid, (w.store.sessions.lookup sid).isSome = true → C sid)
    (hdrawn : ∀ sid, drawn ⟨o, (answerMarks World.answer o w).1⟩ = some sid → D' sid ∧ ¬ C sid)
    (hD : ∀ a, D a → D' a) (hC : ∀ a, C a → C' a)
    (hcre : ∀ a, C' a → C a ∨ createdId ⟨o, (answerMarks World.answer o w).1⟩ = some a) :
    ((exchange h).next ⟨o, (answerMarks World.answer o w).1⟩).Sound D' C' := by
  have hmono : ∀ {x : Exchange}, createdId ⟨o, (answerMarks World.answer o w).1⟩ = none →
      x.Sound D' C → x.Sound D' C' := by
    intro x hnone hx
    refine hx.mono (fun _ ha => ha) hC fun a _ ha => ?_
    rcases hcre a ha with ha | ha
    · exact ha
    · rw [hnone] at ha
      cases ha
  have hx' : (exchange h).Sound D' C := hx.mono hD (fun _ hc => hc) fun _ _ hc => hc
  rcases o with o | mark
  -- most calls do not touch the login
  · by_cases hq : isQuiet o
    · have hnext : (exchange h).next ⟨.inl o, (answerMarks World.answer (.inl o) w).1⟩ =
          exchange h := Exchange.call_of_isQuiet hq _
      rw [hnext]
      refine hmono ?_ hx'
      cases o with
      | store o => cases o <;> first | exact (hq : False).elim | rfl
      | _ => rfl
    · cases o with
      | authenticate serverId ctx token =>
        obtain ⟨sid, found, hstage, hctx⟩ := ho
        refine hmono rfl ?_
        show ((exchange h).call (.authenticate serverId ctx token) (World.answer _ w).1).Sound D' C
        rw [Exchange.call, hstage]
        refine hx.answer hstage hctx ?_ ?_ hD _
        · exact LawfulAuthProvider.keeps_sessionId _ ctx token _
        · intro id hid
          -- an identifier in the context is kept; only a missing one can be drawn
          cases hb : ctx.sessionId with
          | some a =>
            exact .inl ((LawfulAuthProvider.keeps_sessionId _ ctx token _ a hb).symm.trans hid)
          | none =>
            refine .inr (hdrawn id ?_)
            show (if ctx.sessionId.isNone then _ else none) = _
            rw [hb]
            exact hid
      | store o =>
        cases o with
        | nextSessionId =>
          obtain ⟨hd, hn⟩ := hdrawn w.store.sessionCounter rfl
          exact hmono rfl (hx.draw ho hn hD hd)
        | getSession sid => exact hmono rfl (hx'.look ho (hlive sid))
        | createSession session => exact hx'.create ho hC
        | _ => exact absurd trivial hq
      | _ => exact absurd trivial hq
  · cases mark with
    | dispatched cmd =>
      refine hmono rfl (hx'.restart ho ?_)
      split
      · exact .inr ⟨_, rfl⟩
      · exact .inl rfl
    | executing => exact hmono rfl hx'
    | disconnected => exact hmono rfl (hx'.restart ho (.inl rfl))

/-- The identifiers of a run are in order. -/
structure Sound (w : World α β) (tr : Trace ok) : Prop where
  /-- The sessions in the store were created. -/
  live : ∀ sid, (w.store.sessions.lookup sid).isSome = true → sid ∈ createdIds tr
  /-- The identifiers of sessions were handed out. -/
  created : ∀ sid ∈ createdIds tr, sid ∈ draws tr
  /-- The identifiers of each connection are in order. -/
  exchanges : ∀ i, (exchangeOf i tr).Sound (· ∈ drawsBy i tr) (· ∈ createdIds tr)

omit [Externs] in
/-- A call leaves in the store the sessions that were there and the one that it creates. -/
theorem live_answer {o : SmbT.Op} {w : World α β}
    (h : ((answerMarks World.answer o w).2.store.sessions.lookup sid).isSome = true) :
    (w.store.sessions.lookup sid).isSome = true ∨
      createdId ⟨o, (answerMarks World.answer o w).1⟩ = some sid := by
  rcases o with o | mark
  · cases o with
    | store o =>
      change (AList.lookup sid (answer w.oracle.now o w.store).2.sessions).isSome = true at h
      cases o with
      | createSession session =>
        by_cases hsid : sid = session.sessionId
        · exact .inr (congrArg some hsid.symm)
        · exact .inl (by rwa [answer, AList.lookup_insert_ne hsid] at h)
      | deleteSession a =>
        rw [AList.lookup_isSome] at h ⊢
        exact .inl (AList.mem_erase.1 h).2
      | refreshSession a ttl =>
        refine .inl ?_
        simp only [answer, refreshSession] at h
        split at h
        · next session hsess =>
          by_cases hsid : sid = a
          · rw [hsid, hsess]
            rfl
          · rwa [AList.lookup_insert_ne hsid] at h
        · exact h
      | _ =>
        rw [answer_sessions] at h
        · exact .inl h
        · intro heq
          cases heq
        · intro heq
          cases heq
    | _ => exact .inl h
  · exact .inl h

/-- An event of a connection keeps the identifiers of the run in order, if none is handed out
twice. -/
theorem Sound.event [LawfulAuthProvider α] {w : World α β} {tr : Trace ok} (h : Sound w tr)
    {i : ℕ} {o : SmbT.Op} (ho : InStage (eventsOf i tr) o)
    (hn : (draws ((i, ⟨w, o, (answerMarks World.answer o w).1⟩) :: tr)).Nodup) :
    Sound (answerMarks World.answer o w).2
      ((i, ⟨w, o, (answerMarks World.answer o w).1⟩) :: tr) := by
  rw [draws_cons, nodup_append'] at hn
  obtain ⟨-, hn, hdisj⟩ := hn
  -- the identifier of a new session was handed out to its connection, or has been used
  have howned : ∀ sid, createdId ⟨o, (answerMarks World.answer o w).1⟩ = some sid →
      sid ∈ drawsBy i tr ∨ sid ∈ createdIds tr := by
    intro sid hsid
    rcases o with o | mark
    · cases o with
      | store o =>
        cases o with
        | createSession session =>
          cases hsid
          obtain ⟨fresh, hstage⟩ := ho
          exact (h.exchanges i).ending fresh _ _ hstage
        | _ => cases hsid
      | _ => cases hsid
    · cases hsid
  refine ⟨fun sid hsid => ?_, fun sid hsid => ?_, fun j => ?_⟩
  · rw [createdIds_cons, mem_append, mem_toList]
    exact (live_answer hsid).symm.imp_right (h.live sid)
  · rw [createdIds_cons, mem_append, mem_toList] at hsid
    rw [draws_cons, mem_append]
    rcases hsid with hsid | hsid
    · rcases howned sid hsid with hd | hc
      · exact .inr (mem_draws_of_mem_drawsBy hd)
      · exact .inr (h.created sid hc)
    · exact .inr (h.created sid hsid)
  · by_cases hij : j = i
    · subst hij
      rw [exchangeOf, eventsOf_cons_self, exchange_cons, drawsBy_cons_self, createdIds_cons]
      refine (h.exchanges j).next ho h.live (fun sid hsid => ⟨?_, fun hc => ?_⟩) ?_ ?_ ?_
      · exact mem_append_left _ (mem_toList.2 hsid)
      · exact hdisj (mem_toList.2 hsid) (h.created sid hc)
      · exact fun a ha => mem_append_right _ ha
      · exact fun a ha => mem_append_right _ ha
      · intro a ha
        rw [mem_append, mem_toList] at ha
        exact ha.symm
    · rw [exchangeOf, eventsOf_cons_ne hij, drawsBy_cons_ne hij, createdIds_cons]
      refine (h.exchanges j).mono (fun _ ha => ha) (fun a ha => mem_append_right _ ha) ?_
      intro a hj ha
      rw [mem_append, mem_toList] at ha
      rcases ha with ha | ha
      · rcases howned a ha with hi | hc
        · exact (drawsBy_disjoint hij hn hj hi).elim
        · exact hc
      · exact ha

omit [Externs] [AuthProvider α] [StorageBackend β] in
theorem sessions_envStep {w w' : World α β} (h : EnvStep w w') :
    w'.store.sessions = w.store.sessions := by
  cases h with
  | oracle _ | registry _ _ _ => rfl
  | failure serverId o ho => rcases ho with rfl | rfl <;> rfl

theorem sound_init {c : (smbMachine α β ok).Config} (hc : SmbInit c) :
    Sound c.world ([] : Trace ok) := by
  obtain ⟨providers, backends, oracle, hw⟩ := hc.empty
  refine ⟨fun sid hsid => ?_, nofun, fun i => ?_⟩
  · rw [hw] at hsid
    cases hsid
  · exact ⟨nofun, nofun, nofun, nofun, nofun, nofun, nofun⟩

theorem keepsExchange_init {c : (smbMachine α β ok).Config} (hc : SmbInit c) (i : ℕ) :
    ∃ s, c.phase i = .idle s ∧ s.Satisfies KeepsExchange [] := by
  obtain ⟨connId, config, shares, serverId, maxSessions, hi⟩ := hc.fresh i
  exact ⟨_, hi, rfl, Exchange.settled_of_outside rfl⟩

variable {c : (smbMachine α β ok).Config} {tr : Trace ok}

theorem SmbRun.inStage (hrun : SmbRun ok c tr) (i : ℕ) :
    (c.phase i).Meets InStage (Conn.Satisfies KeepsExchange) (eventsOf i tr) :=
  Machine.Run.meets hrun (fun _ => keepsExchange_init)
    (fun _ _ _ _ hp hR => exchange_conduct.connStart hp hR) i

/-- In every run in which no identifier is handed out twice, identifiers are in order. -/
theorem SmbRun.sound [LawfulAuthProvider α] (hrun : SmbRun ok c tr) (hn : (draws tr).Nodup) :
    Sound c.world tr := by
  refine Machine.Run.invariant hrun (fun _ => keepsExchange_init)
    (fun _ _ _ _ hp hR => exchange_conduct.connStart hp hR)
    (fun w (tr : Trace ok) => (draws tr).Nodup → Sound w tr) ?_ ?_ ?_ hn
  · exact fun c hc _ => sound_init hc
  · intro w w' tr henv h hn
    obtain ⟨hlive, hcre, hexchanges⟩ := h hn
    exact ⟨by rwa [sessions_envStep henv], hcre, hexchanges⟩
  · rintro i tr o r w w' ho ⟨hexec, -⟩ h hn
    obtain ⟨rfl, rfl⟩ := Prod.mk.inj hexec
    refine (h ?_).event ho hn
    rw [draws_cons, nodup_append'] at hn
    exact hn.2.1

/-- **If no identifier is handed out twice, a fresh exchange ends with a session of its own**: a
successful exchange from identifier 0 has met no stored session, its identifier was never that of
a session, and it creates the session before its connection turns to anything else. -/
theorem newSession_own [LawfulAuthProvider α] (hrun : SmbRun ok c tr) (hn : (draws tr).Nodup)
    {i : ℕ} :
    (∀ sid met, (exchangeOf i tr).stage = .ending true sid met → met = false ∧
      ∀ id, sid = some id → id ∉ createdIds tr ∧ c.world.store.sessions.lookup id = none) ∧
    (∀ p h session k, c.phase i = .busy p h (.call (.inl (.store (.createSession session))) k) →
      ∀ sid met, (exchangeOf i tr).stage = .ending true sid met → sid = some session.sessionId) ∧
    ∀ s, c.phase i = .idle (.open s) →
      ∀ sid met, (exchangeOf i tr).stage ≠ .ending true sid met := by
  have hsound := hrun.sound hn
  have hmeets := hrun.inStage i
  refine ⟨fun sid met hstage => ?_, fun p h session k hi sid met hstage => ?_,
    fun s hi sid met hstage => ?_⟩
  · obtain ⟨hmet, hid⟩ := (hsound.exchanges i).fresh sid met hstage
    refine ⟨hmet, fun id heq => ⟨(hid id heq).2, ?_⟩⟩
    by_contra hlook
    exact (hid id heq).2 (hsound.live id (isSome_iff_ne_none.2 hlook))
  · rw [hi] at hmeets
    obtain ⟨fresh, hallowed⟩ := hmeets.1
    exact (Stage.ending.inj (hstage.symm.trans hallowed)).2.1
  · rw [hi] at hmeets
    obtain ⟨rfl, -⟩ := (hsound.exchanges i).fresh sid met hstage
    exact hmeets.2.ended true sid hstage

/-! ### Identifiers of handles -/

/-- The identifier of a handle that an event hands out. -/
def fileIdOf : Event SmbT → Option HandleId
  | ⟨.inl (.store .nextHandleId), r⟩ => Except.toOption r
  | _ => none

def fileIds (tr : Trace ok) : List HandleId := tr.filterMap fun x => fileIdOf x.2.event

/-- The first identifiers of the counter, the newest first. -/
def counted (n : ℕ) : List HandleId :=
  ((range n).map fun k => BitVec.ofNat 128 ((k + 1) % 2 ^ 64)).reverse

theorem fileIds_counted (hrun : SmbRun ok c tr) :
    ∃ n, c.world.store.handleCounter = UInt64.ofNat (n + 1) ∧ fileIds tr = counted n := by
  refine hrun.traced (I := fun w tr => ∃ n, w.store.handleCounter = UInt64.ofNat (n + 1) ∧
    fileIds tr = counted n) (fun _ _ _ => ⟨0, rfl, rfl⟩) ?_ ?_ fun _ _ h => h
  · rintro c tr w - hw ⟨n, hcount, hids⟩
    refine ⟨n, ?_, hids⟩
    cases hw with
    | failure serverId o ho => rcases ho with rfl | rfl <;> exact hcount
    | _ => exact hcount
  · rintro c tr i p h o k - - - ⟨n, hcount, hids⟩
    cases o with
    | store o =>
      cases o with
      | nextHandleId =>
        refine ⟨n + 1, ?_, ?_⟩
        · show c.world.store.handleCounter + 1 = _
          rw [hcount, UInt64.ofNat_add (n + 1) 1]
          rfl
        · show BitVec.ofNat 128 c.world.store.handleCounter.toNat :: fileIds tr = _
          rw [hcount, hids, counted, counted, range_succ, map_append, reverse_append]
          simp
      | refreshSession sessionId ttlSecs =>
        refine ⟨n, Eq.trans ?_ hcount, hids⟩
        simp only [World.answer_store, MemoryStateStore.answer, MemoryStateStore.refreshSession]
        split <;> rfl
      | acquireFileLock lock =>
        refine ⟨n, Eq.trans ?_ hcount, hids⟩
        simp only [World.answer_store, MemoryStateStore.answer, MemoryStateStore.acquireFileLock]
        split <;> rfl
      | _ => exact ⟨n, hcount, hids⟩
    | _ => exact ⟨n, hcount, hids⟩

/-- **No identifier of a handle is handed out twice**, by whichever connections and on whichever
servers, unless there are more of them than the counter can count. -/
theorem fileIds_nodup_iff (hrun : SmbRun ok c tr) :
    (fileIds tr).Nodup ↔ (fileIds tr).length ≤ 2 ^ 64 := by
  obtain ⟨n, -, hids⟩ := fileIds_counted hrun
  rw [hids, counted, nodup_reverse, nodup_map_iff_inj_on nodup_range]
  simp only [length_reverse, length_map, length_range, mem_range]
  constructor
  · intro hinj
    by_contra hlt
    have := hinj 0 (by omega) (2 ^ 64) (by omega) (by simp)
    omega
  · intro hle k hk k' hk' heq
    have heq := congrArg BitVec.toNat heq
    simp only [BitVec.toNat_ofNat] at heq
    omega

end Runs

section Sample

open Sample

def createsSession : SmbOp → Bool
  | .store (.createSession _) => true
  | _ => false

theorem exists_of_createsSession {o : SmbOp} (h : createsSession o = true) :
    ∃ session, o = .store (.createSession session) := by
  unfold createsSession at h
  split at h
  · next session => exact ⟨session, rfl⟩
  · cases h

/-- A log-on of a user creates session 1. -/
theorem newSession_own_logon :
    ∃ (c : (smbMachine NtlmAuthProvider Files anyCall).Config) (tr : Trace anyCall)
      (p : Prog SmbT Conn) (h : List (smbMachine NtlmAuthProvider Files anyCall).Stamped)
      (session : SessionState) (k : Except StateError Unit → Prog SmbT Conn),
      (SmbRun anyCall c tr ∧ (draws tr).Nodup ∧
        c.phase 0 = .busy p h (.call (.inl (.store (.createSession session))) k) ∧
        (exchangeOf 0 tr).stage = .ending true (some 1) false) ∧
      some 1 = some session.sessionId ∧ 1 ∉ createdIds tr ∧
        c.world.store.sessions.lookup 1 = none := by
  obtain ⟨x, hpoint, hop, hn, hstage⟩ : ∃ x, pointOf (start ntlm : Snapshot anyCall)
      [(0, Client.sessionSetup 0 logonTokens.1)] (0, Client.sessionSetup 1 logonTokens.2) 5 =
        some x ∧ createsSession x.op = true ∧ (draws x.trace).Nodup ∧
      (exchangeOf 0 x.trace).stage = .ending true (some 1) false :=
    exists_of_any (by decide +kernel)
  obtain ⟨c, p, k, hrun, -, hi⟩ := exists_point (run_start _) hpoint
  obtain ⟨world, tr, history, op⟩ := x
  obtain ⟨session, rfl⟩ := exists_of_createsSession hop
  obtain ⟨hfresh, hcreates, -⟩ := newSession_own hrun hn
  exact ⟨c, tr, p, history, session, k, ⟨hrun, hn, hi, hstage⟩,
    hcreates p history session k hi _ _ hstage, (hfresh _ _ hstage).2 1 rfl⟩

/-- **Two servers share a store, and each has a provider that counts from 1: the second log-on is
attached to the session of the first**, and has a signing key for it. -/
theorem attaches_to_session_of_other :
    ∃ (c : (smbMachine NtlmAuthProvider Files anyCall).Config) (tr : Trace anyCall)
      (s : ConnectionHandler),
      SmbRun anyCall c tr ∧ (exchangeOf 0 tr).stage = .created true 1 ∧ createdIds tr = [1] ∧
        (exchangeOf 1 tr).stage = .ending true (some 1) true ∧
        c.phase 1 = .idle (.open s) ∧ (s.signingKeys.lookup 1).isSome = true := by
  obtain ⟨st, hst, hconn, hfirst, hcre, hsec⟩ : ∃ st,
      serveAll (startOn (fun i => if i = 0 then "a" else "b") ntlm : Snapshot anyCall)
        [(0, Client.sessionSetup 0 logonTokens.1), (0, Client.sessionSetup 1 logonTokens.2),
          (1, Client.sessionSetup 0 logonTokens.1), (1, Client.sessionSetup 1 logonTokens.2)] =
        some st ∧ (st.conn 1).any (fun s => (s.signingKeys.lookup 1).isSome) = true ∧
      (exchangeOf 0 st.trace).stage = .created true 1 ∧ createdIds st.trace = [1] ∧
      (exchangeOf 1 st.trace).stage = .ending true (some 1) true :=
    exists_of_any (by decide +kernel)
  have hrun := run_serveAll (run_startOn _ _) hst
  obtain ⟨s, hs, hkey⟩ := Conn.exists_of_any hconn
  exact ⟨st.config, st.trace, s, hrun, hfirst, hcre, hsec,
    congrArg Machine.Phase.idle hs, hkey⟩

/-- Two connections open the same file. -/
theorem fileIds_nodup_iff_two :
    ∃ (c : FilesConfig) (tr : Trace anyCall), SmbRun anyCall c tr ∧ fileIds tr = [2, 1] ∧
        ((fileIds tr).Nodup ↔ (fileIds tr).length ≤ 2 ^ 64) := by
  obtain ⟨st, hst, hids⟩ : ∃ st,
      serveAll (start AnonymousAuthProvider.anonymousOnly : Snapshot anyCall)
        ([0, 1].flatMap fun i =>
          [(i, Client.sessionSetup 0 []), (i, Client.treeConnect (UInt64.ofNat i + 1) "\\\\a\\s"),
            (i, Client.create (UInt64.ofNat i + 1) 1 "f" 0 [])]) = some st ∧
      fileIds st.trace = [2, 1] := exists_of_any (by decide +kernel)
  have hrun := run_serveAll (run_start _) hst
  exact ⟨st.config, st.trace, hrun, hids, fileIds_nodup_iff hrun⟩

end Sample

end RustSmb
