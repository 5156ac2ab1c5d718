import RustSmb.System.Server

/-!
# What a connection is doing

The marks in the history of a connection tell which command it is working on and whether the handler
has taken over; `progress` reads this off.  A property of every call of every handler follows from a
proof for each handler, starting where the dispatcher let the command through (`Passed`).

## Main results

* `gate_wp` — the dispatcher lets a command through only if it has passed.
* `Upkeep.connStart` — what is kept by commands is kept by whole messages.
* `call_cases` — **what every call of every run is**, given a property of the calls of
  every handler.
-/

namespace RustSmb

open List Handler
open Prog (liftEvent)

/-! ### Progress -/

/-- How far a connection is with a command.  `W` is what is known of the moment of each event. -/
inductive Progress (W : Type) where
  /-- No command has been dispatched. -/
  | between
  /-- The command is being checked. -/
  | checking (w : W) (cmd : Command) (g : List (W × Event Smb))
  /-- The handler of the command runs: the events of the checks and its own. -/
  | handling (w : W) (cmd : Command) (g e : List (W × Event Smb))
  /-- The connection goes away. -/
  | leaving

namespace Progress

variable {W W' : Type}

/-- Does a handler run, of a command and with events of a kind? -/
def any (f : W → Command → List (W × Event Smb) → List (W × Event Smb) → Bool) :
    Progress W → Bool
  | .handling w cmd g e => f w cmd g e
  | _ => false

theorem exists_of_any {f : W → Command → List (W × Event Smb) → List (W × Event Smb) → Bool}
    {p : Progress W} (h : p.any f = true) :
    ∃ w cmd g e, p = .handling w cmd g e ∧ f w cmd g e = true := by
  cases p with
  | handling w cmd g e => exact ⟨w, cmd, g, e, rfl, h⟩
  | _ => cases h

/-- After one more call or mark. -/
def next (w : W) : Event SmbT → Progress W → Progress W
  | ⟨.inl o, r⟩, checking d cmd g => checking d cmd ((w, ⟨o, r⟩) :: g)
  | ⟨.inl o, r⟩, handling d cmd g e => handling d cmd g ((w, ⟨o, r⟩) :: e)
  | ⟨.inl _, _⟩, p => p
  | ⟨.inr (.dispatched cmd), _⟩, _ => checking w cmd []
  | ⟨.inr .executing, _⟩, checking d cmd g => handling d cmd g []
  | ⟨.inr .executing, _⟩, p => p
  | ⟨.inr .disconnected, _⟩, _ => leaving

def command : Progress W → Option Command
  | checking _ cmd _ | handling _ cmd _ _ => some cmd
  | _ => none

/-- The calls since the command was dispatched, the last one first. -/
def since : Progress W → List (W × Event Smb)
  | checking _ _ g => g
  | handling _ _ g e => e ++ g
  | _ => []

def forget : Progress W → Progress Unit
  | between => between
  | checking _ cmd g => checking () cmd (g.map fun x => ((), x.2))
  | handling _ cmd g e => handling () cmd (g.map fun x => ((), x.2)) (e.map fun x => ((), x.2))
  | leaving => leaving

theorem forget_next (w : W) (ev : Event SmbT) (p : Progress W) :
    (p.next w ev).forget = p.forget.next () ev := by
  obtain ⟨o | m, r⟩ := ev
  · cases p <;> rfl
  · cases m <;> cases p <;> rfl

end Progress

/-- How far a history has come. -/
def progress {W : Type} (h : List (W × Event SmbT)) : Progress W :=
  h.foldr (fun x p => p.next x.1 x.2) .between

/-- The progress that a history without moments tells. -/
def progressOf (h : List (Event SmbT)) : Progress Unit := progress (h.map fun e => ((), e))

@[simp]
theorem progressOf_cons (ev : Event SmbT) (h : List (Event SmbT)) :
    progressOf (ev :: h) = (progressOf h).next () ev := rfl

variable {W : Type} {g e : List (W × Event Smb)} {w : W} {cmd : Command} {h : List (W × Event SmbT)}
  {x : W × Event Smb}

theorem forget_progress (h : List (W × Event SmbT)) :
    (progress h).forget = progressOf (h.map Prod.snd) := by
  induction h with
  | nil => rfl
  | cons x h ih =>
    have hcons : progress (x :: h) = (progress h).next x.1 x.2 := rfl
    rw [hcons, Progress.forget_next, ih]
    rfl

/-- What was the newest event when a command is being checked, and what the progress was before. -/
theorem progress_cons_checking {y : W × Event SmbT} (hp : progress (y :: h) = .checking w cmd g) :
    (∃ x g', y = (x.1, liftEvent x.2) ∧ g = x :: g' ∧ progress h = .checking w cmd g') ∨
      (y = (w, ⟨.inr (.dispatched cmd), ()⟩) ∧ g = []) := by
  have hcons : progress (y :: h) = (progress h).next y.1 y.2 := rfl
  rw [hcons] at hp
  obtain ⟨w', o | _ | _ | _, r⟩ := y <;> cases hprev : progress h <;> rw [hprev] at hp <;> cases hp
  case inl.checking.refl g' => exact .inl ⟨(w', ⟨o, r⟩), g', rfl, rfl, rfl⟩
  all_goals exact .inr ⟨rfl, rfl⟩

/-- What was the newest event when the handler of a command runs, and what the progress was
before. -/
theorem progress_cons_handling {y : W × Event SmbT} (hp : progress (y :: h) = .handling w cmd g e) :
    (∃ x e', y = (x.1, liftEvent x.2) ∧ e = x :: e' ∧ progress h = .handling w cmd g e') ∨
      (y.2 = ⟨.inr .executing, ()⟩ ∧
        (progress h = .handling w cmd g e ∨ e = [] ∧ progress h = .checking w cmd g)) := by
  have hcons : progress (y :: h) = (progress h).next y.1 y.2 := rfl
  rw [hcons] at hp
  obtain ⟨w', o | _ | _ | _, r⟩ := y <;> cases hprev : progress h <;> rw [hprev] at hp <;> cases hp
  case inl.handling.refl e' => exact .inl ⟨(w', ⟨o, r⟩), e', rfl, rfl, rfl⟩
  case inr.executing.checking.refl => exact .inr ⟨rfl, .inr ⟨rfl, rfl⟩⟩
  case inr.executing.handling.refl => exact .inr ⟨rfl, .inl rfl⟩

/-- Where an event of a handler is in the history: after it, there are only later events of the
handler and marks. -/
theorem split_of_progress_handling {later : List (W × Event Smb)}
    (hp : progress h = .handling w cmd g (later ++ x :: e)) :
    ∃ recent h', h = recent ++ (x.1, liftEvent x.2) :: h' ∧
      progress h' = .handling w cmd g e ∧
      ∀ y ∈ recent, y.2.1 = .inr .executing ∨ ∃ z ∈ later, y = (z.1, liftEvent z.2) := by
  induction h generalizing later with
  | nil => cases hp
  | cons y h ih =>
    rcases progress_cons_handling hp with ⟨z, e', rfl, he, hprev⟩ | ⟨hmark, hprev | ⟨he, -⟩⟩
    · cases later with
      | nil =>
        cases he
        exact ⟨[], h, rfl, hprev, forall_mem_nil _⟩
      | cons z later =>
        cases he
        obtain ⟨recent, h', rfl, hh, hrecent⟩ := ih hprev
        refine ⟨_ :: recent, h', rfl, hh, forall_mem_cons.2 ⟨?_, fun y hy => ?_⟩⟩
        · exact .inr ⟨z, mem_cons_self, rfl⟩
        · exact (hrecent y hy).imp id fun ⟨z, hz, heq⟩ => ⟨z, mem_cons_of_mem _ hz, heq⟩
    · obtain ⟨recent, h', rfl, hh, hrecent⟩ := ih hprev
      exact ⟨y :: recent, h', rfl, hh, forall_mem_cons.2 ⟨.inl (by rw [hmark]), hrecent⟩⟩
    · cases (append_eq_nil_iff.1 he).2

theorem exists_of_progress_handling (hp : progress h = .handling w cmd g e)
    {e' : List (W × Event Smb)} (hx : x :: e' <:+ e) :
    ∃ h', (x.1, liftEvent x.2) :: h' <:+ h ∧ progress h' = .handling w cmd g e' := by
  obtain ⟨later, rfl⟩ := hx
  obtain ⟨recent, h', rfl, hh, -⟩ := split_of_progress_handling hp
  exact ⟨h', suffix_append _ _, hh⟩

theorem exists_of_progress_checking
    (hp : progress h = .checking w cmd g ∨ ∃ e, progress h = .handling w cmd g e)
    {g' : List (W × Event Smb)} (hx : x :: g' <:+ g) :
    ∃ h', (x.1, liftEvent x.2) :: h' <:+ h ∧ progress h' = .checking w cmd g' := by
  induction h generalizing g with
  | nil => rcases hp with hp | ⟨e, hp⟩ <;> cases hp
  | cons y h ih =>
    have hlater : ∀ {g₀}, x :: g' <:+ g₀ →
        (progress h = .checking w cmd g₀ ∨ ∃ e, progress h = .handling w cmd g₀ e) →
        ∃ h', (x.1, liftEvent x.2) :: h' <:+ y :: h ∧ progress h' = .checking w cmd g' := by
      intro g₀ hx hp
      obtain ⟨h', hs, hh⟩ := ih hp hx
      exact ⟨h', hs.trans (suffix_cons y h), hh⟩
    rcases hp with hp | ⟨e, hp⟩
    · rcases progress_cons_checking hp with ⟨z, g₀, rfl, rfl, hprev⟩ | ⟨-, rfl⟩
      · rcases suffix_cons_iff.1 hx with heq | hx
        · cases heq
          exact ⟨h, suffix_refl _, hprev⟩
        · exact hlater hx (.inl hprev)
      · cases suffix_nil.1 hx
    · rcases progress_cons_handling hp with ⟨z, e', -, -, hprev⟩ | ⟨-, hprev | ⟨-, hprev⟩⟩
      · exact hlater hx (.inr ⟨_, hprev⟩)
      · exact hlater hx (.inr ⟨_, hprev⟩)
      · exact hlater hx (.inl hprev)

def isDispatch : SmbOp ⊕ Mark → Bool
  | .inr (.dispatched _) => true
  | _ => false

theorem split_of_progress_checking (hp : progress h = .checking w cmd g) :
    ∃ recent h', h = recent ++ (w, ⟨.inr (.dispatched cmd), ()⟩) :: h' ∧
      ∀ y ∈ recent, isDispatch y.2.1 = false := by
  induction h generalizing g with
  | nil => cases hp
  | cons y h ih =>
    rcases progress_cons_checking hp with ⟨z, g', rfl, rfl, hprev⟩ | ⟨rfl, rfl⟩
    · obtain ⟨recent, h', rfl, hrecent⟩ := ih hprev
      exact ⟨_ :: recent, h', rfl, forall_mem_cons.2 ⟨rfl, hrecent⟩⟩
    · exact ⟨[], h, rfl, forall_mem_nil _⟩

theorem progress_append (older : List (W × Event SmbT)) (hp : progress h ≠ .between) :
    progress (h ++ older) = progress h := by
  induction h with
  | nil => exact absurd rfl hp
  | cons x h ih =>
    have hcons : ∀ h, progress (x :: h) = (progress h).next x.1 x.2 := fun _ => rfl
    rw [cons_append, hcons, hcons]
    rw [hcons] at hp
    obtain ⟨w, ⟨o | m, r⟩⟩ := x
    · refine congrArg _ (ih fun hb => hp ?_)
      rw [hb]
      rfl
    · cases m with
      | dispatched _ | disconnected => cases progress (h ++ older) <;> cases progress h <;> rfl
      | executing =>
        refine congrArg _ (ih fun hb => hp ?_)
        rw [hb]
        rfl

/-- What the progress says is in the history. -/
def Progress.Recorded {W : Type} (h : List (W × Event SmbT)) : Progress W → Prop
  | between => True
  | checking w cmd g => (w, ⟨.inr (.dispatched cmd), ()⟩) ∈ h ∧ ∀ x ∈ g, (x.1, liftEvent x.2) ∈ h
  | handling w cmd g e =>
      (w, ⟨.inr (.dispatched cmd), ()⟩) ∈ h ∧ ∀ x ∈ g ++ e, (x.1, liftEvent x.2) ∈ h
  | leaving => True

theorem recorded_progress (h : List (W × Event SmbT)) : (progress h).Recorded h := by
  induction h with
  | nil => trivial
  | cons x h ih =>
    cases hp : progress (x :: h) with
    | between | leaving => trivial
    | checking w cmd g =>
      rcases progress_cons_checking hp with ⟨z, g', rfl, rfl, hprev⟩ | ⟨rfl, rfl⟩
      · rw [hprev] at ih
        refine ⟨mem_cons_of_mem _ ih.1, forall_mem_cons.2 ⟨mem_cons_self, ?_⟩⟩
        exact fun y hy => mem_cons_of_mem _ (ih.2 y hy)
      · exact ⟨mem_cons_self, forall_mem_nil _⟩
    | handling w cmd g e =>
      rcases progress_cons_handling hp with ⟨z, e', rfl, rfl, hprev⟩ | ⟨-, hprev | ⟨rfl, hprev⟩⟩
      · rw [hprev] at ih
        refine ⟨mem_cons_of_mem _ ih.1, fun y hy => ?_⟩
        rcases mem_append.1 hy with hy | hy
        · exact mem_cons_of_mem _ (ih.2 y (mem_append_left _ hy))
        rcases mem_cons.1 hy with rfl | hy
        · exact mem_cons_self
        · exact mem_cons_of_mem _ (ih.2 y (mem_append_right _ hy))
      · rw [hprev] at ih
        exact ⟨mem_cons_of_mem _ ih.1, fun y hy => mem_cons_of_mem _ (ih.2 y hy)⟩
      · rw [hprev] at ih
        refine ⟨mem_cons_of_mem _ ih.1, fun y hy => ?_⟩
        rw [append_nil] at hy
        exact mem_cons_of_mem _ (ih.2 y hy)

theorem exists_executing {h : List (Event SmbT)} {g e : List (Unit × Event Smb)}
    (hp : progressOf h = .handling () cmd g e) :
    ∃ h', (⟨.inr .executing, ()⟩ :: h') <:+ h ∧ progressOf h' = .checking () cmd g := by
  induction h generalizing e with
  | nil => cases hp
  | cons ev h ih =>
    have hlater : ∀ e', progressOf h = .handling () cmd g e' →
        ∃ h', (⟨.inr .executing, ()⟩ :: h') <:+ (ev :: h) ∧ progressOf h' = .checking () cmd g := by
      intro e' hp'
      obtain ⟨h', hs, hc⟩ := ih hp'
      exact ⟨h', hs.trans (suffix_cons ev h), hc⟩
    rcases progress_cons_handling hp with ⟨x, e', -, -, hprev⟩ | ⟨rfl, hprev | ⟨-, hprev⟩⟩
    · exact hlater e' hprev
    · exact hlater e hprev
    · exact ⟨h, suffix_refl _, hprev⟩

/-- Events as they are recorded without moments. -/
def unstamped (g : List (Event Smb)) : List (Unit × Event Smb) := g.map fun e => ((), e)

theorem progressOf_lift_checking {h : List (Event SmbT)} {g g' : List (Event Smb)}
    (hp : progressOf h = .checking () cmd (unstamped g)) :
    progressOf (g'.map liftEvent ++ h) = .checking () cmd (unstamped (g' ++ g)) := by
  induction g' with
  | nil => exact hp
  | cons e g' ih =>
    rw [map_cons, cons_append, progressOf_cons, ih]
    rfl

theorem progressOf_lift_handling {h : List (Event SmbT)} {g e e' : List (Event Smb)}
    (hp : progressOf h = .handling () cmd (unstamped g) (unstamped e)) :
    progressOf (e'.map liftEvent ++ h) = .handling () cmd (unstamped g) (unstamped (e' ++ e)) := by
  induction e' with
  | nil => exact hp
  | cons ev e' ih =>
    rw [map_cons, cons_append, progressOf_cons, ih]
    rfl

theorem progressOf_lift_leaving {h : List (Event SmbT)} {e : List (Event Smb)}
    (hp : progressOf h = .leaving) : progressOf (e.map liftEvent ++ h) = .leaving := by
  induction e with
  | nil => exact hp
  | cons ev e ih =>
    rw [map_cons, cons_append, progressOf_cons, ih]
    rfl

/-! ### The checks of the dispatcher -/

/-- The calls of the dispatcher's checks. -/
def isCheck (header : Smb2Header) (o : SmbOp) : Prop :=
  o = .store (.getSession header.sessionId) ∨
    o = .store (.getTree header.sessionId header.treeId)

section

open Proc

/-- A command was let through: a session other than 0, if required, is bound and was found in the
store, and so was a required tree. -/
structure Passed (cmd : Command) (g : List (Event Smb)) : Prop where
  /-- The session is bound. -/
  bound : requiresSession cmd.header.command = true → cmd.header.sessionId ≠ 0 →
    cmd.handler.connection.hasSession cmd.header.sessionId = true
  /-- The session was found. -/
  session : requiresSession cmd.header.command = true → cmd.header.sessionId ≠ 0 →
    ∃ session : SessionState,
      ⟨SmbOp.store (.getSession cmd.header.sessionId), .ok (some session)⟩ ∈ g
  /-- The tree was found. -/
  tree : requiresTree cmd.header.command = true → ∃ tree : TreeState,
    ⟨SmbOp.store (.getTree cmd.header.sessionId cmd.header.treeId), .ok (some tree)⟩ ∈ g

theorem sessionGate_wp (header : Smb2Header) (s : ConnectionHandler) :
    wp (fun _ o => isCheck header o) (sessionGate header)
      (onOk (fun _ _ _ => True) fun _ s' g => s' = s ∧
        (requiresSession header.command = true → header.sessionId ≠ 0 →
          s.connection.hasSession header.sessionId = true ∧ ∃ session : SessionState,
            ⟨SmbOp.store (.getSession header.sessionId), .ok (some session)⟩ ∈ g)) s [] := by
  unfold sessionGate
  split
  · unfold checkSession
    simp only [wp_bind, wp_get, wp_require, onOk]
    refine ⟨fun hbound => ?_, fun _ => trivial⟩
    refine wp_storeOrInternal.2 ⟨.inl rfl, fun session => ?_, fun _ => trivial⟩
    cases session with
    | none => simp [wp_bind]
    | some session => exact wp_pure.2 ⟨rfl, fun _ _ => ⟨hbound, session, mem_singleton.2 rfl⟩⟩
  · next hskip => exact wp_pure.2 ⟨rfl, fun hs h0 => absurd ⟨hs, h0⟩ hskip⟩

/-- **The dispatcher lets a command through only if it has passed**, and it leaves the handler's
state as it was. -/
theorem gate_wp (cmd : Command) :
    wp (fun _ o => isCheck cmd.header o) (gate cmd.header)
      (onOk (fun _ _ _ => True) fun _ s g => s = cmd.handler ∧ Passed cmd g)
      cmd.handler [] := by
  unfold gate
  rw [wp_bind]
  refine wp_mono (sessionGate_wp cmd.header cmd.handler) ?_
  rintro (_ | _) s g hg
  · trivial
  obtain ⟨rfl, hsess⟩ := hg
  unfold treeGate
  split
  · simp only [wp_bind, wp_require]
    refine wp_storeOrInternal.2 ⟨.inr rfl, fun tree => ?_, fun _ => trivial⟩
    refine ⟨fun htree => ⟨rfl, ?_⟩, fun _ => trivial⟩
    obtain ⟨tree, rfl⟩ := Option.isSome_iff_exists.1 htree
    refine ⟨fun hs h0 => (hsess hs h0).1, fun hs h0 => ?_, fun _ => ?_⟩
    · obtain ⟨session, hmem⟩ := (hsess hs h0).2
      exact ⟨session, mem_cons_of_mem _ hmem⟩
    · exact ⟨tree, mem_cons_self⟩
  · next htree =>
    exact wp_pure.2 ⟨rfl, fun hs h0 => (hsess hs h0).1, fun hs h0 => (hsess hs h0).2,
      fun ht => absurd ht htree⟩

/-! ### The calls of a connection -/

/-- The calls of a connection that goes away. -/
def isFarewell : SmbOp → Prop
  | .registry _ (.unregisterConnectionLeases _ _) => True
  | .registry _ (.unregisterConnectionOplocks _ _) => True
  | .store (.getHandlesBySession _) => True
  | .store (.updateHandle handle) => handle.sessionId = 0
  | .now => True
  | _ => False

theorem closeSession_farewell {P : ConnectionHandler → Prop} (sessionId : UInt64) :
    Keeps (fun s _ => P s) (fun _ o => isFarewell o) (closeSession sessionId) := by
  refine keeps_bind keeps_get fun s => ?_
  refine keeps_bind (keeps_registry fun _ _ => trivial) fun _ => ?_
  refine keeps_bind (keeps_registry fun _ _ => trivial) fun _ => ?_
  refine keeps_bind (keeps_store fun _ => trivial) fun r => ?_
  cases r with
  | error e => exact keeps_pure
  | ok handles =>
    refine keeps_forEach fun handle _ => keeps_when fun _ => ?_
    refine keeps_bind (keeps_now fun _ => trivial) fun now => ?_
    refine keeps_bind (keeps_store fun _ => ?_) fun _ => keeps_pure
    exact HandleState.prepareForReconnect_sessionId handle 60000 now

/-- The calls that a connection may make when its handlers may make those in `J`, of the command,
the events of the checks and of the handler, and the call. -/
def Calls (J : Command → List (Event Smb) → List (Event Smb) → SmbOp → Prop)
    (h : List (Event SmbT)) : SmbOp ⊕ Mark → Prop
  | .inr .executing => ∃ cmd g, progressOf h = .checking () cmd (unstamped g) ∧ Passed cmd g
  | .inr _ => True
  | .inl o =>
      match progressOf h with
      | .between => False
      | .checking _ cmd _ => isCheck cmd.header o
      | .handling _ cmd g e => J cmd (g.map Prod.snd) (e.map Prod.snd) o
      | .leaving => isFarewell o

theorem map_snd_unstamped (g : List (Event Smb)) : (unstamped g).map Prod.snd = g := by
  unfold unstamped
  rw [map_map]
  exact map_id g

section Calls

variable {J : Command → List (Event Smb) → List (Event Smb) → SmbOp → Prop}

variable {h : List (Event SmbT)}

theorem calls_leaving (hp : progressOf h = .leaving) (o : SmbOp) :
    Calls J h (.inl o) ↔ isFarewell o := by
  unfold Calls
  rw [hp]

theorem closeConnection_calls : Always (Calls J) closeConnection := by
  intro s h _
  unfold closeConnection
  simp only [wp_bind, wp_mark, wp_get, onOk]
  refine ⟨trivial, wp_mono (Q := onOk (fun _ _ _ => True)
    fun _ _ h => progressOf h = .leaving) (wp_forEach ?_ rfl) fun _ _ _ _ => trivial⟩
  intro sessionId _ s h hp
  refine wp_lift.2 (wp_mono
    (wp_weaken (closeSession_farewell (P := fun _ => True) sessionId s [] trivial) ?_) ?_)
  · intro e o ho
    rw [calls_leaving (progressOf_lift_leaving hp)]
    exact ho
  · rintro (_ | _) s e -
    · trivial
    · exact progressOf_lift_leaving hp

variable [Externs]

/-- What has to be shown of each handler, once its command has passed. -/
def HandlersMake (J : Command → List (Event Smb) → List (Event Smb) → SmbOp → Prop) : Prop :=
  ∀ cmd g, Passed cmd g →
    wp (J cmd g) (handleCommand cmd.header cmd.body cmd.fullMessage)
      (fun _ _ _ => True) cmd.handler []

theorem dispatchCommand_calls (hJ : HandlersMake J) (received : Bytes) (header : Smb2Header)
    (body fullMessage : Bytes) :
    Always (Calls J) (dispatchCommand received header body fullMessage) := by
  intro s h _
  let cmd : Command := ⟨received, header, body, fullMessage, s⟩
  have hd : progressOf (⟨.inr (.dispatched cmd), ()⟩ :: h) = .checking () cmd (unstamped []) := rfl
  unfold dispatchCommand
  simp only [wp_bind, wp_get, wp_mark, wp_lift, onOk]
  refine ⟨trivial, ?_⟩
  refine wp_mono (wp_weaken (gate_wp cmd) fun g o ho => ?_) ?_
  · rw [Calls, progressOf_lift_checking hd]
    exact ho
  rintro (_ | _) s' g hg
  · trivial
  obtain ⟨rfl, hpass⟩ := hg
  refine ⟨⟨cmd, g, ?_, hpass⟩, wp_weaken (hJ cmd g hpass) fun e o ho => ?_⟩
  · rw [progressOf_lift_checking hd, append_nil]
  have hx : progressOf (⟨.inr .executing, ()⟩ ::
      (g.map liftEvent ++ ⟨.inr (.dispatched cmd), ()⟩ :: h)) =
      .handling () cmd (unstamped g) (unstamped []) := by
    rw [progressOf_cons, progressOf_lift_checking hd, append_nil]
    rfl
  rw [Calls, progressOf_lift_handling hx]
  simpa only [map_snd_unstamped, append_nil] using ho

end Calls

end

open Prog

/-! ### Messages -/

/-- What a connection keeps, and its calls meanwhile.  `R` relates the private state to the
history and looks at the context of the exchange only. -/
structure Conduct [Externs] (R : ConnectionHandler → List (Event SmbT) → Prop)
    (K : List (Event SmbT) → SmbOp ⊕ Mark → Prop) : Prop where
  frame : ∀ {s s' : ConnectionHandler} {h : List (Event SmbT)},
    s'.authContext = s.authContext → R s h → R s' h
  dispatch : ∀ received header body fullMessage,
    Proc.Keeps R K (dispatchCommand received header body fullMessage)
  close : Proc.Keeps R K closeConnection

/-- What a connection keeps, and its calls meanwhile, if `R` may speak about all of the private
state: taking credits keeps it. -/
structure Upkeep [Externs] (R : ConnectionHandler → List (Event SmbT) → Prop)
    (K : List (Event SmbT) → SmbOp ⊕ Mark → Prop) : Prop where
  consume : ∀ header, Proc.Keeps R K (consumeCredits header)
  dispatch : ∀ received header body fullMessage,
    Proc.Keeps R K (dispatchCommand received header body fullMessage)
  close : Proc.Keeps R K closeConnection

def Conn.Satisfies (R : ConnectionHandler → List (Event SmbT) → Prop) (c : Conn)
    (h : List (Event SmbT)) : Prop :=
  match c with
  | .open s => R s h
  | .closed => True

namespace Upkeep

open Proc

theorem keeps_lift_getOrFail {α : Type} (x : Option α) (st : NtStatus) :
    Keeps R K (lift (getOrFail x st) : Traced α) := by
  cases x with
  | none => exact keeps_throw
  | some a => exact keeps_pure

theorem keeps_lift_parsed {α : Type} (x : Option α) :
    Keeps R K (lift (parsed x) : Traced α) := by
  cases x with
  | none => exact keeps_throw
  | some a => exact keeps_pure

theorem keeps_effectiveHeader (st : CompoundState) (header : Smb2Header) :
    Keeps R K (effectiveHeader st header) := by
  unfold effectiveHeader
  split
  · refine keeps_bind (keeps_lift_getOrFail _ _) fun _ => ?_
    exact keeps_bind (keeps_lift_getOrFail _ _) fun _ => keeps_pure
  · exact keeps_pure

theorem keeps_orErrorResponse (message : Bytes) (r : Except HandlerError Bytes) :
    Keeps R K (orErrorResponse message r) := by
  cases r with
  | ok response => exact keeps_pure
  | error e => exact keeps_bind (keeps_lift_parsed _) fun _ => keeps_pure

variable [Externs] {R : ConnectionHandler → List (Event SmbT) → Prop}
  {K : List (Event SmbT) → SmbOp ⊕ Mark → Prop}

theorem keeps_signResponse (response : Bytes) : Keeps R K (signResponse response) :=
  keeps_bind keeps_get fun _ => keeps_pure

theorem keeps_compoundError (st : CompoundState) (header : Smb2Header)
    (status : NtStatus) : Keeps R K (compoundError st header status) :=
  keeps_bind (keeps_signResponse _) fun _ => keeps_pure

variable (hc : Upkeep R K)
include hc

theorem processSingleMessage (header : Smb2Header) (message : Bytes) :
    Keeps R K (processSingleMessage header message) :=
  keeps_bind (hc.consume header) fun _ =>
    keeps_bind (hc.dispatch message header _ message) fun _ => keeps_pure

theorem executeCompoundCommand (st : CompoundState) (header : Smb2Header)
    (cmdData : Bytes) : Keeps R K (executeCompoundCommand st header cmdData) := by
  refine keeps_bind (hc.consume header) fun _ => keeps_bind ?_ fun r => ?_
  · refine keeps_attempt ?_
    exact keeps_bind (hc.dispatch _ header _ _) fun _ => keeps_pure
  · cases r with
    | error e => exact keeps_compoundError st header e.toStatus
    | ok r => exact keeps_bind (keeps_signResponse _) fun _ => keeps_pure

theorem processCompoundCommand (st : CompoundState) (cmdData : Bytes) :
    Keeps R K (processCompoundCommand st cmdData) := by
  unfold Handler.processCompoundCommand
  cases Smb2Header.read cmdData with
  | none => exact keeps_compoundError st _ _
  | some header =>
    refine keeps_bind (keeps_effectiveHeader st header) fun header => ?_
    split
    · exact keeps_compoundError st header _
    · exact hc.executeCompoundCommand st header cmdData

theorem processCompoundCommands (cmds : List Bytes) (st : CompoundState) :
    Keeps R K (processCompoundCommands cmds st) := by
  induction cmds generalizing st with
  | nil => exact keeps_pure
  | cons cmdData rest ih =>
    refine keeps_bind (hc.processCompoundCommand st cmdData) fun r => ?_
    exact keeps_bind (ih r.2) fun _ => keeps_pure

theorem processMessage (message : Bytes) : Keeps R K (processMessage message) := by
  refine keeps_bind (keeps_lift_parsed _) fun header => ?_
  split
  · unfold processCompoundRequest
    split
    · refine keeps_bind (keeps_lift_parsed _) fun _ => ?_
      refine keeps_bind (hc.processCompoundCommands _ _) fun _ => ?_
      exact keeps_bind keeps_get fun _ => keeps_ofExcept
    · exact hc.processSingleMessage header message
  · exact hc.processSingleMessage header message

theorem processAndRespond (message : Bytes) :
    Keeps R K (processAndRespond message) := by
  refine keeps_bind (keeps_attempt (hc.processMessage message)) fun r => ?_
  refine keeps_bind (keeps_orErrorResponse message r) fun response => ?_
  split
  · exact keeps_pure
  · exact keeps_bind (keeps_signResponse _) fun _ => keeps_pure

/-- **The programs of a connection conduct themselves like their parts.** -/
theorem connStart {c : Conn} {p : Prog SmbT Conn} (hp : ConnStart c p) {h : List (Event SmbT)}
    (hR : c.Satisfies R h) : p.wp K (fun c h => c.Satisfies R h) h := by
  have hclosing : ∀ s h, R s h → (closing s).wp K (fun c h => c.Satisfies R h) h := by
    intro s h hs
    refine wp_bind.2 (wp_mono (wp_iff.1 (hc.close s h hs)) ?_)
    exact fun _ _ _ => trivial
  cases hp with
  | message s m =>
    refine wp_bind.2 (wp_mono (wp_iff.1 (hc.processAndRespond m s h hR)) ?_)
    rintro ⟨_ | _, s⟩ h hs
    · exact hclosing s h hs
    · exact hs
  | leave s => exact hclosing s h hR

end Upkeep

namespace Conduct

variable [Externs] {R : ConnectionHandler → List (Event SmbT) → Prop}
  {K : List (Event SmbT) → SmbOp ⊕ Mark → Prop}

theorem upkeep (hc : Conduct R K) : Upkeep R K :=
  ⟨fun _ => Proc.keeps_when fun _ => Proc.keeps_modify fun s _ hs => hc.frame (s := s) rfl hs,
    hc.dispatch, hc.close⟩

theorem connStart (hc : Conduct R K) {c : Conn} {p : Prog SmbT Conn} (hp : ConnStart c p)
    {h : List (Event SmbT)} (hR : c.Satisfies R h) : p.wp K (fun c h => c.Satisfies R h) h :=
  hc.upkeep.connStart hp hR

end Conduct

theorem connStart_calls [Externs]
    {J : Command → List (Event Smb) → List (Event Smb) → SmbOp → Prop} (hJ : HandlersMake J)
    {c : Conn} {p : Prog SmbT Conn} (hp : ConnStart c p) :
    p.wp (Calls J) (fun _ _ => True) [] := by
  have hc : Conduct (fun _ _ => True) (Calls J) :=
    ⟨fun _ => id, dispatchCommand_calls hJ, closeConnection_calls⟩
  refine wp_mono (hc.connStart hp ?_) fun _ _ _ => trivial
  cases c <;> trivial

/-! ### Runs -/

section Runs

variable [Externs] {α β : Type} [AuthProvider α] [StorageBackend β]
  {ok : World α β → SmbOp ⊕ Mark → Prop} {i : ℕ}
  {p : Prog SmbT Conn} {h : List (smbMachine α β ok).Stamped}

def stamps (h : List (smbMachine α β ok).Stamped) : List (World α β × Event SmbT) :=
  h.map fun e => (e.world, e.event)

theorem forget_stamps : (progress (stamps h)).forget = progressOf (Machine.events h) := by
  rw [forget_progress]
  unfold stamps Machine.events
  rw [map_map]
  rfl

variable {q : Prog SmbT Conn} {g e : List (World α β × Event Smb)} {w : World α β} {cmd : Command}

theorem answered_stamps (hrun : Machine.Running i p h q) :
    ∀ x ∈ stamps h, ∃ w', answerMarks World.answer x.2.1 x.1 = (x.2.2, w') ∧ ok x.1 x.2.1 := by
  intro x hx
  obtain ⟨e, he, rfl⟩ := mem_map.1 hx
  exact hrun.answered e he

theorem exists_suffix_of_stamps {x : World α β × Event SmbT} {H : List (World α β × Event SmbT)}
    (hs : x :: H <:+ stamps h) : ∃ st h', st :: h' <:+ h ∧ (st.world, st.event) = x ∧
      stamps h' = H := by
  obtain ⟨t, ht⟩ := hs
  obtain ⟨t', rest, hh, -, hrest⟩ := map_eq_append_iff.1 ht.symm
  obtain ⟨st, h', rfl, hx, hH⟩ := map_eq_cons_iff.1 hrest
  exact ⟨st, h', ⟨t', hh.symm⟩, hx, hH⟩

section Moments

variable {c : (smbMachine α β ok).Config} {tr : Trace ok} {q : Prog SmbT Conn} {w : World α β}
  {cmd : Command} {g e : List (World α β × Event Smb)}

theorem progress_stamps_append {older : List (smbMachine α β ok).Stamped} {P : Progress (World α β)}
    (hp : progress (stamps h) = P) (hP : P ≠ .between) :
    progress (stamps (h ++ older)) = P := by
  rw [stamps, map_append]
  exact (progress_append _ fun hb => hP (hp.symm.trans hb)).trans hp

theorem exists_of_stamps (hrun : SmbRun ok c tr) (hi : c.phase i = .busy p h q)
    {x : World α β × Event SmbT} {H : List (World α β × Event SmbT)} (hs : x :: H <:+ stamps h) :
    ∃ st tr', (i, st) :: tr' <:+ tr ∧ st.world = x.1 ∧ st.event = x.2 ∧
      ∀ P, progress H = P → P ≠ .between → progress (stamps (pastOf i tr')) = P := by
  obtain ⟨st, h', ⟨before, rfl⟩, heq, rfl⟩ := exists_suffix_of_stamps hs
  obtain ⟨older, hpast⟩ := SmbRun.past_eq hrun hi
  rw [append_assoc, cons_append] at hpast
  obtain ⟨tr', hsuf, hpast'⟩ := Machine.exists_of_past hpast
  refine ⟨st, tr', hsuf, congrArg Prod.fst heq, congrArg Prod.snd heq, fun P hH hP => ?_⟩
  rw [pastOf, hpast']
  exact progress_stamps_append hH hP

variable {x : World α β × Event Smb}

section Busy

variable (hrun : SmbRun ok c tr) (hi : c.phase i = .busy p h q)

include hrun hi

theorem exists_event (hp : progress (stamps h) = .handling w cmd g e)
    {e' : List (World α β × Event Smb)} (hx : x :: e' <:+ e) :
    ∃ st tr', (i, st) :: tr' <:+ tr ∧ st.world = x.1 ∧ st.event = liftEvent x.2 ∧
      progress (stamps (pastOf i tr')) = .handling w cmd g e' := by
  obtain ⟨H, hs, hprog⟩ := exists_of_progress_handling hp hx
  obtain ⟨st, tr', hsuf, hworld, hev, hpast⟩ := exists_of_stamps hrun hi hs
  exact ⟨st, tr', hsuf, hworld, hev, hpast _ hprog nofun⟩

theorem exists_check (hp : progress (stamps h) = .handling w cmd g e)
    {g' : List (World α β × Event Smb)} (hx : x :: g' <:+ g) :
    ∃ st tr', (i, st) :: tr' <:+ tr ∧ st.world = x.1 ∧ st.event = liftEvent x.2 ∧
      progress (stamps (pastOf i tr')) = .checking w cmd g' := by
  obtain ⟨H, hs, hprog⟩ := exists_of_progress_checking (.inr ⟨e, hp⟩) hx
  obtain ⟨st, tr', hsuf, hworld, hev, hpast⟩ := exists_of_stamps hrun hi hs
  exact ⟨st, tr', hsuf, hworld, hev, hpast _ hprog nofun⟩

theorem progress_past {P : Progress (World α β)} (hp : progress (stamps h) = P)
    (hP : P ≠ .between) : progress (stamps (pastOf i tr)) = P := by
  obtain ⟨older, hpast⟩ := SmbRun.past_eq hrun hi
  rw [hpast]
  exact progress_stamps_append hp hP

theorem split_event {later : List (World α β × Event Smb)}
    (hp : progress (stamps h) = .handling w cmd g (later ++ x :: e)) :
    ∃ recent st older, pastOf i tr = recent ++ st :: older ∧ st.world = x.1 ∧
      st.event = liftEvent x.2 ∧ ∀ y ∈ recent, y.event.1 = .inr .executing ∨
        ∃ z ∈ later, y.event = liftEvent z.2 := by
  obtain ⟨recent, H, hs, -, hrecent⟩ := split_of_progress_handling hp
  obtain ⟨before, rest, rfl, rfl, hrest⟩ := map_eq_append_iff.1 hs
  obtain ⟨st, h', rfl, heq, -⟩ := map_eq_cons_iff.1 hrest
  obtain ⟨older, hpast⟩ := SmbRun.past_eq hrun hi
  rw [append_assoc, cons_append] at hpast
  refine ⟨before, st, h' ++ older, hpast, congrArg Prod.fst heq, congrArg Prod.snd heq,
    fun y hy => ?_⟩
  rcases hrecent _ (mem_map_of_mem hy) with hmark | ⟨z, hz, heq⟩
  · exact .inl hmark
  · exact .inr ⟨z, hz, congrArg Prod.snd heq⟩

end Busy

omit [AuthProvider α] [StorageBackend β] [Externs] in
/-- What later events of a handler are not, the later part of the past is not. -/
theorem not_of_later {f : SmbT.Op → Bool} (hmark : f (.inr .executing) = false)
    {later : List (World α β × Event Smb)} (hlater : ∀ z ∈ later, f (.inl z.2.1) = false)
    {y : Event SmbT}
    (hy : y.1 = .inr .executing ∨ ∃ z ∈ later, y = liftEvent z.2) : f y.1 = false := by
  rcases hy with hop | ⟨z, hz, rfl⟩
  · rwa [hop]
  · exact hlater z hz

theorem exists_dispatch (hrun : SmbRun ok c tr) (hi : c.phase i = .busy p h q)
    (hp : progress (stamps h) = .handling w cmd g e) :
    ∃ st tr', (i, st) :: tr' <:+ tr ∧ st.world = w ∧ st.event = ⟨.inr (.dispatched cmd), ()⟩ := by
  have hrec := recorded_progress (stamps h)
  rw [hp] at hrec
  obtain ⟨before, after, happend⟩ := append_of_mem hrec.1
  obtain ⟨st, tr', hsuf, hworld, hev, -⟩ := exists_of_stamps hrun hi ⟨before, happend.symm⟩
  exact ⟨st, tr', hsuf, hworld, hev⟩

end Moments

/-- What is known while the handler of a command runs. -/
structure Handling (ok : World α β → SmbOp ⊕ Mark → Prop) (w : World α β) (cmd : Command)
    (g e : List (World α β × Event Smb)) : Prop where
  /-- The command has passed the checks of the dispatcher. -/
  passed : Passed cmd (g.map Prod.snd)
  /-- The command met the condition of the run when it was dispatched. -/
  dispatched : ok w (.inr (.dispatched cmd))
  /-- The replies so far came from the worlds that the calls met. -/
  answered : ∀ x ∈ g ++ e, (World.answer x.2.1 x.1).1 = x.2.2

/-- **What is known while the handler of a command runs, in every run.** -/
theorem handling (hrun : Machine.Running i p h q) (hp : progress (stamps h) = .handling w cmd g e) :
    Handling ok w cmd g e := by
  have hrec := recorded_progress (stamps h)
  rw [hp] at hrec
  refine ⟨?_, (answered_stamps hrun _ hrec.1).choose_spec.2, fun x hx => ?_⟩
  · have hfor : progressOf (Machine.events h) = (progress (stamps h)).forget := forget_stamps.symm
    rw [hp] at hfor
    obtain ⟨h', hs, hchecking⟩ := exists_executing hfor
    have htrivial : HandlersMake fun _ _ _ _ => True := fun _ _ _ =>
      Proc.wp_of_forall (fun _ _ _ => trivial) fun _ _ _ _ => trivial
    obtain ⟨cmd', g', hchecking', hpass⟩ :=
      hrun.past_wp (fun _ _ _ hp => connStart_calls htrivial hp) hs
    rw [hchecking, Progress.checking.injEq] at hchecking'
    obtain ⟨-, rfl, hg⟩ := hchecking'
    have hg' := congrArg (map Prod.snd) hg
    rw [map_snd_unstamped, map_map] at hg'
    exact hg' ▸ hpass
  · obtain ⟨w', hw', -⟩ := answered_stamps hrun _ (hrec.2 x hx)
    exact congrArg Prod.fst hw'

theorem exists_moment {c : (smbMachine α β ok).Config} {tr : Trace ok} (hrun : SmbRun ok c tr)
    (hi : c.phase i = .busy p h q) (hp : progress (stamps h) = .handling w cmd g e)
    {before after : List (Event Smb)} {ev : Event Smb}
    (he : e.map Prod.snd = before ++ ev :: after) :
    ∃ st tr' e', (i, st) :: tr' <:+ tr ∧ st.event = liftEvent ev ∧
      progress (stamps (pastOf i tr')) = .handling w cmd g e' ∧ e'.map Prod.snd = after ∧
      (World.answer ev.1 st.world).1 = ev.2 := by
  obtain ⟨later, rest, rfl, -, hrest⟩ := map_eq_append_iff.1 he
  obtain ⟨⟨w', ev⟩, e', rfl, rfl, rfl⟩ := map_eq_cons_iff.1 hrest
  obtain ⟨st, tr', hsuf, hworld, hev, hprog⟩ := exists_event hrun hi hp (suffix_append later _)
  refine ⟨st, tr', e', hsuf, hev, hprog, rfl, ?_⟩
  rw [hworld]
  exact (handling (SmbReachable.running hrun.reachable hi) hp).answered _
    (mem_append_right g (mem_append_right later mem_cons_self))

theorem handling_allowed (hrun : Machine.Running i p h q)
    (hp : progress (stamps h) = .handling w cmd g e) : ∀ x ∈ e, ok x.1 (.inl x.2.1) := by
  intro x hx
  have hrec := recorded_progress (stamps h)
  rw [hp] at hrec
  obtain ⟨w', -, hok⟩ := answered_stamps hrun _ (hrec.2 x (mem_append_right g hx))
  exact hok

variable {J : Command → List (Event Smb) → List (Event Smb) → SmbOp → Prop}

/-- **What every call of every run is**, given a property of the handlers' calls: a check of the
dispatcher, a call of a handler, or part of leaving. -/
theorem call_cases (hJ : HandlersMake J) {o : SmbOp} {k : SmbT.Res (.inl o) → Prog SmbT Conn}
    (hrun : Machine.Running i p h (.call (.inl o) k)) :
    (∃ w cmd g, progress (stamps h) = .checking w cmd g ∧ isCheck cmd.header o) ∨
    (∃ w cmd g e, progress (stamps h) = .handling w cmd g e ∧ Handling ok w cmd g e ∧
      J cmd (g.map Prod.snd) (e.map Prod.snd) o) ∨
    (progress (stamps h) = .leaving ∧ isFarewell o) := by
  obtain ⟨s, hs⟩ := hrun.started
  have hcalls := wp_sound (connStart_calls hJ hs) hrun.reaches
  unfold Calls at hcalls
  rw [← forget_stamps] at hcalls
  cases hp : progress (stamps h) with
  | between =>
    rw [hp] at hcalls
    exact hcalls.elim
  | checking w cmd g =>
    rw [hp] at hcalls
    exact .inl ⟨w, cmd, g, rfl, hcalls⟩
  | leaving =>
    rw [hp] at hcalls
    exact .inr (.inr ⟨rfl, hcalls⟩)
  | handling w cmd g e =>
    rw [hp] at hcalls
    simp only [Progress.forget, map_map] at hcalls
    exact .inr (.inl ⟨w, cmd, g, e, rfl, handling hrun hp, hcalls⟩)

/-- A call that is neither a check nor part of leaving is one of the handler of a command. -/
theorem handler_call (hJ : HandlersMake J) {o : SmbOp} {k : SmbT.Res (.inl o) → Prog SmbT Conn}
    (hrun : Machine.Running i p h (.call (.inl o) k)) (hchk : ∀ header, ¬ isCheck header o)
    (hfare : ¬ isFarewell o) :
    ∃ w cmd g e, progress (stamps h) = .handling w cmd g e ∧ Handling ok w cmd g e ∧
      J cmd (g.map Prod.snd) (e.map Prod.snd) o := by
  rcases call_cases hJ hrun with ⟨_, cmd, _, -, h⟩ | hhand | ⟨-, h⟩
  · exact absurd h (hchk cmd.header)
  · exact hhand
  · exact absurd h hfare

/-- **The events of a handler are a history of its program.** -/
theorem handling_reaches (hrun : Machine.Running i p h q)
    (hp : progress (stamps h) = .handling w cmd g e) :
    ∃ q, (handleCommand cmd.header cmd.body cmd.fullMessage cmd.handler).Reaches []
      (e.map Prod.snd) q := by
  cases e with
  | nil => exact ⟨_, .refl⟩
  | cons x e =>
    -- the newest call was one that the program makes after the others
    have hself : HandlersMake fun cmd _ e o =>
        ∃ k, (handleCommand cmd.header cmd.body cmd.fullMessage cmd.handler).Reaches []
          e (.call o k) := fun cmd _ _ =>
      Proc.wp_iff.2 (wp_mono (wp_self _) fun _ _ _ => trivial)
    obtain ⟨H, hs, hprog⟩ := exists_of_progress_handling hp (suffix_refl _)
    obtain ⟨st, h', hsuf, heq, rfl⟩ := exists_suffix_of_stamps hs
    have hevs : st.event :: Machine.events h' <:+ Machine.events h := hsuf.map Machine.Stamped.event
    have hcalls := hrun.past_wp (fun _ _ _ hp => connStart_calls hself hp) hevs
    have hev : st.event = liftEvent x.2 := congrArg Prod.snd heq
    rw [hev] at hcalls
    unfold Calls at hcalls
    rw [← forget_stamps, hprog] at hcalls
    simp only [liftEvent, Progress.forget, map_map] at hcalls
    obtain ⟨k, hk⟩ := hcalls
    exact ⟨_, hk.step x.2.2⟩

/-- The handler of a command has ended: what is left of it after calls that met the worlds of its
events. -/
def Ended (cmd : Command) (e : List (World α β × Event Smb))
    (r : Except HandlerError (Option Response)) : Prop :=
  ∃ s, (handleCommand cmd.header cmd.body cmd.fullMessage cmd.handler).feed World.answer
    (e.reverse.map Prod.fst) = .ret (r, s)

/-- The handler of a command has returned a response. -/
abbrev Answered (cmd : Command) (e : List (World α β × Event Smb)) (response : Option Response) :
    Prop :=
  Ended cmd e (.ok response)

/-- What is proved of a handler holds once it has ended. -/
theorem Ended.post {r : Except HandlerError (Option Response)} (hended : Ended cmd e r)
    (hrun : Machine.Running i p h q) (hp : progress (stamps h) = .handling w cmd g e)
    {I : List (Event Smb) → SmbOp → Prop}
    {Q : Except HandlerError (Option Response) → ConnectionHandler → List (Event Smb) → Prop}
    (hwp : Proc.wp I (handleCommand cmd.header cmd.body cmd.fullMessage) Q cmd.handler []) :
    ∃ s, Q r s (e.map Prod.snd) := by
  obtain ⟨s, hs⟩ := hended
  obtain ⟨q, hq⟩ := handling_reaches hrun hp
  have hgave : ∀ x ∈ e, (World.answer x.2.1 x.1).1 = x.2.2 := fun x hx =>
    (handling hrun hp).answered x (mem_append_right g hx)
  rw [hq.feed_eq hgave] at hs
  rw [hs] at hq
  exact ⟨s, wp_reaches hq (Proc.wp_iff.1 hwp)⟩

end Runs

end RustSmb
