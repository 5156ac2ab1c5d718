import RustSmb.System.Settings
import RustSmb.System.TreeAccess

/-!
# Detecting a downgrade

FSCTL_VALIDATE_NEGOTIATE_INFO lets a client find out whether somebody has tampered with its
NEGOTIATE: it sends again what it had sent, and the server compares.  So what was negotiated must
not change afterwards, and the server must come to the same dialect again.  But it accepts any
number of NEGOTIATE requests, and compares the dialect only with the list of the client: a list from
which it would select a better dialect passes.

## Main results

* `downgrade_detected` — **one negotiation and no better list: a downgrade is detected.**
* `Sample.downgrade_undetected` — a connection that negotiates twice.
-/

namespace RustSmb

open Bytes List Handler Proc

variable {h : List (Event SmbT)} {cmd : Command}

/-! ### Requests -/

def isNegotiation (cmd : Command) : Bool := cmd.header.command == .negotiate

def isValidation (cmd : Command) : Bool :=
  cmd.header.command == .ioctl && cmd.body.u32 4 == 0x00140204

/-- The client's identifier in a NEGOTIATE request. -/
def negotiateGuid (cmd : Command) : Bytes := cmd.body.slice 12 16

/-- The NEGOTIATE requests in a history, the newest first. -/
def negotiationsOf (h : List (Event SmbT)) : List Command := (commandsOf h).filter isNegotiation

def firstNegotiation (h : List (Event SmbT)) : Option Command := (negotiationsOf h).getLast?

theorem mem_negotiationsOf :
    cmd ∈ negotiationsOf h ↔ cmd ∈ commandsOf h ∧ cmd.header.command = .negotiate := by
  simp [negotiationsOf, isNegotiation]

/-- The dialects in the input of a validation, as far as the input has them. -/
def validateDialects (input : Bytes) : List UInt16 :=
  (range (input.u16 22).toNat).filterMap fun i =>
    if 24 + i * 2 + 2 ≤ input.length then some (input.u16 (24 + i * 2)) else none

theorem validateListsDialect_iff {input : Bytes} {revision : UInt16} :
    validateListsDialect input revision = true ↔ revision ∈ validateDialects input := by
  unfold validateListsDialect validateDialects
  rw [any_eq_true, mem_filterMap]
  refine exists_congr fun i => and_congr_right fun _ => ?_
  split
  · next h => simp [h]
  · next h => simp [h]

/-- Does the input of a validation list no dialect that the server prefers to the one that was
negotiated? -/
def listsNothingBetter (input : Bytes) (dialect : SmbDialect) : Bool :=
  (serverDialects.takeWhile fun d => d.2 != dialect).all
    fun d => !validateListsDialect input d.1

/-- A dialect that was selected is one of the server's, and stands there with its revision. -/
theorem mem_serverDialects_of_select {dialects : List UInt16} {dialect : SmbDialect}
    (h : selectDialect dialects = some dialect) : (dialect.revision, dialect) ∈ serverDialects := by
  unfold selectDialect at h
  obtain ⟨d, hfind, rfl⟩ := Option.map_eq_some_iff.1 h
  have hmem := mem_of_find?_eq_some hfind
  revert hmem
  unfold serverDialects
  simp only [mem_cons, not_mem_nil, or_false]
  rintro (rfl | rfl | rfl | rfl) <;> decide

theorem select_eq_of_listed {input : Bytes} {dialect : SmbDialect}
    (hsrv : (dialect.revision, dialect) ∈ serverDialects)
    (hlisted : validateListsDialect input dialect.revision = true)
    (hbest : listsNothingBetter input dialect = true) :
    selectDialect (validateDialects input) = some dialect := by
  have hin := validateListsDialect_iff.1 hlisted
  have hout : ∀ d ∈ serverDialects.takeWhile (fun d => d.2 != dialect),
      d.1 ∉ validateDialects input := by
    intro d hd hmem
    have hnot := all_eq_true.1 hbest d hd
    rw [validateListsDialect_iff.2 hmem] at hnot
    cases hnot
  have hsplit : ∃ rest, serverDialects = serverDialects.takeWhile (fun d => d.2 != dialect) ++
      (dialect.revision, dialect) :: rest := by
    cases dialect with
    | smb311 => exact absurd hsrv (by decide)
    | _ => exact ⟨_, rfl⟩
  obtain ⟨rest, hsplit⟩ := hsplit
  have hfind : serverDialects.find? (fun d => (validateDialects input).contains d.1) =
      some (dialect.revision, dialect) := by
    refine find?_eq_some_iff_append.2 ⟨by simpa using hin, _, rest, hsplit, fun d hd => ?_⟩
    simpa using hout d hd
  unfold selectDialect
  rw [hfind]
  rfl

/-! ### What was negotiated -/

/-- The dialect and the client's identifier come from a NEGOTIATE request, and a dialect is not
taken away. -/
structure Negotiated (s : ConnectionHandler) (h : List (Event SmbT)) : Prop where
  origin : ∀ dialect, s.connection.dialect = some dialect → ∃ cmd ∈ negotiationsOf h,
    selectDialect (negotiateDialects cmd.body) = some dialect ∧
      s.connection.clientGuid = negotiateGuid cmd
  stays : ∀ cmd ∈ commandsOf h, cmd.handler.connection.dialect.isSome = true →
    s.connection.dialect.isSome = true

/-- What was negotiated in one state is what was negotiated in a later one. -/
def KeepsNegotiated (s s' : ConnectionHandler) : Prop :=
  ∀ dialect, s.connection.dialect = some dialect →
    s'.connection.dialect = some dialect ∧ s'.connection.clientGuid = s.connection.clientGuid

/-- In a history with one NEGOTIATE, what was negotiated when a command was dispatched stays. -/
theorem Negotiated.keeps {s : ConnectionHandler} {h' : List (Event SmbT)}
    (hcmd : Negotiated cmd.handler h) (hs : Negotiated s h') (hmem : cmd ∈ commandsOf h')
    (hsub : ∀ x ∈ negotiationsOf h, x ∈ negotiationsOf h')
    (hone : ∀ x ∈ negotiationsOf h', ∀ y ∈ negotiationsOf h', x = y) :
    KeepsNegotiated cmd.handler s := by
  intro dialect hd
  obtain ⟨x, hx, hsel, hguid⟩ := hcmd.origin dialect hd
  obtain ⟨dialect', hd'⟩ := Option.isSome_iff_exists.1 (hs.stays cmd hmem (by rw [hd]; rfl))
  obtain ⟨y, hy, hsel', hguid'⟩ := hs.origin dialect' hd'
  obtain rfl := hone x (hsub x hx) y hy
  rw [hsel] at hsel'
  cases hsel'
  exact ⟨hd', hguid'.trans hguid.symm⟩

section Downgrade

theorem negotiated_frame {s s' : ConnectionHandler} {h' : List (Event SmbT)}
    (hset : s'.settings = s.settings) (hcmds : commandsOf h' = commandsOf h) (hs : Negotiated s h) :
    Negotiated s' h' := by
  have hdial : s'.connection.dialect = s.connection.dialect := congrArg Settings.dialect hset
  have hguid : s'.connection.clientGuid = s.connection.clientGuid :=
    congrArg Settings.clientGuid hset
  have hneg : negotiationsOf h' = negotiationsOf h := congrArg (filter isNegotiation) hcmds
  refine ⟨?_, ?_⟩
  · rw [hdial, hguid, hneg]
    exact hs.origin
  · rw [hdial, hcmds]
    exact hs.stays

theorem negotiated_init (s : ConnectionHandler) (hnone : s.connection.dialect = none) :
    Negotiated s [] := by
  refine ⟨fun dialect hd => ?_, fun cmd hcmd => by cases hcmd⟩
  rw [hnone] at hd
  cases hd

theorem negotiationsOf_subset {h' : List (Event SmbT)} (hs : h <:+ h')
    (hcmd : cmd ∈ negotiationsOf h) : cmd ∈ negotiationsOf h' :=
  ((hs.filterMap dispatchedCommand).filter isNegotiation).subset hcmd

variable [Externs]

theorem handleNegotiate_wp (header : Smb2Header) (body fullMessage : Bytes)
    (s : ConnectionHandler) :
    wp (fun _ _ => True) (handleNegotiate header body fullMessage)
      (fun _ s' _ => s'.settings = s.settings ∨
        ∃ dialect, selectDialect (negotiateDialects body) = some dialect ∧
          s'.connection.dialect = some dialect ∧ s'.connection.clientGuid = body.slice 12 16)
      s [] := by
  unfold handleNegotiate
  rw [wp_bind, wp_require]
  refine ⟨fun _ => ?_, fun _ => .inl rfl⟩
  rw [onOk_ok, wp_bind, wp_getOrFail]
  refine ⟨fun dialect hsel => ?_, fun _ => .inl rfl⟩
  rw [onOk_ok, wp_bind, wp_modifyConnection, onOk_ok]
  generalize hs₁ : ({ s with
    connection := { s.connection.negotiate dialect with clientGuid := body.slice 12 16 } } :
      ConnectionHandler) = s₁
  -- from here on the settings stay
  refine wp_mono (wp_weaken
    ((?_ : Keeping (fun s' => s'.settings = s₁.settings) [] _) s₁ [] rfl) fun _ _ _ => trivial) ?_
  · exact walked
  · intro r s' e hset
    subst hs₁
    exact .inr ⟨dialect, hsel, congrArg Settings.dialect hset,
      congrArg Settings.clientGuid hset⟩

theorem negotiated_upholds : Upholds Negotiated where
  frame := negotiated_frame
  dispatch cmd {h} hs := by
    refine ⟨fun dialect hd => ?_, fun x hx hsome => ?_⟩
    · obtain ⟨x, hx, hrest⟩ := hs.origin dialect hd
      refine ⟨x, ?_, hrest⟩
      rw [mem_negotiationsOf] at hx ⊢
      exact ⟨mem_cons_of_mem _ hx.1, hx.2⟩
    · rcases mem_cons.1 hx with rfl | hx
      · exact hsome
      · exact hs.stays x hx hsome
  negotiate cmd h hn hmem hs := by
    refine wp_mono (handleNegotiate_wp cmd.header cmd.body cmd.fullMessage cmd.handler) ?_
    rintro r s' e (hset | ⟨dialect, hsel, hd, hguid⟩)
    · exact negotiated_frame hset rfl hs
    · refine ⟨fun dialect' hd' => ?_, fun _ _ _ => by rw [hd]; rfl⟩
      rw [hd] at hd'
      cases hd'
      exact ⟨cmd, mem_negotiationsOf.2 ⟨hmem, hn⟩, hsel, hguid⟩

/-! ### Validation -/

theorem handleIoctl_validation (hv : isValidation cmd = true) :
    wp (fun _ _ => True) (handleCommand cmd.header cmd.body cmd.fullMessage)
      (onOk (fun _ _ _ => True) fun _ _ _ => ∃ input dialect,
        ioctlInput cmd.body = some input ∧
        input.slice 4 16 = cmd.handler.connection.clientGuid ∧
        cmd.handler.connection.dialect = some dialect ∧
        validateListsDialect input dialect.revision = true) cmd.handler [] := by
  obtain ⟨hcmd, hcode⟩ : cmd.header.command = .ioctl ∧ cmd.body.u32 4 = 0x00140204 := by
    simpa [isValidation] using hv
  unfold handleCommand
  rw [hcmd]
  refine wp_map.2 ?_
  unfold handleIoctl validateCreditCharge
  rw [wp_bind, wp_require]
  refine ⟨fun _ => ?_, fun _ => trivial⟩
  rw [onOk_ok, wp_bind, wp_bind, wp_get, onOk_ok, wp_require]
  refine ⟨fun _ => ?_, fun _ => trivial⟩
  rw [onOk_ok]
  dsimp only
  rw [if_pos hcode]
  unfold handleValidateNegotiateInfo
  rw [wp_bind, wp_getOrFail]
  refine ⟨fun input hinput => ?_, fun _ => trivial⟩
  rw [onOk_ok, wp_bind, wp_require]
  refine ⟨fun _ => ?_, fun _ => trivial⟩
  rw [onOk_ok, wp_bind, wp_get, onOk_ok, wp_bind, wp_require]
  refine ⟨fun hguid => ?_, fun _ => trivial⟩
  rw [onOk_ok, wp_bind, wp_getOrFail]
  refine ⟨fun dialect hdial => ?_, fun _ => trivial⟩
  rw [onOk_ok, wp_bind, wp_require]
  refine ⟨fun hlisted => ?_, fun _ => trivial⟩
  -- the response does not matter any more
  rw [onOk_ok]
  refine wp_of_forall (fun _ _ _ => trivial) fun r _ _ _ => ?_
  cases r with
  | error e => trivial
  | ok response => exact ⟨input, dialect, hinput, by simpa using hguid, hdial, hlisted⟩

section Runs

variable {α β : Type} [AuthProvider α] [StorageBackend β] {ok : World α β → SmbOp ⊕ Mark → Prop}
  {c : (smbMachine α β ok).Config} {tr : Trace ok}

/-- A validation succeeds only with the identifier of the first NEGOTIATE and dialects from which
the server selects the negotiated one, which never changes. -/
structure DowngradeDetected (c : (smbMachine α β ok).Config) (tr : Trace ok) : Prop where
  validated : ∀ (i : ℕ) (p q : Prog SmbT Conn) (h : List (smbMachine α β ok).Stamped)
    (w : World α β) (cmd : Command) (g e : List (World α β × Event Smb))
    (response : Option Response), c.phase i = .busy p h q →
    progress (stamps h) = .handling w cmd g e → isValidation cmd = true →
    Answered cmd e response → ∃ input first, ioctlInput cmd.body = some input ∧
      firstNegotiation (eventsOf i tr) = some first ∧
      input.slice 4 16 = negotiateGuid first ∧
      cmd.handler.connection.dialect.isSome = true ∧
      selectDialect (validateDialects input) = cmd.handler.connection.dialect
  constant : ∀ i, (commandsOf (eventsOf i tr)).Pairwise
    fun later earlier => KeepsNegotiated earlier.handler later.handler
  idle : ∀ i s, c.phase i = .idle (.open s) → ∀ cmd ∈ commandsOf (eventsOf i tr),
    KeepsNegotiated cmd.handler s

/-- Does a validation list no dialect that is better than the one of the connection? -/
def validatesSafely (cmd : Command) : Bool :=
  match ioctlInput cmd.body, cmd.handler.connection.dialect with
  | some input, some dialect => listsNothingBetter input dialect
  | _, _ => true

/-- A NEGOTIATE is the first of its connection, and a validation lists no dialect that the server
prefers to the connection's. -/
def negotiatesSafely (tr : Trace ok) (i : ℕ)
    (x : (smbMachine α β ok).Stamped) : Bool :=
  match dispatchedCommand x.event with
  | none => true
  | some cmd =>
      (!isNegotiation cmd || (negotiationsOf (eventsOf i tr)).isEmpty) &&
        (!isValidation cmd || validatesSafely cmd)

section

variable (hcond : EachSmbCall (fun tr i x => negotiatesSafely tr i x = true) tr)

include hcond

theorem negotiations_length (i : ℕ) : (negotiationsOf (eventsOf i tr)).length ≤ 1 := by
  induction tr with
  | nil => exact Nat.zero_le _
  | cons x tr ih =>
    obtain ⟨j, e⟩ := x
    obtain ⟨hstep, hcond⟩ := hcond
    by_cases hij : i = j
    · subst hij
      rw [eventsOf_cons_self]
      unfold negotiationsOf commandsOf
      rw [filterMap_cons]
      unfold negotiatesSafely at hstep
      cases hcmd : dispatchedCommand e.event with
      | none => exact ih hcond
      | some cmd =>
        rw [hcmd] at hstep
        cases hneg : isNegotiation cmd with
        | false =>
          rw [filter_cons_of_neg (by rw [hneg]; exact Bool.false_ne_true)]
          exact ih hcond
        | true =>
          have hempty : negotiationsOf (eventsOf i tr) = [] := by
            simpa [hneg] using (Bool.and_eq_true_iff.1 hstep).1
          rw [filter_cons_of_pos hneg, length_cons]
          exact Nat.succ_le_succ (Nat.le_of_eq (congrArg length hempty))
    · rw [eventsOf_cons_ne hij]
      exact ih hcond

theorem negotiations_unique {i : ℕ} {x y : Command} (hx : x ∈ negotiationsOf (eventsOf i tr))
    (hy : y ∈ negotiationsOf (eventsOf i tr)) : x = y := by
  have hlength := negotiations_length hcond i
  cases hl : negotiationsOf (eventsOf i tr) with
  | nil =>
    rw [hl] at hx
    cases hx
  | cons z rest =>
    rw [hl, length_cons] at hlength
    obtain rfl : rest = [] := length_eq_zero_iff.1 (by omega)
    rw [hl] at hx hy
    rw [mem_singleton.1 hx, mem_singleton.1 hy]

end

theorem keepsNegotiated_of_later (hrun : SmbRun ok c tr)
    (hcond : EachSmbCall (fun tr i x => negotiatesSafely tr i x = true) tr) {i : ℕ} {tr' : Trace ok}
    (htr : tr' <:+ tr) {s : ConnectionHandler} (hs : Negotiated s (eventsOf i tr'))
    (hcmd : cmd ∈ commandsOf (eventsOf i tr')) : KeepsNegotiated cmd.handler s := by
  obtain ⟨x, tr'', hsuf, hx⟩ := exists_of_mem_commandsOf hcmd
  have hneg := negotiated_upholds.dispatched negotiated_init hrun (hsuf.trans htr) hx
  refine hneg.keeps hs hcmd (fun y hy => ?_)
    (fun _ hx _ hy => negotiations_unique (hcond.suffix htr) hx hy)
  exact negotiationsOf_subset (eventsOf_suffix i ((suffix_cons _ _).trans hsuf)) hy

theorem pairwise_keepsNegotiated (hrun : SmbRun ok c tr)
    (hcond : EachSmbCall (fun tr i x => negotiatesSafely tr i x = true) tr) (i : ℕ)
    {tr' : Trace ok} (htr : tr' <:+ tr) : (commandsOf (eventsOf i tr')).Pairwise
      fun later earlier => KeepsNegotiated earlier.handler later.handler := by
  induction tr' with
  | nil => exact Pairwise.nil
  | cons x tr' ih =>
    obtain ⟨j, e⟩ := x
    have htail : tr' <:+ tr := (suffix_cons _ _).trans htr
    by_cases hij : i = j
    · subst hij
      rw [eventsOf_cons_self]
      obtain ⟨w, ⟨o | m, r⟩⟩ := e
      · exact ih htail
      · cases m with
        | dispatched cmd =>
          have hev : (⟨.inr (.dispatched cmd), r⟩ : Event SmbT) =
              ⟨.inr (.dispatched cmd), ()⟩ := rfl
          have hcmd := negotiated_upholds.dispatched negotiated_init hrun htr hev
          exact Pairwise.cons
            (fun earlier hmem => keepsNegotiated_of_later hrun hcond htail hcmd hmem) (ih htail)
        | executing | disconnected => exact ih htail
    · rw [eventsOf_cons_ne hij]
      exact ih htail

/-- **If a connection negotiates once and no validation lists a better dialect, a downgrade is
detected.** -/
theorem downgrade_detected (hrun : SmbRun ok c tr)
    (hcond : EachSmbCall (fun tr i x => negotiatesSafely tr i x = true) tr) :
    DowngradeDetected c tr where
  constant i := pairwise_keepsNegotiated hrun hcond i (List.suffix_refl tr)
  idle i s hi cmd hcmd :=
    keepsNegotiated_of_later hrun hcond (suffix_refl tr)
      (negotiated_upholds.idle negotiated_init hrun hi) hcmd
  validated i p q h w cmd g e response hi hp hv hanswered := by
    have hrunning := SmbReachable.running hrun.reachable hi
    obtain ⟨-, input, dialect, hinput, hguid, hdial, hlisted⟩ :=
      hanswered.post hrunning hp (handleIoctl_validation hv)
    -- what the connection had negotiated when the validation was dispatched
    obtain ⟨st, tr', hsuf, -, hev⟩ := exists_dispatch hrun hi hp
    have hnegotiated := negotiated_upholds.dispatched negotiated_init hrun hsuf hev
    obtain ⟨neg, hneg, hsel, hfrom⟩ := hnegotiated.origin dialect hdial
    have hneg' := negotiationsOf_subset
      (eventsOf_suffix i ((suffix_cons _ _).trans hsuf)) hneg
    obtain ⟨first, hfirst⟩ : ∃ first, firstNegotiation (eventsOf i tr) = some first :=
      ⟨_, getLast?_eq_some_getLast (ne_nil_of_mem hneg')⟩
    obtain rfl := negotiations_unique hcond hneg' (mem_of_getLast? hfirst)
    have hsafe := hcond.of_suffix hsuf
    have hbest : listsNothingBetter input dialect = true := by
      unfold negotiatesSafely at hsafe
      rw [hev] at hsafe
      simpa [dispatchedCommand, hv, validatesSafely, hinput, hdial] using
        (Bool.and_eq_true_iff.1 hsafe).2
    refine ⟨input, neg, hinput, hfirst, hguid.trans hfrom, by rw [hdial]; rfl, ?_⟩
    rw [hdial]
    exact select_eq_of_listed (mem_serverDialects_of_select hsel) hlisted hbest

end Runs

end Downgrade

/-! ### Two NEGOTIATE requests -/

namespace Client

def negotiate (guid : Bytes) (dialects : List UInt16) : Bytes :=
  Smb2Header.write { command := .negotiate } ++ ofU16 36 ++
    ofU16 (UInt16.ofNat dialects.length) ++ zeros 8 ++ guid ++ zeros 8 ++
    dialects.flatMap ofU16

def validateNegotiate (sessionId : UInt64) (treeId : UInt32) (guid : Bytes)
    (dialects : List UInt16) : Bytes :=
  let input := ofU32 0 ++ guid ++ ofU16 1 ++
    ofU16 (UInt16.ofNat dialects.length) ++ dialects.flatMap ofU16
  Smb2Header.write { command := .ioctl, sessionId := sessionId, treeId := treeId } ++
    ofU16 57 ++ ofU16 0 ++ ofU32 0x00140204 ++ zeros 16 ++
    ofU32 120 ++ ofU32 (UInt32.ofNat input.length) ++ zeros 12 ++
    ofU32 24 ++ zeros 8 ++ input

end Client

namespace Sample

def clientGuids : Bytes × Bytes := (replicate 16 1, replicate 16 2)

/-- Connection 0 sends some requests and then a validation, whose handler has returned. -/
def validating (requests : List Bytes) (guid : Bytes) (dialects : List UInt16) :
    Option (FilesConfig × FilesTrace) :=
  (serveAll (start AnonymousAuthProvider.anonymousOnly) (requests.map (Prod.mk 0))).bind fun st =>
    playAll st.config st.trace
      (.message 0 (Client.validateNegotiate 1 1 guid dialects) :: replicate 4 (.call 0))

/-- The connection negotiates, sets up a session and connects to the share. -/
def prepared (guid : Bytes) (dialects : List UInt16) : List Bytes :=
  [Client.negotiate guid dialects, Client.sessionSetup 0 [], Client.treeConnect 1 "\\\\a\\s"]

/-- A connection that negotiates once and validates what it had sent. -/
theorem downgrade_detected_once :
    ∃ (c : FilesConfig) (tr : FilesTrace),
      (SmbRun anyCall c tr ∧ EachSmbCall (fun tr i x => negotiatesSafely tr i x = true) tr ∧
        answered (fun cmd _ => isValidation cmd) c 0 = true) ∧ DowngradeDetected c tr := by
  obtain ⟨⟨c, tr⟩, hx, hsteps, hchk⟩ : ∃ x,
      validating (prepared clientGuids.1 [0x0202]) clientGuids.1 [0x0202] = some x ∧
      EachSmbCall (fun tr i x => negotiatesSafely tr i x = true) x.2 ∧
      answered (fun cmd _ => isValidation cmd) x.1 0 = true := exists_of_any (by decide +kernel)
  obtain ⟨st, hst, hplay⟩ := Option.bind_eq_some_iff.1 hx
  have hrun := run_playAll (run_serveAll (run_start _) hst) hplay
  exact ⟨c, tr, ⟨hrun, hsteps, hchk⟩, downgrade_detected hrun hsteps⟩

/-- **A downgrade that goes undetected**: the connection negotiates SMB 3.0.2 and then, under
another identifier, 2.0.2.  A validation with the second identifier and a list with 3.0.2 is
answered. -/
theorem downgrade_undetected :
    ∃ (c : FilesConfig) (tr : FilesTrace), SmbRun anyCall c tr ∧ ¬ DowngradeDetected c tr := by
  obtain ⟨⟨c, tr⟩, hx, hchk⟩ : ∃ x, validating (prepared clientGuids.1 [0x0302] ++
      [Client.negotiate clientGuids.2 [0x0202]]) clientGuids.2 [0x0302, 0x0202] = some x ∧
      answered (fun cmd _ => isValidation cmd && (ioctlInput cmd.body).all fun input =>
        selectDialect (validateDialects input) != cmd.handler.connection.dialect) x.1 0 = true :=
    exists_of_any (by decide +kernel)
  obtain ⟨st, hst, hplay⟩ := Option.bind_eq_some_iff.1 hx
  have hrun := run_playAll (run_serveAll (run_start _) hst) hplay
  obtain ⟨p, h, q, w, cmd, g, e, response, hi, hp, hansd, hf⟩ := exists_of_answeredBy hchk
  obtain ⟨hv, hoth⟩ := Bool.and_eq_true_iff.1 hf
  refine ⟨c, tr, hrun, fun hdetected => ?_⟩
  obtain ⟨input, first, hinput, -, -, -, hsel⟩ :=
    hdetected.validated 0 p q h w cmd g e response hi hp hv hansd
  rw [hinput] at hoth
  simp [hsel] at hoth

end Sample

end RustSmb
