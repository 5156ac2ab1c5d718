import RustSmb.System.Files

/-!
# Share modes

CREATE looks up the handles on its file, checks the share modes, opens the file, asks for a lease or
an oplock and records its handle.  Another connection may record a handle in between; the check
knows neither append nor execute access; a rename moves a handle to another file without any check;
and the look misses handles on the file under another name.

## Main results

* `allowsAccess_of_not_excludes` — what the check of CREATE means.
* `handlersMake_handleChecked` — CREATE records what it has checked.
* `share_modes_compatible` — **in turn, with plain access and one name for each file, the handles
  on each file are compatible.**
* `Sample.appended_beside_exclusive` — two handles that exclude each other.
-/

namespace RustSmb

open Table List MemoryStateStore

/-! ### Compatible handles -/

/-- FILE_READ_DATA, FILE_EXECUTE, MAXIMUM_ALLOWED, GENERIC_ALL, GENERIC_EXECUTE, GENERIC_READ. -/
def READ_ACCESS : UInt32 := 0xB2000021

/-- FILE_WRITE_DATA, FILE_APPEND_DATA, MAXIMUM_ALLOWED, GENERIC_ALL, GENERIC_WRITE. -/
def WRITE_ACCESS : UInt32 := 0x52000006

/-- DELETE, MAXIMUM_ALLOWED, GENERIC_ALL. -/
def DELETE_ACCESS : UInt32 := 0x12010000

/-- A share mode allows the reading, writing and deleting that an access mask includes. -/
structure AllowsAccess (share access : UInt32) : Prop where
  reading : access &&& READ_ACCESS ≠ 0 → share &&& 0x01 ≠ 0
  writing : access &&& WRITE_ACCESS ≠ 0 → share &&& 0x02 ≠ 0
  deleting : access &&& DELETE_ACCESS ≠ 0 → share &&& 0x04 ≠ 0

/-- Access that the check of CREATE knows: reading, writing or deleting is included in a way that
is looked for. -/
structure Plain (access : UInt32) : Prop where
  reading : access &&& READ_ACCESS ≠ 0 → wantsRead access = true
  writing : access &&& WRITE_ACCESS ≠ 0 → wantsWrite access = true
  deleting : access &&& DELETE_ACCESS ≠ 0 → wantsDelete access = true

instance (share access : UInt32) : Decidable (AllowsAccess share access) :=
  decidable_of_iff
    ((access &&& READ_ACCESS ≠ 0 → share &&& 0x01 ≠ 0) ∧
      (access &&& WRITE_ACCESS ≠ 0 → share &&& 0x02 ≠ 0) ∧
      (access &&& DELETE_ACCESS ≠ 0 → share &&& 0x04 ≠ 0))
    ⟨fun ⟨hr, hw, hd⟩ => ⟨hr, hw, hd⟩, fun ⟨hr, hw, hd⟩ => ⟨hr, hw, hd⟩⟩

instance (access : UInt32) : Decidable (Plain access) :=
  decidable_of_iff
    ((access &&& READ_ACCESS ≠ 0 → wantsRead access = true) ∧
      (access &&& WRITE_ACCESS ≠ 0 → wantsWrite access = true) ∧
      (access &&& DELETE_ACCESS ≠ 0 → wantsDelete access = true))
    ⟨fun ⟨hr, hw, hd⟩ => ⟨hr, hw, hd⟩, fun ⟨hr, hw, hd⟩ => ⟨hr, hw, hd⟩⟩

/-- Two handles allow each other's access. -/
def ModesAgree (h h' : HandleState) : Prop :=
  AllowsAccess h.shareAccess h'.accessMask ∧ AllowsAccess h'.shareAccess h.accessMask

instance (h h' : HandleState) : Decidable (ModesAgree h h') := inferInstanceAs (Decidable (_ ∧ _))

variable {h : HandleState}

theorem ModesAgree.symm {h' : HandleState} (hc : ModesAgree h h') : ModesAgree h' h :=
  And.symm hc

theorem allowsAccess_of_not_excludes {share access : UInt32} (hp : Plain access)
    (h : shareExcludes share access = false) : AllowsAccess share access := by
  unfold shareExcludes at h
  rw [Bool.or_eq_false_iff, Bool.or_eq_false_iff, Bool.and_eq_false_iff, Bool.and_eq_false_iff,
    Bool.and_eq_false_iff] at h
  obtain ⟨⟨hread, hwrite⟩, hdelete⟩ := h
  refine ⟨fun ha => ?_, fun ha => ?_, fun ha => ?_⟩
  · exact beq_eq_false_iff_ne.1 (hread.resolve_right (by rw [hp.reading ha]; decide))
  · exact beq_eq_false_iff_ne.1 (hwrite.resolve_right (by rw [hp.writing ha]; decide))
  · exact beq_eq_false_iff_ne.1 (hdelete.resolve_right (by rw [hp.deleting ha]; decide))

/-- A handle that is recorded for a request is compatible with those that the check let pass. -/
theorem compatible_of_not_conflict {r : CreateRequest} {existing : HandleState}
    (hacc : h.accessMask = r.desiredAccess) (hshare : h.shareAccess = r.shareAccess)
    (hp : Plain h.accessMask) (hp' : Plain existing.accessMask)
    (hno : shareConflict existing r = false) : ModesAgree h existing := by
  obtain ⟨hin, hout⟩ := Bool.or_eq_false_iff.1 hno
  rw [← hacc] at hin
  rw [← hshare] at hout
  exact ⟨allowsAccess_of_not_excludes hp' hout, allowsAccess_of_not_excludes hp hin⟩

/-! ### What CREATE checks -/

section Handlers

open Proc Handler

def isLook : SmbOp → Bool
  | .store (.getHandlesForFile _ _) => true
  | _ => false

/-- A history goes on without a look at handles. -/
def NoLook (h h' : List (Event Smb)) : Prop :=
  ∃ later, h' = later ++ h ∧ ∀ x ∈ later, isLook x.1 = false

theorem NoLook.refl (h : List (Event Smb)) : NoLook h h := ⟨[], rfl, forall_mem_nil _⟩

theorem NoLook.cons {h h' : List (Event Smb)} (hq : NoLook h h') {x : Event Smb}
    (hx : isLook x.1 = false) : NoLook h (x :: h') := by
  obtain ⟨later, rfl, hlater⟩ := hq
  exact ⟨x :: later, rfl, forall_mem_cons.2 ⟨hx, hlater⟩⟩

/-- A request has been checked against some handles of the last look: their share modes agree, or
they were deleted. -/
def Checking (r : CreateRequest) (share path : String) (existing done : List HandleState)
    (h : List (Event Smb)) : Prop :=
  ∃ later earlier,
    h = later ++ ⟨SmbOp.store (.getHandlesForFile share path), .ok existing⟩ :: earlier ∧
    (∀ x ∈ later, isLook x.1 = false) ∧
    ∀ x ∈ done, shareConflict x r = false ∨
      ∃ reply, ⟨SmbOp.store (.deleteHandle x.persistentId), reply⟩ ∈ later

variable {path share : String} {done existing : List HandleState} {r : CreateRequest}

theorem Checking.quiet {h h' : List (Event Smb)} (hc : Checking r share path existing done h)
    (hq : NoLook h h') : Checking r share path existing done h' := by
  obtain ⟨later, earlier, rfl, hlater, hdone⟩ := hc
  obtain ⟨more, rfl, hmore⟩ := hq
  refine ⟨more ++ later, earlier, (append_assoc ..).symm, ?_, fun x hx => ?_⟩
  · exact fun x hx => (mem_append.1 hx).elim (hmore x) (hlater x)
  · exact (hdone x hx).imp_right fun ⟨reply, hmem⟩ => ⟨reply, mem_append_right _ hmem⟩

theorem Checking.of_conflict {h : List (Event Smb)} (hc : Checking r share path existing done h)
    {x : HandleState} (hx : shareConflict x r = false) :
    Checking r share path existing (x :: done) h := by
  obtain ⟨later, earlier, rfl, hlater, hdone⟩ := hc
  exact ⟨later, earlier, rfl, hlater, forall_mem_cons.2 ⟨.inl hx, hdone⟩⟩

theorem Checking.of_deleted {h : List (Event Smb)} (hc : Checking r share path existing done h)
    (x : HandleState) (reply : (StoreOp.deleteHandle x.persistentId).Res) :
    Checking r share path existing (x :: done)
      (⟨SmbOp.store (.deleteHandle x.persistentId), reply⟩ :: h) := by
  obtain ⟨later, earlier, rfl, hlater, hdone⟩ := hc
  refine ⟨_ :: later, earlier, rfl, forall_mem_cons.2 ⟨rfl, hlater⟩,
    forall_mem_cons.2 ⟨.inr ⟨reply, mem_cons_self⟩, fun y hy => ?_⟩⟩
  exact (hdone y hy).imp_right fun ⟨reply, hmem⟩ => ⟨reply, mem_cons_of_mem _ hmem⟩

/-- CREATE records a handle after its request was checked against all that the last look has
found. -/
def HandleChecked (cmd : Command) (e : List (Event Smb)) (o : SmbOp) : Prop :=
  ∀ h, o = .store (.createHandle h) → ∃ r existing, CreateRequest.read cmd.body = some r ∧
    h.accessMask = r.desiredAccess ∧ h.shareAccess = r.shareAccess ∧
    Checking r h.shareName h.path existing existing e

variable {cmd : Command} {s : ConnectionHandler} {h : List (Event Smb)}

theorem handleChecked_of_effect {e : List (Event Smb)} {o : SmbOp} {f : Effect}
    (ho : o.effect = f) (hf : f ≠ .createHandle) : HandleChecked cmd e o := by
  rintro h rfl
  exact absurd ho.symm hf

/-- The effects of methods that neither record handles nor look at them. -/
abbrev unlooking : List Effect :=
  [.counter, .lease, .handle, .backend, .registry, .oplock, .registerOplock]

theorem quiet_wp {γ : Type} {x : Handler γ} [Stays (fun _ => True) unlooking x] :
    wp (HandleChecked cmd) x (onOk (fun _ _ _ => True) fun _ _ h' => NoLook h h') s h := by
  have hcarry := wp_carry (NoLook h) (fun h' o r ho hq => hq.cons ?_)
    ((walked : Keeping (fun _ => True) unlooking x) s h trivial) (NoLook.refl h)
  · refine wp_mono (wp_weaken hcarry fun _ o ho => handleChecked_of_effect rfl ?_) ?_
    · intro heq
      rw [heq] at ho
      exact absurd ho.1 (by decide)
    · rintro (err | a) s' h' ⟨-, hq⟩
      · trivial
      · exact hq
  · cases o with
    | store so =>
      cases so with
      | getHandlesForFile _ _ =>
        have hlook : Effect.fileHandles = .none ∨ .fileHandles ∈ unlooking := ho
        exact absurd hlook (by decide)
      | _ => rfl
    | _ => rfl

theorem checkShareMode_wp (hc : Checking r share path existing done h) (x : HandleState) :
    wp (HandleChecked cmd) (checkShareMode r x) (onOk (fun _ _ _ => True)
      fun _ _ h' => Checking r share path existing (x :: done) h') s h := by
  unfold checkShareMode
  split
  · refine wp_seq quiet_wp fun caching s h₁ hq => ?_
    split
    · unfold purgeHandle
      refine wp_seq quiet_wp fun _ s h₂ hq' => ?_
      refine wp_bind.2 (wp_store.2 ⟨handleChecked_of_effect (f := .handle) rfl (by decide),
        fun reply => wp_pure.2 ?_⟩)
      exact ((hc.quiet hq).quiet hq').of_deleted x reply
    · exact wp_require.2 ⟨fun hok => (hc.quiet hq).of_conflict (by simpa using hok),
        fun _ => trivial⟩
  · exact wp_require.2 ⟨fun hok => hc.of_conflict (by simpa using hok), fun _ => trivial⟩

theorem checkAll_wp (rest : List HandleState) (hc : Checking r share path existing done h) :
    wp (HandleChecked cmd) (Proc.forEach (checkShareMode r) rest)
      (onOk (fun _ _ _ => True) fun _ _ h' =>
        ∃ done', (∀ x ∈ rest, x ∈ done') ∧ (∀ x ∈ done, x ∈ done') ∧
          Checking r share path existing done' h') s h := by
  induction rest generalizing s h done with
  | nil => exact wp_pure.2 ⟨done, forall_mem_nil _, fun _ => id, hc⟩
  | cons x rest ih =>
    unfold Proc.forEach
    refine wp_seq (checkShareMode_wp hc x) fun _ s h₁ hc₁ => wp_mono (ih hc₁) ?_
    rintro (err | _) s' h' hr
    · trivial
    · obtain ⟨done', hrest, hdone, hc'⟩ := hr
      exact ⟨done', forall_mem_cons.2 ⟨hdone x mem_cons_self, hrest⟩,
        fun y hy => hdone y (mem_cons_of_mem x hy), hc'⟩

/-- CREATE has checked its request against all handles that its last look has found. -/
theorem checkShareModes_wp (header : Smb2Header) (r : CreateRequest) (shareName filename : String) :
    wp (HandleChecked cmd) (checkShareModes header r shareName filename)
      (onOk (fun _ _ _ => True) fun _ _ h' =>
        ∃ existing, Checking r shareName filename existing existing h') s h := by
  unfold checkShareModes
  refine wp_bind.2 (wp_storeOrInternal.2
    ⟨handleChecked_of_effect (f := .fileHandles) rfl (by decide), fun existing => ?_,
      fun _ => trivial⟩)
  have hseen : Checking r shareName filename existing []
      (⟨SmbOp.store (.getHandlesForFile shareName filename), .ok existing⟩ :: h) :=
    ⟨[], h, rfl, forall_mem_nil _, forall_mem_nil _⟩
  refine wp_seq quiet_wp fun oplocks s h₁ hq₁ => ?_
  refine wp_seq quiet_wp fun broken s h₂ hq₂ => ?_
  refine wp_seq (P := fun existing _ h => Checking r shareName filename existing [] h) ?_
    fun existing s h₃ hc => ?_
  · unfold handlesAfterBreak
    split
    · exact wp_storeOrInternal.2 ⟨handleChecked_of_effect (f := .fileHandles) rfl (by decide),
        fun existing => ⟨[], _, rfl, forall_mem_nil _, forall_mem_nil _⟩,
        fun _ => trivial⟩
    · exact wp_pure.2 ((hseen.quiet hq₁).quiet hq₂)
  · refine wp_mono (checkAll_wp existing hc) ?_
    rintro (err | _) s' h' hr
    · trivial
    · obtain ⟨done, hall, -, later, earlier, heq, hlater, hdone⟩ := hr
      exact ⟨existing, later, earlier, heq, hlater, fun x hx => hdone x (hall x hx)⟩

theorem newHandle_modes (header : Smb2Header) (r : CreateRequest) (o : OpenOptions)
    (handleId : HandleId) (shareName filename : String) (fileHandle : FileHandle)
    (isDirectory : Bool) (guid : Bytes) (now : UInt64) :
    let handle := newHandle header r o handleId shareName filename fileHandle isDirectory guid now
    handle.accessMask = r.desiredAccess ∧ handle.shareAccess = r.shareAccess ∧
      handle.shareName = shareName ∧ handle.path = filename := by
  unfold newHandle
  split <;> exact ⟨rfl, rfl, rfl, rfl⟩

variable [Externs]

theorem openFile_handleChecked (header : Smb2Header) (hr : CreateRequest.read cmd.body = some r)
    (contexts : List CreateContext) (filename : String) :
    wp (HandleChecked cmd) (openFile header r contexts filename) (fun _ _ _ => True) s h := by
  unfold openFile
  refine wp_seq quiet_wp fun found s h₁ _ => ?_
  refine wp_bind.2 (wp_getOrFail.2 ⟨fun tree _ => ?_, fun _ => trivial⟩)
  refine wp_seq quiet_wp fun share s h₂ _ => ?_
  refine wp_seq (checkShareModes_wp header r tree.shareName filename) fun _ s h₃ hchecked => ?_
  obtain ⟨existing, hchecked⟩ := hchecked
  refine wp_seq quiet_wp fun opened s h₄ hq₄ => ?_
  refine wp_seq quiet_wp fun handleId s h₅ hq₅ => ?_
  rw [wp_bind, wp_get]
  refine wp_seq quiet_wp fun guid s h₆ hq₆ => ?_
  refine wp_seq quiet_wp fun now s h₇ hq₇ => ?_
  refine wp_seq quiet_wp fun lease s h₈ hq₈ => ?_
  refine wp_seq quiet_wp fun oplock s h₉ hq₉ => ?_
  refine wp_bind.2 (wp_storeOrInternal.2 ⟨?_, fun _ => ?_, fun _ => trivial⟩)
  · -- the handle is recorded
    rintro handle hhdl
    cases hhdl
    obtain ⟨hacc, hshare, hname, hpath⟩ := newHandle_modes header r
      (OpenOptions.ofRequest _ r contexts) handleId tree.shareName filename opened.1 opened.2.1
      guid now
    refine ⟨r, existing, hr, hacc, hshare, ?_⟩
    simp only [hname, hpath]
    exact (((((hchecked.quiet hq₄).quiet hq₅).quiet hq₆).quiet hq₇).quiet hq₈).quiet hq₉
  · unfold openResponse
    exact wp_mono quiet_wp fun _ _ _ _ => trivial

/-- **CREATE records what it has checked**, and no other command records new handles. -/
theorem handlersMake_handleChecked : HandlersMake fun cmd _ e o => HandleChecked cmd e o := by
  intro cmd g _
  by_cases hcmd : cmd.header.command = .create
  · unfold handleCommand
    rw [hcmd]
    refine wp_map.2 (wp_onOk_true ?_)
    refine handleCreate_wp (fun _ _ _ s h => ?_) fun r hr filename s h => ?_
    · exact wp_mono quiet_wp fun _ _ _ _ => trivial
    · exact openFile_handleChecked cmd.header hr _ _
  · refine wp_mono (wp_weaken (handleCommand_effects _ _ _ cmd.handler [])
      fun _ o ho => handleChecked_of_effect rfl ?_) fun _ _ _ _ => trivial
    intro heq
    rw [heq] at ho
    cases hoth : cmd.header.command with
    | create => exact hcmd hoth
    | _ =>
      rw [hoth] at ho
      exact absurd ho (by decide)

end Handlers

/-! ### Runs -/

section Runs

variable [Externs] {α β : Type} [AuthProvider α] [StorageBackend β]

/-- Does a call look up the handles under the name of `h`? -/
def looksAtFile (h : HandleState) : SmbOp ⊕ Mark → Bool
  | .inl (.store (.getHandlesForFile share path)) => share == h.shareName && path == h.path
  | _ => false

/-- Stored handles on the same file of the same share are compatible. -/
def ShareCompatible (st : MemoryStateStore) : Prop :=
  ∀ h ∈ st.handles.values, ∀ h' ∈ st.handles.values, h.persistentId ≠ h'.persistentId →
    SameFile h h' → ModesAgree h h'

/-- A call records a handle under the same name that is not compatible. -/
def RecordsIncompatible (h : HandleState) : SmbOp ⊕ Mark → Prop
  | .inl (.store o) => ∃ x ∈ o.recordedHandle, SameName h x ∧ ¬ ModesAgree h x
  | _ => False

instance (h : HandleState) : DecidablePred (RecordsIncompatible h)
  | .inl (.store o) =>
      inferInstanceAs (Decidable (∃ x ∈ o.recordedHandle, SameName h x ∧ ¬ ModesAgree h x))
  | .inl (.backend _ _) | .inl (.registry _ _) | .inl (.authenticate _ _ _) | .inl .now
  | .inl .filetime | .inl .random | .inr _ => inferInstanceAs (Decidable False)

/-- Stored handles under the same name are compatible. -/
def AgreeByName (st : MemoryStateStore) : Prop :=
  ∀ h ∈ st.handles.values, ∀ h' ∈ st.handles.values, h.persistentId ≠ h'.persistentId →
    SameName h h' → ModesAgree h h'

/-- The store has a handle in the place of `h`, with the same name and modes. -/
def InPlace (st : MemoryStateStore) (h : HandleState) : Prop :=
  ∃ x ∈ st.handles.lookup h.persistentId, SameName h x ∧ x.accessMask = h.accessMask ∧
    x.shareAccess = h.shareAccess

/-- The other handles under the name of `h` are compatible with it. -/
def Welcome (st : MemoryStateStore) (h : HandleState) : Prop :=
  ∀ x ∈ st.handles.values, x.persistentId ≠ h.persistentId → SameName h x → ModesAgree h x

instance (st : MemoryStateStore) (h : HandleState) : Decidable (InPlace st h) := by
  unfold InPlace
  infer_instance

instance (st : MemoryStateStore) (h : HandleState) : Decidable (Welcome st h) := by
  unfold Welcome
  infer_instance

/-- The steps of a run in which handles are recorded and moved in turn.  Access is plain; between
the last look of a CREATE and its recording, nobody records an incompatible handle under its name;
and a handle that changes is in its place, or moves to a name under which it is welcome. -/
def HandlesInTurn (tr : Trace (α := α) (β := β) anyCall) (i : ℕ)
    (x : (smbMachine α β anyCall).Stamped) : Prop :=
  match x.event.1 with
  | .inl (.store (.createHandle h)) =>
      Plain h.accessMask ∧ Machine.Undisturbed (M := smbMachine α β anyCall) i
        (fun y => looksAtFile h y.event.1) (fun y => RecordsIncompatible h y.event.1) tr
  | .inl (.store (.updateHandle h)) =>
      Plain h.accessMask ∧ (InPlace x.world.store h ∨ Welcome x.world.store h)
  | _ => True

instance (tr : Trace (α := α) (β := β) anyCall) (i : ℕ) (x : (smbMachine α β anyCall).Stamped) :
    Decidable (HandlesInTurn tr i x) := by
  obtain ⟨w, o, r⟩ := x
  unfold HandlesInTurn
  split <;> infer_instance

variable {h : HandleState} {st : MemoryStateStore} {c : (smbMachine α β anyCall).Config}

omit [Externs] in
/-- Handles stay compatible with `h`, except for some, if no incompatible one is recorded. -/
theorem compatible_answer {now : UInt64} {o : StoreOp} {Q : HandleState → Prop}
    (ho : ¬ RecordsIncompatible h (.inl (.store o)))
    (hst : ∀ x ∈ st.handles.values, SameName h x → Q x ∨ ModesAgree h x) :
    ∀ x ∈ (answer now o st).2.handles.values, SameName h x → Q x ∨ ModesAgree h x := by
  intro x hx hfile
  rcases mem_handles_answer hx with hold | hnew
  · exact hst x hold hfile
  · exact .inr (by_contra fun hno => ho ⟨x, hnew, hfile, hno⟩)

omit [Externs] in
theorem looksAtFile_of_not_isLook {o : SmbOp} (ho : isLook o = false) (h : HandleState) :
    looksAtFile h (.inl o) = false := by
  cases o with
  | store so =>
    cases so with
    | getHandlesForFile _ _ => cases ho
    | _ => rfl
  | _ => rfl

theorem keyed {ok : World α β → SmbOp ⊕ Mark → Prop} {c : (smbMachine α β ok).Config}
    (hc : SmbReachable ok c) : c.world.store.Keyed :=
  hc.storeInvariant keyed_new fun so now _ h => h.answer now so

/-- What calls keep of the handles under the name of `h`, unless they record an incompatible one, is
kept while a connection is not disturbed. -/
theorem kept_undisturbed {tr : Trace (α := α) (β := β) anyCall} (hrun : SmbRun anyCall c tr) {i : ℕ}
    (hturn : Machine.Undisturbed (M := smbMachine α β anyCall) i (fun y => looksAtFile h y.event.1)
      (fun y => RecordsIncompatible h y.event.1) tr)
    {P : MemoryStateStore → Prop}
    (hP : ∀ so now st, ¬ RecordsIncompatible h (.inl (.store so)) → P st → P (answer now so st).2)
    {recent older : List (smbMachine α β anyCall).Stamped} {e : (smbMachine α β anyCall).Stamped}
    (hpast : pastOf i tr = recent ++ e :: older)
    (hrecent : ∀ y ∈ recent, looksAtFile h y.event.1 = false)
    (he : P (Prog.answerMarks World.answer e.event.1 e.world).2.store) : P c.world.store := by
  refine Machine.Run.checked hrun (P := fun w => P w.store) ?_ ?_ hturn hpast hrecent ?_
  · intro w w' hw
    refine hw.store fun _ so hso now st => hP so now st ?_
    rcases hso with rfl | rfl <;> exact fun ⟨x, hx, _⟩ => by cases hx
  · rintro o r w w' ⟨hexec, -⟩ hharm hw
    obtain rfl : (Prog.answerMarks World.answer o w).2 = w' := congrArg Prod.snd hexec
    exact store_answerMarks (fun so hso now st => hP so now st (hso ▸ hharm)) hw
  · rintro w' ⟨hexec, -⟩
    obtain rfl : (Prog.answerMarks World.answer e.event.1 e.world).2 = w' := congrArg Prod.snd hexec
    exact he

/-- A CREATE that is about to record its handle, and was not disturbed, finds it welcome. -/
theorem welcome_of_undisturbed {tr : Trace (α := α) (β := β) anyCall} (hrun : SmbRun anyCall c tr)
    {i : ℕ} {p : Prog SmbT Conn} {h : List (smbMachine α β anyCall).Stamped} {handle : HandleState}
    {k : SmbT.Res (.inl (.store (.createHandle handle))) → Prog SmbT Conn}
    (hi : c.phase i = .busy p h (.call (.inl (.store (.createHandle handle))) k))
    (hplain : Plain handle.accessMask)
    (hall : ∀ x ∈ c.world.store.handles.values, Plain x.accessMask)
    (hturn : Machine.Undisturbed (M := smbMachine α β anyCall) i
      (fun y => looksAtFile handle y.event.1) (fun y => RecordsIncompatible handle y.event.1) tr) :
    Welcome c.world.store handle := by
  obtain ⟨w, cmd, g, e, hp, hhand, hchecked⟩ := handler_call handlersMake_handleChecked
    (SmbReachable.running hrun.reachable hi) (by simp [isCheck]) not_false
  obtain ⟨r, existing, -, hacc, hshare, later, earlier, hsplit, hlater, hdone⟩ :=
    hchecked handle rfl
  obtain ⟨later, rest, rfl, rfl, hrest⟩ := map_eq_append_iff.1 hsplit
  obtain ⟨⟨w', look⟩, e, rfl, rfl, rfl⟩ := map_eq_cons_iff.1 hrest
  have hlooked := hhand.answered _ (mem_append_right g (mem_append_right later mem_cons_self))
  have hquiet : ∀ z ∈ later, looksAtFile handle (.inl z.2.1) = false := fun z hz =>
    looksAtFile_of_not_isLook (hlater z.2 (mem_map_of_mem hz)) handle
  have hseen : ∀ x ∈ c.world.store.handles.values, SameName handle x →
      x ∈ existing ∨ ModesAgree handle x := by
    obtain ⟨recent, st, older, hpast, rfl, hev, hrecent⟩ := split_event hrun hi hp
    refine kept_undisturbed hrun hturn (P := fun st => ∀ x ∈ st.handles.values,
      SameName handle x → x ∈ existing ∨ ModesAgree handle x) ?_ hpast
      (fun y hy => not_of_later rfl hquiet (hrecent y hy)) ?_
    · exact fun so now st ho hst => compatible_answer ho hst
    · -- the look showed all handles on the file
      rw [hev]
      intro x hx hfile
      rw [← Except.ok.inj hlooked]
      refine .inl (mem_filter.2 ⟨hx, ?_⟩)
      rw [hfile.1, hfile.2, beq_self_eq_true, beq_self_eq_true]
      rfl
  intro x hx hne hfile
  rcases hseen x hx hfile with hmem | hcompat
  · rcases hdone x hmem with hno | ⟨reply, hdeleted⟩
    · exact compatible_of_not_conflict hacc hshare hplain (hall x hx) hno
    · -- what is in the place of a deleted handle was recorded later
      obtain ⟨⟨w', delete⟩, hz, rfl⟩ := mem_map.1 hdeleted
      obtain ⟨later, between, rfl⟩ := append_of_mem hz
      rw [append_assoc, cons_append] at hp
      obtain ⟨recent, st, older, hpast, rfl, hev, hrecent⟩ := split_event hrun hi hp
      have hplace := kept_undisturbed hrun hturn (P := fun st => ∀ y,
        st.handles.lookup x.persistentId = some y → SameName handle y → ModesAgree handle y) ?_
        hpast (fun y hy => not_of_later rfl
          (fun z hz => hquiet z (mem_append_left _ hz)) (hrecent y hy)) ?_
      · exact hplace x ((keyed hrun.reachable).handles.mem_values_iff.1 hx) hfile
      · intro so now st ho hst y hy hfile
        rcases lookup_handles_answer hy with hold | ⟨hnew, -⟩
        · exact hst y hold hfile
        · exact by_contra fun hno => ho ⟨y, hnew, hfile, hno⟩
      · rw [hev]
        intro y hy
        have hgone := AList.lookup_erase x.persistentId st.world.store.handles
        exact absurd (hgone.symm.trans hy) nofun
  · exact hcompat

omit [Externs] in
theorem InPlace.welcome (hp : InPlace st h) (hk : st.Keyed) (hst : AgreeByName st) :
    Welcome st h := by
  obtain ⟨x, hx, hfile, hacc, hshare⟩ := hp
  intro y hy hne hfile'
  have hid : x.persistentId = h.persistentId := hk.handles _ _ hx
  have hcompat := hst x (mem_values.2 ⟨_, hx⟩) y hy (by rw [hid]; exact hne.symm)
    (hfile.symm.trans hfile')
  unfold ModesAgree at hcompat ⊢
  rwa [hacc, hshare] at hcompat

/-- Handles under the same name are compatible, and their access is plain. -/
structure WellShared (st : MemoryStateStore) : Prop where
  compatible : AgreeByName st
  plain : ∀ x ∈ st.handles.values, Plain x.accessMask

omit [Externs] in
theorem WellShared.answer {now : UInt64} {o : StoreOp} (hst : WellShared st)
    (ho : ∀ h, o.recordedHandle = some h → Plain h.accessMask ∧ Welcome st h) :
    WellShared (answer now o st).2 := by
  refine ⟨pairwise_handles_answer (fun _ _ himp hname => (himp hname.symm).symm) hst.compatible
    fun h hh => (ho h hh).2, fun x hx => ?_⟩
  rcases mem_handles_answer hx with hold | hnew
  · exact hst.plain x hold
  · exact (ho x hnew).1

theorem wellShared_of_inTurn {tr : Trace (α := α) (β := β) anyCall} (hrun : SmbRun anyCall c tr)
    (hsteps : EachSmbCall HandlesInTurn tr) : WellShared c.world.store := by
  refine SmbRun.traced (I := fun w tr => EachSmbCall HandlesInTurn tr → WellShared w.store) hrun
    (fun _ _ _ _ => ⟨forall_mem_nil _, forall_mem_nil _⟩) ?_ ?_
    (fun _ _ ih hsteps => ih hsteps.2) hsteps
  · intro c tr w _ hw ih hsteps
    refine hw.store (fun _ so hso now st h => h.answer ?_) (ih hsteps)
    rintro handle hhdl
    rcases hso with rfl | rfl <;> cases hhdl
  · rintro c tr i p h o k hrun hi _ ih ⟨hturn, hsteps⟩
    have hst := ih hsteps
    cases o with
    | store so =>
      refine hst.answer fun handle hhdl => ?_
      cases so with
      | createHandle h₀ =>
        cases hhdl
        exact ⟨hturn.1, welcome_of_undisturbed hrun hi hturn.1 hst.plain hturn.2⟩
      | updateHandle h₀ =>
        cases hhdl
        refine ⟨hturn.1, hturn.2.elim (fun hplace => ?_) id⟩
        exact hplace.welcome (keyed hrun.reachable) hst.compatible
      | _ => cases hhdl
    | _ => exact hst

end Runs

/-! ### An example -/

namespace Sample

/-- Two sessions open a file, with the access and the share mode of each. -/
def opensTwice (access share access' share' : UInt32) : Option FilesSnapshot :=
  serveAll (start .anonymousOnly)
    [(0, Client.sessionSetup 0 []), (0, Client.treeConnect 1 "\\\\a\\s"),
      (1, Client.sessionSetup 0 []), (1, Client.treeConnect 2 "\\\\a\\s"),
      (0, Client.createFor 1 1 "f" 0 [] access share),
      (1, Client.createFor 2 1 "f" 0 [] access' share')]

end Sample

end RustSmb
