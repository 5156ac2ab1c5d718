import RustSmb.System.ShareModes

/-!
# Oplocks

CREATE breaks the exclusive oplocks on its file if it asks for an oplock itself, and gets what it
asks for if no other oplock is left.  It does not look at handles without an oplock, and a CREATE
without a request for an oplock breaks no exclusive one.  The look at the oplocks, the recording of
the handle and the registration of the oplock are three steps.  And the oplocks of a file are those
under the name that the CREATE gives.

## Main results

* `handlersMake_oplockChecked` — what CREATE has done before it records and registers.
* `exclusive_oplocks_held_alone` — **in turn, with one name for each file, exclusive oplocks are
  held alone.**
* `Sample.opened_beside_exclusive_oplock` — a file is opened beside an exclusive oplock.
-/

set_option synthInstance.maxSize 1000000

namespace RustSmb

open OpenOptions Table AList List Option World

variable {serverId share path : String}

/-! ### What CREATE does -/

namespace OplockConnectionEntry

/-- An oplock that leaves no room for other opens. -/
def Exclusive (e : OplockConnectionEntry) : Prop := Handler.oplockAckRequired e.oplockLevel = true

/-- An oplock is filed under the name by which a handle goes. -/
def HasNameOf (e : OplockConnectionEntry) (h : HandleState) : Prop :=
  e.shareName = h.shareName ∧ e.filePath = h.path

instance (e : OplockConnectionEntry) : Decidable e.Exclusive := inferInstanceAs (Decidable (_ = _))

instance (e : OplockConnectionEntry) (h : HandleState) : Decidable (e.HasNameOf h) :=
  inferInstanceAs (Decidable (_ ∧ _))

end OplockConnectionEntry

def OpenOptions.asksOplock (o : OpenOptions) : Bool :=
  o.leaseKey.isNone && o.requestedOplock != .none

/-- Does a CREATE ask for an oplock, and not for a lease? -/
def asksOplock (cmd : Command) : Bool :=
  match CreateRequest.read cmd.body with
  | some r => (ofRequest cmd.handler.connection.dialect r (r.contexts cmd.body)).asksOplock
  | none => false

/-- Two records of options ask for the same lease key and oplock. -/
def OpenOptions.AskAlike (o o' : OpenOptions) : Prop :=
  o.leaseKey = o'.leaseKey ∧ o.requestedOplock = o'.requestedOplock

theorem OpenOptions.AskAlike.apply {o o' : OpenOptions} (h : o.AskAlike o')
    (dialect dialect' : Option SmbDialect) (context : CreateContext) :
    (apply dialect o context).AskAlike (apply dialect' o' context) := by
  obtain ⟨hkey, hlvl⟩ := h
  cases context with
  | leaseRequest key state | leaseRequestV2 key state =>
    unfold OpenOptions.apply
    exact ⟨rfl, by rw [hlvl]⟩
  | _ => exact ⟨hkey, hlvl⟩

theorem OpenOptions.AskAlike.foldl {o o' : OpenOptions} (h : o.AskAlike o')
    (dialect dialect' : Option SmbDialect) (contexts : List CreateContext) :
    (contexts.foldl (OpenOptions.apply dialect) o).AskAlike
      (contexts.foldl (OpenOptions.apply dialect') o') := by
  induction contexts generalizing o o' with
  | nil => exact h
  | cons context rest ih => exact ih (h.apply dialect dialect' context)

theorem asksOplock_ofRequest (dialect dialect' : Option SmbDialect) (r : CreateRequest)
    (contexts : List CreateContext) :
    (ofRequest dialect r contexts).asksOplock = (ofRequest dialect' r contexts).asksOplock := by
  have hrestr : ∀ o : OpenOptions, o.restrictDurable.leaseKey = o.leaseKey ∧
      o.restrictDurable.requestedOplock = o.requestedOplock := by
    intro o
    unfold restrictDurable
    split
    · exact ⟨rfl, rfl⟩
    split <;> exact ⟨rfl, rfl⟩
  have hstart : ({ requestedOplock := r.requestedOplockLevel } : OpenOptions).AskAlike
      { requestedOplock := r.requestedOplockLevel } := ⟨rfl, rfl⟩
  obtain ⟨hkey, hlvl⟩ := hstart.foldl dialect dialect' contexts
  unfold OpenOptions.asksOplock ofRequest
  rw [(hrestr _).1, (hrestr _).2, (hrestr _).1, (hrestr _).2, hkey, hlvl]

section Handlers

open Proc Handler

/-- A call after which an oplock is not exclusive, or that fails to notify its holder. -/
def Breaks (serverId : String) (id : HandleId) (x : Event Smb) : Prop :=
  x = ⟨SmbOp.registry serverId (.updateOplockLevel id 0x01), ()⟩ ∨
    x = ⟨SmbOp.registry serverId (.oplockConnection id), none⟩ ∨
    ∃ tx ev, x = ⟨SmbOp.registry serverId (.sendOplockBreak tx ev), false⟩

/-- Some of the oplocks that a look has found on a file were broken since. -/
def Breaking (serverId share path : String)
    (existing done : List (HandleId × UInt8 × String × UInt64)) (h : List (Event Smb)) : Prop :=
  ∃ later earlier,
    h = later ++ ⟨SmbOp.registry serverId (.getOplocksForFile share path), existing⟩ :: earlier ∧
    ∀ o ∈ done, ∃ x ∈ later, Breaks serverId o.1 x

/-- The exclusive oplocks that a look has found on a file were broken since. -/
def Looked (share path : String) (h : List (Event Smb)) : Prop :=
  ∃ serverId existing, Breaking serverId share path existing
    (existing.filter fun o => o.2.2.1 == serverId && (o.2.1 == 0x09 || o.2.1 == 0x08)) h

/-- A look has found no oplock on a file. -/
def SeenNone (share path : String) (h : List (Event Smb)) : Prop :=
  ∃ serverId existing,
    ⟨SmbOp.registry serverId (.getOplocksForFile share path), existing⟩ ∈ h ∧
    ∀ o ∈ existing, o.2.1 = 0x00

theorem Breaking.suffix {existing done : List (HandleId × UInt8 × String × UInt64)}
    {h h' : List (Event Smb)} (hb : Breaking serverId share path existing done h) (hs : h <:+ h') :
    Breaking serverId share path existing done h' := by
  obtain ⟨later, earlier, rfl, hdone⟩ := hb
  obtain ⟨more, rfl⟩ := hs
  refine ⟨more ++ later, earlier, (append_assoc ..).symm, fun o ho => ?_⟩
  obtain ⟨x, hx, hbreaks⟩ := hdone o ho
  exact ⟨x, mem_append_right _ hx, hbreaks⟩

theorem Looked.suffix {h h' : List (Event Smb)} (hl : Looked share path h) (hs : h <:+ h') :
    Looked share path h' := by
  obtain ⟨serverId, existing, hb⟩ := hl
  exact ⟨serverId, existing, hb.suffix hs⟩

theorem SeenNone.suffix {h h' : List (Event Smb)} (hl : SeenNone share path h) (hs : h <:+ h') :
    SeenNone share path h' := by
  obtain ⟨serverId, existing, hmem, hnone⟩ := hl
  exact ⟨serverId, existing, hs.subset hmem, hnone⟩

/-- A CREATE that asks for an oplock records its handle after it has broken the exclusive ones
that it has found, and registers an exclusive one after it has found no other. -/
def OplockChecked (cmd : Command) (e : List (Event Smb)) : SmbOp → Prop
  | .store (.createHandle h) => asksOplock cmd = true → Looked h.shareName h.path e
  | .registry serverId (.registerOplock _ entry) =>
      entry.serverId = serverId ∧ (entry.Exclusive → SeenNone entry.shareName entry.filePath e)
  | _ => True

variable {cmd : Command} {s : ConnectionHandler} {h : List (Event Smb)}

/-- Only CREATE records handles and registers oplocks. -/
instance : Tolerates (OplockChecked cmd)
    [.counter, .sessionCounter, .createSession, .session, .createTree, .deleteTree, .fileHandles,
      .handle, .lease, .lock, .backend, .registry, .oplock, .acknowledge, .authenticate] where
  call e o ho := by
    cases o with
    | store so =>
      cases so with
      | createHandle _ => simp [SmbOp.effect, StoreOp.effect] at ho
      | _ => trivial
    | registry sv ro =>
      cases ro with
      | registerOplock _ _ => simp [SmbOp.effect, RegistryOp.effect] at ho
      | _ => trivial
    | _ => trivial

/-- Breaking an oplock fails only if it is not registered or its holder cannot be notified. -/
theorem breakOplock_wp (id : HandleId) (newLevel : UInt8) (filePath : String) :
    wp (OplockChecked cmd) (breakOplock id newLevel filePath)
      (onOk (fun _ _ _ => True) fun r s' h' => s' = s ∧ ∃ new, h' = new ++ h ∧
        (r.isOk = false → ∃ x ∈ new, Breaks s.serverId id x)) s h := by
  unfold breakOplock
  refine wp_bind.2 (wp_registry.2 ⟨trivial, fun found => ?_⟩)
  cases found with
  | none => exact wp_pure.2 ⟨rfl, [_], rfl, fun _ => ⟨_, mem_cons_self, .inr (.inl rfl)⟩⟩
  | some entry =>
    refine wp_bind.2 (wp_registry.2 ⟨trivial, fun breakId => ?_⟩)
    refine wp_bind.2 (wp_registry.2 ⟨trivial, fun sent => ?_⟩)
    cases sent with
    | false =>
      exact wp_pure.2 ⟨rfl, [_, _, _], rfl, fun _ => ⟨_, mem_cons_self, .inr (.inr ⟨_, _, rfl⟩)⟩⟩
    | true =>
      split
      · exact wp_pure.2 ⟨rfl, [_, _, _], rfl, fun hno => by cases hno⟩
      · unfold awaitOplockBreak
        refine wp_bind.2 (wp_bind.2 (wp_registry.2 ⟨trivial, fun _ => ?_⟩))
        refine wp_bind.2 (wp_registry.2 ⟨trivial, fun outcome => ?_⟩)
        refine wp_bind.2 (wp_registry.2 ⟨trivial, fun _ => ?_⟩)
        exact wp_pure.2 (wp_pure.2 ⟨rfl, [_, _, _, _, _, _], rfl, fun hno => by cases hno⟩)

theorem breakOplockConflict_wp (filePath : String) (oplock : HandleId × UInt8 × String × UInt64) :
    wp (OplockChecked cmd) (breakOplockConflict filePath oplock)
      (onOk (fun _ _ _ => True) fun _ s' h' => s' = s ∧ ∃ new, h' = new ++ h ∧
        ∃ x ∈ new, Breaks s.serverId oplock.1 x) s h := by
  unfold breakOplockConflict
  refine wp_seq (breakOplock_wp oplock.1 0x01 filePath) fun r s' h' hr => ?_
  obtain ⟨rfl, new, rfl, hfailed⟩ := hr
  cases r with
  | error err => exact wp_pure.2 ⟨rfl, new, rfl, hfailed rfl⟩
  | ok result =>
    refine wp_registry.2 ⟨trivial, fun _ => ⟨rfl, _ :: new, rfl, ?_⟩⟩
    exact ⟨_, mem_cons_self, .inl rfl⟩

theorem breakAll_wp {filePath : String} {existing done : List (HandleId × UInt8 × String × UInt64)}
    (rest : List (HandleId × UInt8 × String × UInt64)) (hsrv : s.serverId = serverId)
    (hb : Breaking serverId share path existing done h) :
    wp (OplockChecked cmd) (forEach (breakOplockConflict filePath) rest)
      (onOk (fun _ _ _ => True) fun _ s' h' => s' = s ∧ h <:+ h' ∧
        Breaking serverId share path existing (rest ++ done) h') s h := by
  induction rest generalizing h done with
  | nil => exact wp_pure.2 ⟨rfl, suffix_refl h, hb⟩
  | cons oplock rest ih =>
    unfold forEach
    refine wp_seq (breakOplockConflict_wp filePath oplock) fun _ s' h' hr => ?_
    obtain ⟨rfl, new, rfl, x, hx, hbreaks⟩ := hr
    have hb' : Breaking serverId share path existing (oplock :: done) (new ++ h) := by
      obtain ⟨later, earlier, rfl, hdone⟩ := hb
      refine ⟨new ++ later, earlier, (append_assoc ..).symm, forall_mem_cons.2 ⟨?_, ?_⟩⟩
      · exact ⟨x, mem_append_left _ hx, hsrv ▸ hbreaks⟩
      · intro o ho
        obtain ⟨y, hy, hbreaks⟩ := hdone o ho
        exact ⟨y, mem_append_right _ hy, hbreaks⟩
    refine wp_mono (ih hb') ?_
    rintro (err | _) s'' h'' hr
    · trivial
    · obtain ⟨rfl, hs, later, earlier, heq, hdone⟩ := hr
      refine ⟨rfl, (suffix_append _ _).trans hs, later, earlier, heq, fun o ho => hdone o ?_⟩
      rcases mem_cons.1 ho with rfl | ho
      · exact mem_append_right _ mem_cons_self
      · rcases mem_append.1 ho with ho | ho
        · exact mem_append_left _ ho
        · exact mem_append_right _ (mem_cons_of_mem _ ho)

/-- CREATE has broken the exclusive oplocks found, and is granted one only if it has then found
no other. -/
theorem grantOplock_wp (shareName filename : String) (requested : OplockLevel) :
    wp (OplockChecked cmd) (grantOplock shareName filename requested)
      (onOk (fun _ _ _ => True) fun granted _ h' => h <:+ h' ∧ Looked shareName filename h' ∧
        (oplockAckRequired granted.asU8 = true → SeenNone shareName filename h')) s h := by
  unfold grantOplock
  rw [wp_bind, wp_get]
  refine wp_bind.2 (wp_registry.2 ⟨trivial, fun existing => ?_⟩)
  have hlook : Breaking s.serverId shareName filename existing []
      (⟨SmbOp.registry s.serverId (.getOplocksForFile shareName filename), existing⟩ :: h) :=
    ⟨[], h, rfl, forall_mem_nil _⟩
  refine wp_seq (breakAll_wp _ rfl hlook) fun _ s' h' hr => ?_
  obtain ⟨rfl, hs, hb⟩ := hr
  rw [append_nil] at hb
  refine wp_bind.2 (wp_registry.2 ⟨trivial, fun remaining => wp_pure.2 ⟨?_, ?_, fun hgrant => ?_⟩⟩)
  · exact ((suffix_cons _ _).trans hs).trans (suffix_cons _ _)
  · exact Looked.suffix ⟨_, existing, hb⟩ (suffix_cons _ _)
  · refine ⟨_, remaining, mem_cons_self, fun o ho => ?_⟩
    by_contra hlvl
    have hany : remaining.any (fun o => o.2.1 != 0x00) = true :=
      any_eq_true.2 ⟨o, ho, bne_iff_ne.2 hlvl⟩
    cases requested <;> simp [hany, oplockAckRequired, OplockLevel.asU8] at hgrant

theorem openOplock_wp (o : OpenOptions) (shareName filename : String) :
    wp (OplockChecked cmd) (openOplock o shareName filename)
      (onOk (fun _ _ _ => True) fun granted _ h' => h <:+ h' ∧
        (o.asksOplock = true → Looked shareName filename h') ∧
        (o.leaseKey.isNone = true → oplockAckRequired granted.asU8 = true →
          SeenNone shareName filename h')) s h := by
  unfold openOplock
  split
  · refine wp_mono (grantOplock_wp shareName filename o.requestedOplock) ?_
    rintro (err | granted) s' h' hr
    · trivial
    · exact ⟨hr.1, fun _ => hr.2.1, fun _ => hr.2.2⟩
  · next hasks =>
    refine wp_pure.2 ⟨suffix_refl h, fun hasks' => ?_, fun hkey hgrant => ?_⟩
    · obtain ⟨hkey, hlvl⟩ := Bool.and_eq_true_iff.1 hasks'
      exact absurd ⟨hkey, bne_iff_ne.1 hlvl⟩ hasks
    · have hnone : o.requestedOplock = .none := by_contra fun hne => hasks ⟨hkey, hne⟩
      rw [hnone] at hgrant
      cases hgrant

theorem registerOpenOplock_wp (header : Smb2Header) (o : OpenOptions) (handleId : HandleId)
    (granted : OplockLevel) (shareName filename : String)
    (hseen : o.leaseKey.isNone = true → oplockAckRequired granted.asU8 = true →
      SeenNone shareName filename h) :
    wp (OplockChecked cmd) (registerOpenOplock header o handleId granted shareName filename)
      (fun _ _ _ => True) s h := by
  unfold registerOpenOplock
  rw [wp_bind, wp_get]
  refine wp_when.2 ⟨fun hgrant => wp_registry.2 ⟨⟨rfl, hseen ?_⟩, fun _ => trivial⟩,
    fun _ => trivial⟩
  exact (Bool.and_eq_true_iff.1 hgrant).1

variable [Externs]

theorem openFile_oplockChecked (header : Smb2Header) {r : CreateRequest}
    (hr : CreateRequest.read cmd.body = some r) (filename : String) :
    wp (OplockChecked cmd) (openFile header r (r.contexts cmd.body) filename)
      (fun _ _ _ => True) s h := by
  unfold openFile
  refine wp_skip fun found s h => wp_skip fun tree s h => wp_skip fun share s h => ?_
  refine wp_skip fun _ s h => wp_skip fun opened s h => wp_skip fun handleId s h => ?_
  rw [wp_bind, wp_get]
  refine wp_skip fun guid s₁ h => wp_skip fun now s₁ h => wp_skip fun lease s₁ h => ?_
  refine wp_seq (openOplock_wp _ tree.shareName filename) fun granted s₁ h hopl => ?_
  obtain ⟨-, hlooked, hseen⟩ := hopl
  obtain ⟨-, -, hname, hpath⟩ := newHandle_modes header r
    (ofRequest s.connection.dialect r (r.contexts cmd.body)) handleId tree.shareName
    filename opened.1 opened.2.1 guid now
  refine wp_bind.2 (wp_storeOrInternal.2 ⟨fun hasks => ?_, fun _ => ?_, fun _ => trivial⟩)
  · -- the handle is recorded
    simp only [hname, hpath]
    refine hlooked ?_
    unfold asksOplock at hasks
    rw [hr] at hasks
    exact (asksOplock_ofRequest _ _ r _).trans hasks
  · refine wp_seq (P := fun _ _ _ => True) (wp_mono (registerOpenOplock_wp header _ handleId granted
      tree.shareName filename fun hkey hlvl => (hseen hkey hlvl).suffix (suffix_cons _ _))
      ?_) fun _ s₂ h₂ _ => ?_
    · rintro (err | _) _ _ _ <;> trivial
    · exact Always.wp walked s₂ h₂

/-- **CREATE records its handle after it has broken the exclusive oplocks that it has found, and
registers one only after it has found no other.**  No other command does either. -/
theorem handlersMake_oplockChecked : HandlersMake fun cmd _ e o => OplockChecked cmd e o := by
  intro cmd g _
  unfold handleCommand
  cases hcmd : cmd.header.command with
  | create =>
    refine wp_map.2 (wp_onOk_true ?_)
    refine handleCreate_wp (fun _ _ _ => Always.wp walked) fun r hr filename s h => ?_
    exact openFile_oplockChecked cmd.header hr filename
  | _ => exact Always.wp walked cmd.handler []

end Handlers

/-! ### Registered oplocks -/

theorem LeaseBreakRegistry.lookup_oplocks_answer {outcome : BreakWait} {o : RegistryOp}
    {r : LeaseBreakRegistry} {id : HandleId} {e : OplockConnectionEntry}
    (h : (answer outcome o r).2.oplockConnections.lookup id = some e) :
    r.oplockConnections.lookup id = some e ∨ o = .registerOplock id e ∨
      ∃ level e₀, o = .updateOplockLevel id level ∧ r.oplockConnections.lookup id = some e₀ ∧
        e = { e₀ with oplockLevel := level } := by
  cases o with
  | registerOplock id' e' =>
    rcases of_lookup_insert h with ⟨rfl, rfl⟩ | h
    · exact .inr (.inl rfl)
    · exact .inl h
  | unregisterOplock id' => exact .inl (of_lookup_erase h)
  | unregisterConnectionOplocks sv sid =>
    simp only [answer, lookup_retain] at h
    exact .inl (filter_eq_some_iff.1 h).1
  | updateOplockLevel id' level =>
    cases hfound : r.oplockConnections.lookup id' with
    | none =>
      simp only [answer, hfound] at h
      exact .inl h
    | some e₀ =>
      simp only [answer, hfound] at h
      rcases of_lookup_insert h with ⟨rfl, rfl⟩ | h
      · exact .inr (.inr ⟨level, e₀, rfl, hfound, rfl⟩)
      · exact .inl h
  | sendLeaseBreak tx ev | sendOplockBreak tx ev =>
    simp only [answer] at h
    split at h <;> exact .inl h
  | trySendOplockBreak tx ev =>
    simp only [answer] at h
    split at h
    · split at h <;> exact .inl h
    · exact .inl h
  | _ => exact .inl h

section Registered

variable {α β : Type}

/-- The registered oplock of a handle. -/
def oplockAt (w : World α β) (serverId : String) (id : HandleId) : Option OplockConnectionEntry :=
  (w.registries serverId).oplockConnections.lookup id

theorem oplockAt_envStep {w w' : World α β} (hw : EnvStep w w') (serverId : String)
    (id : HandleId) : oplockAt w' serverId id = oplockAt w serverId id := by
  refine hw.registryOf (P := fun r => r.oplockConnections.lookup id = oplockAt w serverId id) rfl
    (fun _ => rfl) (fun _ => rfl) fun b => ?_
  unfold LeaseBreakRegistry.expire
  split <;> rfl

theorem handles_envStep {w w' : World α β} (hw : EnvStep w w') :
    w'.store.handles = w.store.handles := by
  cases hw with
  | oracle _ | registry _ _ _ => rfl
  | failure sv o ho => rcases ho with rfl | rfl <;> rfl

variable [AuthProvider α] [StorageBackend β]

theorem oplockAt_answer {o : SmbOp} {w : World α β} {id : HandleId} {e : OplockConnectionEntry}
    (h : oplockAt (answer o w).2 serverId id = some e) :
    oplockAt w serverId id = some e ∨ o = .registry serverId (.registerOplock id e) ∨
      ∃ level e₀, o = .registry serverId (.updateOplockLevel id level) ∧
        oplockAt w serverId id = some e₀ ∧ e = { e₀ with oplockLevel := level } := by
  revert h
  refine registryOf_answer (P := fun r => r.oplockConnections.lookup id = some e → _)
    (fun ro heq h => ?_) fun _ => .inl
  subst heq
  rcases LeaseBreakRegistry.lookup_oplocks_answer h with
    hprev | rfl | ⟨level, e₀, rfl, hprev, rfl⟩
  · exact .inl hprev
  · exact .inr (.inl rfl)
  · exact .inr (.inr ⟨level, e₀, rfl, hprev, rfl⟩)

end Registered

/-! ### Runs -/

section Runs

variable [Externs] {α β : Type} [AuthProvider α] [StorageBackend β]
  {ok : World α β → SmbOp ⊕ Mark → Prop}

/-- Every call to a break registry goes to the one of a server. -/
def oneServer (serverId : String) (_ : World α β) : SmbOp ⊕ Mark → Prop
  | .inl (.registry sv _) => sv = serverId
  | _ => True

instance (serverId : String) (w : World α β) (o : SmbOp ⊕ Mark) :
    Decidable (oneServer serverId w o) := by
  unfold oneServer
  split <;> infer_instance

/-- A handle with an exclusive oplock is the only handle on its file among connected sessions. -/
def HeldAlone (serverId : String) (w : World α β) : Prop :=
  ∀ holder ∈ w.store.handles.values, ∀ e ∈ oplockAt w serverId holder.persistentId, e.Exclusive →
    ∀ h ∈ w.store.handles.values, h.persistentId ≠ holder.persistentId → SameFile holder h →
      h.sessionId = 0

/-- An oplock on a file is registered at one of some levels, or raised to one. -/
def Raises (levels : UInt8 → Bool) (share path : String) (w : World α β) : SmbOp ⊕ Mark → Prop
  | .inl (.registry _ (.registerOplock _ e)) =>
      e.shareName = share ∧ e.filePath = path ∧ levels e.oplockLevel = true
  | .inl (.registry sv (.updateOplockLevel id level)) =>
      levels level = true ∧ ∃ e ∈ oplockAt w sv id,
        e.shareName = share ∧ e.filePath = path ∧ levels e.oplockLevel = false
  | _ => False

instance (levels : UInt8 → Bool) (share path : String) (w : World α β) (o : SmbOp ⊕ Mark) :
    Decidable (Raises levels share path w o) := by
  unfold Raises
  split <;> infer_instance

/-- Nobody has raised an oplock on a file since a connection took up its command. -/
abbrev Unraised (levels : UInt8 → Bool) (share path : String) (i : ℕ)
    (tr : Trace ok) : Prop :=
  Machine.Undisturbed (M := smbMachine α β ok) i (fun y => isDispatch y.event.1)
    (fun y => Raises levels share path y.world y.event.1) tr

/-- There is room for a handle: its own oplock is under its name, and there is no exclusive one of
another handle. -/
def Room (r : LeaseBreakRegistry) (h : HandleState) : Prop :=
  ∀ x ∈ r.oplockConnections.entries, (x.1 = h.persistentId → x.2.HasNameOf h) ∧
    (x.1 ≠ h.persistentId → x.2.Exclusive → ¬ x.2.HasNameOf h)

/-- The store has a handle in the place of `h`, under the same name, and `h` is not connected if
that one is not. -/
def KeepsPlace (st : MemoryStateStore) (h : HandleState) : Prop :=
  ∃ x ∈ st.handles.lookup h.persistentId, SameName h x ∧ (x.sessionId = 0 → h.sessionId = 0)

/-- The other connected handles under the name of an oplock have oplocks too. -/
def OthersHaveOplocks (serverId : String) (w : World α β) (id : HandleId)
    (e : OplockConnectionEntry) : Prop :=
  ∀ h ∈ w.store.handles.values, h.persistentId ≠ id → e.HasNameOf h → h.sessionId ≠ 0 →
    ∃ e' ∈ oplockAt w serverId h.persistentId, e'.oplockLevel ≠ 0

instance (r : LeaseBreakRegistry) (h : HandleState) : Decidable (Room r h) := by
  unfold Room
  infer_instance

instance (st : MemoryStateStore) (h : HandleState) : Decidable (KeepsPlace st h) := by
  unfold KeepsPlace
  infer_instance

instance (serverId : String) (w : World α β) (id : HandleId) (e : OplockConnectionEntry) :
    Decidable (OthersHaveOplocks serverId w id e) := by
  unfold OthersHaveOplocks
  infer_instance

/-- The steps of a run in which oplocks are granted in turn.

* A CREATE records its handle, under an identifier without an oplock, if there is no exclusive
  oplock under its name, or if it asks for one and nobody was granted an exclusive one since it
  began.
* A handle that changes keeps its place, or there is room for it.
* Holders can be notified.
* An oplock is registered for a handle that has not moved.  If it is exclusive, the other connected
  handles under its name have oplocks, and nobody got one since the CREATE began.
* An acknowledgment does not raise an oplock. -/
def OplocksInTurn (serverId : String) (tr : Trace ok) (i : ℕ)
    (x : (smbMachine α β ok).Stamped) : Prop :=
  match x.event.1 with
  | .inl (.store (.createHandle h)) =>
      oplockAt x.world serverId h.persistentId = none ∧
        (Room (x.world.registries serverId) h ∨
          ((progress (stamps (pastOf i tr))).command.any asksOplock = true ∧
            Unraised Handler.oplockAckRequired h.shareName h.path i tr))
  | .inl (.store (.updateHandle h)) =>
      KeepsPlace x.world.store h ∨ Room (x.world.registries serverId) h
  | .inl (.registry _ (.sendOplockBreak tx _)) =>
      ((x.world.registries serverId).oplockEvents.lookup tx).isSome = true
  | .inl (.registry _ (.registerOplock id e)) =>
      (∀ h ∈ x.world.store.handles.lookup id, e.HasNameOf h) ∧
        (e.Exclusive → OthersHaveOplocks serverId x.world id e ∧
          Unraised (fun level => level != 0) e.shareName e.filePath i tr)
  | .inl (.registry _ (.updateOplockLevel id level)) =>
      Handler.oplockAckRequired level = true → ∀ e ∈ oplockAt x.world serverId id, e.Exclusive
  | _ => True

instance (serverId : String) (tr : Trace ok) (i : ℕ)
    (x : (smbMachine α β ok).Stamped) : Decidable (OplocksInTurn serverId tr i x) := by
  unfold OplocksInTurn
  split <;> infer_instance

theorem serverId_of_oplockAt {c : (smbMachine α β ok).Config} {tr : Trace ok}
    (hrun : SmbRun ok c tr) {id : HandleId} {e : OplockConnectionEntry}
    (he : oplockAt c.world serverId id = some e) : e.serverId = serverId := by
  refine SmbRun.traced (I := fun w _ => ∀ e, oplockAt w serverId id = some e →
    e.serverId = serverId) hrun nofun ?_ ?_ (fun _ _ ih => ih) e he
  · exact fun _ hw ih e he => ih e (oplockAt_envStep hw serverId id ▸ he)
  · intro c tr i p h o k hrun hi _ ih e he
    rcases oplockAt_answer he with hprev | rfl | ⟨level, e₀, rfl, hprev, rfl⟩
    · exact ih e hprev
    · obtain ⟨_, _, _, _, -, -, hchecked⟩ := handler_call handlersMake_oplockChecked
        (SmbReachable.running hrun.reachable hi) (by simp [isCheck]) not_false
      exact hchecked.1
    · exact ih e₀ hprev

/-! ### What CREATE has seen -/

/-- The oplock has left the levels, or is on another file. -/
def Lowered (levels : UInt8 → Bool) (share path serverId : String) (id : HandleId)
    (w : World α β) : Prop :=
  ∀ e, oplockAt w serverId id = some e → e.shareName = share → e.filePath = path →
    levels e.oplockLevel = false

omit [Externs] in
theorem Lowered.answer {levels : UInt8 → Bool} {id : HandleId} {w : World α β}
    (hw : Lowered levels share path serverId id w) {o : SmbT.Op}
    (ho : ¬ Raises levels share path w o) :
    Lowered levels share path serverId id (Prog.answerMarks answer o w).2 := by
  intro e he hshare hpath
  rcases o with o | m
  · rcases oplockAt_answer he with hprev | rfl | ⟨level, e₀, rfl, hprev, rfl⟩
    · exact hw e hprev hshare hpath
    · exact Bool.eq_false_iff.2 fun hlvl => ho ⟨hshare, hpath, hlvl⟩
    · exact Bool.eq_false_iff.2 fun hlvl =>
        ho ⟨hlvl, e₀, hprev, hshare, hpath, hw e₀ hprev hshare hpath⟩
  · exact hw e he hshare hpath

section Seen

variable {c : (smbMachine α β ok).Config} {tr : Trace ok} {i : ℕ} {p : Prog SmbT Conn}
  {h : List (smbMachine α β ok).Stamped} {q : Prog SmbT Conn} {w₀ : World α β} {cmd : Command}
  {g e : List (World α β × Event Smb)}

/-- What a call of a CREATE has left lowered still is, if nobody has raised it. -/
theorem lowered_of_unraised (hrun : SmbRun ok c tr) (hi : c.phase i = .busy p h q)
    (hp : progress (stamps h) = .handling w₀ cmd g e) {levels : UInt8 → Bool} {id : HandleId}
    (hturn : Unraised levels share path i tr) {x : World α β × Event Smb} (hx : x ∈ e)
    (hP : Lowered levels share path serverId id (answer x.2.1 x.1).2) :
    Lowered levels share path serverId id c.world := by
  obtain ⟨later, earlier, rfl⟩ := append_of_mem hx
  obtain ⟨recent, st, older, hpast, hworld, hev, hrecent⟩ := split_event hrun hi hp
  refine Machine.Run.checked hrun ?_ ?_ hturn hpast
    (fun y hy => not_of_later rfl (fun _ _ => rfl) (hrecent y hy)) ?_
  · exact fun w w' hw hlow e he => hlow e (oplockAt_envStep hw serverId id ▸ he)
  · rintro o r w w' ⟨hexec, -⟩ hharm hlow
    obtain rfl : (Prog.answerMarks answer o w).2 = w' := congrArg Prod.snd hexec
    exact hlow.answer hharm
  · rintro w' ⟨hexec, -⟩
    rw [hev, hworld] at hexec
    obtain rfl : (answer x.2.1 x.1).2 = w' := congrArg Prod.snd hexec
    exact hP

omit [Externs] in
theorem mem_getOplocksForFile {w : World α β} {id : HandleId} {e : OplockConnectionEntry}
    (he : oplockAt w serverId id = some e) (hshare : e.shareName = share)
    (hpath : e.filePath = path) :
    (id, e.oplockLevel, e.serverId, e.sessionId) ∈
      (answer (.registry serverId (.getOplocksForFile share path)) w).1 := by
  refine mem_map.2 ⟨⟨id, e⟩, mem_filter.2 ⟨mem_lookup_iff.1 he, ?_⟩, rfl⟩
  rw [hshare, hpath, beq_self_eq_true, beq_self_eq_true]
  rfl

omit [Externs] in
theorem oplockAt_look {w : World α β} (id : HandleId) :
    oplockAt (answer (.registry serverId (.getOplocksForFile share path)) w).2 serverId id =
      oplockAt w serverId id :=
  congrArg (fun r => lookup id (LeaseBreakRegistry.oplockConnections r)) (Function.update_self ..)

/-- The message reaches a connection. -/
def CanNotify (serverId : String) (x : (smbMachine α β ok).Stamped) : Prop :=
  match x.event.1 with
  | .inl (.registry _ (.sendOplockBreak tx _)) =>
      ((x.world.registries serverId).oplockEvents.lookup tx).isSome = true
  | _ => True

/-- A call that breaks an oplock has left it lowered, if its holder can be notified. -/
theorem lowered_of_breaks (hrun : SmbRun ok c tr) (hi : c.phase i = .busy p h q)
    (hp : progress (stamps h) = .handling w₀ cmd g e) (hsend : ∀ y ∈ tr, CanNotify serverId y.2)
    (share path : String) {id : HandleId} {x : World α β × Event Smb} (hx : x ∈ e)
    (hbreaks : Breaks serverId id x.2) :
    Lowered Handler.oplockAckRequired share path serverId id (answer x.2.1 x.1).2 := by
  have hans := (handling (SmbReachable.running hrun.reachable hi) hp).answered x
    (mem_append_right g hx)
  obtain ⟨w, ev⟩ := x
  rcases hbreaks with rfl | rfl | ⟨tx, ev, rfl⟩
  · intro e' he _ _
    rcases oplockAt_answer he with hprev | heq | ⟨level, e₀, heq, -, rfl⟩
    · -- the entry has the level that was just set
      have hself : oplockAt (answer (.registry serverId (.updateOplockLevel id 0x01)) w).2
          serverId id = some { e' with oplockLevel := 0x01 } := by
        unfold oplockAt at hprev ⊢
        simp only [answer, callRegistry, Function.update_self,
          LeaseBreakRegistry.answer, hprev, lookup_insert]
      have hlvl : e'.oplockLevel = 0x01 :=
        congrArg OplockConnectionEntry.oplockLevel (some.inj (he.symm.trans hself))
      rw [hlvl]
      rfl
    · cases heq
    · cases heq
      rfl
  · intro e' he _ _
    have hlook : oplockAt w serverId id = none := hans
    have hsame : oplockAt (answer (.registry serverId (.oplockConnection id)) w).2 serverId
        id = oplockAt w serverId id :=
      congrArg (fun r => lookup id (LeaseBreakRegistry.oplockConnections r))
        (Function.update_self ..)
    rw [hsame, hlook] at he
    cases he
  · -- the notification cannot have failed
    obtain ⟨later, earlier, rfl⟩ := append_of_mem hx
    obtain ⟨st, tr', hs, hworld, hev, -⟩ :=
      exists_event hrun hi hp (suffix_append later (_ :: earlier))
    have hopen := hsend _ (hs.subset mem_cons_self)
    unfold CanNotify at hopen
    rw [hev, hworld] at hopen
    obtain ⟨queue, hqueue⟩ := isSome_iff_exists.1 hopen
    simp only [answer, callRegistry, LeaseBreakRegistry.answer, hqueue] at hans
    cases hans

/-- **A CREATE that asks for an oplock leaves no exclusive one on its file**, if nobody was
granted one since it began. -/
theorem not_exclusive_of_asking (hrun : SmbRun ok c tr) {handle : HandleState}
    {k : SmbT.Res (.inl (.store (.createHandle handle))) → Prog SmbT Conn}
    (hi : c.phase i = .busy p h (.call (.inl (.store (.createHandle handle))) k))
    (hone : ∀ w sv o, ok w (.inl (.registry sv o)) → sv = serverId)
    (hsend : ∀ y ∈ tr, CanNotify serverId y.2)
    (hasks : (progress (stamps (pastOf i tr))).command.any asksOplock = true)
    (hturn : Unraised Handler.oplockAckRequired handle.shareName handle.path i tr) {id : HandleId}
    {o : OplockConnectionEntry} (ho : oplockAt c.world serverId id = some o)
    (hfile : o.HasNameOf handle) : ¬ o.Exclusive := by
  intro hexcl
  have hrunning := SmbReachable.running hrun.reachable hi
  obtain ⟨w, cmd, g, e, hp, hhand, hchecked⟩ :=
    handler_call handlersMake_oplockChecked hrunning (by simp [isCheck]) not_false
  rw [progress_past hrun hi hp (by simp)] at hasks
  obtain ⟨sv, existing, later, earlier, hsplit, hdone⟩ := hchecked hasks
  obtain ⟨later, rest, rfl, rfl, hrest⟩ := map_eq_append_iff.1 hsplit
  obtain ⟨⟨w₁, look⟩, e, rfl, rfl, rfl⟩ := map_eq_cons_iff.1 hrest
  have hmem : ∀ y, y ∈ later ++ y :: e := fun y => mem_append_right later mem_cons_self
  obtain rfl : sv = serverId := hone _ _ _ (handling_allowed hrunning hp _ (hmem _))
  have hlooked := hhand.answered _ (mem_append_right g (hmem _))
  suffices hlow : Lowered Handler.oplockAckRequired handle.shareName handle.path sv id c.world from
    absurd (hlow o ho hfile.1 hfile.2) (by rw [hexcl]; decide)
  by_cases hseen : ∃ o₁, oplockAt w₁ sv id = some o₁ ∧ o₁.HasNameOf handle ∧ o₁.Exclusive
  · -- the look has found the oplock, and it was broken
    obtain ⟨o₁, ho₁, hfile₁, hexcl₁⟩ := hseen
    obtain ⟨st, tr', hs, hworld, -, -⟩ := exists_event hrun hi hp (suffix_append later (_ :: e))
    obtain ⟨c', -, -, -, hrun', hworld', -⟩ := hrun.exists_before hs
    have hsrv : o₁.serverId = sv := serverId_of_oplockAt hrun' (by rw [hworld', hworld, ho₁])
    have hexist := mem_getOplocksForFile ho₁ hfile₁.1 hfile₁.2
    rw [show (answer (.registry sv (.getOplocksForFile handle.shareName handle.path))
      w₁).1 = existing from hlooked] at hexist
    obtain ⟨x, hx, hbreaks⟩ := hdone _ (mem_filter.2 ⟨hexist, by
      rw [hsrv, beq_self_eq_true]; exact hexcl₁⟩)
    obtain ⟨z, hz, rfl⟩ := mem_map.1 hx
    exact lowered_of_unraised hrun hi hp hturn (mem_append_left _ hz)
      (lowered_of_breaks hrun hi hp hsend _ _ (mem_append_left _ hz) hbreaks)
  · refine lowered_of_unraised hrun hi hp hturn (hmem _) fun o₁ ho₁ hshare hpath => ?_
    rw [oplockAt_look] at ho₁
    exact Bool.eq_false_iff.2 fun hlvl => hseen ⟨o₁, ho₁, ⟨hshare, hpath⟩, hlvl⟩

/-- **A CREATE that registers an exclusive oplock has found no other**, if nobody got one since it
began. -/
theorem level_of_registering (hrun : SmbRun ok c tr) {id : HandleId} {entry : OplockConnectionEntry}
    {k : SmbT.Res (.inl (.registry serverId (.registerOplock id entry))) → Prog SmbT Conn}
    (hi : c.phase i = .busy p h (.call (.inl (.registry serverId (.registerOplock id entry))) k))
    (hone : ∀ w sv o, ok w (.inl (.registry sv o)) → sv = serverId) (hexcl : entry.Exclusive)
    (hturn : Unraised (fun level => level != 0) entry.shareName entry.filePath i tr)
    {id' : HandleId} {o : OplockConnectionEntry} (ho : oplockAt c.world serverId id' = some o)
    (hshare : o.shareName = entry.shareName) (hpath : o.filePath = entry.filePath) :
    o.oplockLevel = 0 := by
  have hrunning := SmbReachable.running hrun.reachable hi
  obtain ⟨w, cmd, g, e, hp, hhand, hchecked⟩ :=
    handler_call handlersMake_oplockChecked hrunning (by simp [isCheck]) not_false
  obtain ⟨sv, existing, hmem, hnone⟩ := hchecked.2 hexcl
  obtain ⟨⟨w₁, look⟩, hmem, rfl⟩ := mem_map.1 hmem
  obtain rfl : sv = serverId := hone _ _ _ (handling_allowed hrunning hp _ hmem)
  have hlooked := hhand.answered _ (mem_append_right g hmem)
  have hlow : Lowered (fun level => level != 0) entry.shareName entry.filePath sv id' c.world := by
    refine lowered_of_unraised hrun hi hp hturn hmem fun o₁ ho₁ hshare₁ hpath₁ => ?_
    rw [oplockAt_look] at ho₁
    have hexist := mem_getOplocksForFile ho₁ hshare₁ hpath₁
    rw [show (answer (.registry sv (.getOplocksForFile entry.shareName entry.filePath))
      w₁).1 = existing from hlooked] at hexist
    exact bne_eq_false_iff_eq.2 (hnone _ hexist)
  exact bne_eq_false_iff_eq.1 (hlow o ho hshare hpath)

end Seen

/-! ### Exclusive oplocks are held alone -/

/-- The oplocks of a server are under the names of their handles, and exclusive ones are alone
there. -/
structure OplocksInPlace (serverId : String) (w : World α β) : Prop where
  /-- An oplock is under the name of its handle. -/
  placed : ∀ id e h, oplockAt w serverId id = some e → w.store.handles.lookup id = some h →
    e.HasNameOf h
  /-- A connected handle under the name of an exclusive oplock is the one that has it. -/
  alone : ∀ id e id' h, oplockAt w serverId id = some e → e.Exclusive →
    w.store.handles.lookup id' = some h → id' ≠ id → e.HasNameOf h → h.sessionId = 0

section InPlace

variable {serverId : String} {w : World α β}

omit [Externs] [AuthProvider α] [StorageBackend β] in
theorem OplocksInPlace.record (hw : OplocksInPlace serverId w) {now : UInt64} {so : StoreOp}
    (hso : ∀ h, so.recordedHandle = some h →
      KeepsPlace w.store h ∨ Room (w.registries serverId) h) :
    OplocksInPlace serverId { w with store := (MemoryStateStore.answer now so w.store).2 } := by
  constructor
  · intro id e h he hh
    rcases MemoryStateStore.lookup_handles_answer hh with hold | ⟨hnew, rfl⟩
    · exact hw.placed id e h he hold
    · rcases hso h hnew with ⟨x, hx, hfile, -⟩ | hroom
      · have hplaced := hw.placed _ e x he hx
        exact ⟨hplaced.1.trans hfile.1.symm, hplaced.2.trans hfile.2.symm⟩
      · exact (hroom _ (mem_lookup_iff.1 he)).1 rfl
  · intro id e id' h he hexcl hh hne hfile
    rcases MemoryStateStore.lookup_handles_answer hh with hold | ⟨hnew, rfl⟩
    · exact hw.alone id e id' h he hexcl hold hne hfile
    · rcases hso h hnew with ⟨x, hx, hsame, hconn⟩ | hroom
      · exact hconn (hw.alone id e _ x he hexcl hx hne
          ⟨hfile.1.trans hsame.1, hfile.2.trans hsame.2⟩)
      · exact absurd hfile ((hroom _ (mem_lookup_iff.1 he)).2 hne.symm hexcl)

omit [Externs] [AuthProvider α] [StorageBackend β] in
/-- An oplock can be registered under the name of its handle, if others are not in the way. -/
theorem OplocksInPlace.register (hw : OplocksInPlace serverId w) {w' : World α β}
    (hstore : w'.store = w.store)
    (hoplocks : ∀ id e, oplockAt w' serverId id = some e → oplockAt w serverId id = some e ∨
      (∃ e₀, oplockAt w serverId id = some e₀ ∧ e.shareName = e₀.shareName ∧
        e.filePath = e₀.filePath ∧ (e.Exclusive → e₀.Exclusive)) ∨
      ((∀ h, w.store.handles.lookup id = some h → e.HasNameOf h) ∧ (e.Exclusive → ∀ id' h,
        w.store.handles.lookup id' = some h → id' ≠ id → e.HasNameOf h → h.sessionId = 0))) :
    OplocksInPlace serverId w' := by
  constructor
  · intro id e h he hh
    rw [hstore] at hh
    rcases hoplocks id e he with hold | ⟨e₀, hold, hshare, hpath, -⟩ | ⟨hplaced, -⟩
    · exact hw.placed id e h hold hh
    · have hplaced := hw.placed id e₀ h hold hh
      exact ⟨hshare.trans hplaced.1, hpath.trans hplaced.2⟩
    · exact hplaced h hh
  · intro id e id' h he hexcl hh hne hfile
    rw [hstore] at hh
    rcases hoplocks id e he with hold | ⟨e₀, hold, hshare, hpath, hlvl⟩ | ⟨-, halone⟩
    · exact hw.alone id e id' h hold hexcl hh hne hfile
    · exact hw.alone id e₀ id' h hold (hlvl hexcl) hh hne
        ⟨hshare.symm.trans hfile.1, hpath.symm.trans hfile.2⟩
    · exact halone hexcl id' h hh hne hfile

end InPlace

/-- In a run in which oplocks are granted in turn, a handle is recorded where there is room. -/
theorem room_of_inTurn {c : (smbMachine α β (oneServer serverId)).Config}
    {tr : Trace (α := α) (β := β) (oneServer serverId)} (hrun : SmbRun (oneServer serverId) c tr)
    (hsteps : EachSmbCall (OplocksInTurn serverId) tr) {i : ℕ} {p : Prog SmbT Conn}
    {h : List (smbMachine α β (oneServer serverId)).Stamped} {so : StoreOp}
    {k : SmbT.Res (.inl (.store so)) → Prog SmbT Conn}
    (hi : c.phase i = .busy p h (.call (.inl (.store so)) k)) {r : SmbT.Res (.inl (.store so))}
    (hturn : OplocksInTurn serverId tr i ⟨c.world, .inl (.store so), r⟩) {handle : HandleState}
    (hhdl : so.recordedHandle = some handle) :
    KeepsPlace c.world.store handle ∨ Room (c.world.registries serverId) handle := by
  cases so with
  | updateHandle h₀ =>
    cases hhdl
    exact hturn
  | createHandle h₀ =>
    cases hhdl
    obtain ⟨hfresh, hroom | ⟨hasks, hunraised⟩⟩ := hturn
    · exact .inr hroom
    · refine .inr fun x hx => ⟨fun hid => ?_, fun _ hexcl hfile => ?_⟩
      · have hlook : oplockAt c.world serverId x.1 = some x.2 := mem_lookup_iff.2 hx
        rw [hid, hfresh] at hlook
        cases hlook
      · refine not_exclusive_of_asking hrun hi (fun _ _ _ hsv => hsv) ?_ hasks hunraised
          (mem_lookup_iff.2 hx) hfile hexcl
        refine hsteps.forall_mem fun tr i x hx => ?_
        unfold OplocksInTurn at hx
        unfold CanNotify
        split
        · next hop =>
          rw [hop] at hx
          exact hx
        · trivial
  | _ => cases hhdl

theorem oplocksInPlace_of_inTurn {c : (smbMachine α β (oneServer serverId)).Config}
    {tr : Trace (α := α) (β := β) (oneServer serverId)} (hrun : SmbRun (oneServer serverId) c tr)
    (hsteps : EachSmbCall (OplocksInTurn serverId) tr) :
    OplocksInPlace serverId c.world := by
  refine SmbRun.traced (I := fun w tr => EachSmbCall (OplocksInTurn serverId) tr →
    OplocksInPlace serverId w) hrun (fun _ _ _ _ => ?_) ?_ ?_ (fun _ _ ih hsteps => ih hsteps.2)
    hsteps
  · exact ⟨fun id e h he => (by cases he), fun id e id' h he => (by cases he)⟩
  · intro c tr w _ hw ih hsteps
    have hinv := ih hsteps
    have hhandles := handles_envStep hw
    constructor
    · exact fun id e h he hh => hinv.placed id e h (oplockAt_envStep hw serverId id ▸ he)
        (hhandles ▸ hh)
    · exact fun id e id' h he hexcl hh => hinv.alone id e id' h
        (oplockAt_envStep hw serverId id ▸ he) hexcl (hhandles ▸ hh)
  · rintro c tr i p h o k hrun hi hok ih ⟨hturn, hsteps⟩
    have hinv := ih hsteps
    cases o with
    | store so => exact hinv.record fun _ => room_of_inTurn hrun hsteps hi hturn
    | registry sv ro =>
      obtain rfl : sv = serverId := hok
      refine hinv.register rfl fun id e he => ?_
      rcases oplockAt_answer he with
        hprev | heq | ⟨level, e₀, heq, hprev, rfl⟩
      · exact .inl hprev
      · cases heq
        -- a new exclusive oplock: every other handle on the file has given way
        refine .inr (.inr ⟨hturn.1, fun hexcl id' h hh hne hfile => ?_⟩)
        by_contra hconn
        obtain ⟨hoths, hunraised⟩ := hturn.2 hexcl
        have hid := (keyed hrun.reachable).handles _ _ hh
        subst hid
        obtain ⟨e', he', hlvl⟩ := hoths h (mem_values.2 ⟨_, hh⟩) hne hfile hconn
        have hplaced := hinv.placed _ e' h he' hh
        exact hlvl (level_of_registering hrun hi (fun _ _ _ hsv => hsv) hexcl hunraised he'
          (hplaced.1.trans hfile.1.symm) (hplaced.2.trans hfile.2.symm))
      · cases heq
        exact .inr (.inl ⟨e₀, hprev, rfl, rfl, fun hexcl => hturn hexcl e₀ hprev⟩)
    | _ => exact ⟨hinv.placed, hinv.alone⟩

/-- **If oplocks are granted in turn and each file goes by one name, exclusive oplocks are held
alone**: in every such run of one server, a handle with a batch or exclusive oplock is the only one
on its file among connected sessions, whatever the others would be named. -/
theorem exclusive_oplocks_held_alone {serverId : String}
    {c : (smbMachine α β (oneServer serverId)).Config}
    {tr : Trace (α := α) (β := β) (oneServer serverId)}
    (hrun : SmbRun (oneServer serverId) c tr) (hsteps : EachSmbCall (OplocksInTurn serverId) tr)
    (hnames : EachSmbCall NamesInTurn tr) : HeldAlone serverId c.world := by
  have hinv := oplocksInPlace_of_inTurn hrun hsteps
  have hkeyed := keyed hrun.reachable
  intro holder hholder e he hexcl h hh hne hfile
  have hname : SameName holder h := oneName_of_inTurn hrun hnames holder hholder h hh hne.symm hfile
  have hplaced := hinv.placed _ e holder he (hkeyed.handles.mem_values_iff.1 hholder)
  exact hinv.alone _ e _ h he hexcl (hkeyed.handles.mem_values_iff.1 hh) hne
    ⟨hplaced.1.trans hname.1, hplaced.2.trans hname.2⟩

end Runs

/-! ### An example -/

namespace Sample

/-- Two sessions on two connections open files, with the oplock that each open asks for. -/
def oplocksFor (opens : List (ℕ × String × UInt8)) :
    Option (Snapshot (α := AnonymousAuthProvider) (β := Files) (oneServer "a")) :=
  serveAll (startNotified .anonymousOnly)
    ([(0, Client.sessionSetup 0 []), (0, Client.treeConnect 1 "\\\\a\\s"),
      (1, Client.sessionSetup 0 []), (1, Client.treeConnect 2 "\\\\a\\s")] ++
      opens.map fun (i, file, level) =>
        (i, Client.create (UInt64.ofNat (i + 1)) 1 file level []))

/-- A session opens a file with an exclusive oplock, another asks for a shared one on it, which
breaks the first, and then has an exclusive one on a file of its own. -/
theorem exclusive_oplocks_held_alone_shared :
    ∃ (c : (smbMachine AnonymousAuthProvider Files (oneServer "a")).Config)
      (tr : Trace (oneServer "a")), SmbRun (oneServer "a") c tr ∧
      EachSmbCall (OplocksInTurn "a") tr ∧ EachSmbCall NamesInTurn tr ∧
      c.world.store.handles.values.length = 3 ∧
      (oplockAt c.world "a" 3).any (fun e => decide e.Exclusive) = true ∧
      HeldAlone "a" c.world := by
  obtain ⟨st, hst, hsteps, hnames, hlength, hexcl⟩ : ∃ st,
      oplocksFor [(0, "f", 0x08), (1, "f", 0x01), (1, "g", 0x08)] = some st ∧
      EachSmbCall (OplocksInTurn "a") st.trace ∧ EachSmbCall NamesInTurn st.trace ∧
      st.world.store.handles.values.length = 3 ∧
      (oplockAt st.world "a" 3).any (fun e => decide e.Exclusive) = true :=
    exists_of_any (by decide +kernel)
  have hrun := run_serveAll (run_startNotified _) hst
  exact ⟨st.config, st.trace, hrun, hsteps, hnames, hlength, hexcl,
    exclusive_oplocks_held_alone hrun hsteps hnames⟩

/-- **A file is opened beside an exclusive oplock**: a CREATE that asks for no oplock does not break
it. -/
theorem opened_beside_exclusive_oplock :
    ∃ (c : (smbMachine AnonymousAuthProvider Files (oneServer "a")).Config)
      (tr : Trace (oneServer "a")) (holder h : HandleState) (e : OplockConnectionEntry),
      SmbRun (oneServer "a") c tr ∧ c.world.store.handles.lookup 1 = some holder ∧
      c.world.store.handles.lookup 2 = some h ∧ oplockAt c.world "a" 1 = some e ∧
      e.oplockLevel = 0x08 ∧ SameFile holder h ∧ h.sessionId = 2 ∧ ¬ HeldAlone "a" c.world := by
  have hchk : (oplocksFor [(0, "f", 0x08), (1, "f", 0x00)]).any (fun st =>
      (st.world.store.handles.lookup 1).any fun holder =>
        (st.world.store.handles.lookup 2).any fun h => (oplockAt st.world "a" 1).any fun e =>
          decide (e.oplockLevel = 0x08 ∧ SameFile holder h ∧ h.sessionId = 2 ∧
            holder.persistentId = 1 ∧ h.persistentId = 2)) = true := by
    decide +kernel
  obtain ⟨st, hst, hchk⟩ := (any_eq_true _ _).1 hchk
  obtain ⟨holder, hholder, hchk⟩ := (any_eq_true _ _).1 hchk
  obtain ⟨h, hh, hchk⟩ := (any_eq_true _ _).1 hchk
  obtain ⟨e, he, hchk⟩ := (any_eq_true _ _).1 hchk
  obtain ⟨hlvl, hfile, hsess, hid, hid'⟩ := of_decide_eq_true hchk
  refine ⟨st.config, st.trace, holder, h, e, run_serveAll (run_startNotified _) hst, hholder, hh,
    he, hlvl, hfile, hsess, fun halone => ?_⟩
  have hzero := halone holder (mem_values.2 ⟨_, hholder⟩) e (by rw [hid]; exact he)
    (by unfold OplockConnectionEntry.Exclusive; rw [hlvl]; rfl) h (mem_values.2 ⟨_, hh⟩)
    (by rw [hid, hid']; decide) hfile
  rw [hsess] at hzero
  cases hzero

end Sample

end RustSmb
