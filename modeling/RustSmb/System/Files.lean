import RustSmb.System.DataAccess

/-!
# One name for each file

A handle is recorded under the share name as the client has typed it and the path of its CREATE,
and a rename puts a slash in front of the new path.  The store and the break registries compare
these texts.  So a look at a file shows everything on it only while all handles on the file go by
one name, and while no handle is on a file that was renamed through another one.

## Main definitions

* `SameFile`, `SameName` — two handles on one file, and under one name.
* `NamesInTurn` — handles are recorded under the name that is in use.

## Main results

* `oneName_of_inTurn` — **in turn, handles on the same file go by the same name.**
-/

namespace RustSmb

open Table List MemoryStateStore

/-! ### Files and names of handles -/

section Names

variable [Externs]

/-- The file that a handle is on: its share in lowercase, and the way to the file. -/
def HandleState.file (h : HandleState) : String × List String := fileNamed h.shareName h.path

/-- Two handles are on the same file of the same share. -/
def SameFile (h h' : HandleState) : Prop := h.file = h'.file

/-- The second handle is on the file of the first, or on something below that directory. -/
def Covers (h h' : HandleState) : Prop := h.file.1 = h'.file.1 ∧ h.file.2 <+: h'.file.2

instance (h h' : HandleState) : Decidable (SameFile h h') := inferInstanceAs (Decidable (_ = _))

instance (h h' : HandleState) : Decidable (Covers h h') := inferInstanceAs (Decidable (_ ∧ _))

end Names

/-- Two handles go by the same name, letter by letter. -/
def SameName (h h' : HandleState) : Prop := h.shareName = h'.shareName ∧ h.path = h'.path

instance (h h' : HandleState) : Decidable (SameName h h') := inferInstanceAs (Decidable (_ ∧ _))

theorem SameName.symm {h h' : HandleState} (hs : SameName h h') : SameName h' h :=
  ⟨hs.1.symm, hs.2.symm⟩

theorem SameName.trans {h h' h'' : HandleState} (hs : SameName h h') (hs' : SameName h' h'') :
    SameName h h'' :=
  ⟨hs.1.trans hs'.1, hs.2.trans hs'.2⟩

/-! ### The handles that the store records -/

/-- The handle that a call of the store records, new or in the place of an old one. -/
def StoreOp.recordedHandle : StoreOp → Option HandleState
  | .createHandle h | .updateHandle h => some h
  | _ => none

namespace MemoryStateStore

variable {now : UInt64} {o : StoreOp} {st : MemoryStateStore}

/-- What is found under an identifier was there before, or was just recorded there. -/
theorem lookup_handles_answer {id : HandleId} {h : HandleState}
    (hid : (answer now o st).2.handles.lookup id = some h) :
    st.handles.lookup id = some h ∨ (o.recordedHandle = some h ∧ id = h.persistentId) := by
  by_cases ho : o.effect = .createHandle ∨ o.effect = .handle
  · cases o with
    | createHandle h₀ | updateHandle h₀ =>
      rcases of_lookup_insert hid with ⟨heq, rfl⟩ | hid
      · exact .inr ⟨rfl, heq⟩
      · exact .inl hid
    | deleteHandle id₀ => exact .inl (of_lookup_erase hid)
    | _ => rcases ho with ho | ho <;> cases ho
  · obtain ⟨hc, hh⟩ := not_or.1 ho
    rw [answer_handles hc hh] at hid
    exact .inl hid

theorem mem_handles_answer {h : HandleState} (hh : h ∈ (answer now o st).2.handles.values) :
    h ∈ st.handles.values ∨ o.recordedHandle = some h := by
  obtain ⟨id, hid⟩ := mem_values.1 hh
  exact (lookup_handles_answer hid).imp (fun h => mem_values.2 ⟨id, h⟩) And.left

/-- **What holds between any two stored handles is kept**, if a handle that is recorded bears it to
the others. -/
theorem pairwise_handles_answer {R : HandleState → HandleState → Prop}
    (hsymm : ∀ h h', R h h' → R h' h)
    (hst : ∀ h ∈ st.handles.values, ∀ h' ∈ st.handles.values, h.persistentId ≠ h'.persistentId →
      R h h')
    (ho : ∀ h, o.recordedHandle = some h → ∀ x ∈ st.handles.values,
      x.persistentId ≠ h.persistentId → R h x) :
    ∀ h ∈ (answer now o st).2.handles.values, ∀ h' ∈ (answer now o st).2.handles.values,
      h.persistentId ≠ h'.persistentId → R h h' := by
  intro h hh h' hh' hne
  rcases mem_handles_answer hh with hold | hnew
  · rcases mem_handles_answer hh' with hold' | hnew'
    · exact hst h hold h' hold' hne
    · exact hsymm h' h (ho h' hnew' h hold hne)
  · rcases mem_handles_answer hh' with hold' | hnew'
    · exact ho h hnew h' hold' hne.symm
    · rw [hnew] at hnew'
      cases hnew'
      exact absurd rfl hne

end MemoryStateStore

/-! ### Runs -/

section Runs

variable [Externs] {α β : Type} [AuthProvider α] [StorageBackend β]
  {ok : World α β → SmbOp ⊕ Mark → Prop}

/-- The other handles on the file of a handle go by its name. -/
def NameInUse (st : MemoryStateStore) (h : HandleState) : Prop :=
  ∀ x ∈ st.handles.values, x.persistentId ≠ h.persistentId → SameFile h x → SameName h x

/-- If a handle takes the place of one with another name, as after a rename, then no other handle
is on what was renamed, which would still go by the old name. -/
def MovesAlone (st : MemoryStateStore) (h : HandleState) : Prop :=
  ∀ old ∈ st.handles.lookup h.persistentId, ¬ SameName old h →
    ∀ x ∈ st.handles.values, x.persistentId ≠ h.persistentId → ¬ Covers old x

instance (st : MemoryStateStore) (h : HandleState) : Decidable (NameInUse st h) := by
  unfold NameInUse
  infer_instance

instance (st : MemoryStateStore) (h : HandleState) : Decidable (MovesAlone st h) := by
  unfold MovesAlone
  infer_instance

/-- The steps of a run in which handles are recorded under the name that is in use for their file,
and moved only when they are alone on it. -/
def NamesInTurn (_ : Trace ok) (_ : ℕ) (x : (smbMachine α β ok).Stamped) : Prop :=
  match x.event.1 with
  | .inl (.store o) =>
      ∀ h ∈ o.recordedHandle, NameInUse x.world.store h ∧ MovesAlone x.world.store h
  | _ => True

instance (tr : Trace ok) (i : ℕ) (x : (smbMachine α β ok).Stamped) :
    Decidable (NamesInTurn tr i x) := by
  obtain ⟨w, o, r⟩ := x
  unfold NamesInTurn
  split <;> infer_instance

/-- **If handles are recorded under the name in use, handles on the same file go by the same
name.** -/
theorem oneName_of_inTurn {c : (smbMachine α β ok).Config} {tr : Trace ok} (hrun : SmbRun ok c tr)
    (hnames : EachSmbCall NamesInTurn tr) :
    ∀ h ∈ c.world.store.handles.values, ∀ h' ∈ c.world.store.handles.values,
      h.persistentId ≠ h'.persistentId → SameFile h h' → SameName h h' := by
  have hsymm : ∀ h h' : HandleState, (SameFile h h' → SameName h h') →
      SameFile h' h → SameName h' h := fun _ _ himp hfile => (himp hfile.symm).symm
  refine SmbRun.traced (I := fun w tr => EachSmbCall NamesInTurn tr →
    ∀ h ∈ w.store.handles.values, ∀ h' ∈ w.store.handles.values,
      h.persistentId ≠ h'.persistentId → SameFile h h' → SameName h h') hrun
    (fun _ _ _ _ => forall_mem_nil _) ?_ ?_ (fun _ _ ih hnames => ih hnames.2) hnames
  · intro c tr w _ hw ih hnames
    refine hw.store (P := fun st => ∀ h ∈ st.handles.values, ∀ h' ∈ st.handles.values, _)
      (fun _ so hso now st hst => pairwise_handles_answer hsymm hst ?_) (ih hnames)
    rintro h hh
    rcases hso with rfl | rfl <;> cases hh
  · rintro c tr i p h o k - - - ih ⟨hturn, hnames⟩
    cases o with
    | store so =>
      exact pairwise_handles_answer hsymm (ih hnames) fun h hh x hx hne => (hturn h hh).1 x hx hne
    | _ => exact ih hnames

end Runs

end RustSmb
