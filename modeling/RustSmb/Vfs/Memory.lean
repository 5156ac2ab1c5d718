import RustSmb.Vfs.Backend

/-!
# The tree of the memory backend

A path is given by the parts between its slashes.  What a caller can see of a tree is what stands at
each path.  `rename` takes the source out before it looks for the new parent, and does not look at
what it replaces.

## Main results

* `MemoryNode.update_ok` — an update at a path changes what is at and below it.
* `MemoryNode.renameKeeps_iff` — **when a rename moves the source or fails without an effect.**

Source: `rustsmb-backend-memory/src/lib.rs`.
-/

namespace RustSmb

open List

/-- A node of the tree.  Of its metadata only the inode number is kept. -/
inductive MemoryNode where
  | file (ino : UInt64) (content : Bytes)
  | directory (ino : UInt64) (children : List (String × MemoryNode))
  | symlink (ino : UInt64) (target : String)

namespace MemoryNode

/-- The components of a path that is split at its slashes. -/
def normalizePath (parts : List String) : List String :=
  parts.foldl (fun components part =>
    if part = "." ∨ part = "" then components
    else if part = ".." then components.dropLast
    else components ++ [part]) []

/-- The node under a path; a file has none below it. -/
def getNode : List String → MemoryNode → Except VfsError MemoryNode
  | [], node => .ok node
  | name :: rest, directory _ children =>
      match children.lookup name with
      | some child => getNode rest child
      | none => .error .notFound
  | _ :: _, _ => .error .notADirectory

def setChild (name : String) (new : Option MemoryNode) (children : List (String × MemoryNode)) :
    List (String × MemoryNode) :=
  (new.map (name, ·)).toList ++ children.filter (·.1 ≠ name)

/-- Go to the parent of a path and let `f` look at the child there and replace it. -/
def update {α : Type} (f : Option MemoryNode → Except VfsError (α × Option MemoryNode)) :
    List String → MemoryNode → Except VfsError (α × MemoryNode)
  | [name], directory ino children =>
      match f (children.lookup name) with
      | .ok (a, new) => .ok (a, directory ino (setChild name new children))
      | .error e => .error e
  | name :: rest, directory ino children =>
      match children.lookup name with
      | some child =>
          match update f rest child with
          | .ok (a, new) => .ok (a, directory ino (setChild name (some new) children))
          | .error e => .error e
      | none => .error .notFound
  | [], _ => .error .invalidPath
  | _, _ => .error .notADirectory

def take : Option MemoryNode → Except VfsError (MemoryNode × Option MemoryNode)
  | none => .error .notFound
  | some node => .ok (node, none)

/-- The node is taken out first, and is lost if it cannot be put in its new place. -/
def rename (oldPath newPath : List String) (root : MemoryNode) :
    Except VfsError Unit × MemoryNode :=
  let old := normalizePath oldPath
  let new := normalizePath newPath
  if old = [] ∨ new = [] then (.error .invalidPath, root)
  else if old = new then (.ok (), root)
  else match update take old root with
    | .error e => (.error e, root)
    | .ok (node, root) =>
        match update (fun _ => .ok ((), some node)) new root with
        | .error e => (.error e, root)
        | .ok ((), root) => (.ok (), root)

/-! ### What stands at a path -/

def find (root : MemoryNode) (path : List String) : Option MemoryNode :=
  (getNode path root).toOption

/-- A node without its children. -/
def bare : MemoryNode → MemoryNode
  | directory ino _ => directory ino []
  | node => node

/-- The node at a path, without its children.  These make up the tree. -/
def labelAt (root : MemoryNode) (path : List String) : Option MemoryNode :=
  (root.find path).map bare

variable {root root' node : MemoryNode} {path q : List String} {name : String} {α : Type} {a : α}
  {f : Option MemoryNode → Except VfsError (α × Option MemoryNode)} {new : Option MemoryNode}
  {children : List (String × MemoryNode)} {number : UInt64}

theorem find_directory_cons : (directory number children).find (name :: q) =
    (children.lookup name).bind (·.find q) := by
  simp only [find, getNode]
  cases children.lookup name <;> rfl

@[simp] theorem find_nil (root : MemoryNode) : root.find [] = some root := rfl

theorem find_append (p q : List String) (root : MemoryNode) :
    root.find (p ++ q) = (root.find p).bind (·.find q) := by
  induction p generalizing root with
  | nil => rfl
  | cons name rest ih =>
    cases root with
    | directory number children =>
      simp only [cons_append, find_directory_cons, ih]
      cases children.lookup name <;> rfl
    | _ => rfl

theorem labelAt_append (h : root.find path = some node) (q : List String) :
    root.labelAt (path ++ q) = node.labelAt q := by
  rw [labelAt, find_append, h]
  rfl

theorem lookup_setChild (name' : String) :
    (setChild name new children).lookup name' =
      if name' = name then new else children.lookup name' := by
  have hfilter : (children.filter (·.1 ≠ name)).lookup name' =
      if name' = name then none else children.lookup name' := by
    induction children with
    | nil => simp
    | cons child rest ih => grind
  unfold setChild
  cases new <;> grind

/-- `f` sees the node at the path, and only what is at or below it changes. -/
theorem update_ok (h : update f path root = .ok (a, root')) :
    ∃ new, f (root.find path) = .ok (a, new) ∧ ∀ q, root'.labelAt q =
      if path <+: q then new.bind (·.labelAt (q.drop path.length)) else root.labelAt q := by
  -- One case for each way in which an update comes to an end; only these two succeed.
  fun_induction update f path root generalizing root' with
  | case1 name ino children a' new hf =>
    cases h
    refine ⟨new, by simpa [find_directory_cons] using hf, fun q => ?_⟩
    cases q with
    | nil => rfl
    | cons c rest =>
      simp only [labelAt, find_directory_cons, lookup_setChild]
      by_cases hc : c = name
      · cases new <;> simp [hc]
      · simp [hc, Ne.symm hc]
  | case3 name rest ino children hrest child hchild a' child' hupd ih =>
    cases h
    obtain ⟨new, hf, hlabel⟩ := ih hupd
    refine ⟨new, by simpa [find_directory_cons, hchild] using hf, fun q => ?_⟩
    cases q with
    | nil => rfl
    | cons c q =>
      have hq := hlabel q
      simp only [labelAt, find_directory_cons, lookup_setChild] at hq ⊢
      by_cases hc : c = name
      · simp [hc, hchild, hq]
      · simp [hc, Ne.symm hc]
  | _ => cases h

theorem exists_update_iff : (∃ r, update f path root = .ok r) ↔
    path ≠ [] ∧ (∃ number, root.labelAt path.dropLast = some (directory number [])) ∧
      ∃ r, f (root.find path) = .ok r := by
  fun_induction update f path root with
  | case1 name ino children a new hf => simp [find_directory_cons, hf, labelAt, bare]
  | case2 name ino children e hf => simp [find_directory_cons, hf]
  | case3 name rest ino children hrest child hchild a child' hupd ih =>
    replace hrest : rest ≠ [] := hrest
    simpa [labelAt, find_directory_cons, hchild, dropLast_cons_of_ne_nil, hupd, hrest] using ih
  | case4 name rest ino children hrest child hchild e hupd ih =>
    replace hrest : rest ≠ [] := hrest
    simpa [labelAt, find_directory_cons, hchild, dropLast_cons_of_ne_nil, hupd, hrest] using ih
  | case5 name rest ino children hrest hchild =>
    simp [labelAt, find_directory_cons, hchild, dropLast_cons_of_ne_nil hrest]
  | case6 => simp
  | case7 path node _ hdirectory hpath =>
    cases path with
    | nil => exact absurd rfl hpath
    | cons name rest =>
      cases node with
      | directory number children => exact absurd rfl (hdirectory name rest number children rfl)
      | _ => cases rest <;> simp [labelAt, bare, find, getNode, Except.toOption]

theorem update_ne_error {e : VfsError} {r : α × Option MemoryNode} (hpath : path ≠ [])
    (hdir : ∃ number, root.labelAt path.dropLast = some (directory number []))
    (hf : f (root.find path) = .ok r) : update f path root ≠ .error e := by
  obtain ⟨r', hr⟩ := exists_update_iff.2 ⟨hpath, hdir, r, hf⟩
  simp [hr]

theorem exists_directory (hpath : path ≠ []) (h : (root.labelAt path).isSome) :
    ∃ number, root.labelAt path.dropLast = some (directory number []) := by
  rw [← dropLast_append_getLast hpath, labelAt, find_append] at h
  unfold labelAt
  cases hdir : root.find path.dropLast with
  | none => simp [hdir] at h
  | some node =>
    cases node with
    | directory number children => exact ⟨number, rfl⟩
    | _ =>
      rw [hdir] at h
      cases h

theorem find_of_take (h : update take path root = .ok (node, root')) :
    root.find path = some node ∧
      ∀ q, root'.labelAt q = if path <+: q then none else root.labelAt q := by
  obtain ⟨new, htake, hlabel⟩ := update_ok h
  cases hfind : root.find path with
  | none =>
    rw [hfind] at htake
    cases htake
  | some node' =>
    rw [hfind] at htake
    cases htake
    exact ⟨rfl, hlabel⟩

theorem labelAt_of_take {e : VfsError} (hpath : path ≠ []) (h : update take path root = .error e) :
    root.labelAt path = none := by
  cases hfind : root.find path with
  | none => rw [labelAt, hfind, Option.map_none]
  | some node =>
    have hlabel : (root.labelAt path).isSome := by simp [labelAt, hfind]
    have hok : take (root.find path) = .ok (node, none) := by rw [hfind, take]
    exact absurd h (update_ne_error hpath (exists_directory hpath hlabel) hok)

/-! ### Renaming -/

/-- The tree `after` is the tree `before` with what stood at `old` moved to `new`. -/
def Moved (old new : List String) (before after : MemoryNode) : Prop :=
  ∀ q, after.labelAt q =
    if new <+: q then before.labelAt (old ++ q.drop new.length)
    else if old <+: q then none else before.labelAt q

/-- No directory with children stands at a path. -/
def Replaceable (path : List String) (root : MemoryNode) : Prop :=
  ∀ number children, root.find path = some (directory number children) → children = []

/-- Renaming moves the source, over a file or an empty directory at most, or leaves the tree as it
was. -/
def RenameKeeps (oldPath newPath : List String) (root : MemoryNode) : Prop :=
  match rename oldPath newPath root with
  | (.ok (), root') => Moved (normalizePath oldPath) (normalizePath newPath) root root' ∧
      (normalizePath oldPath ≠ normalizePath newPath → Replaceable (normalizePath newPath) root)
  | (.error _, root') => ∀ q, root'.labelAt q = root.labelAt q

/-- The new parent is still there without the source if it was outside of the source. -/
theorem directory_removed_iff {old new : List String} (hne : old ≠ new) (hnew : new ≠ [])
    (hremoved : ∀ q, root'.labelAt q = if old <+: q then none else root.labelAt q) :
    (∃ number, root'.labelAt new.dropLast = some (directory number [])) ↔
      (∃ number, root.labelAt new.dropLast = some (directory number [])) ∧ ¬ old <+: new := by
  have hsplit : old <+: new ↔ old <+: new.dropLast := by
    conv_lhs => rw [← dropLast_append_getLast hnew, prefix_concat_iff, dropLast_append_getLast hnew]
    exact or_iff_right hne
  rw [hremoved, hsplit]
  split <;> simp [*]

/-- **A rename moves the source or fails without an effect, exactly if the new parent is a
directory outside of the source and no directory with children is replaced, or there is nothing
to do.** -/
theorem renameKeeps_iff (oldPath newPath : List String) (root : MemoryNode) :
    RenameKeeps oldPath newPath root ↔
      normalizePath oldPath = [] ∨ normalizePath newPath = [] ∨
      normalizePath oldPath = normalizePath newPath ∨
      root.labelAt (normalizePath oldPath) = none ∨
      ((∃ number, root.labelAt (normalizePath newPath).dropLast = some (directory number [])) ∧
        ¬ normalizePath oldPath <+: normalizePath newPath ∧
        Replaceable (normalizePath newPath) root) := by
  unfold RenameKeeps rename
  generalize normalizePath oldPath = old, normalizePath newPath = new
  by_cases hempty : old = [] ∨ new = []
  · simp [hempty, ← or_assoc]
  obtain ⟨hold, hnew⟩ := not_or.1 hempty
  by_cases hne : old = new
  · subst hne
    simp only [hold, or_self, if_false, if_true, true_or, or_true, iff_true]
    refine ⟨fun q => ?_, fun h => absurd rfl h⟩
    by_cases hq : old <+: q
    · obtain ⟨rest, rfl⟩ := hq
      simp
    · simp [hq]
  simp only [hold, hnew, hne, or_self, if_false, false_or]
  cases htake : update take old root with
  | error e => simp [labelAt_of_take hold htake]
  | ok r =>
    obtain ⟨node, root₁⟩ := r
    obtain ⟨hfind, hremoved⟩ := find_of_take htake
    have hlabel : root.labelAt old = some node.bare := by rw [labelAt, hfind, Option.map_some]
    have hparent := directory_removed_iff hne hnew hremoved
    simp only [hlabel, reduceCtorEq, false_or, ← and_assoc, ← hparent]
    cases hput : update (fun _ => .ok ((), some node)) new root₁ with
    | error e =>
      -- The source is lost.
      have hlost : ¬ ∃ number, root₁.labelAt new.dropLast = some (directory number []) :=
        fun hdir => update_ne_error hnew hdir rfl hput
      simp only [hlost, false_and, iff_false]
      intro hkept
      have hold := hkept old
      rw [hremoved, if_pos (prefix_refl old), hlabel] at hold
      cases hold
    | ok r =>
      obtain ⟨-, hdir, -⟩ := exists_update_iff.1 ⟨r, hput⟩
      obtain ⟨_, hnode, hlabels⟩ := update_ok hput
      cases hnode
      have hmoved : Moved old new root r.2 := by
        intro q
        rw [hlabels, hremoved, Option.bind_some, labelAt_append hfind]
      simp [hmoved, hne, hdir]

/-- **A rename into a directory that does not exist loses the file.** -/
theorem rename_into_missing_directory :
    ¬ RenameKeeps ["a"] ["missing", "b"] (directory 1 [("a", file 2 [])]) := by
  intro h
  have hkept := congrArg Option.isSome (h ["a"])
  revert hkept
  decide

end MemoryNode
end RustSmb
