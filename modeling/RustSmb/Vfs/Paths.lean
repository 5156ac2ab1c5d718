import RustSmb.Externs
import RustSmb.Vfs.Memory

/-!
# Names of files

The server finds a share under its name in lowercase, and a backend takes a path apart at its
slashes, leaves out the parts that are empty or `.` and goes up at `..`.  So one file has many
names, while the state store compares names as they are.

## Main definitions

* `fileNamed` — the file that a share and a path name.
* `pathParent` — the directory of a path, as the standard library sees it.

Source: `rustsmb-server/src/shares.rs`, `rustsmb-backend-memory/src/lib.rs`,
`rustsmb-backend-local/src/lib.rs`.
-/

namespace RustSmb

/-- The parts of a path between its slashes. -/
def splitPath (path : String) : List String := (path.toList.splitOn '/').map String.ofList

/-- The way from the root of a backend to the file at a path. -/
def pathParts (path : String) : List String := MemoryNode.normalizePath (splitPath path)

/-- The file that a share and a path name: the share in lowercase, and the way to the file. -/
def fileNamed [Externs] (share path : String) : String × List String :=
  (Externs.toLowercase share, pathParts path)

/-- Leave out parts at the end that name nothing. -/
def dropIdle (parts : List String) : List String :=
  (parts.reverse.dropWhile fun part => part == "" || part == ".").reverse

/-- `Path::parent`, as text.  The first part is empty if the path is absolute, and it counts even
if it is `.`; later parts that are empty or `.` do not count. -/
def pathParent (path : String) : Option String :=
  match splitPath path with
  | [] => none
  | first :: rest =>
      match dropIdle rest with
      | [] => if first == "" then none else some ""
      | rest =>
          match dropIdle rest.dropLast with
          | [] => some (if first == "" then "/" else first)
          | rest => some ("/".intercalate (first :: rest))

example : [pathParent "f", pathParent "/g", pathParent "a/./b/", pathParent "/"] =
    [some "", some "/", some "a", none] := by decide +kernel

end RustSmb
