/-
Files as a value.

A `Store` holds the contents of a folder: files by the names that lead to them.  The folders
between are those that the names pass through.  Around the folder lies a machine, of which only
the folders that every machine has are known, and a device that holds nothing.

* `Store.walk` goes along a path from folder to folder;
* `Store.read` and `Store.write` answer as the disk of a machine does; what is written outside
  the folder is not kept;
* `Script.runOn` runs a script on a store.
-/
import ClassGraft.Cli.Path
import ClassGraft.Cli.Script

namespace ClassGraft.Cli

/-- The names of the folders on the way to a file, and its own. -/
abbrev Names := List (List Char)

/-- The files of a folder and of the folders in it. -/
abbrev Store := List (Names × Bytes)

/-- A folder that a path may pass. -/
inductive Folder where
  /-- The folder of the store, or one in it. -/
  | inside (names : Names)
  /-- A folder of the machine, by the names from its root. -/
  | ofMachine (names : Names)
  /-- A folder that the folder of the store lies in. -/
  | around
  deriving DecidableEq, Repr

namespace Folder

/-- The folder that a folder lies in; the root lies in itself. -/
def parent : Folder → Folder
  | .inside [] | .around => .around
  | .inside names => .inside names.dropLast
  | .ofMachine names => .ofMachine names.dropLast

/-- Where a path starts: at the root of the machine, or in the folder of the store. -/
def start (path : List Char) : Folder :=
  match path with
  | '/' :: _ => .ofMachine []
  | _ => .inside []

end Folder

/-- What a path leads to. -/
inductive Place where
  | folder (folder : Folder)
  | file (names : Names) (contents : Bytes)
  /-- A device that holds nothing, and keeps nothing. -/
  | void
  /-- Nothing yet: a file may be written here, and is kept if it has names in the store. -/
  | free (names : Option Names)
  deriving DecidableEq, Repr

namespace Machine

/-- The names of the folders at the root of a machine. -/
def folders : List String :=
  ["bin", "boot", "dev", "etc", "home", "lib", "media", "mnt", "opt", "proc", "root", "run", "sbin",
    "srv", "sys", "tmp", "usr", "var"]

/-- What names lead to from the root of a machine. -/
def place (names : Names) : Place :=
  match names.map String.ofList with
  | [name] => if folders.contains name then .folder (.ofMachine names) else .free none
  | ["dev", "null"] => .void
  | _ => .free none

/-- The most bytes of a name. -/
def longestName : Nat := 255

/-- The most bytes of a path. -/
def longestPath : Nat := 4095

end Machine

namespace Store

/-- The names on the way to the file of a path. -/
def names (path : String) : Names :=
  (Path.segments path.toList).filter fun segment => !Path.isIdle segment

/-- Whether files lie behind names. -/
def isFolder (store : Store) (names : Names) : Bool :=
  names == [] || store.any fun (file, _) => names.isPrefixOf file && names != file

/-- What names lead to from the folder of the store. -/
def place (store : Store) (names : Names) : Place :=
  match store.lookup names with
  | some contents => .file names contents
  | none => if store.isFolder names then .folder (.inside names) else .free (some names)

/-- What a name in a folder leads to. -/
def enter (store : Store) (here : Folder) (name : List Char) : Place :=
  match here with
  | .inside names => store.place (names ++ [name])
  | .ofMachine names => Machine.place (names ++ [name])
  | .around => .free none

/-- Goes along segments of a path from a folder. -/
def walk (store : Store) (here : Folder) : List (List Char) → Except FileFault Place
  | [] => .ok (.folder here)
  | segment :: rest =>
    if Path.isIdle segment then walk store here rest
    else if segment = ['.', '.'] then walk store here.parent rest
    else if Machine.longestName < (String.ofList segment).utf8ByteSize then .error .nameTooLong
    else
      match store.enter here segment with
      | .folder there => walk store there rest
      | .free names => if rest = [] then .ok (.free names) else .error .notFound
      | place => if rest = [] then .ok place else .error .notADirectory

/-- What the segments of a path lead to. -/
def follow (store : Store) (path : String) (segments : List (List Char)) :
    Except FileFault Place :=
  if path.isEmpty then .error .notFound
  else if Machine.longestPath < path.utf8ByteSize then .error .nameTooLong
  else store.walk (Folder.start path.toList) segments

/-- What a path leads to. -/
def locate (store : Store) (path : String) : Except FileFault Place :=
  store.follow path (Path.segments path.toList)

/-- What a path leads to that a file is written to.  A slash at the end of it asks for a folder,
and none is made: the last name is not looked for, only the folder that it stands in. -/
def locateTarget (store : Store) (path : String) : Except FileFault Place :=
  let segments := Path.segments path.toList
  if segments.getLast? = some [] then store.follow path (Path.enclosing segments ++ [[]])
  else store.locate path

/-- The contents of the file of a path. -/
def read (store : Store) (access : FileAccess) (path : String) : Except FileFault Bytes :=
  match store.locate path, access with
  | .error cause, _ => .error cause
  | .ok (.file _ contents), _ => .ok contents
  | .ok (.free _), _ => .error .notFound
  | .ok (.folder _), .copied => .error .isADirectory
  | .ok .void, .copied => .ok []
  | .ok (.folder _), .mapped | .ok .void, .mapped => .error .noSuchDevice

/-- Replaces the contents of a file, or adds it. -/
def put (store : Store) (names : Names) (contents : Bytes) : Store :=
  if (store.lookup names).isSome then
    store.map fun (file, old) => if file = names then (file, contents) else (file, old)
  else store ++ [(names, contents)]

/-- Writes the file of a path; its folder must be there. -/
def write (store : Store) (path : String) (contents : Bytes) : Except FileFault Store :=
  match store.locateTarget path with
  | .error cause => .error cause
  | .ok (.folder _) => .error .isADirectory
  | .ok (.file names _) | .ok (.free (some names)) => .ok (store.put names contents)
  | .ok .void | .ok (.free none) => .ok store

/-- The files of a store that are new or changed since `before`. -/
def changedSince (store before : Store) : Store :=
  store.filter fun (names, contents) => before.lookup names != some contents

end Store

/-- Runs a script on a store. -/
def Script.runOn {α : Type} : Script α → Store → α × Store
  | .done result, store => (result, store)
  | .readFile access path next, store => (next (store.read access path)).runOn store
  | .writeFile path contents next, store =>
    match store.write path contents with
    | .ok changed => (next (.ok ())).runOn changed
    | .error cause => (next (.error cause)).runOn store

end ClassGraft.Cli
