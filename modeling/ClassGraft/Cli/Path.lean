/-
Paths as text.

A path is cut at its slashes.  Empty segments and single dots lead nowhere: `Path.fileName?` is
the last segment that is neither, and `Path.folder` the text before it.  `Path.patched` is where
a grafted class goes unless another place is asked for: beside the class, with `.patched` in its
name.
-/

namespace ClassGraft.Cli

namespace Path

/-- The texts between slashes. -/
def segments (path : List Char) : List (List Char) := path.splitOn '/'

/-- Whether a segment stays where it is. -/
def isIdle (segment : List Char) : Bool := segment == [] || segment == ['.']

/-- The segments up to the last one that is not idle. -/
def trimIdle (list : List (List Char)) : List (List Char) :=
  (list.reverse.dropWhile isIdle).reverse

/-- The segments in front of the last one that is not empty. -/
def enclosing (list : List (List Char)) : List (List Char) :=
  (list.reverse.dropWhile List.isEmpty).reverse.dropLast

/-- The name of the file that a path leads to. -/
def fileName? (path : List Char) : Option (List Char) :=
  match (trimIdle (segments path)).getLast? with
  | some name => if name = ['.', '.'] then none else some name
  | none => none

/-- The text in front of the name of the file, up to and with the slash that ends it. -/
def folder (path : List Char) : List Char :=
  let before := (trimIdle (segments path)).dropLast
  match trimIdle before, before with
  | _, [] => []
  | [], first :: _ => first ++ ['/']
  | trimmed, _ => ['/'].intercalate trimmed ++ ['/']

/-- Cuts a name at its last dot, which may not open it. -/
def splitExtension? (name : List Char) : Option (List Char × List Char) :=
  let extension := (name.reverse.takeWhile (· ≠ '.')).reverse
  match name.reverse.dropWhile (· ≠ '.') with
  | '.' :: stem@(_ :: _) => some (stem.reverse, extension)
  | _ => none

/-- Where the grafted class of a file goes by default: `Foo.class` becomes `Foo.patched.class`
in the same folder, and any other path gets `.patched` appended. -/
def patched (path : String) : String :=
  let chars := path.toList
  match (fileName? chars).bind splitExtension? with
  | some (stem, extension) =>
    if extension = "class".toList then
      String.ofList (folder chars ++ stem) ++ ".patched.class"
    else path ++ ".patched"
  | none => path ++ ".patched"

end Path

end ClassGraft.Cli
