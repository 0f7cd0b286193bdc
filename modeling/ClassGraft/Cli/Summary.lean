/-
What the commands answer.

A summary is the data of an answer, which can be written in two forms: as lines for a reader
(`lines`) and as a JSON document (`json`).

* `PatchSummary` — what has been grafted and where the class went;
* `MethodSummary` — the methods of a class, with those marked that a graft looks for;
* `NameSummary` — the names that members have in a naming mode.
-/
import ClassGraft.Cli.Json
import ClassGraft.Cli.Listing
import ClassGraft.Graft.Transformer

namespace ClassGraft.Cli

/-- The naming mode as summaries name it. -/
def modeName : NamingMode → String
  | .canonical => "canonical"
  | .obfuscated => "srg"

/-- An answer of `patch`. -/
structure PatchSummary where
  file : String
  /-- Where the class went; nowhere on a dry run. -/
  output : Option String
  mode : NamingMode
  report : GraftReport
  sizeBefore : Nat
  sizeAfter : Nat
  deriving DecidableEq, Repr

namespace PatchSummary

def table (s : PatchSummary) : Table where
  columns := [{ title := "Field" }, { title := "Value" }]
  rows :=
    let r := s.report
    [["Class", r.className],
      ["Method", r.method ++ r.descriptor],
      ["Names", modeName s.mode],
      ["Anchor", s!"#{r.anchor}"],
      ["Result slot", toString r.slot],
      ["Instructions", s!"+{r.inserted} at #{r.anchor + 1}, -1 at #{r.removed}"],
      ["max_stack", toString r.maxStack],
      ["max_locals", toString r.maxLocals],
      ["Size", s!"{s.sizeBefore} -> {s.sizeAfter} bytes"],
      ["Output", s.output.getD "(dry run)"]]

def lines (s : PatchSummary) : List String := s.table.lines

def json (s : PatchSummary) : Json :=
  let r := s.report
  .object
    [("file", .string s.file), ("output", .ofOption .string s.output),
      ("class", .string r.className), ("method", .string r.method),
      ("descriptor", .string r.descriptor), ("obfuscated", .bool s.mode.isObfuscated),
      ("anchor", .number r.anchor), ("slot", .number r.slot.toNat),
      ("inserted", .number r.inserted), ("removed", .number r.removed),
      ("max_stack", .number r.maxStack.toNat), ("max_locals", .number r.maxLocals.toNat),
      ("size_before", .number s.sizeBefore), ("size_after", .number s.sizeAfter)]

end PatchSummary

/-- A method in an answer of `methods`. -/
structure MethodEntry where
  access : Access
  name : String
  descriptor : String
  /-- The number of instructions, the greatest stack depth and the number of locals. -/
  code : Option (Nat × UInt16 × UInt16)
  knownAs : Option String
  deriving DecidableEq, Repr

namespace MethodEntry

def ofMethod (mode : NamingMode) (remapper : Remapper) (owner : String) (m : Method) :
    MethodEntry where
  access := m.access
  name := m.name
  descriptor := m.descriptor
  code := m.code?.map fun code => (code.instructions.length, code.maxStack, code.maxLocals)
  knownAs := GraftConfig.knownAs {} mode remapper owner m.name m.descriptor

def row (e : MethodEntry) : List String :=
  let measures := match e.code with
    | some (count, maxStack, maxLocals) => [toString count, toString maxStack, toString maxLocals]
    | none => ["-", "-", "-"]
  Listing.flags e.access :: (e.name ++ e.descriptor) :: measures ++ [e.knownAs.getD ""]

def json (e : MethodEntry) : Json :=
  .object
    [("access", .string (Listing.flags e.access)), ("name", .string e.name),
      ("descriptor", .string e.descriptor),
      ("instructions", .ofOption (fun (count, _, _) => .number count) e.code),
      ("max_stack", .ofOption (fun (_, maxStack, _) => .number maxStack.toNat) e.code),
      ("max_locals", .ofOption (fun (_, _, maxLocals) => .number maxLocals.toNat) e.code),
      ("known_as", .ofOption .string e.knownAs)]

end MethodEntry

/-- An answer of `methods`. -/
structure MethodSummary where
  className : String
  /-- The name of the class in the mappings, if it is listed there. -/
  mappedClass : Option String
  methods : List MethodEntry
  deriving DecidableEq, Repr

namespace MethodSummary

def table (s : MethodSummary) : Table where
  columns :=
    [{ title := "Access" }, { title := "Method" }, { title := "Instrs", alignment := .right },
      { title := "Stack", alignment := .right }, { title := "Locals", alignment := .right },
      { title := "Known as" }]
  rows := s.methods.map MethodEntry.row

def lines (s : MethodSummary) : List String :=
  let mapped := match s.mappedClass with
    | some name => " = " ++ name
    | none => ""
  s!"{s.className}{mapped} ({s.methods.length} methods):" :: s.table.lines "  "

def json (s : MethodSummary) : Json :=
  .object
    [("class", .string s.className), ("mapped_class", .ofOption .string s.mappedClass),
      ("methods", .array (s.methods.map MethodEntry.json)), ("count", .number s.methods.length)]

end MethodSummary

/-- An answer of `names`. -/
structure NameSummary where
  mode : NamingMode
  deriving DecidableEq, Repr

namespace NameSummary

/-- The canonical names with the names that they have in the mode. -/
def names (s : NameSummary) : List (String × String) :=
  builtinNames.map fun (canonical, _) => (canonical, s.mode.resolve canonical)

def table (s : NameSummary) : Table where
  columns := [{ title := "Canonical" }, { title := "Resolved" }]
  rows := s.names.map fun (canonical, resolved) => [canonical, resolved]

def lines (s : NameSummary) : List String :=
  s!"Names as resolved in {modeName s.mode} mode:" :: s.table.lines "  "

def json (s : NameSummary) : Json :=
  .object
    [("mode", .string (modeName s.mode)),
      ("names", .array (s.names.map fun (canonical, resolved) =>
        .object [("canonical", .string canonical), ("resolved", .string resolved)]))]

end NameSummary

end ClassGraft.Cli
