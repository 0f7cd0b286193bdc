/-
Mappings from obfuscated names to run-time names.

Mapping text has one record a line: `PK:` for a package, `CL:` for a class, `FD:` for a field
and `MD:` for a method.  Blank lines and lines that start with `#` are passed over.  Fields are
known by owner and name, methods by owner, name and descriptor; where two records have the same
key, the later one holds.  Package records are checked and otherwise ignored.

* `Mappings.parse` reads a text, `Mappings.ofDisk` a file;
* `Mappings.className?`, `Mappings.fieldName`, `Mappings.methodName` look names up; a member
  that has no record keeps its name.
-/
import Std.Data.HashMap
import ClassGraft.Bytes.Input
import ClassGraft.Text.Blank
import ClassGraft.Text.Utf8

namespace ClassGraft

/-- One record of mapping text. -/
inductive MappingRecord where
  | package
  | classRecord (obfuscated named : String)
  | field (owner name target : String)
  | method (owner name descriptor target : String)
  deriving DecidableEq, Repr

namespace MappingRecord

/-- Cuts a path at its last slash; both sides must have at least one character. -/
def splitPath? (path : List Char) : Option (String × String) :=
  let name := (path.reverse.takeWhile (· ≠ '/')).reverse
  match path.reverse.dropWhile (· ≠ '/') with
  | '/' :: owner@(_ :: _) =>
    if name.isEmpty then none else some (String.ofList owner.reverse, String.ofList name)
  | _ => none

/-- The owner and the name in a path of a record. -/
def member (sort : MemberSort) (path : List Char) : Except RecordFault (String × String) :=
  match splitPath? path with
  | some pair => .ok pair
  | none => .error (.noOwner sort)

/-- The record that the words of a line make up, the first of which is its kind. -/
def ofWords (kind : List Char) (values : List (List Char)) : Except RecordFault MappingRecord :=
  let wrongCount : Except RecordFault MappingRecord :=
    .error (.valueCount (String.ofList kind) values.length)
  match String.ofList kind with
  | "PK:" =>
    match values with
    | [_, _] => .ok .package
    | _ => wrongCount
  | "CL:" =>
    match values with
    | [obfuscated, named] => .ok (.classRecord (String.ofList obfuscated) (String.ofList named))
    | _ => wrongCount
  | "FD:" =>
    match values with
    | [obfuscated, named] => do
      let (owner, name) ← member .field obfuscated
      let (_, target) ← member .field named
      return .field owner name target
    | _ => wrongCount
  | "MD:" =>
    match values with
    | [obfuscated, descriptor, named, _] => do
      let (owner, name) ← member .method obfuscated
      let (_, target) ← member .method named
      return .method owner name (String.ofList descriptor) target
    | _ => wrongCount
  | unknown => .error (.unknownKind unknown)

/-- The record of a line, if it has one. -/
def ofLine (line : List Char) : Except RecordFault (Option MappingRecord) :=
  match Text.words line with
  | [] => .ok none
  | kind :: values =>
    if kind.head? = some '#' then .ok none else (ofWords kind values).map some

/-- The records of lines, the first of which has the given number.  The first faulty line
decides the fault. -/
def ofLines : Nat → List (List Char) → Except Fault (List MappingRecord)
  | _, [] => .ok []
  | number, line :: rest =>
    match ofLine line with
    | .error cause => .error (.invalidMapping number cause)
    | .ok none => ofLines (number + 1) rest
    | .ok (some record) => (record :: ·) <$> ofLines (number + 1) rest

/-- All records of a text, in order. -/
def ofText (text : String) : Except Fault (List MappingRecord) :=
  ofLines 1 (Text.lines text.toList)

end MappingRecord

/-- Names by what they are known by. -/
structure Mappings where
  classes : Std.HashMap String String
  fields : Std.HashMap (String × String) String
  methods : Std.HashMap (String × String × String) String

namespace Mappings

/-- The mappings without records: every member keeps its name. -/
def empty : Mappings := ⟨∅, ∅, ∅⟩

/-- The mappings with one more record, which holds from now on. -/
def insert (m : Mappings) : MappingRecord → Mappings
  | .package => m
  | .classRecord obfuscated named => { m with classes := m.classes.insert obfuscated named }
  | .field owner name target => { m with fields := m.fields.insert (owner, name) target }
  | .method owner name descriptor target =>
    { m with methods := m.methods.insert (owner, name, descriptor) target }

def ofRecords (records : List MappingRecord) : Mappings := records.foldl insert empty

/-- The mappings that a text lists. -/
def parse (text : String) : Except Fault Mappings :=
  (MappingRecord.ofText text).map ofRecords

/-- The mappings in a file, which holds UTF-8 text. -/
def ofDisk (answer : Except FileFault Bytes) : Except Fault Mappings := do
  let input ← Input.ofDisk answer
  let text ← (Utf8.decode input.bytes).mapError fun fault => .malformed (.mappingNotUtf8 fault)
  parse text

/-- The named form of an obfuscated class, if it is listed. -/
def className? (m : Mappings) (obfuscated : String) : Option String := m.classes[obfuscated]?

/-- The run-time name of a field. -/
def fieldName (m : Mappings) (owner name : String) : String :=
  (m.fields[(owner, name)]?).getD name

/-- The run-time name of a method. -/
def methodName (m : Mappings) (owner name descriptor : String) : String :=
  (m.methods[(owner, name, descriptor)]?).getD name

/-- The number of classes, fields and methods that are listed. -/
def size (m : Mappings) : Nat := m.classes.size + m.fields.size + m.methods.size

def isEmpty (m : Mappings) : Bool := m.size == 0

end Mappings

end ClassGraft
