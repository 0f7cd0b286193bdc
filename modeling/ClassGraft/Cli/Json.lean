/-
JSON documents.

A `Json` keeps the members of an object in the order in which they are given.  `Json.lines`
writes a document over several lines: every member and element has a line of its own, two
spaces deeper than what holds it.
-/
import ClassGraft.Text.Hex

namespace ClassGraft.Cli

/-- A JSON value without fractions. -/
inductive Json where
  | null
  | bool (value : Bool)
  | number (value : Nat)
  | string (value : String)
  | array (elements : List Json)
  | object (members : List (String × Json))

namespace Json

/-- A value that may be absent. -/
def ofOption {α : Type} (f : α → Json) : Option α → Json
  | some x => f x
  | none => .null

/-- A character inside a quoted text. -/
def escapeChar (c : Char) : List Char :=
  match c with
  | '"' => ['\\', '"']
  | '\\' => ['\\', '\\']
  | '\x08' => ['\\', 'b']
  | '\t' => ['\\', 't']
  | '\n' => ['\\', 'n']
  | '\x0c' => ['\\', 'f']
  | '\r' => ['\\', 'r']
  | c => if c.toNat < 0x20 then '\\' :: 'u' :: (Hex.fixed 4 c.toNat).toList else [c]

/-- A text in quotes. -/
def quote (text : String) : String :=
  String.ofList ('"' :: text.toList.flatMap escapeChar ++ ['"'])

/-- Puts a text in front of the first line. -/
def prepend (text : String) : List String → List String
  | [] => [text]
  | line :: rest => (text ++ line) :: rest

/-- Puts a comma behind the last line. -/
def withComma : List String → List String
  | [] => []
  | [line] => [line ++ ","]
  | line :: rest => line :: withComma rest

/-- The lines of the parts of an array or object, with commas between the parts. -/
def joinParts : List (List String) → List String
  | [] => []
  | [part] => part
  | part :: rest => withComma part ++ joinParts rest

/-- The parts between brackets, indented; nothing stands between the brackets of no parts. -/
def bracket (opening closing : String) (parts : List (List String)) : List String :=
  if parts.isEmpty then [opening ++ closing]
  else opening :: (joinParts parts).map ("  " ++ ·) ++ [closing]

mutual

/-- The lines of a document. -/
def lines : Json → List String
  | .null => ["null"]
  | .bool value => [if value then "true" else "false"]
  | .number value => [toString value]
  | .string value => [quote value]
  | .array elements => bracket "[" "]" (elementLines elements)
  | .object members => bracket "\x7b" "\x7d" (memberLines members)

/-- The lines of each element. -/
def elementLines : List Json → List (List String)
  | [] => []
  | element :: rest => element.lines :: elementLines rest

/-- The lines of each member. -/
def memberLines : List (String × Json) → List (List String)
  | [] => []
  | (name, value) :: rest => prepend (quote name ++ ": ") value.lines :: memberLines rest

end

end Json

end ClassGraft.Cli
