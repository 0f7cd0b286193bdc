/-
Control sequences of a terminal.

A text may hold sequences that a terminal obeys and does not show: escape sequences, control
sequences with parameters, commands to the operating system and strings to a device.
`Text.shown` is what is left of a text without them, and without the control characters that lay
nothing out.

A text is read from its start, one character at a time; `Reading` is what the characters before
belong to.  A character that lays the text out is shown inside an escape sequence or a control
sequence too, and so is the plain text behind it (`Reading.Position.isShowing`); the sequence
goes on at the next character that plain text does not show.
-/

namespace ClassGraft.Text

/-- Whether a control character lays a text out: a tab or the end of a line or of a page. -/
def isLayout (c : Char) : Bool := c = '\t' || c = '\n' || c = '\x0c' || c = '\r'

/-- What the characters read so far leave open. -/
inductive Reading where
  /-- Nothing: plain text follows. -/
  | ground
  /-- An escape character. -/
  | escape
  /-- An escape sequence that can only be finished. -/
  | escapeMore
  /-- A control sequence. -/
  | control
  /-- A string to a device, before its parameters. -/
  | device
  /-- A string to a device, among its parameters. -/
  | deviceParameters
  /-- A string to a device, behind its parameters. -/
  | deviceMore
  /-- The body of a string. -/
  | body
  /-- A command to the operating system. -/
  | command
  deriving DecidableEq, Repr

namespace Reading

/-- What follows a character behind an escape character. -/
def afterEscape (code : Nat) : Reading :=
  if code < 0x20 ∨ 0x7E < code then .escape
  else if code < 0x30 then .escapeMore
  else if code = '['.toNat then .control
  else if code = ']'.toNat then .command
  else if code = 'P'.toNat then .device
  else if code = 'X'.toNat ∨ code = '^'.toNat ∨ code = '_'.toNat then .body
  else .ground

/-- What follows a character of the head of a string to a device. -/
def afterDevice (reading : Reading) (code : Nat) : Reading :=
  if code < 0x20 ∨ 0x7E < code then reading
  else if code < 0x30 then .deviceMore
  else if code < 0x40 then
    match reading with
    | .device => .deviceParameters
    | .deviceParameters => if code < 0x3C then .deviceParameters else .body
    | _ => .body
  else .body

/-- Whether a character ends a string: its encoding in bytes holds the terminator. -/
def isTerminator (c : Char) : Bool := (String.utf8EncodeChar c).contains 0x9C

/-- What follows a character of a sequence that neither cancels it nor opens another. -/
def after (reading : Reading) (c : Char) : Reading :=
  let code := c.toNat
  match reading with
  | .ground => .ground
  | .escape => afterEscape code
  | .escapeMore => if 0x30 ≤ code ∧ code ≤ 0x7E then .ground else .escapeMore
  | .control => if 0x40 ≤ code ∧ code ≤ 0x7E then .ground else .control
  | .device | .deviceParameters | .deviceMore => reading.afterDevice code
  | .body => if isTerminator c then .ground else .body
  | .command => if code = 0x07 then .ground else .command

/-- Whether a character is part of the text and not of a sequence. -/
def shows (reading : Reading) (c : Char) : Bool :=
  match reading with
  | .ground => isLayout c || 0x20 ≤ c.toNat && c.toNat != 0x7F
  | .escape | .escapeMore | .control => isLayout c
  | _ => false

/-- A place in a text: what is left open there, and whether it is among characters that are
shown. -/
structure Position where
  reading : Reading := .ground
  isShowing : Bool := false
  deriving DecidableEq, Repr

namespace Position

/-- Whether a character is shown. -/
def shows (position : Position) (c : Char) : Bool :=
  position.isShowing && Reading.ground.shows c || position.reading.shows c

/-- What follows a character that neither cancels nor opens a sequence.  A character beyond ASCII
in the text that interrupts a sequence ends the sequence. -/
def after (position : Position) (c : Char) : Position :=
  if position.shows c then
    ⟨if position.isShowing && 0x80 ≤ c.toNat then .ground else position.reading, true⟩
  else ⟨position.reading.after c, false⟩

/-- The text without its sequences, read on from a place in it. -/
def shown (position : Position) : List Char → List Char
  | [] => []
  | c :: rest =>
    if c.toNat = 0x18 ∨ c.toNat = 0x1A then shown {} rest
    else if c.toNat = 0x1B then shown ⟨.escape, false⟩ rest
    else if position.shows c then c :: shown (position.after c) rest
    else shown (position.after c) rest

end Position

end Reading

/-- A text without control sequences. -/
def shown (text : List Char) : List Char := Reading.Position.shown {} text

end ClassGraft.Text
