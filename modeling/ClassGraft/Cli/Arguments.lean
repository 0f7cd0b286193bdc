/-
The arguments of the command line.

A command takes one file, if any, and options.  An option has a long name and perhaps a letter;
it is a switch or takes a value, which is the rest of its own argument (`--srg=FILE`, `-oFILE`)
or the next one.  Letters of switches may share an argument.  No option may be given twice, and
after `--` every argument is a file.

* `Matches.collect` sorts arguments into options and files;
* `Invocation.parse` reads the arguments of the whole program.
-/

namespace ClassGraft.Cli

/-- Why arguments do not make a command: they are wrong, or ask about the program itself. -/
inductive Refusal where
  | usage
  | help
  | version
  deriving DecidableEq, Repr

/-- What follows an option. -/
inductive OptionValue where
  | switch
  /-- Nothing: the option is a question about the program itself. -/
  | question (refusal : Refusal)
  | text
  /-- A path, which may not be empty. -/
  | path
  deriving DecidableEq, Repr

/-- An option that a command knows. -/
structure OptionForm where
  name : String
  letter : Option Char := none
  value : OptionValue := .switch
  deriving DecidableEq, Repr

/-- The options that every command knows. -/
def globalOptions : List OptionForm :=
  [{ name := "json" }, { name := "verbose", letter := some 'v' },
    { name := "help", letter := some 'h', value := .question .help }]

/-- The options that may stand in front of a command. -/
def leadingOptions : List OptionForm :=
  globalOptions ++ [{ name := "version", letter := some 'V', value := .question .version }]

/-- Options and files as they have been given. -/
structure Matches where
  options : List (String × String) := []
  files : List String := []
  deriving DecidableEq, Repr

namespace Matches

/-- Whether an option has been given. -/
def has (m : Matches) (name : String) : Bool := (m.options.lookup name).isSome

/-- The value of an option that has been given. -/
def value? (m : Matches) (name : String) : Option String := m.options.lookup name

/-- Adds an option, which may not have been given before. -/
def give (m : Matches) (form : OptionForm) (value : String) : Except Refusal Matches :=
  if m.has form.name || (form.value == .path && value == "") then .error .usage
  else .ok { m with options := m.options ++ [(form.name, value)] }

/-- Adds a file; there is room for `room` of them. -/
def addFile (room : Nat) (m : Matches) (path : String) : Except Refusal Matches :=
  if m.files.length < room && path != "" then .ok { m with files := m.files ++ [path] }
  else .error .usage

/-- What an argument says: options with their values, and perhaps one whose value is the next
argument. -/
structure Sorted where
  done : Matches
  waiting : Option OptionForm := none

/-- Reads a long option: its name, and its value after an equals sign. -/
def long (forms : List OptionForm) (m : Matches) (body : List Char) : Except Refusal Sorted :=
  let name := String.ofList (body.takeWhile (· ≠ '='))
  let attached := match body.dropWhile (· ≠ '=') with
    | '=' :: value => some (String.ofList value)
    | _ => none
  match forms.find? (·.name == name) with
  | some form =>
    match form.value, attached with
    | .switch, none => return { done := ← m.give form "" }
    | .question refusal, none => .error refusal
    | .switch, some _ | .question _, some _ => .error .usage
    | _, some value => return { done := ← m.give form value }
    | _, none => .ok { done := m, waiting := some form }
  | none => .error .usage

/-- Reads letters; the first one that takes a value takes the rest of them. -/
def letters (forms : List OptionForm) (m : Matches) : List Char → Except Refusal Sorted
  | [] => .ok { done := m }
  | c :: rest =>
    match forms.find? (·.letter == some c) with
    | some form =>
      match form.value, rest with
      | .switch, _ => do letters forms (← m.give form "") rest
      | .question refusal, _ => .error refusal
      | _, [] => .ok { done := m, waiting := some form }
      | _, '=' :: value => return { done := ← m.give form (String.ofList value) }
      | _, value => return { done := ← m.give form (String.ofList value) }
    | none => .error .usage

/-- Whether an argument cannot be the value of the option before it. -/
def isOption (argument : List Char) : Bool :=
  match argument with
  | '-' :: _ :: _ => true
  | _ => false

/-- Sorts the arguments of a command that takes up to `room` files. -/
def collect (forms : List OptionForm) (room : Nat) (m : Matches) :
    Option OptionForm → List String → Except Refusal Matches
  | none, [] => .ok m
  | some _, [] => .error .usage
  | some form, argument :: rest =>
    if isOption argument.toList then .error .usage
    else do collect forms room (← m.give form argument) none rest
  | none, argument :: rest =>
    match argument.toList with
    | ['-', '-'] => rest.foldlM (addFile room) m
    | '-' :: '-' :: body => do
      let sorted ← long forms m body
      collect forms room sorted.done sorted.waiting rest
    | '-' :: c :: body => do
      let sorted ← letters forms m (c :: body)
      collect forms room sorted.done sorted.waiting rest
    | _ => do collect forms room (← addFile room m argument) none rest

end Matches

/-- What `patch` is asked to do. -/
structure PatchRequest where
  file : String
  output : Option String := none
  obfuscated : Bool := false
  /-- The name that the class is stored under, and the one that it is known by. -/
  naming : Option (String × String) := none
  srg : Option String := none
  dryRun : Bool := false
  deriving DecidableEq, Repr

/-- The commands of the program. -/
inductive Command where
  | patch (request : PatchRequest)
  | methods (file : String) (obfuscated : Bool) (srg : Option String)
  | disasm (file : String) (filter : Option String) (bytes : Bool)
  | names (obfuscated : Bool)
  deriving DecidableEq, Repr

namespace Command

/-- The options of a command and the number of its files, by its name. -/
def forms? (name : String) : Option (List OptionForm × Nat) :=
  match name with
  | "patch" => some
      ([{ name := "output", letter := some 'o', value := .path }, { name := "obfuscated" },
        { name := "name", value := .text }, { name := "transformed-name", value := .text },
        { name := "srg", value := .path }, { name := "dry-run" }], 1)
  | "methods" => some ([{ name := "obfuscated" }, { name := "srg", value := .path }], 1)
  | "disasm" => some
      ([{ name := "method", letter := some 'm', value := .text }, { name := "bytes" }], 1)
  | "names" => some ([{ name := "obfuscated" }], 0)
  | _ => none

/-- The names that `patch` is given: both or none. -/
def naming (m : Matches) : Except Refusal (Option (String × String)) :=
  match m.value? "name", m.value? "transformed-name" with
  | some stored, some known => .ok (some (stored, known))
  | none, none => .ok none
  | _, _ => .error .usage

/-- The command of a name with sorted arguments. -/
def ofMatches (name : String) (m : Matches) : Except Refusal Command :=
  let obfuscated := m.has "obfuscated"
  match name, m.files with
  | "patch", [file] => do
    return .patch
      { file, output := m.value? "output", obfuscated, naming := ← naming m,
        srg := m.value? "srg", dryRun := m.has "dry-run" }
  | "methods", [file] => .ok (.methods file obfuscated (m.value? "srg"))
  | "disasm", [file] => .ok (.disasm file (m.value? "method") (m.has "bytes"))
  | "names", [] => .ok (.names obfuscated)
  | _, _ => .error .usage

end Command

/-- A command with the options that every command knows. -/
structure Invocation where
  json : Bool
  verbose : Bool
  command : Command
  deriving DecidableEq, Repr

namespace Invocation

/-- What the arguments after `help` ask for: help on the program, on one of its commands or on
`help` itself. -/
def help : List String → Refusal
  | [] => .help
  | [name] => if name = "help" || (Command.forms? name).isSome then .help else .usage
  | _ => .usage

/-- Reads a command by its name; `before` are the options in front of it. -/
def parseCommand (before : Matches) (name : String) (arguments : List String) :
    Except Refusal Invocation :=
  match Command.forms? name with
  | none => .error (if name = "help" then help arguments else .usage)
  | some (forms, room) => do
    let m ← Matches.collect (globalOptions ++ forms) room {} none arguments
    let command ← Command.ofMatches name m
    return {
      json := before.has "json" || m.has "json"
      verbose := before.has "verbose" || m.has "verbose"
      command }

/-- Reads the options in front of the command, and the command. -/
def parseFrom (before : Matches) : List String → Except Refusal Invocation
  | [] => .error .usage
  | argument :: rest =>
    match argument.toList with
    | ['-'] | ['-', '-'] => .error .usage
    | '-' :: '-' :: body => do parseFrom (← Matches.long leadingOptions before body).done rest
    | '-' :: c :: body => do
      parseFrom (← Matches.letters leadingOptions before (c :: body)).done rest
    | _ => parseCommand before argument rest

/-- Reads the arguments of the program. -/
def parse (arguments : List String) : Except Refusal Invocation := parseFrom {} arguments

end Invocation

end ClassGraft.Cli
