/-
The program.

A command is a script that may fail, says lines and logs lines; all of this is kept when it
fails (`Session`).  `Program.run` turns arguments into a script whose result is what the program
leaves behind besides files: an exit code and the texts on its two outputs.

Exit codes are 0 for success, 1 for a command that failed, 2 for arguments that are not understood
and 101 for a program that has been stopped.
-/
import ClassGraft.Cli.Arguments
import ClassGraft.Cli.Path
import ClassGraft.Cli.Script
import ClassGraft.Cli.Summary
import ClassGraft.Text.ControlSequence

namespace ClassGraft.Cli

variable [Build]

/-- The failure of a command, with what has caused it, the nearest cause first. -/
structure Failure where
  message : String
  causes : List String := []
  /-- The exit code: that of a program that has been stopped is another one. -/
  exit : Nat := 1
  deriving DecidableEq, Repr

namespace Failure

/-- The sentences of a fault.  That of a file stands for the access and for its cause. -/
def sentences : Fault → List String
  | .file cause => [cause.message, cause.message]
  | fault => [fault.message]

/-- The exit code of a program that has been stopped. -/
def stopped : Nat := 101

/-- A fault that is a failure by itself. -/
def ofFault : Fault → Failure
  | .overflow => ⟨Fault.overflow.message, [], stopped⟩
  | fault => { message := fault.message, causes := (sentences fault).tail }

/-- The failure of what a sentence says, caused by a fault.  A program that is stopped says
nothing more. -/
def caused (message : String) : Fault → Failure
  | .overflow => ofFault .overflow
  | fault => { message, causes := sentences fault }

/-- A text whose lines after the first one are indented. -/
def hang (indent : String) (text : String) : String :=
  String.ofList (text.toList.flatMap fun c => if c = '\n' then '\n' :: indent.toList else [c])

/-- A cause with its number. -/
def numbered (cause : String) (number : Nat) : String :=
  Listing.fill .right 5 (toString number) ++ ": " ++ hang "       " cause ++ "\n"

/-- A failure as the program reports it; several causes are numbered.  Where the program has been
stopped in its code is left out. -/
def text (failure : Failure) : String :=
  let causes := match failure.causes with
    | [] => ""
    | [cause] => "\nCaused by:\n    " ++ hang "    " cause ++ "\n"
    | causes => "\nCaused by:\n" ++ String.join (causes.zipIdx.map fun (c, i) => numbered c i)
  let opening := if failure.exit = stopped then "Stopped" else "Error"
  s!"{opening}: {failure.message}\n" ++ causes

end Failure

/-- What a command has said and logged so far. -/
structure Transcript where
  said : List String := []
  log : List LogLine := []
  deriving DecidableEq, Repr

/-- A command at work. -/
abbrev Session := ExceptT Failure (StateT Transcript Script)

namespace Session

/-- Says lines. -/
def say (lines : List String) : Session Unit :=
  modify fun t => { t with said := t.said ++ lines }

/-- Logs lines. -/
def record (log : List LogLine) : Session Unit :=
  modify fun t => { t with log := t.log ++ log }

/-- Logs one line that matters to every user. -/
def inform (message : String) : Session Unit := record [⟨.info, message⟩]

/-- Asks the disk. -/
def ask {α : Type} (script : Script α) : Session α := ExceptT.lift (StateT.lift script)

/-- A result, or the failure of what a sentence says. -/
def expect {α : Type} (message : String) : Except Fault α → Session α
  | .ok x => pure x
  | .error fault => throw (.caused message fault)

/-- A result, or its fault. -/
def ofExcept {α : Type} : Except Fault α → Session α
  | .ok x => pure x
  | .error fault => throw (.ofFault fault)

/-- Runs a step on a value of its own, with its log lines. -/
def trace {σ α : Type} (value : σ) (m : Step σ α) : Session (Except Fault α × σ) := do
  let (result, after) := m.outcome value
  record after.log
  return (result, after.value)

/-- The class in a file. -/
def loadClass (path : String) : Session ClassFile := do
  let answer ← ask (.read .mapped path)
  expect s!"failed to load class file: {path}" (ClassFile.ofDisk answer)

/-- The mappings in a file, if one is given. -/
def loadMappings : Option String → Session (Option Mappings)
  | none => return none
  | some path => do
    let answer ← ask (.read .mapped path)
    some <$> expect s!"failed to load mappings: {path}" (Mappings.ofDisk answer)

/-- Writes the grafted class, unless the run is dry. -/
def writeClass (request : PatchRequest) (contents : Bytes) : Session (Option String) := do
  if request.dryRun then return none
  let output := request.output.getD (Path.patched request.file)
  match ← ask (.write output contents) with
  | .error cause => throw { message := s!"failed to write {output}", causes := [cause.message] }
  | .ok () =>
    inform s!"Wrote {output}"
    return some output

/-- Grafts the handler call into the class of a file. -/
def patch (request : PatchRequest) : Session PatchSummary := do
  let file := request.file
  let mappings ← loadMappings request.srg
  if let some m := mappings then inform s!"Loaded {m.size} mapping records"
  let t : Transformer := { remapper := mappings.getD .empty }
  if let some (_, known) := request.naming then
    unless t.config.isTarget known do
      throw { message := s!"{known} is not {t.config.targetClass}, nothing to patch" }
  let renamed := request.naming.any fun (stored, known) => stored ≠ known
  let mode := NamingMode.ofObfuscated (request.obfuscated || renamed)
  let bytes ← match ← ask (.read .copied file) with
    | .ok bytes => pure bytes
    | .error cause =>
      throw { message := s!"failed to read class file: {file}", causes := [cause.message] }
  let c ← expect s!"failed to load class file: {file}" (ClassFile.ofBytes bytes)
  let (result, patched) ← trace c (t.patch mode)
  let report ← expect s!"failed to patch {file}" result
  let contents ← ofExcept patched.toBytes
  let output ← writeClass request contents
  return { file, output, mode, report, sizeBefore := bytes.length, sizeAfter := contents.length }

/-- Lists the methods of the class of a file. -/
def methods (file : String) (mode : NamingMode) (srg : Option String) : Session MethodSummary := do
  let c ← loadClass file
  let owner ← ofExcept c.name
  let mappings ← loadMappings srg
  let entry := MethodEntry.ofMethod mode (mappings.getD .empty) owner
  return {
    className := owner
    mappedClass := mappings.bind (·.className? owner)
    methods := c.methods.map entry }

/-- Says the instructions of methods of the class of a file. -/
def disasm (file : String) (filter : Option String) (showBytes : Bool) : Session Unit := do
  let c ← loadClass file
  let methods := Listing.selected c filter
  let listing := Listing.ofClass c methods showBytes
  say listing.shown
  if let some fault := listing.fault? then throw (.ofFault fault)
  if let some text := filter then
    if methods.isEmpty then throw { message := s!"no methods matching '{text}' found" }

/-- Runs the command of an invocation and says its answer. -/
def execute (invocation : Invocation) : Session Unit := do
  let answer := fun lines (json : Json) => say (if invocation.json then json.lines else lines)
  match invocation.command with
  | .patch request =>
    let s ← patch request
    answer s.lines s.json
  | .methods file obfuscated srg =>
    let s ← methods file (.ofObfuscated obfuscated) srg
    answer s.lines s.json
  | .disasm file filter showBytes => disasm file filter showBytes
  | .names obfuscated =>
    let s : NameSummary := ⟨.ofObfuscated obfuscated⟩
    answer s.lines s.json

end Session

/-- What the program leaves behind besides files. -/
structure Outcome where
  exit : Nat
  stdout : String := ""
  stderr : String := ""
  deriving DecidableEq, Repr

namespace Program

/-- How the program is called. -/
def usage : String :=
  "Usage: classgraft [--json] [-v|--verbose] COMMAND\n\n" ++
  "Commands:\n" ++
  "  patch FILE [-o|--output FILE] [--obfuscated] [--srg FILE] [--dry-run]\n" ++
  "        [--name NAME --transformed-name NAME]\n" ++
  "                       graft the handler call into a class file\n" ++
  "  methods FILE [--obfuscated] [--srg FILE]\n" ++
  "                       list the methods of a class file\n" ++
  "  disasm FILE [-m|--method TEXT] [--bytes]\n" ++
  "                       list the instructions of methods\n" ++
  "  names [--obfuscated]\n" ++
  "                       list the names that the graft goes by\n"

/-- Whether a log line is shown: none with JSON, and debug lines on request. -/
def isShown (invocation : Invocation) (line : LogLine) : Bool :=
  !invocation.json && (invocation.verbose || line.level != .debug)

/-- A log line as it is shown: its further lines are indented, and it holds no control
sequences. -/
def logText (line : LogLine) : String :=
  let text := "[" ++ Listing.fill .left 5 line.level.label ++ "] " ++
    Failure.hang "    " line.message ++ "\n"
  String.ofList (Text.shown text.toList)

/-- Every line with a line feed. -/
def joinLines (lines : List String) : String := String.join (lines.map (· ++ "\n"))

/-- The outcome of a command. -/
def outcome (invocation : Invocation) (result : Except Failure Unit) (t : Transcript) : Outcome :=
  let stdout := joinLines t.said
  let log := String.join ((t.log.filter (isShown invocation)).map logText)
  match result with
  | .ok () => { exit := 0, stdout, stderr := log }
  | .error failure => { exit := failure.exit, stdout, stderr := log ++ failure.text }

/-- The outcome of arguments that are no command. -/
def refuse : Refusal → Outcome
  | .usage => { exit := 2, stderr := usage }
  | .help => { exit := 0, stdout := usage }
  | .version => { exit := 0, stdout := "classgraft 0.1.0\n" }

/-- Runs the program. -/
def run (arguments : List String) : Script Outcome :=
  match Invocation.parse arguments with
  | .error refusal => pure (refuse refusal)
  | .ok invocation => do
    let (result, transcript) ← (Session.execute invocation).run.run {}
    return outcome invocation result transcript

end Program

end ClassGraft.Cli
