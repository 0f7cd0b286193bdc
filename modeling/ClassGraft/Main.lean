/-
The command line on the disk of the machine.

Scripts are performed here, and nothing is decided: what is read and written, said and answered
is the result of `Program.run`.
-/
import ClassGraft.Cli.Program

namespace ClassGraft.Cli

/-- The fault of an error number.  Some accesses report the number negated, as a word. -/
def faultOfNumber (number : UInt32) : FileFault :=
  match min number.toNat (-number).toNat with
  | 2 => .notFound
  | 13 => .denied
  | 19 => .noSuchDevice
  | 20 => .notADirectory
  | 21 => .isADirectory
  | 36 => .nameTooLong
  | other => .other other

/-- The fault of a refused access. -/
def faultOf (error : IO.Error) : FileFault :=
  match error with
  | .noFileOrDirectory _ number _ | .permissionDenied _ number _
  | .inappropriateType _ number _ | .invalidArgument _ number _ => faultOfNumber number
  | _ => .other 5

/-- The fault of a reading: a folder cannot be mapped into memory. -/
def readFault (access : FileAccess) (error : IO.Error) : FileFault :=
  match access, faultOf error with
  | .mapped, .isADirectory => .noSuchDevice
  | _, fault => fault

/-- Performs a script on the disk. -/
def perform {α : Type} : Script α → IO α
  | .done result => pure result
  | .readFile access path next => do
    let answer ← try pure (.ok (← IO.FS.readBinFile path).data.toList)
      catch error => pure (.error (readFault access error))
    perform (next answer)
  | .writeFile path contents next => do
    let answer ← try pure (.ok (← IO.FS.writeBinFile path ⟨contents.toArray⟩))
      catch error => pure (.error (faultOf error))
    perform (next answer)

end ClassGraft.Cli

attribute [local instance] ClassGraft.Build.wrapping in
/-- The program as it is released. -/
def main (arguments : List String) : IO UInt32 := do
  let outcome ← ClassGraft.Cli.perform (ClassGraft.Cli.Program.run arguments)
  IO.print outcome.stdout
  IO.eprint outcome.stderr
  return UInt32.ofNat outcome.exit
