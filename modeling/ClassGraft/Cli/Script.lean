/-
Programs that talk to a disk.

A `Script` is a tree of questions to a disk: it reads a file or writes one, and what comes next
depends on the answer.  The same script runs on the disk of the machine and on a `Store`, which
is a value; so everything but the answers themselves is a pure function.
-/
import ClassGraft.Bytes.BigEndian
import ClassGraft.Fault

namespace ClassGraft.Cli

/-- How a file is read: into memory, or by mapping it there. -/
inductive FileAccess where
  | copied
  | mapped
  deriving DecidableEq, Repr

/-- A program that reads and writes files and ends with a result. -/
inductive Script (α : Type) where
  | done (result : α)
  | readFile (access : FileAccess) (path : String) (next : Except FileFault Bytes → Script α)
  | writeFile (path : String) (contents : Bytes) (next : Except FileFault Unit → Script α)

namespace Script

variable {α β : Type}

/-- Goes on with the result of a script. -/
def andThen (first : Script α) (second : α → Script β) : Script β :=
  match first with
  | .done result => second result
  | .readFile access path next => .readFile access path fun answer => (next answer).andThen second
  | .writeFile path contents next =>
    .writeFile path contents fun answer => (next answer).andThen second

instance : Monad Script where
  pure := .done
  bind := andThen

/-- Reads one file. -/
def read (access : FileAccess) (path : String) : Script (Except FileFault Bytes) :=
  .readFile access path .done

/-- Writes one file. -/
def write (path : String) (contents : Bytes) : Script (Except FileFault Unit) :=
  .writeFile path contents .done

end Script

end ClassGraft.Cli
