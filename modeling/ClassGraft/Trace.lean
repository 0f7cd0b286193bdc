/-
Steps that leave a trace.

A `Step σ α` works on a value of type `σ`, may fail, and writes log lines.  Both the value and
the lines that a failing step leaves behind are kept, so that a caller sees what had been done
and what had been said.
-/
import ClassGraft.Fault

namespace ClassGraft

/-- How much a log line matters. -/
inductive LogLevel where
  | debug
  | info
  | warn
  deriving DecidableEq, Repr

def LogLevel.label : LogLevel → String
  | .debug => "DEBUG"
  | .info => "INFO"
  | .warn => "WARN"

/-- One log line. -/
structure LogLine where
  level : LogLevel
  message : String
  deriving DecidableEq, Repr

/-- A value with the lines that have been logged so far. -/
structure Traced (σ : Type) where
  value : σ
  log : List LogLine

/-- A computation on a value that may fail and that logs. -/
abbrev Step (σ : Type) := EStateM Fault (Traced σ)

namespace Step

variable {σ τ α : Type}

/-- Writes a log line. -/
def note (level : LogLevel) (message : String) : Step σ Unit := fun s =>
  .ok () { s with log := s.log ++ [⟨level, message⟩] }

/-- The value that is worked on. -/
def current : Step σ σ := fun s => .ok s.value s

/-- Works on with another value. -/
def replace (value : σ) : Step σ Unit := fun s => .ok () { s with value }

/-- A result that needs no step. -/
def ofExcept : Except Fault α → Step σ α
  | .ok x => pure x
  | .error fault => throw fault

/-- Runs a step on a value of its own; its log lines stay even if it fails. -/
def within (value : τ) (m : Step τ α) : Step σ (α × τ) := fun s =>
  match m ⟨value, s.log⟩ with
  | .ok x t => .ok (x, t.value) { s with log := t.log }
  | .error fault t => .error fault { s with log := t.log }

/-- The result of a step, and the value and the log that it leaves behind. -/
def outcome (m : Step σ α) (value : σ) : Except Fault α × Traced σ :=
  match m ⟨value, []⟩ with
  | .ok x s => (.ok x, s)
  | .error fault s => (.error fault, s)

end Step

end ClassGraft
