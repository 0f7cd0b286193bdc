/-
Canonical names and the names they have at run time.

A few members have a canonical name and another name in obfuscated classes.  In canonical mode
every name stands for itself; in obfuscated mode the names of `builtinNames` are exchanged for
their run-time names (`NamingMode.resolve`) and back (`NamingMode.canonicalName`).
-/

namespace ClassGraft

/-- Canonical names with their run-time names. -/
def builtinNames : List (String × String) :=
  [("uncheckedTryHarvestBlock", "func_73082_a"),
    ("tryHarvestBlock", "func_73084_b"),
    ("theWorld", "field_73092_a"),
    ("thisPlayerMP", "field_73090_b")]

/-- Which names the members of a class have. -/
inductive NamingMode where
  | canonical
  | obfuscated
  deriving DecidableEq, Repr, Inhabited

namespace NamingMode

def ofObfuscated (obfuscated : Bool) : NamingMode := if obfuscated then .obfuscated else .canonical

def isObfuscated : NamingMode → Bool
  | .obfuscated => true
  | .canonical => false

/-- The mode as log lines name it. -/
def label : NamingMode → String
  | .canonical => "canonical"
  | .obfuscated => "obfuscated"

/-- The name that a canonical name has in this mode. -/
def resolve (mode : NamingMode) (name : String) : String :=
  match mode with
  | .canonical => name
  | .obfuscated => (builtinNames.lookup name).getD name

/-- The canonical name of a name in this mode. -/
def canonicalName (mode : NamingMode) (actual : String) : String :=
  match mode with
  | .canonical => actual
  | .obfuscated =>
    match builtinNames.find? fun (_, runtime) => runtime == actual with
    | some (name, _) => name
    | none => actual

end NamingMode

end ClassGraft
