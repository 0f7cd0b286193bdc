/-
Answers to the question under which name a member is known at run time.

A `Remapper` may be any such answer: it is given the class that declares the member, the name
and the descriptor.  `Remapper.identity` leaves every name as it is, and mappings answer with
their records (`Mappings.remapper`).
-/
import ClassGraft.Naming.Mappings

namespace ClassGraft

/-- Run-time names of members. -/
structure Remapper where
  /-- The run-time name of the method of an owner, a name and a descriptor. -/
  methodName (owner name descriptor : String) : String
  /-- The run-time name of the field of an owner, a name and a descriptor. -/
  fieldName (owner name descriptor : String) : String

/-- Every member keeps its name. -/
def Remapper.identity : Remapper := ⟨fun _ name _ => name, fun _ name _ => name⟩

/-- Names as mappings list them; the descriptor of a field does not matter. -/
def Mappings.remapper (m : Mappings) : Remapper :=
  ⟨m.methodName, fun owner name _ => m.fieldName owner name⟩

instance : Coe Mappings Remapper := ⟨Mappings.remapper⟩

end ClassGraft
